import Mathlib.Data.List.Nodup
import ShaderTrace.Proofs.Copying

/-!
# Every arena is a forest

Whatever edits are made, refused ones among them, an arena stays a forest: what a node lists is what names it as its owner, no
node is listed twice, every way upwards ends, and no node has more children than its kind admits (`Forest`). An edit leaves what
a node says, and to whom it belongs once it belongs to a node; it adds children only to blocks and to nodes that are still
detached (`Settled`). `editAll_forest` says both of every row of edits.
-/

namespace ShaderTrace.Arena

open Relation

/-! ## Room for children -/

/-- The node has no more children than its kind admits. -/
def Roomy (arena : Arena) (id : NodeId) : Prop :=
  ∀ head children, arena.content? id = some (head, children) → ∀ max, head.kind.arity.max = some max →
    children.length ≤ max

/-- Whether a node has too many children depends on what the arena says of it alone. -/
theorem Roomy.of_content {arena arena' : Arena} {id : NodeId} (hc : arena'.content? id = arena.content? id)
    (h : arena.Roomy id) : arena'.Roomy id := by
  intro head children hx
  exact h head children (hc ▸ hx)

/-- A new node has no children, and the others have as many as before. -/
theorem roomy_alloc {arena : Arena} (h : ∀ id, arena.Roomy id) (head : Head) (id : NodeId) :
    (arena.alloc head).2.Roomy id := by
  intro head' children hx max hmax
  rw [content?_alloc] at hx
  split at hx
  · cases hx
    exact Nat.zero_le _
  · exact h id head' children hx max hmax

/-- One more child is no child too many, if there was room for one. -/
theorem roomy_link {arena : Arena} (h : ∀ id, arena.Roomy id) {parent : NodeId} (child : NodeId) {node : Node}
    (hn : arena.get? parent = some node)
    (hroom : ∀ max, node.kind.arity.max = some max → node.children.length < max) (id : NodeId) :
    (arena.link parent child).Roomy id := by
  intro head children hx max hmax
  by_cases hid : id = parent
  · subst hid
    have hcontent : arena.content? id = some (node.head, node.children) := by rw [content?, hn]; rfl
    rw [content?_link_self child hcontent] at hx
    cases hx
    have := hroom max hmax
    rw [List.length_append, List.length_singleton]
    omega
  · rw [content?_link_of_ne _ _ hid] at hx
    exact h id head children hx max hmax

/-- A new node that gets copies of the children of a node has as many as that node. -/
theorem roomy_parent {original arena : Arena} (hr : ∀ id, original.Roomy id) {source parent : NodeId} {head : Head}
    {children : List Tree} (h : original.Holds (.node source head children))
    (hp : arena.content? parent = some (head, [])) : (graftAll arena parent children).Roomy parent := by
  obtain ⟨copies, hterms, -, -, hcopies⟩ := (graftedAll children arena parent (lt_size_of_content? hp)).copies
  have hlength : copies.length = children.length := by simpa using congrArg List.length hterms
  intro head' children' hx max hmax
  rw [hcopies head [] hp] at hx
  cases hx
  have := hr source head _ (holds_node.1 h).1 max hmax
  simpa [hlength] using this

mutual

/-- A copy of a tree has as many children at each node as the tree has there. -/
theorem graft_roomy {original : Arena} (hr : ∀ id, original.Roomy id) : ∀ (tree : Tree) (arena : Arena) (parent : NodeId),
    original.Holds tree → parent.index < arena.size → ∀ id : NodeId, arena.size ≤ id.index →
      (graft arena parent tree).Roomy id
  | .node source head children, arena, parent, h, hp, id, hid => by
    have hs := size_allocUnder arena head parent
    rw [graft]
    by_cases hself : id = ⟨arena.size⟩
    · subst hself
      exact roomy_parent hr h (content?_allocUnder_new arena head parent hp)
    · have hlater : (arena.allocUnder head parent).2.size ≤ id.index := by
        have : id.index ≠ arena.size := fun he => hself (NodeId.ext_index he)
        omega
      refine graftAll_roomy hr children _ ⟨arena.size⟩ (holds_node.1 h).2 ?_ id hlater
      rw [hs]
      exact Nat.lt_succ_self _

/-- Copies of nodes that do not have too many children do not either. -/
theorem graftAll_roomy {original : Arena} (hr : ∀ id, original.Roomy id) : ∀ (trees : List Tree) (arena : Arena)
    (parent : NodeId), (∀ tree ∈ trees, original.Holds tree) → parent.index < arena.size →
      ∀ id : NodeId, arena.size ≤ id.index → (graftAll arena parent trees).Roomy id
  | [], arena, parent, _, _, id, hid => by
    rw [graftAll]
    intro head children hx
    have := lt_size_of_content? hx
    omega
  | tree :: trees, arena, parent, h, hp, id, hid => by
    have hfirst := grafted tree arena parent hp
    have hp' := Nat.lt_of_lt_of_le hp hfirst.size_le
    have hrest := graftedAll trees (graft arena parent tree) parent hp'
    rw [graftAll]
    by_cases hlt : id.index < (graft arena parent tree).size
    · -- the copies of the other trees leave the first copy as it is
      have hne : id ≠ parent := by
        rintro rfl
        omega
      exact (graft_roomy hr tree arena parent (h tree List.mem_cons_self) hp id hid).of_content (hrest.content id hlt hne)
    · exact graftAll_roomy hr trees _ parent (fun t ht => h t (List.mem_cons_of_mem _ ht)) hp' id (by omega)

end

/-! ## What an edit leaves as it was -/

/-- Every node is still there and says what it said. If it belonged to a node it belongs to that node, and has the same children
unless it is a block. -/
structure Settled (arena arena' : Arena) : Prop where
  head : ∀ id node, arena.get? id = some node → ∃ node', arena'.get? id = some node' ∧ node'.head = node.head
  owner : ∀ child parent, arena.parent? child = some parent → arena'.parent? child = some parent
  children : ∀ id node parent, arena.get? id = some node → node.parent = some parent → node.kind.isBlock = false →
    arena'.childrenOf id = node.children

/-- The children of a node are those that it lists. -/
theorem childrenOf_of_get? {arena : Arena} {id : NodeId} {node : Node} (h : arena.get? id = some node) :
    arena.childrenOf id = node.children := by
  simp [childrenOf, content?, h]

/-- A node is the same if it says the same and belongs to the same. -/
theorem get?_eq_of_content? {arena arena' : Arena} {id : NodeId} (hc : arena'.content? id = arena.content? id)
    (hp : arena'.parent? id = arena.parent? id) : arena'.get? id = arena.get? id := by
  unfold content? at hc
  unfold parent? at hp
  cases h : arena.get? id with
  | none => simpa [h] using hc
  | some node =>
    cases h' : arena'.get? id with
    | none => simp [h, h'] at hc
    | some node' =>
      obtain ⟨head, children, parent⟩ := node
      obtain ⟨head', children', parent'⟩ := node'
      simp only [h, h', Option.map_some, Option.bind_some, Option.some.injEq, Prod.mk.injEq] at hc hp
      rw [hc.1, hc.2, hp]

/-- Nodes that are as they were. -/
theorem settled_of_get? {arena arena' : Arena} (h : ∀ id, id.index < arena.size → arena'.get? id = arena.get? id) :
    Settled arena arena' := by
  have hsame : ∀ id node, arena.get? id = some node → arena'.get? id = some node := by
    intro id node hn
    rw [h id ((get?_isSome_iff arena id).1 (by rw [hn]; rfl)), hn]
  refine ⟨fun id node hn => ⟨node, hsame id node hn, rfl⟩, ?_, ?_⟩
  · intro child parent hu
    obtain ⟨node, hn, hparent⟩ := Option.bind_eq_some_iff.1 hu
    rw [parent?, hsame child node hn]
    exact hparent
  · intro id node parent hn _ _
    exact childrenOf_of_get? (hsame id node hn)

/-- A link gives one child to a node that was detached or is a block, and one owner to a node that had none. -/
theorem settled_link {arena : Arena} {parent child : NodeId} {node : Node} (hn : arena.get? parent = some node)
    (hopen : node.parent = none ∨ node.kind.isBlock = true) (hd : arena.parent? child = none) :
    Settled arena (arena.link parent child) := by
  refine ⟨?_, ?_, ?_⟩
  · intro id other hother
    rw [get?_link, hother]
    exact ⟨_, rfl, rfl⟩
  · intro id owner hu
    have hc : child ≠ id := by
      rintro rfl
      rw [hd] at hu
      cases hu
    obtain ⟨other, hother, hparent⟩ := Option.bind_eq_some_iff.1 hu
    rw [parent?, get?_link, hother, Option.map_some, Option.bind_some, if_neg (Ne.symm hc)]
    exact hparent
  · intro id other owner hother hparent hblock
    have hp : id ≠ parent := by
      rintro rfl
      rw [hn] at hother
      cases hother
      rcases hopen with hnone | hopen
      · rw [hnone] at hparent
        cases hparent
      · rw [hopen] at hblock
        cases hblock
    rw [childrenOf, content?_link_of_ne _ _ hp]
    exact childrenOf_of_get? hother

/-! ## Forests -/

/-- The nodes of an arena form trees. -/
structure Forest (arena : Arena) : Prop where
  /-- What a node lists is a node of the arena. -/
  allocated : ∀ parent child, child ∈ arena.childrenOf parent → child.index < arena.size
  /-- A node lists those that name it as their owner. -/
  linked : ∀ parent child, child ∈ arena.childrenOf parent ↔ arena.parent? child = some parent
  /-- No node is listed twice, whether by one node or by two. -/
  once : (arena.nodes.toList.flatMap Node.children).Nodup
  /-- The way upwards from a node comes to one that is detached. -/
  rooted : ∀ id, ∃ root, ReflTransGen arena.Under id root ∧ arena.parent? root = none
  /-- It never comes back to the node. -/
  acyclic : ∀ id, ¬TransGen arena.Under id id
  /-- No node has more children than its kind admits. -/
  roomy : ∀ id node, arena.get? id = some node → ∀ max, node.kind.arity.max = some max → node.children.length ≤ max

/-- Every node belongs, directly or through others, to a node that is detached. -/
theorem Owned.exists_root {arena : Arena} (h : arena.Owned) (id : NodeId) :
    ∃ root, ReflTransGen arena.Under id root ∧ arena.parent? root = none := by
  -- fewer nodes are above the owner of a node than above the node
  induction hn : arena.height id using Nat.strong_induction_on generalizing id with
  | _ n ih =>
    cases hp : arena.parent? id with
    | none => exact ⟨id, .refl, hp⟩
    | some parent =>
      obtain ⟨root, habove, hroot⟩ := ih (arena.height parent) (hn ▸ h.height_lt hp) parent rfl
      exact ⟨root, .head hp habove, hroot⟩

/-- No node is listed as a child twice, in the same list or in two. -/
theorem Owned.nodup_children {arena : Arena} (h : arena.Owned) : (arena.nodes.toList.flatMap Node.children).Nodup := by
  have hlists : ∀ (i : Nat) (hi : i < arena.nodes.toList.length),
      arena.childrenOf ⟨i⟩ = arena.nodes.toList[i].children := by
    intro i hi
    exact childrenOf_of_get? (by simp [get?])
  rw [List.nodup_flatMap]
  refine ⟨?_, ?_⟩
  · intro node hm
    obtain ⟨i, hi, rfl⟩ := List.mem_iff_getElem.1 hm
    rw [← hlists i hi]
    exact h.nodup ⟨i⟩
  · rw [List.pairwise_iff_getElem]
    intro i j hi hj hij child hci hcj
    rw [← hlists i hi, h.linked] at hci
    rw [← hlists j hj, h.linked] at hcj
    have := congrArg NodeId.index (under_rightUnique arena hci hcj)
    simp only at this
    omega

/-- An arena with sound ownership and no node with too many children is a forest. -/
theorem Owned.forest {arena : Arena} (h : arena.Owned) (hr : ∀ id, arena.Roomy id) : arena.Forest where
  allocated parent child hc := lt_size_of_under ((h.linked parent child).1 hc)
  linked := h.linked
  once := h.nodup_children
  rooted := h.exists_root
  acyclic := h.acyclic
  roomy id node hn max hmax := hr id node.head node.children (by rw [content?, hn]; rfl) max hmax

/-! ## One edit, and a row of them -/

/-- What a copy leaves behind: its nodes have the room that those of the original have, and no node that was there changes. -/
theorem Owned.clone_settled {arena arena' : Arena} (h : arena.Owned) (hr : ∀ id, arena.Roomy id) {root copy : NodeId}
    (hc : arena.clone root = .ok (copy, arena')) : (∀ id, arena'.Roomy id) ∧ Settled arena arena' := by
  obtain ⟨tree, ht, rfl⟩ := h.exists_tree root (lt_size_of_clone hc)
  have hkept : ∀ id : NodeId, id.index < arena.size →
      arena'.content? id = arena.content? id ∧ arena'.parent? id = arena.parent? id := by
    obtain ⟨_, _, hc', -, -, -, -, -, hkept, -⟩ := h.clone ht
    rw [hc] at hc'
    cases hc'
    exact hkept
  refine ⟨fun id => ?_, settled_of_get? fun id hid => get?_eq_of_content? (hkept id hid).1 (hkept id hid).2⟩
  by_cases hold : id.index < arena.size
  · exact (hr id).of_content (hkept id hold).1
  · rw [h.clone_eq ht] at hc
    cases hc
    obtain ⟨source, head, children⟩ := tree
    by_cases hself : id = ⟨arena.size⟩
    · subst hself
      exact roomy_parent hr ht (content?_alloc_self arena head)
    · have hlater : (arena.alloc head).2.size ≤ id.index := by
        have : id.index ≠ arena.size := fun he => hself (NodeId.ext_index he)
        rw [size_alloc]
        omega
      exact graftAll_roomy hr children _ ⟨arena.size⟩ (holds_node.1 ht).2 (by simp) id hlater

/-- An edit gives no node too many children, and leaves what was settled. -/
theorem Owned.edit_settled {arena : Arena} (h : arena.Owned) (hr : ∀ id, arena.Roomy id) (edit : Edit) :
    (∀ id, (arena.edit edit).2.Roomy id) ∧ Settled arena (arena.edit edit).2 := by
  cases edit with
  | alloc head =>
    refine ⟨roomy_alloc hr head, settled_of_get? fun id hid => ?_⟩
    show (arena.alloc head).2.get? id = arena.get? id
    rw [get?_alloc, if_neg (by omega)]
  | attach parent child =>
    rw [Arena.edit]
    cases ha : arena.attach parent child with
    | error e => exact ⟨hr, settled_of_get? fun _ _ => rfl⟩
    | ok arena' =>
      obtain ⟨_, hcheck, ha⟩ := bind_eq_ok_iff.1 ha
      obtain ⟨node, hn, hroom, hopen, _, hdetached, _⟩ := h.checkAttach_eq_ok_iff.1 hcheck
      cases ha
      exact ⟨roomy_link hr child hn hroom, settled_link hn hopen hdetached⟩
  | clone root =>
    rw [Arena.edit]
    cases hc : arena.clone root with
    | error e => exact ⟨hr, settled_of_get? fun _ _ => rfl⟩
    | ok result => exact h.clone_settled hr hc

/-- No row of edits gives a node too many children. -/
theorem roomy_editAll (edits : List Edit) : ∀ id, (Arena.empty.editAll edits).Roomy id := by
  have h : ∀ arena : Arena, arena.Owned → (∀ id, arena.Roomy id) → ∀ id, (arena.editAll edits).Roomy id := by
    induction edits with
    | nil => intro arena _ hr; exact hr
    | cons edit edits ih =>
      intro arena ho hr
      exact ih _ (ho.edit edit) (ho.edit_settled hr edit).1
  refine h Arena.empty owned_empty ?_
  intro id head children hx
  exact absurd (lt_size_of_content? hx) (Nat.not_lt_zero _)

/-- Every row of edits of the arena without nodes, refused edits among them, leaves a forest. The next edit leaves what the nodes
say, the owners of the nodes that have one, and the children of those among them that are no blocks. Every node of the arena, and
nothing else, can be copied. -/
theorem editAll_forest (edits : List Edit) :
    (Arena.empty.editAll edits).Forest ∧
      (∀ edit, Settled (Arena.empty.editAll edits) ((Arena.empty.editAll edits).edit edit).2) ∧
      ∀ root, (∃ copy arena, (Arena.empty.editAll edits).clone root = .ok (copy, arena)) ↔
        root.index < (Arena.empty.editAll edits).size := by
  have ho := owned_editAll edits
  have hr := roomy_editAll edits
  refine ⟨ho.forest hr, fun edit => (ho.edit_settled hr edit).2, fun root => ⟨?_, fun hlt => ?_⟩⟩
  · rintro ⟨copy, arena, hc⟩
    exact lt_size_of_clone hc
  · obtain ⟨tree, ht, rfl⟩ := ho.exists_tree root hlt
    exact ⟨_, _, ho.clone_eq ht⟩

end ShaderTrace.Arena
