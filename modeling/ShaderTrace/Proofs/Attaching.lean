import ShaderTrace.Proofs.Preorder

/-!
# What an attachment changes

The check for a cycle goes upwards from the new parent, and everything else that reads an arena goes downwards. The way upwards
ends at a detached node (`Owned.exists_climbs`), and it passes through the child exactly if a walk down from the child comes to the
parent. So no attachment is refused without need, and one that is made changes the trees that hold the parent and no other
(`attach_exact`).
-/

namespace ShaderTrace.Arena

open Relation

variable {arena : Arena}

/-! ## The way upwards -/

/-- The walk upwards without a bound: the node itself, after each node the one that it belongs to, and at the end a node that is
detached. -/
inductive Climbs (arena : Arena) : NodeId → List NodeId → Prop
  | detached {id : NodeId} (h : arena.parent? id = none) : Climbs arena id [id]
  | under {id parent : NodeId} {chain : List NodeId} (h : arena.parent? id = some parent) (hrest : Climbs arena parent chain) :
    Climbs arena id (id :: chain)

section Climbs

variable {id : NodeId} {chain : List NodeId}

/-- A walk upwards passes through all that the node belongs to, directly or through others, and through nothing else. -/
theorem Climbs.mem_iff (h : arena.Climbs id chain) {other : NodeId} :
    other ∈ chain ↔ ReflTransGen arena.Under id other := by
  induction h with
  | @detached id h =>
    rw [List.mem_singleton]
    constructor
    · rintro rfl
      exact .refl
    · intro hpath
      rcases hpath.cases_head with he | ⟨parent, hu, -⟩
      · exact he.symm
      · simp [Under, h] at hu
  | @under id parent chain h _ ih =>
    rw [List.mem_cons, ih]
    constructor
    · rintro (rfl | hpath)
      · exact .refl
      · exact .head h hpath
    · intro hpath
      rcases hpath.cases_head with he | ⟨parent', hu, hrest⟩
      · exact .inl he.symm
      · rw [under_rightUnique arena hu h] at hrest
        exact .inr hrest

/-- A bound changes nothing if it allows as many steps as the way has. -/
theorem Climbs.ancestors_eq (h : arena.Climbs id chain) {bound : Nat} (hb : chain.length ≤ bound) :
    arena.ancestors bound id = chain := by
  induction h generalizing bound with
  | detached h =>
    obtain ⟨bound, rfl⟩ : ∃ n, bound = n + 1 := ⟨bound - 1, by rw [List.length_singleton] at hb; omega⟩
    rw [ancestors, h]
    rfl
  | under h _ ih =>
    rw [List.length_cons] at hb
    obtain ⟨bound, rfl⟩ : ∃ n, bound = n + 1 := ⟨bound - 1, by omega⟩
    rw [ancestors, h, Option.map_some, Option.getD_some, ih (by omega)]

/-- Every walk upwards ends, because no node belongs to itself. -/
theorem Owned.exists_climbs (ho : arena.Owned) (id : NodeId) : ∃ chain, arena.Climbs id chain := by
  -- fewer nodes are above the owner of a node than above the node
  induction hn : arena.height id using Nat.strong_induction_on generalizing id with
  | _ n ih =>
    cases hp : arena.parent? id with
    | none => exact ⟨[id], .detached hp⟩
    | some parent =>
      obtain ⟨chain, hchain⟩ := ih (arena.height parent) (hn ▸ ho.height_lt hp) parent rfl
      exact ⟨id :: chain, .under hp hchain⟩

/-- A walk upwards passes through each node of the arena once at most. -/
theorem Owned.length_climbs_le (ho : arena.Owned) (hid : id.index < arena.size) (h : arena.Climbs id chain) :
    chain.length ≤ arena.size := by
  have hheight : chain.length ≤ arena.height id := by
    induction h with
    | detached _ => exact height_pos hid
    | under h _ ih =>
      have hlt := ho.height_lt h
      have hrest := ih (ho.lt_size_parent h)
      rw [List.length_cons]
      omega
  exact Nat.le_trans hheight (height_le_size arena id)

/-- The walk upwards from a node of the arena ends, and the steps that it may take are enough. -/
theorem Owned.climbs_ancestors (ho : arena.Owned) (hid : id.index < arena.size) :
    arena.Climbs id (arena.ancestors arena.size id) := by
  obtain ⟨chain, hchain⟩ := ho.exists_climbs id
  rwa [hchain.ancestors_eq (ho.length_climbs_le hid hchain)]

end Climbs

/-! ## Attaching -/

section Attach

variable {parent child : NodeId} {node : Node}

/-- Where there is room and nothing is sealed or attached, the check for a cycle decides. -/
theorem attach_eq (hparent : arena.get? parent = some node)
    (hroom : ∀ max, node.kind.arity.max = some max → node.children.length < max)
    (hopen : node.parent = none ∨ node.kind.isBlock = true) (hchild : child.index < arena.size)
    (hdetached : arena.parent? child = none) :
    arena.attach parent child =
      if child ∈ arena.ancestors arena.size parent then .error (.cycle parent child) else .ok (arena.link parent child) := by
  obtain ⟨childNode, hnode⟩ := Option.isSome_iff_exists.1 ((get?_isSome_iff arena child).2 hchild)
  have hnone : childNode.parent = none := by simpa [parent?, hnode] using hdetached
  have hroomy : checkRoom parent node = .ok () := checkRoom_eq_ok_iff.2 hroom
  have hunsealed : checkUnsealed parent node = .ok () := checkUnsealed_eq_ok_iff.2 hopen
  have hfree : checkDetached child childNode = .ok () := checkDetached_eq_ok_iff.2 hnone
  have hcheck : arena.checkAttach parent child = arena.checkAcyclic parent child := by
    unfold checkAttach
    simp only [find_eq_ok_iff.2 hparent, find_eq_ok_iff.2 hnode, hroomy, hunsealed, hfree, bind, Except.bind]
  unfold attach
  rw [hcheck, checkAcyclic]
  by_cases hm : child ∈ arena.ancestors arena.size parent
  · rw [if_pos (List.contains_iff_mem.2 hm), if_pos hm]
    rfl
  · rw [if_neg fun h => hm (List.contains_iff_mem.1 h), if_neg hm]
    rfl

/-- The way upwards from a node passes through the root of a tree exactly if the node is in the tree. -/
theorem Owned.mem_ids_iff_climbs (ho : arena.Owned) {tree : Tree} (h : arena.Holds tree) {id : NodeId} :
    id ∈ tree.ids ↔ ∃ chain, arena.Climbs id chain ∧ tree.id ∈ chain := by
  rw [ho.mem_ids_iff h]
  constructor
  · intro hpath
    obtain ⟨chain, hchain⟩ := ho.exists_climbs id
    exact ⟨chain, hchain, hchain.mem_iff.2 hpath⟩
  · rintro ⟨chain, hchain, hm⟩
    exact hchain.mem_iff.1 hm

/-- The walk upwards from a node passes through another one exactly if the tree of that one has the node. -/
theorem Owned.mem_ancestors_iff (ho : arena.Owned) {tree : Tree} (h : arena.Holds tree) {id : NodeId}
    (hid : id.index < arena.size) : tree.id ∈ arena.ancestors arena.size id ↔ id ∈ tree.ids := by
  rw [(ho.climbs_ancestors hid).mem_iff, ho.mem_ids_iff h]

/-- The walk down from a node comes to the nodes below a new child last. -/
theorem Owned.preorder_link (ho : arena.Owned) {tree sub : Tree} (h : arena.Holds tree) (hsub : arena.Holds sub)
    (ho' : (arena.link tree.id sub.id).Owned) (hn : ¬ReflTransGen arena.Under tree.id sub.id) :
    (arena.link tree.id sub.id).preorder tree.id = .ok (tree.ids ++ sub.ids) := by
  obtain ⟨id, head, children⟩ := tree
  have hwalk := ho'.preorder_eq (ho.holds_link h hsub hn)
  rwa [Tree.ids, Tree.idsAll_append, Tree.idsAll, Tree.idsAll, List.append_nil, ← List.cons_append, ← Tree.ids] at hwalk

end Attach

/-- Let `child` be a detached node, and let `parent` have room and not be sealed. Then the walk upwards from `parent` ends, and the
attachment is refused for a cycle exactly if the walk down from `child` comes to `parent`. Otherwise it is made. The tree of
`child` and all trees without `parent` stay as they were, and the walk down from `parent` comes to what it came to before and then
to what the walk from `child` comes to. -/
theorem attach_exact (arena : Arena) (ho : arena.Owned) (parent child : NodeId) (node : Node)
    (hparent : arena.get? parent = some node)
    (hroom : ∀ max, node.kind.arity.max = some max → node.children.length < max)
    (hopen : node.parent = none ∨ node.kind.isBlock = true)
    (hchild : child.index < arena.size) (hdetached : arena.parent? child = none) :
    arena.Climbs parent (arena.ancestors arena.size parent) ∧
    ∃ above below, arena.preorder parent = .ok above ∧ arena.preorder child = .ok below ∧
      (arena.attach parent child = .error (.cycle parent child) ↔ parent ∈ below) ∧
      (parent ∉ below → ∃ arena', arena.attach parent child = .ok arena' ∧
        (arena'.tree child = arena.tree child ∧ arena'.preorder child = .ok below) ∧
        (∀ root tree, arena.tree root = .ok tree → parent ∉ tree.ids →
          arena'.tree root = .ok tree ∧ arena'.preorder root = arena.preorder root) ∧
        arena'.preorder parent = .ok (above ++ below)) := by
  have hlt : parent.index < arena.size := (get?_isSome_iff arena parent).1 (by rw [hparent]; rfl)
  obtain ⟨tree, htree, rfl⟩ := ho.exists_tree parent hlt
  obtain ⟨sub, hsub, rfl⟩ := ho.exists_tree child hchild
  have hattach := attach_eq hparent hroom hopen hchild hdetached
  simp only [ho.mem_ancestors_iff hsub hlt] at hattach
  refine ⟨ho.climbs_ancestors hlt, tree.ids, sub.ids, ho.preorder_eq htree, ho.preorder_eq hsub, ?_, fun hnot => ?_⟩
  · by_cases hm : tree.id ∈ sub.ids
    · rw [hattach, if_pos hm]
      exact iff_of_true rfl hm
    · rw [hattach, if_neg hm]
      exact iff_of_false (by rintro ⟨⟩) hm
  · have hpath : ¬ReflTransGen arena.Under tree.id sub.id := fun h => hnot ((ho.mem_ids_iff hsub).2 h)
    have ho' := ho.link hlt hchild hdetached hpath
    -- a tree without the parent keeps its nodes, and the walk over it is read off them
    have hframe : ∀ {root : NodeId} {other : Tree}, arena.tree root = .ok other → tree.id ∉ other.ids →
        (arena.link tree.id sub.id).tree root = .ok other ∧
          (arena.link tree.id sub.id).preorder root = arena.preorder root := by
      intro root other hother hout
      obtain ⟨hheld, rfl⟩ := ho.tree_eq_ok_iff.1 hother
      have hheld' := hheld.link sub.id hout
      exact ⟨ho'.tree_eq_ok_iff.2 ⟨hheld', rfl⟩, (ho'.preorder_eq hheld').trans (ho.preorder_eq hheld).symm⟩
    have hkept := ho.tree_eq_ok_iff.2 ⟨hsub, rfl⟩
    refine ⟨_, hattach.trans (if_neg hnot), ⟨?_, ?_⟩, fun root other => hframe, ho.preorder_link htree hsub ho' hpath⟩
    · rw [hkept]
      exact (hframe hkept hnot).1
    · rw [(hframe hkept hnot).2, ho.preorder_eq hsub]

/-- Two blocks, one inside the other, and a row of two nodes beside them. -/
def blockEdits : List Edit :=
  [.alloc { kind := .block, type := .void }, .alloc { kind := .block, type := .void }, .attach ⟨0⟩ ⟨1⟩,
    .alloc { kind := .elseBranch, type := .void }, .alloc { kind := .block, type := .void }, .attach ⟨2⟩ ⟨3⟩]

/-- The outer block cannot go into the inner one; what is beside them can. -/
theorem attach_exact_blocks :
    (Arena.empty.editAll blockEdits).Owned ∧
      (Arena.empty.editAll blockEdits).ancestors 4 ⟨1⟩ = [⟨1⟩, ⟨0⟩] ∧
      (Arena.empty.editAll blockEdits).attach ⟨1⟩ ⟨0⟩ = .error (.cycle ⟨1⟩ ⟨0⟩) ∧
      ∃ arena', (Arena.empty.editAll blockEdits).attach ⟨1⟩ ⟨2⟩ = .ok arena' ∧ arena'.preorder ⟨2⟩ = .ok [⟨2⟩, ⟨3⟩] ∧
        arena'.preorder ⟨1⟩ = .ok [⟨1⟩, ⟨2⟩, ⟨3⟩] := by
  have howned := owned_editAll blockEdits
  have hnode : (Arena.empty.editAll blockEdits).get? ⟨1⟩ =
      some { head := { kind := .block, type := .void }, children := [], parent := some ⟨0⟩ } := by decide +kernel
  have hattach : ∀ child : NodeId, child.index < (Arena.empty.editAll blockEdits).size →
      (Arena.empty.editAll blockEdits).parent? child = none → _ := fun child =>
    attach_exact _ howned ⟨1⟩ child _ hnode (fun max h => by cases h) (.inr rfl)
  obtain ⟨-, above, below, -, hbelow, hcycle, -⟩ := hattach ⟨0⟩ (by decide +kernel) (by decide +kernel)
  obtain ⟨-, above', below', habove', hbelow', -, hmade⟩ := hattach ⟨2⟩ (by decide +kernel) (by decide +kernel)
  have hwalk : (Arena.empty.editAll blockEdits).preorder ⟨0⟩ = .ok [⟨0⟩, ⟨1⟩] := by decide +kernel
  have hwalk' : (Arena.empty.editAll blockEdits).preorder ⟨1⟩ = .ok [⟨1⟩] := by decide +kernel
  have hwalk'' : (Arena.empty.editAll blockEdits).preorder ⟨2⟩ = .ok [⟨2⟩, ⟨3⟩] := by decide +kernel
  obtain rfl := Except.ok.inj (hwalk.symm.trans hbelow)
  obtain rfl := Except.ok.inj (hwalk'.symm.trans habove')
  obtain rfl := Except.ok.inj (hwalk''.symm.trans hbelow')
  obtain ⟨arena', hok, ⟨-, hsub⟩, -, hrow⟩ := hmade (by decide)
  exact ⟨howned, by decide +kernel, hcycle.2 (by decide), arena', hok, hsub, hrow⟩

end ShaderTrace.Arena
