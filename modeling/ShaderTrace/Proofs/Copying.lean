import ShaderTrace.Proofs.Unfolding
import ShaderTrace.Proofs.Worklists

/-!
# Copies of trees

A copy is made node by node from a stack of tasks. `graft` is the same copy by recursion over the tree, and the walk agrees
with it (`ends_graft`). A copy has the term of its original, all its nodes are new, and nothing else changes (`Grafted`,
`Owned.clone`); so ownership stays sound under every row of edits (`owned_editAll`).
-/

namespace ShaderTrace

namespace Arena

open Relation

/-! ## A new node under a node -/

section AllocUnder

variable (arena : Arena) (head : Head) (parent : NodeId)

theorem size_allocUnder : (arena.allocUnder head parent).2.size = arena.size + 1 := by
  simp [allocUnder]

/-- The new node has the head that was given, and no children. -/
theorem content?_allocUnder_new (hp : parent.index < arena.size) :
    (arena.allocUnder head parent).2.content? ⟨arena.size⟩ = some (head, []) := by
  have hne : (⟨arena.size⟩ : NodeId) ≠ parent := by rintro rfl; simp at hp
  simp only [allocUnder, alloc_fst]
  rw [content?_link_of_ne _ _ hne, content?_alloc_self]

/-- Other nodes than the owner say what they said. -/
theorem content?_allocUnder_of_ne {id : NodeId} (hid : id.index < arena.size) (hne : id ≠ parent) :
    (arena.allocUnder head parent).2.content? id = arena.content? id := by
  simp only [allocUnder]
  rw [content?_link_of_ne _ _ hne, content?_alloc_of_lt _ _ hid]

/-- The owner has the new node as its last child. -/
theorem content?_allocUnder_parent {h : Head} {children : List NodeId} (hp : arena.content? parent = some (h, children)) :
    (arena.allocUnder head parent).2.content? parent = some (h, children ++ [⟨arena.size⟩]) := by
  simp only [allocUnder, alloc_fst]
  exact content?_link_self _ ((content?_alloc_of_lt _ _ (lt_size_of_content? hp)).trans hp)

/-- The nodes that were there belong to what they belonged to. -/
theorem parent?_allocUnder {id : NodeId} (hid : id.index < arena.size) :
    (arena.allocUnder head parent).2.parent? id = arena.parent? id := by
  have hne : id ≠ (⟨arena.size⟩ : NodeId) := by rintro rfl; simp at hid
  simp only [allocUnder, alloc_fst]
  rw [parent?_link _ _ _ _ (by simp), if_neg hne, parent?_alloc]

/-- Ownership stays sound where a node is allocated under another one. -/
theorem Owned.allocUnder {arena : Arena} (h : arena.Owned) (head : Head) {parent : NodeId}
    (hp : parent.index < arena.size) : (arena.allocUnder head parent).2.Owned := by
  have hnew : (arena.alloc head).2.parent? ⟨arena.size⟩ = none := by rw [parent?_alloc, parent?_size]
  refine (h.alloc head).link (by simp; omega) (by simp) hnew ?_
  -- nothing belongs to the new node yet
  rw [under_alloc]
  intro hab
  have := h.lt_size_of_above hp hab
  simp at this

end AllocUnder

/-! ## Copying by recursion over the tree -/

mutual

/-- A copy of a tree, made the last child of a node. -/
def graft : Arena → (parent : NodeId) → Tree → Arena
  | arena, parent, .node _ head children => graftAll (arena.allocUnder head parent).2 ⟨arena.size⟩ children

/-- Copies of trees, made the last children of a node. -/
def graftAll : Arena → (parent : NodeId) → List Tree → Arena
  | arena, _, [] => arena
  | arena, parent, tree :: trees => graftAll (graft arena parent tree) parent trees

end

/-- `arena'` is `arena` with copies of `trees` under `parent`: the copies are new and have the same terms, and of the nodes
that were there `parent` alone has changed. -/
structure Grafted (arena arena' : Arena) (parent : NodeId) (trees : List Tree) : Prop where
  size_le : arena.size ≤ arena'.size
  content : ∀ id, id.index < arena.size → id ≠ parent → arena'.content? id = arena.content? id
  owner : ∀ id, id.index < arena.size → arena'.parent? id = arena.parent? id
  owned : arena.Owned → arena'.Owned
  copies : ∃ copies : List Tree, copies.map Tree.term = trees.map Tree.term ∧ (∀ copy ∈ copies, arena'.Holds copy) ∧
    (∀ copy ∈ copies, ∀ id ∈ copy.ids, arena.size ≤ id.index) ∧
    ∀ head children, arena.content? parent = some (head, children) →
      arena'.content? parent = some (head, children ++ copies.map Tree.id)

theorem Grafted.refl (arena : Arena) (parent : NodeId) : Grafted arena arena parent [] where
  size_le := Nat.le_refl _
  content := fun _ _ _ => rfl
  owner := fun _ _ => rfl
  owned := fun h => h
  copies := ⟨[], rfl, by simp, by simp, by simp⟩

/-- Copies under one node can be made one after the other. -/
theorem Grafted.trans {a b c : Arena} {parent : NodeId} {trees trees' : List Tree} (hp : parent.index < a.size)
    (h : Grafted a b parent trees) (h' : Grafted b c parent trees') : Grafted a c parent (trees ++ trees') := by
  have hle := h.size_le
  have hle' := h'.size_le
  obtain ⟨copies, ht, hh, hnew, hc⟩ := h.copies
  obtain ⟨copies', ht', hh', hnew', hc'⟩ := h'.copies
  refine ⟨by omega, ?_, ?_, fun ho => h'.owned (h.owned ho), copies ++ copies', ?_, ?_, ?_, ?_⟩
  · intro id hid hne
    rw [h'.content id (by omega) hne, h.content id hid hne]
  · intro id hid
    rw [h'.owner id (by omega), h.owner id hid]
  · rw [List.map_append, List.map_append, ht, ht']
  · intro copy hm
    rcases List.mem_append.1 hm with hm | hm
    · refine Holds.of_content copy (fun id hid => h'.content id (Holds.lt_size copy (hh copy hm) id hid) ?_) (hh copy hm)
      have := hnew copy hm id hid
      rintro rfl
      omega
    · exact hh' copy hm
  · intro copy hm id hid
    rcases List.mem_append.1 hm with hm | hm
    · exact hnew copy hm id hid
    · have := hnew' copy hm id hid
      omega
  · intro head children hx
    rw [hc' head _ (hc head children hx), List.map_append, List.append_assoc]

mutual

/-- To graft a tree is to put a copy of it under a node, and to change nothing else. -/
theorem grafted : ∀ (tree : Tree) (arena : Arena) (parent : NodeId), parent.index < arena.size →
    Grafted arena (graft arena parent tree) parent [tree]
  | .node id head children, arena, parent, hp => by
    have hs := size_allocUnder arena head parent
    have h := graftedAll children (arena.allocUnder head parent).2 ⟨arena.size⟩ (by rw [hs]; exact Nat.lt_succ_self _)
    have hle := h.size_le
    obtain ⟨copies, ht, hh, hnew, hc⟩ := h.copies
    have hself := hc head [] (content?_allocUnder_new arena head parent hp)
    have hne : ∀ {x : NodeId}, x.index < arena.size → x ≠ ⟨arena.size⟩ := by
      rintro x hx rfl
      simp at hx
    rw [graft]
    refine ⟨by omega, ?_, ?_, fun ho => h.owned (ho.allocUnder head hp), [.node ⟨arena.size⟩ head copies], ?_, ?_, ?_, ?_⟩
    · intro x hx hxp
      rw [h.content x (by omega) (hne hx), content?_allocUnder_of_ne arena head parent hx hxp]
    · intro x hx
      rw [h.owner x (by omega), parent?_allocUnder arena head parent hx]
    · simp [ht]
    · intro copy hm
      rw [List.mem_singleton] at hm
      subst hm
      exact holds_node.2 ⟨hself, hh⟩
    · intro copy hm x hx
      rw [List.mem_singleton] at hm
      subst hm
      rw [Tree.ids, List.mem_cons] at hx
      rcases hx with rfl | hx
      · exact Nat.le_refl _
      · obtain ⟨child, hchild, hx⟩ := Tree.mem_idsAll.1 hx
        have := hnew child hchild x hx
        omega
    · intro head' children' hx
      rw [h.content parent (by omega) (hne hp), content?_allocUnder_parent arena head parent hx]
      rfl

/-- So is a row of trees. -/
theorem graftedAll : ∀ (trees : List Tree) (arena : Arena) (parent : NodeId), parent.index < arena.size →
    Grafted arena (graftAll arena parent trees) parent trees
  | [], arena, parent, _ => Grafted.refl arena parent
  | tree :: trees, arena, parent, hp => by
    have h := grafted tree arena parent hp
    rw [graftAll]
    exact h.trans hp (graftedAll trees _ parent (Nat.lt_of_lt_of_le hp h.size_le))

end

/-! ## The walk that copies -/

/-- One step of a copy allocates the copy of a node under its owner, and leaves the children of the node to be done. -/
theorem copyStep_eq {arena : Arena} {tree : Tree} (parent : NodeId) (h : arena.Holds tree) :
    copyStep arena (tree.id, parent) =
      .ok ((arena.allocUnder tree.head parent).2, tree.children.map fun child => (child.id, ⟨arena.size⟩)) := by
  obtain ⟨node, hn, hh, hch⟩ := get?_of_content? h.content
  have hf : arena.find tree.id = .ok node := find_eq_ok_iff.2 hn
  unfold copyStep
  show (arena.find tree.id >>= fun node => _) = _
  rw [hf]
  show Except.ok ((arena.allocUnder node.head parent).2, node.children.map fun child => (child, _)) = _
  rw [hh, hch, List.map_map]
  rfl

mutual

/-- The task of a tree comes to all its nodes, and leaves the copy of the tree. -/
theorem ends_graft : ∀ (tree : Tree) (arena : Arena) (parent : NodeId) {rest : List (NodeId × NodeId)} {ids : List NodeId}
    {result : Except ArenaError Arena}, arena.Holds tree → parent.index < arena.size → parent ∉ tree.ids →
      Worklist.Ends copyStep Prod.fst (graft arena parent tree) rest ids result →
      Worklist.Ends copyStep Prod.fst arena ((tree.id, parent) :: rest) (tree.ids ++ ids) result
  | .node id head children, arena, parent, rest, ids, result, h, hp, hnot, hrest => by
    have hs := size_allocUnder arena head parent
    rw [Tree.ids, List.mem_cons, not_or] at hnot
    have hold : ∀ x ∈ Tree.idsAll children, x.index < arena.size := by
      rw [Holds] at h
      exact HoldsAll.lt_size children h.2
    have hh : (arena.allocUnder head parent).2.HoldsAll children := by
      rw [Holds] at h
      refine HoldsAll.of_content children (fun x hx => ?_) h.2
      exact content?_allocUnder_of_ne arena head parent (hold x hx) (fun he => hnot.2 (he ▸ hx))
    have hnew : (⟨arena.size⟩ : NodeId) ∉ Tree.idsAll children := by
      intro hm
      have := hold _ hm
      simp at this
    have hlt : arena.size < (arena.allocUnder head parent).2.size := by rw [hs]; exact Nat.lt_succ_self _
    rw [graft] at hrest
    rw [Tree.ids]
    exact .task (copyStep_eq parent h) (ends_graftAll children _ ⟨arena.size⟩ hh hlt hnew hrest)

/-- The walk of a copy over a row of trees grafts them one after the other, in the order of a walk down. -/
theorem ends_graftAll : ∀ (trees : List Tree) (arena : Arena) (parent : NodeId) {rest : List (NodeId × NodeId)}
    {ids : List NodeId} {result : Except ArenaError Arena}, arena.HoldsAll trees → parent.index < arena.size →
      parent ∉ Tree.idsAll trees → Worklist.Ends copyStep Prod.fst (graftAll arena parent trees) rest ids result →
      Worklist.Ends copyStep Prod.fst arena (trees.map (fun tree => (tree.id, parent)) ++ rest) (Tree.idsAll trees ++ ids) result
  | [], arena, parent, rest, ids, result, _, _, _, hrest => hrest
  | tree :: trees, arena, parent, rest, ids, result, h, hp, hnot, hrest => by
    rw [HoldsAll] at h
    rw [Tree.idsAll, List.mem_append, not_or] at hnot
    have hg := grafted tree arena parent hp
    have hh : (graft arena parent tree).HoldsAll trees := by
      refine HoldsAll.of_content trees (fun x hx => ?_) h.2
      exact hg.content x (HoldsAll.lt_size trees h.2 x hx) (fun he => hnot.2 (he ▸ hx))
    rw [graftAll] at hrest
    rw [Tree.idsAll, List.append_assoc]
    exact ends_graft tree arena parent h.1 hp hnot.1
      (ends_graftAll trees _ parent hh (Nat.lt_of_lt_of_le hp hg.size_le) hnot.2 hrest)

end

/-- The walk that copies a tree ends, with the copy under a new node that has the head of the tree. -/
theorem ends_copies {arena : Arena} {tree : Tree} (h : arena.Holds tree) :
    Worklist.Ends copyStep Prod.fst (arena.alloc tree.head).2 (tree.children.map fun child => (child.id, ⟨arena.size⟩))
      (Tree.idsAll tree.children) (.ok (graftAll (arena.alloc tree.head).2 ⟨arena.size⟩ tree.children)) := by
  obtain ⟨id, head, children⟩ := tree
  rw [Holds] at h
  have hlt : ∀ x ∈ Tree.idsAll children, x.index < arena.size := HoldsAll.lt_size children h.2
  have hnew : (⟨arena.size⟩ : NodeId) ∉ Tree.idsAll children := by
    intro hm
    have := hlt _ hm
    simp at this
  have hh : (arena.alloc head).2.HoldsAll children :=
    HoldsAll.of_content children (fun x hx => content?_alloc_of_lt _ _ (hlt x hx)) h.2
  have hends := ends_graftAll children (arena.alloc head).2 ⟨arena.size⟩ hh (by simp) hnew .done
  rwa [List.append_nil, List.append_nil] at hends

/-- A copy is made by recursion over the tree, under a new node with the head of the tree. -/
theorem Owned.clone_eq {arena : Arena} (ho : arena.Owned) {tree : Tree} (h : arena.Holds tree) :
    arena.clone tree.id =
      .ok (⟨arena.size⟩, graftAll (arena.alloc tree.head).2 ⟨arena.size⟩ tree.children) := by
  obtain ⟨node, hn, hh, hch⟩ := get?_of_content? h.content
  have hsize : (Tree.idsAll tree.children).length ≤ arena.size := by
    have hle := ho.size_le h
    obtain ⟨id, head, children⟩ := tree
    rw [Tree.size, ← Tree.length_idsAll] at hle
    rw [Tree.children]
    omega
  have hrun := (ends_copies h).run_eq (.endless tree.id) hsize
  rw [Arena.clone, find_eq_ok_iff.2 hn]
  show (Worklist.run copyStep _ arena.size _ (node.children.map fun child => (child, _)) >>= fun arena => _) = _
  rw [hch, List.map_map]
  show (Worklist.run copyStep _ arena.size (arena.alloc node.head).2 (tree.children.map fun tree => (tree.id, _)) >>=
    fun arena => _) = _
  rw [hh, hrun]
  rfl

/-- A copy of a tree: it has the same term, it is detached and all its nodes are new, and no node that was there has
changed. -/
theorem Owned.clone {arena : Arena} (ho : arena.Owned) {tree : Tree} (h : arena.Holds tree) :
    ∃ (copy : Tree) (arena' : Arena), arena.clone tree.id = .ok (copy.id, arena') ∧ arena'.Holds copy ∧
      copy.term = tree.term ∧ arena'.Owned ∧ copy.id = ⟨arena.size⟩ ∧ arena'.parent? copy.id = none ∧
      (∀ id, id.index < arena.size → arena'.content? id = arena.content? id ∧ arena'.parent? id = arena.parent? id) ∧
      arena.size ≤ arena'.size := by
  have hclone := ho.clone_eq h
  obtain ⟨id, head, children⟩ := tree
  rw [Tree.head, Tree.children] at hclone
  have hg := graftedAll children (arena.alloc head).2 ⟨arena.size⟩ (by simp)
  have hle := hg.size_le
  rw [size_alloc] at hle
  obtain ⟨copies, ht, hhold, _, hself⟩ := hg.copies
  refine ⟨.node ⟨arena.size⟩ head copies, _, hclone, ?_, by simp [ht], hg.owned (ho.alloc _), rfl, ?_, ?_, by omega⟩
  · exact holds_node.2 ⟨hself head [] (content?_alloc_self _ _), hhold⟩
  · rw [Tree.id, hg.owner _ (by simp), parent?_alloc, parent?_size]
  · intro x hx
    have hne : x ≠ ⟨arena.size⟩ := by
      rintro rfl
      simp at hx
    rw [hg.content x (by simp; omega) hne, hg.owner x (by simp; omega), content?_alloc_of_lt _ _ hx, parent?_alloc]
    exact ⟨rfl, rfl⟩

/-! ## Every row of edits -/

/-- Only nodes of the arena have a copy. -/
theorem lt_size_of_clone {arena : Arena} {root : NodeId} {result : NodeId × Arena} (h : arena.clone root = .ok result) :
    root.index < arena.size := by
  unfold Arena.clone at h
  obtain ⟨node, hn, _⟩ := bind_eq_ok_iff.1 h
  rw [← get?_isSome_iff, find_eq_ok_iff.1 hn]
  rfl

/-- Ownership stays sound whatever the edit is. -/
theorem Owned.edit {arena : Arena} (h : arena.Owned) (edit : Edit) : (arena.edit edit).2.Owned := by
  cases edit with
  | alloc head => exact h.alloc head
  | attach parent child =>
    rw [Arena.edit]
    cases ha : arena.attach parent child with
    | error e => exact h
    | ok arena' => exact (h.attach ha).2
  | clone root =>
    rw [Arena.edit]
    cases hc : arena.clone root with
    | error e => exact h
    | ok result =>
      have hroot := lt_size_of_clone hc
      obtain ⟨tree, ht, rfl⟩ := h.exists_tree root hroot
      obtain ⟨copy, arena', hc', _, _, ho, _⟩ := h.clone ht
      rw [hc] at hc'
      cases hc'
      exact ho

/-- Ownership is sound after every row of edits of the arena without nodes. -/
theorem owned_editAll (edits : List Edit) : (Arena.empty.editAll edits).Owned := by
  have h : ∀ arena : Arena, arena.Owned → (arena.editAll edits).Owned := by
    induction edits with
    | nil => intro arena h; exact h
    | cons edit edits ih =>
      intro arena h
      exact ih _ (h.edit edit)
  exact h Arena.empty owned_empty

end Arena

end ShaderTrace
