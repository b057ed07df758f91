import ShaderTrace.Proofs.Forest

/-!
# The order of a walk, and copies in that order

A walk from a node comes to the nodes of its tree from the top and from left to right (`Owned.preorder_eq`), which are the node
itself and all that belongs to it, directly or through others (`Owned.mem_ids_iff`). A copy is made in the same order, and so its
nodes are numbered one after the other (`Tree.numbered`, `graft_numbered`). `clone_in_order` says from both what a copy is, node
by node, and that it changes nothing.
-/

namespace ShaderTrace

namespace Tree

mutual

/-- The tree with other numbers: they count from `first`, from the top and from left to right. -/
def numbered (first : Nat) : Tree → Tree
  | node _ head children => node ⟨first⟩ head (numberedAll (first + 1) children)

def numberedAll (first : Nat) : List Tree → List Tree
  | [] => []
  | tree :: trees => tree.numbered first :: numberedAll (first + tree.size) trees

end

theorem id_numbered (first : Nat) (tree : Tree) : (tree.numbered first).id = ⟨first⟩ := by
  cases tree
  rfl

mutual

/-- A tree that is numbered anew keeps its term. -/
theorem term_numbered : ∀ (tree : Tree) (first : Nat), (tree.numbered first).term = tree.term
  | node id head children, first => by rw [numbered, term, term, terms_numberedAll children (first + 1)]

/-- Trees that are numbered anew keep their terms. -/
theorem terms_numberedAll : ∀ (trees : List Tree) (first : Nat), terms (numberedAll first trees) = terms trees
  | [], first => rfl
  | tree :: trees, first => by
    rw [numberedAll, terms, terms, term_numbered tree first, terms_numberedAll trees (first + tree.size)]

end

mutual

/-- The new numbers of a tree follow one another in preorder. -/
theorem ids_numbered : ∀ (tree : Tree) (first : Nat), (tree.numbered first).ids = (List.range' first tree.size).map NodeId.mk
  | node id head children, first => by
    rw [numbered, ids, idsAll_numberedAll children (first + 1), size, Nat.add_comm 1, List.range'_succ, List.map_cons]

/-- The new numbers of trees follow one another in preorder. -/
theorem idsAll_numberedAll : ∀ (trees : List Tree) (first : Nat),
    idsAll (numberedAll first trees) = (List.range' first (sizeAll trees)).map NodeId.mk
  | [], first => rfl
  | tree :: trees, first => by
    rw [numberedAll, idsAll, ids_numbered tree first, idsAll_numberedAll trees (first + tree.size), ← List.map_append, sizeAll,
      ← List.range'_append_1]

end

end Tree

namespace Arena

open Relation

/-! ## Walks -/

section Walks

variable {arena : Arena}

/-- One step of the walk visits a node and goes on with its children. -/
theorem visit_eq (visited : Array NodeId) {tree : Tree} (h : arena.Holds tree) :
    arena.visit visited tree.id = .ok (visited.push tree.id, tree.children.map Tree.id) := by
  obtain ⟨node, hn, -, hc⟩ := get?_of_content? h.content
  unfold visit
  rw [find_eq_ok_iff.2 hn, ← hc]
  rfl

mutual

/-- The task of a tree comes to the numbers of its nodes. -/
theorem ends_visit : ∀ (tree : Tree) {visited : Array NodeId} {rest ids : List NodeId}
    {result : Except ArenaError (Array NodeId)}, arena.Holds tree →
      Worklist.Ends arena.visit id (visited ++ tree.ids.toArray) rest ids result →
      Worklist.Ends arena.visit id visited (tree.id :: rest) (tree.ids ++ ids) result
  | .node top head children, visited, rest, ids, result, h, hrest => by
    rw [Tree.ids, List.toArray_cons, ← Array.append_assoc] at hrest
    have hstep := visit_eq visited h
    rw [Holds] at h
    rw [Tree.ids]
    exact .task hstep (ends_visitAll children h.2 hrest)

/-- The walk over trees in a row visits their nodes in preorder, and then goes on. -/
theorem ends_visitAll : ∀ (trees : List Tree) {visited : Array NodeId} {rest ids : List NodeId}
    {result : Except ArenaError (Array NodeId)}, arena.HoldsAll trees →
      Worklist.Ends arena.visit id (visited ++ (Tree.idsAll trees).toArray) rest ids result →
      Worklist.Ends arena.visit id visited (trees.map Tree.id ++ rest) (Tree.idsAll trees ++ ids) result
  | [], visited, rest, ids, result, _, hrest => by
    rw [Tree.idsAll, Array.append_empty] at hrest
    exact hrest
  | tree :: trees, visited, rest, ids, result, h, hrest => by
    rw [HoldsAll] at h
    rw [Tree.idsAll, ← List.append_toArray, ← Array.append_assoc] at hrest
    rw [Tree.idsAll, List.append_assoc]
    exact ends_visit tree h.1 (ends_visitAll trees h.2 hrest)

end

/-- The walk from the root of a tree ends. -/
theorem ends_preorder {tree : Tree} (h : arena.Holds tree) :
    Worklist.Ends arena.visit id #[] [tree.id] tree.ids (.ok tree.ids.toArray) := by
  have hends := @ends_visit arena tree #[] [] [] _ h .done
  rwa [List.append_nil, Array.empty_append] at hends

/-- A walk comes to the nodes of the tree in their order. -/
theorem Owned.preorder_eq (ho : arena.Owned) {tree : Tree} (h : arena.Holds tree) : arena.preorder tree.id = .ok tree.ids := by
  have hle := ho.size_le h
  rw [← Tree.length_ids] at hle
  have hrun := (ends_preorder h).run_eq (.endless tree.id) (Nat.le_succ_of_le hle)
  unfold preorder
  rw [hrun]
  rfl

/-- The nodes of a tree are those that belong to its root. -/
theorem Owned.mem_ids_iff (ho : arena.Owned) {tree : Tree} (h : arena.Holds tree) {id : NodeId} :
    id ∈ tree.ids ↔ ReflTransGen arena.Under id tree.id := by
  refine ⟨ho.above_of_mem_ids tree h id, fun hpath => ?_⟩
  -- downwards from the root, each node comes with its own tree
  have hsub : ∃ sub : Tree, arena.Holds sub ∧ sub.id = id ∧ sub.ids ⊆ tree.ids := by
    induction hpath using ReflTransGen.head_induction_on with
    | refl => exact ⟨tree, h, rfl, List.Subset.refl _⟩
    | head hu _ ih =>
      obtain ⟨sub, hheld, rfl, hsub⟩ := ih
      rw [← ho.linked, childrenOf_eq hheld.content] at hu
      obtain ⟨child, hc, rfl⟩ := List.mem_map.1 hu
      refine ⟨child, hheld.child hc, rfl, fun x hx => hsub ?_⟩
      obtain ⟨top, head, children⟩ := sub
      rw [Tree.ids]
      exact List.mem_cons_of_mem _ (Tree.ids_subset_idsAll hc hx)
  obtain ⟨sub, -, rfl, hsub⟩ := hsub
  exact hsub sub.id_mem_ids

end Walks

/-! ## Node by node -/

/-- Two nodes say the same and have as many children. -/
def Likewise (arena arena' : Arena) (id id' : NodeId) : Prop :=
  ∃ node node', arena.get? id = some node ∧ arena'.get? id' = some node' ∧ node'.head = node.head ∧
    node'.children.length = node.children.length

section Likewise

variable {arena arena' : Arena}

mutual

/-- Trees with the same term agree node by node, in whatever arenas they lie. -/
theorem likewise_ids : ∀ tree tree' : Tree, arena.Holds tree → arena'.Holds tree' → tree'.term = tree.term →
    List.Forall₂ (Likewise arena arena') tree.ids tree'.ids
  | .node id head children, .node id' head' children', h, h', ht => by
    rw [Holds] at h h'
    rw [Tree.term, Tree.term, Term.node.injEq] at ht
    obtain ⟨node, hn, hhead, hc⟩ := get?_of_content? h.1
    obtain ⟨node', hn', hhead', hc'⟩ := get?_of_content? h'.1
    have hlength : children'.length = children.length := by
      simpa [Tree.terms_eq_map] using congrArg List.length ht.2
    rw [Tree.ids, Tree.ids]
    refine .cons ⟨node, node', hn, hn', by rw [hhead, hhead', ht.1], ?_⟩ (likewise_idsAll children children' h.2 h'.2 ht.2)
    rw [hc, hc', List.length_map, List.length_map, hlength]

/-- The nodes of trees with the same terms are alike, one by one. -/
theorem likewise_idsAll : ∀ trees trees' : List Tree, arena.HoldsAll trees → arena'.HoldsAll trees' →
    Tree.terms trees' = Tree.terms trees → List.Forall₂ (Likewise arena arena') (Tree.idsAll trees) (Tree.idsAll trees')
  | [], [], _, _, _ => .nil
  | [], _ :: _, _, _, ht => by cases ht
  | _ :: _, [], _, _, ht => by cases ht
  | tree :: trees, tree' :: trees', h, h', ht => by
    rw [HoldsAll] at h h'
    rw [Tree.terms, Tree.terms, List.cons.injEq] at ht
    rw [Tree.idsAll, Tree.idsAll]
    exact List.rel_append (likewise_ids tree tree' h.1 h'.1 ht.1) (likewise_idsAll trees trees' h.2 h'.2 ht.2)

end

end Likewise

/-! ## Copies -/

mutual

/-- A copy under a node has the numbers that follow, in the order of its nodes. -/
theorem graft_numbered : ∀ (tree : Tree) (arena : Arena) (parent : NodeId), parent.index < arena.size →
    (graft arena parent tree).size = arena.size + tree.size ∧ (graft arena parent tree).Holds (tree.numbered arena.size) ∧
      ∀ head children, arena.content? parent = some (head, children) →
        (graft arena parent tree).content? parent = some (head, children ++ [⟨arena.size⟩])
  | .node id head children, arena, parent, hp => by
    have hs := size_allocUnder arena head parent
    have hlt : arena.size < (arena.allocUnder head parent).2.size := by omega
    obtain ⟨hsize, hheld, hself⟩ := graftAll_numbered children (arena.allocUnder head parent).2 ⟨arena.size⟩ hlt
    rw [graft]
    rw [hs] at hsize hheld hself
    refine ⟨by rw [hsize, Tree.size]; omega, ?_, ?_⟩
    · rw [Tree.numbered, Holds]
      exact ⟨hself head [] (content?_allocUnder_new arena head parent hp), hheld⟩
    · intro head' children' hx
      have hne : parent ≠ ⟨arena.size⟩ := by
        rintro rfl
        exact Nat.lt_irrefl _ hp
      rw [(graftedAll children _ ⟨arena.size⟩ hlt).content parent (by omega) hne]
      exact content?_allocUnder_parent arena head parent hx

/-- Copies of trees under a node are numbered in preorder from the size of the arena on. -/
theorem graftAll_numbered : ∀ (trees : List Tree) (arena : Arena) (parent : NodeId), parent.index < arena.size →
    (graftAll arena parent trees).size = arena.size + Tree.sizeAll trees ∧
      (graftAll arena parent trees).HoldsAll (Tree.numberedAll arena.size trees) ∧
      ∀ head children, arena.content? parent = some (head, children) →
        (graftAll arena parent trees).content? parent =
          some (head, children ++ (Tree.numberedAll arena.size trees).map Tree.id)
  | [], arena, parent, _ => ⟨rfl, trivial, fun head children hx => by simpa [graftAll, Tree.numberedAll] using hx⟩
  | tree :: trees, arena, parent, hp => by
    obtain ⟨hsize, hheld, hself⟩ := graft_numbered tree arena parent hp
    have hp' : parent.index < (graft arena parent tree).size := by omega
    obtain ⟨hsizes, hrest, hselves⟩ := graftAll_numbered trees (graft arena parent tree) parent hp'
    have hframe := graftedAll trees (graft arena parent tree) parent hp'
    rw [hsize] at hsizes hrest hselves
    rw [graftAll, Tree.numberedAll, Tree.sizeAll]
    refine ⟨by omega, ?_, ?_⟩
    · rw [HoldsAll]
      refine ⟨Holds.of_content _ (fun id hid => ?_) hheld, hrest⟩
      -- the first copy is new, so it does not hold the node that the next copies go to
      refine hframe.content id (Holds.lt_size _ hheld id hid) ?_
      rintro rfl
      rw [Tree.ids_numbered, List.mem_map] at hid
      obtain ⟨n, hn, rfl⟩ := hid
      have := (List.mem_range'_1.1 hn).1
      simp only at hp
      omega
    · intro head children hx
      rw [hselves head _ (hself head children hx), List.map_cons, Tree.id_numbered, List.append_assoc, List.singleton_append]

end

/-- The copy that is made of a tree is the tree with the next free numbers. -/
theorem Owned.clone_numbered {arena : Arena} (ho : arena.Owned) {tree : Tree} (h : arena.Holds tree) :
    ∃ arena', arena.clone tree.id = .ok (⟨arena.size⟩, arena') ∧ arena'.size = arena.size + tree.size ∧
      arena'.Holds (tree.numbered arena.size) := by
  have hclone := ho.clone_eq h
  obtain ⟨id, head, children⟩ := tree
  rw [Tree.head, Tree.children] at hclone
  obtain ⟨hsize, hheld, hself⟩ := graftAll_numbered children (arena.alloc head).2 ⟨arena.size⟩ (by simp)
  rw [size_alloc] at hsize hheld hself
  refine ⟨_, hclone, by rw [hsize, Tree.size]; omega, ?_⟩
  rw [Tree.numbered, Holds]
  exact ⟨hself head [] (content?_alloc_self arena head), hheld⟩

/-- A copy of a node of an arena is made of so many new nodes as there are at or below the node. A walk comes to them one after the
other, and each says what the node at the same place of the walk over the original says and has as many children. The copy belongs
to no node, ownership stays sound, and every node that was there is the same as before, with its links. -/
theorem clone_in_order (arena : Arena) (ho : arena.Owned) (root : NodeId) (hroot : root.index < arena.size) :
    ∃ (ids : List NodeId) (arena' : Arena),
      (arena.preorder root = .ok ids ∧ ids.Nodup ∧ ∀ id, id ∈ ids ↔ ReflTransGen arena.Under id root) ∧
      arena.clone root = .ok (⟨arena.size⟩, arena') ∧
      arena'.size = arena.size + ids.length ∧
      arena'.preorder ⟨arena.size⟩ = .ok ((List.range' arena.size ids.length).map NodeId.mk) ∧
      List.Forall₂ (Likewise arena arena') ids ((List.range' arena.size ids.length).map NodeId.mk) ∧
      arena'.parent? ⟨arena.size⟩ = none ∧ arena'.Owned ∧
      ∀ id, id.index < arena.size → arena'.get? id = arena.get? id := by
  obtain ⟨tree, htree, rfl⟩ := ho.exists_tree root hroot
  obtain ⟨arena', hclone, hsize, hcopy⟩ := ho.clone_numbered htree
  obtain ⟨howned, hdetached, hkept⟩ : arena'.Owned ∧ arena'.parent? ⟨arena.size⟩ = none ∧ ∀ id : NodeId,
      id.index < arena.size → arena'.content? id = arena.content? id ∧ arena'.parent? id = arena.parent? id := by
    obtain ⟨copy, _, hclone', -, -, howned, hid, hdetached, hkept, -⟩ := ho.clone htree
    rw [hid] at hclone' hdetached
    rw [hclone, Except.ok.injEq, Prod.mk.injEq] at hclone'
    obtain ⟨-, rfl⟩ := hclone'
    exact ⟨howned, hdetached, hkept⟩
  have hwalk := howned.preorder_eq hcopy
  have hagree := likewise_ids tree _ htree hcopy (tree.term_numbered arena.size)
  rw [Tree.ids_numbered, ← Tree.length_ids] at hwalk hagree
  rw [Tree.id_numbered] at hwalk
  refine ⟨tree.ids, arena', ⟨ho.preorder_eq htree, ho.nodup_ids tree htree, fun id => ho.mem_ids_iff htree⟩, hclone,
    by rw [hsize, Tree.length_ids], hwalk, hagree, hdetached, howned, fun id hid => ?_⟩
  exact get?_eq_of_content? (hkept id hid).1 (hkept id hid).2

/-- A sum over a product. The nodes are attached in another order than they were made in. -/
def sumEdits : List Edit :=
  [.alloc (.ofSymbol .var .int ⟨0⟩), .alloc (.ofSymbol .var .int ⟨1⟩), .alloc { kind := .multiply, type := .int },
    .alloc (.ofLiteral (.int 7)), .alloc { kind := .add, type := .int }, .attach ⟨2⟩ ⟨3⟩, .attach ⟨2⟩ ⟨1⟩, .attach ⟨4⟩ ⟨2⟩,
    .attach ⟨4⟩ ⟨0⟩]

/-- A copy of the product, which belongs to the sum. -/
theorem clone_in_order_attached :
    (Arena.empty.editAll sumEdits).Owned ∧ 2 < (Arena.empty.editAll sumEdits).size ∧
      ∃ arena', (Arena.empty.editAll sumEdits).preorder ⟨2⟩ = .ok [⟨2⟩, ⟨3⟩, ⟨1⟩] ∧
        (Arena.empty.editAll sumEdits).clone ⟨2⟩ = .ok (⟨5⟩, arena') ∧ arena'.size = 8 ∧
        arena'.preorder ⟨5⟩ = .ok [⟨5⟩, ⟨6⟩, ⟨7⟩] ∧ Likewise (Arena.empty.editAll sumEdits) arena' ⟨1⟩ ⟨7⟩ ∧
        arena'.parent? ⟨5⟩ = none := by
  have howned := owned_editAll sumEdits
  have hsize : (Arena.empty.editAll sumEdits).size = 5 := by decide +kernel
  have hwalk : (Arena.empty.editAll sumEdits).preorder ⟨2⟩ = .ok [⟨2⟩, ⟨3⟩, ⟨1⟩] := by decide +kernel
  obtain ⟨ids, arena', ⟨hids, -⟩, hclone, hcopied, hcopy, hagree, hdetached, -⟩ :=
    clone_in_order _ howned ⟨2⟩ (by rw [hsize]; decide)
  obtain rfl : [⟨2⟩, ⟨3⟩, ⟨1⟩] = ids := by simpa [hwalk] using hids
  rw [hsize] at hclone hcopied hcopy hagree hdetached
  refine ⟨howned, by rw [hsize]; decide, arena', hwalk, hclone, hcopied, hcopy, ?_, hdetached⟩
  exact (List.forall₂_cons.1 (List.forall₂_cons.1 (List.forall₂_cons.1 hagree).2).2).1

end Arena

end ShaderTrace
