import ShaderTrace.Arena.Tree
import ShaderTrace.Proofs.Ownership

/-!
# The trees an arena holds

`Holds` says that an arena holds a tree: its nodes say what the tree says and own what the tree puts below them. Where
ownership is sound, every node has exactly one tree, no number occurs in it twice, and it is the tree that
`Arena.tree` finds (`Owned.tree_eq_ok_iff`). A `Term` is what is left of a tree without the numbers of its nodes.
-/

namespace ShaderTrace

/-- A tree without the numbers of its nodes. -/
inductive Term where
  | node (head : Head) (children : List Term)

namespace Term

def head : Term → Head
  | node head _ => head

def children : Term → List Term
  | node _ children => children

def kind (term : Term) : NodeKind := term.head.kind

def type (term : Term) : ValueType := term.head.type

end Term

namespace Tree

mutual

/-- The tree without the numbers of its nodes. -/
def term : Tree → Term
  | node _ head children => .node head (terms children)

def terms : List Tree → List Term
  | [] => []
  | tree :: trees => tree.term :: terms trees

end

mutual

/-- The numbers of the nodes, each before those below it. -/
def ids : Tree → List NodeId
  | node id _ children => id :: idsAll children

def idsAll : List Tree → List NodeId
  | [] => []
  | tree :: trees => tree.ids ++ idsAll trees

end

/-- The terms of trees in a row are those of each. -/
theorem terms_eq_map (trees : List Tree) : terms trees = trees.map term := by
  induction trees with
  | nil => rfl
  | cons tree trees ih => rw [terms, ih, List.map_cons]

@[simp] theorem term_node (id : NodeId) (head : Head) (children : List Tree) :
    (node id head children).term = .node head (children.map term) := by
  rw [term, terms_eq_map]

theorem term_head (tree : Tree) : tree.term.head = tree.head := by
  cases tree
  rfl

theorem term_kind (tree : Tree) : tree.term.kind = tree.kind := by
  cases tree
  rfl

theorem term_type (tree : Tree) : tree.term.type = tree.type := by
  cases tree
  rfl

theorem term_children (tree : Tree) : tree.term.children = tree.children.map term := by
  cases tree
  simp [Term.children, children]

/-- A number of trees in a row is a number of one of them. -/
theorem mem_idsAll {trees : List Tree} {x : NodeId} : x ∈ idsAll trees ↔ ∃ tree ∈ trees, x ∈ tree.ids := by
  induction trees with
  | nil => simp [idsAll]
  | cons tree trees ih => simp [idsAll, ih]

theorem idsAll_append (trees trees' : List Tree) : idsAll (trees ++ trees') = idsAll trees ++ idsAll trees' := by
  induction trees with
  | nil => rfl
  | cons tree trees ih => simp [idsAll, ih]

/-- The numbers of a tree are that of its root and those of its children. -/
theorem ids_eq_cons (tree : Tree) : tree.ids = tree.id :: idsAll tree.children := by
  cases tree
  rfl

theorem id_mem_ids (tree : Tree) : tree.id ∈ tree.ids := by
  rw [ids_eq_cons]
  exact List.mem_cons_self

/-- The numbers of a tree are among those of a row that it is in. -/
theorem ids_subset_idsAll {tree : Tree} {trees : List Tree} (h : tree ∈ trees) : tree.ids ⊆ idsAll trees := by
  intro x hx
  exact mem_idsAll.2 ⟨tree, h, hx⟩

theorem size_pos (tree : Tree) : 0 < tree.size := by
  cases tree
  rw [size]
  omega

/-- A tree is no larger than a row that it is in. -/
theorem size_le_sizeAll {tree : Tree} {trees : List Tree} (h : tree ∈ trees) : tree.size ≤ sizeAll trees := by
  induction trees with
  | nil => simp at h
  | cons first trees ih =>
    rw [sizeAll]
    rcases List.mem_cons.1 h with rfl | h
    · omega
    · have := ih h
      omega

mutual

/-- A tree has as many numbers as nodes. -/
theorem length_ids : ∀ tree : Tree, tree.ids.length = tree.size
  | node id head children => by
    rw [ids, size, List.length_cons, length_idsAll children]
    omega

/-- Trees have as many numbers as nodes. -/
theorem length_idsAll : ∀ trees : List Tree, (idsAll trees).length = sizeAll trees
  | [] => rfl
  | tree :: trees => by rw [idsAll, sizeAll, List.length_append, length_ids tree, length_idsAll trees]

end

end Tree

namespace Arena

open Relation

mutual

/-- Each node of the tree says what the tree says, and owns the nodes that the tree puts below it. -/
def Holds (arena : Arena) : Tree → Prop
  | .node id head children => arena.content? id = some (head, children.map Tree.id) ∧ HoldsAll arena children

def HoldsAll (arena : Arena) : List Tree → Prop
  | [] => True
  | tree :: trees => Holds arena tree ∧ HoldsAll arena trees

end

/-- An arena holds trees exactly if it holds each. -/
theorem holdsAll_iff {arena : Arena} {trees : List Tree} : arena.HoldsAll trees ↔ ∀ tree ∈ trees, arena.Holds tree := by
  induction trees with
  | nil => simp [HoldsAll]
  | cons tree trees ih => simp [HoldsAll, ih]

/-- An arena holds a tree exactly if the root has its content and the children are held. -/
theorem holds_node {arena : Arena} {id : NodeId} {head : Head} {children : List Tree} :
    arena.Holds (.node id head children) ↔
      arena.content? id = some (head, children.map Tree.id) ∧ ∀ child ∈ children, arena.Holds child := by
  rw [Holds, holdsAll_iff]

/-- The root of a tree has its content. -/
theorem Holds.content {arena : Arena} {tree : Tree} (h : arena.Holds tree) :
    arena.content? tree.id = some (tree.head, tree.children.map Tree.id) := by
  cases tree
  exact (holds_node.1 h).1

/-- The children of a tree are held. -/
theorem Holds.child {arena : Arena} {tree child : Tree} (h : arena.Holds tree) (hc : child ∈ tree.children) :
    arena.Holds child := by
  cases tree
  exact (holds_node.1 h).2 child hc

/-- A node of a tree that an arena holds is a node of the arena. -/
theorem Holds.lt_size_id {arena : Arena} {tree : Tree} (h : arena.Holds tree) : tree.id.index < arena.size :=
  lt_size_of_content? h.content

mutual

/-- Whether an arena holds a tree depends on the nodes of the tree alone. -/
theorem Holds.of_content {arena arena' : Arena} :
    ∀ tree : Tree, (∀ id ∈ tree.ids, arena'.content? id = arena.content? id) → arena.Holds tree → arena'.Holds tree
  | .node id head children, hc, h => by
    rw [Holds] at h ⊢
    rw [Tree.ids] at hc
    refine ⟨(hc id (by simp)).trans h.1, HoldsAll.of_content children ?_ h.2⟩
    intro x hx
    exact hc x (List.mem_cons_of_mem _ hx)

/-- Trees are held wherever their nodes have the same contents. -/
theorem HoldsAll.of_content {arena arena' : Arena} :
    ∀ trees : List Tree, (∀ id ∈ Tree.idsAll trees, arena'.content? id = arena.content? id) → arena.HoldsAll trees →
      arena'.HoldsAll trees
  | [], _, _ => trivial
  | tree :: trees, hc, h => by
    rw [HoldsAll] at h ⊢
    rw [Tree.idsAll] at hc
    exact ⟨Holds.of_content tree (fun id hid => hc id (List.mem_append_left _ hid)) h.1,
      HoldsAll.of_content trees (fun id hid => hc id (List.mem_append_right _ hid)) h.2⟩

end

mutual

/-- The numbers of a tree are those of nodes of the arena. -/
theorem Holds.lt_size {arena : Arena} : ∀ tree : Tree, arena.Holds tree → ∀ id ∈ tree.ids, id.index < arena.size
  | .node id head children, h, x, hx => by
    rw [Holds] at h
    rw [Tree.ids, List.mem_cons] at hx
    rcases hx with rfl | hx
    · exact lt_size_of_content? h.1
    · exact HoldsAll.lt_size children h.2 x hx

/-- The numbers of trees are those of nodes of the arena. -/
theorem HoldsAll.lt_size {arena : Arena} :
    ∀ trees : List Tree, arena.HoldsAll trees → ∀ id ∈ Tree.idsAll trees, id.index < arena.size
  | [], _, x, hx => by simp [Tree.idsAll] at hx
  | tree :: trees, h, x, hx => by
    rw [HoldsAll] at h
    rw [Tree.idsAll, List.mem_append] at hx
    rcases hx with hx | hx
    · exact Holds.lt_size tree h.1 x hx
    · exact HoldsAll.lt_size trees h.2 x hx

end

/-! ## One tree a node -/

/-- The children of a node of a tree that an arena holds belong to that node. -/
theorem Owned.under_of_holds {arena : Arena} (ho : arena.Owned) {tree child : Tree} (h : arena.Holds tree)
    (hc : child ∈ tree.children) : arena.Under child.id tree.id := by
  rw [← ho.linked, childrenOf_eq h.content]
  exact List.mem_map_of_mem hc

mutual

/-- Every node of a tree is below its root. -/
theorem Owned.above_of_mem_ids {arena : Arena} (ho : arena.Owned) :
    ∀ tree : Tree, arena.Holds tree → ∀ x ∈ tree.ids, ReflTransGen arena.Under x tree.id
  | .node id head children, h, x, hx => by
    rw [Tree.ids, List.mem_cons] at hx
    rcases hx with rfl | hx
    · exact .refl
    · exact Owned.above_of_mem_idsAll ho children id (fun child hc => (holds_node.1 h).2 child hc)
        (fun child hc => ho.under_of_holds h hc) x hx

/-- Every node of trees under a node is below that node. -/
theorem Owned.above_of_mem_idsAll {arena : Arena} (ho : arena.Owned) :
    ∀ (trees : List Tree) (parent : NodeId), (∀ tree ∈ trees, arena.Holds tree) →
      (∀ tree ∈ trees, arena.Under tree.id parent) → ∀ x ∈ Tree.idsAll trees, ReflTransGen arena.Under x parent
  | [], parent, _, _, x, hx => by simp [Tree.idsAll] at hx
  | tree :: trees, parent, h, hu, x, hx => by
    rw [Tree.idsAll, List.mem_append] at hx
    rcases hx with hx | hx
    · exact (Owned.above_of_mem_ids ho tree (h tree (by simp)) x hx).tail (hu tree (by simp))
    · exact Owned.above_of_mem_idsAll ho trees parent (fun t ht => h t (by simp [ht]))
        (fun t ht => hu t (by simp [ht])) x hx

end

/-- A detached node is in no tree but its own. -/
theorem Owned.not_mem_ids_of_detached {arena : Arena} (ho : arena.Owned) {tree : Tree} (h : arena.Holds tree)
    {id : NodeId} (hd : arena.parent? id = none) (hne : tree.id ≠ id) : id ∉ tree.ids := by
  intro hm
  rcases (ho.above_of_mem_ids tree h id hm).cases_head with he | ⟨p, hu, _⟩
  · exact hne he.symm
  · simp [Under, hd] at hu

/-- A node is below at most one of the children of a node. -/
theorem Owned.eq_of_below {arena : Arena} (ho : arena.Owned) {parent a b x : NodeId} (ha : arena.Under a parent)
    (hb : arena.Under b parent) (hxa : ReflTransGen arena.Under x a) (hxb : ReflTransGen arena.Under x b) : a = b := by
  have key : ∀ {c d : NodeId}, arena.Under c parent → arena.Under d parent → ReflTransGen arena.Under c d → c = d := by
    intro c d hc hd hcd
    rcases hcd.cases_head with he | ⟨p, hu, hpd⟩
    · exact he
    · have hp : p = parent := under_rightUnique arena hu hc
      subst hp
      exact absurd (TransGen.tail' hpd hd) (ho.acyclic p)
  rcases ReflTransGen.total_of_right_unique (under_rightUnique arena) hxa hxb with h | h
  · exact key ha hb h
  · exact (key hb ha h).symm

mutual

/-- No number occurs twice in a tree. -/
theorem Owned.nodup_ids {arena : Arena} (ho : arena.Owned) : ∀ tree : Tree, arena.Holds tree → tree.ids.Nodup
  | .node id head children, h => by
    have hu : ∀ child ∈ children, arena.Under child.id id := fun child hc => ho.under_of_holds h hc
    have hh : ∀ child ∈ children, arena.Holds child := (holds_node.1 h).2
    have hn : (children.map Tree.id).Nodup := childrenOf_eq (holds_node.1 h).1 ▸ ho.nodup id
    rw [Tree.ids, List.nodup_cons]
    refine ⟨?_, Owned.nodup_idsAll ho children id hh hu hn⟩
    intro hm
    obtain ⟨child, hc, hx⟩ := Tree.mem_idsAll.1 hm
    exact ho.acyclic id (TransGen.tail' (ho.above_of_mem_ids child (hh child hc) id hx) (hu child hc))

/-- Different trees under a node have no number in common, and none twice. -/
theorem Owned.nodup_idsAll {arena : Arena} (ho : arena.Owned) :
    ∀ (trees : List Tree) (parent : NodeId), (∀ tree ∈ trees, arena.Holds tree) →
      (∀ tree ∈ trees, arena.Under tree.id parent) → (trees.map Tree.id).Nodup → (Tree.idsAll trees).Nodup
  | [], _, _, _, _ => List.nodup_nil
  | tree :: trees, parent, h, hu, hn => by
    rw [List.map_cons, List.nodup_cons] at hn
    rw [Tree.idsAll, List.nodup_append]
    refine ⟨Owned.nodup_ids ho tree (h tree (by simp)), Owned.nodup_idsAll ho trees parent
      (fun t ht => h t (by simp [ht])) (fun t ht => hu t (by simp [ht])) hn.2, ?_⟩
    rintro x hx _ hy rfl
    obtain ⟨other, ho', hx'⟩ := Tree.mem_idsAll.1 hy
    have he : tree.id = other.id := ho.eq_of_below (hu tree (by simp)) (hu other (by simp [ho']))
      (ho.above_of_mem_ids tree (h tree (by simp)) x hx) (ho.above_of_mem_ids other (h other (by simp [ho'])) x hx')
    exact hn.1 (he ▸ List.mem_map_of_mem ho')

end

/-- A tree has at most as many nodes as the arena that holds it. -/
theorem Owned.size_le {arena : Arena} (ho : arena.Owned) {tree : Tree} (h : arena.Holds tree) :
    tree.size ≤ arena.size := by
  classical
  have hn : (tree.ids.map NodeId.index).Nodup :=
    (ho.nodup_ids tree h).map fun a b hab => NodeId.ext_index hab
  have hs : (tree.ids.map NodeId.index).toFinset ⊆ Finset.range arena.size := by
    intro n hm
    simp only [List.mem_toFinset, List.mem_map] at hm
    obtain ⟨id, hid, rfl⟩ := hm
    exact Finset.mem_range.2 (Holds.lt_size tree h id hid)
  have hc := Finset.card_le_card hs
  rw [List.toFinset_card_of_nodup hn, List.length_map, Tree.length_ids, Finset.card_range] at hc
  exact hc

open Classical in
/-- The number of nodes that are the given one or below it. -/
noncomputable def spread (arena : Arena) (id : NodeId) : Nat :=
  ((Finset.range arena.size).filter fun n => ReflTransGen arena.Under ⟨n⟩ id).card

/-- There is less below a node than below the one above it. -/
theorem Owned.spread_lt {arena : Arena} (h : arena.Owned) {child parent : NodeId} (hu : arena.Under child parent) :
    arena.spread child < arena.spread parent := by
  classical
  apply Finset.card_lt_card
  rw [Finset.ssubset_iff_of_subset]
  · refine ⟨parent.index, ?_, ?_⟩
    · simpa using ⟨h.lt_size_parent hu, ReflTransGen.refl⟩
    · simp only [Finset.mem_filter, not_and]
      intro _ hb
      exact h.acyclic parent (TransGen.tail' hb hu)
  · intro n hn
    simp only [Finset.mem_filter] at hn ⊢
    exact ⟨hn.1, hn.2.tail hu⟩

/-- If there is a tree at each of the numbers, there are trees at all of them. -/
theorem exists_trees {arena : Arena} (ids : List NodeId) (h : ∀ id ∈ ids, ∃ tree, arena.Holds tree ∧ tree.id = id) :
    ∃ trees : List Tree, trees.map Tree.id = ids ∧ ∀ tree ∈ trees, arena.Holds tree := by
  induction ids with
  | nil => exact ⟨[], rfl, by simp⟩
  | cons id ids ih =>
    obtain ⟨tree, ht, hid⟩ := h id (by simp)
    obtain ⟨trees, hts, hh⟩ := ih fun x hx => h x (by simp [hx])
    refine ⟨tree :: trees, by rw [List.map_cons, hid, hts], ?_⟩
    intro t hmem
    rcases List.mem_cons.1 hmem with rfl | hmem
    · exact ht
    · exact hh t hmem

/-- Every node of an arena has a tree. -/
theorem Owned.exists_tree {arena : Arena} (ho : arena.Owned) (id : NodeId) (h : id.index < arena.size) :
    ∃ tree, arena.Holds tree ∧ tree.id = id := by
  -- the children of a node have fewer nodes below them than the node has
  induction hn : arena.spread id using Nat.strong_induction_on generalizing id with
  | _ n ih =>
    obtain ⟨⟨head, children⟩, hx⟩ := Option.isSome_iff_exists.1 ((content?_isSome_iff arena id).2 h)
    have hchild : ∀ child ∈ children, ∃ tree, arena.Holds tree ∧ tree.id = child := by
      intro child hc
      have hu : arena.Under child id := by rw [← ho.linked, childrenOf_eq hx]; exact hc
      exact ih (arena.spread child) (hn ▸ ho.spread_lt hu) child (lt_size_of_under hu) rfl
    obtain ⟨trees, hids, hh⟩ := exists_trees children hchild
    exact ⟨.node id head trees, holds_node.2 ⟨by rw [hids]; exact hx, hh⟩, rfl⟩

/-! ## The tree that is found is the tree that is held -/

/-- What has a content is a node with it. -/
theorem get?_of_content? {arena : Arena} {id : NodeId} {head : Head} {children : List NodeId}
    (h : arena.content? id = some (head, children)) :
    ∃ node, arena.get? id = some node ∧ node.head = head ∧ node.children = children := by
  obtain ⟨node, hn, hx⟩ := Option.map_eq_some_iff.1 h
  exact ⟨node, hn, congrArg Prod.fst hx, congrArg Prod.snd hx⟩

/-- A tree that an arena holds is found, if the search may go as deep as the tree is large. -/
theorem unfold_of_holds {arena : Arena} (bound : Nat) :
    ∀ tree : Tree, arena.Holds tree → tree.size ≤ bound → arena.unfold bound tree.id = .ok tree := by
  induction bound with
  | zero =>
    intro tree _ hb
    have := tree.size_pos
    omega
  | succ bound ih =>
    rintro ⟨id, head, children⟩ h hb
    obtain ⟨hc, hh⟩ := holds_node.1 h
    obtain ⟨node, hn, rfl, hch⟩ := get?_of_content? hc
    have hf : arena.find id = .ok node := find_eq_ok_iff.2 hn
    have hm : (children.map Tree.id).mapM (arena.unfold bound) = .ok children := by
      apply mapM_map_eq_ok
      intro child hmem
      have := Tree.size_le_sizeAll hmem
      rw [Tree.size] at hb
      exact ih child (hh child hmem) (by omega)
    rw [Tree.id, unfold, hf]
    show (node.children.mapM (arena.unfold bound) >>= fun children => _) = _
    rw [hch, hm]
    rfl

/-- A tree that is found is held. -/
theorem holds_of_unfold {arena : Arena} (bound : Nat) :
    ∀ {id : NodeId} {tree : Tree}, arena.unfold bound id = .ok tree → arena.Holds tree ∧ tree.id = id := by
  induction bound with
  | zero => intro id tree h; cases h
  | succ bound ih =>
    intro id tree h
    rw [unfold] at h
    obtain ⟨node, hn, h⟩ := bind_eq_ok_iff.1 h
    obtain ⟨children, hch, h⟩ := bind_eq_ok_iff.1 h
    cases h
    obtain ⟨hids, hh⟩ := of_mapM_eq_ok (fun a b => ih) hch
    refine ⟨holds_node.2 ⟨?_, hh⟩, rfl⟩
    rw [content?, find_eq_ok_iff.1 hn, hids]
    rfl

/-- The tree that is found at a node is the one that the arena holds there. -/
theorem Owned.tree_eq_ok_iff {arena : Arena} (ho : arena.Owned) {root : NodeId} {tree : Tree} :
    arena.tree root = .ok tree ↔ arena.Holds tree ∧ tree.id = root := by
  constructor
  · exact holds_of_unfold (arena.size + 1)
  · rintro ⟨h, rfl⟩
    exact unfold_of_holds (arena.size + 1) tree h (Nat.le_succ_of_le (ho.size_le h))

/-! ## Trees after a link -/

/-- A tree keeps its nodes when a child is added to a node outside it. -/
theorem Holds.link {arena : Arena} {tree : Tree} (h : arena.Holds tree) {parent : NodeId} (child : NodeId)
    (hp : parent ∉ tree.ids) : (arena.link parent child).Holds tree :=
  Holds.of_content tree (fun _ hid => content?_link_of_ne arena child fun he => hp (he ▸ hid)) h

/-- A tree becomes the last child of a node that it does not hold. -/
theorem Owned.holds_link {arena : Arena} (ho : arena.Owned) {id : NodeId} {head : Head} {children : List Tree}
    (h : arena.Holds (.node id head children)) {child : Tree} (hc : arena.Holds child)
    (hn : ¬ReflTransGen arena.Under id child.id) :
    (arena.link id child.id).Holds (.node id head (children ++ [child])) := by
  have hnot : id ∉ Tree.idsAll children := by
    have := ho.nodup_ids _ h
    rw [Tree.ids, List.nodup_cons] at this
    exact this.1
  obtain ⟨hself, hh⟩ := holds_node.1 h
  refine holds_node.2 ⟨?_, ?_⟩
  · rw [content?_link_self child.id hself, List.map_append]
    rfl
  · intro other hm
    rcases List.mem_append.1 hm with hm | hm
    · exact (hh other hm).link _ fun hid => hnot (Tree.ids_subset_idsAll hm hid)
    · rw [List.mem_singleton] at hm
      subst hm
      exact hc.link _ fun hid => hn (ho.above_of_mem_ids other hc id hid)

end Arena

end ShaderTrace
