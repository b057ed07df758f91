import Mathlib.Data.Finset.Card
import Mathlib.Data.Finset.Filter
import Mathlib.Data.Finset.Range
import Mathlib.Logic.Relation
import ShaderTrace.Arena.Edit
import ShaderTrace.Proofs.Computations

/-!
# Who owns whom in an arena

The links of an arena are kept twice: a node names the node it belongs to, and the nodes that belong to it. `Owned` says
that the two agree, that no node is listed twice and that no node belongs to itself through others. Allocation keeps it
(`Owned.alloc`), and so does linking a detached node to a node that is not below it (`Owned.link`), which is what the checks
before an attachment establish (`checkAttach_eq_ok_iff`).
-/

namespace ShaderTrace

/-- Numbers of nodes with the same index are the same. -/
theorem NodeId.ext_index {a b : NodeId} (h : a.index = b.index) : a = b := by
  cases a
  cases b
  exact congrArg NodeId.mk h

namespace Arena

open Relation

/-- What a node says and which nodes belong to it. The link upwards is left out. -/
def content? (arena : Arena) (id : NodeId) : Option (Head × List NodeId) :=
  (arena.get? id).map fun node => (node.head, node.children)

/-- The nodes that belong to a node, from left to right. -/
def childrenOf (arena : Arena) (id : NodeId) : List NodeId := ((arena.content? id).map Prod.snd).getD []

/-- The first node belongs to the second one. -/
def Under (arena : Arena) (child parent : NodeId) : Prop := arena.parent? child = some parent

/-- Both records of ownership agree, and ownership has no cycle. -/
structure Owned (arena : Arena) : Prop where
  linked : ∀ parent child, child ∈ arena.childrenOf parent ↔ arena.Under child parent
  nodup : ∀ parent, (arena.childrenOf parent).Nodup
  acyclic : ∀ id, ¬TransGen arena.Under id id

/-! ## What allocating and linking do to the nodes -/

/-- There is a node exactly below the size of the arena. -/
theorem get?_isSome_iff (arena : Arena) (id : NodeId) : (arena.get? id).isSome ↔ id.index < arena.size := by
  simp [get?, size]

/-- There is a content exactly below the size of the arena. -/
theorem content?_isSome_iff (arena : Arena) (id : NodeId) : (arena.content? id).isSome ↔ id.index < arena.size := by
  simp [content?, get?_isSome_iff]

/-- What has a content is a node of the arena. -/
theorem lt_size_of_content? {arena : Arena} {id : NodeId} {x : Head × List NodeId} (h : arena.content? id = some x) :
    id.index < arena.size := by
  rw [← content?_isSome_iff, h]
  rfl

/-- What is under a node is itself a node of the arena. -/
theorem lt_size_of_under {arena : Arena} {child parent : NodeId} (h : arena.Under child parent) :
    child.index < arena.size := by
  rw [← get?_isSome_iff]
  cases hn : arena.get? child with
  | none => simp [Under, parent?, hn] at h
  | some node => rfl

/-- A new node is added at the end, and the others stay. -/
theorem get?_alloc (arena : Arena) (head : Head) (id : NodeId) :
    (arena.alloc head).2.get? id = if id.index = arena.size then some { head } else arena.get? id := by
  unfold alloc get? size
  rw [Array.getElem?_push]

@[simp] theorem size_alloc (arena : Arena) (head : Head) : (arena.alloc head).2.size = arena.size + 1 := by
  simp [alloc, size]

@[simp] theorem alloc_fst (arena : Arena) (head : Head) : (arena.alloc head).1 = ⟨arena.size⟩ := rfl

/-- There is no node at the end of the arena. -/
theorem get?_size (arena : Arena) {id : NodeId} (h : id.index = arena.size) : arena.get? id = none := by
  have := (get?_isSome_iff arena id).not.2 (by omega)
  simpa using this

/-- Nothing is above the end of the arena. -/
theorem parent?_size (arena : Arena) : arena.parent? ⟨arena.size⟩ = none := by
  have h : arena.get? ⟨arena.size⟩ = none := get?_size arena rfl
  rw [parent?, h]
  rfl

/-- A new node belongs to no node, and no other node changes hands. -/
@[simp] theorem parent?_alloc (arena : Arena) (head : Head) (id : NodeId) :
    (arena.alloc head).2.parent? id = arena.parent? id := by
  unfold parent?
  rw [get?_alloc]
  split
  · rename_i h
    simp [get?_size arena h]
  · rfl

/-- A new node has no children, and the others keep their contents. -/
theorem content?_alloc (arena : Arena) (head : Head) (id : NodeId) :
    (arena.alloc head).2.content? id = if id.index = arena.size then some (head, []) else arena.content? id := by
  unfold content?
  rw [get?_alloc]
  split <;> rfl

/-- A new node is childless. -/
theorem content?_alloc_self (arena : Arena) (head : Head) :
    (arena.alloc head).2.content? ⟨arena.size⟩ = some (head, []) := by
  simp [content?_alloc]

/-- Allocation changes no node that is there. -/
theorem content?_alloc_of_lt (arena : Arena) (head : Head) {id : NodeId} (h : id.index < arena.size) :
    (arena.alloc head).2.content? id = arena.content? id := by
  rw [content?_alloc, if_neg (by omega)]

/-- A new node changes the children of none. -/
@[simp] theorem childrenOf_alloc (arena : Arena) (head : Head) (id : NodeId) :
    (arena.alloc head).2.childrenOf id = arena.childrenOf id := by
  unfold childrenOf
  rw [content?_alloc]
  split
  · rename_i h
    simp [content?, get?_size arena h]
  · rfl

/-- A link changes the parent of the child and the children of the parent. -/
theorem get?_link (arena : Arena) (parent child id : NodeId) :
    (arena.link parent child).get? id = (arena.get? id).map fun node =>
      { node with
        parent := if id = child then some parent else node.parent
        children := if id = parent then node.children ++ [child] else node.children } := by
  have index_eq (a b : NodeId) : a.index = b.index ↔ b = a :=
    ⟨fun h => (NodeId.ext_index h).symm, fun h => h ▸ rfl⟩
  simp only [link, get?, Array.getElem?_modify, index_eq]
  cases arena.nodes[id.index]? with
  | none => simp
  | some node =>
    by_cases hp : id = parent
    · by_cases hc : id = child
      · simp only [if_pos hp, if_pos hc, Option.map_some]
      · simp only [if_pos hp, if_neg hc, Option.map_some]
    · by_cases hc : id = child
      · simp only [if_neg hp, if_pos hc, Option.map_some]
      · simp only [if_neg hp, if_neg hc, Option.map_some]

@[simp] theorem size_link (arena : Arena) (parent child : NodeId) : (arena.link parent child).size = arena.size := by
  simp [link, size]

/-- Linking adds one child to one node. -/
theorem content?_link (arena : Arena) (parent child id : NodeId) :
    (arena.link parent child).content? id =
      (arena.content? id).map fun x => (x.1, if id = parent then x.2 ++ [child] else x.2) := by
  simp [content?, get?_link, Function.comp_def]

theorem content?_link_of_ne (arena : Arena) {parent id : NodeId} (child : NodeId) (h : id ≠ parent) :
    (arena.link parent child).content? id = arena.content? id := by
  simp [content?_link, h]

/-- A link puts the child at the end of the children of the parent. -/
theorem content?_link_self {arena : Arena} {parent : NodeId} {head : Head} {children : List NodeId} (child : NodeId)
    (h : arena.content? parent = some (head, children)) :
    (arena.link parent child).content? parent = some (head, children ++ [child]) := by
  simp [content?_link, h]

/-- Linking gives one node a new owner. -/
theorem parent?_link (arena : Arena) (parent child id : NodeId) (h : child.index < arena.size) :
    (arena.link parent child).parent? id = if id = child then some parent else arena.parent? id := by
  unfold parent?
  rw [get?_link]
  by_cases hc : id = child
  · subst hc
    obtain ⟨node, hn⟩ := Option.isSome_iff_exists.1 ((get?_isSome_iff arena id).2 h)
    simp [hn]
  · cases hn : arena.get? id <;> simp [hc]

/-- The same for the children on their own. -/
theorem childrenOf_link (arena : Arena) (parent child id : NodeId) (h : parent.index < arena.size) :
    (arena.link parent child).childrenOf id =
      if id = parent then arena.childrenOf id ++ [child] else arena.childrenOf id := by
  unfold childrenOf
  rw [content?_link]
  by_cases hp : id = parent
  · subst hp
    obtain ⟨x, hx⟩ := Option.isSome_iff_exists.1 ((content?_isSome_iff arena id).2 h)
    simp [hx]
  · cases hx : arena.content? id <;> simp [hp]

theorem childrenOf_eq {arena : Arena} {id : NodeId} {head : Head} {children : List NodeId}
    (h : arena.content? id = some (head, children)) : arena.childrenOf id = children := by
  simp [childrenOf, h]

/-- What has children is a node of the arena. -/
theorem lt_size_of_mem_childrenOf {arena : Arena} {parent child : NodeId} (h : child ∈ arena.childrenOf parent) :
    parent.index < arena.size := by
  rw [← content?_isSome_iff]
  cases hx : arena.content? parent with
  | none => simp [childrenOf, hx] at h
  | some x => rfl

/-! ## Ownership is kept -/

/-- A node is under one other at most. -/
theorem under_rightUnique (arena : Arena) : Relator.RightUnique arena.Under := by
  intro a b c hb hc
  exact Option.some.inj (hb.symm.trans hc)

/-- The owner of a node is a node of the arena. -/
theorem Owned.lt_size_parent {arena : Arena} (h : arena.Owned) {child parent : NodeId} (hu : arena.Under child parent) :
    parent.index < arena.size :=
  lt_size_of_mem_childrenOf ((h.linked parent child).2 hu)

/-- What a node belongs to, directly or through others, is a node of the arena. -/
theorem Owned.lt_size_of_above {arena : Arena} (h : arena.Owned) {a b : NodeId} (ha : a.index < arena.size)
    (hab : ReflTransGen arena.Under a b) : b.index < arena.size := by
  rcases ReflTransGen.cases_tail hab with rfl | ⟨c, -, hu⟩
  · exact ha
  · exact h.lt_size_parent hu

/-- The empty arena is owned. -/
theorem owned_empty : Arena.empty.Owned := by
  have hp : ∀ id, Arena.empty.parent? id = none := by intro id; simp [Arena.empty, parent?, get?]
  have hc : ∀ id, Arena.empty.childrenOf id = [] := by intro id; simp [Arena.empty, childrenOf, content?, get?]
  refine ⟨?_, ?_, ?_⟩
  · intro parent child
    simp [hc, Under, hp]
  · intro parent
    simp [hc]
  · intro id h
    obtain ⟨b, hb, _⟩ := TransGen.head'_iff.1 h
    simp [Under, hp] at hb

/-- A new node is under none, and none is under it. -/
theorem under_alloc (arena : Arena) (head : Head) : (arena.alloc head).2.Under = arena.Under := by
  funext child parent
  simp [Under]

/-- A new node keeps the arena owned. -/
theorem Owned.alloc {arena : Arena} (h : arena.Owned) (head : Head) : (arena.alloc head).2.Owned := by
  refine ⟨?_, ?_, ?_⟩
  · intro parent child
    rw [childrenOf_alloc, under_alloc]
    exact h.linked parent child
  · intro parent
    rw [childrenOf_alloc]
    exact h.nodup parent
  · rw [under_alloc]
    exact h.acyclic

/-- A way upwards after a link either was there before or passes through the new link. -/
theorem above_of_link {arena : Arena} {parent child a b : NodeId} (hc : child.index < arena.size)
    (h : TransGen (arena.link parent child).Under a b) :
    TransGen arena.Under a b ∨ ReflTransGen arena.Under a child ∧ ReflTransGen arena.Under parent b := by
  have hstep : ∀ {x y}, (arena.link parent child).Under x y → arena.Under x y ∨ x = child ∧ y = parent := by
    intro x y hxy
    unfold Under at hxy ⊢
    rw [parent?_link arena parent child x hc] at hxy
    split at hxy
    · rename_i hx
      exact Or.inr ⟨hx, (Option.some.inj hxy).symm⟩
    · exact Or.inl hxy
  induction h with
  | single hu =>
    rcases hstep hu with hu | ⟨rfl, rfl⟩
    · exact Or.inl (.single hu)
    · exact Or.inr ⟨.refl, .refl⟩
  | tail _ hu ih =>
    rcases hstep hu with hu | ⟨rfl, rfl⟩
    · rcases ih with ih | ⟨h1, h2⟩
      · exact Or.inl (ih.tail hu)
      · exact Or.inr ⟨h1, h2.tail hu⟩
    · rcases ih with ih | ⟨h1, _⟩
      · exact Or.inr ⟨ih.to_reflTransGen, .refl⟩
      · exact Or.inr ⟨h1, .refl⟩

/-- Linking a detached node to a node that is not below it keeps ownership sound. -/
theorem Owned.link {arena : Arena} (h : arena.Owned) {parent child : NodeId} (hp : parent.index < arena.size)
    (hc : child.index < arena.size) (hd : arena.parent? child = none) (hn : ¬ReflTransGen arena.Under parent child) :
    (arena.link parent child).Owned := by
  have hnew : child ∉ arena.childrenOf parent := by
    intro hm
    have := (h.linked parent child).1 hm
    simp [Under, hd] at this
  refine ⟨?_, ?_, ?_⟩
  · intro p c
    unfold Under
    rw [childrenOf_link arena parent child p hp, parent?_link arena parent child c hc]
    by_cases hcc : c = child
    · subst hcc
      have hold : ∀ q, c ∉ arena.childrenOf q := by
        intro q hm
        have := (h.linked q c).1 hm
        simp [Under, hd] at this
      by_cases hpp : p = parent
      · simp [hpp]
      · simp [hpp, hold p, Ne.symm hpp]
    · have := h.linked p c
      unfold Under at this
      by_cases hpp : p = parent
      · subst hpp
        simp [hcc, this]
      · simp [hpp, hcc, this]
  · intro p
    rw [childrenOf_link arena parent child p hp]
    split
    · rename_i hpp
      subst hpp
      rw [List.nodup_append]
      refine ⟨h.nodup p, List.nodup_singleton _, ?_⟩
      intro a ha b hb hab
      rw [List.mem_singleton] at hb
      exact hnew (hb ▸ hab ▸ ha)
    · exact h.nodup p
  · intro id hcyc
    rcases above_of_link hc hcyc with hcyc | ⟨h1, h2⟩
    · exact h.acyclic id hcyc
    · exact hn (h2.trans h1)

/-! ## The nodes above a node -/

/-- What is among the ancestors of a node is above it. -/
theorem above_of_mem_ancestors (arena : Arena) (bound : Nat) :
    ∀ {id x : NodeId}, x ∈ arena.ancestors bound id → ReflTransGen arena.Under id x := by
  induction bound with
  | zero => intro id x hx; simp [ancestors] at hx
  | succ bound ih =>
    intro id x hx
    rw [ancestors, List.mem_cons] at hx
    rcases hx with rfl | hx
    · exact .refl
    · cases hp : arena.parent? id with
      | none => simp [hp] at hx
      | some parent =>
        simp only [hp, Option.map_some, Option.getD_some] at hx
        exact .head hp (ih hx)

open Classical in
/-- The number of nodes that are the given one or above it. -/
noncomputable def height (arena : Arena) (id : NodeId) : Nat :=
  ((Finset.range arena.size).filter fun n => ReflTransGen arena.Under id ⟨n⟩).card

/-- No node is higher than there are nodes. -/
theorem height_le_size (arena : Arena) (id : NodeId) : arena.height id ≤ arena.size := by
  classical
  have := Finset.card_filter_le (Finset.range arena.size) fun n => ReflTransGen arena.Under id ⟨n⟩
  simpa [height] using this

/-- The height decreases from a node to the one above it. -/
theorem Owned.height_lt {arena : Arena} (h : arena.Owned) {child parent : NodeId} (hu : arena.Under child parent) :
    arena.height parent < arena.height child := by
  classical
  apply Finset.card_lt_card
  rw [Finset.ssubset_iff_of_subset]
  · refine ⟨child.index, ?_, ?_⟩
    · simpa using ⟨lt_size_of_under hu, ReflTransGen.refl⟩
    · simp only [Finset.mem_filter, not_and]
      intro _ hb
      exact h.acyclic child (TransGen.head' hu hb)
  · intro n hn
    simp only [Finset.mem_filter] at hn ⊢
    exact ⟨hn.1, .head hu hn.2⟩

/-- Every node of the arena has a height. -/
theorem height_pos {arena : Arena} {id : NodeId} (h : id.index < arena.size) : 0 < arena.height id := by
  classical
  refine Finset.card_pos.2 ⟨id.index, ?_⟩
  simpa using ⟨h, ReflTransGen.refl⟩

/-- The walk upwards finds every node above, if it may take as many steps as there are. -/
theorem Owned.mem_ancestors {arena : Arena} (h : arena.Owned) (bound : Nat) :
    ∀ {id x : NodeId}, id.index < arena.size → arena.height id ≤ bound → ReflTransGen arena.Under id x →
      x ∈ arena.ancestors bound id := by
  induction bound with
  | zero =>
    intro id x hid hb
    have := height_pos hid
    omega
  | succ bound ih =>
    intro id x hid hb hx
    rw [ancestors, List.mem_cons]
    rcases hx.cases_head with rfl | ⟨parent, hu, hx⟩
    · exact Or.inl rfl
    · right
      have hp : arena.parent? id = some parent := hu
      rw [hp, Option.map_some, Option.getD_some]
      have := h.height_lt hu
      exact ih (h.lt_size_parent hu) (by omega) hx

/-- The test for a cycle is exact. -/
theorem Owned.checkAcyclic_eq_ok_iff {arena : Arena} (h : arena.Owned) {parent child : NodeId}
    (hp : parent.index < arena.size) :
    arena.checkAcyclic parent child = .ok () ↔ ¬ReflTransGen arena.Under parent child := by
  have hiff : child ∈ arena.ancestors arena.size parent ↔ ReflTransGen arena.Under parent child :=
    ⟨above_of_mem_ancestors arena _, h.mem_ancestors _ hp (height_le_size arena parent)⟩
  unfold checkAcyclic
  by_cases hm : child ∈ arena.ancestors arena.size parent
  · simp [hm, hiff.1 hm]
  · simp [hm, mt hiff.2 hm]

/-! ## Attaching -/

/-- A node is found exactly if it is in the arena. -/
theorem find_eq_ok_iff {arena : Arena} {id : NodeId} {node : Node} :
    arena.find id = .ok node ↔ arena.get? id = some node := by
  unfold find
  cases arena.get? id <;> simp

/-- There is room for a child exactly if the node has fewer than it may have. -/
theorem checkRoom_eq_ok_iff {id : NodeId} {node : Node} {u : Unit} :
    checkRoom id node = .ok u ↔ ∀ max, node.kind.arity.max = some max → node.children.length < max := by
  unfold checkRoom
  cases node.kind.arity.max with
  | none => simp
  | some max => by_cases h : max ≤ node.children.length <;> (simp [h]; try omega)

/-- A node may still get children exactly if it has no parent or is a block. -/
theorem checkUnsealed_eq_ok_iff {id : NodeId} {node : Node} {u : Unit} :
    checkUnsealed id node = .ok u ↔ (node.parent = none ∨ node.kind.isBlock = true) := by
  unfold checkUnsealed
  cases node.parent <;> cases node.kind.isBlock <;> simp

/-- A node may be attached exactly if it has no parent. -/
theorem checkDetached_eq_ok_iff {id : NodeId} {node : Node} {u : Unit} :
    checkDetached id node = .ok u ↔ node.parent = none := by
  unfold checkDetached
  cases node.parent <;> simp

/-- What the checks before an attachment establish. -/
theorem Owned.checkAttach_eq_ok_iff {arena : Arena} (h : arena.Owned) {parent child : NodeId} :
    arena.checkAttach parent child = .ok () ↔
      ∃ node, arena.get? parent = some node ∧ (∀ max, node.kind.arity.max = some max → node.children.length < max) ∧
        (node.parent = none ∨ node.kind.isBlock = true) ∧ child.index < arena.size ∧ arena.parent? child = none ∧
        ¬ReflTransGen arena.Under parent child := by
  unfold checkAttach
  simp only [bind_eq_ok_iff, find_eq_ok_iff, checkRoom_eq_ok_iff, checkUnsealed_eq_ok_iff, checkDetached_eq_ok_iff]
  constructor
  · rintro ⟨node, hn, _, hroom, _, hopen, childNode, hcn, _, hdet, hcyc⟩
    have hp : parent.index < arena.size := (get?_isSome_iff _ _).1 (by rw [hn]; rfl)
    have hc : child.index < arena.size := (get?_isSome_iff _ _).1 (by rw [hcn]; rfl)
    exact ⟨node, hn, hroom, hopen, hc, by simp [parent?, hcn, hdet], (h.checkAcyclic_eq_ok_iff hp).1 hcyc⟩
  · rintro ⟨node, hn, hroom, hopen, hc, hdet, hcyc⟩
    have hp : parent.index < arena.size := (get?_isSome_iff _ _).1 (by rw [hn]; rfl)
    obtain ⟨childNode, hcn⟩ := Option.isSome_iff_exists.1 ((get?_isSome_iff arena child).2 hc)
    have hdet' : childNode.parent = none := by simpa [parent?, hcn] using hdet
    exact ⟨node, hn, (), hroom, (), hopen, childNode, hcn, (), hdet', (h.checkAcyclic_eq_ok_iff hp).2 hcyc⟩

/-- An attachment that is not refused is the link it asks for, and keeps ownership sound. -/
theorem Owned.attach {arena arena' : Arena} (h : arena.Owned) {parent child : NodeId}
    (ha : arena.attach parent child = .ok arena') : arena' = arena.link parent child ∧ arena'.Owned := by
  unfold Arena.attach at ha
  obtain ⟨_, hcheck, ha⟩ := bind_eq_ok_iff.1 ha
  obtain ⟨node, hn, _, _, hc, hdet, hcyc⟩ := h.checkAttach_eq_ok_iff.1 hcheck
  have hp : parent.index < arena.size := (get?_isSome_iff _ _).1 (by rw [hn]; rfl)
  cases ha
  exact ⟨rfl, h.link hp hc hdet hcyc⟩

end Arena

end ShaderTrace
