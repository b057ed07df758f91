import ShaderTrace.Proofs.Refinement.Stack

/-!
# Building nodes from operands

Handles that stand for the same value (`SameOperand`): the result of an operation is a node on the one side and a term on
the other, and the node has a tree of that term. Whether lowering an operand adopts its node or copies it, what it gives is
a detached tree of the operand's term (`lower_spec`); so a new node over operands has the tree that the terms of the operands
make (`attachOperands_spec`), and the nodes that were there before say what they said.
-/

namespace ShaderTrace.Refinement

/-! ## Handles -/

/-- The node has a tree of the given term, which is no block. -/
def Stands (arena : Arena) (node : NodeId) (term : Term) : Prop :=
  ∃ tree : Tree, arena.Holds tree ∧ tree.id = node ∧ tree.term = term ∧ tree.kind.isBlock = false

inductive SameForm (arena : Arena) : ValueForm → Reference.Form → Prop
  | unbound : SameForm arena .unbound .unbound
  | bound (symbol : SymbolId) : SameForm arena (.bound symbol) (.bound symbol)
  | pending {node : NodeId} {term : Term} (h : Stands arena node term) : SameForm arena (.pending node) (.pending term)
  | member (owner : SymbolId) (ownerType : ValueType) (lane : Lane) (writable : Bool) :
    SameForm arena (.member owner ownerType lane writable) (.member owner ownerType lane writable)

/-- Two values are equal but for the numbers of nodes. -/
structure SameValue (arena : Arena) (value : Value) (other : Reference.Value) : Prop where
  type : value.type = other.type
  form : SameForm arena value.form other.form

inductive SameHandle (arena : Arena) : Handle → Reference.Handle → Prop
  | value {value : Value} {other : Reference.Value} (h : SameValue arena value other) :
    SameHandle arena (.value value) (.value other)
  | input (input : Input) : SameHandle arena (.input input) (.input input)

inductive SameOperand (arena : Arena) : Operand → Reference.Operand → Prop
  | handle {handle : Handle} {other : Reference.Handle} (h : SameHandle arena handle other) :
    SameOperand arena (.handle handle) (.handle other)
  | literal (value : Literal) : SameOperand arena (.literal value) (.literal value)

section Same

variable {arena arena' : Arena}

/-- Handles that are the same have the same type. -/
theorem SameHandle.type {handle : Handle} {other : Reference.Handle} (h : SameHandle arena handle other) :
    handle.type = other.type := by
  cases h with
  | value h => exact h.type
  | input => rfl

/-- Operands that are the same have the same type. -/
theorem SameOperand.type {operand : Operand} {other : Reference.Operand} (h : SameOperand arena operand other) :
    operand.type = other.type := by
  cases h with
  | handle h => exact h.type
  | literal => rfl

/-- Operands that are the same are conditions alike. -/
theorem SameOperand.isCondition {operand : Operand} {other : Reference.Operand} (h : SameOperand arena operand other) :
    operand.isCondition = other.isCondition := by
  cases h with
  | handle h => simp only [Operand.isCondition, Reference.Operand.isCondition, h.type]
  | literal => rfl

/-- The expressions of one arena are expressions of the other. -/
def Keeps (arena arena' : Arena) : Prop :=
  ∀ tree : Tree, arena.Holds tree → tree.kind.isBlock = false → arena'.Holds tree

/-- A node keeps standing for its term. -/
theorem Stands.keep (hk : Keeps arena arena') {node : NodeId} {term : Term} (h : Stands arena node term) :
    Stands arena' node term := by
  obtain ⟨tree, ht, hid, hterm, hkind⟩ := h
  exact ⟨tree, hk tree ht hkind, hid, hterm, hkind⟩

/-- Forms stay the same while the arena keeps what it has. -/
theorem SameForm.keep (hk : Keeps arena arena') {form : ValueForm} {other : Reference.Form}
    (h : SameForm arena form other) : SameForm arena' form other := by
  cases h with
  | unbound => exact .unbound
  | bound symbol => exact .bound symbol
  | pending h => exact .pending (h.keep hk)
  | member owner ownerType lane writable => exact .member owner ownerType lane writable

/-- Values stay the same while the arena keeps what it has. -/
theorem SameValue.keep (hk : Keeps arena arena') {value : Value} {other : Reference.Value}
    (h : SameValue arena value other) : SameValue arena' value other :=
  ⟨h.type, h.form.keep hk⟩

/-- Handles stay the same while the arena keeps what it has. -/
theorem SameHandle.keep (hk : Keeps arena arena') {handle : Handle} {other : Reference.Handle}
    (h : SameHandle arena handle other) : SameHandle arena' handle other := by
  cases h with
  | value h => exact .value (h.keep hk)
  | input input => exact .input input

/-- Operands stay the same while the arena keeps what it has. -/
theorem SameOperand.keep (hk : Keeps arena arena') {operand : Operand} {other : Reference.Operand}
    (h : SameOperand arena operand other) : SameOperand arena' operand other := by
  cases h with
  | handle h => exact .handle (h.keep hk)
  | literal value => exact .literal value

end Same

/-! ## Actions -/

/-- A node of the arena is found. -/
theorem find_eq {session : Session} {id : NodeId} {node : Node} (h : session.arena.get? id = some node) :
    Recorder.find id session = .ok node session := by
  show (Recorder.ofArena (session.arena.find id)) session = _
  rw [Arena.find_eq_ok_iff.2 h]
  rfl

/-- A new node is the last one of the arena. -/
theorem alloc_eq (session : Session) (head : Head) :
    Recorder.alloc head session = .ok ⟨session.arena.size⟩ { session with arena := (session.arena.alloc head).2 } := rfl

/-- A node is attached where the arena lets it be. -/
theorem attach_eq {session : Session} {parent child : NodeId} (h : session.arena.checkAttach parent child = .ok ()) :
    Recorder.attach parent child session = .ok () { session with arena := session.arena.link parent child } := by
  show (Recorder.ofArena (session.arena.checkAttach parent child) >>= fun _ => _) session = _
  rw [h]
  rfl

/-- A tree is copied as the arena copies it. -/
theorem clone_eq {session : Session} {id copy : NodeId} {arena : Arena} (h : session.arena.clone id = .ok (copy, arena)) :
    Recorder.clone id session = .ok copy { session with arena } := by
  show (Recorder.ofArena (session.arena.clone id) >>= fun _ => _) session = _
  rw [h]
  rfl

/-! ## Lowering -/

/-- Lowering gave a detached tree: it is new, or it was there at the time of `base`. Nothing else has changed. -/
structure Lowered (base arena arena' : Arena) (tree : Tree) : Prop where
  owned : arena'.Owned
  size_le : arena.size ≤ arena'.size
  same : ∀ id, id.index < arena.size → arena'.content? id = arena.content? id ∧ arena'.parent? id = arena.parent? id
  holds : arena'.Holds tree
  detached : arena'.parent? tree.id = none
  plain : tree.kind.isBlock = false
  place : tree.id.index < base.size ∨ arena.size ≤ tree.id.index

/-- To lower an operand extends the arena. -/
theorem Lowered.extends {base arena arena' : Arena} {tree : Tree} (h : Lowered base arena arena' tree) :
    arena.Extends arena' :=
  ⟨h.size_le, fun id hid => (h.same id hid).1, fun id hb => (h.same id hb.lt_size).2⟩

/-- A new node without children. -/
theorem lowered_alloc (base : Arena) {arena : Arena} (ho : arena.Owned) {head : Head} (hk : head.kind.isBlock = false) :
    Lowered base arena (arena.alloc head).2 (.node ⟨arena.size⟩ head []) where
  owned := ho.alloc head
  size_le := by simp
  same := fun id hid => ⟨Arena.content?_alloc_of_lt arena head hid, Arena.parent?_alloc arena head id⟩
  holds := Arena.holds_node.2 ⟨Arena.content?_alloc_self arena head, by simp⟩
  detached := (Arena.parent?_alloc arena head _).trans (Arena.parent?_size arena)
  plain := hk
  place := .inr (Nat.le_refl _)

/-- The node of an operation is adopted if it is detached, and copied otherwise. -/
theorem lowered_pending {session : Session} {base : Arena} (ho : session.arena.Owned) (he : base.Extends session.arena)
    {node : NodeId} {term : Term} (h : Stands base node term) (type : ValueType) :
    ∃ tree arena', Recorder.lowerValue ⟨type, .pending node⟩ session = .ok tree.id { session with arena := arena' } ∧
      tree.term = term ∧ Lowered base session.arena arena' tree := by
  obtain ⟨tree, hbase, rfl, rfl, hk⟩ := h
  have ht : session.arena.Holds tree := he.holds hbase
  obtain ⟨found, hfound, -, -⟩ := Arena.get?_of_content? ht.content
  have hparent : session.arena.parent? tree.id = found.parent := by
    rw [Arena.parent?, hfound]
    rfl
  have heq : Recorder.lowerValue ⟨type, .pending tree.id⟩ session =
      (if found.parent.isSome then Recorder.clone tree.id else pure tree.id) session := bind_of_ok (find_eq hfound)
  rw [heq]
  by_cases hp : found.parent.isSome = true
  · obtain ⟨copy, arena', hc, hcopy, hterm, ho', hid, hd, hsame, hle⟩ := ho.clone ht
    refine ⟨copy, arena', ?_, hterm, ho', hle, hsame, hcopy, hd, ?_, ?_⟩
    · rw [if_pos hp]
      exact clone_eq hc
    · rw [← Tree.term_kind, hterm, Tree.term_kind]
      exact hk
    · rw [hid]
      exact .inr (Nat.le_refl _)
  · refine ⟨tree, session.arena, ?_, rfl, ho, Nat.le_refl _, fun _ _ => ⟨rfl, rfl⟩, ht, ?_, hk, .inl hbase.lt_size_id⟩
    · rw [if_neg hp]
      rfl
    · rw [hparent]
      exact Option.not_isSome_iff_eq_none.1 hp

/-- An operand is lowered to a detached tree of its term, or refused for the same reason as by value. -/
theorem lower_spec {session : Session} (model : Reference.Session) {base : Arena} (ho : session.arena.Owned)
    (he : base.Extends session.arena) {operand : Operand} {other : Reference.Operand} (h : SameOperand base operand other) :
    (∃ e, Recorder.lower operand session = .error e session ∧ Reference.lower other model = .error e model) ∨
      ∃ tree arena', Recorder.lower operand session = .ok tree.id { session with arena := arena' } ∧
        Reference.lower other model = .ok tree.term model ∧ Lowered base session.arena arena' tree := by
  cases h with
  | literal value => exact .inr ⟨_, _, rfl, rfl, lowered_alloc base ho rfl⟩
  | handle h =>
    cases h with
    | input input => exact .inr ⟨_, _, rfl, rfl, lowered_alloc base ho rfl⟩
    | @value value other h =>
      obtain ⟨type, form⟩ := value
      obtain ⟨type', form'⟩ := other
      obtain ⟨htype, hform⟩ := h
      obtain rfl : type = type' := htype
      cases hform with
      | unbound => exact .inl ⟨_, rfl, rfl⟩
      | bound symbol => exact .inr ⟨_, _, rfl, rfl, lowered_alloc base ho rfl⟩
      | member owner ownerType lane writable => exact .inr ⟨_, _, rfl, rfl, lowered_alloc base ho rfl⟩
      | pending hs =>
        obtain ⟨tree, arena', hl, rfl, hlow⟩ := lowered_pending ho he hs type
        exact .inr ⟨tree, arena', hl, rfl, hlow⟩

/-! ## A node over its operands -/

/-- A detached node that was not there at the time of `base`, with its children so far. -/
structure Built (base arena : Arena) (id : NodeId) (head : Head) (children : List Tree) : Prop where
  owned : arena.Owned
  extends_base : base.Extends arena
  fresh : base.size ≤ id.index
  holds : arena.Holds (.node id head children)
  detached : arena.parent? id = none

/-- A new node is built without children. -/
theorem built_alloc {arena : Arena} (ho : arena.Owned) (head : Head) :
    Built arena (arena.alloc head).2 ⟨arena.size⟩ head [] where
  owned := ho.alloc head
  extends_base := Arena.extends_alloc arena head
  fresh := Nat.le_refl _
  holds := Arena.holds_node.2 ⟨Arena.content?_alloc_self arena head, by simp⟩
  detached := (Arena.parent?_alloc arena head _).trans (Arena.parent?_size arena)

/-- What was not there at a time was not there before it. -/
theorem Built.rebase {base base' arena : Arena} {id : NodeId} {head : Head} {children : List Tree}
    (he : base.Extends base') (h : Built base' arena id head children) : Built base arena id head children :=
  ⟨h.owned, he.trans h.extends_base, Nat.le_trans he.size_le h.fresh, h.holds, h.detached⟩

/-- Lowering an operand leaves a node that is being built as it is, and gives another node. -/
theorem Built.lower {base arena arena' : Arena} {id : NodeId} {head : Head} {children : List Tree} {tree : Tree}
    (h : Built base arena id head children) (hl : Lowered base arena arena' tree) :
    Built base arena' id head children ∧ id ≠ tree.id := by
  have hlt : id.index < arena.size := h.holds.lt_size_id
  have hfresh := h.fresh
  refine ⟨⟨hl.owned, h.extends_base.trans hl.extends, hfresh, hl.extends.holds h.holds, ?_⟩, ?_⟩
  · exact (hl.same id hlt).2.trans h.detached
  · rintro rfl
    rcases hl.place with hp | hp <;> omega

/-- A detached tree becomes the last child of a node that is being built, if there is room for it. -/
theorem Built.attach {base arena : Arena} {id : NodeId} {head : Head} {children : List Tree} {tree : Tree}
    (h : Built base arena id head children) (ht : arena.Holds tree) (hd : arena.parent? tree.id = none)
    (hk : tree.kind.isBlock = false) (hne : id ≠ tree.id)
    (hroom : ∀ max, head.kind.arity.max = some max → children.length < max) :
    arena.checkAttach id tree.id = .ok () ∧ Built base (arena.link id tree.id) id head (children ++ [tree]) := by
  have hn : ¬Relation.ReflTransGen arena.Under id tree.id := by
    intro hab
    rcases hab.cases_head with he | ⟨p, hu, -⟩
    · exact hne he
    · rw [Arena.Under, h.detached] at hu
      cases hu
  have htlt : tree.id.index < arena.size := ht.lt_size_id
  obtain ⟨node, hnode, hhead, hchildren⟩ := Arena.get?_of_content? (Arena.holds_node.1 h.holds).1
  have hparent : node.parent = none := by
    have hdet := h.detached
    rw [Arena.parent?, hnode] at hdet
    exact hdet
  refine ⟨h.owned.checkAttach_eq_ok_iff.2 ⟨node, hnode, ?_, .inl hparent, htlt, hd, hn⟩, ?_⟩
  · intro max hmax
    rw [Node.kind, hhead] at hmax
    rw [hchildren, List.length_map]
    exact hroom max hmax
  · refine ⟨h.owned.link h.holds.lt_size_id htlt hd hn, ?_, h.fresh, h.owned.holds_link h.holds ht hn, ?_⟩
    · exact h.extends_base.link h.fresh htlt (ht.not_blockAt hk)
    · rw [Arena.parent?_link _ _ _ _ htlt, if_neg hne, h.detached]

/-- A detached tree stays one when another becomes a child of a node that is being built. -/
theorem Built.other {base arena : Arena} {id : NodeId} {head : Head} {children : List Tree} {tree other : Tree}
    (h : Built base arena id head children) (ht : arena.Holds tree) (ho : arena.Holds other)
    (hd : arena.parent? other.id = none) (hne : id ≠ other.id) (hne' : other.id ≠ tree.id) :
    (arena.link id tree.id).Holds other ∧ (arena.link id tree.id).parent? other.id = none := by
  refine ⟨ho.link _ (h.owned.not_mem_ids_of_detached ho h.detached hne.symm), ?_⟩
  rw [Arena.parent?_link _ _ _ _ ht.lt_size_id, if_neg hne', hd]

/-- Operands become the children of a node that is being built, or one is refused for the same reason as by value. -/
theorem attachOperands_spec {base : Arena} (model : Reference.Session) {id : NodeId} {head : Head} {operands : List Operand}
    {others : List Reference.Operand} (hs : List.Forall₂ (SameOperand base) operands others) :
    ∀ {session : Session} {children : List Tree}, Built base session.arena id head children →
      (∀ max, head.kind.arity.max = some max → children.length + operands.length ≤ max) →
      (∃ e arena', Recorder.attachOperands id operands session = .error e { session with arena := arena' } ∧
        Reference.lowerAll others model = .error e model ∧ arena'.Owned ∧ base.Extends arena') ∨
      ∃ trees arena', Recorder.attachOperands id operands session = .ok () { session with arena := arena' } ∧
        Reference.lowerAll others model = .ok (trees.map Tree.term) model ∧
        Built base arena' id head (children ++ trees) := by
  induction hs with
  | nil =>
    intro session children hb _
    exact .inr ⟨[], session.arena, rfl, rfl, by simpa using hb⟩
  | @cons operand other operands others hop hops ih =>
    intro session children hb hroom
    rcases lower_spec model hb.owned hb.extends_base hop with ⟨e, hl, hr⟩ | ⟨tree, arena', hl, hr, hlow⟩
    · refine .inl ⟨e, session.arena, ?_, bind_of_error hr, hb.owned, hb.extends_base⟩
      exact bind_of_error (bind_of_error hl)
    · obtain ⟨hb, hne⟩ := hb.lower hlow
      obtain ⟨hcheck, hb'⟩ := hb.attach hlow.holds hlow.detached hlow.plain hne fun max hmax => by
        have := hroom max hmax
        rw [List.length_cons] at this
        omega
      have hstep : Recorder.attachOperand id operand session =
          .ok () { session with arena := arena'.link id tree.id } := by
        refine (bind_of_ok hl).trans ?_
        exact attach_eq hcheck
      have hrest := @ih { session with arena := arena'.link id tree.id } (children ++ [tree]) hb' fun max hmax => by
        have := hroom max hmax
        rw [List.length_cons] at this
        rw [List.length_append, List.length_singleton]
        omega
      rcases hrest with ⟨e, arena'', hl', hr', ho, he⟩ | ⟨trees, arena'', hl', hr', hb''⟩
      · refine .inl ⟨e, arena'', (bind_of_ok hstep).trans hl', ?_, ho, he⟩
        exact (bind_of_ok hr).trans (bind_of_error hr')
      · refine .inr ⟨tree :: trees, arena'', (bind_of_ok hstep).trans hl', ?_, ?_⟩
        · exact (bind_of_ok hr).trans (bind_of_ok hr')
        · rw [← List.append_cons] at hb''
          exact hb''

end ShaderTrace.Refinement
