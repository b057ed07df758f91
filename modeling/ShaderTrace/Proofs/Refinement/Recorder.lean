import ShaderTrace.Proofs.Refinement.Building
import ShaderTrace.Proofs.Signatures

/-!
# The recorder refines recording by value

`Agree` compares an action on a session with an arena to one on a session without: they are refused for the same reason or
both succeed, and afterwards the sessions are at the same point again. Every operation of the recorder agrees with the
operation by value, whatever it was given, with one theorem an operation.
-/

namespace ShaderTrace.Refinement

/-- Both actions were refused for the same reason, or both succeeded with answers that `same` relates. -/
def Agree {α β : Type} (session : Session) (model : Reference.Session) (same : α → β → Arena → Prop) :
    EStateM.Result TraceError Session α → EStateM.Result TraceError Reference.Session β → Prop :=
  Together (fun a session' b model' => Related session' model' ∧ Later session model session' model' ∧ same a b session'.arena)
    fun e session' e' model' => e = e' ∧ Related session' model' ∧ Later session model session' model'

/-- Nothing is said about the answers. -/
def anyAnswers {α β : Type} : α → β → Arena → Prop := fun _ _ _ => True

/-- The answers are equal. -/
def sameAnswer {α : Type} : α → α → Arena → Prop := fun a b _ => a = b

/-- The answers are values that are equal but for the numbers of nodes. -/
def sameValue : Value → Reference.Value → Arena → Prop := fun value other arena => SameValue arena value other

/-- The answers are a symbol, and a value that is equal but for the numbers of nodes. -/
def sameSymbolAndValue : SymbolId × Value → SymbolId × Reference.Value → Arena → Prop := fun answer other arena =>
  answer.1 = other.1 ∧ SameValue arena answer.2 other.2

/-- The answers are pairs of values that are equal but for the numbers of nodes. -/
def sameValues : Value × Value → Reference.Value × Reference.Value → Arena → Prop := fun answer other arena =>
  SameValue arena answer.1 other.1 ∧ SameValue arena answer.2 other.2

namespace Agree

variable {α β γ δ : Type} {session : Session} {model : Reference.Session} {same : α → β → Arena → Prop}
  {same' : γ → δ → Arena → Prop}

/-- Both answer where they were begun. -/
theorem pure (h : Related session model) {a : α} {b : β} (hs : same a b session.arena) :
    Agree session model same (.ok a session) (.ok b model) :=
  ⟨h, Later.refl session model, hs⟩

/-- Both are refused where they were begun. -/
theorem error (h : Related session model) (e : TraceError) : Agree session model same (.error e session) (.error e model) :=
  ⟨rfl, h, Later.refl session model⟩

/-- What agrees at a later point agrees at an earlier one. -/
theorem later {session' : Session} {model' : Reference.Session} (hl : Later session model session' model')
    {x : EStateM.Result TraceError Session α} {y : EStateM.Result TraceError Reference.Session β}
    (h : Agree session' model' same x y) : Agree session model same x y :=
  Together.mono h (fun _ _ _ _ hok => ⟨hok.1, hl.trans hok.2.1, hok.2.2⟩)
    fun _ _ _ _ herror => ⟨herror.1, herror.2.1, hl.trans herror.2.2⟩

/-- Less may be said of the answers. -/
theorem mono {same₂ : α → β → Arena → Prop} (hs : ∀ a b arena, same a b arena → same₂ a b arena)
    {x : EStateM.Result TraceError Session α} {y : EStateM.Result TraceError Reference.Session β}
    (h : Agree session model same x y) : Agree session model same₂ x y :=
  Together.mono h (fun a s b _ hok => ⟨hok.1, hok.2.1, hs a b s.arena hok.2.2⟩) fun _ _ _ _ => id

/-- Actions agree in a row if the first two agree and the rest agrees wherever they end. -/
theorem bind {x : Recorder α} {y : Reference.Recorder β} {f : α → Recorder γ} {g : β → Reference.Recorder δ}
    {s : Session} {m : Reference.Session} (h : Agree session model same (x s) (y m))
    (hf : ∀ a b session' model', Related session' model' → Later session model session' model' →
      same a b session'.arena → Agree session' model' same' (f a session') (g b model')) :
    Agree session model same' ((x >>= f) s) ((y >>= g) m) := by
  refine Together.bind h (fun _ _ _ _ => id) ?_
  rintro a session' b model' ⟨hrelated, hlater, hsame⟩
  exact (hf a b session' model' hrelated hlater hsame).later hlater

/-- Both look at their innermost open block first. -/
theorem current {f : OpenBlock → Recorder α} {g : Reference.Block → Reference.Recorder β}
    (h : Agree session model same (f session.current session) (g model.current model)) :
    Agree session model same ((Recorder.current >>= f) session) ((Reference.current >>= g) model) := h

/-- Both look at their session first. -/
theorem get {f : Session → Recorder α} {g : Reference.Session → Reference.Recorder β}
    (h : Agree session model same (f session session) (g model model)) :
    Agree session model same ((MonadState.get >>= f) session) ((MonadState.get >>= g) model) := h

/-- An action of one side alone. -/
theorem left {x : Recorder γ} {f : γ → Recorder α} {c : γ} {s s' : Session}
    {y : EStateM.Result TraceError Reference.Session β} (hx : x s = .ok c s')
    (h : Agree session model same (f c s') y) : Agree session model same ((x >>= f) s) y := by
  rw [bind_of_ok hx]
  exact h

/-- A condition that refuses both, or neither. -/
theorem guard {c c' : Prop} [Decidable c] [Decidable c'] (hc : c ↔ c') {e e' : TraceError} (he : e = e')
    (h : Related session model) {f : Unit → Recorder α} {g : Unit → Reference.Recorder β} {x : Recorder α}
    {y : Reference.Recorder β} (hxy : ¬c → Agree session model same (x session) (y model)) :
    Agree session model same ((if c then throw e >>= f else x) session) ((if c' then throw e' >>= g else y) model) :=
  Together.guard hc (fun _ => ⟨he, h, Later.refl session model⟩) hxy

/-- A check that refuses both, or neither. -/
theorem check {c c' : Prop} [Decidable c] [Decidable c'] (hc : c ↔ c') {e e' : TraceError} (he : e = e')
    (h : Related session model) :
    Agree session model (fun (_ _ : Unit) _ => ¬c) ((if c then throw e else (Pure.pure () : Recorder Unit)) session)
      ((if c' then throw e' else (Pure.pure () : Reference.Recorder Unit)) model) :=
  Together.check hc (fun _ => ⟨he, h, Later.refl session model⟩) fun hcase => ⟨h, Later.refl session model, hcase⟩

/-- The answer on one side may be turned into another one. -/
theorem mapLeft {k : α → γ} {same' : γ → β → Arena → Prop} {x : Recorder α}
    {s : Session} {y : EStateM.Result TraceError Reference.Session β} (h : Agree session model same (x s) y)
    (hk : ∀ a b arena, same a b arena → same' (k a) b arena) :
    Agree session model same' ((x >>= fun a => Pure.pure (k a)) s) y := by
  cases hx : x s with
  | ok a s =>
    rw [bind_of_ok hx]
    rw [hx] at h
    cases y with
    | ok b m => exact ⟨h.1, h.2.1, hk _ _ _ h.2.2⟩
    | error e m => exact h
  | error e s =>
    rw [bind_of_error hx]
    rw [hx] at h
    cases y with
    | ok b m => exact h
    | error e' m => exact h

end Agree

section Operations

variable {session : Session} {model : Reference.Session}

/-- The innermost blocks are of the same kind. -/
theorem Related.kind (h : Related session model) : session.current.kind = model.current.kind := by
  obtain ⟨frame, frames, h⟩ := h
  rw [h.current, h.modelCurrent]
  rfl

/-! ## Blocks -/

/-- Statements are accepted at the same places. -/
theorem checkStatements_agree (h : Related session model) :
    Agree session model (fun _ _ _ => session.current.kind.acceptsStatements = true)
      (Recorder.checkStatements session) (Reference.checkStatements model) := by
  unfold Recorder.checkStatements Reference.checkStatements
  refine Agree.current ((Agree.check ?_ ?_ h).mono ?_)
  · rw [h.kind]
  · rw [h.kind]
  · intro _ _ _ hc
    simpa using hc

/-- Statements are accepted where the kind of the innermost block says so. -/
theorem checkStatements_eq (session : Session) :
    Recorder.checkStatements session = if session.current.kind.acceptsStatements then .ok () session
      else .error (.misplacedStatement session.current.kind) session := by
  show (if (!session.current.kind.acceptsStatements) = true then throw _ else Pure.pure () : Recorder Unit) session = _
  cases session.current.kind.acceptsStatements <;> rfl

/-- The next symbol is the same. -/
theorem nextSymbol_agree (h : Related session model) :
    Agree session model sameAnswer (Recorder.nextSymbol session) (Reference.nextSymbol model) := by
  obtain ⟨frame, frames, h⟩ := h
  have hs : session.symbolCount = model.symbolCount := h.symbolCount
  refine ⟨⟨frame, frames, { h with symbolCount := ?_ }⟩, ⟨fun _ ht _ => ht, fun _ _ hsaved => hsaved⟩, ?_⟩
  · exact congrArg (· + 1) hs
  · exact congrArg SymbolId.mk hs

/-- To exit goes back to the block around the innermost one. -/
theorem exit_eq (session : Session) : Recorder.exit session = match session.outer with
    | [] => .error .unbalancedExit session
    | block :: outer => .ok session.current.id { session with current := block, outer } := by
  obtain ⟨arena, current, outer, symbolCount, names⟩ := session
  cases outer <;> rfl

/-- To exit is the same, though the term of the block is added to its parent only then. -/
theorem exit_agree (h : Related session model) :
    Agree session model anyAnswers (Recorder.exit session) (Reference.exit model) := by
  obtain ⟨frame, frames, h⟩ := h
  rw [exit_eq, Reference.exit_eq, h.outer, h.modelOuter]
  cases frames with
  | nil => exact Agree.error ⟨frame, [], h⟩ _
  | cons parent frames =>
    have hp := h.pop
    rw [← h.modelCurrent] at hp
    refine ⟨⟨_, _, hp⟩, ⟨fun _ ht _ => ht, ?_⟩, trivial⟩
    rintro id number ⟨hid, hn, hf⟩
    refine ⟨hid, hn, ?_⟩
    rw [h.outer, h.modelOuter] at hf
    obtain ⟨hhd, htl⟩ := List.forall₂_cons.1 (List.forall₂_cons.1 hf).2
    exact .cons hhd htl

/-- A block is closed if it is the innermost one, by its node as well as by its number. -/
theorem leave_agree (h : Related session model) {block : OpenBlock} {other : Reference.Block}
    (hs : Saved session model block.id other.number) (hk : block.kind = other.kind) :
    Agree session model anyAnswers (Recorder.leave block session) (Reference.leave other model) := by
  have hsame : session.current.id ≠ block.id ↔ model.current.number ≠ other.number :=
    not_congr (List.forall₂_cons.1 hs.2.2).1
  unfold Recorder.leave Reference.leave
  refine Agree.current (Agree.guard hsame ?_ h fun _ => ?_)
  · rw [h.kind, hk]
  · exact (exit_agree h).mapLeft fun _ _ _ _ => trivial

/-- A node that has been built is not open. -/
theorem Built.not_open {arena : Arena} {id : NodeId} {head : Head} {children : List Tree}
    (hb : Built session.arena arena id head children) {frame : Frame} {frames : List Frame}
    (h : Matches session model frame frames) : ∀ f ∈ frame :: frames, f.id ≠ id := by
  rintro f hf rfl
  exact absurd (h.blockAt hf).lt_size (Nat.not_lt.2 hb.fresh)

/-- A block that has been built becomes the innermost open one. -/
theorem openBlock_agree (h : Related session model) {arena : Arena} {id : NodeId} {head : Head} {header : List Tree}
    (hb : Built session.arena arena id head header) (hk : head.kind.isBlock = true) :
    Agree session model anyAnswers (Recorder.openBlock ⟨id, head.kind⟩ { session with arena })
      (Reference.openBlock head (header.map Tree.term) model) := by
  obtain ⟨frame, frames, h⟩ := h
  obtain ⟨h', hl⟩ := h.extend hb.extends_base hb.owned
  have hnot : ∀ f ∈ frame :: frames, f.id ≠ (Tree.node id head header).id := hb.not_open h
  obtain ⟨hcheck, -, -, -, hkeeps⟩ := h'.linked hb.holds hb.detached hnot
  have hpush := h'.push hb.holds hb.detached hnot hk
  have hopen : Recorder.openBlock ⟨id, head.kind⟩ { session with arena } =
      .ok () { session with
        arena := arena.link frame.id id
        current := ⟨id, head.kind⟩
        outer := session.current :: session.outer } := by
    have hatt : Recorder.attach session.current.id id { session with arena } =
        .ok () { session with arena := arena.link frame.id id } := by
      rw [h.current]
      exact attach_eq hcheck
    exact bind_of_ok hatt
  rw [hopen]
  refine ⟨⟨_, _, hpush⟩, ⟨?_, ?_⟩, trivial⟩
  · intro tree ht hkind
    exact hkeeps tree (hl.keeps tree ht hkind) hkind
  · rintro id' number ⟨hid, hn, hf⟩
    have hle := hb.extends_base.size_le
    have hfresh := hb.fresh
    refine ⟨?_, Nat.lt_succ_of_lt hn, .cons ?_ hf⟩
    · simpa using Nat.lt_of_lt_of_le hid hle
    · constructor
      · intro he
        rw [← he] at hid
        exact absurd hid (Nat.not_lt.2 hfresh)
      · intro he
        exact absurd he (Nat.ne_of_gt hn)

/-- A node that has been built becomes the last child of the innermost open block. -/
theorem attach_agree (h : Related session model) {arena : Arena} {id : NodeId} {head : Head} {children : List Tree}
    (hb : Built session.arena arena id head children) :
    Agree session model anyAnswers (Recorder.attach session.current.id id { session with arena })
      (Reference.attach (.node head (children.map Tree.term)) model) := by
  obtain ⟨frame, frames, h⟩ := h
  obtain ⟨h', hl⟩ := h.extend hb.extends_base hb.owned
  have hnot : ∀ f ∈ frame :: frames, f.id ≠ (Tree.node id head children).id := hb.not_open h
  obtain ⟨hcheck, -⟩ := h'.linked hb.holds hb.detached hnot
  obtain ⟨happ, hl'⟩ := h'.append hb.holds hb.detached hnot
  have hatt : Recorder.attach session.current.id id { session with arena } =
      .ok () { session with arena := arena.link frame.id id } := by
    rw [h.current]
    exact attach_eq hcheck
  rw [hatt]
  rw [Tree.term_node] at happ hl'
  exact ⟨⟨_, _, happ⟩, hl.trans hl', trivial⟩

/-- The kinds of the sections of a program are read off its tree. -/
theorem childKinds_eq (h : Related session model) :
    Recorder.childKinds Session.root session = .ok (model.tree.children.map Term.kind) session := by
  obtain ⟨frame, frames, h⟩ := h
  have hroot := h.root
  obtain ⟨node, hnode, -, hchildren⟩ := Arena.get?_of_content? h.holds.content
  rw [hroot] at hnode
  have hkinds : ∀ trees : List Tree, (∀ tree ∈ trees, session.arena.Holds tree) →
      ((trees.map Tree.id).mapM fun child => do return (← Recorder.find child).kind : Recorder (List NodeKind)) session =
        .ok (trees.map Tree.kind) session := by
    intro trees
    induction trees with
    | nil => intro _; rfl
    | cons tree trees ih =>
      intro ht
      obtain ⟨child, hchild, hhead, -⟩ := Arena.get?_of_content? (ht tree (by simp)).content
      rw [List.map_cons, List.mapM_cons]
      have hfirst : (do return (← Recorder.find tree.id).kind : Recorder NodeKind) session = .ok tree.kind session := by
        refine (bind_of_ok (find_eq hchild)).trans ?_
        rw [Node.kind, hhead]
        rfl
      refine (bind_of_ok hfirst).trans ((bind_of_ok (ih fun t hm => ht t (by simp [hm]))).trans ?_)
      rfl
  have hchild : ∀ tree ∈ (plug frame frames).children, session.arena.Holds tree := fun tree hm => h.holds.child hm
  refine (bind_of_ok (find_eq hnode)).trans ?_
  rw [hchildren, hkinds _ hchild, ← h.term_eq, Tree.term_children, List.map_map]
  congr 2
  funext tree
  exact (Tree.term_kind tree).symm

/-- Sections are accepted at the same places. -/
theorem checkSection_agree (kind : NodeKind) (h : Related session model) :
    Agree session model anyAnswers (Recorder.checkSection kind session) (Reference.checkSection kind model) := by
  unfold Recorder.checkSection Reference.checkSection
  refine Agree.current (Agree.guard ?_ ?_ h fun _ => ?_)
  · rw [h.kind]
  · rw [h.kind]
  · refine Agree.left (childKinds_eq h) ?_
    exact (Agree.check Iff.rfl rfl h).mono fun _ _ _ _ => trivial

/-- To open a section is the same. -/
theorem enter_agree (kind : NodeKind) (h : Related session model) :
    Agree session model anyAnswers (Recorder.enter kind session) (Reference.enter kind model) := by
  have hopen : ∀ {s : Session} {m : Reference.Session}, kind.isBlock = true → Related s m →
      Agree s m (anyAnswers : NodeId → Unit → Arena → Prop)
        ((do let id ← Recorder.alloc { kind, type := .void }; Recorder.openBlock ⟨id, kind⟩; return id) s)
        (Reference.openBlock { kind, type := .void } [] m) := by
    intro s m hk h
    obtain ⟨frame, frames, hm⟩ := id h
    have ho := openBlock_agree h (built_alloc hm.owned { kind, type := .void }) hk
    exact Agree.left (alloc_eq s _) (ho.mapLeft fun _ _ _ _ => trivial)
  have hsection : kind = .constData ∨ kind = .outData ∨ kind = .main →
      Agree session model anyAnswers (Recorder.enter kind session) (Reference.enter kind model) := by
    rintro (rfl | rfl | rfl) <;>
      exact (checkSection_agree _ h).bind fun _ _ _ _ h' _ _ => hopen rfl h'
  cases kind with
  | constData => exact hsection (by simp)
  | outData => exact hsection (by simp)
  | main => exact hsection (by simp)
  | block => exact (checkStatements_agree h).bind fun _ _ _ _ h' _ _ => hopen rfl h'
  | _ => exact Agree.error h _

/-! ## Expressions -/

/-- The same indices are accepted. -/
theorem checkIndices_agree (h : Related session model) {arena : Arena} {operands : List Operand}
    {others : List Reference.Operand} (hs : List.Forall₂ (SameOperand arena) operands others) :
    Agree session model anyAnswers (Recorder.checkIndices operands session) (Reference.checkIndices others model) := by
  induction hs with
  | nil => exact Agree.pure h trivial
  | cons hop _ ih =>
    cases hop with
    | handle => exact ih
    | literal value =>
      cases value with
      | int index => exact Agree.guard Iff.rfl rfl h fun _ => ih
      | bool | uint | float => exact ih

/-- The same operands are accepted. -/
theorem checkOperands_agree (operator : Operator) (h : Related session model) {arena : Arena} {operands : List Operand}
    {others : List Reference.Operand} (hs : List.Forall₂ (SameOperand arena) operands others) :
    Agree session model anyAnswers (Recorder.checkOperands operator operands session)
      (Reference.checkOperands operator others model) := by
  cases operator with
  | sample1d => exact checkIndices_agree h (List.forall₂_drop 1 hs)
  | sample2d => exact checkIndices_agree h (List.forall₂_drop 1 hs)
  | _ => exact Agree.pure h trivial

/-- Operands that stand for the same values have the same types. -/
theorem map_type_eq {arena : Arena} {operands : List Operand} {others : List Reference.Operand}
    (hs : List.Forall₂ (SameOperand arena) operands others) :
    operands.map Operand.type = others.map Reference.Operand.type := by
  induction hs with
  | nil => rfl
  | cons hop _ ih => rw [List.map_cons, List.map_cons, hop.type, ih]

/-- The type of an operation is the same. -/
theorem type?_eq (operator : Operator) {arena : Arena} {operands : List Operand} {others : List Reference.Operand}
    (hs : List.Forall₂ (SameOperand arena) operands others) :
    operator.type? operands = Reference.type? operator others := by
  have haccepts : operator.accepts operands = Reference.accepts operator others := by
    cases operator with
    | sample1d | sample2d =>
      cases hs with
      | nil => rfl
      | cons hop _ =>
        cases hop with
        | literal => rfl
        | handle h => cases h <;> rfl
    | _ => rfl
  rw [Operator.type?, Reference.type?, haccepts, map_type_eq hs]

/-- The children of an operation are the same. -/
theorem childrenOf_same (operator : Operator) {arena : Arena} {operands : List Operand} {others : List Reference.Operand}
    (hs : List.Forall₂ (SameOperand arena) operands others) :
    List.Forall₂ (SameOperand arena) (Recorder.childrenOf operator operands) (Reference.childrenOf operator others) := by
  cases operator with
  | call builtin => exact .cons (.literal _) hs
  | _ => exact hs

/-- An operation has no more operands than its node has room for. -/
theorem length_childrenOf_le {operator : Operator} {operands : List Operand} {type : ValueType}
    (h : operator.type? operands = some type) :
    ∀ max, operator.kind.arity.max = some max → (Recorder.childrenOf operator operands).length ≤ max := by
  intro max hmax
  rw [Operator.type?] at h
  split_ifs at h
  have hl := Operator.length_of_result? h
  rw [List.length_map] at hl
  cases operator with
  | unary op => cases op <;> cases hmax <;> exact Nat.le_of_eq hl
  | binary op => cases op <;> cases hmax <;> exact Nat.le_of_eq hl
  | call builtin =>
    have harity : builtin.arity ≤ 3 := by cases builtin <;> decide
    cases hmax
    simp only [Recorder.childrenOf, List.length_cons, Operator.operandCount] at hl ⊢
    omega
  | construct vector =>
    have hlanes := vector.lanes_le_four
    cases hmax
    exact Nat.le_trans (Nat.le_of_eq hl) hlanes
  | _ => cases hmax; exact Nat.le_of_eq hl

/-- A node is built over its operands, or one of them is refused; then the node stays behind, and nothing refers to it. -/
theorem built_agree {α β : Type} {same : α → β → Arena → Prop} (h : Related session model) {head : Head}
    {operands : List Operand} {others : List Reference.Operand}
    (hs : List.Forall₂ (SameOperand session.arena) operands others)
    (hroom : ∀ max, head.kind.arity.max = some max → operands.length ≤ max) {f : NodeId → Recorder α}
    {g : List Term → Reference.Recorder β}
    (hfg : ∀ id arena trees, Built session.arena arena id head trees →
      Agree session model same (f id { session with arena }) (g (trees.map Tree.term) model)) :
    Agree session model same
      ((do let id ← Recorder.alloc head; Recorder.attachOperands id operands; f id) session)
      ((Reference.lowerAll others >>= g) model) := by
  obtain ⟨frame, frames, hm⟩ := h
  have hb := built_alloc hm.owned head
  refine Agree.left (alloc_eq session head) ?_
  rcases @attachOperands_spec _ model _ _ _ _ hs { session with arena := (session.arena.alloc head).2 } [] hb
    (by simpa using hroom) with ⟨e, arena', hl, hr, ho, he⟩ | ⟨trees, arena', hl, hr, hb'⟩
  · obtain ⟨hm', hlater⟩ := hm.extend he ho
    rw [bind_of_error hl, bind_of_error hr]
    exact ⟨rfl, ⟨frame, frames, hm'⟩, hlater⟩
  · rw [bind_of_ok hl, bind_of_ok hr]
    exact hfg _ arena' trees hb'

/-- To build a node from operands is to build its term. -/
theorem build_agree (h : Related session model) (kind : NodeKind) (type : ValueType) {operands : List Operand}
    {others : List Reference.Operand} (hk : kind.isBlock = false)
    (hs : List.Forall₂ (SameOperand session.arena) operands others)
    (hroom : ∀ max, kind.arity.max = some max → operands.length ≤ max) :
    Agree session model sameValue (Recorder.build kind type operands session)
      (Reference.build kind type others model) := by
  refine built_agree h hs hroom fun id arena trees hb => ?_
  obtain ⟨frame, frames, hm⟩ := h
  obtain ⟨hm', hlater⟩ := hm.extend hb.extends_base hb.owned
  exact ⟨⟨frame, frames, hm'⟩, hlater, rfl, .pending ⟨_, hb.holds, rfl, Tree.term_node _ _ _, hk⟩⟩

/-- To express an operation is the same. -/
theorem express_agree (operator : Operator) (h : Related session model) {operands : List Operand}
    {others : List Reference.Operand} (hs : List.Forall₂ (SameOperand session.arena) operands others) :
    Agree session model sameValue (Recorder.express operator operands session)
      (Reference.express operator others model) := by
  unfold Recorder.express Reference.express
  rw [← type?_eq operator hs]
  cases ht : operator.type? operands with
  | none => exact Agree.error h _
  | some type =>
    refine (checkOperands_agree operator h hs).bind fun _ _ session' model' h' hl _ => ?_
    have hs' : List.Forall₂ (SameOperand session'.arena) operands others := hs.imp fun _ _ hop => hop.keep hl.keeps
    exact build_agree h' operator.kind type operator.isBlock_kind (childrenOf_same operator hs')
      (length_childrenOf_le ht)

/-! ## Declarations and assignments -/

/-- To lower an operand gives a tree here and its term there, with which the two go on. -/
theorem lowered_agree {α β : Type} {same : α → β → Arena → Prop} (h : Related session model) {operand : Operand}
    {other : Reference.Operand} (hs : SameOperand session.arena operand other) {f : NodeId → Recorder α}
    {g : Term → Reference.Recorder β}
    (hfg : ∀ tree arena, Lowered session.arena session.arena arena tree →
      Agree session model same (f tree.id { session with arena }) (g tree.term model)) :
    Agree session model same ((Recorder.lower operand >>= f) session) ((Reference.lower other >>= g) model) := by
  obtain ⟨frame, frames, hm⟩ := id h
  rcases lower_spec model hm.owned (Arena.Extends.refl _) hs with ⟨e, hl, hr⟩ | ⟨tree, arena, hl, hr, hlow⟩
  · rw [bind_of_error hl, bind_of_error hr]
    exact Agree.error h e
  · rw [bind_of_ok hl, bind_of_ok hr]
    exact hfg tree arena hlow

/-- To append a node that was built is to append its term. -/
theorem append_agree (h : Related session model) {arena : Arena} {id : NodeId} {head : Head} {children : List Tree}
    (hb : Built session.arena arena id head children) :
    Agree session model anyAnswers (Recorder.append id { session with arena })
      (Reference.append (.node head (children.map Tree.term)) model) := by
  have hcheck := checkStatements_eq { session with arena }
  have hcheck' := Reference.checkStatements_eq model
  rw [← h.kind] at hcheck'
  cases ha : session.current.kind.acceptsStatements with
  | true =>
    rw [ha] at hcheck'
    rw [show Recorder.append id { session with arena } = _ from bind_of_ok (hcheck.trans (by rw [ha]; rfl)),
      show Reference.append _ model = _ from bind_of_ok hcheck']
    exact attach_agree h hb
  | false =>
    rw [ha] at hcheck'
    rw [show Recorder.append id { session with arena } = _ from bind_of_error (hcheck.trans (by rw [ha]; rfl)),
      show Reference.append _ model = _ from bind_of_error hcheck']
    obtain ⟨frame, frames, hm⟩ := h
    obtain ⟨hm', hl⟩ := hm.extend hb.extends_base hb.owned
    exact ⟨rfl, ⟨frame, frames, hm'⟩, hl⟩

/-- An assignment is built from its lowered value and a new node for its target. -/
theorem assignment_agree (h : Related session model) {arena : Arena} {right : Tree}
    (hr : Lowered session.arena session.arena arena right) {left : Head} (hk : left.kind.isBlock = false)
    (type : ValueType) {value : Value} {other : Reference.Value} (hs : SameValue session.arena value other) :
    Agree session model sameValue
      ((do
        let node ← Recorder.alloc { kind := .assignment, type }
        Recorder.attach node ⟨arena.size⟩
        Recorder.attach node right.id
        Recorder.append node
        return value) { session with arena := (arena.alloc left).2 })
      ((do
        Reference.append (.node { kind := .assignment, type } [.node left [], right.term])
        return other) model) := by
  have hleft := lowered_alloc session.arena hr.owned hk
  have hb : Built session.arena _ _ _ _ := (built_alloc hleft.owned { kind := .assignment, type }).rebase
    (hr.extends.trans (Arena.extends_alloc arena left))
  have hroom : ∀ {n : Nat}, n < 2 → ∀ max, NodeKind.assignment.arity.max = some max → n < max := by
    rintro n hn max ⟨⟩
    exact hn
  have hrlt : right.id.index < arena.size := hr.holds.lt_size_id
  have hne : right.id ≠ ⟨arena.size⟩ := by
    intro he
    rw [he] at hrlt
    exact Nat.lt_irrefl _ hrlt
  have hne' : (⟨(arena.alloc left).2.size⟩ : NodeId) ≠ right.id := by
    intro he
    rw [← he, Arena.size_alloc] at hrlt
    exact absurd hrlt (by simp)
  -- the target is attached first, and the value stays detached meanwhile
  have hl := (Arena.extends_alloc _ { kind := .assignment, type }).holds hleft.holds
  have hr' := ((Arena.extends_alloc arena left).trans (Arena.extends_alloc _ { kind := .assignment, type })).holds hr.holds
  obtain ⟨hcheck, hb₁⟩ := hb.attach hl ((Arena.parent?_alloc _ _ _).trans hleft.detached) hk (by simp [Tree.id])
    (hroom Nat.zero_lt_two)
  obtain ⟨hr₁, hd₁⟩ := hb.other hl hr' (by rw [Arena.parent?_alloc, Arena.parent?_alloc, hr.detached]) hne' hne
  obtain ⟨hcheck', hb₂⟩ := hb₁.attach hr₁ hd₁ hr.plain hne' (hroom Nat.one_lt_two)
  have happ := append_agree h hb₂
  simp only [List.nil_append, List.cons_append, List.map_cons, List.map_nil, Tree.term_node] at happ
  refine Agree.left (alloc_eq _ _) (Agree.left (attach_eq hcheck) (Agree.left (attach_eq hcheck') ?_))
  exact happ.bind fun _ _ _ _ h' hl _ => Agree.pure h' (hs.keep hl.keeps)

/-- The same targets are accepted. -/
theorem checkWritable_agree (h : Related session model) {arena : Arena} {target : Value} {other : Reference.Value}
    (hs : SameValue arena target other) :
    Agree session model anyAnswers (Recorder.checkWritable target session) (Reference.checkWritable other model) := by
  obtain ⟨type, form⟩ := target
  obtain ⟨type', form'⟩ := other
  obtain ⟨-, hform⟩ := hs
  cases hform with
  | member owner ownerType lane writable =>
    cases writable with
    | true => exact Agree.pure h trivial
    | false => exact Agree.error h _
  | _ => exact Agree.pure h trivial

/-- To assign is the same. -/
theorem assign_agree (h : Related session model) {target : Value} {targetOther : Reference.Value} {value : Operand}
    {other : Reference.Operand} (ht : SameValue session.arena target targetOther)
    (hv : SameOperand session.arena value other) :
    Agree session model sameValue (Recorder.assign target value session) (Reference.assign targetOther other model) := by
  unfold Recorder.assign Reference.assign
  refine Agree.guard (by rw [ht.type, hv.type]) rfl h fun _ => ?_
  refine (checkStatements_agree h).bind fun _ _ s₁ m₁ h₁ hl₁ _ => ?_
  refine (checkWritable_agree h₁ (ht.keep hl₁.keeps)).bind fun _ _ s₂ m₂ h₂ hl₂ _ => ?_
  have hv := (hv.keep hl₁.keeps).keep hl₂.keeps
  have ht := (ht.keep hl₁.keeps).keep hl₂.keeps
  refine lowered_agree h₂ hv fun right arena hr => ?_
  obtain ⟨type, form⟩ := target
  obtain ⟨type', form'⟩ := targetOther
  obtain ⟨htype, hform⟩ := ht
  obtain rfl : type = type' := htype
  -- a target without a symbol gets the next one
  have hfresh : Agree s₂ m₂ sameValue
      ((do
        let node ← Recorder.alloc { kind := .assignment, type }
        Recorder.attach node ⟨arena.size⟩
        Recorder.attach node right.id
        Recorder.append node
        return (⟨type, .bound ⟨s₂.symbolCount⟩⟩ : Value))
        { s₂ with
          arena := (arena.alloc (.ofSymbol .var type ⟨s₂.symbolCount⟩)).2
          symbolCount := s₂.symbolCount + 1 })
      ((do
        Reference.append (.node { kind := .assignment, type }
          [.node (.ofSymbol .var type ⟨m₂.symbolCount⟩) [], right.term])
        return (⟨type, .bound ⟨m₂.symbolCount⟩⟩ : Reference.Value)) { m₂ with symbolCount := m₂.symbolCount + 1 }) := by
    obtain ⟨h₃, hl₃, hsym⟩ := nextSymbol_agree h₂
    have hsym : s₂.symbolCount = m₂.symbolCount := congrArg SymbolId.index hsym
    rw [← hsym] at h₃ hl₃ ⊢
    exact (assignment_agree h₃ hr rfl type ⟨rfl, .bound _⟩).later hl₃
  cases hform with
  | unbound => exact hfresh
  | pending => exact hfresh
  | bound symbol => exact assignment_agree h₂ hr rfl type ⟨rfl, .bound symbol⟩
  | member owner ownerType lane writable =>
    exact assignment_agree h₂ hr rfl type ⟨rfl, .member owner ownerType lane writable⟩

/-- To make a variable is the same. -/
theorem var_agree (h : Related session model) {value : Operand} {other : Reference.Operand}
    (hv : SameOperand session.arena value other) :
    Agree session model sameValue (Recorder.var value session) (Reference.var other model) :=
  assign_agree h ⟨hv.type, .unbound⟩ hv

/-- To update is the same. -/
theorem update_agree (how : Update) (h : Related session model) {target : Value} {targetOther : Reference.Value}
    {value : Operand} {other : Reference.Operand} (ht : SameValue session.arena target targetOther)
    (hv : SameOperand session.arena value other) :
    Agree session model sameValue (Recorder.update how target value session)
      (Reference.update how targetOther other model) := by
  unfold Recorder.update Reference.update
  refine Agree.guard (by rw [ht.type, hv.type]) rfl h fun _ => ?_
  have hs : List.Forall₂ (SameOperand session.arena) [.ofValue target, value] [.ofValue targetOther, other] :=
    .cons (.handle (.value ht)) (.cons hv .nil)
  refine (express_agree (.binary how.op) h hs).bind fun _ _ _ _ h' hl hr => ?_
  exact assign_agree h' (ht.keep hl.keeps) (.handle (.value hr))

/-- Values that are the same have the same symbol. -/
theorem SameValue.symbol? {arena : Arena} {value : Value} {other : Reference.Value} (h : SameValue arena value other) :
    value.symbol? = other.symbol? := by
  obtain ⟨type, form⟩ := value
  obtain ⟨type', form'⟩ := other
  obtain ⟨-, hform⟩ := h
  cases hform <;> rfl

/-- To give a value a symbol is the same. -/
theorem materialize_agree (h : Related session model) {value : Value} {other : Reference.Value}
    (hs : SameValue session.arena value other) :
    Agree session model sameSymbolAndValue (Recorder.materialize value session) (Reference.materialize other model) := by
  obtain ⟨type, form⟩ := value
  obtain ⟨type', form'⟩ := other
  obtain ⟨htype, hform⟩ := id hs
  obtain rfl : type = type' := htype
  cases hform with
  | bound symbol => exact Agree.pure h ⟨rfl, hs⟩
  | unbound =>
    refine (nextSymbol_agree h).bind fun symbol symbol' s m h' _ hsym => Agree.pure h' ?_
    cases hsym
    exact ⟨rfl, rfl, .bound symbol⟩
  | pending =>
    refine (assign_agree h hs (.handle (.value hs))).bind fun bound bound' s m h' _ hb => ?_
    rw [← hb.symbol?]
    cases bound.symbol? with
    | some symbol => exact Agree.pure h' ⟨rfl, hb⟩
    | none => exact Agree.error h' _
  | member => exact Agree.error h _

/-- To take a lane is the same. -/
theorem lane_agree (lane : Lane) (h : Related session model) {owner : Value} {other : Reference.Value}
    (hs : SameValue session.arena owner other) :
    Agree session model sameValues (Recorder.lane owner lane session) (Reference.lane other lane model) := by
  unfold Recorder.lane Reference.lane
  rw [← hs.type]
  cases owner.type.lane? with
  | none => exact Agree.error h _
  | some type =>
    refine Agree.guard Iff.rfl rfl h fun _ => Agree.guard Iff.rfl rfl h fun _ => ?_
    refine (materialize_agree h hs).bind fun answer answer' s m h' _ hr => ?_
    obtain ⟨symbol, owner⟩ := answer
    obtain ⟨symbol', owner'⟩ := answer'
    obtain ⟨rfl, ho⟩ := hr
    refine Agree.pure h' ⟨⟨rfl, ?_⟩, ho⟩
    rw [ho.type]
    exact .member symbol _ lane true

/-- To take a component is the same. -/
theorem component_agree (lane : Lane) (h : Related session model) {owner : Value} {other : Reference.Value}
    (hs : SameValue session.arena owner other) :
    Agree session model sameValues (Recorder.component owner lane session) (Reference.component other lane model) := by
  unfold Recorder.component Reference.component
  exact Agree.guard (by rw [hs.type]) rfl h fun _ => lane_agree lane h hs

/-- To sample at a coordinate is the same. -/
theorem sampleAt_agree (buffer : Input) (h : Related session model) {coordinate : Value} {other : Reference.Value}
    (hs : SameValue session.arena coordinate other) :
    Agree session model sameValue (Recorder.sampleAt buffer coordinate session)
      (Reference.sampleAt buffer other model) := by
  unfold Recorder.sampleAt Reference.sampleAt
  refine Agree.guard (by rw [hs.type]) rfl h fun _ => ?_
  refine (lane_agree .x h hs).bind fun answer answer' s₁ m₁ h₁ _ hr => ?_
  obtain ⟨hx, hc⟩ := hr
  refine (lane_agree .y h₁ hc).bind fun answer₂ answer₂' s₂ m₂ h₂ hl₂ hr₂ => ?_
  exact express_agree .sample2d h₂
    (.cons (.handle (.input buffer)) (.cons (.handle (.value (hx.keep hl₂.keeps))) (.cons (.handle (.value hr₂.1)) .nil)))

/-- To declare is the same. -/
theorem declare_agree (kind sectionKind : NodeKind) (type : ValueType) (name : String) (h : Related session model) :
    Agree session model sameAnswer (Recorder.declare kind sectionKind type name session)
      (Reference.declare kind sectionKind type name model) := by
  obtain ⟨frame, frames, hm⟩ := id h
  unfold Recorder.declare Reference.declare
  refine Agree.current (Agree.guard (by rw [h.kind]) (by rw [h.kind]) h fun _ => ?_)
  refine Agree.guard Iff.rfl rfl h fun _ => Agree.get (Agree.guard (by rw [hm.names]) rfl h fun _ => ?_)
  obtain ⟨arena, current, outer, count, names⟩ := session
  obtain ⟨current', outer', count', names', opened⟩ := model
  obtain rfl : count = count' := hm.symbolCount
  obtain rfl : names = names' := hm.names
  -- the name is taken and the symbol given out before the node is there
  have hgiven : Related ⟨arena, current, outer, count + 1, names ++ [name]⟩
      ⟨current', outer', count + 1, names ++ [name], opened⟩ :=
    ⟨frame, frames, { hm with symbolCount := rfl, names := rfl }⟩
  have hlater : Later ⟨arena, current, outer, count, names⟩ ⟨current', outer', count, names, opened⟩
      ⟨arena, current, outer, count + 1, names ++ [name]⟩ ⟨current', outer', count + 1, names ++ [name], opened⟩ :=
    ⟨fun _ ht _ => ht, fun _ _ hsaved => hsaved⟩
  have hatt := attach_agree hgiven (built_alloc hm.owned ((Head.ofSymbol kind type ⟨count⟩).named name))
  exact Agree.later hlater (hatt.bind fun _ _ _ _ h' _ _ => Agree.pure h' (Eq.refl (SymbolId.mk count)))

/-- To declare an input is the same. -/
theorem input_agree (type : ValueType) (name : String) (h : Related session model) :
    Agree session model sameAnswer (Recorder.input type name session) (Reference.input type name model) := by
  unfold Recorder.input Reference.input
  refine Agree.guard Iff.rfl rfl h fun _ => ?_
  refine (declare_agree _ _ type name h).bind fun symbol symbol' _ _ h' _ hsym => Agree.pure h' ?_
  cases hsym
  rfl

/-- To declare an output is the same. -/
theorem output_agree (type : ValueType) (name : String) (h : Related session model) :
    Agree session model sameValue (Recorder.output type name session) (Reference.output type name model) := by
  unfold Recorder.output Reference.output
  refine Agree.guard Iff.rfl rfl h fun _ => ?_
  refine (declare_agree _ _ type name h).bind fun symbol symbol' _ _ h' _ hsym => Agree.pure h' ?_
  cases hsym
  exact ⟨rfl, .bound symbol⟩

/-! ## Branches and loops -/

/-- To open a branch, a loop or an alternative is the same. -/
theorem openConditional_agree {kind : NodeKind} (hk : kind.isBlock = true) (h : Related session model)
    {condition : Option Operand} {other : Option Reference.Operand}
    (hs : List.Forall₂ (SameOperand session.arena) condition.toList other.toList) :
    Agree session model anyAnswers (Recorder.openConditional kind condition session)
      (Reference.openConditional kind other model) := by
  refine built_agree h hs ?_ fun id arena trees hb => openBlock_agree h hb hk
  intro max hmax
  rw [NodeKind.arity_max_of_isBlock hk] at hmax
  cases hmax

/-- The same conditions are accepted. -/
theorem checkCondition_agree (h : Related session model) {arena : Arena} {condition : Operand}
    {other : Reference.Operand} (hs : SameOperand arena condition other) :
    Agree session model anyAnswers (Recorder.checkCondition condition session)
      (Reference.checkCondition other model) := by
  unfold Recorder.checkCondition Reference.checkCondition
  exact (Agree.check (by rw [hs.isCondition]) rfl h).mono fun _ _ _ _ => trivial

/-- To close the branch before an alternative is the same. -/
theorem closeLink_agree (next : NodeKind) (h : Related session model) :
    Agree session model anyAnswers (Recorder.closeLink next session) (Reference.closeLink next model) := by
  unfold Recorder.closeLink Reference.closeLink
  refine Agree.current (Agree.guard (by rw [h.kind]) rfl h fun _ => ?_)
  exact (exit_agree h).mapLeft fun _ _ _ _ => trivial

/-- The last node of the open block has the kind of the last term. -/
theorem checkFollowsConditional_eq (next : NodeKind) (h : Related session model) :
    Recorder.checkFollowsConditional next session =
      (if (!(model.current.children.getLast?.map Term.kind).any (·.isConditional)) = true then
        throw (TraceError.danglingElse next)
      else Pure.pure () : Recorder Unit) session := by
  obtain ⟨frame, frames, hm⟩ := h
  have hf := holds_focus frames frame hm.holds
  obtain ⟨node, hnode, -, hchildren⟩ := Arena.get?_of_content? hf.content
  have hfind : Recorder.find session.current.id session = .ok node session := by
    rw [hm.current]
    exact find_eq hnode
  have hmodel : model.current.children.getLast?.map Term.kind = frame.closed.getLast?.map Tree.kind := by
    rw [hm.modelCurrent, Frame.block, List.getLast?_map, Option.map_map]
    exact congrArg (fun f => frame.closed.getLast?.map f) (funext Tree.term_kind)
  unfold Recorder.checkFollowsConditional
  refine (bind_of_ok (show Recorder.current session = .ok session.current session from rfl)).trans ?_
  refine (bind_of_ok hfind).trans ?_
  rw [hchildren, List.getLast?_map, show frame.tree.children = frame.closed from rfl, hmodel]
  cases hlast : frame.closed.getLast? with
  | none => rfl
  | some tree =>
    have hmem : tree ∈ frame.tree.children := List.mem_of_getLast? hlast
    obtain ⟨child, hchild, hhead, -⟩ := Arena.get?_of_content? (hf.child hmem).content
    refine (bind_of_ok (find_eq hchild)).trans ?_
    rw [Node.kind, hhead]
    rfl

/-- Alternatives are accepted at the same places. -/
theorem checkFollowsConditional_agree (next : NodeKind) (h : Related session model) :
    Agree session model anyAnswers (Recorder.checkFollowsConditional next session)
      (Reference.checkFollowsConditional next model) := by
  rw [checkFollowsConditional_eq next h]
  exact (Agree.check Iff.rfl rfl h).mono fun _ _ _ _ => trivial

theorem beginIf_agree (h : Related session model) {condition : Operand} {other : Reference.Operand}
    (hs : SameOperand session.arena condition other) :
    Agree session model anyAnswers (Recorder.beginIf condition session) (Reference.beginIf other model) := by
  refine (checkCondition_agree h hs).bind fun _ _ _ _ h₁ hl₁ _ => ?_
  refine (checkStatements_agree h₁).bind fun _ _ _ _ h₂ hl₂ _ => ?_
  exact openConditional_agree rfl h₂ (.cons ((hs.keep hl₁.keeps).keep hl₂.keeps) .nil)

theorem beginWhile_agree (h : Related session model) {condition : Operand} {other : Reference.Operand}
    (hs : SameOperand session.arena condition other) :
    Agree session model anyAnswers (Recorder.beginWhile condition session) (Reference.beginWhile other model) := by
  refine (checkCondition_agree h hs).bind fun _ _ _ _ h₁ hl₁ _ => ?_
  refine (checkStatements_agree h₁).bind fun _ _ _ _ h₂ hl₂ _ => ?_
  exact openConditional_agree rfl h₂ (.cons ((hs.keep hl₁.keeps).keep hl₂.keeps) .nil)

theorem beginElseIf_agree (h : Related session model) {condition : Operand} {other : Reference.Operand}
    (hs : SameOperand session.arena condition other) :
    Agree session model anyAnswers (Recorder.beginElseIf condition session) (Reference.beginElseIf other model) := by
  refine (checkCondition_agree h hs).bind fun _ _ _ _ h₁ hl₁ _ => ?_
  refine (closeLink_agree _ h₁).bind fun _ _ _ _ h₂ hl₂ _ => ?_
  exact openConditional_agree rfl h₂ (.cons ((hs.keep hl₁.keeps).keep hl₂.keeps) .nil)

theorem beginElse_agree (h : Related session model) :
    Agree session model anyAnswers (Recorder.beginElse session) (Reference.beginElse model) :=
  (closeLink_agree _ h).bind fun _ _ _ _ h₁ _ _ => openConditional_agree rfl h₁ .nil

theorem reopenElseIf_agree (h : Related session model) {condition : Operand} {other : Reference.Operand}
    (hs : SameOperand session.arena condition other) :
    Agree session model anyAnswers (Recorder.reopenElseIf condition session) (Reference.reopenElseIf other model) := by
  refine (checkCondition_agree h hs).bind fun _ _ _ _ h₁ hl₁ _ => ?_
  refine (checkFollowsConditional_agree _ h₁).bind fun _ _ _ _ h₂ hl₂ _ => ?_
  exact openConditional_agree rfl h₂ (.cons ((hs.keep hl₁.keeps).keep hl₂.keeps) .nil)

theorem reopenElse_agree (h : Related session model) :
    Agree session model anyAnswers (Recorder.reopenElse session) (Reference.reopenElse model) :=
  (checkFollowsConditional_agree _ h).bind fun _ _ _ _ h₁ _ _ => openConditional_agree rfl h₁ .nil

/-- To open a counting loop is the same, and so is its counter. -/
theorem beginFor_agree (name : String) (h : Related session model) {start stop : Operand}
    {start' stop' : Reference.Operand} (hs : SameOperand session.arena start start')
    (ht : SameOperand session.arena stop stop') :
    Agree session model sameValue (Recorder.beginFor name start stop session)
      (Reference.beginFor name start' stop' model) := by
  unfold Recorder.beginFor Reference.beginFor
  refine Agree.guard (by rw [hs.type, ht.type]) rfl h fun _ => ?_
  refine (checkStatements_agree h).bind fun _ _ _ _ h₁ hl₁ _ => Agree.guard Iff.rfl rfl h₁ fun _ => ?_
  refine (nextSymbol_agree h₁).bind fun symbol symbol' s m h₂ hl₂ hsym => ?_
  cases hsym
  have hops : List.Forall₂ (SameOperand s.arena) [start, stop] [start', stop'] :=
    .cons ((hs.keep hl₁.keeps).keep hl₂.keeps) (.cons ((ht.keep hl₁.keeps).keep hl₂.keeps) .nil)
  refine built_agree h₂ hops (by rintro max ⟨⟩) fun id arena trees hb => ?_
  refine (openBlock_agree h₂ hb rfl).bind fun _ _ _ _ h₃ _ _ => Agree.pure h₃ ⟨rfl, .bound symbol⟩

end Operations

end ShaderTrace.Refinement
