import ShaderTrace.Proofs.Blocks.Outcomes
import ShaderTrace.Proofs.Recording.Session

/-!
# Assignments of buffers

No operation gives a buffer, so a buffer comes into an assignment only where a call writes an operand as it is. `Adds` says of an
action how many assignments of buffers it adds to the program; it is proved once for each of them. Only `assign_adds` adds any.
-/

namespace ShaderTrace

/-- The node assigns a buffer. -/
def Head.copiesBuffer (head : Head) : Bool := head.kind == .assignment && head.type.isBuffer

/-- How many nodes of a term assign a buffer. -/
def Term.copies (term : Term) : Nat := term.heads.countP Head.copiesBuffer

namespace Term

/-- Terms that assign no buffer do so together. -/
theorem countP_headsAll_eq_zero {terms : List Term} (h : ∀ term ∈ terms, term.copies = 0) :
    (headsAll terms).countP Head.copiesBuffer = 0 := by
  induction terms with
  | nil => rfl
  | cons term terms ih =>
    obtain ⟨hterm, hterms⟩ := List.forall_mem_cons.1 h
    rw [headsAll, List.countP_append, ih hterms, Nat.add_zero]
    exact hterm

/-- A node that is no assignment assigns a buffer only below itself. -/
theorem copies_of_kind_ne {head : Head} {children : List Term} (hk : head.kind ≠ .assignment)
    (hc : ∀ child ∈ children, child.copies = 0) : (node head children).copies = 0 := by
  have hhead : head.copiesBuffer = false := by simp [Head.copiesBuffer, hk]
  rw [copies, heads, List.countP_cons, countP_headsAll_eq_zero hc, hhead]
  rfl

/-- A node without children that is no assignment assigns nothing. -/
theorem copies_leaf {head : Head} (hk : head.kind ≠ .assignment) : (node head []).copies = 0 :=
  copies_of_kind_ne hk (by simp)

/-- An assignment of expressions assigns a buffer exactly if its type is one. -/
theorem copies_assignment {left right : Term} (hl : left.copies = 0) (hr : right.copies = 0) (type : ValueType) :
    (node { kind := .assignment, type } [left, right]).copies = type.isBuffer.toNat := by
  rw [copies, heads, List.countP_cons, countP_headsAll_eq_zero (by simp [hl, hr])]
  cases hb : type.isBuffer <;> simp [Head.copiesBuffer, hb]

end Term

/-- No operator is an assignment. -/
theorem Operator.kind_ne_assignment (operator : Operator) : operator.kind ≠ .assignment := by
  cases operator with
  | unary op => cases op <;> rintro ⟨⟩
  | binary op => cases op <;> rintro ⟨⟩
  | _ => rintro ⟨⟩

namespace Buffers

open Blocks (Quiet)

/-! ## Actions -/

/-- The action added so many assignments of buffers, and its answer is as `answer` says. -/
def Adds {α : Type} (session : Reference.Session) (count : Nat) (answer : α → Prop) :
    EStateM.Result TraceError Reference.Session α → Prop :=
  Leaves (fun a session' => session'.tree.copies = session.tree.copies + count ∧ answer a) anything

section Actions

variable {α β : Type} {x : Reference.Recorder α} {f : α → Reference.Recorder β} {session session' : Reference.Session}
  {count count' : Nat} {answer : α → Prop} {answer' : β → Prop}

/-- An action that leaves the program as it was adds nothing. -/
theorem Adds.same (h : session'.tree = session.tree) {a : α} (ha : answer a) : Adds session 0 answer (.ok a session') := by
  refine ⟨?_, ha⟩
  rw [h, Nat.add_zero]

/-- A condition under which the action is refused. -/
theorem Adds.guard {c : Prop} [Decidable c] {e : TraceError} {g : Unit → Reference.Recorder α}
    (hx : ¬c → Adds session count answer (x session)) :
    Adds session count answer ((if c then throw e >>= g else x) session) :=
  Leaves.guard (fun _ => trivial) hx

/-- A check that changes nothing may come first. -/
theorem Adds.after (hx : Quiet x) (hf : ∀ a, Adds session count answer' (f a session)) :
    Adds session count answer' ((x >>= f) session) :=
  hx.before (fun _ _ => trivial) fun a _ => hf a

/-- Two actions in a row add what both add. -/
theorem Adds.bind (h : Adds session count answer (x session))
    (hf : ∀ a session', answer a → Adds session' count' answer' (f a session')) :
    Adds session (count + count') answer' ((x >>= f) session) := by
  refine Leaves.bind h (fun _ _ => id) fun a session' _ ha => ?_
  refine Leaves.mono (hf a session' ha.2) (fun b session'' hb => ⟨?_, hb.2⟩) fun _ _ => id
  rw [hb.1, ha.1, Nat.add_assoc]

/-- The first action adds nothing. -/
theorem Adds.then (h : Adds session 0 answer (x session))
    (hf : ∀ a session', answer a → Adds session' count answer' (f a session')) :
    Adds session count answer' ((x >>= f) session) := by
  rw [← Nat.zero_add count]
  exact h.bind hf

/-- The second action only computes. -/
theorem Adds.map (h : Adds session count answer (x session))
    (hf : ∀ a session', answer a → ∃ b, f a session' = .ok b session' ∧ answer' b) :
    Adds session count answer' ((x >>= f) session) := by
  rw [← Nat.add_zero count]
  refine h.bind fun a session' ha => ?_
  obtain ⟨b, hb, hanswer⟩ := hf a session' ha
  rw [hb]
  exact .same rfl hanswer

/-- Less may be said of the answer. -/
theorem Adds.mono {answer₂ : α → Prop} (ha : ∀ a, answer a → answer₂ a)
    {result : EStateM.Result TraceError Reference.Session α} (h : Adds session count answer result) :
    Adds session count answer₂ result :=
  Leaves.mono h (fun a _ hok => ⟨hok.1, ha a hok.2⟩) fun _ _ => id

end Actions

/-! ## Handles -/

/-- The result of an operation is no buffer, and assigns none. -/
def PlainValue (value : Reference.Value) : Prop :=
  ∀ term, value.form = .pending term → value.type.isBuffer = false ∧ term.copies = 0

def PlainHandle : Reference.Handle → Prop
  | .value value => PlainValue value
  | .input _ => True

def PlainOperand : Reference.Operand → Prop
  | .handle handle => PlainHandle handle
  | .literal _ => True

/-- A value that has a symbol is plain. -/
theorem plain_bound (type : ValueType) (symbol : SymbolId) : PlainValue ⟨type, .bound symbol⟩ := by
  rintro term ⟨⟩

/-- A value that has nothing yet is plain. -/
theorem plain_unbound (type : ValueType) : PlainValue (.unbound type) := by
  rintro term ⟨⟩

/-- A lane is plain. -/
theorem plain_member (type : ValueType) (owner : SymbolId) (ownerType : ValueType) (lane : Lane) (writable : Bool) :
    PlainValue ⟨type, .member owner ownerType lane writable⟩ := by
  rintro term ⟨⟩

section Recorders

variable {session : Reference.Session}

/-! ## Expressions -/

/-- To read a plain operand adds nothing, and gives a term that assigns nothing. -/
theorem lower_adds {operand : Reference.Operand} (h : PlainOperand operand) :
    Adds session 0 (fun term => term.copies = 0) (Reference.lower operand session) := by
  cases operand with
  | literal value => exact .same rfl (Term.copies_leaf (by rintro ⟨⟩))
  | handle handle =>
    cases handle with
    | input input => exact .same rfl (Term.copies_leaf (by rintro ⟨⟩))
    | value value =>
      obtain ⟨type, form⟩ := value
      cases form with
      | unbound => trivial
      | bound symbol => exact .same rfl (Term.copies_leaf (by rintro ⟨⟩))
      | pending term => exact .same rfl (h term rfl).2
      | member owner ownerType lane writable => exact .same rfl (Term.copies_leaf (by rintro ⟨⟩))

/-- To read plain operands adds nothing. -/
theorem lowerAll_adds {operands : List Reference.Operand} (h : ∀ operand ∈ operands, PlainOperand operand) :
    Adds session 0 (fun terms => ∀ term ∈ terms, term.copies = 0) (Reference.lowerAll operands session) := by
  induction operands generalizing session with
  | nil => exact .same rfl (by simp)
  | cons operand operands ih =>
    obtain ⟨hfirst, hrest⟩ := List.forall_mem_cons.1 h
    refine (lower_adds hfirst).then fun term session' hterm => ?_
    refine (ih hrest).then fun terms session'' hterms => .same rfl ?_
    exact List.forall_mem_cons.2 ⟨hterm, hterms⟩

/-- What an operation gives is no buffer. -/
theorem express_adds (operator : Operator) {operands : List Reference.Operand}
    (h : ∀ operand ∈ operands, PlainOperand operand) :
    Adds session 0 (fun value => PlainValue value ∧ value.type.isBuffer = false)
      (Reference.express operator operands session) := by
  unfold Reference.express
  cases htype : Reference.type? operator operands with
  | none => trivial
  | some type =>
    have hbuffer : type.isBuffer = false := by
      unfold Reference.type? at htype
      split at htype
      · exact Operator.isBuffer_of_result? htype
      · cases htype
    have hchildren : ∀ operand ∈ Reference.childrenOf operator operands, PlainOperand operand := by
      cases operator with
      | call builtin => exact List.forall_mem_cons.2 ⟨trivial, h⟩
      | _ => exact h
    refine .after (Blocks.checkOperands_quiet operator operands) fun _ => ?_
    refine (lowerAll_adds hchildren).then fun terms session' hterms => .same rfl ⟨?_, hbuffer⟩
    rintro term ⟨⟩
    exact ⟨hbuffer, Term.copies_of_kind_ne operator.kind_ne_assignment hterms⟩

/-! ## Declarations and assignments -/

/-- A node that is added to the innermost block adds what it assigns. -/
theorem add_adds (child : Term) {α : Type} {answer : α → Prop} {a : α} (ha : answer a) {symbolCount : Nat}
    {names : List String} : Adds session child.copies answer
      (.ok a { session with current := session.current.add child, symbolCount, names }) := by
  refine ⟨?_, ha⟩
  show (Reference.plug (session.current.add child) session.outer).copies = _
  rw [Term.copies, Recording.heads_plug_add, List.countP_append]
  rfl

/-- A declaration adds nothing. -/
theorem declare_adds {kind : NodeKind} (hk : kind ≠ .assignment) (sectionKind : NodeKind) (type : ValueType)
    (name : String) : Adds session 0 anyAnswer (Reference.declare kind sectionKind type name session) := by
  refine .after Blocks.current_quiet fun _ => .guard fun _ => .guard fun _ => .guard fun _ => ?_
  have hleaf : (Term.node ((Head.ofSymbol kind type ⟨session.symbolCount⟩).named name) []).copies = 0 :=
    Term.copies_leaf hk
  rw [← hleaf]
  exact add_adds _ trivial

/-- An input adds nothing. -/
theorem input_adds (type : ValueType) (name : String) : Adds session 0 anyAnswer (Reference.input type name session) :=
  .guard fun _ => (declare_adds (by rintro ⟨⟩) .constData type name).map fun symbol _ _ => ⟨⟨type, symbol⟩, rfl, trivial⟩

/-- An output adds nothing, and is a plain value. -/
theorem output_adds (type : ValueType) (name : String) : Adds session 0 PlainValue (Reference.output type name session) :=
  .guard fun _ => (declare_adds (by rintro ⟨⟩) .outData type name).map fun symbol _ _ => ⟨_, rfl, plain_bound type symbol⟩

/-- The target of an assignment keeps its type, and writing its name assigns nothing. -/
theorem lowerTarget_adds {target : Reference.Value} (h : PlainValue target) :
    Adds session 0 (fun answer => answer.1.copies = 0 ∧ answer.2.type = target.type ∧ PlainValue answer.2)
      (Reference.lowerTarget target session) := by
  obtain ⟨type, form⟩ := target
  cases form with
  | unbound | pending => exact .same rfl ⟨Term.copies_leaf (by rintro ⟨⟩), rfl, plain_bound _ _⟩
  | bound | member => exact .same rfl ⟨Term.copies_leaf (by rintro ⟨⟩), rfl, h⟩

/-- A statement adds what it assigns. -/
theorem append_adds (statement : Term) :
    Adds session statement.copies anyAnswer (Reference.append statement session) :=
  .after Blocks.checkStatements_quiet fun _ => add_adds statement trivial

/-- An assignment of a buffer is one. -/
theorem assign_adds {target : Reference.Value} {value : Reference.Operand} (ht : PlainValue target)
    (hv : PlainOperand value) : Adds session value.type.isBuffer.toNat PlainValue (Reference.assign target value session) := by
  refine .guard fun htype => .after Blocks.checkStatements_quiet fun _ => .after (Blocks.checkWritable_quiet target) fun _ => ?_
  refine (lower_adds hv).then fun right session' hright => (lowerTarget_adds ht).then fun answer session'' ha => ?_
  obtain ⟨hleft, hsame, hplain⟩ := ha
  have hcopies := Term.copies_assignment hleft hright answer.2.type
  rw [not_not.1 htype, ← hsame, ← hcopies]
  exact (append_adds _).map fun _ _ _ => ⟨answer.2, rfl, hplain⟩

/-- An update adds nothing, because no operation gives a buffer. -/
theorem update_adds (how : Update) {target : Reference.Value} {value : Reference.Operand} (ht : PlainValue target)
    (hv : PlainOperand value) : Adds session 0 PlainValue (Reference.update how target value session) := by
  refine .guard fun _ => (express_adds _ ?_).then fun result session' hresult => ?_
  · intro operand hm
    rcases List.mem_pair.1 hm with rfl | rfl
    · exact ht
    · exact hv
  · have hadds := @assign_adds session' target (.ofValue result) ht hresult.1
    rwa [show (Reference.Operand.ofValue result).type.isBuffer = false from hresult.2] at hadds

/-- A plain value gets its symbol without an assignment of a buffer. -/
theorem materialize_adds {value : Reference.Value} (h : PlainValue value) :
    Adds session 0 (fun answer => PlainValue answer.2) (Reference.materialize value session) := by
  obtain ⟨type, form⟩ := value
  cases form with
  | bound symbol => exact .same rfl h
  | unbound => exact .same rfl (plain_bound _ _)
  | member => trivial
  | pending term =>
    have hadds := @assign_adds session ⟨type, .pending term⟩ (.ofValue ⟨type, .pending term⟩) h h
    rw [show (Reference.Operand.ofValue ⟨type, .pending term⟩).type.isBuffer = false from (h term rfl).1] at hadds
    refine hadds.then fun bound session' hb => ?_
    cases bound.symbol? with
    | some symbol => exact .same rfl hb
    | none => trivial

/-- To take a lane of a plain value adds nothing. -/
theorem lane_adds {owner : Reference.Value} (h : PlainValue owner) (lane : Lane) :
    Adds session 0 (fun answer => PlainValue answer.1 ∧ PlainValue answer.2) (Reference.lane owner lane session) := by
  unfold Reference.lane
  cases owner.type.lane? with
  | none => trivial
  | some type =>
    refine .guard fun _ => .guard fun _ => (materialize_adds h).map fun answer _ ha => ⟨_, rfl, ?_, ha⟩
    exact plain_member _ _ _ _ _

/-- To take a component of a plain value adds nothing. -/
theorem component_adds {owner : Reference.Value} (h : PlainValue owner) (lane : Lane) :
    Adds session 0 (fun answer => PlainValue answer.1 ∧ PlainValue answer.2) (Reference.component owner lane session) :=
  .guard fun _ => lane_adds h lane

/-- To sample at a coordinate adds nothing: an element of a buffer is no buffer. -/
theorem sampleAt_adds (buffer : Input) {coordinate : Reference.Value} (h : PlainValue coordinate) :
    Adds session 0 PlainValue (Reference.sampleAt buffer coordinate session) := by
  refine .guard fun _ => (lane_adds h .x).then fun first session' hx => ?_
  refine (lane_adds hx.2 .y).then fun second session'' hy => ?_
  refine (express_adds .sample2d ?_).mono fun _ hv => hv.1
  intro operand hm
  rcases List.mem_cons.1 hm with rfl | hm
  · trivial
  · rcases List.mem_pair.1 hm with rfl | rfl
    · exact hx.1
    · exact hy.1

/-! ## Blocks, branches and loops -/

/-- A block that is opened adds nothing. -/
theorem openBlock_adds {head : Head} (hk : head.kind ≠ .assignment) {header : List Term}
    (hh : ∀ term ∈ header, term.copies = 0) : Adds session 0 anyAnswer (Reference.openBlock head header session) := by
  refine ⟨?_, trivial⟩
  have hinner := Term.copies_of_kind_ne hk hh
  show (Reference.plug ⟨head, header, session.opened⟩ (session.current :: session.outer)).copies = _
  rw [Term.copies, Recording.heads_plug_open, List.countP_append]
  exact congrArg _ hinner

/-- A section or a plain block adds nothing. -/
theorem enter_adds (kind : NodeKind) : Adds session 0 anyAnswer (Reference.enter kind session) := by
  cases kind with
  | constData | outData | main =>
    exact .after (Blocks.checkSection_quiet _) fun _ => openBlock_adds (by rintro ⟨⟩) (by simp)
  | block => exact .after Blocks.checkStatements_quiet fun _ => openBlock_adds (by rintro ⟨⟩) (by simp)
  | _ => trivial

/-- To close a block adds nothing. -/
theorem exit_adds : Adds session 0 anyAnswer (Reference.exit session) := by
  have hout := @Blocks.exit_outcome session
  cases hx : Reference.exit session with
  | ok a session' =>
    rw [hx] at hout
    exact .same hout.2.tree trivial
  | error => trivial

/-- To close the branch before an alternative adds nothing. -/
theorem closeLink_adds (next : NodeKind) : Adds session 0 anyAnswer (Reference.closeLink next session) :=
  .after Blocks.current_quiet fun _ => .guard fun _ => exit_adds

/-- A block with a condition adds nothing. -/
theorem openConditional_adds {kind : NodeKind} (hk : kind ≠ .assignment) {condition : Option Reference.Operand}
    (hc : ∀ operand ∈ condition.toList, PlainOperand operand) :
    Adds session 0 anyAnswer (Reference.openConditional kind condition session) :=
  (lowerAll_adds hc).then fun _ _ hterms => openBlock_adds hk hterms

/-- A branch adds nothing. -/
theorem beginIf_adds {condition : Reference.Operand} (h : PlainOperand condition) :
    Adds session 0 anyAnswer (Reference.beginIf condition session) :=
  .after (Blocks.checkCondition_quiet condition) fun _ => .after Blocks.checkStatements_quiet fun _ =>
    openConditional_adds (by rintro ⟨⟩) (by simpa using h)

/-- A loop with a condition adds nothing. -/
theorem beginWhile_adds {condition : Reference.Operand} (h : PlainOperand condition) :
    Adds session 0 anyAnswer (Reference.beginWhile condition session) :=
  .after (Blocks.checkCondition_quiet condition) fun _ => .after Blocks.checkStatements_quiet fun _ =>
    openConditional_adds (by rintro ⟨⟩) (by simpa using h)

/-- An alternative with a condition adds nothing. -/
theorem beginElseIf_adds {condition : Reference.Operand} (h : PlainOperand condition) :
    Adds session 0 anyAnswer (Reference.beginElseIf condition session) :=
  .after (Blocks.checkCondition_quiet condition) fun _ => (closeLink_adds _).then fun _ _ _ =>
    openConditional_adds (by rintro ⟨⟩) (by simpa using h)

/-- An alternative adds nothing. -/
theorem beginElse_adds : Adds session 0 anyAnswer (Reference.beginElse session) :=
  (closeLink_adds _).then fun _ _ _ => openConditional_adds (by rintro ⟨⟩) (by simp)

/-- An alternative with a condition, after a closed branch, adds nothing. -/
theorem reopenElseIf_adds {condition : Reference.Operand} (h : PlainOperand condition) :
    Adds session 0 anyAnswer (Reference.reopenElseIf condition session) :=
  .after (Blocks.checkCondition_quiet condition) fun _ => .after (Blocks.checkFollowsConditional_quiet _) fun _ =>
    openConditional_adds (by rintro ⟨⟩) (by simpa using h)

/-- An alternative after a closed branch adds nothing. -/
theorem reopenElse_adds : Adds session 0 anyAnswer (Reference.reopenElse session) :=
  .after (Blocks.checkFollowsConditional_quiet _) fun _ => openConditional_adds (by rintro ⟨⟩) (by simp)

/-- To give a symbol out adds nothing. -/
theorem nextSymbol_adds : Adds session 0 anyAnswer (Reference.nextSymbol session) := .same rfl trivial

/-- A loop that counts adds nothing, and its counter is a plain value. -/
theorem beginFor_adds (name : String) {start stop : Reference.Operand} (hs : PlainOperand start) (ht : PlainOperand stop) :
    Adds session 0 PlainValue (Reference.beginFor name start stop session) := by
  refine .guard fun _ => .after Blocks.checkStatements_quiet fun _ => .guard fun _ => ?_
  refine nextSymbol_adds.then fun symbol session' _ => (lowerAll_adds (by simp [hs, ht])).then fun bounds session'' hb => ?_
  exact (openBlock_adds (by rintro ⟨⟩) hb).map fun _ _ _ => ⟨_, rfl, plain_bound _ symbol⟩

end Recorders

end Buffers

end ShaderTrace
