import ShaderTrace.Proofs.Recording.Session

/-!
# The recorder keeps its judgements

A handle is typed if what it stands for has been given out or recorded with the type of the handle. Every operation of the
recorder leaves a good session behind when it is given typed handles, whether it succeeds or fails, and answers with typed
handles.
-/

namespace ShaderTrace.Recording

/-! ## Typed handles -/

/-- What a value of the given type stands for. -/
inductive TypedForm (Γ : Ledger) (type : ValueType) : Reference.Form → Prop
  | unbound (h : type.isNameable = true) : TypedForm Γ type .unbound
  | bound {symbol : SymbolId} (h : Gives Γ symbol type false) : TypedForm Γ type (.bound symbol)
  | pending {term : Term} (h : Expression Γ term) (ht : term.type = type) (hk : term.kind ≠ .literal) :
    TypedForm Γ type (.pending term)
  | member {owner : SymbolId} {ownerType : ValueType} {lane : Lane} {writable : Bool}
    (h : Gives Γ owner ownerType (!writable)) (hl : LaneOf ownerType lane type) :
    TypedForm Γ type (.member owner ownerType lane writable)

def TypedValue (Γ : Ledger) (value : Reference.Value) : Prop := TypedForm Γ value.type value.form

def TypedInput (Γ : Ledger) (input : Input) : Prop := Gives Γ input.symbol input.type true

def TypedHandle (Γ : Ledger) : Reference.Handle → Prop
  | .value value => TypedValue Γ value
  | .input input => TypedInput Γ input

def TypedOperand (Γ : Ledger) : Reference.Operand → Prop
  | .handle handle => TypedHandle Γ handle
  | .literal _ => True

section Handles

variable {Γ Γ' : Ledger}

/-- A form stays typed as the ledger grows. -/
theorem TypedForm.extend (hp : Γ <+: Γ') {type : ValueType} {form : Reference.Form} (h : TypedForm Γ type form) :
    TypedForm Γ' type form := by
  cases h with
  | unbound h => exact .unbound h
  | bound h => exact .bound (h.extend hp)
  | pending h ht hk => exact .pending (h.extend hp) ht hk
  | member h hl => exact .member (h.extend hp) hl

/-- A handle stays typed as the ledger grows. -/
theorem TypedHandle.extend (hp : Γ <+: Γ') {handle : Reference.Handle} (h : TypedHandle Γ handle) : TypedHandle Γ' handle := by
  cases handle with
  | value value => exact TypedForm.extend hp h
  | input input => exact Gives.extend hp h

/-- An operand stays typed as the ledger grows. -/
theorem TypedOperand.extend (hp : Γ <+: Γ') {operand : Reference.Operand} (h : TypedOperand Γ operand) : TypedOperand Γ' operand := by
  cases operand with
  | handle handle => exact TypedHandle.extend hp h
  | literal value => trivial

/-- The type of a value can be named. -/
theorem TypedForm.isNameable {type : ValueType} {form : Reference.Form} (h : TypedForm Γ type form) : type.isNameable = true := by
  cases h with
  | unbound h => exact h
  | bound h => exact h.isNameable
  | pending h ht _ => exact ht ▸ h.isNameable
  | member _ hl => exact ValueType.isNameable_of_lane? hl.type_eq

/-- The type of an operand can be named. -/
theorem TypedOperand.isNameable {operand : Reference.Operand} (h : TypedOperand Γ operand) : operand.type.isNameable = true := by
  cases operand with
  | handle handle =>
    cases handle with
    | value value => exact TypedForm.isNameable h
    | input input => exact Gives.isNameable h
  | literal value => exact ValueType.isNameable_literal value

/-- A lane of an input is typed. -/
theorem laneOfInput_typed {input : Input} {lane : Lane} {value : Reference.Value} (h : TypedInput Γ input)
    (hl : Reference.laneOfInput? input lane = some value) : TypedValue Γ value := by
  unfold Reference.laneOfInput? at hl
  split at hl
  · rename_i hlane
    obtain ⟨hvector, hindex⟩ : input.type.isVector = true ∧ lane.index < input.type.lanes := by simpa using hlane
    obtain ⟨type, htype, rfl⟩ := Option.map_eq_some_iff.1 hl
    exact @TypedForm.member _ _ input.symbol input.type lane false h ⟨hvector, hindex, htype⟩
  · cases hl

end Handles

/-! ## Actions -/

namespace Keeping

variable {α : Type} {Γ : Ledger} {session : Reference.Session} {answer : Ledger → α → Prop}

/-- Statements are refused outside of main. -/
theorem statements {f : Unit → Reference.Recorder α} (h : Good Γ session)
    (hf : session.current.kind.acceptsStatements = true → Keeping Good Γ answer (f () session)) :
    Keeping Good Γ answer ((Reference.checkStatements >>= f) session) := by
  have hrun := Reference.checkStatements_eq session
  cases ha : session.current.kind.acceptsStatements with
  | true =>
    rw [ha, if_pos rfl] at hrun
    rw [bind_of_ok hrun]
    exact hf ha
  | false =>
    rw [ha, if_neg (by decide)] at hrun
    rw [bind_of_error hrun]
    exact .error h _

end Keeping

/-! ## Expressions -/

/-- The term that an operand is lowered to. -/
inductive StandsFor (Γ : Ledger) : Reference.Operand → Term → Prop
  | literal (value : Literal) : StandsFor Γ (.literal value) (constant value)
  | input {input : Input} (h : Gives Γ input.symbol input.type true) :
    StandsFor Γ (.handle (.input input)) (reference input.type input.symbol)
  | value {value : Reference.Value} {term : Term} (h : Expression Γ term) (ht : term.type = value.type)
    (hk : term.kind ≠ .literal) : StandsFor Γ (.handle (.value value)) term

section Expressions

variable {Γ : Ledger} {session : Reference.Session}

/-- The term that stands for an operand is an expression of its type. -/
theorem StandsFor.expression {operand : Reference.Operand} {term : Term} (h : StandsFor Γ operand term) :
    Expression Γ term ∧ term.type = operand.type := by
  cases h with
  | literal value => exact ⟨.constant value, rfl⟩
  | input h => exact ⟨.reference h, rfl⟩
  | value h ht _ => exact ⟨h, ht⟩

/-- Lowering an operand changes nothing. -/
theorem lower_cases {operand : Reference.Operand} (h : TypedOperand Γ operand) (session : Reference.Session) :
    (∃ e, Reference.lower operand session = .error e session) ∨
      ∃ term, Reference.lower operand session = .ok term session ∧ StandsFor Γ operand term := by
  cases operand with
  | literal value => exact .inr ⟨_, rfl, .literal value⟩
  | handle handle =>
    cases handle with
    | input input => exact .inr ⟨_, rfl, .input h⟩
    | value value =>
      obtain ⟨type, form⟩ := value
      cases h with
      | unbound => exact .inl ⟨_, rfl⟩
      | bound h => exact .inr ⟨_, rfl, .value (.reference h) rfl (by rintro ⟨⟩)⟩
      | pending h ht hk => exact .inr ⟨_, rfl, .value h ht hk⟩
      | member h hl => exact .inr ⟨_, rfl, .value (.laneOf h hl) rfl (by rintro ⟨⟩)⟩

/-- Typed operands are refused, or there are terms that stand for them. -/
theorem lowerAll_cases {operands : List Reference.Operand} (h : ∀ operand ∈ operands, TypedOperand Γ operand)
    (session : Reference.Session) :
    (∃ e, Reference.lowerAll operands session = .error e session) ∨
      ∃ terms, Reference.lowerAll operands session = .ok terms session ∧ List.Forall₂ (StandsFor Γ) operands terms := by
  induction operands with
  | nil => exact .inr ⟨[], rfl, .nil⟩
  | cons operand operands ih =>
    rw [Reference.lowerAll]
    rcases lower_cases (h operand List.mem_cons_self) session with ⟨e, he⟩ | ⟨term, hterm, hs⟩
    · exact .inl ⟨e, bind_of_error he⟩
    · rcases ih fun other hm => h other (List.mem_cons_of_mem _ hm) with ⟨e, he⟩ | ⟨terms, hterms, hss⟩
      · exact .inl ⟨e, (bind_of_ok hterm).trans (bind_of_error he)⟩
      · exact .inr ⟨term :: terms, (bind_of_ok hterm).trans (bind_of_ok hterms), .cons hs hss⟩

/-- To lower a typed operand keeps the session, and goes on with a term that stands for it. -/
theorem Keeping.lower {α : Type} {answer : Ledger → α → Prop} (hg : Good Γ session) {operand : Reference.Operand}
    (h : TypedOperand Γ operand) {f : Term → Reference.Recorder α}
    (hf : ∀ term, StandsFor Γ operand term → Keeping Good Γ answer (f term session)) :
    Keeping Good Γ answer ((Reference.lower operand >>= f) session) := by
  rcases lower_cases h session with ⟨e, he⟩ | ⟨term, hterm, hs⟩
  · rw [bind_of_error he]
    exact .error hg e
  · rw [bind_of_ok hterm]
    exact hf term hs

/-- To lower typed operands keeps the session, and goes on with terms that stand for them. -/
theorem Keeping.lowerAll {α : Type} {answer : Ledger → α → Prop} (hg : Good Γ session)
    {operands : List Reference.Operand} (h : ∀ operand ∈ operands, TypedOperand Γ operand)
    {f : List Term → Reference.Recorder α}
    (hf : ∀ terms, List.Forall₂ (StandsFor Γ) operands terms → Keeping Good Γ answer (f terms session)) :
    Keeping Good Γ answer ((Reference.lowerAll operands >>= f) session) := by
  rcases lowerAll_cases h session with ⟨e, he⟩ | ⟨terms, hterms, hs⟩
  · rw [bind_of_error he]
    exact .error hg e
  · rw [bind_of_ok hterms]
    exact hf terms hs

/-- Negative constants are refused as indices. -/
theorem checkIndices_cases (operands : List Reference.Operand) (session : Reference.Session) :
    (∃ e, Reference.checkIndices operands session = .error e session) ∨
      Reference.checkIndices operands session = .ok () session ∧
        ∀ index, .literal (.int index) ∈ operands → ¬index < 0 := by
  fun_induction Reference.checkIndices operands with
  | case1 => exact .inr ⟨rfl, by simp⟩
  | case2 index rest => exact .inl ⟨_, rfl⟩
  | case3 index rest _ hneg ih =>
    rcases ih with ⟨e, he⟩ | ⟨hok, hall⟩
    · exact .inl ⟨e, he⟩
    · refine .inr ⟨hok, fun other hm => ?_⟩
      rcases List.mem_cons.1 hm with heq | hm
      · cases heq; exact hneg
      · exact hall other hm
  | case4 first rest hfirst ih =>
    rcases ih with ⟨e, he⟩ | ⟨hok, hall⟩
    · exact .inl ⟨e, he⟩
    · refine .inr ⟨hok, fun other hm => ?_⟩
      rcases List.mem_cons.1 hm with heq | hm
      · exact absurd heq.symm (hfirst other)
      · exact hall other hm

/-- The terms that stand for operands are expressions of their types. -/
theorem forall₂_expression {operands : List Reference.Operand} {terms : List Term}
    (h : List.Forall₂ (StandsFor Γ) operands terms) :
    (∀ term ∈ terms, Expression Γ term) ∧ terms.map Term.type = operands.map Reference.Operand.type := by
  induction h with
  | nil => exact ⟨by simp, rfl⟩
  | cons hs _ ih =>
    obtain ⟨he, ht⟩ := hs.expression
    refine ⟨?_, by rw [List.map_cons, List.map_cons, ht, ih.2]⟩
    intro term hm
    rcases List.mem_cons.1 hm with rfl | hm
    · exact he
    · exact ih.1 term hm

/-- A constant among the terms was one among the operands. -/
theorem literal_mem_of_constant {operands : List Reference.Operand} {terms : List Term}
    (h : List.Forall₂ (StandsFor Γ) operands terms) {value : Literal} (hm : constant value ∈ terms) :
    .literal value ∈ operands := by
  induction h with
  | nil => cases hm
  | @cons operand term _ _ hs _ ih =>
    rcases List.mem_cons.1 hm with heq | hm
    · cases hs with
      | literal other =>
        cases congrArg (·.head.payload) heq
        exact List.mem_cons_self
      | input => cases congrArg Term.kind heq
      | value _ _ hk => exact absurd (congrArg Term.kind heq).symm hk
    · exact List.mem_cons_of_mem _ (ih hm)

/-- The terms of the operands and the number of a called function are the children of the operation. -/
theorem exists_applied {operator : Operator} {operands : List Reference.Operand} {children : List Term}
    (h : List.Forall₂ (StandsFor Γ) (Reference.childrenOf operator operands) children) :
    ∃ terms, children = applied operator terms ∧ List.Forall₂ (StandsFor Γ) operands terms := by
  cases operator with
  | call builtin =>
    cases h with
    | cons hs hss =>
      cases hs
      exact ⟨_, rfl, hss⟩
  | _ => exact ⟨children, rfl, h⟩

/-- An operator that samples was given an input, and no negative index. -/
theorem sampled_of_accepts {operator : Operator} {operands : List Reference.Operand} {terms : List Term}
    (ha : Reference.accepts operator operands = true) (h : List.Forall₂ (StandsFor Γ) operands terms)
    (hi : ∀ index, operator = .sample1d ∨ operator = .sample2d → .literal (.int index) ∈ operands.drop 1 → ¬index < 0) :
    Sampled Γ operator terms := by
  have sampled : operator = .sample1d ∨ operator = .sample2d → (∃ input rest, operands = .handle (.input input) :: rest) →
      ∃ symbol type indices, terms = reference type symbol :: indices ∧ Gives Γ symbol type true ∧
        ∀ index, constant (.int index) ∈ indices → ¬index < 0 := by
    rintro hop ⟨input, rest, rfl⟩
    cases h with
    | cons hs hss =>
      cases hs with
      | input hg => exact ⟨_, _, _, rfl, hg, fun index hm => hi index hop (literal_mem_of_constant hss hm)⟩
  have first : operator = .sample1d ∨ operator = .sample2d → ∃ input rest, operands = .handle (.input input) :: rest := by
    rintro (rfl | rfl) <;> unfold Reference.accepts at ha <;> split at ha <;> simp_all
  cases operator with
  | sample1d => exact sampled (.inl rfl) (first (.inl rfl))
  | sample2d => exact sampled (.inr rfl) (first (.inr rfl))
  | _ => trivial

/-- No operation is a constant. -/
theorem operator_kind_ne_literal (operator : Operator) : operator.kind ≠ .literal := by
  cases operator with
  | unary op => cases op <;> decide
  | binary op => cases op <;> decide
  | _ => rintro ⟨⟩

/-- Operands are refused, or no index of a sampling is a negative constant. -/
theorem checkOperands_cases (operator : Operator) (operands : List Reference.Operand) (session : Reference.Session) :
    (∃ e, Reference.checkOperands operator operands session = .error e session) ∨
      Reference.checkOperands operator operands session = .ok () session ∧
        ∀ index, operator = .sample1d ∨ operator = .sample2d → .literal (.int index) ∈ operands.drop 1 → ¬index < 0 := by
  cases operator with
  | sample1d | sample2d =>
    rcases checkIndices_cases (operands.drop 1) session with h | ⟨hok, hall⟩
    · exact .inl h
    · exact .inr ⟨hok, fun index _ => hall index⟩
  | _ => exact .inr ⟨rfl, by simp⟩

/-- An operation on typed operands gives a typed value, and changes nothing else. -/
theorem express_keeping (h : Good Γ session) (operator : Operator) (operands : List Reference.Operand)
    (ho : ∀ operand ∈ operands, TypedOperand Γ operand) :
    Keeping Good Γ (fun Γ' value => TypedValue Γ' value ∧
      operator.result? (operands.map Reference.Operand.type) = some value.type)
      (Reference.express operator operands session) := by
  unfold Reference.express
  cases ht : Reference.type? operator operands with
  | none => exact .error h _
  | some type =>
    unfold Reference.type? at ht
    split at ht
    · rename_i ha
      simp only
      rcases checkOperands_cases operator operands session with ⟨e, he⟩ | ⟨hok, hindices⟩
      · rw [bind_of_error he]
        exact .error h e
      · rw [bind_of_ok hok]
        have hchildren : ∀ operand ∈ Reference.childrenOf operator operands, TypedOperand Γ operand := by
          cases operator with
          | call builtin =>
            intro operand hm
            rcases List.mem_cons.1 hm with rfl | hm
            · trivial
            · exact ho operand hm
          | _ => exact ho
        refine Keeping.lowerAll h hchildren fun children hs => Keeping.pure h ⟨?_, ht⟩
        obtain ⟨terms, rfl, hterms⟩ := exists_applied hs
        obtain ⟨hexpr, htypes⟩ := forall₂_expression hterms
        refine .pending (.apply operator terms hexpr (by rw [htypes]; exact ht) ?_) rfl (operator_kind_ne_literal operator)
        exact sampled_of_accepts ha hterms hindices
    · cases ht

end Expressions

/-! ## Declarations and assignments -/

section Statements

variable {Γ : Ledger} {session : Reference.Session}

/-- A new symbol gets any entry in the ledger that is good. -/
theorem nextSymbol_keeping (h : Good Γ session) (binding : Binding) :
    Keeping Good Γ (fun Γ' symbol => Gives Γ' symbol binding.type binding.readOnly) (Reference.nextSymbol session) :=
  ⟨Γ ++ [binding], List.prefix_append _ _, h.give binding, by rw [← h.length]; exact gives_new Γ binding⟩

/-- A declaration gives out its symbol. -/
theorem declare_keeping (h : Good Γ session) (binding : Binding) {kind sectionKind : NodeKind} {name : String}
    (hk : kind = .constVar ∨ kind = .outVar) (hf : ∀ before, fits sectionKind before kind = true)
    (hi : ∀ symbol, Gives (Γ ++ [binding]) symbol binding.type binding.readOnly → Identifier.isIdentifier name = true →
      Item (Γ ++ [binding]) (.node ((Head.ofSymbol kind binding.type symbol).named name) [])) :
    Keeping Good Γ (fun Γ' symbol => Gives Γ' symbol binding.type binding.readOnly)
      (Reference.declare kind sectionKind binding.type name session) := by
  refine Keeping.guard h fun hsection => Keeping.guard h fun hdeclarable => Keeping.guard h fun hname => ?_
  have hgives : Gives (Γ ++ [binding]) ⟨session.symbolCount⟩ binding.type binding.readOnly := by
    rw [← h.length]
    exact gives_new Γ binding
  have hident := Identifier.isIdentifier_of_isDeclarable (by simpa using hdeclarable)
  refine ⟨Γ ++ [binding], List.prefix_append _ _, h.declare hk ?_ (hi _ hgives hident) ?_, hgives⟩
  · have hkind : session.current.kind = sectionKind := not_not.1 hsection
    rw [hkind]
    exact hf _
  · simpa using hname

/-- A declared input is typed. -/
theorem input_keeping (h : Good Γ session) (type : ValueType) (name : String) :
    Keeping Good Γ (fun Γ' input => TypedInput Γ' input) (Reference.input type name session) := by
  refine Keeping.guard h fun hn => ?_
  exact (declare_keeping h ⟨type, true, by simpa using hn⟩ (.inl rfl) (fun _ => rfl) fun symbol => .input).bind
    fun symbol Γ' session' _ h' hg => Keeping.pure h' hg

/-- A declared output is typed. -/
theorem output_keeping (h : Good Γ session) (type : ValueType) (name : String) :
    Keeping Good Γ (fun Γ' value => TypedValue Γ' value) (Reference.output type name session) := by
  refine Keeping.guard h fun hn => ?_
  have hnumeric : type.isNumeric = true := by simpa using hn
  exact (declare_keeping h ⟨type, false, ValueType.isNameable_of_isNumeric hnumeric⟩ (.inr rfl) (fun _ => rfl)
    fun symbol hg => .output hg hnumeric).bind fun symbol Γ' session' _ h' hg => Keeping.pure h' (.bound hg)

/-- Lowers a target: a value that stands for no variable yet gets one. -/
theorem lowerTarget_keeping (h : Good Γ session) {target : Reference.Value} (ht : TypedValue Γ target)
    (hw : ∀ owner ownerType lane, target.form ≠ .member owner ownerType lane false) :
    Keeping Good Γ (fun Γ' answer => Target Γ' answer.1 ∧ answer.1.type = target.type ∧ TypedValue Γ' answer.2 ∧
      answer.2.type = target.type) (Reference.lowerTarget target session) := by
  obtain ⟨type, form⟩ := target
  have fresh : type.isNameable = true → Keeping Good Γ (fun Γ' answer => Target Γ' answer.1 ∧ answer.1.type = type ∧
      TypedValue Γ' answer.2 ∧ answer.2.type = type) ((do
        let symbol ← Reference.nextSymbol
        return (.node (.ofSymbol .var type symbol) [], ⟨type, .bound symbol⟩) :
        Reference.Recorder (Term × Reference.Value)) session) := by
    intro hn
    exact (nextSymbol_keeping h ⟨type, false, hn⟩).bind fun symbol Γ' _ _ h' hg =>
      Keeping.pure h' ⟨.reference hg, rfl, .bound hg, rfl⟩
  cases ht with
  | unbound hn => exact fresh hn
  | bound hg => exact Keeping.pure h ⟨.reference hg, rfl, .bound hg, rfl⟩
  | pending he htype hk => exact fresh (TypedForm.pending he htype hk).isNameable
  | @member owner ownerType lane writable hg hl =>
    cases writable with
    | true => exact Keeping.pure h ⟨.laneOf hg hl, rfl, .member hg hl, rfl⟩
    | false => exact absurd rfl (hw owner ownerType lane)

/-- Adds an assignment to the open block. -/
theorem append_keeping (h : Good Γ session) {target value : Term} (ht : Target Γ target) (hv : Expression Γ value)
    (hty : value.type = target.type) {type : ValueType} (hrow : target.type = type) :
    Keeping Good Γ anything (Reference.append (.node { kind := .assignment, type } [target, value]) session) := by
  subst hrow
  have heads : ∀ head ∈ (Term.node { kind := .assignment, type := target.type } [target, value]).heads,
      head.introduces = false ∧ head.declared? = none := by
    intro head hm
    rw [Term.heads, List.mem_cons] at hm
    rcases hm with rfl | hm
    · exact ⟨rfl, rfl⟩
    · obtain ⟨term, hterm, hhead⟩ := Term.mem_headsAll.1 hm
      rcases List.mem_pair.1 hterm with rfl | rfl
      · exact ⟨(ht.expression.heads head hhead).1, (ht.expression.heads head hhead).2.1⟩
      · exact ⟨(hv.heads head hhead).1, (hv.heads head hhead).2.1⟩
  refine Keeping.statements h fun ha => ?_
  exact Keeping.pure (h.append (.assign ht hv hty) ha (fun head hm => (heads head hm).1)
    fun head hm => (heads head hm).2) trivial

/-- An assignment leaves a typed value of the type of its target. -/
theorem assign_keeping (h : Good Γ session) {target : Reference.Value} {value : Reference.Operand}
    (ht : TypedValue Γ target) (hv : TypedOperand Γ value) :
    Keeping Good Γ (fun Γ' result => TypedValue Γ' result ∧ result.type = target.type)
      (Reference.assign target value session) := by
  refine Keeping.guard h fun htype => Keeping.statements h fun _ => ?_
  have hwritable : Keeping Good Γ (fun _ _ => ∀ owner ownerType lane, target.form ≠ .member owner ownerType lane false)
      (Reference.checkWritable target session) := by
    obtain ⟨type, form⟩ := target
    cases form with
    | member owner ownerType lane writable =>
      cases writable with
      | true => exact Keeping.pure h (by rintro _ _ _ ⟨⟩)
      | false => exact Keeping.error h _
    | _ => exact Keeping.pure h (by rintro _ _ _ ⟨⟩)
  refine hwritable.bind fun _ Γ₁ session₁ hp₁ h₁ hw => ?_
  refine Keeping.lower h₁ (hv.extend hp₁) fun right hr => ?_
  refine (lowerTarget_keeping h₁ (TypedForm.extend hp₁ ht) hw).bind fun answer Γ₂ session₂ hp₂ h₂ hanswer => ?_
  obtain ⟨left, target'⟩ := answer
  obtain ⟨htarget, hleft, htyped, htype'⟩ := hanswer
  obtain ⟨hright, hrtype⟩ := hr.expression
  have hsame : value.type = target.type := not_not.1 htype
  refine (append_keeping h₂ htarget (hright.extend hp₂) (by rw [hrtype, hsame, hleft]) (by rw [hleft, htype'])).bind
    fun _ Γ₃ session₃ hp₃ h₃ _ => ?_
  exact Keeping.pure h₃ ⟨TypedForm.extend hp₃ htyped, htype'⟩

/-- A variable is a typed value of the type of what it was made from. -/
theorem var_keeping (h : Good Γ session) {value : Reference.Operand} (hv : TypedOperand Γ value) :
    Keeping Good Γ (fun Γ' result => TypedValue Γ' result ∧ result.type = value.type) (Reference.var value session) :=
  assign_keeping h (.unbound hv.isNameable) hv

/-- An update leaves a typed value of the type of its target. -/
theorem update_keeping (h : Good Γ session) (how : Update) {target : Reference.Value} {value : Reference.Operand}
    (ht : TypedValue Γ target) (hv : TypedOperand Γ value) :
    Keeping Good Γ (fun Γ' result => TypedValue Γ' result ∧ result.type = target.type)
      (Reference.update how target value session) := by
  refine Keeping.guard h fun _ => ?_
  refine (express_keeping h (.binary how.op) [.ofValue target, value] ?_).bind
    fun result Γ' session' hp h' hresult => assign_keeping h' (TypedForm.extend hp ht) hresult.1
  intro operand hm
  rcases List.mem_pair.1 hm with rfl | rfl
  · exact ht
  · exact hv

/-- Gives a value a variable, if it can have one. -/
theorem materialize_keeping (h : Good Γ session) {value : Reference.Value} (hv : TypedValue Γ value) :
    Keeping Good Γ (fun Γ' answer => Gives Γ' answer.1 value.type false ∧ TypedValue Γ' answer.2 ∧
      answer.2.type = value.type) (Reference.materialize value session) := by
  obtain ⟨type, form⟩ := value
  cases id hv with
  | unbound hn =>
    exact (nextSymbol_keeping h ⟨type, false, hn⟩).bind fun symbol Γ' _ _ h' hg => Keeping.pure h' ⟨hg, .bound hg, rfl⟩
  | bound hg => exact Keeping.pure h ⟨hg, .bound hg, rfl⟩
  | member => exact Keeping.error h _
  | pending he htype hk =>
    refine (@assign_keeping _ _ h _ (.ofValue _) hv hv).bind fun bound Γ' session' _ h' hb => ?_
    obtain ⟨type', form'⟩ := bound
    obtain ⟨htyped, rfl⟩ := hb
    cases id htyped with
    | bound hg => exact Keeping.pure h' ⟨hg, htyped, rfl⟩
    | _ => exact Keeping.error h' _

/-- A lane is typed as one of its owner, and the owner keeps its type. -/
theorem lane_keeping (h : Good Γ session) {owner : Reference.Value} (ho : TypedValue Γ owner) (lane : Lane) :
    Keeping Good Γ (fun Γ' answer => (TypedValue Γ' answer.1 ∧ some answer.1.type = owner.type.lane?) ∧ TypedValue Γ' answer.2 ∧
      answer.2.type = owner.type) (Reference.lane owner lane session) := by
  unfold Reference.lane
  cases htype : owner.type.lane? with
  | none => exact Keeping.error h _
  | some type =>
    refine Keeping.guard h fun hvector => Keeping.guard h fun hlane => ?_
    refine (materialize_keeping h ho).bind fun answer Γ' session' _ h' hanswer => ?_
    obtain ⟨symbol, owner'⟩ := answer
    obtain ⟨hg, htyped, hsame⟩ := hanswer
    refine Keeping.pure h' ⟨⟨@TypedForm.member _ _ symbol owner'.type lane true ?_ ?_, rfl⟩, htyped, hsame⟩
    · rw [hsame]
      exact hg
    · rw [hsame]
      exact ⟨by simpa using hvector, not_le.1 hlane, htype⟩

/-- A component is typed as one of its owner, and the owner keeps its type. -/
theorem component_keeping (h : Good Γ session) {owner : Reference.Value} (ho : TypedValue Γ owner) (lane : Lane) :
    Keeping Good Γ (fun Γ' answer => (TypedValue Γ' answer.1 ∧ some answer.1.type = owner.type.lane?) ∧ TypedValue Γ' answer.2 ∧
      answer.2.type = owner.type) (Reference.component owner lane session) :=
  Keeping.guard h fun _ => lane_keeping h ho lane

/-- A sample is a typed value. -/
theorem sampleAt_keeping (h : Good Γ session) {buffer : Input} {coordinate : Reference.Value} (hb : TypedInput Γ buffer)
    (hc : TypedValue Γ coordinate) :
    Keeping Good Γ (fun Γ' result => TypedValue Γ' result) (Reference.sampleAt buffer coordinate session) := by
  refine Keeping.guard h fun _ => ?_
  refine (lane_keeping h hc .x).bind fun answer Γ₁ session₁ hp₁ h₁ hx => ?_
  obtain ⟨x, coordinate'⟩ := answer
  refine (lane_keeping h₁ hx.2.1 .y).bind fun answer Γ₂ session₂ hp₂ h₂ hy => ?_
  obtain ⟨y, coordinate''⟩ := answer
  refine (express_keeping h₂ .sample2d [.ofInput buffer, .ofValue x, .ofValue y] ?_).mono fun _ _ hresult => hresult.1
  intro operand hm
  rcases List.mem_cons.1 hm with rfl | hm
  · exact Gives.extend (hp₁.trans hp₂) hb
  · rcases List.mem_pair.1 hm with rfl | rfl
    · exact TypedForm.extend hp₂ hx.1.1
    · exact hy.1.1

end Statements

/-! ## Blocks, branches and loops -/

section Blocks

variable {Γ : Ledger} {session : Reference.Session}

/-- A guard in front of an action, on a session. -/
theorem guard_apply {α : Type} {c : Prop} [Decidable c] (e : TraceError) (f : Unit → Reference.Recorder α)
    (x : Reference.Recorder α) (session : Reference.Session) :
    (if c then throw e >>= f else x) session = if c then .error e session else x session := by
  split <;> rfl

/-- A check on a session. -/
theorem check_apply {c : Prop} [Decidable c] (e : TraceError) (session : Reference.Session) :
    (if c then throw e else pure () : Reference.Recorder Unit) session = if c then .error e session else .ok () session := by
  split <;> rfl

/-- A section is refused, or it is opened in the program and is not there yet. -/
theorem checkSection_cases (kind : NodeKind) (session : Reference.Session) :
    (∃ e, Reference.checkSection kind session = .error e session) ∨
      Reference.checkSection kind session = .ok () session ∧ session.current.kind = .program ∧
        kind ∉ session.tree.children.map Term.kind := by
  have hrun : Reference.checkSection kind session =
      if session.current.kind ≠ .program then .error (.misplacedSection kind session.current.kind) session
      else if (session.tree.children.map Term.kind).contains kind then .error (.duplicateSection kind) session
      else .ok () session := by
    rw [← check_apply]
    exact guard_apply _ _ _ session
  rw [hrun]
  by_cases hprogram : session.current.kind = .program
  · rw [if_neg (not_not.2 hprogram)]
    by_cases htaken : ((session.tree.children.map Term.kind).contains kind) = true
    · exact .inl ⟨_, if_pos htaken⟩
    · exact .inr ⟨if_neg htaken, hprogram, by simpa using htaken⟩
  · exact .inl ⟨_, if_pos hprogram⟩

/-- Opening a block without a symbol. -/
theorem openBlock_keeping (h : Good Γ session) {kind : NodeKind} {header : List Term}
    (hh : Header Γ { kind, type := .void } header)
    (hf : fits session.current.kind ((bodyOf session.current).map Term.kind) kind = true) :
    Keeping Good Γ anything (Reference.openBlock { kind, type := .void } header session) :=
  Keeping.pure (h.open hh hf (by rintro - _ ⟨⟩)) trivial

/-- To open a section keeps the session good. -/
theorem enter_keeping (h : Good Γ session) (kind : NodeKind) : Keeping Good Γ anything (Reference.enter kind session) := by
  have section_keeping : ∀ kind : NodeKind, kind = .constData ∨ kind = .outData ∨ kind = .main →
      Keeping Good Γ anything ((Reference.checkSection kind >>= fun _ => Reference.openBlock { kind, type := .void } [])
        session) := by
    intro kind hk
    rcases checkSection_cases kind session with ⟨e, he⟩ | ⟨hok, hprogram, hnew⟩
    · rw [bind_of_error he]
      exact Keeping.error h e
    · rw [bind_of_ok hok]
      -- the open block is the program itself, so its children are all the sections there are
      have htree : session.tree = session.current.term := by
        unfold Reference.Session.tree
        rw [h.spine.outer_eq_nil hprogram]
        rfl
      have hbody : bodyOf session.current = session.tree.children := by
        rw [bodyOf, htree, hprogram]
        rfl
      refine openBlock_keeping h (.plain (by rcases hk with rfl | rfl | rfl <;> decide)) ?_
      rw [hprogram, hbody]
      rcases hk with rfl | rfl | rfl <;> simpa [fits] using hnew
  cases kind with
  | constData => exact section_keeping .constData (by simp)
  | outData => exact section_keeping .outData (by simp)
  | main => exact section_keeping .main (by simp)
  | block => exact Keeping.statements h fun ha => openBlock_keeping h (.plain (by decide)) ha
  | _ => exact Keeping.error h _

/-- To close the innermost block keeps the session good: what it holds was good inside it. -/
theorem exit_keeping (h : Good Γ session) : Keeping Good Γ anything (Reference.exit session) := by
  rw [Reference.exit_eq]
  cases houter : session.outer with
  | nil => exact Keeping.error h _
  | cons parent outer => exact Keeping.pure (h.close houter) trivial

/-- To leave up to a block keeps the session good. -/
theorem leave_keeping (h : Good Γ session) (block : Reference.Block) :
    Keeping Good Γ anything (Reference.leave block session) :=
  Keeping.guard h fun _ => exit_keeping h

/-- Closing a conditional branch makes a place for an alternative to it. -/
theorem closeLink_cases (h : Good Γ session) {next : NodeKind} (hn : next = .elseIfBranch ∨ next = .elseBranch) :
    (∃ e, Reference.closeLink next session = .error e session) ∨
      ∃ session', Reference.closeLink next session = .ok () session' ∧ Good Γ session' ∧
        fits session'.current.kind ((bodyOf session'.current).map Term.kind) next = true := by
  have hrun : Reference.closeLink next session =
      if (!session.current.kind.isConditional) = true then .error (.danglingElse next) session
      else Reference.exit session :=
    guard_apply _ _ _ session
  rw [hrun]
  by_cases hcond : session.current.kind.isConditional = true
  · rw [if_neg (by simpa using hcond), Reference.exit_eq]
    cases houter : session.outer with
    | nil => exact .inl ⟨_, rfl⟩
    | cons parent outer =>
      have hgood := h.close houter
      have hlast : (parent.add session.current.term).children.getLast? = some session.current.term := by
        simp [Reference.Block.add]
      exact .inr ⟨_, rfl, hgood, hgood.spine.fits_of_follows hlast hcond hn⟩
  · exact .inl ⟨_, if_pos (by simpa using hcond)⟩

/-- An alternative is refused, or it fits where it is to stand. -/
theorem checkFollowsConditional_cases (h : Good Γ session) {next : NodeKind}
    (hn : next = .elseIfBranch ∨ next = .elseBranch) :
    (∃ e, Reference.checkFollowsConditional next session = .error e session) ∨
      Reference.checkFollowsConditional next session = .ok () session ∧
        fits session.current.kind ((bodyOf session.current).map Term.kind) next = true := by
  have hrun : Reference.checkFollowsConditional next session =
      if (!(session.current.children.getLast?.map Term.kind).any (·.isConditional)) = true then
        .error (.danglingElse next) session
      else .ok () session :=
    check_apply _ session
  rw [hrun]
  cases hl : session.current.children.getLast? with
  | none => exact .inl ⟨_, rfl⟩
  | some last =>
    by_cases hk : last.kind.isConditional = true
    · exact .inr ⟨if_neg (by simpa using hk), h.spine.fits_of_follows hl hk hn⟩
    · exact .inl ⟨_, if_pos (by simpa using hk)⟩

/-- A condition that is let pass is a truth value. -/
theorem checkCondition_keeping (h : Good Γ session) (condition : Reference.Operand) :
    Keeping Good Γ (fun _ _ => condition.type = .bool) (Reference.checkCondition condition session) := by
  refine (Keeping.check h).mono fun _ _ hcond => ?_
  cases condition with
  | literal => exact absurd rfl hcond
  | handle handle =>
    have hbool : (Reference.Operand.handle handle).isCondition = true := by simpa using hcond
    exact eq_of_beq hbool

/-- Opening a block that is entered under a condition. -/
theorem openConditional_keeping (h : Good Γ session) {kind : NodeKind} {condition : Reference.Operand}
    (hk : kind ∈ [.ifBranch, .elseIfBranch, .whileLoop]) (hc : TypedOperand Γ condition)
    (ht : condition.type = .bool)
    (hf : fits session.current.kind ((bodyOf session.current).map Term.kind) kind = true) :
    Keeping Good Γ anything (Reference.openConditional kind (some condition) session) := by
  refine Keeping.lowerAll h (by simpa using hc) fun header hs => ?_
  obtain ⟨term, _, hterm, hnil, rfl⟩ := List.forall₂_cons_left_iff.1 hs
  obtain rfl := List.forall₂_nil_left_iff.1 hnil
  obtain ⟨hexpr, htype⟩ := hterm.expression
  exact openBlock_keeping h (.condition hk hexpr (htype.trans ht)) hf

/-- To open an alternative without a condition where it fits keeps the session good. -/
theorem openElse_keeping (h : Good Γ session)
    (hf : fits session.current.kind ((bodyOf session.current).map Term.kind) .elseBranch = true) :
    Keeping Good Γ anything (Reference.openConditional .elseBranch none session) :=
  openBlock_keeping h (.plain (by decide)) hf

/-- A branch keeps the session good. -/
theorem beginIf_keeping (h : Good Γ session) {condition : Reference.Operand} (hc : TypedOperand Γ condition) :
    Keeping Good Γ anything (Reference.beginIf condition session) := by
  refine (checkCondition_keeping h condition).bind fun _ Γ' session' hp h' ht => ?_
  exact Keeping.statements h' fun ha => openConditional_keeping h' (by decide) (hc.extend hp) ht ha

/-- A loop keeps the session good. -/
theorem beginWhile_keeping (h : Good Γ session) {condition : Reference.Operand} (hc : TypedOperand Γ condition) :
    Keeping Good Γ anything (Reference.beginWhile condition session) := by
  refine (checkCondition_keeping h condition).bind fun _ Γ' session' hp h' ht => ?_
  exact Keeping.statements h' fun ha => openConditional_keeping h' (by decide) (hc.extend hp) ht ha

/-- An alternative with a condition keeps the session good. -/
theorem beginElseIf_keeping (h : Good Γ session) {condition : Reference.Operand} (hc : TypedOperand Γ condition) :
    Keeping Good Γ anything (Reference.beginElseIf condition session) := by
  refine (checkCondition_keeping h condition).bind fun _ Γ' session' hp h' ht => ?_
  rcases closeLink_cases h' (.inl rfl) with ⟨e, he⟩ | ⟨session'', hok, h'', hf⟩
  · rw [bind_of_error he]
    exact Keeping.error h' e
  · rw [bind_of_ok hok]
    exact openConditional_keeping h'' (by decide) (hc.extend hp) ht hf

/-- An alternative keeps the session good. -/
theorem beginElse_keeping (h : Good Γ session) : Keeping Good Γ anything (Reference.beginElse session) := by
  unfold Reference.beginElse
  rcases closeLink_cases h (.inr rfl) with ⟨e, he⟩ | ⟨session', hok, h', hf⟩
  · rw [bind_of_error he]
    exact Keeping.error h e
  · rw [bind_of_ok hok]
    exact openElse_keeping h' hf

/-- An alternative with a condition, opened after its branch was closed, keeps the session good. -/
theorem reopenElseIf_keeping (h : Good Γ session) {condition : Reference.Operand} (hc : TypedOperand Γ condition) :
    Keeping Good Γ anything (Reference.reopenElseIf condition session) := by
  refine (checkCondition_keeping h condition).bind fun _ Γ' session' hp h' ht => ?_
  rcases checkFollowsConditional_cases h' (.inl rfl) with ⟨e, he⟩ | ⟨hok, hf⟩
  · rw [bind_of_error he]
    exact Keeping.error h' e
  · rw [bind_of_ok hok]
    exact openConditional_keeping h' (by decide) (hc.extend hp) ht hf

/-- An alternative that is opened after its branch was closed keeps the session good. -/
theorem reopenElse_keeping (h : Good Γ session) : Keeping Good Γ anything (Reference.reopenElse session) := by
  unfold Reference.reopenElse
  rcases checkFollowsConditional_cases h (.inr rfl) with ⟨e, he⟩ | ⟨hok, hf⟩
  · rw [bind_of_error he]
    exact Keeping.error h e
  · rw [bind_of_ok hok]
    exact openElse_keeping h hf

/-- A counting loop keeps the session good, and its counter is a typed value. -/
theorem beginFor_keeping (h : Good Γ session) (name : String) {start stop : Reference.Operand}
    (hs : TypedOperand Γ start) (ht : TypedOperand Γ stop) :
    Keeping Good Γ (fun Γ' value => TypedValue Γ' value) (Reference.beginFor name start stop session) := by
  refine Keeping.guard h fun hint => Keeping.statements h fun ha => Keeping.guard h fun hname => ?_
  obtain ⟨hstart, hstop⟩ : start.type = .int ∧ stop.type = .int := by simpa using hint
  -- the symbol is new: whatever the recording mentions was given out before
  have hp : Γ <+: Γ ++ [⟨.int, false, rfl⟩] := List.prefix_append _ _
  have hnew : ∀ earlier ∈ session.tree.heads, (⟨session.symbolCount⟩ : SymbolId) ∉ earlier.mentions? := by
    intro earlier hm hmentions
    have := h.lt_length earlier hm _ hmentions
    rw [h.length] at this
    exact absurd this (by simp)
  have hgives : Gives (Γ ++ [⟨.int, false, rfl⟩]) ⟨session.symbolCount⟩ .int false := by
    rw [← h.length]
    exact gives_new Γ _
  have hgood := h.give ⟨.int, false, rfl⟩
  refine Keeping.later hp ?_
  show Keeping Good _ _ ((Reference.lowerAll [start, stop] >>= _) { session with symbolCount := session.symbolCount + 1 })
  refine Keeping.lowerAll hgood ?_ fun bounds hbounds => ?_
  · intro operand hm
    rcases List.mem_pair.1 hm with rfl | rfl
    · exact hs.extend hp
    · exact ht.extend hp
  · obtain ⟨first, _, hfirst, hrest, rfl⟩ := List.forall₂_cons_left_iff.1 hbounds
    obtain ⟨second, _, hsecond, hnil, rfl⟩ := List.forall₂_cons_left_iff.1 hrest
    obtain rfl := List.forall₂_nil_left_iff.1 hnil
    have hheader : Header _ ((Head.ofSymbol .forRange .void ⟨session.symbolCount⟩).named name) [first, second] :=
      .count hgives hfirst.expression.1 (hfirst.expression.2.trans hstart) hsecond.expression.1
        (hsecond.expression.2.trans hstop) (by simpa using hname)
    exact Keeping.pure (hgood.open hheader ha (by rintro - _ ⟨⟩; exact hnew)) (.bound hgives)

end Blocks

end ShaderTrace.Recording
