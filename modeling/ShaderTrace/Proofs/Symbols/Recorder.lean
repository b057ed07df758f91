import ShaderTrace.Proofs.Heads
import ShaderTrace.Proofs.Refinement.Recorder

/-!
# Symbols and their types

Nodes and handles mention symbols, and each of them has a type for the symbol that it mentions. No operation compares these
types. They agree all the same: there is a ledger with one type for each symbol that has been given out (`Marked`), and every
operation of the recorder keeps to it, on the nodes that belong to the program and on those that a refused operation left
behind. A value that has a symbol keeps it, and a value that gets one gets a new one (`ValueBecomes`).
-/

namespace ShaderTrace

/-- The symbol that a node mentions, and its type according to the node: a loop counts with an integer, and a lane carries the
type of its vector. -/
def Head.typing? (head : Head) : Option (SymbolId × ValueType) :=
  match head.payload with
  | .symbol symbol => some (symbol, if head.kind = .forRange then .int else head.type)
  | .member owner ownerType _ => some (owner, ownerType)
  | _ => none

def Value.typing? (value : Value) : Option (SymbolId × ValueType) :=
  match value.form with
  | .bound symbol => some (symbol, value.type)
  | .member owner ownerType _ _ => some (owner, ownerType)
  | _ => none

def Handle.typing? : Handle → Option (SymbolId × ValueType)
  | .value v => v.typing?
  | .input i => some (i.symbol, i.type)

def Operand.typing? : Operand → Option (SymbolId × ValueType)
  | .handle h => h.typing?
  | .literal _ => none

/-- A declaration mentions its symbol with its type. -/
theorem Head.typing?_declaration {kind : NodeKind} (h : kind ≠ .forRange) {type : ValueType} {symbol : SymbolId}
    {name : String} : ((Head.ofSymbol kind type symbol).named name).typing? = some (symbol, type) := by
  show some (symbol, if kind = .forRange then ValueType.int else type) = _
  rw [if_neg h]

namespace Symbols

/-! ## Ledgers -/

/-- The types of the symbols that have been given out, in order. -/
abbrev TypeLedger := List ValueType

/-- The ledger has this type for this symbol, if there is one. -/
def Listed (Γ : TypeLedger) (typing : Option (SymbolId × ValueType)) : Prop :=
  ∀ entry ∈ typing, Γ[entry.1.index]? = some entry.2

/-- The symbol, if there is one, was given out between the two ledgers. -/
structure New (Γ Γ' : TypeLedger) (typing : Option (SymbolId × ValueType)) : Prop where
  listed : Listed Γ' typing
  length_le : ∀ entry ∈ typing, Γ.length ≤ entry.1.index

/-- What becomes of a value that is assigned to, or whose lane is taken: it stays as it is, or it had no symbol and has a new one. -/
def ValueBecomes (Γ Γ' : TypeLedger) (old new : Value) : Prop :=
  new = old ∨ old.typing? = none ∧ new.isMember = false ∧ New Γ Γ' new.typing?

/-- The ledger has every symbol, and every node of the arena keeps to it. -/
structure Marked (Γ : TypeLedger) (session : Session) : Prop where
  length : Γ.length = session.symbolCount
  nodes : session.arena.AllHeads fun head => Listed Γ head.typing?

section Ledgers

variable {Γ Γ' Γ'' : TypeLedger} {typing : Option (SymbolId × ValueType)} {session : Session}

theorem listed_none (Γ : TypeLedger) : Listed Γ none := by rintro entry ⟨⟩

/-- What is listed stays so as the ledger grows. -/
theorem Listed.extend (hp : Γ <+: Γ') (h : Listed Γ typing) : Listed Γ' typing := by
  intro entry hm
  obtain ⟨rest, rfl⟩ := hp
  rw [List.getElem?_append_left (List.getElem?_eq_some_iff.1 (h entry hm)).1]
  exact h entry hm

/-- What is listed is a symbol of the ledger. -/
theorem Listed.lt_length (h : Listed Γ typing) : ∀ entry ∈ typing, entry.1.index < Γ.length :=
  fun entry hm => (List.getElem?_eq_some_iff.1 (h entry hm)).1

theorem new_none (Γ Γ' : TypeLedger) : New Γ Γ' none := ⟨listed_none Γ', by rintro entry ⟨⟩⟩

/-- What is new stays so as the ledger grows. -/
theorem New.extend (hp : Γ' <+: Γ'') (h : New Γ Γ' typing) : New Γ Γ'' typing := ⟨h.listed.extend hp, h.length_le⟩

/-- What is new since some point is new since any point before. -/
theorem New.since (hp : Γ <+: Γ') (h : New Γ' Γ'' typing) : New Γ Γ'' typing :=
  ⟨h.listed, fun entry hm => Nat.le_trans hp.length_le (h.length_le entry hm)⟩

section Values

variable {old new : Value}

/-- What became of a value stays so as the ledger grows. -/
theorem ValueBecomes.extend (hp : Γ' <+: Γ'') (h : ValueBecomes Γ Γ' old new) : ValueBecomes Γ Γ'' old new :=
  h.imp id fun h => ⟨h.1, h.2.1, h.2.2.extend hp⟩

/-- What became of a value since some point became of it since any point before. -/
theorem ValueBecomes.since (hp : Γ <+: Γ') (h : ValueBecomes Γ' Γ'' old new) : ValueBecomes Γ Γ'' old new :=
  h.imp id fun h => ⟨h.1, h.2.1, h.2.2.since hp⟩

/-- A value keeps to the ledger after it was assigned to. -/
theorem ValueBecomes.listed (hp : Γ <+: Γ') (h : ValueBecomes Γ Γ' old new) (ho : Listed Γ old.typing?) :
    Listed Γ' new.typing? := by
  rcases h with rfl | ⟨-, -, h⟩
  · exact ho.extend hp
  · exact h.listed

end Values

end Ledgers

/-! ## Nodes -/

section Nodes

variable {Γ : TypeLedger} {session : Session}

/-- What only looks at the arena keeps the ledger. -/
theorem ofArena_keeping {α : Type} (h : Marked Γ session) (x : Except ArenaError α) :
    Keeping Marked Γ (fun _ a => x = .ok a) (Recorder.ofArena x session) := by
  cases x with
  | ok a => exact .pure h rfl
  | error e => exact .error h _

theorem find_keeping (h : Marked Γ session) (id : NodeId) : Keeping Marked Γ anything (Recorder.find id session) :=
  (ofArena_keeping h (session.arena.find id)).mono fun _ _ _ => trivial

/-- A new node keeps the ledger if what it mentions is listed. -/
theorem alloc_keeping (h : Marked Γ session) (head : Head) (hh : Listed Γ head.typing?) :
    Keeping Marked Γ anything (Recorder.alloc head session) :=
  .pure ⟨h.length, h.nodes.alloc hh⟩ trivial

/-- The open blocks and the names taken say nothing about symbols. -/
theorem modify_keeping (h : Marked Γ session) (f : Session → Session) (ha : ∀ session, (f session).arena = session.arena)
    (hc : ∀ session, (f session).symbolCount = session.symbolCount) :
    Keeping Marked Γ anything ((modify f : Recorder Unit) session) :=
  ⟨Γ, List.prefix_rfl, ⟨by rw [hc]; exact h.length, by rw [ha]; exact h.nodes⟩, trivial⟩

theorem attach_keeping (h : Marked Γ session) (parent child : NodeId) :
    Keeping Marked Γ anything (Recorder.attach parent child session) := by
  refine (ofArena_keeping h (session.arena.checkAttach parent child)).bind fun _ Γ' session' _ h' _ => ?_
  exact .pure ⟨h'.length, h'.nodes.link parent child⟩ trivial

/-- To copy a tree keeps the ledger: the copy mentions what the tree does. -/
theorem clone_keeping (h : Marked Γ session) (id : NodeId) : Keeping Marked Γ anything (Recorder.clone id session) := by
  show Keeping Marked Γ anything ((Recorder.ofArena (session.arena.clone id) >>= fun answer => _) session)
  cases hc : session.arena.clone id with
  | error e => exact .error h _
  | ok answer => exact .pure ⟨h.length, h.nodes.clone hc⟩ trivial

/-- A new symbol may have any type. -/
theorem nextSymbol_keeping (h : Marked Γ session) (type : ValueType) :
    Keeping Marked Γ (fun Γ' symbol => New Γ Γ' (some (symbol, type))) (Recorder.nextSymbol session) := by
  refine ⟨Γ ++ [type], List.prefix_append _ _, ⟨by simp [h.length], ?_⟩, ?_, ?_⟩
  · exact fun id node hn => (h.nodes id node hn).extend (List.prefix_append _ _)
  · rintro _ ⟨⟩
    simp [← h.length]
  · rintro _ ⟨⟩
    exact h.length.le

end Nodes

/-! ## Expressions -/

section Expressions

variable {Γ : TypeLedger} {session : Session}

/-- To lower a value keeps the ledger if what it mentions is listed. -/
theorem lowerValue_keeping (h : Marked Γ session) {value : Value} (hv : Listed Γ value.typing?) :
    Keeping Marked Γ anything (Recorder.lowerValue value session) := by
  obtain ⟨type, form⟩ := value
  cases form with
  | unbound => exact .error h _
  | bound symbol => exact alloc_keeping h _ hv
  | member owner ownerType lane writable => exact alloc_keeping h _ hv
  | pending node =>
    refine (find_keeping h node).bind fun found Γ' session' _ h' _ => ?_
    by_cases hp : found.parent.isSome = true
    · rw [if_pos hp]
      exact clone_keeping h' node
    · rw [if_neg hp]
      exact .pure h' trivial

/-- To lower an operand keeps the ledger if what it mentions is listed. -/
theorem lower_keeping (h : Marked Γ session) {operand : Operand} (ho : Listed Γ operand.typing?) :
    Keeping Marked Γ anything (Recorder.lower operand session) := by
  cases operand with
  | literal value => exact alloc_keeping h _ (listed_none Γ)
  | handle handle =>
    cases handle with
    | value value => exact lowerValue_keeping h ho
    | input input => exact alloc_keeping h _ ho

/-- To attach operands keeps the ledger if what they mention is listed. -/
theorem attachOperands_keeping (parent : NodeId) {operands : List Operand} : ∀ {Γ : TypeLedger} {session : Session},
    Marked Γ session → (∀ operand ∈ operands, Listed Γ operand.typing?) →
      Keeping Marked Γ anything (Recorder.attachOperands parent operands session) := by
  induction operands with
  | nil => intro Γ session h _; exact .pure h trivial
  | cons operand operands ih =>
    intro Γ session h ho
    have hfirst : Keeping Marked Γ anything (Recorder.attachOperand parent operand session) :=
      (lower_keeping h (ho operand List.mem_cons_self)).bind fun _ _ _ _ h' _ => attach_keeping h' parent _
    exact hfirst.bind fun _ _ _ hp h' _ => ih h' fun other hm => (ho other (List.mem_cons_of_mem _ hm)).extend hp

theorem checkIndices_keeping (h : Marked Γ session) (operands : List Operand) :
    Keeping Marked Γ anything (Recorder.checkIndices operands session) := by
  fun_induction Recorder.checkIndices operands with
  | case1 => exact .pure h trivial
  | case2 => exact .error h _
  | case3 _ _ _ _ ih => exact ih
  | case4 _ _ _ ih => exact ih

/-- The result of an operation mentions no symbol by itself. -/
theorem express_keeping (h : Marked Γ session) (operator : Operator) {operands : List Operand}
    (ho : ∀ operand ∈ operands, Listed Γ operand.typing?) :
    Keeping Marked Γ (fun Γ' value => New Γ Γ' value.typing?) (Recorder.express operator operands session) := by
  unfold Recorder.express
  cases operator.type? operands with
  | none => exact .error h _
  | some type =>
    have hcheck : Keeping Marked Γ anything (Recorder.checkOperands operator operands session) := by
      cases operator with
      | sample1d | sample2d => exact checkIndices_keeping h _
      | _ => exact .pure h trivial
    have hchildren : ∀ operand ∈ Recorder.childrenOf operator operands, Listed Γ operand.typing? := by
      cases operator with
      | call builtin =>
        intro operand hm
        rcases List.mem_cons.1 hm with rfl | hm
        · exact listed_none Γ
        · exact ho operand hm
      | _ => exact ho
    refine hcheck.bind fun _ Γ₁ _ hp₁ h₁ _ => ?_
    refine (alloc_keeping h₁ { kind := operator.kind, type } (listed_none Γ₁)).bind fun node Γ₂ _ hp₂ h₂ _ => ?_
    refine (attachOperands_keeping node h₂ fun operand hm => (hchildren operand hm).extend (hp₁.trans hp₂)).bind
      fun _ Γ₃ _ _ h₃ _ => ?_
    exact .pure h₃ (new_none Γ Γ₃)

end Expressions

/-! ## Declarations and assignments -/

section Statements

variable {Γ : TypeLedger} {session : Session}

theorem checkStatements_keeping (h : Marked Γ session) :
    Keeping Marked Γ anything (Recorder.checkStatements session) := by
  rw [Refinement.checkStatements_eq]
  split
  · exact .pure h trivial
  · exact .error h _

/-- A declaration brings a new symbol of its type. -/
theorem declare_keeping (h : Marked Γ session) {kind : NodeKind} (hk : kind ≠ .forRange) (sectionKind : NodeKind)
    (type : ValueType) (name : String) :
    Keeping Marked Γ (fun Γ' symbol => New Γ Γ' (some (symbol, type)))
      (Recorder.declare kind sectionKind type name session) := by
  refine Keeping.guard h fun _ => Keeping.guard h fun _ => Keeping.guard h fun _ => ?_
  refine (modify_keeping h (fun session => { session with names := session.names ++ [name] }) (fun _ => rfl)
    fun _ => rfl).bind fun _ Γ₀ _ hp₀ h₀ _ => ?_
  refine (nextSymbol_keeping h₀ type).bind fun symbol Γ₁ _ hp₁ h₁ hnew => ?_
  have hhead : Listed Γ₁ ((Head.ofSymbol kind type symbol).named name).typing? := by
    rw [Head.typing?_declaration hk]
    exact hnew.listed
  refine (alloc_keeping h₁ _ hhead).bind fun node Γ₂ _ hp₂ h₂ _ => ?_
  refine (attach_keeping h₂ _ node).bind fun _ Γ₃ _ hp₃ h₃ _ => ?_
  exact .pure h₃ ((hnew.since hp₀).extend (hp₂.trans hp₃))

/-- An input brings a new symbol. -/
theorem input_keeping (h : Marked Γ session) (type : ValueType) (name : String) :
    Keeping Marked Γ (fun Γ' input => New Γ Γ' (Handle.input input).typing?) (Recorder.input type name session) := by
  refine Keeping.guard h fun _ => ?_
  exact (declare_keeping h (by decide) .constData type name).bind fun symbol Γ' _ _ h' hnew => .pure h' hnew

/-- An output brings a new symbol. -/
theorem output_keeping (h : Marked Γ session) (type : ValueType) (name : String) :
    Keeping Marked Γ (fun Γ' value => New Γ Γ' value.typing?) (Recorder.output type name session) := by
  refine Keeping.guard h fun _ => ?_
  exact (declare_keeping h (by decide) .outData type name).bind fun symbol Γ' _ _ h' hnew => .pure h' hnew

/-- A target without a symbol gets a new one. -/
theorem lowerTarget_keeping (h : Marked Γ session) {target : Value} (ht : Listed Γ target.typing?) :
    Keeping Marked Γ (fun Γ' answer => ValueBecomes Γ Γ' target answer.2) (Recorder.lowerTarget target session) := by
  obtain ⟨type, form⟩ := target
  have fresh : ∀ form : ValueForm, Value.typing? ⟨type, form⟩ = none →
      Keeping Marked Γ (fun Γ' answer => ValueBecomes Γ Γ' ⟨type, form⟩ answer.2) ((do
        let symbol ← Recorder.nextSymbol
        return (← Recorder.alloc (.ofSymbol .var type symbol), ⟨type, .bound symbol⟩) :
        Recorder (NodeId × Value)) session) := by
    intro form hf
    refine (nextSymbol_keeping h type).bind fun symbol Γ₁ _ _ h₁ hnew => ?_
    refine (alloc_keeping h₁ (.ofSymbol .var type symbol) hnew.listed).bind fun node Γ₂ _ hp₂ h₂ _ => ?_
    exact .pure h₂ (.inr ⟨hf, rfl, hnew.extend hp₂⟩)
  cases form with
  | unbound => exact fresh .unbound rfl
  | pending node => exact fresh (.pending node) rfl
  | bound symbol =>
    exact (alloc_keeping h (.ofSymbol .var type symbol) ht).bind fun _ _ _ _ h' _ => .pure h' (.inl rfl)
  | member owner ownerType lane writable =>
    exact (alloc_keeping h (.ofMember type owner ownerType lane) ht).bind fun _ _ _ _ h' _ => .pure h' (.inl rfl)

theorem checkWritable_keeping (h : Marked Γ session) (target : Value) :
    Keeping Marked Γ anything (Recorder.checkWritable target session) := by
  obtain ⟨type, form⟩ := target
  cases form with
  | member owner ownerType lane writable =>
    cases writable with
    | true => exact .pure h trivial
    | false => exact .error h _
  | _ => exact .pure h trivial

/-- To append a statement keeps the ledger. -/
theorem append_keeping (h : Marked Γ session) (statement : NodeId) :
    Keeping Marked Γ anything (Recorder.append statement session) :=
  (checkStatements_keeping h).bind fun _ _ session' _ h' _ => attach_keeping h' session'.current.id statement

/-- To assign leaves the target as it is, or gives it a new symbol. -/
theorem assign_keeping (h : Marked Γ session) {target : Value} (value : Operand) (ht : Listed Γ target.typing?)
    (hv : Listed Γ value.typing?) :
    Keeping Marked Γ (fun Γ' result => ValueBecomes Γ Γ' target result) (Recorder.assign target value session) := by
  refine Keeping.guard h fun _ => (checkStatements_keeping h).bind fun _ Γ₁ _ hp₁ h₁ _ => ?_
  refine (checkWritable_keeping h₁ target).bind fun _ Γ₂ _ hp₂ h₂ _ => ?_
  refine (lower_keeping h₂ (hv.extend (hp₁.trans hp₂))).bind fun right Γ₃ _ hp₃ h₃ _ => ?_
  have hp : Γ <+: Γ₃ := hp₁.trans (hp₂.trans hp₃)
  refine (lowerTarget_keeping h₃ (ht.extend hp)).bind fun answer Γ₄ _ hp₄ h₄ hfollows => ?_
  obtain ⟨left, target'⟩ := answer
  refine (alloc_keeping h₄ { kind := .assignment, type := target'.type } (listed_none Γ₄)).bind fun node Γ₅ _ hp₅ h₅ _ => ?_
  refine (attach_keeping h₅ node left).bind fun _ Γ₆ _ hp₆ h₆ _ => ?_
  refine (attach_keeping h₆ node right).bind fun _ Γ₇ _ hp₇ h₇ _ => ?_
  refine (append_keeping h₇ node).bind fun _ Γ₈ _ hp₈ h₈ _ => ?_
  exact .pure h₈ ((hfollows.since hp).extend (hp₅.trans (hp₆.trans (hp₇.trans hp₈))))

/-- To update leaves the target as it is, or gives it a new symbol. -/
theorem update_keeping (h : Marked Γ session) (how : Update) {target : Value} {value : Operand}
    (ht : Listed Γ target.typing?) (hv : Listed Γ value.typing?) :
    Keeping Marked Γ (fun Γ' result => ValueBecomes Γ Γ' target result) (Recorder.update how target value session) := by
  refine Keeping.guard h fun _ => ?_
  have hoperands : ∀ operand ∈ [Operand.ofValue target, value], Listed Γ operand.typing? := by
    intro operand hm
    rcases List.mem_pair.1 hm with rfl | rfl
    · exact ht
    · exact hv
  refine (express_keeping h (.binary how.op) hoperands).bind fun result Γ' _ hp h' hresult => ?_
  exact (assign_keeping h' (.ofValue result) (ht.extend hp) hresult.listed).mono fun _ _ hf => hf.since hp

/-- A value that is not bound yet gets a new symbol. -/
theorem ValueBecomes.of_unbound {Γ Γ' : TypeLedger} {type : ValueType} {new : Value} (h : ValueBecomes Γ Γ' (.unbound type) new) :
    New Γ Γ' new.typing? := by
  rcases h with rfl | ⟨-, -, h⟩
  · exact new_none Γ Γ'
  · exact h

/-- A variable has a new symbol. -/
theorem var_keeping (h : Marked Γ session) {value : Operand} (hv : Listed Γ value.typing?) :
    Keeping Marked Γ (fun Γ' result => New Γ Γ' result.typing?) (Recorder.var value session) :=
  (@assign_keeping Γ session h (.unbound value.type) value (listed_none Γ) hv).mono fun _ _ hf => hf.of_unbound

/-- A value is materialized under the symbol that it has afterwards. -/
theorem materialize_keeping (h : Marked Γ session) {value : Value} (hv : Listed Γ value.typing?) :
    Keeping Marked Γ (fun Γ' answer => answer.2.form = .bound answer.1 ∧ ValueBecomes Γ Γ' value answer.2)
      (Recorder.materialize value session) := by
  obtain ⟨type, form⟩ := value
  cases form with
  | bound symbol => exact .pure h ⟨rfl, .inl rfl⟩
  | member => exact .error h _
  | unbound =>
    exact (nextSymbol_keeping h type).bind fun symbol Γ' _ _ h' hnew => .pure h' ⟨rfl, .inr ⟨rfl, rfl, hnew⟩⟩
  | pending node =>
    refine (assign_keeping h (.ofValue ⟨type, .pending node⟩) hv hv).bind fun bound Γ' session' _ h' hf => ?_
    obtain ⟨type', form'⟩ := bound
    cases form' with
    | bound symbol => exact .pure h' ⟨rfl, hf⟩
    | unbound | pending | member => exact .error h' _

/-- A lane mentions the symbol of its vector, which has one afterwards. -/
theorem lane_keeping (h : Marked Γ session) {owner : Value} (ho : Listed Γ owner.typing?) (lane : Lane) :
    Keeping Marked Γ (fun Γ' answer => answer.1.isMember = true ∧ answer.1.typing? = answer.2.typing? ∧
      ValueBecomes Γ Γ' owner answer.2) (Recorder.lane owner lane session) := by
  unfold Recorder.lane
  cases owner.type.lane? with
  | none => exact .error h _
  | some type =>
    refine Keeping.guard h fun _ => Keeping.guard h fun _ => ?_
    refine (materialize_keeping h ho).bind fun answer Γ' _ _ h' ha => ?_
    obtain ⟨symbol, owner'⟩ := answer
    obtain ⟨hform, hfollows⟩ := ha
    refine .pure h' ⟨rfl, ?_, hfollows⟩
    rw [Value.typing?, Value.typing?, hform]

/-- A component mentions the symbol of its owner, which stays as it is or gets a new one. -/
theorem component_keeping (h : Marked Γ session) {owner : Value} (ho : Listed Γ owner.typing?) (lane : Lane) :
    Keeping Marked Γ (fun Γ' answer => answer.1.isMember = true ∧ answer.1.typing? = answer.2.typing? ∧
      ValueBecomes Γ Γ' owner answer.2) (Recorder.component owner lane session) :=
  Keeping.guard h fun _ => lane_keeping h ho lane

/-- A sample has no symbol but a new one. -/
theorem sampleAt_keeping (h : Marked Γ session) {buffer : Input} {coordinate : Value}
    (hb : Listed Γ (Handle.input buffer).typing?) (hc : Listed Γ coordinate.typing?) :
    Keeping Marked Γ (fun Γ' value => New Γ Γ' value.typing?) (Recorder.sampleAt buffer coordinate session) := by
  refine Keeping.guard h fun _ => ?_
  refine (lane_keeping h hc .x).bind fun answer Γ₁ _ hp₁ h₁ hx => ?_
  obtain ⟨x, first⟩ := answer
  obtain ⟨-, hx, hfirst⟩ : x.isMember = true ∧ x.typing? = first.typing? ∧ ValueBecomes Γ Γ₁ coordinate first := hx
  have hfirst := hfirst.listed hp₁ hc
  refine (lane_keeping h₁ hfirst .y).bind fun answer Γ₂ _ hp₂ h₂ hy => ?_
  obtain ⟨y, second⟩ := answer
  obtain ⟨-, hy, hsecond⟩ : y.isMember = true ∧ y.typing? = second.typing? ∧ ValueBecomes Γ₁ Γ₂ first second := hy
  have hoperands : ∀ operand ∈ [Operand.ofInput buffer, .ofValue x, .ofValue y], Listed Γ₂ operand.typing? := by
    intro operand hm
    rcases List.mem_cons.1 hm with rfl | hm
    · exact hb.extend (hp₁.trans hp₂)
    · rcases List.mem_pair.1 hm with rfl | rfl
      · exact (hx ▸ hfirst : Listed Γ₁ x.typing?).extend hp₂
      · exact (hy ▸ hsecond.listed hp₂ hfirst : Listed Γ₂ y.typing?)
  exact (express_keeping h₂ .sample2d hoperands).mono fun _ _ hnew => hnew.since (hp₁.trans hp₂)

end Statements

/-! ## Blocks, branches and loops -/

section Blocks

variable {Γ : TypeLedger} {session : Session}

theorem openBlock_keeping (h : Marked Γ session) (block : OpenBlock) :
    Keeping Marked Γ anything (Recorder.openBlock block session) :=
  (attach_keeping h session.current.id block.id).bind fun _ _ _ _ h' _ =>
    modify_keeping h' _ (fun _ => rfl) fun _ => rfl

/-- To look at the kinds of the children keeps the ledger. -/
theorem childKinds_keeping (h : Marked Γ session) (id : NodeId) :
    Keeping Marked Γ anything (Recorder.childKinds id session) := by
  have hall : ∀ (ids : List NodeId) {Γ : TypeLedger} {session : Session}, Marked Γ session →
      Keeping Marked Γ anything ((ids.mapM fun child => return (← Recorder.find child).kind : Recorder (List NodeKind))
        session) := by
    intro ids
    induction ids with
    | nil => intro Γ session h; exact .pure h trivial
    | cons id ids ih =>
      intro Γ session h
      rw [List.mapM_cons]
      have hfirst : Keeping Marked Γ anything ((do return (← Recorder.find id).kind : Recorder NodeKind) session) :=
        (find_keeping h id).bind fun _ _ _ _ h' _ => .pure h' trivial
      exact hfirst.bind fun _ _ _ _ h' _ => (ih h').bind fun _ _ _ _ h'' _ => .pure h'' trivial
  exact (find_keeping h id).bind fun node _ _ _ h' _ => hall node.children h'

theorem checkSection_keeping (h : Marked Γ session) (kind : NodeKind) :
    Keeping Marked Γ anything (Recorder.checkSection kind session) := by
  refine Keeping.guard h fun _ => (childKinds_keeping h Session.root).bind fun kinds _ _ _ h' _ => ?_
  exact (Keeping.check h').mono fun _ _ _ => trivial

/-- To open a section keeps the ledger. -/
theorem enter_keeping (h : Marked Γ session) (kind : NodeKind) : Keeping Marked Γ anything (Recorder.enter kind session) := by
  have opened : ∀ {Γ : TypeLedger} {session : Session}, Marked Γ session → Keeping Marked Γ anything ((do
      let id ← Recorder.alloc { kind, type := .void }
      Recorder.openBlock ⟨id, kind⟩
      return id : Recorder NodeId) session) := fun h =>
    (alloc_keeping h { kind, type := .void } (listed_none _)).bind fun _ _ _ _ h' _ => (openBlock_keeping h' _).bind fun _ _ _ _ h'' _ =>
      .pure h'' trivial
  cases kind with
  | constData | outData | main => exact (checkSection_keeping h _).bind fun _ _ _ _ h' _ => opened h'
  | block => exact (checkStatements_keeping h).bind fun _ _ _ _ h' _ => opened h'
  | _ => exact .error h _

/-- To close the innermost block keeps the ledger. -/
theorem exit_keeping (h : Marked Γ session) : Keeping Marked Γ anything (Recorder.exit session) := by
  rw [Refinement.exit_eq]
  cases session.outer with
  | nil => exact .error h _
  | cons => exact ⟨Γ, List.prefix_rfl, ⟨h.length, h.nodes⟩, trivial⟩

/-- To leave up to a block keeps the ledger. -/
theorem leave_keeping (h : Marked Γ session) (block : OpenBlock) :
    Keeping Marked Γ anything (Recorder.leave block session) :=
  Keeping.guard h fun _ => (exit_keeping h).bind fun _ _ _ _ h' _ => .pure h' trivial

theorem checkCondition_keeping (h : Marked Γ session) (condition : Operand) :
    Keeping Marked Γ anything (Recorder.checkCondition condition session) :=
  (Keeping.check h).mono fun _ _ _ => trivial

/-- To open a block keeps the ledger if what its condition mentions is listed. -/
theorem openConditional_keeping (h : Marked Γ session) (kind : NodeKind) {condition : Option Operand}
    (hc : ∀ operand ∈ condition, Listed Γ operand.typing?) :
    Keeping Marked Γ anything (Recorder.openConditional kind condition session) := by
  refine (alloc_keeping h { kind, type := .void } (listed_none Γ)).bind fun id Γ₁ _ hp₁ h₁ _ => ?_
  refine (attachOperands_keeping id h₁ ?_).bind fun _ Γ₂ _ _ h₂ _ => openBlock_keeping h₂ _
  intro operand hm
  exact (hc operand (Option.mem_toList.1 hm)).extend hp₁

/-- To close a branch before an alternative keeps the ledger. -/
theorem closeLink_keeping (h : Marked Γ session) (next : NodeKind) :
    Keeping Marked Γ anything (Recorder.closeLink next session) :=
  Keeping.guard h fun _ => (exit_keeping h).bind fun _ _ _ _ h' _ => .pure h' trivial

theorem checkFollowsConditional_keeping (h : Marked Γ session) (next : NodeKind) :
    Keeping Marked Γ anything (Recorder.checkFollowsConditional next session) := by
  refine (find_keeping h session.current.id).bind fun block Γ' session' _ h' _ => ?_
  have checked : ∀ (previous : Option NodeKind) {Γ : TypeLedger} {session : Session}, Marked Γ session →
      Keeping Marked Γ anything ((if (!previous.any (·.isConditional)) = true then throw (.danglingElse next)
        else pure () : Recorder Unit) session) :=
    fun _ _ _ h => (Keeping.check h).mono fun _ _ _ => trivial
  cases block.children.getLast? with
  | none => exact checked none h'
  | some id => exact (find_keeping h' id).bind fun found _ _ _ h'' _ => checked (some found.kind) h''

section Conditions

variable {condition : Operand}

/-- To open a block under a condition keeps the ledger. -/
theorem openUnder_keeping (h : Marked Γ session) (hc : Listed Γ condition.typing?) (kind : NodeKind) :
    Keeping Marked Γ anything (Recorder.openConditional kind (some condition) session) :=
  openConditional_keeping h kind (by rintro _ ⟨⟩; exact hc)

/-- A branch keeps the ledger, and so do the loop and the alternatives below. -/
theorem beginIf_keeping (h : Marked Γ session) (hc : Listed Γ condition.typing?) :
    Keeping Marked Γ anything (Recorder.beginIf condition session) :=
  (checkCondition_keeping h condition).bind fun _ _ _ hp₁ h₁ _ => (checkStatements_keeping h₁).bind fun _ _ _ hp₂ h₂ _ =>
    openUnder_keeping h₂ (hc.extend (hp₁.trans hp₂)) .ifBranch

theorem beginWhile_keeping (h : Marked Γ session) (hc : Listed Γ condition.typing?) :
    Keeping Marked Γ anything (Recorder.beginWhile condition session) :=
  (checkCondition_keeping h condition).bind fun _ _ _ hp₁ h₁ _ => (checkStatements_keeping h₁).bind fun _ _ _ hp₂ h₂ _ =>
    openUnder_keeping h₂ (hc.extend (hp₁.trans hp₂)) .whileLoop

theorem beginElseIf_keeping (h : Marked Γ session) (hc : Listed Γ condition.typing?) :
    Keeping Marked Γ anything (Recorder.beginElseIf condition session) :=
  (checkCondition_keeping h condition).bind fun _ _ _ hp₁ h₁ _ => (closeLink_keeping h₁ _).bind fun _ _ _ hp₂ h₂ _ =>
    openUnder_keeping h₂ (hc.extend (hp₁.trans hp₂)) .elseIfBranch

theorem reopenElseIf_keeping (h : Marked Γ session) (hc : Listed Γ condition.typing?) :
    Keeping Marked Γ anything (Recorder.reopenElseIf condition session) :=
  (checkCondition_keeping h condition).bind fun _ _ _ hp₁ h₁ _ =>
    (checkFollowsConditional_keeping h₁ _).bind fun _ _ _ hp₂ h₂ _ =>
      openUnder_keeping h₂ (hc.extend (hp₁.trans hp₂)) .elseIfBranch

end Conditions

theorem beginElse_keeping (h : Marked Γ session) : Keeping Marked Γ anything (Recorder.beginElse session) :=
  (closeLink_keeping h _).bind fun _ _ _ _ h' _ => openConditional_keeping h' .elseBranch (by rintro _ ⟨⟩)

theorem reopenElse_keeping (h : Marked Γ session) : Keeping Marked Γ anything (Recorder.reopenElse session) :=
  (checkFollowsConditional_keeping h _).bind fun _ _ _ _ h' _ => openConditional_keeping h' .elseBranch (by rintro _ ⟨⟩)

/-- The symbol that a loop counts with is new, and an integer. -/
theorem beginFor_keeping (h : Marked Γ session) (name : String) {start stop : Operand} (hs : Listed Γ start.typing?)
    (ht : Listed Γ stop.typing?) :
    Keeping Marked Γ (fun Γ' value => New Γ Γ' value.typing?) (Recorder.beginFor name start stop session) := by
  refine Keeping.guard h fun _ => (checkStatements_keeping h).bind fun _ Γ₁ _ hp₁ h₁ _ => Keeping.guard h₁ fun _ => ?_
  refine (nextSymbol_keeping h₁ .int).bind fun symbol Γ₂ _ hp₂ h₂ hnew => ?_
  refine (alloc_keeping h₂ ((Head.ofSymbol .forRange .void symbol).named name) hnew.listed).bind
    fun id Γ₃ _ hp₃ h₃ _ => ?_
  have hp : Γ <+: Γ₃ := hp₁.trans (hp₂.trans hp₃)
  have hbounds : ∀ operand ∈ [start, stop], Listed Γ₃ operand.typing? := by
    intro operand hm
    rcases List.mem_pair.1 hm with rfl | rfl
    · exact hs.extend hp
    · exact ht.extend hp
  refine (attachOperands_keeping id h₃ hbounds).bind fun _ Γ₄ _ hp₄ h₄ _ => ?_
  refine (openBlock_keeping h₄ ⟨id, .forRange⟩).bind fun _ Γ₅ _ hp₅ h₅ _ => ?_
  exact .pure h₅ ((hnew.since hp₁).extend (hp₃.trans (hp₄.trans hp₅)))

end Blocks

end Symbols

end ShaderTrace
