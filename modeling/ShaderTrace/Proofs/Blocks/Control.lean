import ShaderTrace.Proofs.Blocks.Balance

/-!
# What a refused call does to the open blocks and the symbols

A call that is refused leaves the open blocks and the number of symbols as they were, with two exceptions. An alternative closes
the branch before it, and a counted loop takes the symbol of its counter, before the condition or the bounds are read; if one of
these has no value yet, the call stops halfway (`refused_call_control`). By value, a call that does not stop halfway leaves
nothing behind at all (`call_sparing`).
-/

namespace ShaderTrace.Blocks

open Refinement (Frame Matches Later Related SameRegisters)
open Script (Arg Call StepError Machine)
open Symbols (Act performAll)

/-! ## Actions that leave nothing behind -/

/-- If the action was refused, the reason and the session that it left behind are as `left` says. -/
def WhenRefused {α : Type} (left : TraceError → Reference.Session → Prop) :
    EStateM.Result TraceError Reference.Session α → Prop :=
  Leaves anything left

/-- The session that is left behind is the one that the action was begun in. -/
def untouched (session : Reference.Session) : TraceError → Reference.Session → Prop := fun _ session' => session' = session

section Actions

variable {α β : Type} {x : Reference.Recorder α} {f : α → Reference.Recorder β} {session : Reference.Session}
  {left : TraceError → Reference.Session → Prop}

/-- An action that is never refused may come last. -/
theorem WhenRefused.last (h : WhenRefused left (x session))
    (hf : ∀ a session', x session = .ok a session' → ∃ b session'', f a session' = .ok b session'') :
    WhenRefused left ((x >>= f) session) := by
  refine Leaves.bind h (fun _ _ => id) fun a session' hx _ => ?_
  obtain ⟨b, session'', hb⟩ := hf a session' hx
  rw [hb]
  trivial

/-- An action that changes nothing may come first. -/
theorem Quiet.first (hx : Quiet x) (hf : ∀ a, x session = .ok a session → WhenRefused (untouched session) (f a session)) :
    WhenRefused (untouched session) ((x >>= f) session) :=
  hx.before (fun _ _ => rfl) hf

/-- An action that changes nothing leaves the session as it was. -/
theorem Quiet.untouched (h : Quiet x) : WhenRefused (untouched session) (x session) :=
  (h session).mono (fun _ _ _ => trivial) fun _ _ he => he.1

end Actions

section Recorders

variable {session : Reference.Session}

/-- A declaration is checked before the name and the symbol are taken. -/
theorem declare_untouched (kind sectionKind : NodeKind) (type : ValueType) (name : String) :
    WhenRefused (untouched session) (Reference.declare kind sectionKind type name session) :=
  current_quiet.first fun _ _ => .guard (fun _ => rfl) fun _ => .guard (fun _ => rfl) fun _ => .guard (fun _ => rfl) fun _ =>
    trivial

/-- A refused declaration of an input leaves nothing behind. -/
theorem input_untouched (type : ValueType) (name : String) :
    WhenRefused (untouched session) (Reference.input type name session) :=
  .guard (fun _ => rfl) fun _ => (declare_untouched .constVar .constData type name).last fun _ _ _ => ⟨_, _, rfl⟩

/-- A refused declaration of an output leaves nothing behind. -/
theorem output_untouched (type : ValueType) (name : String) :
    WhenRefused (untouched session) (Reference.output type name session) :=
  .guard (fun _ => rfl) fun _ => (declare_untouched .outVar .outData type name).last fun _ _ _ => ⟨_, _, rfl⟩

/-- Where statements may stand, one can be added. -/
theorem append_eq_ok (statement : Term) (h : session.current.kind.acceptsStatements = true) :
    Reference.append statement session = .ok () { session with current := session.current.add statement } := by
  have hcheck : Reference.checkStatements session = .ok () session := by rw [Reference.checkStatements_eq, if_pos h]
  exact bind_of_ok hcheck

/-- A target takes its symbol last, when the statement can no longer be refused. -/
theorem assign_untouched (target : Reference.Value) (value : Reference.Operand) :
    WhenRefused (untouched session) (Reference.assign target value session) := by
  refine .guard (fun _ => rfl) fun _ => checkStatements_quiet.first fun _ hs => (checkWritable_quiet target).first fun _ _ => ?_
  refine (lower_quiet value).first fun right _ => ?_
  have haccepts : session.current.kind.acceptsStatements = true := by
    rw [Reference.checkStatements_eq] at hs
    by_contra h
    rw [if_neg h] at hs
    cases hs
  obtain ⟨type, form⟩ := target
  have happend : ∀ (session' : Reference.Session) (left : Term) (result : Reference.Value),
      session'.current = session.current → WhenRefused (untouched session) ((do
        Reference.append (.node { kind := .assignment, type := result.type } [left, right])
        return result) session') := by
    intro session' left result hc
    rw [bind_of_ok (append_eq_ok _ (hc ▸ haccepts))]
    trivial
  cases form with
  | unbound | pending => exact happend { session with symbolCount := session.symbolCount + 1 } _ _ rfl
  | bound | member => exact happend session _ _ rfl

/-- The operation of an update is built without a change to the session, and the assignment leaves nothing behind if it is
refused. -/
theorem update_untouched (how : Update) (target : Reference.Value) (value : Reference.Operand) :
    WhenRefused (untouched session) (Reference.update how target value session) :=
  .guard (fun _ => rfl) fun _ => (express_quiet _ _).first fun _ _ => assign_untouched target _

/-- A value gets its symbol by an assignment, which leaves nothing behind if it is refused, or without one. -/
theorem materialize_untouched (value : Reference.Value) :
    WhenRefused (untouched session) (Reference.materialize value session) := by
  obtain ⟨type, form⟩ := value
  cases form with
  | bound | unbound => trivial
  | member => exact rfl
  | pending term =>
    refine (assign_untouched _ _).last fun bound session' hok => ?_
    have hout := @assign_outcome session ⟨type, .pending term⟩ (.ofValue ⟨type, .pending term⟩)
    rw [hok] at hout
    obtain ⟨symbol, rfl⟩ := hout.2 term rfl
    exact ⟨_, _, rfl⟩

/-- The type of a vector is checked before it gets a symbol. -/
theorem lane_untouched (owner : Reference.Value) (lane : Lane) :
    WhenRefused (untouched session) (Reference.lane owner lane session) := by
  unfold Reference.lane
  cases owner.type.lane? with
  | none => exact rfl
  | some type =>
    refine .guard (fun _ => rfl) fun _ => .guard (fun _ => rfl) fun _ => ?_
    exact (materialize_untouched owner).last fun _ _ _ => ⟨_, _, rfl⟩

/-- The type of a vector is checked before one of its lanes is taken. -/
theorem component_untouched (owner : Reference.Value) (lane : Lane) :
    WhenRefused (untouched session) (Reference.component owner lane session) :=
  .guard (fun _ => rfl) fun _ => lane_untouched owner lane

/-- After the coordinate has got its symbol, sampling at it is not refused any more. -/
theorem sampleAt_untouched (buffer : Input) (coordinate : Reference.Value) :
    WhenRefused (untouched session) (Reference.sampleAt buffer coordinate session) := by
  obtain ⟨type, form⟩ := coordinate
  refine .guard (fun _ => rfl) fun hguard => (lane_untouched _ .x).last fun answer session' hok => ?_
  simp only [Bool.or_eq_true, Bool.not_eq_true', Bool.and_eq_false_iff, decide_eq_true_eq, not_or, not_not,
    Bool.not_eq_false] at hguard
  obtain ⟨⟨hvalid, hbuffer⟩, rfl⟩ := hguard
  have hout := @lane_outcome session ⟨.int2, form⟩ .x
  rw [hok] at hout
  obtain ⟨symbol, lane, hlane, rfl⟩ := hout.2
  have hint : ValueType.int2.lane? = some .int := by decide
  obtain rfl : lane = .int := Option.some.inj (hlane.symm.trans hint)
  obtain ⟨value, hvalue⟩ := sample_of_bound hvalid hbuffer symbol session'
  exact ⟨value, session', hvalue⟩

/-- The place of a block is checked before it is opened. -/
theorem enter_untouched (kind : NodeKind) : WhenRefused (untouched session) (Reference.enter kind session) := by
  cases kind with
  | constData | outData | main => exact (checkSection_quiet _).first fun _ _ => trivial
  | block => exact checkStatements_quiet.first fun _ _ => trivial
  | _ => exact rfl

/-- If only the program is open, nothing is closed. -/
theorem exit_untouched : WhenRefused (untouched session) (Reference.exit session) := by
  rw [Reference.exit_eq]
  cases session.outer with
  | nil => exact rfl
  | cons parent outer => trivial

/-- Only a branch is closed by an alternative to it. -/
theorem closeLink_untouched (next : NodeKind) : WhenRefused (untouched session) (Reference.closeLink next session) :=
  current_quiet.first fun _ _ => .guard (fun _ => rfl) fun _ => exit_untouched

/-- A condition is read before its block is opened. -/
theorem openConditional_untouched (kind : NodeKind) (condition : Option Reference.Operand) :
    WhenRefused (untouched session) (Reference.openConditional kind condition session) :=
  (lowerAll_quiet _).first fun _ _ => trivial

/-- A branch is opened after its condition and its place have been checked. -/
theorem beginIf_untouched (condition : Reference.Operand) :
    WhenRefused (untouched session) (Reference.beginIf condition session) :=
  (checkCondition_quiet condition).first fun _ _ => checkStatements_quiet.first fun _ _ => openConditional_untouched _ _

/-- A loop is opened after its condition and its place have been checked. -/
theorem beginWhile_untouched (condition : Reference.Operand) :
    WhenRefused (untouched session) (Reference.beginWhile condition session) :=
  (checkCondition_quiet condition).first fun _ _ => checkStatements_quiet.first fun _ _ => openConditional_untouched _ _

/-- An alternative without a condition is not refused after the branch before it has been closed. -/
theorem beginElse_untouched : WhenRefused (untouched session) (Reference.beginElse session) :=
  (closeLink_untouched _).last fun _ _ _ => ⟨_, _, rfl⟩

/-! ## Calls that stop halfway -/

/-- Operands can be read unless one of them has no value yet. -/
theorem lowerAll_cases (operands : List Reference.Operand) (session : Reference.Session) :
    (∃ terms, Reference.lowerAll operands session = .ok terms session) ∨
      ∃ type, Reference.Operand.ofValue (.unbound type) ∈ operands ∧
        Reference.lowerAll operands session = .error (.uninitializedRead type) session := by
  induction operands with
  | nil => exact .inl ⟨[], rfl⟩
  | cons operand operands ih =>
    have hfirst : (∃ term, Reference.lower operand session = .ok term session) ∨
        ∃ type, operand = .ofValue (.unbound type) ∧
          Reference.lower operand session = .error (.uninitializedRead type) session := by
      cases operand with
      | literal => exact .inl ⟨_, rfl⟩
      | handle handle =>
        cases handle with
        | input => exact .inl ⟨_, rfl⟩
        | value value =>
          obtain ⟨type, form⟩ := value
          cases form with
          | unbound => exact .inr ⟨type, rfl, rfl⟩
          | _ => exact .inl ⟨_, rfl⟩
    rw [Reference.lowerAll]
    rcases hfirst with ⟨term, hterm⟩ | ⟨type, rfl, he⟩
    · rw [bind_of_ok hterm]
      rcases ih with ⟨terms, hterms⟩ | ⟨type, hm, he⟩
      · exact .inl ⟨term :: terms, bind_of_ok hterms⟩
      · exact .inr ⟨type, by simp [hm], bind_of_error he⟩
    · exact .inr ⟨type, by simp, bind_of_error he⟩

/-- The reason is that a value was read before anything was assigned to it. -/
def IsUnsetRead (error : TraceError) : Prop := ∃ type, error = .uninitializedRead type

/-- A condition has the wrong type, or it is one. -/
theorem checkCondition_cases (condition : Reference.Operand) (session : Reference.Session) :
    Reference.checkCondition condition session = .error .illTyped session ∨
      Reference.checkCondition condition session = .ok () session ∧ condition.isCondition = true := by
  rw [show Reference.checkCondition condition session = _ from Recording.check_apply _ session]
  cases condition.isCondition with
  | true => exact .inr ⟨rfl, rfl⟩
  | false => exact .inl rfl

/-- A branch is closed, or there is none to close. In no case has a value been read. -/
theorem closeLink_cases (next : NodeKind) (session : Reference.Session) :
    (∃ error, Reference.closeLink next session = .error error session ∧ ¬IsUnsetRead error) ∨
      ∃ session', Reference.closeLink next session = .ok () session' ∧ Reference.exit session = .ok () session' := by
  rw [show Reference.closeLink next session = _ from Recording.guard_apply _ _ _ session, Reference.exit_eq]
  cases session.current.kind.isConditional with
  | false => exact .inl ⟨_, rfl, by rintro ⟨_, ⟨⟩⟩⟩
  | true =>
    cases session.outer with
    | nil => exact .inl ⟨_, rfl, by rintro ⟨_, ⟨⟩⟩⟩
    | cons parent outer => exact .inr ⟨_, rfl, rfl⟩

/-- The branch before an alternative is closed by the time that the condition is read. -/
theorem beginElseIf_leaves (condition : Reference.Operand) :
    WhenRefused (fun error session' => ¬IsUnsetRead error ∧ session' = session ∨
      error = .uninitializedRead .bool ∧ condition = .ofValue (.unbound .bool) ∧ Reference.exit session = .ok () session')
      (Reference.beginElseIf condition session) := by
  rcases checkCondition_cases condition session with hcheck | ⟨hcheck, hcondition⟩
  · exact .then_error hcheck (.inl ⟨by rintro ⟨_, ⟨⟩⟩, rfl⟩)
  · refine .then_ok hcheck ?_
    rcases closeLink_cases .elseIfBranch session with ⟨e, hclose, he⟩ | ⟨closed, hclose, hexit⟩
    · exact .then_error hclose (.inl ⟨he, rfl⟩)
    · refine .then_ok hclose ?_
      rcases lowerAll_cases (some condition).toList closed with ⟨terms, hread⟩ | ⟨type, hm, hread⟩
      · exact .then_ok hread trivial
      · obtain rfl : Reference.Operand.ofValue (.unbound type) = condition := by simpa using hm
        obtain rfl : type = .bool := eq_of_beq hcondition
        exact .then_error hread (.inr ⟨rfl, rfl, hexit⟩)

/-- The counter of a loop has its symbol by the time that the bounds are read. -/
theorem beginFor_leaves (name : String) (start stop : Reference.Operand) :
    WhenRefused (fun error session' => ¬IsUnsetRead error ∧ session' = session ∨
      error = .uninitializedRead .int ∧ Reference.Operand.ofValue (.unbound .int) ∈ [start, stop] ∧
        session' = { session with symbolCount := session.symbolCount + 1 }) (Reference.beginFor name start stop session) := by
  refine .guard (fun _ => .inl ⟨by rintro ⟨_, ⟨⟩⟩, rfl⟩) fun htype => ?_
  simp only [Bool.or_eq_true, decide_eq_true_eq, not_or, not_not] at htype
  have hstatements := Reference.checkStatements_eq session
  by_cases hs : session.current.kind.acceptsStatements = true
  · rw [if_pos hs] at hstatements
    refine .then_ok hstatements (.guard (fun _ => .inl ⟨by rintro ⟨_, ⟨⟩⟩, rfl⟩) fun _ => ?_)
    have hsymbol : Reference.nextSymbol session =
        .ok ⟨session.symbolCount⟩ { session with symbolCount := session.symbolCount + 1 } := rfl
    refine .then_ok hsymbol ?_
    rcases lowerAll_cases [start, stop] { session with symbolCount := session.symbolCount + 1 } with
      ⟨terms, hread⟩ | ⟨type, hm, hread⟩
    · exact .then_ok hread trivial
    · obtain rfl : type = .int := by
        rcases List.mem_pair.1 hm with rfl | rfl
        · exact htype.1
        · exact htype.2
      exact .then_error hread (.inr ⟨rfl, hm, rfl⟩)
  · rw [if_neg hs] at hstatements
    exact .then_error hstatements (.inl ⟨by rintro ⟨_, ⟨⟩⟩, rfl⟩)

end Recorders

/-! ## Calls -/

/-- The call does its first part before it reads its operands. -/
def isStaged : Call → Bool
  | .beginElseIf _ | .beginFor .. => true
  | _ => false

/-- The call was refused after its first part, because an operand has no value yet. -/
def StopsHalfway (call : Call) (error : StepError) : Prop :=
  isStaged call = true ∧ ∃ type, error = .trace (.uninitializedRead type)

/-- Whatever the registers are, the action leaves the session as it was if it is refused. -/
def Sparing (session : Reference.Session) (action : Reference.Action) : Prop :=
  ∀ registers, WhenRefused (untouched session) (action registers session)

section Calls

variable {α : Type} {session : Reference.Session} {x : Reference.Recorder α} (registers : Reference.Registers)

/-- After the recorder has acted, only an answer and registers are put together. -/
theorem WhenRefused.sparing (h : WhenRefused (untouched session) (x session))
    {f : Reference.Registers → α → Reference.Recorder (Reference.Reply × Reference.Registers)}
    (hf : ∀ registers a session, ∃ b, f registers a session = .ok b session) :
    Sparing session fun registers => x >>= f registers :=
  fun registers => h.last fun a session' _ => (hf registers a session').imp fun _ hb => ⟨session', hb⟩

/-- A call that is not staged leaves nothing behind if it is refused. -/
theorem call_sparing {call : Call} (hc : isStaged call = false) (result : Option String) :
    Found (Sparing session) (Reference.callAction call result registers) := by
  cases call with
  | enter kind => exact (enter_untouched kind).sparing fun _ _ _ => ⟨_, rfl⟩
  | exit => exact exit_untouched.sparing fun _ _ _ => ⟨_, rfl⟩
  | nextSymbol => exact fun _ => trivial
  | input type name => exact (input_untouched type name).sparing fun _ _ _ => ⟨_, rfl⟩
  | output type name => exact (output_untouched type name).sparing fun _ _ _ => ⟨_, rfl⟩
  | unbound type =>
    show Found _ (if _ then _ else _)
    split
    · exact (Quiet.pure _).untouched.sparing fun _ _ _ => ⟨_, rfl⟩
    · rintro _ ⟨⟩
  | copy source => exact (handle_found registers source).bind fun _ _ _ => trivial
  | inspect source => exact (handle_found registers source).bind fun _ _ _ => trivial
  | assign target value =>
    refine (value_found registers target).bind fun old _ => (operand_found registers value).bind fun value _ => ?_
    exact (assign_untouched old value).sparing fun _ _ _ => ⟨_, rfl⟩
  | update how target value =>
    refine (value_found registers target).bind fun old _ => (operand_found registers value).bind fun value _ => ?_
    exact (update_untouched how old value).sparing fun _ _ _ => ⟨_, rfl⟩
  | var value =>
    exact (operand_found registers value).bind fun value _ => (assign_untouched _ value).sparing fun _ _ _ => ⟨_, rfl⟩
  | materialize target =>
    exact (value_found registers target).bind fun old _ => (materialize_untouched old).sparing fun _ _ _ => ⟨_, rfl⟩
  | lane owner which =>
    exact (value_found registers owner).bind fun old _ => (lane_untouched old which).sparing fun _ _ _ => ⟨_, rfl⟩
  | component owner which =>
    refine (handle_found registers owner).bind fun handle _ => ?_
    cases handle with
    | value old => exact (component_untouched old which).sparing fun _ _ _ => ⟨_, rfl⟩
    | input vector =>
      simp only
      cases Reference.laneOfInput? vector which with
      | none => rintro _ ⟨⟩
      | some value => exact (Quiet.pure value).untouched.sparing fun _ _ _ => ⟨_, rfl⟩
  | express operator operands =>
    exact (operands_found registers operands).bind fun operands _ =>
      (express_quiet operator operands).untouched.sparing fun _ _ _ => ⟨_, rfl⟩
  | sample1d buffer index =>
    exact (input_found registers buffer).bind fun buffer _ => (operand_found registers index).bind fun index _ =>
      (express_quiet _ _).untouched.sparing fun _ _ _ => ⟨_, rfl⟩
  | sample2d buffer x y =>
    exact (input_found registers buffer).bind fun buffer _ => (operand_found registers x).bind fun x _ =>
      (operand_found registers y).bind fun y _ => (express_quiet _ _).untouched.sparing fun _ _ _ => ⟨_, rfl⟩
  | sampleAt buffer coordinate =>
    exact (input_found registers buffer).bind fun buffer _ => (valueOperand_found registers coordinate).bind fun coordinate _ =>
      (sampleAt_untouched buffer coordinate).sparing fun _ _ _ => ⟨_, rfl⟩
  | beginIf condition =>
    exact (operand_found registers condition).bind fun condition _ =>
      (beginIf_untouched condition).sparing fun _ _ _ => ⟨_, rfl⟩
  | beginElse => exact beginElse_untouched.sparing fun _ _ _ => ⟨_, rfl⟩
  | beginWhile condition =>
    exact (operand_found registers condition).bind fun condition _ =>
      (beginWhile_untouched condition).sparing fun _ _ _ => ⟨_, rfl⟩
  | beginElseIf | beginFor => cases hc

end Calls

/-- What a refused call leaves behind by value, with the registers that it was given. -/
inductive Left (session : Reference.Session) (registers : Reference.Registers) :
    Call → StepError → Reference.Session → Prop
  | untouched {call : Call} {error : StepError} (h : ¬StopsHalfway call error) : Left session registers call error session
  /-- The branch before an alternative has been closed. -/
  | closed {condition : Arg} {session' : Reference.Session} (h : registers.operand condition = .ok (.ofValue (.unbound .bool)))
    (hexit : Reference.exit session = .ok () session') :
    Left session registers (.beginElseIf condition) (.trace (.uninitializedRead .bool)) session'
  /-- The counter of a loop has taken its symbol. -/
  | counted {name : String} {start stop : Arg}
    (h : ∃ bound ∈ [start, stop], registers.operand bound = .ok (.ofValue (.unbound .int))) :
    Left session registers (.beginFor name start stop) (.trace (.uninitializedRead .int))
      { session with symbolCount := session.symbolCount + 1 }

/-- If an action is refused, or not found, the reason and the session that is left behind are as `left` says. -/
def ActLeaves (model : Reference.Machine) (left : StepError → Reference.Session → Prop)
    (action : Except StepError Reference.Action) : Prop :=
  ∀ error, (model.act action).1 = .error error → left error (model.act action).2.session

section Left

variable {model : Reference.Machine} {left : StepError → Reference.Session → Prop} {error : StepError}
  {registers : Reference.Registers} {arg : Arg}

/-- What an action leaves behind is what the recorder leaves behind. -/
theorem ActLeaves.ok {action : Reference.Action}
    (h : WhenRefused (fun error => left (.trace error)) (action model.registers model.session)) :
    ActLeaves model left (.ok action) := by
  intro error he
  simp only [Reference.Machine.act, EStateM.run] at he ⊢
  cases hx : action model.registers model.session with
  | ok answer session =>
    rw [hx] at he
    cases he
  | error reason session =>
    rw [hx] at he h
    cases he
    exact h

/-- A register that is not there ends no body. -/
theorem operand_ends (h : registers.operand arg = .error error) : error.ends? = none := by
  cases arg with
  | literal => cases h
  | register name =>
    rw [Reference.Registers.operand, Reference.Registers.handle] at h
    cases hl : registers.lookup name with
    | none =>
      rw [hl] at h
      cases h
      rfl
    | some handle =>
      rw [hl] at h
      cases h

/-- An argument is read as an integer if that is what it is. -/
theorem integer_cases (registers : Reference.Registers) (arg : Arg) :
    (∃ error, registers.integer arg = .error error ∧ error.ends? = none) ∨
      ∃ operand, registers.integer arg = .ok operand ∧ registers.operand arg = .ok operand := by
  unfold Reference.Registers.integer
  cases hop : registers.operand arg with
  | error e => exact .inl ⟨e, rfl, operand_ends hop⟩
  | ok found =>
    by_cases ht : found.type = .int
    · exact .inr ⟨found, if_pos ht, rfl⟩
    · exact .inl ⟨.trace .illTyped, if_neg ht, rfl⟩

/-- A call whose registers are not found is no call at all. -/
theorem Left.of_ends {session : Reference.Session} {call : Call} (h : error.ends? = none) :
    Left session registers call error session := by
  refine .untouched ?_
  rintro ⟨-, type, rfl⟩
  cases h

/-- For any other reason than a value that is not set, nothing is left behind. -/
theorem Left.of_not_unsetRead {session : Reference.Session} {call : Call} {reason : TraceError} (h : ¬IsUnsetRead reason) :
    Left session registers call (.trace reason) session := by
  refine .untouched ?_
  rintro ⟨-, type, ht⟩
  exact h ⟨type, StepError.trace.inj ht⟩

/-- If an operand is not found, nothing has been done yet. -/
theorem ActLeaves.operand {call : Call} {f : Reference.Operand → Except StepError Reference.Action}
    (hf : ∀ operand, model.registers.operand arg = .ok operand →
      ActLeaves model (Left model.session model.registers call) (f operand)) :
    ActLeaves model (Left model.session model.registers call) (model.registers.operand arg >>= f) := by
  cases hop : model.registers.operand arg with
  | ok operand => exact hf operand hop
  | error e =>
    rintro _ ⟨⟩
    exact .of_ends (operand_ends hop)

/-- If an integer is not found, nothing has been done yet. -/
theorem ActLeaves.integer {call : Call} {f : Reference.Operand → Except StepError Reference.Action}
    (hf : ∀ operand, model.registers.operand arg = .ok operand →
      ActLeaves model (Left model.session model.registers call) (f operand)) :
    ActLeaves model (Left model.session model.registers call) (model.registers.integer arg >>= f) := by
  rcases integer_cases model.registers arg with ⟨e, hi, hends⟩ | ⟨operand, hi, hop⟩
  · rw [hi]
    rintro _ ⟨⟩
    exact .of_ends hends
  · rw [hi]
    exact hf operand hop

/-- An alternative that is refused has closed the branch before it, or has done nothing. -/
theorem beginElseIf_left (condition : Arg) (result : Option String) :
    ActLeaves model (Left model.session model.registers (.beginElseIf condition))
      (Reference.callAction (.beginElseIf condition) result model.registers) := by
  refine .operand fun operand hop => .ok ?_
  refine WhenRefused.last (Leaves.mono (beginElseIf_leaves operand) (fun _ _ => id) ?_) fun _ _ _ => ⟨_, _, rfl⟩
  rintro reason session' (⟨hreason, rfl⟩ | ⟨rfl, rfl, hexit⟩)
  · exact .of_not_unsetRead hreason
  · exact .closed hop hexit

/-- A loop that is refused has taken the symbol of its counter, or has done nothing. -/
theorem beginFor_left (name : String) (start stop : Arg) (result : Option String) :
    ActLeaves model (Left model.session model.registers (.beginFor name start stop))
      (Reference.callAction (.beginFor name start stop) result model.registers) := by
  refine .integer fun first hstart => .integer fun last hstop => .ok ?_
  refine WhenRefused.last (Leaves.mono (beginFor_leaves name first last) (fun _ _ => id) ?_) fun _ _ _ => ⟨_, _, rfl⟩
  rintro reason session' (⟨hreason, rfl⟩ | ⟨rfl, hm, rfl⟩)
  · exact .of_not_unsetRead hreason
  · refine .counted ?_
    rcases List.mem_pair.1 hm with rfl | rfl
    · exact ⟨start, by simp, hstart⟩
    · exact ⟨stop, by simp, hstop⟩

/-- What every call leaves behind that is refused. -/
theorem call_left (call : Call) (result : Option String) :
    ActLeaves model (Left model.session model.registers call) (Reference.callAction call result model.registers) := by
  cases hstaged : isStaged call with
  | false =>
    have hnot : ∀ error, ¬StopsHalfway call error := by
      rintro error ⟨h, -⟩
      rw [hstaged] at h
      cases h
    have hspares := @call_sparing model.session model.registers call hstaged result
    cases hx : Reference.callAction call result model.registers with
    | error e => exact fun error _ => .untouched (hnot error)
    | ok action =>
      rw [hx] at hspares
      refine .ok (Leaves.mono (hspares model.registers) (fun _ _ => id) ?_)
      rintro reason _ rfl
      exact .untouched (hnot _)
  | true =>
    cases call with
    | beginElseIf condition => exact beginElseIf_left condition result
    | beginFor name start stop => exact beginFor_left name start stop result
    | _ => cases hstaged

end Left

/-! ## Every point of a run -/

/-- What a refused call has done, on both sides. -/
theorem exists_left {machine : Machine} {model : Reference.Machine} (h : Paired machine model) {call : Call}
    {result : Option String} {error : StepError} (he : ((Act.call call result).perform machine).1 = .error error) :
    ∃ model', Performed machine model ((Act.call call result).perform machine) model' ∧
      Left model.session model.registers call error model'.session := by
  have hsame := Refinement.call_same h.same.session h.same.registers call result
  refine ⟨_, performed_of_same h hsame (fun _ hg hr => Recording.call_keeping hg hr call result)
    (call_outcome _ call result), call_left call result error ?_⟩
  have hout := (Refinement.act_same h.same hsame).outcome
  rw [show (machine.act (call.action result machine.registers)).1 = .error error from he] at hout
  generalize (model.act (Reference.callAction call result model.registers)).1 = answer at hout
  cases hout with
  | error => rfl

/-- An operand that has no value yet by value has none in an arena. -/
theorem operand_unbound {arena : Arena} {registers : Script.Registers} {others : Reference.Registers}
    (h : SameRegisters arena registers others) {arg : Arg} {type : ValueType}
    (ho : others.operand arg = .ok (.ofValue (.unbound type))) : registers.operand arg = .ok (.ofValue (.unbound type)) := by
  have hsame := h.operand arg
  rw [ho] at hsame
  generalize registers.operand arg = found at hsame
  cases hsame with
  | @ok operand _ hoperand =>
    cases hoperand with
    | handle hhandle =>
      cases hhandle with
      | @value value _ hvalue =>
        obtain ⟨valueType, form⟩ := value
        obtain ⟨rfl, hform⟩ := hvalue
        cases hform
        rfl

/-- Where a session and its counterpart by value have come to, if the counterpart has the same open blocks as before. -/
theorem openBlocks_eq_of_path {machine machine' : Machine} {model model' : Reference.Machine} (h : Paired machine model)
    (h' : Paired machine' model') (hl : Later machine.session model.session machine'.session model'.session)
    (hp : path model'.session = path model.session) : openBlocks machine'.session = openBlocks machine.session := by
  obtain ⟨frame, frames, hm⟩ := h.same.session
  obtain ⟨frame', frames', hm'⟩ := h'.same.session
  have hpath : path model.session = (frame :: frames).map Frame.block := by
    rw [path, hm.modelCurrent, hm.modelOuter, List.map_cons]
  rw [openBlocks_of_later hm hm' hl (List.Subset.refl _), openBlocks, hm.current, hm.outer, List.map_cons]
  · rw [hp, hpath, List.map_map]
    rfl
  · rw [hp, hpath, List.map_map]
    rfl

/-- The same if the innermost open block has been closed. -/
theorem openBlocks_eq_of_exit {machine machine' : Machine} {model model' : Reference.Machine} (h : Paired machine model)
    (h' : Paired machine' model') (hl : Later machine.session model.session machine'.session model'.session)
    (he : Reference.exit model.session = .ok () model'.session) : openBlocks machine'.session = machine.session.outer := by
  obtain ⟨frame, frames, hm⟩ := h.same.session
  obtain ⟨frame', frames', hm'⟩ := h'.same.session
  rw [Reference.exit_eq] at he
  cases frames with
  | nil =>
    rw [hm.modelOuter] at he
    cases he
  | cons parent frames =>
    rw [hm.modelOuter] at he
    obtain ⟨-, hsession⟩ := EStateM.Result.ok.inj he
    have hpath : path model'.session = parent.block.add model.session.current.term :: frames.map Frame.block := by
      rw [← hsession]
      rfl
    rw [openBlocks_of_later hm hm' hl (List.subset_cons_self _ _), hm.outer]
    · rw [hpath, List.map_cons, List.map_map]
      rfl
    · rw [hpath, List.map_cons, List.map_map]
      rfl

/-- No symbol is given out where a block is closed. -/
theorem symbolCount_of_exit {session session' : Reference.Session} (h : Reference.exit session = .ok () session') :
    session'.symbolCount = session.symbolCount := by
  rw [Reference.exit_eq] at h
  cases houter : session.outer with
  | nil =>
    rw [houter] at h
    cases h
  | cons parent outer =>
    rw [houter] at h
    obtain ⟨-, hsession⟩ := EStateM.Result.ok.inj h
    rw [← hsession]

/-- As many symbols have been given out by value. -/
theorem Paired.symbolCount_eq {machine : Machine} {model : Reference.Machine} (h : Paired machine model) :
    machine.session.symbolCount = model.session.symbolCount := by
  obtain ⟨frame, frames, hm⟩ := h.same.session
  exact hm.symbolCount

/-- A call that is refused leaves the open blocks and the number of symbols as they were if and only if it does not stop
halfway. Only two calls ever do: an alternative whose condition has no value, which has closed the branch before it, and a
counted loop with a bound that has no value, which has used up a symbol. -/
theorem refused_call_control (acts : List Act) (call : Call) (result : Option String) (error : StepError)
    (h : ((Act.call call result).perform (performAll acts .start)).1 = .error error) :
    (openBlocks ((Act.call call result).perform (performAll acts .start)).2.session =
          openBlocks (performAll acts .start).session ∧
        ((Act.call call result).perform (performAll acts .start)).2.session.symbolCount =
          (performAll acts .start).session.symbolCount ↔ ¬StopsHalfway call error) ∧
      (StopsHalfway call error →
        (∃ condition, call = .beginElseIf condition ∧
          (performAll acts .start).registers.operand condition = .ok (.ofValue (.unbound .bool)) ∧
          openBlocks ((Act.call call result).perform (performAll acts .start)).2.session =
            (performAll acts .start).session.outer ∧
          ((Act.call call result).perform (performAll acts .start)).2.session.symbolCount =
            (performAll acts .start).session.symbolCount) ∨
        ∃ name start stop, call = .beginFor name start stop ∧
          (∃ bound ∈ [start, stop], (performAll acts .start).registers.operand bound = .ok (.ofValue (.unbound .int))) ∧
          openBlocks ((Act.call call result).perform (performAll acts .start)).2.session =
            openBlocks (performAll acts .start).session ∧
          ((Act.call call result).perform (performAll acts .start)).2.session.symbolCount =
            (performAll acts .start).session.symbolCount + 1) := by
  obtain ⟨model, hpaired⟩ := exists_paired acts
  generalize performAll acts .start = machine at *
  obtain ⟨model', hperformed, hleft⟩ := exists_left hpaired h
  generalize (Act.call call result).perform machine = answer at *
  have hregisters := hpaired.same.registers
  rw [hperformed.paired.symbolCount_eq, hpaired.symbolCount_eq]
  generalize hsession : model'.session = session' at hleft
  cases hleft with
  | untouched hnot =>
    have hblocks := openBlocks_eq_of_path hpaired hperformed.paired hperformed.later (by rw [hsession])
    exact ⟨⟨fun _ => hnot, fun _ => ⟨hblocks, rfl⟩⟩, fun hhalf => (hnot hhalf).elim⟩
  | @closed condition _ hcondition hexit =>
    have hblocks := openBlocks_eq_of_exit hpaired hperformed.paired hperformed.later (hsession ▸ hexit)
    have hhalf : StopsHalfway (.beginElseIf condition) (.trace (.uninitializedRead .bool)) := ⟨rfl, _, rfl⟩
    refine ⟨⟨?_, fun hnot => (hnot hhalf).elim⟩, fun _ => .inl ⟨_, rfl, operand_unbound hregisters hcondition, hblocks, ?_⟩⟩
    · rintro ⟨hsame, -⟩ -
      have hlength := congrArg List.length (hblocks.symm.trans hsame)
      simp [openBlocks] at hlength
    · exact symbolCount_of_exit hexit
  | @counted name start stop hbound =>
    have hblocks := openBlocks_eq_of_path hpaired hperformed.paired hperformed.later (by rw [hsession]; rfl)
    have hhalf : StopsHalfway (.beginFor name start stop) (.trace (.uninitializedRead .int)) := ⟨rfl, _, rfl⟩
    obtain ⟨bound, hm, hunbound⟩ := hbound
    refine ⟨⟨fun hsame => ?_, fun hnot => (hnot hhalf).elim⟩, fun _ => .inr ⟨_, _, _, rfl, ?_, hblocks, rfl⟩⟩
    · have hcount : model.session.symbolCount + 1 = model.session.symbolCount := hsame.2
      omega
    · exact ⟨bound, hm, operand_unbound hregisters hunbound⟩

/-- A branch is open, and there are a condition and a bound that have no value yet. -/
def unsetActs : List Act :=
  [.opening (.enter .main) none,
    .call (.var (.literal (.bool true))) (some "test"),
    .opening (.ifThen (.register "test")) none,
    .call (.unbound .bool) (some "nothing"),
    .call (.unbound .int) (some "count")]

/-- A loop up to a bound without a value is refused, and has used up a symbol; the branch is still open. -/
theorem refused_call_control_loop :
    ((Act.call (.beginFor "i" (.literal (.int 0)) (.register "count")) none).perform (performAll unsetActs .start)).1 =
        .error (.trace (.uninitializedRead .int)) ∧
      openBlocks ((Act.call (.beginFor "i" (.literal (.int 0)) (.register "count")) none).perform
        (performAll unsetActs .start)).2.session = openBlocks (performAll unsetActs .start).session ∧
      ((Act.call (.beginFor "i" (.literal (.int 0)) (.register "count")) none).perform
        (performAll unsetActs .start)).2.session.symbolCount = (performAll unsetActs .start).session.symbolCount + 1 := by
  have h : ((Act.call (.beginFor "i" (.literal (.int 0)) (.register "count")) none).perform
      (performAll unsetActs .start)).1 = .error (.trace (.uninitializedRead .int)) := by decide +kernel
  obtain ⟨-, hhalf⟩ := refused_call_control unsetActs _ none _ h
  rcases hhalf ⟨rfl, _, rfl⟩ with ⟨_, hcall, -⟩ | ⟨_, _, _, -, -, hblocks, hcount⟩
  · cases hcall
  · exact ⟨h, hblocks, hcount⟩

/-- Neither the open blocks nor the number of symbols are safe from every call that is refused: an alternative closes the branch
before it, and a loop uses up a symbol. -/
theorem refused_call_moves_control :
    (¬∀ (acts : List Act) (call : Call) (result : Option String) (error : StepError),
        ((Act.call call result).perform (performAll acts .start)).1 = .error error →
        openBlocks ((Act.call call result).perform (performAll acts .start)).2.session =
          openBlocks (performAll acts .start).session) ∧
      ¬∀ (acts : List Act) (call : Call) (result : Option String) (error : StepError),
        ((Act.call call result).perform (performAll acts .start)).1 = .error error →
        ((Act.call call result).perform (performAll acts .start)).2.session.symbolCount =
          (performAll acts .start).session.symbolCount := by
  refine ⟨fun hall => ?_, fun hall => ?_⟩
  · have hsame := hall unsetActs (.beginElseIf (.register "nothing")) none (.trace (.uninitializedRead .bool))
      (by decide +kernel)
    revert hsame
    decide +kernel
  · have hsame := hall unsetActs (.beginFor "i" (.literal (.int 0)) (.register "count")) none
      (.trace (.uninitializedRead .int)) (by decide +kernel)
    revert hsame
    decide +kernel

end ShaderTrace.Blocks
