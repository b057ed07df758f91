import ShaderTrace.Proofs.Blocks.Reached
import ShaderTrace.Proofs.Buffers.Copies

/-!
# Buffers over whole runs

Two calls write an operand as it is: one assigns it to a variable, the other makes a new variable of it. The assignments of buffers
in a program are as many as the calls of these two that were carried out with a buffer (`exists_counted_all`).
-/

namespace ShaderTrace

namespace Script

/-- The argument that a call writes to a variable as it is. -/
def Call.writes? : Call → Option Arg
  | .assign _ value | .var value => some value
  | _ => none

/-- The call writes a buffer, if the arguments have the given types. -/
def Call.writesBuffer (type? : Arg → Option ValueType) (call : Call) : Bool :=
  call.writes?.any fun arg => (type? arg).any ValueType.isBuffer

/-- The type of an argument, if it can be looked up. -/
def Registers.type? (registers : Registers) (arg : Arg) : Option ValueType :=
  (registers.operand arg).toOption.map Operand.type

end Script

/-- The type of an argument, if it can be looked up. -/
def Reference.Registers.type? (registers : Reference.Registers) (arg : Script.Arg) : Option ValueType :=
  (registers.operand arg).toOption.map Reference.Operand.type

namespace Buffers

open Blocks (Paired Performed Behaved)
open Refinement (SameAction SameRegisters SameResult)
open Script (Arg Call Opening StepError Machine)
open Symbols (Act performAll)

/-! ## Calls -/

/-- Whatever the registers are, the action adds so many assignments of buffers, and leaves handles behind that are as they should
be. -/
def AddsAction (session : Reference.Session) (count : Nat) (action : Reference.Action) : Prop :=
  ∀ registers, Holding PlainHandle registers →
    Adds session count (fun answer => Holding PlainHandle answer.2) (action registers session)

section Calls

variable {session : Reference.Session} {count : Nat}

/-- A plain value goes to the register of the result. -/
theorem yields_adds (result : Option String) {x : Reference.Recorder Reference.Value}
    (h : Adds session count PlainValue (x session)) : AddsAction session count (Reference.yields result x) := by
  intro registers hr
  exact h.map fun value _ hv => ⟨_, rfl, Holding.setResult hr result hv⟩

/-- A plain value goes back to the register of the target. -/
theorem changes_adds (target : String) {x : Reference.Recorder Reference.Value}
    (h : Adds session count PlainValue (x session)) : AddsAction session count (Reference.changes target x) := by
  intro registers hr
  exact h.map fun value _ hv => ⟨_, rfl, Holding.set hr target hv⟩

/-- A plain lane goes to the register of the result, and its plain vector back to its own. -/
theorem yieldsLane_adds (owner : String) (result : Option String)
    {x : Reference.Recorder (Reference.Value × Reference.Value)}
    (h : Adds session count (fun answer => PlainValue answer.1 ∧ PlainValue answer.2) (x session)) :
    AddsAction session count (Reference.yieldsLane owner result x) := by
  intro registers hr
  refine h.map fun answer _ hv => ⟨_, rfl, ?_⟩
  have howner : Holding PlainHandle (registers.set owner (.value answer.2)) := Holding.set hr owner hv.2
  exact howner.setResult result hv.1

/-- An action that only answers leaves the registers as they were. -/
theorem answers_adds (reply : Reference.Reply) {x : Reference.Recorder Unit} (h : Adds session count anyAnswer (x session)) :
    AddsAction session count (Reference.answers reply x) := by
  intro registers hr
  exact h.map fun _ _ _ => ⟨_, rfl, hr⟩

variable {registers : Reference.Registers}

/-- Plain registers give plain operands. -/
theorem operand_plain (hr : Holding PlainHandle registers) (arg : Arg) : Found PlainOperand (registers.operand arg) :=
  hr.operand (fun _ hh => hh) (fun _ => trivial) arg

/-- The operand that is found has the type that the registers say. -/
theorem operand_plain_type? (hr : Holding PlainHandle registers) (arg : Arg) :
    Found (fun operand => PlainOperand operand ∧ registers.type? arg = some operand.type) (registers.operand arg) := by
  have hplain := operand_plain hr arg
  unfold Reference.Registers.type?
  cases hx : registers.operand arg with
  | ok operand =>
    rw [hx] at hplain
    exact ⟨hplain, rfl⟩
  | error error =>
    rw [hx] at hplain
    exact hplain

/-- A call adds an assignment of a buffer exactly if it writes one. -/
theorem call_adds (hr : Holding PlainHandle registers) (call : Call) (result : Option String) :
    Found (AddsAction session (call.writesBuffer registers.type?).toNat) (Reference.callAction call result registers) := by
  cases call with
  | enter kind => exact answers_adds .node (enter_adds kind)
  | exit => exact answers_adds .node exit_adds
  | nextSymbol => exact fun registers hr => nextSymbol_adds.map fun _ _ _ => ⟨_, rfl, hr⟩
  | input type name =>
    exact fun registers hr => (input_adds type name).map fun _ _ _ => ⟨_, rfl, Holding.setResult hr result trivial⟩
  | output type name => exact yields_adds result (output_adds type name)
  | unbound type =>
    show Found _ (if _ then _ else _)
    split
    · exact yields_adds result (.same rfl (plain_unbound type))
    · rintro _ ⟨⟩
  | copy source =>
    exact (hr.handle source).bind fun handle hh registers hr => .same rfl (Holding.setResult hr result hh)
  | inspect source => exact (hr.handle source).bind fun handle _ registers hr => .same rfl hr
  | assign target value =>
    refine (hr.value target).bind fun old ho => (operand_plain_type? hr value).bind fun operand hv => ?_
    have hwrites : (Call.assign target value).writesBuffer registers.type? = operand.type.isBuffer := by
      simp [Call.writesBuffer, Call.writes?, hv.2]
    rw [hwrites]
    exact changes_adds target (assign_adds ho hv.1)
  | update how target value =>
    refine (hr.value target).bind fun old ho => (operand_plain hr value).bind fun operand hv => ?_
    exact changes_adds target (update_adds how ho hv)
  | var value =>
    refine (operand_plain_type? hr value).bind fun operand hv => ?_
    have hwrites : (Call.var value).writesBuffer registers.type? = operand.type.isBuffer := by
      simp [Call.writesBuffer, Call.writes?, hv.2]
    rw [hwrites]
    exact yields_adds result (assign_adds (plain_unbound _) hv.1)
  | materialize target =>
    refine (hr.value target).bind fun old ho registers hr => ?_
    exact (materialize_adds ho).map fun answer _ ha => ⟨_, rfl, Holding.set hr target ha⟩
  | lane owner which => exact (hr.value owner).bind fun old ho => yieldsLane_adds owner result (lane_adds ho which)
  | component owner which =>
    refine (hr.handle owner).bind fun handle hh => ?_
    cases handle with
    | value old => exact yieldsLane_adds owner result (component_adds hh which)
    | input vector =>
      simp only
      cases hlane : Reference.laneOfInput? vector which with
      | none => rintro _ ⟨⟩
      | some value =>
        refine yields_adds result (.same rfl ?_)
        unfold Reference.laneOfInput? at hlane
        split at hlane
        · obtain ⟨type, -, rfl⟩ := Option.map_eq_some_iff.1 hlane
          exact plain_member _ _ _ _ _
        · cases hlane
  | express operator operands =>
    refine (Found.mapM (operand_plain hr) operands).bind fun operands ho => ?_
    exact yields_adds result ((express_adds operator ho).mono fun _ hv => hv.1)
  | sample1d buffer index =>
    refine (hr.input buffer).bind fun buffer hb => (operand_plain hr index).bind fun index hi => ?_
    refine yields_adds result ((express_adds .sample1d ?_).mono fun _ hv => hv.1)
    intro operand hm
    rcases List.mem_pair.1 hm with rfl | rfl
    · exact hb
    · exact hi
  | sample2d buffer x y =>
    refine (hr.input buffer).bind fun buffer hb => (operand_plain hr x).bind fun x hx => (operand_plain hr y).bind fun y hy => ?_
    refine yields_adds result ((express_adds .sample2d ?_).mono fun _ hv => hv.1)
    intro operand hm
    rcases List.mem_cons.1 hm with rfl | hm
    · exact hb
    · rcases List.mem_pair.1 hm with rfl | rfl
      · exact hx
      · exact hy
  | sampleAt buffer coordinate =>
    refine (hr.input buffer).bind fun buffer _ => (operand_plain hr coordinate).valueOperand.bind fun coordinate hc => ?_
    exact yields_adds result (sampleAt_adds buffer hc)
  | beginIf condition => exact (operand_plain hr condition).bind fun _ hc => answers_adds .done (beginIf_adds hc)
  | beginElseIf condition => exact (operand_plain hr condition).bind fun _ hc => answers_adds .done (beginElseIf_adds hc)
  | beginElse => exact answers_adds .done beginElse_adds
  | beginWhile condition => exact (operand_plain hr condition).bind fun _ hc => answers_adds .done (beginWhile_adds hc)
  | beginFor name start stop =>
    exact (operand_plain hr start).integer.bind fun _ hs => (operand_plain hr stop).integer.bind fun _ ht =>
      yields_adds result (beginFor_adds name hs ht)

/-- What opens a block assigns nothing. -/
theorem opening_adds (hr : Holding PlainHandle registers) (opening : Opening) (result : Option String) :
    Found (AddsAction session 0) (Reference.openingAction opening result registers) := by
  cases opening with
  | enter kind => exact answers_adds .done (enter_adds kind)
  | ifThen condition => exact (operand_plain hr condition).bind fun _ hc => answers_adds .done (beginIf_adds hc)
  | elseIf condition => exact (operand_plain hr condition).bind fun _ hc => answers_adds .done (reopenElseIf_adds hc)
  | otherwise => exact answers_adds .done reopenElse_adds
  | whileDo condition => exact (operand_plain hr condition).bind fun _ hc => answers_adds .done (beginWhile_adds hc)
  | forRange name start stop =>
    exact (operand_plain hr start).integer.bind fun _ hs => (operand_plain hr stop).integer.bind fun _ ht =>
      yields_adds result (beginFor_adds name hs ht)

end Calls

/-! ## Acts -/

/-- The act writes a buffer to a variable, if it is not refused and the arguments have the given types. -/
def writesBuffer (type? : Arg → Option ValueType) : Act → Bool
  | .call call _ => call.writesBuffer type?
  | .opening _ _ | .leave _ => false

/-- The act writes a buffer to a variable. -/
def copiesBuffer (machine : Machine) (act : Act) : Bool :=
  writesBuffer machine.registers.type? act && (act.perform machine).1.isOk

/-- How many acts of a row write a buffer to a variable. -/
def copiesOf : List Act → Machine → Nat
  | [], _ => 0
  | act :: acts, machine => (copiesBuffer machine act).toNat + copiesOf acts (act.perform machine).2

section Acts

variable {machine : Machine} {model : Reference.Machine}

/-- An action that is refused adds nothing. -/
theorem act_adds {count : Nat} {action : Except StepError Reference.Action} (hr : Holding PlainHandle model.registers)
    (ha : Found (AddsAction model.session count) action) (hb : Found (Behaved model.session) action) :
    Holding PlainHandle (model.act action).2.registers ∧ (model.act action).2.session.tree.copies =
      model.session.tree.copies + if (model.act action).1.isOk = true then count else 0 := by
  have hrefused := (Blocks.act_outcome hb).2
  cases action with
  | error e => exact ⟨hr, rfl⟩
  | ok action =>
    have hadds := ha model.registers hr
    cases hx : action model.registers model.session with
    | ok answer session =>
      rw [hx] at hadds
      rw [Reference.act_of_ok hx]
      exact ⟨hadds.2, hadds.1⟩
    | error e session =>
      rw [Reference.act_of_error hx] at hrefused ⊢
      exact ⟨hr, congrArg Term.copies (hrefused _ rfl).1.tree⟩

/-- The type of an argument is the same by value. -/
theorem type?_eq {arena : Arena} {registers : Script.Registers} {others : Reference.Registers}
    (h : SameRegisters arena registers others) : registers.type? = others.type? := by
  funext arg
  have hsame := h.operand arg
  unfold Script.Registers.type? Reference.Registers.type?
  generalize registers.operand arg = x at hsame
  generalize others.operand arg = y at hsame
  cases hsame with
  | ok h => simp [Except.toOption, h.type]
  | error => rfl

/-- Both sides refuse, or neither does. -/
theorem isOk_eq {α β : Type} {same : α → β → Prop} {x : Except StepError α} {y : Except StepError β}
    (h : SameResult same x y) : x.isOk = y.isOk := by
  cases h <;> rfl

/-- The counterpart of an act adds an assignment of a buffer exactly if the act writes one. -/
theorem counterpart_adds (machine : Machine) (hr : Holding PlainHandle model.registers) (act : Act) :
    Found (AddsAction model.session (writesBuffer model.registers.type? act).toNat)
      (Blocks.counterpart machine model act) := by
  cases act with
  | call call result => exact call_adds hr call result
  | opening opening result => exact opening_adds hr opening result
  | leave block =>
    have hadds : Adds model.session 0 anyAnswer
        (Blocks.closing (machine.session.current.id = block.id) block.kind model.session) :=
      .after Blocks.current_quiet fun _ => .guard fun _ => exit_adds
    exact answers_adds .done hadds

/-- One act, by value: the handles stay as they should be, and an assignment of a buffer is added exactly if the act writes one. -/
theorem act_counted (h : Paired machine model) (hr : Holding PlainHandle model.registers) (act : Act) :
    Holding PlainHandle (model.act (Blocks.counterpart machine model act)).2.registers ∧
      (model.act (Blocks.counterpart machine model act)).2.session.tree.copies =
        model.session.tree.copies + (copiesBuffer machine act).toNat := by
  obtain ⟨hplain, hcopies⟩ := act_adds hr (counterpart_adds machine hr act) (Blocks.counterpart_behaved machine model act)
  refine ⟨hplain, hcopies.trans ?_⟩
  rw [copiesBuffer, type?_eq h.same.registers, ← isOk_eq (Refinement.act_same h.same (Blocks.counterpart_same h act)).outcome,
    Act.perform]
  cases (machine.act (act.action machine.registers)).1.isOk <;> simp

/-- Over a row of acts. -/
theorem exists_counted_all (acts : List Act) : ∀ {machine : Machine} {model : Reference.Machine}, Paired machine model →
    Holding PlainHandle model.registers → ∃ model', Paired (performAll acts machine) model' ∧
      model'.session.tree.copies = model.session.tree.copies + copiesOf acts machine := by
  induction acts with
  | nil =>
    intro machine model h _
    exact ⟨model, h, rfl⟩
  | cons act acts ih =>
    intro machine model h hr
    obtain ⟨hplain, hcopies⟩ := act_counted h hr act
    obtain ⟨model', hpaired, hrest⟩ := ih (Blocks.performed_counterpart h act).paired hplain
    refine ⟨model', hpaired, ?_⟩
    rw [hrest, hcopies, copiesOf, Nat.add_assoc]

/-- What a run has recorded is a program, with as many assignments of buffers as there were calls that wrote one. -/
theorem exists_recorded_copies (acts : List Act) : ∃ Γ root,
    (performAll acts .start).session.arena.tree Session.root = .ok root ∧
      Recording.Recorded Γ root (performAll acts .start).session.names ∧ root.term.copies = copiesOf acts .start := by
  obtain ⟨model, hpaired, hcopies⟩ := exists_counted_all acts Blocks.paired_start (by intro register hm; cases hm)
  obtain ⟨Γ, hgood, -⟩ := hpaired.good
  obtain ⟨root, hroot, hterm, hrecorded⟩ := Recording.exists_recorded_of_good hgood hpaired.same.session
  refine ⟨Γ, root, hroot, hrecorded, ?_⟩
  rw [hterm, hcopies]
  exact Nat.zero_add _

end Acts

end Buffers

end ShaderTrace
