import ShaderTrace.Proofs.Refinement.Script
import ShaderTrace.Proofs.Renaming.Recorder

/-!
# Scripts with other symbols

A script runs on corresponding sessions, with registers that hold the same handles but for their symbols, as if they were one:
every step ends in the same way, and leaves sessions and registers that correspond again (`runAll_renamed`).
-/

namespace ShaderTrace.Reference

open Script (Arg Call Opening Step StepError)
open Refinement (SameResult)

/-! ## Registers -/

/-- Under every name the registers hold the same handle, but for its symbols. -/
def RenamedRegisters (ρ : Renaming) (registers registers' : Registers) : Prop :=
  ∀ name, registers'.lookup name = (registers.lookup name).map (Handle.rename ρ.rename)

/-- To drop a name does not change what is looked up under another. -/
theorem Registers.lookup_filter {name other : String} (h : (other == name) = false) (registers : Registers) :
    (registers.filter (·.1 != name)).lookup other = registers.lookup other := by
  induction registers with
  | nil => rfl
  | cons register registers ih =>
    obtain ⟨key, handle⟩ := register
    rw [List.filter_cons, List.lookup_cons]
    cases hk : key == name with
    | true =>
      obtain rfl := eq_of_beq hk
      simp [ih, h]
    | false =>
      have hkept : ((key, handle).1 != name) = true := by simp [bne, hk]
      rw [if_pos hkept, List.lookup_cons, ih]

/-- To set a register does not change what is looked up under another name. -/
theorem Registers.lookup_set (registers : Registers) (name other : String) (handle : Handle) :
    (registers.set name handle).lookup other = if other == name then some handle else registers.lookup other := by
  rw [Registers.set, List.lookup_cons]
  cases h : other == name with
  | true => rfl
  | false => exact Registers.lookup_filter h registers

section Registers

variable {ρ : Renaming} {registers registers' : Registers}

/-- Registers stay renamed when a handle is put into one and the renamed one into the other. -/
theorem RenamedRegisters.set (h : RenamedRegisters ρ registers registers') (name : String) (handle : Handle) :
    RenamedRegisters ρ (registers.set name handle) (registers'.set name (handle.rename ρ.rename)) := by
  intro other
  rw [Registers.lookup_set, Registers.lookup_set, h other]
  split <;> rfl

/-- Registers stay renamed when a result is put into them or dropped. -/
theorem RenamedRegisters.setResult (h : RenamedRegisters ρ registers registers') (name : Option String) (handle : Handle) :
    RenamedRegisters ρ (registers.setResult name handle) (registers'.setResult name (handle.rename ρ.rename)) := by
  cases name with
  | none => exact h
  | some name => exact h.set name handle

/-- The second result is the first with other symbols. -/
def Renamed {α : Type} (rename : α → α) (a b : α) : Prop := b = rename a

/-- What is found in the registers is the renamed handle. -/
theorem RenamedRegisters.handle (h : RenamedRegisters ρ registers registers') (name : String) :
    SameResult (Renamed (Handle.rename ρ.rename)) (registers.handle name) (registers'.handle name) := by
  unfold Registers.handle
  rw [h name]
  cases registers.lookup name with
  | none => exact .error _
  | some handle => exact .ok rfl

theorem RenamedRegisters.value (h : RenamedRegisters ρ registers registers') (name : String) :
    SameResult (Renamed (Value.rename ρ.rename)) (registers.value name) (registers'.value name) := by
  refine (h.handle name).bind fun handle _ hh => ?_
  cases hh
  cases handle with
  | value value => exact .ok rfl
  | input => exact .error _

theorem RenamedRegisters.input (h : RenamedRegisters ρ registers registers') (name : String) :
    SameResult (Renamed (Input.rename ρ.rename)) (registers.input name) (registers'.input name) := by
  refine (h.handle name).bind fun handle _ hh => ?_
  cases hh
  cases handle with
  | value => exact .error _
  | input => exact .ok rfl

/-- The operand that an argument stands for is the renamed one. -/
theorem RenamedRegisters.operand (h : RenamedRegisters ρ registers registers') (arg : Arg) :
    SameResult (Renamed (Operand.rename ρ.rename)) (registers.operand arg) (registers'.operand arg) := by
  cases arg with
  | register name => exact (h.handle name).bind fun _ _ hh => .ok (congrArg Operand.handle hh)
  | literal => exact .ok rfl

theorem RenamedRegisters.integer (h : RenamedRegisters ρ registers registers') (arg : Arg) :
    SameResult (Renamed (Operand.rename ρ.rename)) (registers.integer arg) (registers'.integer arg) := by
  refine (h.operand arg).bind fun operand _ ho => ?_
  cases ho
  rw [Operand.type_rename]
  split
  · exact .ok rfl
  · exact .error _

theorem RenamedRegisters.valueOperand (h : RenamedRegisters ρ registers registers') (arg : Arg) :
    SameResult (Renamed (Value.rename ρ.rename)) (registers.valueOperand arg) (registers'.valueOperand arg) := by
  refine (h.operand arg).bind fun operand _ ho => ?_
  cases ho
  cases operand with
  | literal => exact .error _
  | handle handle =>
    cases handle with
    | value => exact .ok rfl
    | input => exact .error _

/-- The operands that arguments stand for are the renamed ones. -/
theorem RenamedRegisters.operands (h : RenamedRegisters ρ registers registers') (args : List Arg) :
    SameResult (Renamed (List.map (Operand.rename ρ.rename))) (args.mapM registers.operand)
      (args.mapM registers'.operand) := by
  induction args with
  | nil => exact .ok rfl
  | cons arg args ih =>
    rw [List.mapM_cons, List.mapM_cons]
    refine (h.operand arg).bind fun _ _ ho => ih.bind fun _ _ hs => .ok ?_
    cases ho
    cases hs
    rfl

end Registers

/-! ## Calls -/

/-- Both were refused for the same reason, or both left registers that correspond. What they answered does not matter. -/
def ActedInStep (ρ : Renaming) :
    EStateM.Result TraceError Session (Reply × Registers) → EStateM.Result TraceError Session (Reply × Registers) → Prop :=
  Together (fun answer session answer' session' => RenamedRegisters ρ answer.2 answer'.2 ∧ Corresponds ρ session session')
    fun e session e' session' => e' = e ∧ Corresponds ρ session session'

def RenamedAction (ρ : Renaming) (session session' : Session) (action action' : Action) : Prop :=
  ∀ registers registers', RenamedRegisters ρ registers registers' →
    ActedInStep ρ (action registers session) (action' registers' session')

section Actions

variable {ρ : Renaming} {session session' : Session}

/-- An action that records something, and then sets registers by what it got. -/
theorem InStep.acted {α β : Type} {image : α → β} {x : Recorder α} {y : Recorder β} {k : α → Reply × Registers}
    {k' : β → Reply × Registers} (h : InStep ρ image (x session) (y session'))
    (hk : ∀ a, RenamedRegisters ρ (k a).2 (k' (image a)).2) :
    ActedInStep ρ ((x >>= fun a => Pure.pure (k a)) session) ((y >>= fun b => Pure.pure (k' b)) session') := by
  refine Together.bind h (fun _ _ _ _ => id) ?_
  rintro a s b s' ⟨rfl, hs⟩
  exact ⟨hk a, hs⟩

/-- Actions that put a value into a register are in step if the recorders are. -/
theorem yields_renamed (result : Option String) {x y : Recorder Value}
    (h : InStep ρ (Value.rename ρ.rename) (x session) (y session')) :
    RenamedAction ρ session session' (yields result x) (yields result y) :=
  fun _ _ hr => h.acted fun value => hr.setResult result (.value value)

/-- Actions that change a register are in step if the recorders are. -/
theorem changes_renamed (target : String) {x y : Recorder Value}
    (h : InStep ρ (Value.rename ρ.rename) (x session) (y session')) :
    RenamedAction ρ session session' (changes target x) (changes target y) :=
  fun _ _ hr => h.acted fun value => hr.set target (.value value)

/-- Actions that yield a lane and change its owner are in step if the recorders are. -/
theorem yieldsLane_renamed (owner : String) (result : Option String) {x y : Recorder (Value × Value)}
    (h : InStep ρ (Prod.map (Value.rename ρ.rename) (Value.rename ρ.rename)) (x session) (y session')) :
    RenamedAction ρ session session' (yieldsLane owner result x) (yieldsLane owner result y) :=
  fun _ _ hr => h.acted fun pair => (hr.set owner (.value pair.2)).setResult result (.value pair.1)

/-- Actions that only answer are in step if the recorders are. -/
theorem answers_renamed (reply reply' : Reply) {x y : Recorder Unit} (h : InStep ρ id (x session) (y session')) :
    RenamedAction ρ session session' (answers reply x) (answers reply' y) :=
  fun _ _ hr => h.acted fun _ => hr

variable {registers registers' : Registers}

/-- Every call does the same on either side. -/
theorem callAction_renamed (h : Corresponds ρ session session') (hr : RenamedRegisters ρ registers registers') (call : Call)
    (result : Option String) :
    SameResult (RenamedAction ρ session session') (callAction call result registers) (callAction call result registers') := by
  cases call with
  | enter kind => exact .ok (answers_renamed _ _ (enter_renamed kind h))
  | exit => exact .ok (answers_renamed _ _ (exit_renamed h))
  | nextSymbol => exact .ok fun _ _ hr => (nextSymbol_renamed h).acted fun _ => hr
  | input type name =>
    exact .ok fun _ _ hr => (input_renamed type name h).acted fun input => hr.setResult result (.input input)
  | output type name => exact .ok (yields_renamed result (output_renamed type name h))
  | unbound type =>
    show SameResult _ (if _ then _ else _) (if _ then _ else _)
    split
    · exact .ok (yields_renamed result (InStep.pure h rfl))
    · exact .error _
  | copy source =>
    refine (hr.handle source).bind fun handle _ hh => ?_
    cases hh
    exact .ok fun _ _ hr => ⟨hr.setResult result handle, h⟩
  | inspect source => exact (hr.handle source).bind fun _ _ _ => .ok fun _ _ hr => ⟨hr, h⟩
  | assign target value =>
    refine (hr.value target).bind fun old _ ht => (hr.operand value).bind fun value _ hv => ?_
    cases ht
    cases hv
    exact .ok (changes_renamed target (assign_renamed old value h))
  | update how target value =>
    refine (hr.value target).bind fun old _ ht => (hr.operand value).bind fun value _ hv => ?_
    cases ht
    cases hv
    exact .ok (changes_renamed target (update_renamed how old value h))
  | var value =>
    refine (hr.operand value).bind fun value _ hv => ?_
    cases hv
    exact .ok (yields_renamed result (var_renamed value h))
  | materialize target =>
    refine (hr.value target).bind fun old _ ht => ?_
    cases ht
    exact .ok fun _ _ hr => (materialize_renamed old h).acted fun pair => hr.set target (.value pair.2)
  | lane owner which =>
    refine (hr.value owner).bind fun old _ ho => ?_
    cases ho
    exact .ok (yieldsLane_renamed owner result (lane_renamed old which h))
  | component owner which =>
    refine (hr.handle owner).bind fun handle _ hh => ?_
    cases hh
    cases handle with
    | value old => exact .ok (yieldsLane_renamed owner result (component_renamed old which h))
    | input vector =>
      simp only [Handle.rename, laneOfInput?, Input.rename]
      cases vector.type.isVector && decide (which.index < vector.type.lanes) with
      | false => exact .error _
      | true =>
        cases vector.type.lane? with
        | none => exact .error _
        | some type => exact .ok (yields_renamed result (InStep.pure h rfl))
  | express operator operands =>
    refine (hr.operands operands).bind fun operands _ hs => ?_
    cases hs
    exact .ok (yields_renamed result (express_renamed operator operands h))
  | sample1d buffer index =>
    refine (hr.input buffer).bind fun buffer _ hb => (hr.operand index).bind fun index _ hi => ?_
    cases hb
    cases hi
    exact .ok (yields_renamed result (express_renamed .sample1d [.ofInput buffer, index] h))
  | sample2d buffer x y =>
    refine (hr.input buffer).bind fun buffer _ hb => (hr.operand x).bind fun x _ hx => (hr.operand y).bind fun y _ hy => ?_
    cases hb
    cases hx
    cases hy
    exact .ok (yields_renamed result (express_renamed .sample2d [.ofInput buffer, x, y] h))
  | sampleAt buffer coordinate =>
    refine (hr.input buffer).bind fun buffer _ hb => (hr.valueOperand coordinate).bind fun coordinate _ hc => ?_
    cases hb
    cases hc
    exact .ok (yields_renamed result (sampleAt_renamed buffer coordinate h))
  | beginIf condition =>
    refine (hr.operand condition).bind fun condition _ hc => ?_
    cases hc
    exact .ok (answers_renamed _ _ (beginIf_renamed condition h))
  | beginElseIf condition =>
    refine (hr.operand condition).bind fun condition _ hc => ?_
    cases hc
    exact .ok (answers_renamed _ _ (beginElseIf_renamed condition h))
  | beginElse => exact .ok (answers_renamed _ _ (beginElse_renamed h))
  | beginWhile condition =>
    refine (hr.operand condition).bind fun condition _ hc => ?_
    cases hc
    exact .ok (answers_renamed _ _ (beginWhile_renamed condition h))
  | beginFor name start stop =>
    refine (hr.integer start).bind fun start _ hs => (hr.integer stop).bind fun stop _ ht => ?_
    cases hs
    cases ht
    exact .ok (yields_renamed result (beginFor_renamed name start stop h))

/-- So does whatever opens a block. -/
theorem openingAction_renamed (h : Corresponds ρ session session') (hr : RenamedRegisters ρ registers registers')
    (opening : Opening) (result : Option String) :
    SameResult (RenamedAction ρ session session') (openingAction opening result registers)
      (openingAction opening result registers') := by
  cases opening with
  | enter kind => exact .ok (answers_renamed _ _ (enter_renamed kind h))
  | ifThen condition =>
    refine (hr.operand condition).bind fun condition _ hc => ?_
    cases hc
    exact .ok (answers_renamed _ _ (beginIf_renamed condition h))
  | elseIf condition =>
    refine (hr.operand condition).bind fun condition _ hc => ?_
    cases hc
    exact .ok (answers_renamed _ _ (reopenElseIf_renamed condition h))
  | otherwise => exact .ok (answers_renamed _ _ (reopenElse_renamed h))
  | whileDo condition =>
    refine (hr.operand condition).bind fun condition _ hc => ?_
    cases hc
    exact .ok (answers_renamed _ _ (beginWhile_renamed condition h))
  | forRange name start stop =>
    refine (hr.integer start).bind fun start _ hs => (hr.integer stop).bind fun stop _ ht => ?_
    cases hs
    cases ht
    exact .ok (yields_renamed result (beginFor_renamed name start stop h))

end Actions

/-! ## Runs -/

structure RenamedMachine (ρ : Renaming) (machine machine' : Machine) : Prop where
  session : Corresponds ρ machine.session machine'.session
  registers : RenamedRegisters ρ machine.registers machine'.registers

/-- Two outcomes that both are a reply, or the same error. -/
abbrev SameOutcome : Except StepError Reply → Except StepError Reply → Prop := SameResult fun _ _ => True

section Runs

variable {ρ : Renaming} {machine machine' : Machine}

/-- To act is in step, whether the action succeeds, fails or is not found. -/
theorem act_renamed (h : RenamedMachine ρ machine machine') {action action' : Except StepError Action}
    (ha : SameResult (RenamedAction ρ machine.session machine'.session) action action') :
    SameOutcome (machine.act action).1 (machine'.act action').1 ∧
      RenamedMachine ρ (machine.act action).2 (machine'.act action').2 := by
  cases ha with
  | error e => exact ⟨.error e, h⟩
  | @ok action action' ha =>
    have hacted := ha machine.registers machine'.registers h.registers
    simp only [Machine.act, EStateM.run]
    cases hx : action machine.registers machine.session with
    | ok answer s =>
      rw [hx] at hacted
      cases hy : action' machine'.registers machine'.session with
      | ok answer' s' =>
        rw [hy] at hacted
        exact ⟨.ok trivial, hacted.2, hacted.1⟩
      | error e s' => rw [hy] at hacted; exact hacted.elim
    | error e s =>
      rw [hx] at hacted
      cases hy : action' machine'.registers machine'.session with
      | ok answer' s' => rw [hy] at hacted; exact hacted.elim
      | error e' s' =>
        rw [hy] at hacted
        obtain ⟨rfl, hs⟩ := hacted
        exact ⟨.error _, hs, h.registers⟩

/-- To leave up to a block is in step with leaving up to the one of the same number. -/
theorem leave_act_renamed (h : RenamedMachine ρ machine machine') {block block' : Block} (hn : block'.number = block.number)
    (hk : block'.kind = block.kind) :
    SameOutcome (machine.leave block).1 (machine'.leave block').1 ∧
      RenamedMachine ρ (machine.leave block).2 (machine'.leave block').2 :=
  act_renamed h (.ok (answers_renamed _ _ (leave_renamed h.session hn hk)))

/-- The same errors go uncaught. -/
theorem uncaught_renamed (caught : Bool) {outcome outcome' : Except StepError Reply} (h : SameOutcome outcome outcome') :
    uncaught caught outcome' = uncaught caught outcome := by
  cases h <;> rfl

/-- What a run leaves behind: the error that ends the body around it, and the machine afterwards. -/
def RanInStep (ρ : Renaming) (run run' : Option TraceError × Machine) : Prop := run'.1 = run.1 ∧ RenamedMachine ρ run.2 run'.2

/-- To repeat is in step if each time is. -/
theorem iterate_renamed {body : Machine → Option TraceError × Machine}
    (hb : ∀ machine machine', RenamedMachine ρ machine machine' → RanInStep ρ (body machine) (body machine')) (times : Nat)
    (h : RenamedMachine ρ machine machine') : RanInStep ρ (iterate body times machine) (iterate body times machine') := by
  induction times generalizing machine machine' with
  | zero => exact ⟨rfl, h⟩
  | succ times ih =>
    have hbody := hb machine machine' h
    simp only [iterate]
    generalize body machine = run at *
    generalize body machine' = run' at *
    obtain ⟨ended, machine₁⟩ := run
    obtain ⟨ended', machine₁'⟩ := run'
    obtain ⟨hended, hsame⟩ := hbody
    obtain rfl : ended' = ended := hended
    cases ended' with
    | some e => exact ⟨rfl, hsame⟩
    | none => exact ih hsame

end Runs

mutual

/-- Every step does the same on either side. -/
theorem runStep_renamed {ρ : Renaming} : ∀ (step : Step) {machine machine' : Machine}, RenamedMachine ρ machine machine' →
    RanInStep ρ (runStep step machine).2 (runStep step machine').2
  | .call call result caught, machine, machine', h => by
    obtain ⟨ho, hsame⟩ := act_renamed h (callAction_renamed h.session h.registers call result)
    rw [runStep, runStep]
    exact ⟨uncaught_renamed caught ho, hsame⟩
  | .block opening result body caught, machine, machine', h => by
    have hopen := act_renamed h (openingAction_renamed h.session h.registers opening result)
    rw [runStep, runStep]
    generalize machine.act (openingAction opening result machine.registers) = acted at *
    generalize machine'.act (openingAction opening result machine'.registers) = acted' at *
    obtain ⟨outcome, machine₁⟩ := acted
    obtain ⟨outcome', machine₁'⟩ := acted'
    obtain ⟨ho, hsame⟩ := hopen
    change SameOutcome outcome outcome' at ho
    cases ho with
    | error e => exact ⟨rfl, hsame⟩
    | ok _ =>
      have hbody := runAll_renamed body hsame
      have hblock := hsame.session
      simp only at hblock ⊢
      generalize runAll body machine₁ = run at *
      generalize runAll body machine₁' = run' at *
      obtain ⟨entries, ended, machine₂⟩ := run
      obtain ⟨entries', ended', machine₂'⟩ := run'
      obtain ⟨hended, hsame₂⟩ := hbody
      obtain rfl : ended' = ended := hended
      cases ended' with
      | some e => exact ⟨rfl, hsame₂⟩
      | none =>
        obtain ⟨hleave, hsame₃⟩ := leave_act_renamed hsame₂ hblock.number hblock.kind
        exact ⟨uncaught_renamed caught hleave, hsame₃⟩
  | .repeated times body caught, machine, machine', h => by
    have hrun : RanInStep ρ (iterate (fun machine => (runAll body machine).2) times machine)
        (iterate (fun machine => (runAll body machine).2) times machine') :=
      iterate_renamed (fun _ _ hm => runAll_renamed body hm) times h
    rw [runStep, runStep]
    generalize iterate (fun machine => (runAll body machine).2) times machine = run at *
    generalize iterate (fun machine => (runAll body machine).2) times machine' = run' at *
    obtain ⟨ended, machine₁⟩ := run
    obtain ⟨ended', machine₁'⟩ := run'
    obtain ⟨hended, hsame⟩ := hrun
    obtain rfl : ended' = ended := hended
    cases ended' with
    | some e => exact ⟨rfl, hsame⟩
    | none => exact ⟨rfl, hsame⟩

/-- The steps of a body are in step, up to the first that fails. -/
theorem runAll_renamed {ρ : Renaming} : ∀ (steps : List Step) {machine machine' : Machine}, RenamedMachine ρ machine machine' →
    RanInStep ρ (runAll steps machine).2 (runAll steps machine').2
  | [], machine, machine', h => by
    rw [runAll, runAll]
    exact ⟨rfl, h⟩
  | step :: steps, machine, machine', h => by
    have hstep := runStep_renamed step h
    rw [runAll, runAll]
    generalize runStep step machine = run at *
    generalize runStep step machine' = run' at *
    obtain ⟨entry, ended, machine₁⟩ := run
    obtain ⟨entry', ended', machine₁'⟩ := run'
    obtain ⟨hended, hsame⟩ := hstep
    obtain rfl : ended' = ended := hended
    cases ended' with
    | some e => exact ⟨rfl, hsame⟩
    | none => exact runAll_renamed steps hsame

end

end ShaderTrace.Reference
