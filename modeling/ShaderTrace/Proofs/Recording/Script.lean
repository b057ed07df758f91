import ShaderTrace.Proofs.Recording.Recorder
import ShaderTrace.Proofs.Refinement.Script
import ShaderTrace.Proofs.Registers

/-!
# Whatever is recorded satisfies the judgements

A script that starts with nothing keeps a good session and typed handles in its registers, whatever its steps are and whichever
of them fail. What it leaves in the arena is therefore a program that is an item (`exists_recorded`).
-/

namespace ShaderTrace.Recording

open Script (Arg Call Opening Step StepError)

/-! ## Registers -/

/-- Every register holds a typed handle. -/
def TypedRegisters (Γ : Ledger) : Reference.Registers → Prop := Holding (TypedHandle Γ)

section Registers

variable {registers : Reference.Registers} {Γ Γ' : Ledger}

/-- The registers stay typed as the ledger grows. -/
theorem TypedRegisters.extend (hp : Γ <+: Γ') (h : TypedRegisters Γ registers) : TypedRegisters Γ' registers :=
  fun register hm => (h register hm).extend hp

/-- The operand that an argument stands for is typed. -/
theorem TypedRegisters.operand (h : TypedRegisters Γ registers) (arg : Arg) :
    Found (TypedOperand Γ) (registers.operand arg) :=
  Holding.operand h (fun _ hh => hh) (fun _ => trivial) arg

theorem TypedRegisters.integer (h : TypedRegisters Γ registers) (arg : Arg) :
    Found (TypedOperand Γ) (registers.integer arg) :=
  (h.operand arg).integer

theorem TypedRegisters.valueOperand (h : TypedRegisters Γ registers) (arg : Arg) :
    Found (TypedValue Γ) (registers.valueOperand arg) :=
  (h.operand arg).valueOperand

/-- The operands that arguments stand for are typed. -/
theorem TypedRegisters.operands (h : TypedRegisters Γ registers) (args : List Arg) :
    Found (fun operands => ∀ operand ∈ operands, TypedOperand Γ operand) (args.mapM registers.operand) :=
  Found.mapM h.operand args

end Registers

/-! ## Calls -/

/-- The action keeps the judgements, and leaves typed handles in typed registers. -/
def KeepingAction (Γ : Ledger) (session : Reference.Session) (action : Reference.Action) : Prop :=
  ∀ registers, TypedRegisters Γ registers →
    Keeping Good Γ (fun Γ' answer => TypedRegisters Γ' answer.2) (action registers session)

section Actions

variable {Γ : Ledger} {session : Reference.Session}

/-- An action that puts a value into a register keeps the machine good if the value is typed. -/
theorem yields_keeping (result : Option String) {x : Reference.Recorder Reference.Value}
    (h : Keeping Good Γ (fun Γ' value => TypedValue Γ' value) (x session)) :
    KeepingAction Γ session (Reference.yields result x) := fun _ hr =>
  h.bind fun _ _ _ hp h' hv => Keeping.pure h' ((hr.extend hp).setResult result hv)

/-- An action that changes a register keeps the machine good if the new value is typed. -/
theorem changes_keeping (target : String) {x : Reference.Recorder Reference.Value}
    (h : Keeping Good Γ (fun Γ' value => TypedValue Γ' value) (x session)) :
    KeepingAction Γ session (Reference.changes target x) := fun _ hr =>
  h.bind fun _ _ _ hp h' hv => Keeping.pure h' ((hr.extend hp).set target hv)

/-- An action that yields a lane and changes its owner keeps the machine good if both are typed. -/
theorem yieldsLane_keeping (owner : String) (result : Option String)
    {x : Reference.Recorder (Reference.Value × Reference.Value)}
    (h : Keeping Good Γ (fun Γ' answer => TypedValue Γ' answer.1 ∧ TypedValue Γ' answer.2) (x session)) :
    KeepingAction Γ session (Reference.yieldsLane owner result x) := fun _ hr =>
  h.bind fun answer _ _ hp h' hv => Keeping.pure h'
    ((@Holding.set _ _ (hr.extend hp) owner (.value answer.2) hv.2).setResult result hv.1)

/-- An action that only answers keeps the machine good. -/
theorem answers_keeping (reply : Reference.Reply) {x : Reference.Recorder Unit} (h : Keeping Good Γ anything (x session)) :
    KeepingAction Γ session (Reference.answers reply x) := fun _ hr =>
  h.bind fun _ _ _ hp h' _ => Keeping.pure h' (hr.extend hp)

variable {registers : Reference.Registers}

/-- Every call keeps the judgements. -/
theorem call_keeping (h : Good Γ session) (hr : TypedRegisters Γ registers) (call : Call) (result : Option String) :
    Found (KeepingAction Γ session) (Reference.callAction call result registers) := by
  cases call with
  | enter kind => exact answers_keeping .node (enter_keeping h kind)
  | exit => exact answers_keeping .node (exit_keeping h)
  | nextSymbol =>
    exact fun registers hr => (nextSymbol_keeping h ⟨.int, false, rfl⟩).bind fun _ _ _ hp h' _ =>
      Keeping.pure h' (hr.extend hp)
  | input type name =>
    exact fun registers hr => (input_keeping h type name).bind fun input _ _ hp h' hi =>
      Keeping.pure h' (Holding.setResult (hr.extend hp) result hi)
  | output type name => exact yields_keeping result (output_keeping h type name)
  | unbound type =>
    show Found _ (if _ then _ else _)
    split
    · rename_i hn
      exact yields_keeping result (Keeping.pure h (.unbound hn))
    · rintro _ ⟨⟩
  | copy source =>
    exact (hr.handle source).bind fun handle hh registers hr => Keeping.pure h (hr.setResult result hh)
  | inspect source => exact (hr.handle source).bind fun handle hh registers hr => Keeping.pure h hr
  | assign target value =>
    refine (hr.value target).bind fun old ho => (hr.operand value).bind fun value hv => ?_
    exact changes_keeping target ((assign_keeping h ho hv).mono fun _ _ hresult => hresult.1)
  | update how target value =>
    refine (hr.value target).bind fun old ho => (hr.operand value).bind fun value hv => ?_
    exact changes_keeping target ((update_keeping h how ho hv).mono fun _ _ hresult => hresult.1)
  | var value =>
    exact (hr.operand value).bind fun value hv =>
      yields_keeping result ((var_keeping h hv).mono fun _ _ hresult => hresult.1)
  | materialize target =>
    refine (hr.value target).bind fun old ho registers hr => ?_
    exact (materialize_keeping h ho).bind fun answer _ _ hp h' ha =>
      Keeping.pure h' (Holding.set (hr.extend hp) target ha.2.1)
  | lane owner which =>
    exact (hr.value owner).bind fun old ho =>
      yieldsLane_keeping owner result ((lane_keeping h ho which).mono fun _ _ ha => ⟨ha.1.1, ha.2.1⟩)
  | component owner which =>
    refine (hr.handle owner).bind fun handle hh => ?_
    cases handle with
    | value old =>
      exact yieldsLane_keeping owner result ((component_keeping h hh which).mono fun _ _ ha => ⟨ha.1.1, ha.2.1⟩)
    | input vector =>
      simp only
      cases hlane : Reference.laneOfInput? vector which with
      | none => rintro _ ⟨⟩
      | some value => exact yields_keeping result (Keeping.pure h (laneOfInput_typed hh hlane))
  | express operator operands =>
    exact (hr.operands operands).bind fun operands ho =>
      yields_keeping result ((express_keeping h operator operands ho).mono fun _ _ hv => hv.1)
  | sample1d buffer index =>
    refine (hr.input buffer).bind fun buffer hb => (hr.operand index).bind fun index hi => ?_
    refine yields_keeping result ((express_keeping h .sample1d [.ofInput buffer, index] ?_).mono fun _ _ hv => hv.1)
    intro operand hm
    rcases List.mem_pair.1 hm with rfl | rfl
    · exact hb
    · exact hi
  | sample2d buffer x y =>
    refine (hr.input buffer).bind fun buffer hb => (hr.operand x).bind fun x hx => (hr.operand y).bind fun y hy => ?_
    refine yields_keeping result ((express_keeping h .sample2d [.ofInput buffer, x, y] ?_).mono fun _ _ hv => hv.1)
    intro operand hm
    rcases List.mem_cons.1 hm with rfl | hm
    · exact hb
    · rcases List.mem_pair.1 hm with rfl | rfl
      · exact hx
      · exact hy
  | sampleAt buffer coordinate =>
    refine (hr.input buffer).bind fun buffer hb => (hr.valueOperand coordinate).bind fun coordinate hc => ?_
    exact yields_keeping result (sampleAt_keeping h hb hc)
  | beginIf condition => exact (hr.operand condition).bind fun _ hc => answers_keeping .done (beginIf_keeping h hc)
  | beginElseIf condition =>
    exact (hr.operand condition).bind fun _ hc => answers_keeping .done (beginElseIf_keeping h hc)
  | beginElse => exact answers_keeping .done (beginElse_keeping h)
  | beginWhile condition => exact (hr.operand condition).bind fun _ hc => answers_keeping .done (beginWhile_keeping h hc)
  | beginFor name start stop =>
    exact (hr.integer start).bind fun _ hs => (hr.integer stop).bind fun _ ht =>
      yields_keeping result (beginFor_keeping h name hs ht)

/-- So does whatever opens a block. -/
theorem opening_keeping (h : Good Γ session) (hr : TypedRegisters Γ registers) (opening : Opening)
    (result : Option String) : Found (KeepingAction Γ session) (Reference.openingAction opening result registers) := by
  cases opening with
  | enter kind => exact answers_keeping .done (enter_keeping h kind)
  | ifThen condition => exact (hr.operand condition).bind fun _ hc => answers_keeping .done (beginIf_keeping h hc)
  | elseIf condition =>
    exact (hr.operand condition).bind fun _ hc => answers_keeping .done (reopenElseIf_keeping h hc)
  | otherwise => exact answers_keeping .done (reopenElse_keeping h)
  | whileDo condition => exact (hr.operand condition).bind fun _ hc => answers_keeping .done (beginWhile_keeping h hc)
  | forRange name start stop =>
    exact (hr.integer start).bind fun _ hs => (hr.integer stop).bind fun _ ht =>
      yields_keeping result (beginFor_keeping h name hs ht)

end Actions

/-! ## Runs -/

/-- The session is good, and the registers hold typed handles. -/
def GoodMachine (machine : Reference.Machine) : Prop :=
  ∃ Γ, Good Γ machine.session ∧ TypedRegisters Γ machine.registers

/-- To act leaves the machine good, whether the action succeeds, fails or is not found. -/
theorem act_good {machine : Reference.Machine} {Γ : Ledger} (h : Good Γ machine.session)
    (hr : TypedRegisters Γ machine.registers) {action : Except StepError Reference.Action}
    (ha : Found (KeepingAction Γ machine.session) action) : GoodMachine (machine.act action).2 := by
  cases action with
  | error e => exact ⟨Γ, h, hr⟩
  | ok action =>
    have hkeep := ha machine.registers hr
    simp only [Reference.Machine.act, EStateM.run]
    cases hx : action machine.registers machine.session with
    | ok answer session =>
      rw [hx] at hkeep
      obtain ⟨Γ', -, hgood, htyped⟩ := hkeep
      exact ⟨Γ', hgood, htyped⟩
    | error e session =>
      rw [hx] at hkeep
      obtain ⟨Γ', hp, hgood⟩ := hkeep
      exact ⟨Γ', hgood, hr.extend hp⟩

/-- To repeat keeps the machine good if each time does. -/
theorem iterate_good {body : Reference.Machine → Option TraceError × Reference.Machine}
    (hb : ∀ machine, GoodMachine machine → GoodMachine (body machine).2) (times : Nat) :
    ∀ {machine : Reference.Machine}, GoodMachine machine → GoodMachine (Reference.iterate body times machine).2 := by
  induction times with
  | zero => intro machine h; exact h
  | succ times ih =>
    intro machine h
    have hnext := hb machine h
    simp only [Reference.iterate]
    generalize body machine = run at *
    obtain ⟨ended, machine'⟩ := run
    cases ended with
    | some e => exact hnext
    | none => exact ih hnext

mutual

/-- Every step leaves a good machine behind. -/
theorem step_good : ∀ (step : Step) {machine : Reference.Machine}, GoodMachine machine →
    GoodMachine (Reference.runStep step machine).2.2
  | .call call result caught, machine, ⟨Γ, h, hr⟩ => by
    rw [Reference.runStep]
    exact act_good h hr (call_keeping h hr call result)
  | .block opening result body caught, machine, ⟨Γ, h, hr⟩ => by
    have hact := act_good h hr (opening_keeping h hr opening result)
    rw [Reference.runStep]
    generalize machine.act (Reference.openingAction opening result machine.registers) = answer at *
    obtain ⟨outcome, machine₁⟩ := answer
    cases outcome with
    | error e => exact hact
    | ok reply =>
      have hbody := steps_good body hact
      simp only
      generalize Reference.runAll body machine₁ = run at *
      obtain ⟨entries, ended, machine₂⟩ := run
      cases ended with
      | some e => exact hbody
      | none =>
        obtain ⟨Γ₂, h₂, hr₂⟩ := hbody
        have hleave : KeepingAction Γ₂ machine₂.session
            (Reference.answers .done (Reference.leave machine₁.session.current)) :=
          answers_keeping .done (leave_keeping h₂ machine₁.session.current)
        exact act_good h₂ hr₂ hleave
  | .repeated times body caught, machine, h => by
    rw [Reference.runStep]
    exact @iterate_good (fun machine => (Reference.runAll body machine).2) (fun _ h => steps_good body h) times _ h

/-- The steps of a body keep the machine good, up to the first that fails. -/
theorem steps_good : ∀ (steps : List Step) {machine : Reference.Machine}, GoodMachine machine →
    GoodMachine (Reference.runAll steps machine).2.2
  | [], machine, h => by
    rw [Reference.runAll]
    exact h
  | step :: steps, machine, h => by
    have hstep := step_good step h
    rw [Reference.runAll]
    generalize Reference.runStep step machine = run at *
    obtain ⟨entry, ended, machine₁⟩ := run
    cases ended with
    | some e => exact hstep
    | none => exact steps_good steps hstep

end

/-- The steps of a script keep the machine good. -/
theorem every_good (steps : List Step) : ∀ {machine : Reference.Machine}, GoodMachine machine →
    GoodMachine (Reference.runEvery steps machine).2 := by
  induction steps with
  | nil => intro machine h; exact h
  | cons step steps ih => intro machine h; exact ih (step_good step h)

/-! ## What is left in the arena -/

/-- A program that was recorded, with the names that were declared. -/
structure Recorded (Γ : Ledger) (root : Tree) (names : List String) : Prop where
  item : Item Γ root.term
  kind : root.kind = .program
  /-- Symbols are new where they are introduced. -/
  fresh : Fresh [] root.term.heads
  names_eq : names = root.term.heads.filterMap Head.declared?
  nodup : names.Nodup

/-- What a good session has recorded by value is a program in the arena. -/
theorem exists_recorded_of_good {Γ : Ledger} {session : Session} {model : Reference.Session} (hgood : Good Γ model)
    (hsame : Refinement.Related session model) : ∃ root, session.arena.tree Session.root = .ok root ∧
      root.term = model.tree ∧ Recorded Γ root session.names := by
  obtain ⟨tree, htree, hterm⟩ := hsame.tree
  obtain ⟨frame, frames, hm⟩ := hsame
  have hplug := hgood.spine.plug
  rw [← Reference.Session.tree, ← hterm] at hplug
  refine ⟨tree, htree, hterm, hplug.1, ?_, ?_, ?_, ?_⟩
  · rw [← Tree.term_kind]; exact hplug.2
  · rw [hterm]; exact hgood.fresh
  · rw [hterm, hm.names]; exact hgood.names
  · rw [hm.names]; exact hgood.nodup

/-- Whatever a script does, it leaves a program in the arena. -/
theorem exists_recorded (steps : List Step) : ∃ (Γ : Ledger) (root : Tree),
    (Script.runEvery steps .start).2.session.arena.tree Session.root = .ok root ∧
      Recorded Γ root (Script.runEvery steps .start).2.session.names := by
  have hstart : GoodMachine .start := ⟨[], good_start, by intro register hm; cases hm⟩
  obtain ⟨Γ, hgood, -⟩ := every_good steps hstart
  have hsame := (Refinement.every_same steps Refinement.start_same).1.session
  obtain ⟨root, hroot, -, hrecorded⟩ := exists_recorded_of_good hgood hsame
  exact ⟨Γ, root, hroot, hrecorded⟩

/-- What has been recorded so far, as if the recording were finished. -/
def sourceOf (steps : List Step) : Source where
  arena := (Script.runEvery steps .start).2.session.arena
  symbolCount := (Script.runEvery steps .start).2.session.symbolCount

/-- A session is finished exactly if no block is open. -/
theorem session_finish_eq_ok_iff {session : Session} {source : Source} :
    session.finish = .ok source ↔ session.outer.isEmpty = true ∧ source = ⟨session.arena, session.symbolCount⟩ := by
  unfold Session.finish
  split
  · rename_i h
    simp only [h, Except.ok.injEq, true_and]
    exact eq_comm
  · rename_i h
    simp [h]

/-- A script is finished exactly if no block is open after its last step. -/
theorem finish_eq_ok_iff {steps : List Step} {source : Source} :
    (Script.runEvery steps .start).2.session.finish = .ok source ↔
      (Script.runEvery steps .start).2.session.outer.isEmpty = true ∧ source = sourceOf steps :=
  session_finish_eq_ok_iff

/-- A finished recording is a program. -/
theorem exists_recorded_of_finish {steps : List Step} {source : Source}
    (h : (Script.runEvery steps .start).2.session.finish = .ok source) : ∃ (Γ : Ledger) (root : Tree),
    source.arena.tree Session.root = .ok root ∧ Recorded Γ root (Script.runEvery steps .start).2.session.names := by
  rw [(finish_eq_ok_iff.1 h).2]
  exact exists_recorded steps

end ShaderTrace.Recording
