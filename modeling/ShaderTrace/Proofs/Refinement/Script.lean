import ShaderTrace.Proofs.Refinement.Recorder
import ShaderTrace.Proofs.Reference.Script

/-!
# Scripts refine scripts by value

Whatever a script does, with copies of handles, failing calls and blocks that stay open, each step answers the same on a
session with an arena as by value, and the arena holds the same program. `script_refines` is the statement over whole
runs; it is put together from what one call, one step and one row of steps keep.
-/

namespace ShaderTrace.Refinement

open Script (Arg Call Opening Step StepError)

/-! ## What is compared -/

def SameRegisters (arena : Arena) : Script.Registers → Reference.Registers → Prop :=
  List.Forall₂ fun register other => register.1 = other.1 ∧ SameHandle arena register.2 other.2

inductive SameReply (arena : Arena) : Script.Reply → Reference.Reply → Prop
  | done : SameReply arena .done .done
  | node (id : NodeId) : SameReply arena (.node id) .node
  | symbol (symbol : SymbolId) : SameReply arena (.symbol symbol) (.symbol symbol)
  | handle {handle : Handle} {other : Reference.Handle} (h : SameHandle arena handle other) :
    SameReply arena (.handle handle) (.handle other)
  | description {handle : Handle} {other : Reference.Handle} (h : SameHandle arena handle other) :
    SameReply arena (.description handle) (.description other)
  | times (count : Nat) : SameReply arena (.times count) (.times count)

/-- Both fail with the same error, or both succeed with results that are related. -/
inductive SameResult {α β : Type} (same : α → β → Prop) : Except StepError α → Except StepError β → Prop
  | ok {a : α} {b : β} (h : same a b) : SameResult same (.ok a) (.ok b)
  | error (e : StepError) : SameResult same (.error e) (.error e)

/-- The sessions show the same number of symbols, depth and kind of the open block. -/
structure SameSnapshot (after : Script.Snapshot) (other : Reference.Snapshot) : Prop where
  symbols : after.symbols = other.symbols
  depth : after.depth = other.depth
  kind : after.block.kind = other.kind

mutual

/-- Two records of a step are equal but for the numbers of nodes. -/
def SameEntry (arena : Arena) : Script.Entry → Reference.Entry → Prop
  | .mk outcome after body, .mk outcome' after' body' =>
    SameResult (SameReply arena) outcome outcome' ∧ SameSnapshot after after' ∧ SameBody arena body body'

def SameBody (arena : Arena) : Option (List Script.Entry) → Option (List Reference.Entry) → Prop
  | none, none => True
  | some entries, some entries' => SameEntries arena entries entries'
  | _, _ => False

def SameEntries (arena : Arena) : List Script.Entry → List Reference.Entry → Prop
  | [], [] => True
  | entry :: entries, entry' :: entries' => SameEntry arena entry entry' ∧ SameEntries arena entries entries'
  | _, _ => False

end

/-- Registers stay the same while the arena keeps what it has. -/
theorem SameRegisters.keep {arena arena' : Arena} (hk : Keeps arena arena') {registers : Script.Registers}
    {others : Reference.Registers} (h : SameRegisters arena registers others) : SameRegisters arena' registers others :=
  h.imp fun _ _ hr => ⟨hr.1, hr.2.keep hk⟩

/-- Replies stay the same while the arena keeps what it has. -/
theorem SameReply.keep {arena arena' : Arena} (hk : Keeps arena arena') {reply : Script.Reply}
    {other : Reference.Reply} (h : SameReply arena reply other) : SameReply arena' reply other := by
  cases h with
  | done => exact .done
  | node id => exact .node id
  | symbol symbol => exact .symbol symbol
  | handle h => exact .handle (h.keep hk)
  | description h => exact .description (h.keep hk)
  | times count => exact .times count

/-- Results that are the same in one way are so in every weaker one. -/
theorem SameResult.mono {α β : Type} {same same' : α → β → Prop} (hs : ∀ a b, same a b → same' a b)
    {x : Except StepError α} {y : Except StepError β} (h : SameResult same x y) : SameResult same' x y := by
  cases h with
  | ok h => exact .ok (hs _ _ h)
  | error e => exact .error e

mutual

/-- Entries of the log stay the same while the arena keeps what it has. -/
theorem SameEntry.keep {arena arena' : Arena} (hk : Keeps arena arena') :
    ∀ (entry : Script.Entry) (other : Reference.Entry), SameEntry arena entry other → SameEntry arena' entry other
  | .mk outcome after body, .mk outcome' after' body', h => by
    rw [SameEntry] at h ⊢
    exact ⟨h.1.mono fun _ _ hr => hr.keep hk, h.2.1, SameBody.keep hk body body' h.2.2⟩

/-- The logs of bodies stay the same while the arena keeps what it has. -/
theorem SameBody.keep {arena arena' : Arena} (hk : Keeps arena arena') :
    ∀ (body : Option (List Script.Entry)) (other : Option (List Reference.Entry)),
      SameBody arena body other → SameBody arena' body other
  | none, none, h => h
  | none, some _, h => h
  | some _, none, h => h
  | some entries, some entries', h => by
    rw [SameBody] at h ⊢
    exact SameEntries.keep hk entries entries' h

/-- Logs stay the same while the arena keeps what it has. -/
theorem SameEntries.keep {arena arena' : Arena} (hk : Keeps arena arena') :
    ∀ (entries : List Script.Entry) (others : List Reference.Entry),
      SameEntries arena entries others → SameEntries arena' entries others
  | [], [], h => h
  | [], _ :: _, h => h
  | _ :: _, [], h => h
  | entry :: entries, other :: others, h => by
    rw [SameEntries] at h ⊢
    exact ⟨SameEntry.keep hk entry other h.1, SameEntries.keep hk entries others h.2⟩

end

/-! ## Registers -/

/-- What is done with results that are the same has results that are the same. -/
theorem SameResult.bind {α β γ δ : Type} {same : α → β → Prop} {same' : γ → δ → Prop} {x : Except StepError α}
    {y : Except StepError β} {f : α → Except StepError γ} {g : β → Except StepError δ} (h : SameResult same x y)
    (hf : ∀ a b, same a b → SameResult same' (f a) (g b)) : SameResult same' (x >>= f) (y >>= g) := by
  cases h with
  | ok h => exact hf _ _ h
  | error e => exact .error e

section Registers

variable {arena : Arena} {registers : Script.Registers} {others : Reference.Registers}

/-- Registers stay the same when a name is dropped. -/
theorem SameRegisters.filter (h : SameRegisters arena registers others) (name : String) :
    SameRegisters arena (registers.filter (·.1 != name)) (others.filter (·.1 != name)) := by
  induction h with
  | nil => exact .nil
  | @cons register other registers others hr _ ih =>
    rw [List.filter_cons, List.filter_cons, hr.1]
    split
    · exact .cons hr ih
    · exact ih

/-- Registers stay the same when handles that are the same are put into them. -/
theorem SameRegisters.set (h : SameRegisters arena registers others) (name : String) {handle : Handle}
    {other : Reference.Handle} (hh : SameHandle arena handle other) :
    SameRegisters arena (registers.set name handle) (others.set name other) :=
  .cons ⟨rfl, hh⟩ (h.filter name)

/-- Registers stay the same when a result is put into them or dropped. -/
theorem SameRegisters.setResult (h : SameRegisters arena registers others) (name : Option String) {handle : Handle}
    {other : Reference.Handle} (hh : SameHandle arena handle other) :
    SameRegisters arena (registers.setResult name handle) (others.setResult name other) := by
  cases name with
  | none => exact h
  | some name => exact h.set name hh

/-- What is found in the registers is the same. -/
theorem SameRegisters.handle (h : SameRegisters arena registers others) (name : String) :
    SameResult (SameHandle arena) (registers.handle name) (others.handle name) := by
  unfold Script.Registers.handle Reference.Registers.handle
  induction h with
  | nil => exact .error _
  | @cons register other registers others hr _ ih =>
    obtain ⟨key, handle⟩ := register
    obtain ⟨key', other⟩ := other
    obtain ⟨rfl, hh⟩ := hr
    rw [List.lookup_cons, List.lookup_cons]
    cases name == key with
    | true => exact .ok hh
    | false => exact ih

theorem SameRegisters.value (h : SameRegisters arena registers others) (name : String) :
    SameResult (SameValue arena) (registers.value name) (others.value name) := by
  refine (h.handle name).bind fun handle other hh => ?_
  cases hh with
  | value hv => exact .ok hv
  | input => exact .error _

theorem SameRegisters.input (h : SameRegisters arena registers others) (name : String) :
    SameResult Eq (registers.input name) (others.input name) := by
  refine (h.handle name).bind fun handle other hh => ?_
  cases hh with
  | value => exact .error _
  | input input => exact .ok rfl

/-- The operand that an argument stands for is the same. -/
theorem SameRegisters.operand (h : SameRegisters arena registers others) (arg : Arg) :
    SameResult (SameOperand arena) (registers.operand arg) (others.operand arg) := by
  cases arg with
  | register name => exact (h.handle name).bind fun _ _ hh => .ok (.handle hh)
  | literal value => exact .ok (.literal value)

theorem SameRegisters.integer (h : SameRegisters arena registers others) (arg : Arg) :
    SameResult (SameOperand arena) (registers.integer arg) (others.integer arg) := by
  refine (h.operand arg).bind fun operand other ho => ?_
  rw [ho.type]
  split
  · exact .ok ho
  · exact .error _

theorem SameRegisters.valueOperand (h : SameRegisters arena registers others) (arg : Arg) :
    SameResult (SameValue arena) (registers.valueOperand arg) (others.valueOperand arg) := by
  refine (h.operand arg).bind fun operand other ho => ?_
  cases ho with
  | literal => exact .error _
  | handle hh =>
    cases hh with
    | value hv => exact .ok hv
    | input => exact .error _

/-- The operands that arguments stand for are the same. -/
theorem SameRegisters.operands (h : SameRegisters arena registers others) (args : List Arg) :
    SameResult (List.Forall₂ (SameOperand arena)) (args.mapM registers.operand) (args.mapM others.operand) := by
  induction args with
  | nil => exact .ok .nil
  | cons arg args ih =>
    rw [List.mapM_cons, List.mapM_cons]
    exact (h.operand arg).bind fun _ _ ho => ih.bind fun _ _ hs => .ok (.cons ho hs)

end Registers

/-! ## Calls -/

/-- The answers are replies and registers that are equal but for the numbers of nodes. -/
def sameReply : Script.Reply × Script.Registers → Reference.Reply × Reference.Registers → Arena → Prop :=
  fun answer other arena => SameReply arena answer.1 other.1 ∧ SameRegisters arena answer.2 other.2

/-- Two actions agree on registers that hold the same handles. -/
def SameAction (session : Session) (model : Reference.Session) (action : Script.Action) (other : Reference.Action) : Prop :=
  ∀ registers others, SameRegisters session.arena registers others →
    Agree session model sameReply (action registers session) (other others model)

section Actions

variable {session : Session} {model : Reference.Session}

/-- Actions that put a value into a register are the same if the values are. -/
theorem yields_same (result : Option String) {x : Recorder Value} {y : Reference.Recorder Reference.Value}
    (h : Agree session model sameValue (x session) (y model)) :
    SameAction session model (Script.yields result x) (Reference.yields result y) := by
  intro registers others hr
  refine h.bind fun value other _ _ h' hl hv => Agree.pure h' ⟨.handle (.value hv), ?_⟩
  exact (hr.keep hl.keeps).setResult result (.value hv)

/-- Actions that change a register are the same if the values are. -/
theorem changes_same (target : String) {x : Recorder Value} {y : Reference.Recorder Reference.Value}
    (h : Agree session model sameValue (x session) (y model)) :
    SameAction session model (Script.changes target x) (Reference.changes target y) := by
  intro registers others hr
  refine h.bind fun value other _ _ h' hl hv => Agree.pure h' ⟨.handle (.value hv), ?_⟩
  exact (hr.keep hl.keeps).set target (.value hv)

/-- Actions that yield a lane and change its owner are the same if both are. -/
theorem yieldsLane_same (owner : String) (result : Option String) {x : Recorder (Value × Value)}
    {y : Reference.Recorder (Reference.Value × Reference.Value)}
    (h : Agree session model sameValues (x session) (y model)) :
    SameAction session model (Script.yieldsLane owner result x) (Reference.yieldsLane owner result y) := by
  intro registers others hr
  refine h.bind fun answer other _ _ h' hl hv => Agree.pure h' ⟨.handle (.value hv.1), ?_⟩
  exact ((hr.keep hl.keeps).set owner (.value hv.2)).setResult result (.value hv.1)

/-- Actions without an answer are the same if what they do is. -/
theorem silent_same {x : Recorder Unit} {y : Reference.Recorder Unit}
    (h : Agree session model anyAnswers (x session) (y model)) :
    SameAction session model (Script.silent x) (Reference.answers .done y) := by
  intro registers others hr
  exact h.bind fun _ _ _ _ h' hl _ => Agree.pure h' ⟨.done, hr.keep hl.keeps⟩

/-- Actions that answer a node are the same if what they do is: the node itself is no part of the reference. -/
theorem node_same {x : Recorder NodeId} {y : Reference.Recorder Unit}
    (h : Agree session model anyAnswers (x session) (y model)) :
    SameAction session model (fun registers => do return (.node (← x), registers)) (Reference.answers .node y) := by
  intro registers others hr
  exact h.bind fun id _ _ _ h' hl _ => Agree.pure h' ⟨.node id, hr.keep hl.keeps⟩

variable {registers : Script.Registers} {others : Reference.Registers}

/-- Every call agrees with the call by value. -/
theorem call_same (h : Related session model) (hr : SameRegisters session.arena registers others) (call : Call)
    (result : Option String) :
    SameResult (SameAction session model) (call.action result registers) (Reference.callAction call result others) := by
  cases call with
  | enter kind => exact .ok (node_same (enter_agree kind h))
  | exit => exact .ok (node_same (exit_agree h))
  | nextSymbol =>
    refine .ok fun registers others hr => ?_
    refine (nextSymbol_agree h).bind fun symbol symbol' _ _ h' hl hs => Agree.pure h' ?_
    cases hs
    exact ⟨.symbol symbol, hr.keep hl.keeps⟩
  | input type name =>
    refine .ok fun registers others hr => ?_
    refine (input_agree type name h).bind fun input input' _ _ h' hl hs => Agree.pure h' ?_
    cases hs
    exact ⟨.handle (.input input), (hr.keep hl.keeps).setResult result (.input input)⟩
  | output type name => exact .ok (yields_same result (output_agree type name h))
  | unbound type =>
    show SameResult _ (if _ then _ else _) (if _ then _ else _)
    split
    · exact .ok (yields_same result (Agree.pure h ⟨rfl, .unbound⟩))
    · exact .error _
  | copy source =>
    refine (hr.handle source).bind fun handle other hh => .ok fun registers others hr => ?_
    exact Agree.pure h ⟨.handle hh, hr.setResult result hh⟩
  | inspect source =>
    refine (hr.handle source).bind fun handle other hh => .ok fun registers others hr => ?_
    exact Agree.pure h ⟨.description hh, hr⟩
  | assign target value =>
    refine (hr.value target).bind fun _ _ ht => (hr.operand value).bind fun _ _ hv => ?_
    exact .ok (changes_same target (assign_agree h ht hv))
  | update how target value =>
    refine (hr.value target).bind fun _ _ ht => (hr.operand value).bind fun _ _ hv => ?_
    exact .ok (changes_same target (update_agree how h ht hv))
  | var value => exact (hr.operand value).bind fun _ _ hv => .ok (yields_same result (var_agree h hv))
  | materialize target =>
    refine (hr.value target).bind fun _ _ ht => .ok fun registers others hr => ?_
    refine (materialize_agree h ht).bind fun answer answer' _ _ h' hl hs => ?_
    obtain ⟨symbol, value⟩ := answer
    obtain ⟨symbol', value'⟩ := answer'
    obtain ⟨rfl, hv⟩ := hs
    exact Agree.pure h' ⟨.symbol symbol, (hr.keep hl.keeps).set target (.value hv)⟩
  | lane owner which =>
    exact (hr.value owner).bind fun _ _ ho => .ok (yieldsLane_same owner result (lane_agree which h ho))
  | component owner which =>
    refine (hr.handle owner).bind fun _ _ hh => ?_
    cases hh with
    | value ho => exact .ok (yieldsLane_same owner result (component_agree which h ho))
    | input vector =>
      simp only [Input.lane?, Reference.laneOfInput?]
      cases vector.type.isVector && decide (which.index < vector.type.lanes) with
      | false => exact .error _
      | true =>
        cases vector.type.lane? with
        | none => exact .error _
        | some type => exact .ok (yields_same result (Agree.pure h ⟨rfl, .member _ _ _ _⟩))
  | express operator operands =>
    exact (hr.operands operands).bind fun _ _ hs => .ok (yields_same result (express_agree operator h hs))
  | sample1d buffer index =>
    refine (hr.input buffer).bind fun buffer _ hb => (hr.operand index).bind fun _ _ hi => ?_
    cases hb
    exact .ok (yields_same result (express_agree .sample1d h (.cons (.handle (.input buffer)) (.cons hi .nil))))
  | sample2d buffer x y =>
    refine (hr.input buffer).bind fun buffer _ hb => (hr.operand x).bind fun _ _ hx => (hr.operand y).bind fun _ _ hy => ?_
    cases hb
    exact .ok (yields_same result (express_agree .sample2d h
      (.cons (.handle (.input buffer)) (.cons hx (.cons hy .nil)))))
  | sampleAt buffer coordinate =>
    refine (hr.input buffer).bind fun buffer _ hb => (hr.valueOperand coordinate).bind fun _ _ hc => ?_
    cases hb
    exact .ok (yields_same result (sampleAt_agree buffer h hc))
  | beginIf condition => exact (hr.operand condition).bind fun _ _ hc => .ok (silent_same (beginIf_agree h hc))
  | beginElseIf condition => exact (hr.operand condition).bind fun _ _ hc => .ok (silent_same (beginElseIf_agree h hc))
  | beginElse => exact .ok (silent_same (beginElse_agree h))
  | beginWhile condition => exact (hr.operand condition).bind fun _ _ hc => .ok (silent_same (beginWhile_agree h hc))
  | beginFor name start stop =>
    refine (hr.integer start).bind fun _ _ hs => (hr.integer stop).bind fun _ _ ht => ?_
    exact .ok (yields_same result (beginFor_agree name h hs ht))

/-- So does whatever opens a block. -/
theorem opening_same (h : Related session model) (hr : SameRegisters session.arena registers others) (opening : Opening)
    (result : Option String) :
    SameResult (SameAction session model) (opening.action result registers)
      (Reference.openingAction opening result others) := by
  cases opening with
  | enter kind => exact .ok (silent_same ((enter_agree kind h).mapLeft fun _ _ _ _ => trivial))
  | ifThen condition => exact (hr.operand condition).bind fun _ _ hc => .ok (silent_same (beginIf_agree h hc))
  | elseIf condition => exact (hr.operand condition).bind fun _ _ hc => .ok (silent_same (reopenElseIf_agree h hc))
  | otherwise => exact .ok (silent_same (reopenElse_agree h))
  | whileDo condition => exact (hr.operand condition).bind fun _ _ hc => .ok (silent_same (beginWhile_agree h hc))
  | forRange name start stop =>
    refine (hr.integer start).bind fun _ _ hs => (hr.integer stop).bind fun _ _ ht => ?_
    exact .ok (yields_same result (beginFor_agree name h hs ht))

end Actions

/-! ## Runs -/

/-- The machines are at the same point. -/
structure SameMachine (machine : Script.Machine) (model : Reference.Machine) : Prop where
  session : Related machine.session model.session
  registers : SameRegisters machine.session.arena machine.registers model.registers

/-- The snapshots of related sessions are the same. -/
theorem Related.snapshot {session : Session} {model : Reference.Session} (h : Related session model) :
    SameSnapshot (.of session) (.of model) := by
  have hkind := h.kind
  obtain ⟨frame, frames, hm⟩ := h
  refine ⟨hm.symbolCount, ?_, hkind⟩
  simp [Script.Snapshot.of, Reference.Snapshot.of, Session.depth, Reference.Session.depth, hm.outer, hm.modelOuter]

/-- What an action answered, and the machines afterwards. -/
structure Acted (machine : Script.Machine) (model : Reference.Machine) (answer : Except StepError Script.Reply × Script.Machine)
    (other : Except StepError Reference.Reply × Reference.Machine) : Prop where
  same : SameMachine answer.2 other.2
  later : Later machine.session model.session answer.2.session other.2.session
  outcome : SameResult (SameReply answer.2.session.arena) answer.1 other.1

/-- To act is the same, whether the action succeeds, fails or is not found. -/
theorem act_same {machine : Script.Machine} {model : Reference.Machine} (h : SameMachine machine model)
    {action : Except StepError Script.Action} {other : Except StepError Reference.Action}
    (ha : SameResult (SameAction machine.session model.session) action other) :
    Acted machine model (machine.act action) (model.act other) := by
  cases ha with
  | error e => exact ⟨h, Later.refl _ _, .error e⟩
  | @ok action other ha =>
    have hagree := ha machine.registers model.registers h.registers
    simp only [Script.Machine.act, Reference.Machine.act, EStateM.run]
    cases hx : action machine.registers machine.session with
    | ok answer session =>
      rw [hx] at hagree
      cases hy : other model.registers model.session with
      | ok answer' session' =>
        rw [hy] at hagree
        exact ⟨⟨hagree.1, hagree.2.2.2⟩, hagree.2.1, .ok hagree.2.2.1⟩
      | error e session' => rw [hy] at hagree; exact hagree.elim
    | error e session =>
      rw [hx] at hagree
      cases hy : other model.registers model.session with
      | ok answer' session' => rw [hy] at hagree; exact hagree.elim
      | error e' session' =>
        rw [hy] at hagree
        obtain ⟨rfl, hrel, hl⟩ := hagree
        exact ⟨⟨hrel, h.registers.keep hl.keeps⟩, hl, .error _⟩

/-- What a step leaves behind: its record, the error that ends the body around it, and the machines afterwards. -/
structure Ran (machine : Script.Machine) (model : Reference.Machine) (run : Script.Entry × Option TraceError × Script.Machine)
    (other : Reference.Entry × Option TraceError × Reference.Machine) : Prop where
  same : SameMachine run.2.2 other.2.2
  later : Later machine.session model.session run.2.2.session other.2.2.session
  ended : run.2.1 = other.2.1
  entry : SameEntry run.2.2.session.arena run.1 other.1

/-- The same of a row of steps. -/
structure RanAll (machine : Script.Machine) (model : Reference.Machine)
    (run : List Script.Entry × Option TraceError × Script.Machine)
    (other : List Reference.Entry × Option TraceError × Reference.Machine) : Prop where
  same : SameMachine run.2.2 other.2.2
  later : Later machine.session model.session run.2.2.session other.2.2.session
  ended : run.2.1 = other.2.1
  entries : SameEntries run.2.2.session.arena run.1 other.1

/-- The same errors go uncaught. -/
theorem uncaught_eq (caught : Bool) {same : Script.Reply → Reference.Reply → Prop} {outcome : Except StepError Script.Reply}
    {other : Except StepError Reference.Reply} (h : SameResult same outcome other) :
    Script.uncaught caught outcome = Reference.uncaught caught other := by
  cases h <;> rfl

/-- The entry of a step in the log is the same. -/
theorem entry_same {machine : Script.Machine} {model : Reference.Machine} (h : SameMachine machine model)
    {outcome : Except StepError Script.Reply} {other : Except StepError Reference.Reply}
    (ho : SameResult (SameReply machine.session.arena) outcome other) {body : Option (List Script.Entry)}
    {body' : Option (List Reference.Entry)} (hb : SameBody machine.session.arena body body') :
    SameEntry machine.session.arena (machine.entry outcome body) (model.entry other body') := by
  rw [Script.Machine.entry, Reference.Machine.entry, SameEntry]
  exact ⟨ho, h.session.snapshot, hb⟩

/-- To repeat is the same if each time is. -/
theorem iterate_same {body : Script.Machine → Option TraceError × Script.Machine}
    {body' : Reference.Machine → Option TraceError × Reference.Machine}
    (hb : ∀ machine model, SameMachine machine model → SameMachine (body machine).2 (body' model).2 ∧
      Later machine.session model.session (body machine).2.session (body' model).2.session ∧
      (body machine).1 = (body' model).1) (times : Nat) :
    ∀ {machine : Script.Machine} {model : Reference.Machine}, SameMachine machine model →
      SameMachine (Script.iterate body times machine).2 (Reference.iterate body' times model).2 ∧
      Later machine.session model.session (Script.iterate body times machine).2.session
        (Reference.iterate body' times model).2.session ∧
      (Script.iterate body times machine).1 = (Reference.iterate body' times model).1 := by
  induction times with
  | zero => intro machine model h; exact ⟨h, Later.refl _ _, rfl⟩
  | succ times ih =>
    intro machine model h
    obtain ⟨hsame, hl, hended⟩ := hb machine model h
    simp only [Script.iterate, Reference.iterate]
    generalize body machine = run at *
    generalize body' model = other at *
    obtain ⟨ended, machine'⟩ := run
    obtain ⟨ended', model'⟩ := other
    obtain rfl : ended = ended' := hended
    cases ended with
    | some e => exact ⟨hsame, hl, rfl⟩
    | none =>
      obtain ⟨hsame', hl', hended'⟩ := ih hsame
      exact ⟨hsame', hl.trans hl', hended'⟩

mutual

/-- Every step leaves the same behind as by value. -/
theorem step_same : ∀ (step : Step) {machine : Script.Machine} {model : Reference.Machine}, SameMachine machine model →
    Ran machine model (step.run machine) (Reference.runStep step model)
  | .call call result caught, machine, model, h => by
    have ha := act_same h (call_same h.session h.registers call result)
    rw [Script.Step.run, Reference.runStep]
    exact ⟨ha.same, ha.later, uncaught_eq caught ha.outcome, entry_same ha.same ha.outcome (by simp [SameBody])⟩
  | .block opening result body caught, machine, model, h => by
    have ha := act_same h (opening_same h.session h.registers opening result)
    rw [Script.Step.run, Reference.runStep]
    generalize machine.act (opening.action result machine.registers) = answer at *
    generalize model.act (Reference.openingAction opening result model.registers) = other at *
    obtain ⟨outcome, machine₁⟩ := answer
    obtain ⟨outcome', model₁⟩ := other
    obtain ⟨hsame₁, hl₁, hout⟩ := ha
    cases hout with
    | error e =>
      exact ⟨hsame₁, hl₁, rfl, entry_same hsame₁ (.error e) (by simp [SameBody, SameEntries])⟩
    | ok hreply =>
      -- the block is left again after its body, wherever the body ends
      have hsaved : Saved machine₁.session model₁.session machine₁.session.current.id model₁.session.current.number := by
        obtain ⟨frame, frames, hm⟩ := hsame₁.session
        exact hm.saved_current
      have hkind := hsame₁.session.kind
      have hbody := steps_same body hsame₁
      simp only
      generalize Script.runAll body machine₁ = run at *
      generalize Reference.runAll body model₁ = run' at *
      obtain ⟨entries, ended, machine₂⟩ := run
      obtain ⟨entries', ended', model₂⟩ := run'
      obtain ⟨hsame₂, hl₂, hended, hentries⟩ := hbody
      obtain rfl : ended = ended' := hended
      have hbodies : SameBody machine₂.session.arena (some entries) (some entries') := by
        rw [SameBody]
        exact hentries
      cases ended with
      | some e => exact ⟨hsame₂, hl₁.trans hl₂, rfl, entry_same hsame₂ (.error _) hbodies⟩
      | none =>
        have hleave : Acted machine₂ model₂ (machine₂.leave machine₁.session.current)
            (model₂.leave model₁.session.current) :=
          act_same hsame₂ (.ok (silent_same (leave_agree hsame₂.session (hl₂.saved _ _ hsaved) hkind)))
        exact ⟨hleave.same, (hl₁.trans hl₂).trans hleave.later, uncaught_eq caught hleave.outcome,
          entry_same hleave.same hleave.outcome (SameBody.keep hleave.later.keeps _ _ hbodies)⟩
  | .repeated times body caught, machine, model, h => by
    have hiter := @iterate_same (fun machine => (Script.runAll body machine).2)
      (fun model => (Reference.runAll body model).2)
      (fun machine model h => by
        have hbody := steps_same body h
        exact ⟨hbody.same, hbody.later, hbody.ended⟩) times machine model h
    rw [Script.Step.run, Reference.runStep]
    generalize Script.iterate (fun machine => (Script.runAll body machine).2) times machine = run at *
    generalize Reference.iterate (fun model => (Reference.runAll body model).2) times model = run' at *
    obtain ⟨ended, machine'⟩ := run
    obtain ⟨ended', model'⟩ := run'
    obtain ⟨hsame, hl, hended⟩ := hiter
    obtain rfl : ended = ended' := hended
    cases ended with
    | some e => exact ⟨hsame, hl, rfl, entry_same hsame (.error _) (by simp [SameBody])⟩
    | none => exact ⟨hsame, hl, rfl, entry_same hsame (.ok (.times times)) (by simp [SameBody])⟩

/-- The steps of a body do the same, up to the first that fails. -/
theorem steps_same : ∀ (steps : List Step) {machine : Script.Machine} {model : Reference.Machine},
    SameMachine machine model → RanAll machine model (Script.runAll steps machine) (Reference.runAll steps model)
  | [], machine, model, h => by
    rw [Script.runAll, Reference.runAll]
    exact ⟨h, Later.refl _ _, rfl, by simp [SameEntries]⟩
  | step :: steps, machine, model, h => by
    have hstep := step_same step h
    rw [Script.runAll, Reference.runAll]
    generalize step.run machine = run at *
    generalize Reference.runStep step model = run' at *
    obtain ⟨entry, ended, machine₁⟩ := run
    obtain ⟨entry', ended', model₁⟩ := run'
    obtain ⟨hsame, hl, hended, hentry⟩ := hstep
    obtain rfl : ended = ended' := hended
    cases ended with
    | some e => exact ⟨hsame, hl, rfl, by simpa [SameEntries] using hentry⟩
    | none =>
      have hrest := steps_same steps hsame
      refine ⟨hrest.same, hl.trans hrest.later, hrest.ended, ?_⟩
      simp only [SameEntries]
      exact ⟨SameEntry.keep hrest.later.keeps _ _ hentry, hrest.entries⟩

end

/-- The steps of a script do the same. -/
theorem every_same (steps : List Step) :
    ∀ {machine : Script.Machine} {model : Reference.Machine}, SameMachine machine model →
      SameMachine (Script.runEvery steps machine).2 (Reference.runEvery steps model).2 ∧
      Later machine.session model.session (Script.runEvery steps machine).2.session
        (Reference.runEvery steps model).2.session ∧
      SameEntries (Script.runEvery steps machine).2.session.arena (Script.runEvery steps machine).1
        (Reference.runEvery steps model).1 := by
  induction steps with
  | nil => intro machine model h; exact ⟨h, Later.refl _ _, by simp [Script.runEvery, Reference.runEvery, SameEntries]⟩
  | cons step steps ih =>
    intro machine model h
    have hstep := step_same step h
    obtain ⟨hsame, hl, hentries⟩ := ih hstep.same
    simp only [Script.runEvery, Reference.runEvery]
    refine ⟨hsame, hstep.later.trans hl, ?_⟩
    simp only [SameEntries]
    exact ⟨SameEntry.keep hl.keeps _ _ hstep.entry, hentries⟩

/-- Nothing has been recorded yet, on either side. -/
theorem start_same : SameMachine .start .start := by
  refine ⟨⟨⟨Session.root, { kind := .program, type := .void }, [], 0⟩, [], ?_⟩, .nil⟩
  refine ⟨Arena.owned_empty.alloc _, ?_, rfl, ?_, ?_, rfl, rfl, rfl, rfl, Nat.zero_lt_one, ?_, rfl, rfl⟩
  · exact Arena.holds_node.2 ⟨Arena.content?_alloc_self Arena.empty _, by simp⟩
  · exact (Arena.parent?_alloc Arena.empty _ _).trans (Arena.parent?_size Arena.empty)
  · simp [NodeKind.isBlock]
  · simp

/-- Two sessions at the same point both end, or are refused for the same reason. -/
theorem Related.finish {session : Session} {model : Reference.Session} (h : Related session model) :
    session.finish.map (fun _ => ()) = model.finish.map fun _ => () := by
  have hkind := h.kind
  obtain ⟨frame, frames, hm⟩ := h
  unfold Session.finish Reference.Session.finish Session.depth Reference.Session.depth
  rw [hm.outer, hm.modelOuter, hkind]
  cases frames with
  | nil => rfl
  | cons parent frames => simp [Except.map]

/-- The tree at the root of the arena has the term of the reference. -/
theorem Related.tree {session : Session} {model : Reference.Session} (h : Related session model) :
    ∃ tree, session.arena.tree Session.root = .ok tree ∧ tree.term = model.tree := by
  obtain ⟨frame, frames, hm⟩ := h
  exact ⟨plug frame frames, hm.tree_eq, hm.term_eq⟩

/-- An arena whose nodes are adopted or copied when they are used refines terms that are inserted by value. Whatever steps
are run, each answers the same on both sides, with the same symbols, depth and kind of the open block, and with handles that
differ only in the numbers of nodes, where the node of an operation has a tree of the term that the other side carries.
The tree that the arena holds at its root is the program that was put together by value, and the recording ends on one
side if and only if it ends on the other. -/
theorem script_refines (steps : List Step) :
    SameEntries (Script.runEvery steps .start).2.session.arena (Script.runEvery steps .start).1
        (Reference.runEvery steps .start).1 ∧
      SameRegisters (Script.runEvery steps .start).2.session.arena (Script.runEvery steps .start).2.registers
        (Reference.runEvery steps .start).2.registers ∧
      (∃ tree, (Script.runEvery steps .start).2.session.arena.tree Session.root = .ok tree ∧
        tree.term = (Reference.runEvery steps .start).2.session.tree) ∧
      (Script.runEvery steps .start).2.session.finish.map (fun _ => ()) =
        (Reference.runEvery steps .start).2.session.finish.map fun _ => () := by
  obtain ⟨hsame, -, hentries⟩ := every_same steps start_same
  exact ⟨hentries, hsame.registers, hsame.session.tree, hsame.session.finish⟩

end ShaderTrace.Refinement
