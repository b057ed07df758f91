import ShaderTrace.Proofs.Reference.Recorder
import ShaderTrace.Script.Run

/-!
# Scripts by value

The scripts of `ShaderTrace.Script`, run on sessions without an arena. A step answers the same things, but for the numbers
of nodes.
-/

namespace ShaderTrace.Reference

open Script (Arg Call Opening Step StepError)

inductive Reply where
  | done
  /-- A block was opened or closed. -/
  | node
  | symbol (symbol : SymbolId)
  | handle (handle : Handle)
  | description (handle : Handle)
  | times (count : Nat)

/-- What can be seen of a session after a step. -/
structure Snapshot where
  symbols : Nat
  depth : Nat
  kind : NodeKind

def Snapshot.of (session : Session) : Snapshot where
  symbols := session.symbolCount
  depth := session.depth
  kind := session.current.kind

inductive Entry where
  | mk (outcome : Except StepError Reply) (after : Snapshot) (body : Option (List Entry))

abbrev Registers := List (String × Handle)

structure Machine where
  session : Session
  registers : Registers

def Machine.start : Machine := ⟨Session.start, []⟩

/-! ## Calls -/

namespace Registers

def set (registers : Registers) (name : String) (handle : Handle) : Registers :=
  (name, handle) :: registers.filter (·.1 != name)

def setResult (registers : Registers) (name : Option String) (handle : Handle) : Registers :=
  match name with
  | some name => registers.set name handle
  | none => registers

def handle (registers : Registers) (name : String) : Except StepError Handle :=
  match registers.lookup name with
  | some handle => .ok handle
  | none => .error (.noSuchRegister name)

def value (registers : Registers) (name : String) : Except StepError Value := do
  match ← registers.handle name with
  | .value value => return value
  | .input _ => .error (.trace .illTyped)

def input (registers : Registers) (name : String) : Except StepError Input := do
  match ← registers.handle name with
  | .input input => return input
  | .value _ => .error (.trace .illTyped)

def operand (registers : Registers) : Arg → Except StepError Operand
  | .register name => return .handle (← registers.handle name)
  | .literal value => return .literal value

def integer (registers : Registers) (arg : Arg) : Except StepError Operand := do
  let operand ← registers.operand arg
  if operand.type = .int then return operand else .error (.trace .illTyped)

def valueOperand (registers : Registers) (arg : Arg) : Except StepError Value := do
  match ← registers.operand arg with
  | .handle (.value value) => return value
  | _ => .error (.trace .illTyped)

end Registers

/-- What a call does once its registers are looked up. -/
abbrev Action := Registers → Recorder (Reply × Registers)

def yields (result : Option String) (action : Recorder Value) : Action := fun registers => do
  let value ← action
  return (.handle (.value value), registers.setResult result (.value value))

def changes (target : String) (action : Recorder Value) : Action := fun registers => do
  let value ← action
  return (.handle (.value value), registers.set target (.value value))

def yieldsLane (owner : String) (result : Option String) (action : Recorder (Value × Value)) : Action :=
  fun registers => do
    let (lane, value) ← action
    return (.handle (.value lane), (registers.set owner (.value value)).setResult result (.value lane))

/-- An action that only answers that it is done. -/
def answers (reply : Reply) (action : Recorder Unit) : Action := fun registers => do
  action
  return (reply, registers)

/-- The action of a call, once its registers are looked up. -/
def callAction (call : Call) (result : Option String) (registers : Registers) : Except StepError Action := do
  match call with
  | .enter kind => return answers .node (enter kind)
  | .exit => return answers .node exit
  | .nextSymbol => return fun registers => do return (.symbol (← nextSymbol), registers)
  | .input type name => return fun registers => do
    let handle := Handle.input (← input type name)
    return (.handle handle, registers.setResult result handle)
  | .output type name => return yields result (output type name)
  | .unbound type =>
    if type.isNameable then return yields result (pure (.unbound type)) else .error (.trace .illTyped)
  | .copy source =>
    let handle ← registers.handle source
    return fun registers => return (.handle handle, registers.setResult result handle)
  | .inspect source =>
    let handle ← registers.handle source
    return fun registers => return (.description handle, registers)
  | .assign target value =>
    let old ← registers.value target
    let value ← registers.operand value
    return changes target (assign old value)
  | .update how target value =>
    let old ← registers.value target
    let value ← registers.operand value
    return changes target (update how old value)
  | .var value =>
    let value ← registers.operand value
    return yields result (var value)
  | .materialize target =>
    let old ← registers.value target
    return fun registers => do
      let (symbol, value) ← materialize old
      return (.symbol symbol, registers.set target (.value value))
  | .lane owner which =>
    let old ← registers.value owner
    return yieldsLane owner result (lane old which)
  | .component owner which =>
    match ← registers.handle owner with
    | .value old => return yieldsLane owner result (component old which)
    | .input vector =>
      match laneOfInput? vector which with
      | some value => return yields result (pure value)
      | none => .error (.trace .illTyped)
  | .express operator operands =>
    let operands ← operands.mapM registers.operand
    return yields result (express operator operands)
  | .sample1d buffer index =>
    let buffer ← registers.input buffer
    let index ← registers.operand index
    return yields result (express .sample1d [.ofInput buffer, index])
  | .sample2d buffer x y =>
    let buffer ← registers.input buffer
    let x ← registers.operand x
    let y ← registers.operand y
    return yields result (express .sample2d [.ofInput buffer, x, y])
  | .sampleAt buffer coordinate =>
    let buffer ← registers.input buffer
    let coordinate ← registers.valueOperand coordinate
    return yields result (sampleAt buffer coordinate)
  | .beginIf condition => return answers .done (beginIf (← registers.operand condition))
  | .beginElseIf condition => return answers .done (beginElseIf (← registers.operand condition))
  | .beginElse => return answers .done beginElse
  | .beginWhile condition => return answers .done (beginWhile (← registers.operand condition))
  | .beginFor name start stop =>
    let start ← registers.integer start
    let stop ← registers.integer stop
    return yields result (beginFor name start stop)

/-- The action that opens a block, once its registers are looked up. -/
def openingAction (opening : Opening) (result : Option String) (registers : Registers) : Except StepError Action := do
  match opening with
  | .enter kind => return answers .done (enter kind)
  | .ifThen condition => return answers .done (beginIf (← registers.operand condition))
  | .elseIf condition => return answers .done (reopenElseIf (← registers.operand condition))
  | .otherwise => return answers .done reopenElse
  | .whileDo condition => return answers .done (beginWhile (← registers.operand condition))
  | .forRange name start stop =>
    let start ← registers.integer start
    let stop ← registers.integer stop
    return yields result (beginFor name start stop)

/-! ## Runs -/

namespace Machine

def act (machine : Machine) (action : Except StepError Action) : Except StepError Reply × Machine :=
  match action with
  | .error error => (.error error, machine)
  | .ok action =>
    match (action machine.registers).run machine.session with
    | .ok (reply, registers) session => (.ok reply, ⟨session, registers⟩)
    | .error error session => (.error (.trace error), { machine with session })

def entry (machine : Machine) (outcome : Except StepError Reply) (body : Option (List Entry)) : Entry :=
  .mk outcome (.of machine.session) body

def leave (machine : Machine) (block : Block) : Except StepError Reply × Machine :=
  machine.act (.ok (answers .done (Reference.leave block)))

end Machine

/-- An action that succeeds changes the session and the registers. -/
theorem act_of_ok {machine : Machine} {action : Action} {answer : Reply × Registers} {session : Session}
    (h : action machine.registers machine.session = .ok answer session) :
    machine.act (.ok action) = (.ok answer.1, ⟨session, answer.2⟩) := by
  simp only [Machine.act, EStateM.run, h]

/-- An action that fails changes the session at most. -/
theorem act_of_error {machine : Machine} {action : Action} {error : TraceError} {session : Session}
    (h : action machine.registers machine.session = .error error session) :
    machine.act (.ok action) = (.error (.trace error), { machine with session }) := by
  simp only [Machine.act, EStateM.run, h]

def iterate (body : Machine → Option TraceError × Machine) : (times : Nat) → Machine → Option TraceError × Machine
  | 0, machine => (none, machine)
  | times + 1, machine =>
    match body machine with
    | (some error, machine) => (some error, machine)
    | (none, machine) => iterate body times machine

def uncaught (caught : Bool) (outcome : Except StepError Reply) : Option TraceError :=
  match outcome with
  | .error error => if caught then none else error.ends?
  | .ok _ => none

mutual

/-- Runs one step: its record, the error that it leaves to the body it stands in, and the machine afterwards. -/
def runStep : Step → Machine → Entry × Option TraceError × Machine
  | .call call result caught, machine =>
    let (outcome, machine) := machine.act (callAction call result machine.registers)
    (machine.entry outcome none, uncaught caught outcome, machine)
  | .block opening result body caught, machine =>
    match machine.act (openingAction opening result machine.registers) with
    | (.error error, machine) => (machine.entry (.error error) (some []), uncaught caught (.error error), machine)
    | (.ok _, machine) =>
      let block := machine.session.current
      let (entries, ended, machine) := runAll body machine
      match ended with
      | some error =>
        let outcome := .error (.trace error)
        (machine.entry outcome (some entries), uncaught caught outcome, machine)
      | none =>
        let (outcome, machine) := machine.leave block
        (machine.entry outcome (some entries), uncaught caught outcome, machine)
  | .repeated times body caught, machine =>
    let (ended, machine) := iterate (fun machine => (runAll body machine).2) times machine
    let outcome := match ended with
      | some error => .error (.trace error)
      | none => .ok (.times times)
    (machine.entry outcome none, uncaught caught outcome, machine)

/-- Runs steps until an error ends them. -/
def runAll : List Step → Machine → List Entry × Option TraceError × Machine
  | [], machine => ([], none, machine)
  | step :: steps, machine =>
    match runStep step machine with
    | (entry, some error, machine) => ([entry], some error, machine)
    | (entry, none, machine) =>
      let (entries, ended, machine) := runAll steps machine
      (entry :: entries, ended, machine)

end

/-- Runs every step, whatever became of those before it. -/
def runEvery : List Step → Machine → List Entry × Machine
  | [], machine => ([], machine)
  | step :: steps, machine =>
    let (entry, _, machine) := runStep step machine
    let (entries, machine) := runEvery steps machine
    (entry :: entries, machine)

end ShaderTrace.Reference
