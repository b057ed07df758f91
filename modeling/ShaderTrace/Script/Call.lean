import ShaderTrace.Script.Basic

/-!
# Calls of a script

A call is carried out in two parts. First its registers are looked up, in the order in which the call names them; then the
recorder acts. Only the second part can change anything.
-/

namespace ShaderTrace.Script

/-- What a call does once its registers are looked up: an action, whose answer comes with the registers it sets. -/
abbrev Action := Registers → Recorder (Reply × Registers)

namespace Registers

def handle (registers : Registers) (name : String) : Except StepError Handle :=
  match registers.lookup name with
  | some handle => .ok handle
  | none => .error (.noSuchRegister name)

/-- A register that must hold a value. -/
def value (registers : Registers) (name : String) : Except StepError Value := do
  match ← registers.handle name with
  | .value value => return value
  | .input _ => .error (.trace .illTyped)

/-- A register that must hold an input. -/
def input (registers : Registers) (name : String) : Except StepError Input := do
  match ← registers.handle name with
  | .input input => return input
  | .value _ => .error (.trace .illTyped)

def operand (registers : Registers) : Arg → Except StepError Operand
  | .register name => return .handle (← registers.handle name)
  | .literal value => return .literal value

/-- An operand that must be an integer. -/
def integer (registers : Registers) (arg : Arg) : Except StepError Operand := do
  let operand ← registers.operand arg
  if operand.type = .int then return operand else .error (.trace .illTyped)

/-- An operand that must be a value: neither an input nor a constant. -/
def valueOperand (registers : Registers) (arg : Arg) : Except StepError Value := do
  match ← registers.operand arg with
  | .handle (.value value) => return value
  | _ => .error (.trace .illTyped)

end Registers

/-- An action that yields a value, which goes to the register of the result. -/
def yields (result : Option String) (action : Recorder Value) : Action := fun registers => do
  let value ← action
  return (.handle (.value value), registers.setResult result (.value value))

/-- An action that changes the value of a register. -/
def changes (target : String) (action : Recorder Value) : Action := fun registers => do
  let value ← action
  return (.handle (.value value), registers.set target (.value value))

/-- An action that gives a lane of the value of a register, and changes that value. -/
def yieldsLane (owner : String) (result : Option String) (action : Recorder (Value × Value)) : Action :=
  fun registers => do
    let (lane, value) ← action
    return (.handle (.value lane), (registers.set owner (.value value)).setResult result (.value lane))

/-- An action that answers nothing and sets no register. -/
def silent (action : Recorder Unit) : Action := fun registers => do
  action
  return (.done, registers)

/-- The action of a call, once its registers are looked up. -/
def Call.action (call : Call) (result : Option String) (registers : Registers) : Except StepError Action := do
  match call with
  | .enter kind => return fun registers => do return (.node (← Recorder.enter kind), registers)
  | .exit => return fun registers => do return (.node (← Recorder.exit), registers)
  | .nextSymbol => return fun registers => do return (.symbol (← Recorder.nextSymbol), registers)
  | .input type name => return fun registers => do
    let handle := Handle.input (← Recorder.input type name)
    return (.handle handle, registers.setResult result handle)
  | .output type name => return yields result (Recorder.output type name)
  | .unbound type =>
    if type.isNameable then return yields result (pure (.unbound type)) else .error (.trace .illTyped)
  | .copy source =>
    let handle ← registers.handle source
    return fun registers => return (.handle handle, registers.setResult result handle)
  | .inspect source =>
    let handle ← registers.handle source
    return fun registers => return (.description handle, registers)
  | .assign target value =>
    let old ← registers.value target
    let value ← registers.operand value
    return changes target (Recorder.assign old value)
  | .update how target value =>
    let old ← registers.value target
    let value ← registers.operand value
    return changes target (Recorder.update how old value)
  | .var value =>
    let value ← registers.operand value
    return yields result (Recorder.var value)
  | .materialize target =>
    let old ← registers.value target
    return fun registers => do
      let (symbol, value) ← Recorder.materialize old
      return (.symbol symbol, registers.set target (.value value))
  | .lane owner which =>
    let old ← registers.value owner
    return yieldsLane owner result (Recorder.lane old which)
  | .component owner which =>
    match ← registers.handle owner with
    | .value old => return yieldsLane owner result (Recorder.component old which)
    | .input vector =>
      match vector.lane? which with
      | some value => return yields result (pure value)
      | none => .error (.trace .illTyped)
  | .express operator operands =>
    let operands ← operands.mapM registers.operand
    return yields result (Recorder.express operator operands)
  | .sample1d buffer index =>
    let buffer ← registers.input buffer
    let index ← registers.operand index
    return yields result (Recorder.sample1d buffer index)
  | .sample2d buffer x y =>
    let buffer ← registers.input buffer
    let x ← registers.operand x
    let y ← registers.operand y
    return yields result (Recorder.sample2d buffer x y)
  | .sampleAt buffer coordinate =>
    let buffer ← registers.input buffer
    let coordinate ← registers.valueOperand coordinate
    return yields result (Recorder.sampleAt buffer coordinate)
  | .beginIf condition => return silent (Recorder.beginIf (← registers.operand condition))
  | .beginElseIf condition => return silent (Recorder.beginElseIf (← registers.operand condition))
  | .beginElse => return silent Recorder.beginElse
  | .beginWhile condition => return silent (Recorder.beginWhile (← registers.operand condition))
  | .beginFor name start stop =>
    let start ← registers.integer start
    let stop ← registers.integer stop
    return yields result (Recorder.beginFor name start stop)

/-- The action that opens a block, once its registers are looked up. -/
def Opening.action (opening : Opening) (result : Option String) (registers : Registers) : Except StepError Action := do
  match opening with
  | .enter kind => return silent (discard (Recorder.enter kind))
  | .ifThen condition => return silent (Recorder.beginIf (← registers.operand condition))
  | .elseIf condition => return silent (Recorder.reopenElseIf (← registers.operand condition))
  | .otherwise => return silent Recorder.reopenElse
  | .whileDo condition => return silent (Recorder.beginWhile (← registers.operand condition))
  | .forRange name start stop =>
    let start ← registers.integer start
    let stop ← registers.integer stop
    return yields result (Recorder.beginFor name start stop)

end ShaderTrace.Script
