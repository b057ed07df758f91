import ShaderTrace.Identifier
import ShaderTrace.Recorder.Expression

/-!
# Recording declarations and assignments

Inputs and outputs get their symbols where they are declared; a variable gets its symbol when it is first assigned to.
Calls that change a handle return the handle as it is afterwards.
-/

namespace ShaderTrace

/-- An assignment that combines the target with the assigned value. -/
inductive Update where
  | add
  | sub
  | mul
  | div
deriving DecidableEq, Repr

def Update.op : Update → BinaryOp
  | add => .add
  | sub => .sub
  | mul => .mul
  | div => .div

namespace Recorder

/-- Declares a name in its section. -/
def declare (kind sectionKind : NodeKind) (type : ValueType) (name : String) : Recorder SymbolId := do
  let block ← current
  if block.kind ≠ sectionKind then throw (.misplacedDeclaration sectionKind block.kind)
  if !Identifier.isDeclarable name then throw (.invalidName name)
  if (← get).names.contains name then throw (.duplicateName name)
  modify fun session => { session with names := session.names ++ [name] }
  let symbol ← nextSymbol
  let node ← alloc ((Head.ofSymbol kind type symbol).named name)
  attach block.id node
  return symbol

/-- Declares an input, which may have any type but void. -/
def input (type : ValueType) (name : String) : Recorder Input := do
  if !type.isNameable then throw .illTyped
  return ⟨type, ← declare .constVar .constData type name⟩

/-- Declares an output, which is numeric. -/
def output (type : ValueType) (name : String) : Recorder Value := do
  if !type.isNumeric then throw .illTyped
  return ⟨type, .bound (← declare .outVar .outData type name)⟩

/-- The node that an assignment writes to, and the target afterwards. A target without a symbol gets one. -/
def lowerTarget (target : Value) : Recorder (NodeId × Value) :=
  match target.form with
  | .member owner ownerType lane _ => return (← alloc (.ofMember target.type owner ownerType lane), target)
  | .bound symbol => return (← alloc (.ofSymbol .var target.type symbol), target)
  | .unbound | .pending _ => do
    let symbol ← nextSymbol
    return (← alloc (.ofSymbol .var target.type symbol), ⟨target.type, .bound symbol⟩)

/-- A lane of an input cannot be assigned to. -/
def checkWritable (target : Value) : Recorder Unit :=
  match target.form with
  | .member _ _ _ false => throw .readOnlyTarget
  | _ => return

/-- Records that `target` becomes `value`. The value is read before the target gets a symbol. -/
def assign (target : Value) (value : Operand) : Recorder Value := do
  if value.type ≠ target.type then throw .illTyped
  checkStatements
  checkWritable target
  let right ← lower value
  let (left, target) ← lowerTarget target
  let node ← alloc { kind := .assignment, type := target.type }
  attach node left
  attach node right
  append node
  return target

/-- A new variable with its first value. -/
def var (value : Operand) : Recorder Value := assign (.unbound value.type) value

/-- Records that `target` is combined with `value`. -/
def update (how : Update) (target : Value) (value : Operand) : Recorder Value := do
  if Typing.binary? how.op target.type value.type ≠ some target.type then throw .illTyped
  let result ← binary how.op target value
  assign target result

/-- Gives a value a symbol. The result of an operation is assigned to it; a variable without a value gets none. -/
def materialize (value : Value) : Recorder (SymbolId × Value) :=
  match value.form with
  | .bound symbol => return (symbol, value)
  | .unbound => do
    let symbol ← nextSymbol
    return (symbol, ⟨value.type, .bound symbol⟩)
  | .pending _ => do
    let bound ← assign value value
    match bound.symbol? with
    | some symbol => return (symbol, bound)
    | none => throw .notAddressable
  | .member .. => throw .notAddressable

/-- One lane of a vector, and the vector, which has a symbol afterwards. -/
def lane (owner : Value) (lane : Lane) : Recorder (Value × Value) :=
  match owner.type.lane? with
  | some type => do
    if !owner.type.isVector then throw .illTyped
    if owner.type.lanes ≤ lane.index then throw (.laneOutOfRange lane owner.type)
    let (symbol, owner) ← materialize owner
    return (⟨type, .member symbol owner.type lane true⟩, owner)
  | none => throw .illTyped

/-- A lane that the type of the vector is known to have. -/
def component (owner : Value) (lane : Lane) : Recorder (Value × Value) := do
  if !owner.type.isVector || owner.type.lanes ≤ lane.index then throw .illTyped
  Recorder.lane owner lane

/-- Samples at a coordinate, which gets a symbol so that its lanes can be the indices. -/
def sampleAt (buffer : Input) (coordinate : Value) : Recorder Value := do
  if !(buffer.type.isValid && buffer.type.isBuffer2d) || coordinate.type ≠ .int2 then throw .illTyped
  let (x, coordinate) ← lane coordinate .x
  let (y, _) ← lane coordinate .y
  sample2d buffer x y

end Recorder

end ShaderTrace
