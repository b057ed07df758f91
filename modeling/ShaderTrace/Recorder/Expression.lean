import ShaderTrace.Recorder.Session
import ShaderTrace.Typing

/-!
# Recording expressions

An operation becomes a node over its operands, and its result is a handle to that node. Nothing is added to the open
block before a statement uses the result.
-/

namespace ShaderTrace.Recorder

/-- A node that stands for a value: a reference for a variable or a lane, and for the result of an operation its own node
while that is detached, a copy of it afterwards. -/
def lowerValue (value : Value) : Recorder NodeId :=
  match value.form with
  | .unbound => throw (.uninitializedRead value.type)
  | .bound symbol => alloc (.ofSymbol .var value.type symbol)
  | .pending node => do if (← find node).parent.isSome then clone node else return node
  | .member owner ownerType lane _ => alloc (.ofMember value.type owner ownerType lane)

/-- A detached node that stands for an operand. -/
def lower : Operand → Recorder NodeId
  | .handle (.value value) => lowerValue value
  | .handle (.input input) => alloc (.ofSymbol .var input.type input.symbol)
  | .literal value => alloc (.ofLiteral value)

/-- Makes an operand the last child of a node. -/
def attachOperand (parent : NodeId) (operand : Operand) : Recorder Unit := do
  attach parent (← lower operand)

/-- Makes operands the last children of a node, from left to right. -/
def attachOperands (parent : NodeId) : List Operand → Recorder Unit
  | [] => return
  | operand :: operands => do
    attachOperand parent operand
    attachOperands parent operands

/-- A new node over its operands. -/
def build (kind : NodeKind) (type : ValueType) (operands : List Operand) : Recorder Value := do
  let node ← alloc { kind, type }
  attachOperands node operands
  return ⟨type, .pending node⟩

/-- A constant index must not be negative. -/
def checkIndices : List Operand → Recorder Unit
  | [] => return
  | .literal (.int index) :: rest => do
    if index < 0 then throw (.negativeIndex index)
    checkIndices rest
  | _ :: rest => checkIndices rest

/-- What is checked before an operation is recorded, apart from the types. -/
def checkOperands (operator : Operator) (operands : List Operand) : Recorder Unit :=
  match operator with
  | .sample1d | .sample2d => checkIndices (operands.drop 1)
  | _ => return

/-- The children of an operation: its operands, and before them the number of a called function. -/
def childrenOf (operator : Operator) (operands : List Operand) : List Operand :=
  match operator with
  | .call builtin => .literal (.int builtin.id) :: operands
  | _ => operands

/-- Records an operation. -/
def express (operator : Operator) (operands : List Operand) : Recorder Value :=
  match operator.type? operands with
  | none => throw .illTyped
  | some type => do
    checkOperands operator operands
    build operator.kind type (childrenOf operator operands)

def unary (op : UnaryOp) (a : Operand) : Recorder Value := express (.unary op) [a]

def binary (op : BinaryOp) (a b : Operand) : Recorder Value := express (.binary op) [a, b]

def call (builtin : Builtin) (arguments : List Operand) : Recorder Value := express (.call builtin) arguments

/-- The coordinate of the element that is computed. -/
def index : Recorder Value := express .index []

/-- The coordinate of the element that is computed, between zero and one. -/
def normalizedIndex : Recorder Value := express .normalizedIndex []

def construct (type : ValueType) (lanes : List Operand) : Recorder Value := express (.construct type) lanes

def sample1d (buffer : Input) (i : Operand) : Recorder Value := express .sample1d [buffer, i]

def sample2d (buffer : Input) (x y : Operand) : Recorder Value := express .sample2d [buffer, x, y]

end ShaderTrace.Recorder
