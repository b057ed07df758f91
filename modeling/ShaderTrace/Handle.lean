import ShaderTrace.Node.Basic

/-!
# Handles

A kernel is written with handles: values, which may be assigned to, and inputs, which may only be read. A handle says what
it stands for; copies of a handle are independent of each other.
-/

namespace ShaderTrace

/-- What a value handle stands for. -/
inductive ValueForm where
  /-- Nothing has been assigned to it yet, and it has no symbol. -/
  | unbound
  /-- The variable of this symbol. -/
  | bound (symbol : SymbolId)
  /-- The result of an operation, recorded at this node. -/
  | pending (node : NodeId)
  /-- One lane of the variable of this symbol. -/
  | member (owner : SymbolId) (ownerType : ValueType) (lane : Lane) (writable : Bool)
deriving DecidableEq

structure Value where
  type : ValueType
  form : ValueForm
deriving DecidableEq

structure Input where
  type : ValueType
  symbol : SymbolId
deriving DecidableEq

inductive Handle where
  | value (value : Value)
  | input (input : Input)
deriving DecidableEq

/-- What an operation is applied to: a handle, or a constant of the host. -/
inductive Operand where
  | handle (handle : Handle)
  | literal (value : Literal)
deriving DecidableEq

namespace Value

/-- A variable that has not been assigned to. -/
def unbound (type : ValueType) : Value := ⟨type, .unbound⟩

/-- The symbol of a variable. -/
def symbol? (value : Value) : Option SymbolId :=
  match value.form with
  | .bound symbol => some symbol
  | _ => none

def isMember (value : Value) : Bool :=
  match value.form with
  | .member .. => true
  | _ => false

end Value

namespace Input

/-- One lane of an input vector, which can only be read. -/
def lane? (input : Input) (lane : Lane) : Option Value :=
  if input.type.isVector && lane.index < input.type.lanes then
    input.type.lane?.map fun type => ⟨type, .member input.symbol input.type lane false⟩
  else none

end Input

namespace Handle

def type : Handle → ValueType
  | value v => v.type
  | input i => i.type

end Handle

namespace Operand

def ofValue (value : Value) : Operand := .handle (.value value)

def ofInput (input : Input) : Operand := .handle (.input input)

def type : Operand → ValueType
  | handle h => h.type
  | literal l => l.type

/-- A condition is recorded: a constant of the host would settle the branch while recording. -/
def isCondition : Operand → Bool
  | handle h => h.type == .bool
  | literal _ => false

end Operand

instance : Coe Value Operand := ⟨Operand.ofValue⟩

instance : Coe Input Operand := ⟨Operand.ofInput⟩

end ShaderTrace
