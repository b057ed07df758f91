import ShaderTrace.Arena.Basic

/-!
# Why a call is refused
-/

namespace ShaderTrace

inductive TraceError where
  /-- The operands have types that do not go together. -/
  | illTyped
  | unbalancedExit
  | unclosedBlock (kind : NodeKind) (depth : Nat)
  | blockMismatch (expected found : NodeKind)
  | notEnterable (kind : NodeKind)
  | misplacedSection (kind parent : NodeKind)
  | duplicateSection (kind : NodeKind)
  | misplacedDeclaration (expected found : NodeKind)
  | misplacedStatement (kind : NodeKind)
  | danglingElse (kind : NodeKind)
  | invalidName (name : String)
  | duplicateName (name : String)
  | uninitializedRead (type : ValueType)
  | negativeIndex (index : Int32)
  | readOnlyTarget
  | notAddressable
  | laneOutOfRange (lane : Lane) (type : ValueType)
  /-- The arena refused an operation, which no call of a session leads to. -/
  | arena (error : ArenaError)
deriving DecidableEq

namespace TraceError

def message : TraceError → String
  | illTyped => "operands of these types do not go together"
  | unbalancedExit => "exit_block called with only the program root open"
  | unclosedBlock kind depth => s!"{kind} block is still open ({depth} blocks deep)"
  | blockMismatch expected found => s!"expected to close {expected}, but {found} is open"
  | notEnterable kind => s!"{kind} cannot be opened with enter_block"
  | misplacedSection kind parent => s!"{kind} must be opened directly under Program, not under {parent}"
  | duplicateSection kind => s!"{kind} is declared more than once"
  | misplacedDeclaration expected found => s!"declaration belongs in {expected}, but the open block is {found}"
  | misplacedStatement kind => s!"statements are not allowed in {kind}"
  | danglingElse kind => s!"{kind} must follow If or ElseIf"
  | invalidName name => s!"`{name}` is not a valid name"
  | duplicateName name => s!"`{name}` is already declared"
  | uninitializedRead type => s!"{type} value is read before it is assigned"
  | negativeIndex index => s!"sample index {index.toInt} is negative"
  | readOnlyTarget => "lanes of an input are read-only"
  | notAddressable => "a member value has no lanes of its own"
  | laneOutOfRange lane type => s!"lane {lane.accessor} is out of range for {type}"
  | arena error => error.message

end TraceError

end ShaderTrace
