import ShaderTrace.Recorder.Declaration

/-!
# Recording sections, branches and loops

Each construct has a form that leaves the new block open, to be closed by `Recorder.exit`, and a form that records a body
inside it and closes it.
-/

namespace ShaderTrace.Recorder

def constData {α : Type} (body : Recorder α) : Recorder α := do
  let _ ← enter .constData
  within body

def outData {α : Type} (body : Recorder α) : Recorder α := do
  let _ ← enter .outData
  within body

def mainBody {α : Type} (body : Recorder α) : Recorder α := do
  let _ ← enter .main
  within body

/-- A block of its own; what it declares is not visible after it. -/
def scope {α : Type} (body : Recorder α) : Recorder α := do
  let _ ← enter .block
  within body

/-- Opens a block with an optional condition. -/
def openConditional (kind : NodeKind) (condition : Option Operand) : Recorder Unit := do
  let id ← alloc { kind, type := .void }
  attachOperands id condition.toList
  openBlock ⟨id, kind⟩

/-- A condition must be one. -/
def checkCondition (condition : Operand) : Recorder Unit := do
  if !condition.isCondition then throw .illTyped

/-- The open block must be a branch with a condition, and is closed. -/
def closeLink (next : NodeKind) : Recorder Unit := do
  let block ← current
  if !block.kind.isConditional then throw (.danglingElse next)
  let _ ← exit

/-- The last statement of the open block must be a branch with a condition. -/
def checkFollowsConditional (next : NodeKind) : Recorder Unit := do
  let block ← current
  let previous ← match (← find block.id).children.getLast? with
    | some id => do pure (some (← find id).kind)
    | none => pure none
  if !previous.any (·.isConditional) then throw (.danglingElse next)

def beginIf (condition : Operand) : Recorder Unit := do
  checkCondition condition
  checkStatements
  openConditional .ifBranch (some condition)

/-- Closes the open branch and opens another one after it. -/
def beginElseIf (condition : Operand) : Recorder Unit := do
  checkCondition condition
  closeLink .elseIfBranch
  openConditional .elseIfBranch (some condition)

/-- Closes the open branch and opens the last one after it. -/
def beginElse : Recorder Unit := do
  closeLink .elseBranch
  openConditional .elseBranch none

def beginWhile (condition : Operand) : Recorder Unit := do
  checkCondition condition
  checkStatements
  openConditional .whileLoop (some condition)

/-- Opens a loop that counts from `start` up to and without `stop`, and gives the variable it counts with. -/
def beginFor (name : String) (start stop : Operand) : Recorder Value := do
  if start.type ≠ .int || stop.type ≠ .int then throw .illTyped
  checkStatements
  if !Identifier.isIdentifier name then throw (.invalidName name)
  let symbol ← nextSymbol
  let id ← alloc ((Head.ofSymbol .forRange .void symbol).named name)
  attachOperands id [start, stop]
  openBlock ⟨id, .forRange⟩
  return ⟨.int, .bound symbol⟩

/-- Opens another branch after a branch that has been closed. -/
def reopenElseIf (condition : Operand) : Recorder Unit := do
  checkCondition condition
  checkFollowsConditional .elseIfBranch
  openConditional .elseIfBranch (some condition)

/-- Opens the last branch after a branch that has been closed. -/
def reopenElse : Recorder Unit := do
  checkFollowsConditional .elseBranch
  openConditional .elseBranch none

def ifThen {α : Type} (condition : Operand) (body : Recorder α) : Recorder α := do
  beginIf condition
  within body

/-- Another branch, right after `ifThen` or `elseIf`. -/
def elseIf {α : Type} (condition : Operand) (body : Recorder α) : Recorder α := do
  reopenElseIf condition
  within body

/-- The last branch, right after `ifThen` or `elseIf`. -/
def otherwise {α : Type} (body : Recorder α) : Recorder α := do
  reopenElse
  within body

def whileDo {α : Type} (condition : Operand) (body : Recorder α) : Recorder α := do
  beginWhile condition
  within body

def forRange {α : Type} (name : String) (start stop : Operand) (body : Value → Recorder α) : Recorder α := do
  let counter ← beginFor name start stop
  within (body counter)

end ShaderTrace.Recorder
