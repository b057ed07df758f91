import ShaderTrace.Proofs.Actions
import ShaderTrace.Proofs.Unfolding
import ShaderTrace.Recorder.Control

/-!
# Recording by value

The recorder without an arena. The result of an operation carries its expression as a term that never changes, and using
it puts that term where it is used. A session is the program as a tree of blocks, with the path of those that are still
open. Nothing is shared, so nothing has to be copied and nothing can be refused for the sake of ownership.
-/

namespace ShaderTrace

namespace Reference

/-! ## Handles -/

/-- What a value handle stands for. -/
inductive Form where
  | unbound
  | bound (symbol : SymbolId)
  /-- The result of an operation. -/
  | pending (term : Term)
  | member (owner : SymbolId) (ownerType : ValueType) (lane : Lane) (writable : Bool)

structure Value where
  type : ValueType
  form : Form

inductive Handle where
  | value (value : Value)
  | input (input : Input)

inductive Operand where
  | handle (handle : Handle)
  | literal (value : Literal)

namespace Value

def unbound (type : ValueType) : Value := ⟨type, .unbound⟩

def symbol? (value : Value) : Option SymbolId :=
  match value.form with
  | .bound symbol => some symbol
  | _ => none

end Value

def Handle.type : Handle → ValueType
  | value v => v.type
  | input i => i.type

namespace Operand

def ofValue (value : Value) : Operand := .handle (.value value)

def ofInput (input : Input) : Operand := .handle (.input input)

def type : Operand → ValueType
  | handle h => h.type
  | literal l => l.type

def isCondition : Operand → Bool
  | handle h => h.type == .bool
  | literal _ => false

end Operand

/-- Lane of an input vector. -/
def laneOfInput? (input : Input) (lane : Lane) : Option Value :=
  if input.type.isVector && lane.index < input.type.lanes then
    input.type.lane?.map fun type => ⟨type, .member input.symbol input.type lane false⟩
  else none

/-- Only an input can be sampled. -/
def accepts : Operator → List Operand → Bool
  | .sample1d, .handle (.input _) :: _ | .sample2d, .handle (.input _) :: _ => true
  | .sample1d, _ | .sample2d, _ => false
  | _, _ => true

/-- The type of the result of an operation. -/
def type? (operator : Operator) (operands : List Operand) : Option ValueType :=
  if accepts operator operands then operator.result? (operands.map Operand.type) else none

/-! ## Sessions -/

/-- A block that is open, with what it holds so far. Blocks are told apart by their numbers. -/
structure Block where
  head : Head
  children : List Term
  number : Nat

namespace Block

def kind (block : Block) : NodeKind := block.head.kind

/-- The block as it stands. -/
def term (block : Block) : Term := .node block.head block.children

/-- The block with one more child at its end. -/
def add (block : Block) (child : Term) : Block := { block with children := block.children ++ [child] }

end Block

/-- The program around an innermost open block. -/
def plug : Block → (outer : List Block) → Term
  | block, [] => block.term
  | block, parent :: outer => plug (parent.add block.term) outer

structure Session where
  /-- The innermost open block. -/
  current : Block
  /-- The blocks around it, from the inside out. -/
  outer : List Block
  symbolCount : Nat
  names : List String
  /-- How many blocks have been opened. -/
  opened : Nat

namespace Session

def start : Session where
  current := { head := { kind := .program, type := .void }, children := [], number := 0 }
  outer := []
  symbolCount := 0
  names := []
  opened := 1

def depth (session : Session) : Nat := session.outer.length + 1

/-- The program as it stands. -/
def tree (session : Session) : Term := plug session.current session.outer

/-- Ends the recording. -/
def finish (session : Session) : Except TraceError Term :=
  if session.outer.isEmpty then .ok session.tree
  else .error (.unclosedBlock session.current.kind session.depth)

end Session

abbrev Recorder := EStateM TraceError Session

/-! ## Blocks -/

def current : Recorder Block := return (← get).current

def nextSymbol : Recorder SymbolId :=
  modifyGet fun session => (⟨session.symbolCount⟩, { session with symbolCount := session.symbolCount + 1 })

def checkStatements : Recorder Unit := do
  let block ← current
  if !block.kind.acceptsStatements then throw (.misplacedStatement block.kind)

/-- Statements are accepted where the kind of the innermost block says so. -/
theorem checkStatements_eq (session : Session) :
    checkStatements session = if session.current.kind.acceptsStatements then .ok () session
      else .error (.misplacedStatement session.current.kind) session := by
  show (if (!session.current.kind.acceptsStatements) = true then throw _ else pure () : Recorder Unit) session = _
  cases session.current.kind.acceptsStatements <;> rfl

def checkSection (kind : NodeKind) : Recorder Unit := do
  let block ← current
  if block.kind ≠ .program then throw (.misplacedSection kind block.kind)
  if ((← get).tree.children.map Term.kind).contains kind then throw (.duplicateSection kind)

/-- Opens a block that holds its header. -/
def openBlock (head : Head) (header : List Term) : Recorder Unit :=
  modify fun session =>
    { session with
      current := { head, children := header, number := session.opened }
      outer := session.current :: session.outer
      opened := session.opened + 1 }

def enter (kind : NodeKind) : Recorder Unit := do
  match kind with
  | .constData | .outData | .main => checkSection kind
  | .block => checkStatements
  | _ => throw (.notEnterable kind)
  openBlock { kind, type := .void } []

/-- Closes the innermost open block: it becomes the last child of the block around it. -/
def exit : Recorder Unit := do
  let session ← get
  match session.outer with
  | [] => throw .unbalancedExit
  | parent :: outer => set { session with current := parent.add session.current.term, outer }

/-- To exit adds the innermost block, as it stands, to the one around it. -/
theorem exit_eq (session : Session) : exit session = match session.outer with
    | [] => .error .unbalancedExit session
    | parent :: outer => .ok () { session with current := parent.add session.current.term, outer } := by
  obtain ⟨current, outer, symbolCount, names, opened⟩ := session
  cases outer <;> rfl

/-- Closes the given block, which must be the innermost open one. -/
def leave (block : Block) : Recorder Unit := do
  let top ← current
  if top.number ≠ block.number then throw (.blockMismatch block.kind top.kind)
  exit

/-- Makes a term the last child of the open block. -/
def attach (child : Term) : Recorder Unit :=
  modify fun session => { session with current := session.current.add child }

def append (statement : Term) : Recorder Unit := do
  checkStatements
  attach statement

/-! ## Expressions -/

def lowerValue (value : Value) : Recorder Term :=
  match value.form with
  | .unbound => throw (.uninitializedRead value.type)
  | .bound symbol => return .node (.ofSymbol .var value.type symbol) []
  | .pending term => return term
  | .member owner ownerType lane _ => return .node (.ofMember value.type owner ownerType lane) []

/-- The term that stands for an operand. -/
def lower : Operand → Recorder Term
  | .handle (.value value) => lowerValue value
  | .handle (.input input) => return .node (.ofSymbol .var input.type input.symbol) []
  | .literal value => return .node (.ofLiteral value) []

def lowerAll : List Operand → Recorder (List Term)
  | [] => return []
  | operand :: operands => do
    let first ← lower operand
    let rest ← lowerAll operands
    return first :: rest

def build (kind : NodeKind) (type : ValueType) (operands : List Operand) : Recorder Value := do
  let children ← lowerAll operands
  return ⟨type, .pending (.node { kind, type } children)⟩

def checkIndices : List Operand → Recorder Unit
  | [] => return
  | .literal (.int index) :: rest => do
    if index < 0 then throw (.negativeIndex index)
    checkIndices rest
  | _ :: rest => checkIndices rest

def checkOperands (operator : Operator) (operands : List Operand) : Recorder Unit :=
  match operator with
  | .sample1d | .sample2d => checkIndices (operands.drop 1)
  | _ => return

def childrenOf (operator : Operator) (operands : List Operand) : List Operand :=
  match operator with
  | .call builtin => .literal (.int builtin.id) :: operands
  | _ => operands

def express (operator : Operator) (operands : List Operand) : Recorder Value :=
  match type? operator operands with
  | none => throw .illTyped
  | some type => do
    checkOperands operator operands
    build operator.kind type (childrenOf operator operands)

/-! ## Declarations and assignments -/

def declare (kind sectionKind : NodeKind) (type : ValueType) (name : String) : Recorder SymbolId := do
  let block ← current
  if block.kind ≠ sectionKind then throw (.misplacedDeclaration sectionKind block.kind)
  if !Identifier.isDeclarable name then throw (.invalidName name)
  if (← get).names.contains name then throw (.duplicateName name)
  modify fun session => { session with names := session.names ++ [name] }
  let symbol ← nextSymbol
  attach (.node ((Head.ofSymbol kind type symbol).named name) [])
  return symbol

def input (type : ValueType) (name : String) : Recorder Input := do
  if !type.isNameable then throw .illTyped
  return ⟨type, ← declare .constVar .constData type name⟩

def output (type : ValueType) (name : String) : Recorder Value := do
  if !type.isNumeric then throw .illTyped
  return ⟨type, .bound (← declare .outVar .outData type name)⟩

def lowerTarget (target : Value) : Recorder (Term × Value) :=
  match target.form with
  | .member owner ownerType lane _ => return (.node (.ofMember target.type owner ownerType lane) [], target)
  | .bound symbol => return (.node (.ofSymbol .var target.type symbol) [], target)
  | .unbound | .pending _ => do
    let symbol ← nextSymbol
    return (.node (.ofSymbol .var target.type symbol) [], ⟨target.type, .bound symbol⟩)

def checkWritable (target : Value) : Recorder Unit :=
  match target.form with
  | .member _ _ _ false => throw .readOnlyTarget
  | _ => return

def assign (target : Value) (value : Operand) : Recorder Value := do
  if value.type ≠ target.type then throw .illTyped
  checkStatements
  checkWritable target
  let right ← lower value
  let (left, target) ← lowerTarget target
  append (.node { kind := .assignment, type := target.type } [left, right])
  return target

def var (value : Operand) : Recorder Value := assign (.unbound value.type) value

def update (how : Update) (target : Value) (value : Operand) : Recorder Value := do
  if Typing.binary? how.op target.type value.type ≠ some target.type then throw .illTyped
  let result ← express (.binary how.op) [.ofValue target, value]
  assign target (.ofValue result)

def materialize (value : Value) : Recorder (SymbolId × Value) :=
  match value.form with
  | .bound symbol => return (symbol, value)
  | .unbound => do
    let symbol ← nextSymbol
    return (symbol, ⟨value.type, .bound symbol⟩)
  | .pending _ => do
    let bound ← assign value (.ofValue value)
    match bound.symbol? with
    | some symbol => return (symbol, bound)
    | none => throw .notAddressable
  | .member .. => throw .notAddressable

def lane (owner : Value) (lane : Lane) : Recorder (Value × Value) :=
  match owner.type.lane? with
  | some type => do
    if !owner.type.isVector then throw .illTyped
    if owner.type.lanes ≤ lane.index then throw (.laneOutOfRange lane owner.type)
    let (symbol, owner) ← materialize owner
    return (⟨type, .member symbol owner.type lane true⟩, owner)
  | none => throw .illTyped

def component (owner : Value) (lane : Lane) : Recorder (Value × Value) := do
  if !owner.type.isVector || owner.type.lanes ≤ lane.index then throw .illTyped
  Reference.lane owner lane

def sampleAt (buffer : Input) (coordinate : Value) : Recorder Value := do
  if !(buffer.type.isValid && buffer.type.isBuffer2d) || coordinate.type ≠ .int2 then throw .illTyped
  let (x, coordinate) ← lane coordinate .x
  let (y, _) ← lane coordinate .y
  express .sample2d [.ofInput buffer, .ofValue x, .ofValue y]

/-! ## Branches and loops -/

def openConditional (kind : NodeKind) (condition : Option Operand) : Recorder Unit := do
  let header ← lowerAll condition.toList
  openBlock { kind, type := .void } header

def checkCondition (condition : Operand) : Recorder Unit := do
  if !condition.isCondition then throw .illTyped

def closeLink (next : NodeKind) : Recorder Unit := do
  let block ← current
  if !block.kind.isConditional then throw (.danglingElse next)
  exit

def checkFollowsConditional (next : NodeKind) : Recorder Unit := do
  let block ← current
  if !(block.children.getLast?.map Term.kind).any (·.isConditional) then throw (.danglingElse next)

def beginIf (condition : Operand) : Recorder Unit := do
  checkCondition condition
  checkStatements
  openConditional .ifBranch (some condition)

def beginElseIf (condition : Operand) : Recorder Unit := do
  checkCondition condition
  closeLink .elseIfBranch
  openConditional .elseIfBranch (some condition)

def beginElse : Recorder Unit := do
  closeLink .elseBranch
  openConditional .elseBranch none

def beginWhile (condition : Operand) : Recorder Unit := do
  checkCondition condition
  checkStatements
  openConditional .whileLoop (some condition)

def beginFor (name : String) (start stop : Operand) : Recorder Value := do
  if start.type ≠ .int || stop.type ≠ .int then throw .illTyped
  checkStatements
  if !Identifier.isIdentifier name then throw (.invalidName name)
  let symbol ← nextSymbol
  let bounds ← lowerAll [start, stop]
  openBlock ((Head.ofSymbol .forRange .void symbol).named name) bounds
  return ⟨.int, .bound symbol⟩

def reopenElseIf (condition : Operand) : Recorder Unit := do
  checkCondition condition
  checkFollowsConditional .elseIfBranch
  openConditional .elseIfBranch (some condition)

def reopenElse : Recorder Unit := do
  checkFollowsConditional .elseBranch
  openConditional .elseBranch none

end Reference

end ShaderTrace
