import ShaderTrace.Arena.Walk
import ShaderTrace.Recorder.Error

/-!
# Sessions

The state of one recording: its arena, the blocks that are open, the symbols and names given out so far. A recorder is an
action on a session that may be refused; what it did before it was refused stays done.
-/

namespace ShaderTrace

/-- A block that is open, with its kind. -/
structure OpenBlock where
  id : NodeId
  kind : NodeKind
deriving DecidableEq

structure Session where
  arena : Arena
  /-- The innermost open block. -/
  current : OpenBlock
  /-- The blocks around it, from the inside out. -/
  outer : List OpenBlock
  /-- How many symbols have been given out. -/
  symbolCount : Nat
  /-- The names of inputs and outputs. -/
  names : List String

/-- A finished recording. -/
structure Source where
  arena : Arena
  symbolCount : Nat

abbrev Recorder := EStateM TraceError Session

namespace Session

/-- The node of the program, which every session begins with. -/
def root : NodeId := ⟨0⟩

/-- The session in which nothing has been recorded. -/
def start : Session where
  arena := (Arena.empty.alloc { kind := .program, type := .void }).2
  current := ⟨root, .program⟩
  outer := []
  symbolCount := 0
  names := []

/-- The number of open blocks, the program among them. -/
def depth (session : Session) : Nat := session.outer.length + 1

/-- Ends the recording. Only the program itself may still be open. -/
def finish (session : Session) : Except TraceError Source :=
  if session.outer.isEmpty then .ok ⟨session.arena, session.symbolCount⟩
  else .error (.unclosedBlock session.current.kind session.depth)

end Session

namespace Recorder

/-- The innermost open block. -/
def current : Recorder OpenBlock := return (← get).current

/-- Passes on what an arena answers. -/
def ofArena {α : Type} : Except ArenaError α → Recorder α
  | .ok a => pure a
  | .error error => throw (.arena error)

def find (id : NodeId) : Recorder Node := do ofArena ((← get).arena.find id)

/-- A new node without links. -/
def alloc (head : Head) : Recorder NodeId :=
  modifyGet fun session =>
    let (id, arena) := session.arena.alloc head
    (id, { session with arena })

def attach (parent child : NodeId) : Recorder Unit := do
  ofArena ((← get).arena.checkAttach parent child)
  modify fun session => { session with arena := session.arena.link parent child }

/-- A detached copy of the nodes below a node. -/
def clone (id : NodeId) : Recorder NodeId := do
  let (copy, arena) ← ofArena ((← get).arena.clone id)
  modify fun session => { session with arena }
  return copy

/-- A symbol that has not been given out before. -/
def nextSymbol : Recorder SymbolId :=
  modifyGet fun session => (⟨session.symbolCount⟩, { session with symbolCount := session.symbolCount + 1 })

/-- The kinds of the children of a node. -/
def childKinds (id : NodeId) : Recorder (List NodeKind) := do
  (← find id).children.mapM fun child => return (← find child).kind

/-- The open block must take statements. -/
def checkStatements : Recorder Unit := do
  let block ← current
  if !block.kind.acceptsStatements then throw (.misplacedStatement block.kind)

/-- A section stands directly under the program, and only once. -/
def checkSection (kind : NodeKind) : Recorder Unit := do
  let block ← current
  if block.kind ≠ .program then throw (.misplacedSection kind block.kind)
  let kinds ← childKinds Session.root
  if kinds.contains kind then throw (.duplicateSection kind)

/-- Makes a node the last child of the open block and opens it. -/
def openBlock (block : OpenBlock) : Recorder Unit := do
  attach (← current).id block.id
  modify fun session => { session with current := block, outer := session.current :: session.outer }

/-- Opens a section, or a block of its own. -/
def enter (kind : NodeKind) : Recorder NodeId := do
  match kind with
  | .constData | .outData | .main => checkSection kind
  | .block => checkStatements
  | _ => throw (.notEnterable kind)
  let id ← alloc { kind, type := .void }
  openBlock ⟨id, kind⟩
  return id

/-- Closes the innermost open block. -/
def exit : Recorder NodeId := do
  let session ← get
  match session.outer with
  | [] => throw .unbalancedExit
  | block :: outer =>
    set { session with current := block, outer }
    return session.current.id

/-- Closes the given block, which must be the innermost open one. -/
def leave (block : OpenBlock) : Recorder Unit := do
  let top ← current
  if top.id ≠ block.id then throw (.blockMismatch block.kind top.kind)
  let _ ← exit

/-- Records `body` inside the innermost open block and closes that block. If `body` is refused, the block stays open. -/
def within {α : Type} (body : Recorder α) : Recorder α := do
  let block ← current
  let result ← body
  leave block
  return result

/-- Makes a statement the last child of the open block. -/
def append (statement : NodeId) : Recorder Unit := do
  checkStatements
  attach (← current).id statement

end Recorder

end ShaderTrace
