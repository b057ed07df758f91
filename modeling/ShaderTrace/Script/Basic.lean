import ShaderTrace.Recorder.Control

/-!
# Scripts

A kernel as data: a list of steps, each a call on a session or a block with a body of further steps. Steps pass handles to
each other through named registers, which hold copies.
-/

namespace ShaderTrace.Script

/-- An operand of a step: a register, or a constant. -/
inductive Arg where
  | register (name : String)
  | literal (value : Literal)
deriving DecidableEq

/-- A call on a session. Targets, owners, sources and buffers are names of registers. -/
inductive Call where
  | enter (kind : NodeKind)
  | exit
  | nextSymbol
  | input (type : ValueType) (name : String)
  | output (type : ValueType) (name : String)
  | unbound (type : ValueType)
  | copy (source : String)
  | inspect (source : String)
  | assign (target : String) (value : Arg)
  | update (how : Update) (target : String) (value : Arg)
  | var (value : Arg)
  | materialize (target : String)
  | lane (owner : String) (lane : Lane)
  | component (owner : String) (lane : Lane)
  | express (operator : Operator) (operands : List Arg)
  | sample1d (buffer : String) (index : Arg)
  | sample2d (buffer : String) (x y : Arg)
  | sampleAt (buffer : String) (coordinate : Arg)
  | beginIf (condition : Arg)
  | beginElseIf (condition : Arg)
  | beginElse
  | beginWhile (condition : Arg)
  | beginFor (name : String) (start stop : Arg)
deriving DecidableEq

/-- What opens a block with a body. -/
inductive Opening where
  /-- A section, or a block of its own. -/
  | enter (kind : NodeKind)
  | ifThen (condition : Arg)
  | elseIf (condition : Arg)
  | otherwise
  | whileDo (condition : Arg)
  | forRange (name : String) (start stop : Arg)
deriving DecidableEq

/-- A step. The handle it yields goes to the register `result`. An error of a step that is `caught` does not end the body
the step stands in. -/
inductive Step where
  | call (call : Call) (result : Option String) (caught : Bool)
  | block (opening : Opening) (result : Option String) (body : List Step) (caught : Bool)
  | repeated (times : Nat) (body : List Step) (caught : Bool)

/-- What a step answers. -/
inductive Reply where
  | done
  | node (id : NodeId)
  | symbol (symbol : SymbolId)
  | handle (handle : Handle)
  /-- The full description of a handle. -/
  | description (handle : Handle)
  | times (count : Nat)
deriving DecidableEq

inductive StepError where
  | noSuchRegister (name : String)
  | trace (error : TraceError)
deriving DecidableEq

/-- The error ends the body it arises in. A step that names a missing register, or operands that do not go together, is no
call at all: it has no effect and ends nothing. -/
def StepError.ends? : StepError → Option TraceError
  | noSuchRegister _ => none
  | trace .illTyped => none
  | trace error => some error

/-- What can be seen of a session after a step. -/
structure Snapshot where
  nodes : Nat
  symbols : Nat
  depth : Nat
  block : OpenBlock
deriving DecidableEq

def Snapshot.of (session : Session) : Snapshot where
  nodes := session.arena.size
  symbols := session.symbolCount
  depth := session.depth
  block := session.current

/-- The record of a step: what it answered, the session after it, and the records of its body if it has one. -/
inductive Entry where
  | mk (outcome : Except StepError Reply) (after : Snapshot) (body : Option (List Entry))

/-- Named handles. A register that is set again forgets what it held. -/
abbrev Registers := List (String × Handle)

def Registers.set (registers : Registers) (name : String) (handle : Handle) : Registers :=
  (name, handle) :: registers.filter (·.1 != name)

/-- Sets the register of a result, if there is one. -/
def Registers.setResult (registers : Registers) (name : Option String) (handle : Handle) : Registers :=
  match name with
  | some name => registers.set name handle
  | none => registers

/-- A session with the handles that steps have named. -/
structure Machine where
  session : Session
  registers : Registers

def Machine.start : Machine := ⟨Session.start, []⟩

end ShaderTrace.Script
