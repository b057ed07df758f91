import ShaderTrace.Arena.Basic
import ShaderTrace.Builtin

/-!
# Why a tree has no shader
-/

namespace ShaderTrace

/-- The place in a program where a node was found that cannot stand there. -/
inductive Place where
  | programSection
  | inputDeclaration
  | outputDeclaration
  | symbolReference
  | statement
  | assignmentTarget
  | expression
  | literalValue
  | memberReference
  | builtinIdentity
  | bufferReference
deriving DecidableEq, Repr

def Place.text : Place → String
  | programSection => "program section"
  | inputDeclaration => "input declaration"
  | outputDeclaration => "output declaration"
  | symbolReference => "symbol reference"
  | statement => "statement"
  | assignmentTarget => "assignment target"
  | expression => "expression"
  | literalValue => "literal value"
  | memberReference => "member reference"
  | builtinIdentity => "built-in identity"
  | bufferReference => "buffer reference"

instance : ToString Place := ⟨Place.text⟩

inductive GenerateError where
  | notAProgram (node : NodeId) (kind : NodeKind)
  | missingMain
  | duplicateSection (node : NodeId) (kind : NodeKind)
  | unexpectedNode (node : NodeId) (kind : NodeKind) (place : Place)
  | malformedNode (node : NodeId) (kind : NodeKind) (found : Nat)
  | missingName (node : NodeId)
  | duplicateName (name : String)
  | invalidInputType (name : String) (type : ValueType)
  | invalidOutputType (name : String) (type : ValueType)
  | unsupportedType (node : NodeId) (type : ValueType)
  | undeclaredSymbol (node : NodeId) (symbol : SymbolId)
  | assignToInput (node : NodeId) (symbol : SymbolId)
  | unknownBuiltin (node : NodeId) (id : Int32)
  | builtinArity (node : NodeId) (builtin : Builtin) (expected found : Nat)
  | danglingElse (node : NodeId) (kind : NodeKind)
  /-- The arena holds no tree at the root. -/
  | noTree (error : ArenaError)
deriving DecidableEq

namespace GenerateError

def message : GenerateError → String
  | notAProgram node kind => s!"root {node} is {kind}, expected Program"
  | missingMain => "program has no Main section"
  | duplicateSection node kind => s!"{kind} section {node} appears more than once"
  | unexpectedNode node kind place => s!"{kind} node {node} is not allowed as {place}"
  | malformedNode node kind found => s!"{kind} node {node} has {found} children"
  | missingName node => s!"declaration {node} has no name"
  | duplicateName name => s!"`{name}` is declared more than once"
  | invalidInputType name type => s!"input `{name}` has unsupported type {type}"
  | invalidOutputType name type => s!"output `{name}` has unsupported type {type}"
  | unsupportedType node type => s!"node {node} uses {type}, which has no GLSL spelling"
  | undeclaredSymbol node symbol =>
    s!"node {node} references {symbol}, which is not declared in an enclosing scope"
  | assignToInput node symbol => s!"node {node} assigns to input {symbol}"
  | unknownBuiltin node id => s!"node {node} calls unknown built-in {id.toInt}"
  | builtinArity node builtin expected found => s!"{builtin} at {node} takes {expected} arguments, got {found}"
  | danglingElse node kind => s!"{kind} node {node} does not follow If or ElseIf"
  | noTree error => error.message

end GenerateError

end ShaderTrace
