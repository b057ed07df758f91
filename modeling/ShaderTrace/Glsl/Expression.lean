import ShaderTrace.Arena.Tree
import ShaderTrace.Glsl.Scope
import ShaderTrace.Worklist

/-!
# From trees to expressions

A tree becomes an expression in two steps a node: its shape is checked when the walk comes to it, and it is put together
when all its operands are. The walk keeps its own stack, so that trees of any depth can be rendered.
-/

namespace ShaderTrace

namespace Tree

def unexpected (tree : Tree) (place : Place) : GenerateError := .unexpectedNode tree.id tree.kind place

def malformed (tree : Tree) : GenerateError := .malformedNode tree.id tree.kind tree.children.length

/-- The symbol that a node declares or refers to. -/
def symbolOf (tree : Tree) : Except GenerateError SymbolId :=
  match tree.head.symbol? with
  | some symbol => .ok symbol
  | none => .error (tree.unexpected .symbolReference)

/-- The spelling of a type that a node needs. -/
def spell (tree : Tree) (type : ValueType) : Except GenerateError String :=
  match Glsl.typeName? type with
  | some name => .ok name
  | none => .error (.unsupportedType tree.id type)

/-- The children of a node that must have so many. -/
def childrenExactly (tree : Tree) (count : Nat) : Except GenerateError (List Tree) :=
  if tree.children.length = count then .ok tree.children else .error tree.malformed

/-- The function that a call node calls, and the arguments. -/
def builtinCall (tree : Tree) : Except GenerateError (Builtin × List Tree) :=
  match tree.children with
  | [] => .error tree.malformed
  | first :: arguments =>
    match first.head.literal? with
    | some (.int id) =>
      match Builtin.ofId? id with
      | some builtin => .ok (builtin, arguments)
      | none => .error (.unknownBuiltin tree.id id)
    | _ => .error (first.unexpected .builtinIdentity)

/-- What is sampled must be a reference to a buffer. -/
def checkBuffer (tree : Tree) : Except GenerateError Unit :=
  if tree.kind = .var ∧ tree.type.isBuffer then .ok () else .error (tree.unexpected .bufferReference)

/-- The operands of a sampling node: the buffer and the indices. -/
def sampleOperands (tree : Tree) (count : Nat) : Except GenerateError (List Tree) := do
  let operands ← tree.childrenExactly count
  match operands with
  | buffer :: _ => buffer.checkBuffer
  | [] => .error tree.malformed
  return operands

/-- The operands of an expression node, in the order in which they are rendered, once its shape is checked. -/
def operands (tree : Tree) : Except GenerateError (List Tree) :=
  match tree.kind with
  | .var | .literal | .member | .index | .normalizedIndex => .ok []
  | .negate | .logicalNot | .bitwiseNot => tree.childrenExactly 1
  | .cast | .constructor => do
    let _ ← tree.spell tree.type
    if tree.children.isEmpty then .error tree.malformed else .ok tree.children
  | .function => do
    let (builtin, arguments) ← tree.builtinCall
    if arguments.length = builtin.arity then .ok arguments
    else .error (.builtinArity tree.id builtin builtin.arity arguments.length)
  | .sample1d => tree.sampleOperands 2
  | .sample2d => tree.sampleOperands 3
  | kind => if (BinaryOp.ofKind? kind).isSome then tree.childrenExactly 2 else .error (tree.unexpected .expression)

end Tree

namespace Glsl

/-- The expression of a node over the expressions of its operands. -/
def render (scope : Scope) (tree : Tree) (operands : List Expr) : Except GenerateError Expr :=
  match tree.kind, operands with
  | .var, [] => do
    let symbol ← tree.symbolOf
    return .var (← scope.resolve tree.id symbol)
  | .literal, [] =>
    match tree.head.payload with
    | .literal value => .ok (.literal value)
    | _ => .error (tree.unexpected .literalValue)
  | .member, [] =>
    match tree.head.payload with
    | .member owner _ lane => do
      return .field (.var (← scope.resolve tree.id owner)) lane.accessor
    | _ => .error (tree.unexpected .memberReference)
  | .index, [] => .ok .index
  | .normalizedIndex, [] => .ok .normalizedIndex
  | .cast, _ :: _ | .constructor, _ :: _ => do
    return .call (← tree.spell tree.type) operands
  | .function, _ => do
    let (builtin, _) ← tree.builtinCall
    return .builtin builtin operands
  | .sample1d, [buffer, index] => .ok (.texel tree.type (.call "texelFetch" [buffer, index]))
  | .sample2d, [buffer, x, y] => .ok (.texel tree.type (.call "texelFetch" [buffer, .call "ivec2" [x, y]]))
  | kind, [operand] =>
    match UnaryOp.ofKind? kind with
    | some op => .ok (.unary op operand)
    | none => .error tree.malformed
  | kind, [left, right] =>
    match BinaryOp.ofKind? kind with
    | some op => .ok (.binary op left right)
    | none => .error tree.malformed
  | _, _ => .error tree.malformed

/-- A task of the walk over an expression tree. -/
inductive Task where
  /-- Check the shape of a node, then see to its operands. -/
  | visit (tree : Tree)
  /-- Put a node together from the expressions on top of the stack, one an operand. -/
  | render (tree : Tree) (count : Nat)

/-- Does one task. The stack of finished expressions has the latest on top. -/
def perform (scope : Scope) (finished : List Expr) : Task → Except GenerateError (List Expr × List Task)
  | .visit tree => do
    let operands ← tree.operands
    return (finished, operands.map .visit ++ [.render tree operands.length])
  | .render tree count => do
    let expr ← render scope tree (finished.take count).reverse
    return (expr :: finished.drop count, [])

/-- The expression of a tree. Every node is visited once and rendered once. -/
def expression (scope : Scope) (tree : Tree) : Except GenerateError Expr := do
  let finished ← Worklist.run (perform scope) tree.malformed (2 * tree.size) [] [.visit tree]
  match finished with
  | expr :: _ => return expr
  | [] => .error tree.malformed

end Glsl

end ShaderTrace
