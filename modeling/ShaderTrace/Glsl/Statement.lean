import ShaderTrace.Glsl.Expression
import ShaderTrace.Glsl.Stmt

/-!
# From trees to statements

A variable is declared by the first assignment to it that its block can see, so that every block declares what it is the
first to write. What a block declares is forgotten at its end.
-/

namespace ShaderTrace.Glsl

/-- An assignment: the value is rendered first, and a target that is not yet visible is declared. -/
def assignment (scope : Scope) (tree : Tree) : Except GenerateError (List Stmt × Scope) :=
  match tree.children with
  | [target, source] => do
    let value ← expression scope source
    match target.kind, target.head.payload with
    | .var, .symbol symbol =>
      let v := scope.variableOf symbol
      if scope.isInput symbol then .error (.assignToInput tree.id symbol)
      else if scope.isVisible symbol then .ok ([.assign v value], scope)
      else do
        let type ← target.spell target.type
        return ([.define type v value], scope.declare symbol)
    | .member, .member owner ownerType lane =>
      let v := scope.variableOf owner
      if scope.isInput owner then .error (.assignToInput tree.id owner)
      else if scope.isVisible owner then .ok ([.assignLane v lane value], scope)
      else do
        let type ← target.spell ownerType
        return ([.declare type v, .assignLane v lane value], scope.declare owner)
    | _, _ => .error (target.unexpected .assignmentTarget)
  | _ => .error tree.malformed

/-- An `else` branch must come right after a branch with a condition. -/
def checkFollows (previous : Option NodeKind) (tree : Tree) : Except GenerateError Unit :=
  match tree.kind with
  | .elseIfBranch | .elseBranch =>
    if previous.any (·.isConditional) then .ok () else .error (.danglingElse tree.id tree.kind)
  | _ => .ok ()

mutual

/-- The statements of a node, and the scope after them. -/
def statement (scope : Scope) : Tree → Except GenerateError (List Stmt × Scope)
  | tree@(.node _ head children) =>
    match head.kind, children with
    | .assignment, _ => assignment scope tree
    | .ifBranch, condition :: body => do
      let condition ← expression scope condition
      return ([.guarded .if condition (← statements scope none body)], scope)
    | .elseIfBranch, condition :: body => do
      let condition ← expression scope condition
      return ([.guarded .elseIf condition (← statements scope none body)], scope)
    | .whileLoop, condition :: body => do
      let condition ← expression scope condition
      return ([.guarded .while condition (← statements scope none body)], scope)
    | .elseBranch, body => do
      return ([.otherwise (← statements scope none body)], scope)
    | .block, body => do
      return ([.block (← statements scope none body)], scope)
    | .forRange, start :: stop :: body => do
      let symbol ← tree.symbolOf
      let start ← expression scope start
      let stop ← expression scope stop
      let body ← statements (scope.declare symbol) none body
      return ([.count (scope.variableOf symbol) start stop body], scope)
    | .forRange, _ => do
      let _ ← tree.symbolOf
      .error tree.malformed
    | .ifBranch, [] | .elseIfBranch, [] | .whileLoop, [] => .error tree.malformed
    | _, _ => .error (tree.unexpected .statement)

/-- The statements of a row of nodes of which the one before had the kind `previous`. -/
def statements (scope : Scope) (previous : Option NodeKind) : List Tree → Except GenerateError (List Stmt)
  | [] => .ok []
  | tree :: trees => do
    checkFollows previous tree
    let (stmts, scope) ← statement scope tree
    return stmts ++ (← statements scope (some tree.kind) trees)

end

end ShaderTrace.Glsl
