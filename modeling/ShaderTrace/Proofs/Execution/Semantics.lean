import Mathlib.Logic.Function.Basic
import ShaderTrace.Glsl.Shader

/-!
# Running kernels and shaders

What the statements of a kernel and the statements of a shader do. A kernel has one storage cell for each symbol. A shader has
the variables that are visible at a point, the latest first; a block forgets at its end what was declared in it. Both run with a
bound on their steps, over values and operations that are left open (`Interpretation`).
-/

namespace ShaderTrace.Execution

open Glsl (Expr Stmt Shader Declaration)

/-- What literals, operators, conversions, functions and samplings mean. -/
structure Interpretation (V : Type) where
  literal : Literal → V
  unary : UnaryOp → V → V
  binary : BinaryOp → V → V → V
  /-- A cast of one value, or a vector put together from its lanes. -/
  convert : ValueType → List V → V
  call : Builtin → List V → V
  /-- The element of so many lanes that a buffer holds at some indices. -/
  sample : (lanes : Nat) → (buffer : V) → (indices : List V) → V
  lane : Lane → V → V
  /-- A vector with one lane replaced. -/
  setLane : Lane → (vector value : V) → V
  /-- The value counts as true in a condition. -/
  isTrue : V → Bool
  /-- What a loop that counts makes of its variable. -/
  next : V → V
  /-- What a variable holds that is declared without a value. -/
  unset : V

/-- The end of a run with a bound on its steps. -/
inductive Outcome (σ : Type) where
  | done (state : σ)
  | outOfSteps
  /-- There is nothing that the statement could do. -/
  | stuck

namespace Outcome

variable {σ τ : Type}

def bind (outcome : Outcome σ) (next : σ → Outcome τ) : Outcome τ :=
  match outcome with
  | done state => next state
  | outOfSteps => outOfSteps
  | stuck => stuck

instance : Monad Outcome where
  pure := done
  bind := bind

def ofOption : Option σ → Outcome σ
  | some state => done state
  | none => stuck

end Outcome

variable {V : Type}

/-! ## Kernels -/

/-- One storage cell for each symbol. -/
abbrev Store (V : Type) := SymbolId → V

/-- The meaning of an expression node over the values of its children. -/
def valueOf (I : Interpretation V) (store : Store V) (tree : Tree) (operands : List V) : Option V :=
  match tree.kind, operands with
  | .var, _ => tree.head.symbol?.map store
  | .literal, _ => tree.head.literal?.map I.literal
  | .member, _ =>
    match tree.head.payload with
    | .member owner _ lane => some (I.lane lane (store owner))
    | _ => none
  | .index, _ => some (I.call .index [])
  | .normalizedIndex, _ => some (I.call .normalizedIndex [])
  | .cast, operands | .constructor, operands => some (I.convert tree.type operands)
  | .function, _ :: arguments => tree.builtinCall.toOption.map fun (builtin, _) => I.call builtin arguments
  | .sample1d, buffer :: indices | .sample2d, buffer :: indices => some (I.sample tree.type.lanes buffer indices)
  | kind, [operand] => (UnaryOp.ofKind? kind).map (I.unary · operand)
  | kind, [left, right] => (BinaryOp.ofKind? kind).map (I.binary · left right)
  | _, _ => none

mutual

/-- The value of an expression tree. -/
def evalTree (I : Interpretation V) (store : Store V) : Tree → Option V
  | tree@(.node _ _ children) => (evalTrees I store children).bind (valueOf I store tree)

def evalTrees (I : Interpretation V) (store : Store V) : List Tree → Option (List V)
  | [] => some []
  | tree :: trees => (evalTree I store tree).bind fun value => (evalTrees I store trees).map (value :: ·)

end

/-- A tree means what its node means over the values of its children. -/
theorem evalTree_eq {I : Interpretation V} {store : Store V} {tree : Tree} {values : List V}
    (h : evalTrees I store tree.children = some values) : evalTree I store tree = valueOf I store tree values := by
  obtain ⟨id, head, children⟩ := tree
  rw [Tree.children] at h
  rw [evalTree, h]
  rfl

/-- An assignment: a whole cell, or one lane of what a cell holds. -/
def assignTree (I : Interpretation V) (store : Store V) (tree : Tree) : Option (Store V) :=
  match tree.children with
  | [target, source] => (evalTree I store source).bind fun value =>
    match target.kind, target.head.payload with
    | .var, .symbol symbol => some (Function.update store symbol value)
    | .member, .member owner _ lane => some (Function.update store owner (I.setLane lane (store owner) value))
    | _, _ => none
  | _ => none

/-- The node continues a row of branches. -/
def isElse (tree : Tree) : Bool := tree.kind == .elseIfBranch || tree.kind == .elseBranch

mutual

/-- Runs the statements of a kernel. A branch that is taken passes over the branches after it, so that a branch is only reached if
none before it was taken. -/
def runTrees (I : Interpretation V) : (bound : Nat) → List Tree → Store V → Outcome (Store V)
  | 0, _, _ => .outOfSteps
  | _ + 1, [], store => .done store
  | bound + 1, tree :: trees, store =>
    match tree.kind, tree.children with
    | .assignment, _ => do
      let store ← .ofOption (assignTree I store tree)
      runTrees I bound trees store
    | .ifBranch, condition :: body | .elseIfBranch, condition :: body => do
      let value ← .ofOption (evalTree I store condition)
      if I.isTrue value then do
        let store ← runTrees I bound body store
        runTrees I bound (trees.dropWhile isElse) store
      else runTrees I bound trees store
    | .whileLoop, condition :: body => do
      let value ← .ofOption (evalTree I store condition)
      if I.isTrue value then do
        let store ← runTrees I bound body store
        runTrees I bound (tree :: trees) store
      else runTrees I bound trees store
    | .elseBranch, body | .block, body => do
      let store ← runTrees I bound body store
      runTrees I bound trees store
    | .forRange, start :: stop :: body => do
      let symbol ← .ofOption tree.head.symbol?
      let first ← .ofOption (evalTree I store start)
      let store ← countTrees I bound symbol stop body (Function.update store symbol first)
      runTrees I bound trees store
    | _, _ => .stuck

/-- Runs a loop that counts: each time its end is evaluated again before the body, and the cell is counted up after it. -/
def countTrees (I : Interpretation V) :
    (bound : Nat) → SymbolId → (stop : Tree) → (body : List Tree) → Store V → Outcome (Store V)
  | 0, _, _, _, _ => .outOfSteps
  | bound + 1, symbol, stop, body, store => do
    let last ← .ofOption (evalTree I store stop)
    if I.isTrue (I.binary .lt (store symbol) last) then do
      let store ← runTrees I bound body store
      countTrees I bound symbol stop body (Function.update store symbol (I.next (store symbol)))
    else .done store

end

/-! ## Shaders -/

/-- The variables that are visible, the latest first. -/
abbrev Env (V : Type) := List (String × V)

namespace Env

/-- Writes the visible variable of a name. -/
def write : Env V → (name : String) → V → Option (Env V)
  | [], _, _ => none
  | (other, old) :: env, name, value =>
    if other = name then some ((other, value) :: env) else (write env name value).map ((other, old) :: ·)

/-- Counts a variable up. -/
def countUp (I : Interpretation V) (env : Env V) (name : String) : Option (Env V) :=
  (env.lookup name).bind fun value => env.write name (I.next value)

/-- Forgets what was declared since there were the variables of `outer`. -/
def leave (outer env : Env V) : Env V := env.drop (env.length - outer.length)

end Env

/-- The type that a word of the language names. -/
def typeNamed? (name : String) : Option ValueType := (Glsl.plainTypeNames.find? (·.2 == name)).map Prod.fst

/-- The function that a word of the language names. -/
def builtinNamed? (name : String) : Option Builtin := Builtin.all.find? (Expr.functionName · == name)

def laneNamed? : String → Option Lane
  | "x" => some .x
  | "y" => some .y
  | "z" => some .z
  | "w" => some .w
  | _ => none

/-- A word before arguments in parentheses: a type makes a value of that type, and a function is called. -/
def applyNamed? (I : Interpretation V) (name : String) (values : List V) : Option V :=
  match typeNamed? name with
  | some type => some (I.convert type values)
  | none => (builtinNamed? name).map (I.call · values)

/-- The coordinate of the fragment. -/
def isFragment : Expr → Bool
  | .field (.name name) "xy" => name == Glsl.fragCoord
  | _ => false

/-- The extent of the computation as a vector. -/
def isExtent : Expr → Bool
  | .call "vec2" [.name name] => name == Glsl.dispatchSize
  | _ => false

mutual

/-- The value of an expression. The coordinates and the samplings are phrases of several words each. -/
def evalExpr (I : Interpretation V) (env : Env V) : Expr → Option V
  | .var target => env.lookup target.spelling
  | .name _ => none
  | .literal value => some (I.literal value)
  | .unary op operand => (evalExpr I env operand).map (I.unary op)
  | .binary op left right =>
    if op == .div && isFragment left && isExtent right then some (I.call .normalizedIndex [])
    else (evalExpr I env left).bind fun l => (evalExpr I env right).map fun r => I.binary op l r
  | .field (.call "texelFetch" arguments) "x" => evalFetch I env 1 arguments
  | .field (.call "texelFetch" arguments) "xy" => evalFetch I env 2 arguments
  | .field (.call "texelFetch" arguments) "xyz" => evalFetch I env 3 arguments
  | .field object lanes => (evalExpr I env object).bind fun v => (laneNamed? lanes).map (I.lane · v)
  | .call "texelFetch" arguments => evalFetch I env 4 arguments
  | .call name arguments =>
    if name == "ivec2" && arguments.length == 1 && arguments.all isFragment then some (I.call .index [])
    else (evalExprs I env arguments).bind (applyNamed? I name)

def evalExprs (I : Interpretation V) (env : Env V) : List Expr → Option (List V)
  | [] => some []
  | e :: es => (evalExpr I env e).bind fun value => (evalExprs I env es).map (value :: ·)

/-- The element of so many lanes that a texel begins with; the indices into a buffer of two dimensions come as one vector. -/
def evalFetch (I : Interpretation V) (env : Env V) (lanes : Nat) : List Expr → Option V
  | [buffer, .call "ivec2" [x, y]] => (evalExpr I env buffer).bind fun b =>
    (evalExpr I env x).bind fun x => (evalExpr I env y).map fun y => I.sample lanes b [x, y]
  | [buffer, index] => (evalExpr I env buffer).bind fun b =>
    (evalExpr I env index).map fun i => I.sample lanes b [i]
  | _ => none

end

/-- The coordinate has a value only within the phrases that name the position. -/
theorem evalExpr_eq_none_of_isFragment {I : Interpretation V} {env : Env V} {e : Expr} (h : isFragment e = true) :
    evalExpr I env e = none := by
  unfold isFragment at h
  split at h
  · simp [evalExpr]
  · cases h

/-- The statement continues a row of branches. -/
def continues : Stmt → Bool
  | .guarded .elseIf _ _ | .otherwise _ => true
  | _ => false

mutual

/-- Runs the statements of a shader. What a block declares is gone at its closing brace, and the variable of a loop that counts is
gone after the loop. -/
def runStmts (I : Interpretation V) : (bound : Nat) → List Stmt → Env V → Outcome (Env V)
  | 0, _, _ => .outOfSteps
  | _ + 1, [], env => .done env
  | bound + 1, stmt :: stmts, env =>
    match stmt with
    | .define _ target value => do
      let value ← .ofOption (evalExpr I env value)
      runStmts I bound stmts ((target.spelling, value) :: env)
    | .declare _ target => runStmts I bound stmts ((target.spelling, I.unset) :: env)
    | .assign target value => do
      let value ← .ofOption (evalExpr I env value)
      let env ← .ofOption (env.write target.spelling value)
      runStmts I bound stmts env
    | .assignLane target lane value => do
      let value ← .ofOption (evalExpr I env value)
      let vector ← .ofOption (env.lookup target.spelling)
      let env ← .ofOption (env.write target.spelling (I.setLane lane vector value))
      runStmts I bound stmts env
    | .guarded .while condition body => do
      let value ← .ofOption (evalExpr I env condition)
      if I.isTrue value then do
        let inner ← runStmts I bound body env
        runStmts I bound (stmt :: stmts) (env.leave inner)
      else runStmts I bound stmts env
    | .guarded _ condition body => do
      let value ← .ofOption (evalExpr I env condition)
      if I.isTrue value then do
        let inner ← runStmts I bound body env
        runStmts I bound (stmts.dropWhile continues) (env.leave inner)
      else runStmts I bound stmts env
    | .otherwise body | .block body => do
      let inner ← runStmts I bound body env
      runStmts I bound stmts (env.leave inner)
    | .count counter start stop body => do
      let first ← .ofOption (evalExpr I env start)
      let inner ← countStmts I bound counter.spelling stop body ((counter.spelling, first) :: env)
      runStmts I bound stmts (env.leave inner)

/-- Runs a loop that counts, with its variable declared. -/
def countStmts (I : Interpretation V) :
    (bound : Nat) → (counter : String) → (stop : Expr) → (body : List Stmt) → Env V → Outcome (Env V)
  | 0, _, _, _, _ => .outOfSteps
  | bound + 1, counter, stop, body, env => do
    let value ← .ofOption (env.lookup counter)
    let last ← .ofOption (evalExpr I env stop)
    if I.isTrue (I.binary .lt value last) then do
      let inner ← runStmts I bound body env
      let env ← .ofOption ((env.leave inner).countUp I counter)
      countStmts I bound counter stop body env
    else .done env

end

/-- The variables of a shader before it runs: its inputs and outputs. -/
def initialEnv (shader : Shader) (store : Store V) : Env V :=
  (shader.inputs ++ shader.outputs).map fun d => (d.ident, store d.symbol)

/-- Both runs end, with equal values in every output, or neither does within the bound. -/
inductive SameEnd (outputs : List Declaration) : Outcome (Store V) → Outcome (Env V) → Prop
  | outOfSteps : SameEnd outputs .outOfSteps .outOfSteps
  | done {store : Store V} {env : Env V} (h : ∀ d ∈ outputs, env.lookup d.ident = some (store d.symbol)) :
    SameEnd outputs (.done store) (.done env)

mutual

/-- A variable is declared without a value, in the statement or inside it. -/
def declaresUnset : Stmt → Bool
  | .declare _ _ => true
  | .block body | .guarded _ _ body | .otherwise body | .count _ _ _ body => anyDeclaresUnset body
  | .define _ _ _ | .assign _ _ | .assignLane _ _ _ => false

def anyDeclaresUnset : List Stmt → Bool
  | [] => false
  | stmt :: stmts => declaresUnset stmt || anyDeclaresUnset stmts

end

end ShaderTrace.Execution
