import ShaderTrace.Builtin
import ShaderTrace.Glsl.Naming
import ShaderTrace.Operator

/-!
# Expressions of the target language

An expression is first a term and then a text. Every application of an operator is put in parentheses, so that its text
says how it is grouped.
-/

namespace ShaderTrace.Glsl

/-- A variable of a shader: the symbol it stands for, and its spelling. -/
structure Variable where
  symbol : SymbolId
  spelling : String
deriving DecidableEq

inductive Expr where
  | var (target : Variable)
  /-- A name of the language or of the generator. -/
  | name (spelling : String)
  | literal (value : Literal)
  | field (object : Expr) (lanes : String)
  | unary (op : UnaryOp) (operand : Expr)
  | binary (op : BinaryOp) (left right : Expr)
  | call (function : String) (arguments : List Expr)

/-- A literal as a constant expression. The least integer and the numbers that are not finite have no literal of their
own in the language. -/
def literalText : Literal → String
  | .int value => if value = Int32.minValue then "(-2147483647 - 1)" else toString value.toInt
  | .float value =>
    if value.isNaN then "(0.0 / 0.0)"
    else if value.isInfinite then (if value.isNegative then "(-1.0 / 0.0)" else "(1.0 / 0.0)")
    else value.text
  | value => value.text

namespace Expr

mutual

def text : Expr → String
  | var target => target.spelling
  | name spelling => spelling
  | literal value => literalText value
  | field object lanes => object.text ++ "." ++ lanes
  | unary op operand => op.sign ++ "(" ++ operand.text ++ ")"
  | binary op left right => "(" ++ left.text ++ " " ++ op.sign ++ " " ++ right.text ++ ")"
  | call function arguments => function ++ "(" ++ textAll arguments ++ ")"

/-- Expressions with commas between them. -/
def textAll : List Expr → String
  | [] => ""
  | [e] => e.text
  | e :: es => e.text ++ ", " ++ textAll es

end

/-- The integer coordinate of the fragment. -/
def index : Expr := call "ivec2" [field (name fragCoord) "xy"]

/-- The coordinate of the fragment divided by the extent of the computation. -/
def normalizedIndex : Expr := binary .div (field (name fragCoord) "xy") (call "vec2" [name dispatchSize])

/-- The spelling of a built-in function that is called with arguments. -/
def functionName : Builtin → String
  | .ceiling => "ceil"
  | .isNan => "isnan"
  | .isInf => "isinf"
  | builtin => builtin.name

/-- A call of a built-in function. The two coordinates are no functions in the language. -/
def builtin : Builtin → List Expr → Expr
  | .index, _ => index
  | .normalizedIndex, _ => normalizedIndex
  | function, arguments => call (functionName function) arguments

/-- The lanes that an element of a type takes from a fetched texel. -/
def texel (type : ValueType) (fetched : Expr) : Expr :=
  match texelLanes? type.lanes with
  | some lanes => field fetched lanes
  | none => fetched

end Expr

end ShaderTrace.Glsl
