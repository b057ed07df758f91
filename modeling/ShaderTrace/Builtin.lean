/-!
# Built-in functions

A call of a built-in function is recorded under the function's number. The numbers are dense and follow the order of
`Builtin.all`.
-/

namespace ShaderTrace

inductive Builtin where
  | index
  | normalizedIndex
  | sin
  | cos
  | tan
  | asin
  | acos
  | atan
  | sinh
  | cosh
  | tanh
  | asinh
  | acosh
  | atanh
  | pow
  | exp
  | log
  | exp2
  | log2
  | sqrt
  | abs
  | sign
  | floor
  | ceiling
  | min
  | max
  | clamp
  | isNan
  | isInf
  | length
  | distance
  | dot
  | cross
  | normalize
deriving DecidableEq, Repr

namespace Builtin

/-- Every built-in function, at the place of its number. -/
def all : List Builtin :=
  [index, normalizedIndex, sin, cos, tan, asin, acos, atan, sinh, cosh, tanh, asinh, acosh, atanh, pow, exp, log, exp2,
    log2, sqrt, abs, sign, floor, ceiling, min, max, clamp, isNan, isInf, length, distance, dot, cross, normalize]

/-- The number a call of the function is recorded under: its place in `all`. -/
def id (builtin : Builtin) : Int32 := Int32.ofNat (all.idxOf builtin)

/-- The function with this number. -/
def ofId? (id : Int32) : Option Builtin :=
  if id < 0 then none else all[id.toInt.toNat]?

/-- The name of the function in a dump. -/
def name : Builtin → String
  | index => "index"
  | normalizedIndex => "normalized_index"
  | sin => "sin"
  | cos => "cos"
  | tan => "tan"
  | asin => "asin"
  | acos => "acos"
  | atan => "atan"
  | sinh => "sinh"
  | cosh => "cosh"
  | tanh => "tanh"
  | asinh => "asinh"
  | acosh => "acosh"
  | atanh => "atanh"
  | pow => "pow"
  | exp => "exp"
  | log => "log"
  | exp2 => "exp2"
  | log2 => "log2"
  | sqrt => "sqrt"
  | abs => "abs"
  | sign => "sign"
  | floor => "floor"
  | ceiling => "ceiling"
  | min => "min"
  | max => "max"
  | clamp => "clamp"
  | isNan => "is_nan"
  | isInf => "is_inf"
  | length => "length"
  | distance => "distance"
  | dot => "dot"
  | cross => "cross"
  | normalize => "normalize"

instance : ToString Builtin := ⟨name⟩

/-- The number of arguments, the number of the function itself not counted. -/
def arity : Builtin → Nat
  | index | normalizedIndex => 0
  | pow | min | max | distance | dot | cross => 2
  | clamp => 3
  | _ => 1

end Builtin

end ShaderTrace
