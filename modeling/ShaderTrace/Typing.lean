import ShaderTrace.Builtin
import ShaderTrace.Handle
import ShaderTrace.Operator

/-!
# Which types go together

The relations between the types of operands and the type of the result. What is not related here cannot be recorded.
-/

namespace ShaderTrace

namespace ValueType

/-- Kind and number of lanes of a scalar or vector type; void, buffers and words that are no types have no shape. -/
def shape? (type : ValueType) : Option (ScalarKind × Nat) :=
  if type.isValid && !type.isBuffer then type.scalarKind?.map (·, type.lanes) else none

/-- An int, uint or float scalar or vector. -/
def isNumeric (type : ValueType) : Bool :=
  type.shape?.any fun (kind, _) => kind != .bool

/-- A float scalar or vector. -/
def isFloating (type : ValueType) : Bool :=
  type.shape?.any fun (kind, _) => kind == .float

/-- An int or float scalar or vector. -/
def isSigned (type : ValueType) : Bool :=
  type.shape?.any fun (kind, _) => kind == .int || kind == .float

/-- An int or uint scalar. -/
def isIntegral (type : ValueType) : Bool := type == int || type == uint

/-- A type a variable can have: any type but void. -/
def isNameable (type : ValueType) : Bool := type.isValid && !type.isVoid

end ValueType

namespace Typing

open ValueType

/-- Sums, differences, products and quotients: numeric operands of one kind, and of the same number of lanes unless one
is a scalar. -/
def arith? (a b : ValueType) : Option ValueType :=
  match a.shape?, b.shape? with
  | some (kind, n), some (kind', m) =>
    if kind ≠ kind' ∨ kind = .bool then none
    else if m = n ∨ m = 1 then some a
    else if n = 1 then some b
    else none
  | _, _ => none

/-- An int vector and a float scalar, which the target language converts to a float vector. -/
def scaled? (vector scalar : ValueType) : Option ValueType :=
  match vector.shape? with
  | some (.int, n) => if 1 < n ∧ scalar = float then vector? .float n else none
  | _ => none

/-- Products: as `arith?`, and an int vector scaled by a float on either side. -/
def product? (a b : ValueType) : Option ValueType :=
  (arith? a b).or ((scaled? a b).or (scaled? b a))

/-- Quotients: as `arith?`, and an int vector divided by a float. -/
def quotient? (a b : ValueType) : Option ValueType :=
  (arith? a b).or (scaled? a b)

/-- Remainders: int or uint operands of one kind, the right one of as many lanes or a scalar. -/
def modulo? (a b : ValueType) : Option ValueType :=
  match a.shape?, b.shape? with
  | some (kind, n), some (kind', m) =>
    if kind = kind' ∧ (kind = .int ∨ kind = .uint) ∧ (m = n ∨ m = 1) then some a else none
  | _, _ => none

/-- Scalars of one type can be compared for equality. -/
def equality (a b : ValueType) : Bool := a == b && a.isScalar && a.isValid

/-- Numeric scalars of one type are ordered. -/
def ordered (a b : ValueType) : Bool := equality a b && a != bool

/-- Bits are combined between int or uint scalars of one type. -/
def bitwise (a b : ValueType) : Bool := a == b && a.isIntegral

/-- An int or uint scalar is shifted by an int or uint scalar. -/
def shift (a b : ValueType) : Bool := a.isIntegral && b.isIntegral

/-- A numeric type converts to one of another kind and as many lanes. -/
def castable (a b : ValueType) : Bool :=
  match a.shape?, b.shape? with
  | some (kind, n), some (kind', m) => n == m && kind != kind' && kind != .bool && kind' != .bool
  | _, _ => false

/-- The type of an applied unary operator. -/
def unary? (op : UnaryOp) (a : ValueType) : Option ValueType :=
  match op with
  | .neg => if a.isSigned then some a else none
  | .not => if a = bool then some bool else none
  | .bitNot => if a.isIntegral then some a else none

/-- The type of an applied binary operator. -/
def binary? (op : BinaryOp) (a b : ValueType) : Option ValueType :=
  match op with
  | .add | .sub => arith? a b
  | .mul => product? a b
  | .div => quotient? a b
  | .rem => modulo? a b
  | .eq | .ne => if equality a b then some bool else none
  | .gt | .ge | .lt | .le => if ordered a b then some bool else none
  | .and | .or => if a = bool ∧ b = bool then some bool else none
  | .bitAnd | .bitOr | .bitXor => if bitwise a b then some a else none
  | .shl | .shr => if shift a b then some a else none

/-- The type of a call of a built-in function. The two coordinates are no calls. -/
def call? (builtin : Builtin) (arguments : List ValueType) : Option ValueType :=
  match builtin, arguments with
  | .index, _ | .normalizedIndex, _ => none
  | .abs, [a] | .sign, [a] => if a.isSigned then some a else none
  | .isNan, [a] | .isInf, [a] => if a = float then some bool else none
  | .length, [a] => if a.isFloating then some float else none
  | _, [a] => if builtin.arity = 1 ∧ a.isFloating then some a else none
  | .pow, [a, b] => if a = b ∧ a.isFloating then some a else none
  | .min, [a, b] | .max, [a, b] => if a = b ∧ a.isNumeric then some a else none
  | .distance, [a, b] | .dot, [a, b] => if a = b ∧ a.isFloating then some float else none
  | .cross, [a, b] => if a = float3 ∧ b = float3 then some float3 else none
  | .clamp, [a, b, c] => if a = b ∧ a = c ∧ a.isNumeric then some a else none
  | _, _ => none

/-- The type of a vector put together from its lanes. -/
def construct? (type : ValueType) (arguments : List ValueType) : Option ValueType :=
  if type.isValid ∧ type.isVector ∧ arguments.length = type.lanes ∧
      arguments.all fun a => some a == type.lane? then
    some type
  else none

/-- The type of an element sampled from a buffer of the given sort with integer indices. -/
def sample? (isBuffer : ValueType → Bool) (count : Nat) (arguments : List ValueType) : Option ValueType :=
  match arguments with
  | buffer :: indices =>
    if buffer.isValid ∧ isBuffer buffer ∧ indices.length = count ∧ indices.all (· == int) then some buffer.base
    else none
  | [] => none

end Typing

/-- What an expression node applies to its operands. -/
inductive Operator where
  | unary (op : UnaryOp)
  | binary (op : BinaryOp)
  | call (builtin : Builtin)
  | cast (type : ValueType)
  | construct (type : ValueType)
  | index
  | normalizedIndex
  | sample1d
  | sample2d
deriving DecidableEq

namespace Operator

/-- The kind of a node that applies the operator. -/
def kind : Operator → NodeKind
  | unary op => op.kind
  | binary op => op.kind
  | call _ => .function
  | cast _ => .cast
  | construct _ => .constructor
  | index => .index
  | normalizedIndex => .normalizedIndex
  | sample1d => .sample1d
  | sample2d => .sample2d

/-- The type of the result on operands of the given types. -/
def result? (operator : Operator) (operands : List ValueType) : Option ValueType :=
  match operator, operands with
  | unary op, [a] => Typing.unary? op a
  | binary op, [a, b] => Typing.binary? op a b
  | call builtin, arguments => Typing.call? builtin arguments
  | cast type, [a] => if Typing.castable a type then some type else none
  | construct type, arguments => Typing.construct? type arguments
  | index, [] => some .int2
  | normalizedIndex, [] => some .float2
  | sample1d, arguments => Typing.sample? ValueType.isBuffer1d 1 arguments
  | sample2d, arguments => Typing.sample? ValueType.isBuffer2d 2 arguments
  | _, _ => none

/-- Buffers are read where they were declared: what is sampled is an input, and no copy of one. -/
def accepts : Operator → List Operand → Bool
  | sample1d, .handle (.input _) :: _ | sample2d, .handle (.input _) :: _ => true
  | sample1d, _ | sample2d, _ => false
  | _, _ => true

/-- The type of the result on the given operands. -/
def type? (operator : Operator) (operands : List Operand) : Option ValueType :=
  if operator.accepts operands then operator.result? (operands.map Operand.type) else none

end Operator

end ShaderTrace
