import ShaderTrace.Node.Kind

/-!
# Unary and binary operators

The operators of kernels and of the target language are the same; each has one kind of node and one sign.
-/

namespace ShaderTrace

inductive UnaryOp where
  | neg
  | not
  | bitNot
deriving DecidableEq, Repr

inductive BinaryOp where
  | eq
  | ne
  | gt
  | ge
  | lt
  | le
  | and
  | or
  | bitAnd
  | bitOr
  | bitXor
  | shl
  | shr
  | add
  | sub
  | mul
  | div
  | rem
deriving DecidableEq, Repr

namespace UnaryOp

def all : List UnaryOp := [neg, not, bitNot]

/-- The kind of a node that applies the operator. -/
def kind : UnaryOp → NodeKind
  | neg => .negate
  | not => .logicalNot
  | bitNot => .bitwiseNot

def sign : UnaryOp → String
  | neg => "-"
  | not => "!"
  | bitNot => "~"

/-- The operator that a node of this kind applies. -/
def ofKind? (kind : NodeKind) : Option UnaryOp := all.find? (·.kind == kind)

end UnaryOp

namespace BinaryOp

def all : List BinaryOp :=
  [eq, ne, gt, ge, lt, le, and, or, bitAnd, bitOr, bitXor, shl, shr, add, sub, mul, div, rem]

/-- The kind of a node that applies the operator. -/
def kind : BinaryOp → NodeKind
  | eq => .equal
  | ne => .notEqual
  | gt => .greater
  | ge => .greaterEqual
  | lt => .less
  | le => .lessEqual
  | and => .logicalAnd
  | or => .logicalOr
  | bitAnd => .bitwiseAnd
  | bitOr => .bitwiseOr
  | bitXor => .bitwiseXor
  | shl => .shiftLeft
  | shr => .shiftRight
  | add => .add
  | sub => .subtract
  | mul => .multiply
  | div => .divide
  | rem => .modulo

def sign : BinaryOp → String
  | eq => "=="
  | ne => "!="
  | gt => ">"
  | ge => ">="
  | lt => "<"
  | le => "<="
  | and => "&&"
  | or => "||"
  | bitAnd => "&"
  | bitOr => "|"
  | bitXor => "^"
  | shl => "<<"
  | shr => ">>"
  | add => "+"
  | sub => "-"
  | mul => "*"
  | div => "/"
  | rem => "%"

/-- The operator that a node of this kind applies. -/
def ofKind? (kind : NodeKind) : Option BinaryOp := all.find? (·.kind == kind)

end BinaryOp

end ShaderTrace
