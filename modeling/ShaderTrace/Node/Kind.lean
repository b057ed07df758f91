/-!
# Node kinds

The closed set of kinds a node of a recorded kernel can have, with the number of children each kind admits.
-/

namespace ShaderTrace

inductive NodeKind where
  -- structure
  | program
  | constData
  | outData
  | main
  | block
  | ifBranch
  | elseIfBranch
  | elseBranch
  | whileLoop
  | forRange
  -- declarations and references
  | outVar
  | constVar
  | var
  | literal
  -- statements
  | assignment
  -- comparisons
  | equal
  | notEqual
  | greater
  | greaterEqual
  | less
  | lessEqual
  -- logic
  | logicalAnd
  | logicalOr
  | logicalNot
  -- bits
  | bitwiseAnd
  | bitwiseOr
  | bitwiseXor
  | bitwiseNot
  | shiftLeft
  | shiftRight
  -- arithmetic
  | negate
  | add
  | subtract
  | multiply
  | divide
  | modulo
  -- calls and access
  | constructor
  | cast
  | function
  | sample1d
  | sample2d
  | member
  | index
  | normalizedIndex
deriving DecidableEq, Repr

/-- How many children a node may have; without `max`, any number from `min` on. -/
structure Arity where
  min : Nat
  max : Option Nat
deriving DecidableEq, Repr

namespace Arity

def exactly (n : Nat) : Arity := ⟨n, some n⟩

def atLeast (n : Nat) : Arity := ⟨n, none⟩

def admits (arity : Arity) (count : Nat) : Bool :=
  arity.min ≤ count && arity.max.all (count ≤ ·)

end Arity

namespace NodeKind

/-- The name of the kind in dumps and messages. -/
def name : NodeKind → String
  | program => "Program"
  | constData => "ConstData"
  | outData => "OutData"
  | main => "Main"
  | block => "Block"
  | ifBranch => "If"
  | elseIfBranch => "ElseIf"
  | elseBranch => "Else"
  | whileLoop => "While"
  | forRange => "ForRange"
  | outVar => "OutVar"
  | constVar => "ConstVar"
  | var => "Var"
  | literal => "Literal"
  | assignment => "Assignment"
  | equal => "Equal"
  | notEqual => "NotEqual"
  | greater => "Greater"
  | greaterEqual => "GreaterEqual"
  | less => "Less"
  | lessEqual => "LessEqual"
  | logicalAnd => "LogicalAnd"
  | logicalOr => "LogicalOr"
  | logicalNot => "LogicalNot"
  | bitwiseAnd => "BitwiseAnd"
  | bitwiseOr => "BitwiseOr"
  | bitwiseXor => "BitwiseXor"
  | bitwiseNot => "BitwiseNot"
  | shiftLeft => "ShiftLeft"
  | shiftRight => "ShiftRight"
  | negate => "Negate"
  | add => "Add"
  | subtract => "Subtract"
  | multiply => "Multiply"
  | divide => "Divide"
  | modulo => "Modulo"
  | constructor => "Constructor"
  | cast => "Cast"
  | function => "Function"
  | sample1d => "Sample1D"
  | sample2d => "Sample2D"
  | member => "Member"
  | index => "Index"
  | normalizedIndex => "NormalizedIndex"

instance : ToString NodeKind := ⟨name⟩

def all : List NodeKind :=
  [program, constData, outData, main, block, ifBranch, elseIfBranch, elseBranch, whileLoop, forRange, outVar, constVar,
    var, literal, assignment, equal, notEqual, greater, greaterEqual, less, lessEqual, logicalAnd, logicalOr, logicalNot,
    bitwiseAnd, bitwiseOr, bitwiseXor, bitwiseNot, shiftLeft, shiftRight, negate, add, subtract, multiply, divide,
    modulo, constructor, cast, function, sample1d, sample2d, member, index, normalizedIndex]

/-- The kind with the given name. -/
def ofName? (name : String) : Option NodeKind := all.find? (·.name == name)

def arity : NodeKind → Arity
  | program | constData | outData | main | block | elseBranch => .atLeast 0
  | ifBranch | elseIfBranch | whileLoop => .atLeast 1
  | forRange => .atLeast 2
  | outVar | constVar | var | literal | member | index | normalizedIndex => .exactly 0
  | logicalNot | bitwiseNot | negate | cast => .exactly 1
  | assignment | equal | notEqual | greater | greaterEqual | less | lessEqual | logicalAnd | logicalOr | bitwiseAnd
  | bitwiseOr | bitwiseXor | shiftLeft | shiftRight | add | subtract | multiply | divide | modulo | sample1d =>
    .exactly 2
  | sample2d => .exactly 3
  | constructor | function => ⟨1, some 4⟩

/-- The kinds that hold a list of nodes and take further ones after they have been attached. -/
def isBlock : NodeKind → Bool
  | program | constData | outData | main | block | ifBranch | elseIfBranch | elseBranch | whileLoop | forRange => true
  | _ => false

/-- The kinds that stand directly under a program. -/
def isSection : NodeKind → Bool
  | constData | outData | main => true
  | _ => false

/-- The blocks whose children are statements. -/
def acceptsStatements : NodeKind → Bool
  | program | constData | outData => false
  | kind => kind.isBlock

/-- The kinds that an `else` branch may follow. -/
def isConditional : NodeKind → Bool
  | ifBranch | elseIfBranch => true
  | _ => false

/-- How many children at the front are a header and no statements: a condition, or the bounds of a loop. -/
def headerLength : NodeKind → Nat
  | ifBranch | elseIfBranch | whileLoop => 1
  | forRange => 2
  | _ => 0

end NodeKind

end ShaderTrace
