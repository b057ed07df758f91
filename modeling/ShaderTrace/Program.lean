import ShaderTrace.ValueType

/-!
# Programs

A compiled kernel: the text of its shader, and the manifest that tells a host how to bind it.
-/

namespace ShaderTrace

/-- An input, bound as a uniform. The slot is its place among the inputs; a buffer is bound to the texture unit of that
number. -/
structure InputBinding where
  name : String
  ident : String
  type : ValueType
  slot : Nat
deriving DecidableEq

/-- An output, bound as the render target of the given location. -/
structure OutputBinding where
  name : String
  ident : String
  type : ValueType
  location : Nat
deriving DecidableEq

structure Program where
  source : String
  inputs : List InputBinding
  outputs : List OutputBinding
deriving DecidableEq

namespace Program

/-- The input that was declared under this name. -/
def input? (program : Program) (name : String) : Option InputBinding :=
  program.inputs.find? (·.name == name)

/-- The output that was declared under this name. -/
def output? (program : Program) (name : String) : Option OutputBinding :=
  program.outputs.find? (·.name == name)

end Program

end ShaderTrace
