import ShaderTrace.Compile

/-!
# Bundled kernels

Small kernels that show how a kernel is recorded. One of them takes a number of elements.
-/

namespace ShaderTrace

structure Kernel where
  name : String
  description : String
  /-- Records the kernel for so many elements. -/
  build : (width : Int32) → Recorder Unit

namespace Kernel

open Recorder

/-- A constant of the host. -/
def float (bits : UInt32) : Operand := .literal (.float ⟨bits⟩)

def zero : Operand := float 0x00000000
def one : Operand := float 0x3f800000
def two : Operand := float 0x40000000

/-- The number nearest to `0.000001`. -/
def almostZero : Operand := float 0x358637bd

/-- The number nearest to `0.999999`. -/
def almostOne : Operand := float 0x3f7fffef

def uint (value : UInt32) : Operand := .literal (.uint value)

def int (value : Int32) : Operand := .literal (.int value)

def floatGrid : ValueType := .buffer2d .float

def addConstant (_ : Int32) : Recorder Unit := do
  let a ← constData (input .float "a")
  let out ← outData (output .float "out")
  mainBody do
    let sum ← binary .add a two
    discard (assign out sum)

def sumRange (width : Int32) : Recorder Unit := do
  let values ← constData (input (.buffer1d .float) "values")
  let total ← outData (output .float "total")
  mainBody do
    let acc ← var zero
    forRange "i" (int 0) (int width) fun i => do
      let value ← sample1d values i
      discard (update .add acc value)
    discard (assign total acc)

def errorInputs : Recorder (Input × Input) :=
  constData do
    let actual ← input floatGrid "actual"
    let expected ← input floatGrid "expected"
    return (actual, expected)

/-- Both grids at the element that is computed. -/
def samplePair (actual expected : Input) : Recorder (Value × Value) := do
  let index ← var (← index)
  let (x, index) ← component index .x
  let (y, _) ← component index .y
  let a ← sample2d actual x y
  let e ← sample2d expected x y
  return (a, e)

def squareError (_ : Int32) : Recorder Unit := do
  let (actual, expected) ← errorInputs
  let error ← outData (output .float "error")
  mainBody do
    let (a, e) ← samplePair actual expected
    let difference ← var (← binary .sub a e)
    let square ← binary .mul difference difference
    discard (assign error square)

def crossEntropy (_ : Int32) : Recorder Unit := do
  let (actual, expected) ← errorInputs
  let error ← outData (output .float "error")
  mainBody do
    let (a, e) ← samplePair actual expected
    -- both logarithms stay finite
    let p ← var (← call .clamp [a, almostZero, almostOne])
    let e ← var e
    let logP ← call .log [p]
    let hit ← binary .mul e logP
    let q ← binary .sub one p
    let logQ ← call .log [q]
    let missWeight ← binary .sub one e
    let miss ← binary .mul missWeight logQ
    let sum ← binary .add hit miss
    let loss ← unary .neg sum
    discard (assign error loss)

def sigmoid (_ : Int32) : Recorder Unit := do
  let x ← constData (input floatGrid "x")
  let y ← outData (output .float "y")
  mainBody do
    let z ← sampleAt x (← index)
    let negative ← unary .neg z
    let e ← call .exp [negative]
    let denominator ← binary .add one e
    let value ← binary .div one denominator
    discard (assign y value)

def xorshift (_ : Int32) : Recorder Unit := do
  let state ← constData (input (.buffer2d .uint4) "state")
  let next ← outData (output .uint4 "next")
  mainBody do
    let seed ← var (← sampleAt state (← index))
    let (x, seed) ← component seed .x
    let (y, seed) ← component seed .y
    let (z, seed) ← component seed .z
    let (w, seed) ← component seed .w
    let shifted ← binary .shl x (uint 11)
    let t ← var (← binary .bitXor x shifted)
    discard (assign x y)
    discard (assign y z)
    discard (assign z w)
    let wShift ← binary .shr w (uint 19)
    let wMix ← binary .bitXor w wShift
    let tShift ← binary .shr t (uint 8)
    let tMix ← binary .bitXor t tShift
    let mixed ← binary .bitXor wMix tMix
    discard (assign w mixed)
    discard (assign next seed)

def uv (_ : Int32) : Recorder Unit := do
  let color ← outData (output .float4 "color")
  mainBody do
    let uv ← var (← normalizedIndex)
    let (u, uv) ← component uv .x
    let (v, _) ← component uv .y
    let rgba ← construct .float4 [u, v, zero, one]
    discard (assign color rgba)

def bundled : List Kernel :=
  [⟨"add-constant", "out = a + 2.0 over a float input", addConstant⟩,
    ⟨"sum-range", "sum the first --width elements of a 1-D buffer", sumRange⟩,
    ⟨"square-error", "squared difference of two 2-D float buffers", squareError⟩,
    ⟨"cross-entropy", "binary cross-entropy of two 2-D float buffers", crossEntropy⟩,
    ⟨"sigmoid", "logistic activation over a 2-D float buffer", sigmoid⟩,
    ⟨"xorshift", "xorshift128 step over a uint4 seed buffer", xorshift⟩,
    ⟨"uv", "normalized fragment coordinate as a color", uv⟩]

def find? (name : String) : Option Kernel := bundled.find? (·.name == name)

end Kernel

end ShaderTrace
