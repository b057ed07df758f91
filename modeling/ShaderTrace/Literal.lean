import ShaderTrace.Binary32
import ShaderTrace.ValueType

/-!
# Literals

A literal is a constant of one of the four scalar types. Its bytes are those of the value, lowest first, and together
with the type they give the literal back.
-/

namespace ShaderTrace

inductive Literal where
  | bool (value : Bool)
  | int (value : Int32)
  | uint (value : UInt32)
  | float (value : Binary32)
deriving DecidableEq

namespace Literal

def type : Literal → ValueType
  | bool _ => .bool
  | int _ => .int
  | uint _ => .uint
  | float _ => .float

/-- The literal as a dump shows it. -/
def text : Literal → String
  | bool true => "true"
  | bool false => "false"
  | int value => toString value.toInt
  | uint value => toString value.toNat ++ "u"
  | float value => value.text

instance : ToString Literal := ⟨text⟩

/-- The four bytes of a word, lowest first. -/
def wordBytes (word : UInt32) : List UInt8 :=
  [word.toUInt8, (word >>> 8).toUInt8, (word >>> 16).toUInt8, (word >>> 24).toUInt8]

/-- The word of four bytes, lowest first. -/
def wordOfBytes? : List UInt8 → Option UInt32
  | [b0, b1, b2, b3] => some (b0.toUInt32 ||| b1.toUInt32 <<< 8 ||| b2.toUInt32 <<< 16 ||| b3.toUInt32 <<< 24)
  | _ => none

/-- The bytes of a literal: one for a boolean, four for a number. -/
def bytes : Literal → List UInt8
  | bool value => [if value then 1 else 0]
  | int value => wordBytes value.toUInt32
  | uint value => wordBytes value
  | float value => wordBytes value.bits

/-- The literal of a scalar type with these bytes. -/
def ofBytes? (ty : ValueType) (bytes : List UInt8) : Option Literal :=
  if ty = .bool then
    match bytes with
    | [0] => some (bool false)
    | [1] => some (bool true)
    | _ => none
  else if ty = .int then (wordOfBytes? bytes).map fun word => int word.toInt32
  else if ty = .uint then (wordOfBytes? bytes).map uint
  else if ty = .float then (wordOfBytes? bytes).map fun word => float ⟨word⟩
  else none

end Literal

end ShaderTrace
