/-!
# Type tags

A traced value has a type tag: a 32-bit word in which each of the fourteen base types owns one bit and the two top bits
mark one- and two-dimensional buffers over a base type. Any word can be asked for its tag facts; the valid tags are a
base bit alone, or a buffer bit over one numeric base bit.
-/

namespace ShaderTrace

/-- What the lanes of a type hold. -/
inductive ScalarKind where
  | bool
  | int
  | uint
  | float
deriving DecidableEq, Repr

namespace ScalarKind

/-- The kind as it stands in the name of a type. -/
def name : ScalarKind → String
  | .bool => "bool"
  | .int => "int"
  | .uint => "uint"
  | .float => "float"

/-- The kind with the given name. -/
def ofName? (name : String) : Option ScalarKind :=
  [ScalarKind.bool, .int, .uint, .float].find? (·.name == name)

end ScalarKind

/-- The tag of a type; see `ValueType.isValid` for the words that are types. -/
structure ValueType where
  bits : UInt32
deriving DecidableEq, Repr

namespace ValueType

def void : ValueType := ⟨0x1⟩
def bool : ValueType := ⟨0x2⟩
def int : ValueType := ⟨0x4⟩
def uint : ValueType := ⟨0x8⟩
def float : ValueType := ⟨0x10⟩
def int2 : ValueType := ⟨0x20⟩
def uint2 : ValueType := ⟨0x40⟩
def float2 : ValueType := ⟨0x80⟩
def int3 : ValueType := ⟨0x100⟩
def uint3 : ValueType := ⟨0x200⟩
def float3 : ValueType := ⟨0x400⟩
def int4 : ValueType := ⟨0x800⟩
def uint4 : ValueType := ⟨0x1000⟩
def float4 : ValueType := ⟨0x2000⟩

/-- Every type that is no buffer, in bit order, with its name. -/
def baseTypes : List (ValueType × String) :=
  [(void, "void"), (bool, "bool"), (int, "int"), (uint, "uint"), (float, "float"),
    (int2, "int2"), (uint2, "uint2"), (float2, "float2"), (int3, "int3"), (uint3, "uint3"), (float3, "float3"),
    (int4, "int4"), (uint4, "uint4"), (float4, "float4")]

/-- The bits of the fourteen base types. -/
def baseMask : UInt32 := 0x3fff

/-- The bits of the types a buffer may hold: the int, uint and float scalars and vectors. -/
def elementMask : UInt32 := 0x3ffc

/-- The bit of a one-dimensional buffer. -/
def buffer1dBit : UInt32 := 0x40000000

/-- The bit of a two-dimensional buffer. -/
def buffer2dBit : UInt32 := 0x80000000

def bufferMask : UInt32 := buffer1dBit ||| buffer2dBit

/-- The bits that belong to int, uint and float types of any number of lanes. -/
def intMask : UInt32 := int.bits ||| int2.bits ||| int3.bits ||| int4.bits
def uintMask : UInt32 := uint.bits ||| uint2.bits ||| uint3.bits ||| uint4.bits
def floatMask : UInt32 := float.bits ||| float2.bits ||| float3.bits ||| float4.bits

/-- The bits that belong to types of one, two, three and four lanes. -/
def laneMask1 : UInt32 := bool.bits ||| int.bits ||| uint.bits ||| float.bits
def laneMask2 : UInt32 := int2.bits ||| uint2.bits ||| float2.bits
def laneMask3 : UInt32 := int3.bits ||| uint3.bits ||| float3.bits
def laneMask4 : UInt32 := int4.bits ||| uint4.bits ||| float4.bits

/-- Two words have a bit in common. -/
def meets (a b : UInt32) : Bool := a &&& b != 0

/-- Exactly one bit of the word is set: clearing the lowest set bit leaves nothing. -/
def holdsOneBit (word : UInt32) : Bool := word != 0 && word &&& (word - 1) == 0

/-- The element type of a buffer, any other type itself. -/
def base (ty : ValueType) : ValueType := ⟨ty.bits &&& baseMask⟩

/-- The one-dimensional buffer over the base of `element`. It is a type if that base is numeric. -/
def buffer1d (element : ValueType) : ValueType := ⟨element.bits &&& baseMask ||| buffer1dBit⟩

/-- The two-dimensional buffer over the base of `element`. -/
def buffer2d (element : ValueType) : ValueType := ⟨element.bits &&& baseMask ||| buffer2dBit⟩

/-- The word is a type: one base bit and no buffer bit, or one numeric base bit and one buffer bit, and no bit beside
them. -/
def isValid (ty : ValueType) : Bool :=
  let base := ty.bits &&& baseMask
  let buffer := ty.bits &&& bufferMask
  !meets ty.bits (~~~(baseMask ||| bufferMask)) && holdsOneBit base &&
    (buffer == 0 || (buffer == buffer1dBit || buffer == buffer2dBit) && meets base elementMask)

/-- The type with these bits. -/
def ofBits? (bits : UInt32) : Option ValueType :=
  if isValid ⟨bits⟩ then some ⟨bits⟩ else none

/-- The two tags have a bit in common. -/
def intersects (a b : ValueType) : Bool := meets a.bits b.bits

def isBuffer (ty : ValueType) : Bool := meets ty.bits bufferMask

def isBuffer1d (ty : ValueType) : Bool := meets ty.bits buffer1dBit

def isBuffer2d (ty : ValueType) : Bool := meets ty.bits buffer2dBit

def isVoid (ty : ValueType) : Bool := ty == void

/-- The number of lanes of the base type, none for void. -/
def lanes (ty : ValueType) : Nat :=
  if meets ty.base.bits laneMask1 then 1
  else if meets ty.base.bits laneMask2 then 2
  else if meets ty.base.bits laneMask3 then 3
  else if meets ty.base.bits laneMask4 then 4
  else 0

def isScalar (ty : ValueType) : Bool := !ty.isBuffer && ty.lanes == 1

def isVector (ty : ValueType) : Bool := !ty.isBuffer && 1 < ty.lanes

/-- What the lanes of the base type hold; void has no lanes. -/
def scalarKind? (ty : ValueType) : Option ScalarKind :=
  if ty.base = bool then some .bool
  else if meets ty.base.bits intMask then some .int
  else if meets ty.base.bits uintMask then some .uint
  else if meets ty.base.bits floatMask then some .float
  else none

/-- The type of `lanes` lanes of one kind; booleans have no vectors. -/
def vector? : ScalarKind → (lanes : Nat) → Option ValueType
  | .bool, 1 => some bool
  | .int, 1 => some int
  | .int, 2 => some int2
  | .int, 3 => some int3
  | .int, 4 => some int4
  | .uint, 1 => some uint
  | .uint, 2 => some uint2
  | .uint, 3 => some uint3
  | .uint, 4 => some uint4
  | .float, 1 => some float
  | .float, 2 => some float2
  | .float, 3 => some float3
  | .float, 4 => some float4
  | _, _ => none

/-- The type of one lane. -/
def lane? (ty : ValueType) : Option ValueType :=
  ty.scalarKind?.bind fun kind => vector? kind 1

/-- The name of the base type. -/
def baseName (ty : ValueType) : String :=
  (baseTypes.lookup ty.base).getD "invalid"

/-- A word in hexadecimal digits. -/
def hex (word : UInt32) : String := String.ofList (Nat.toDigits 16 word.toNat)

/-- The written form of a tag: its name, or the word itself if it is no type. -/
def text (ty : ValueType) : String :=
  if !ty.isValid then "invalid(0x" ++ hex ty.bits ++ ")"
  else if ty.isBuffer1d then "buffer1d<" ++ ty.baseName ++ ">"
  else if ty.isBuffer2d then "buffer2d<" ++ ty.baseName ++ ">"
  else ty.baseName

instance : ToString ValueType := ⟨text⟩

/-- The types a kernel can give a name to: every type but void. -/
def nameable : List ValueType :=
  let base := (baseTypes.map Prod.fst).filter (· != void)
  let elements := base.filter (· != bool)
  base ++ elements.map buffer1d ++ elements.map buffer2d

/-- The type that a kernel writes under this name. -/
def nameable? (name : String) : Option ValueType :=
  nameable.find? (·.text == name)

/-- Reads a tag off the characters of a base name under at most `depth` buffer marks. -/
def readWithin : (depth : Nat) → List Char → Option ValueType
  | depth, cs =>
    match baseTypes.find? (·.2.toList == cs) with
    | some (ty, _) => some ty
    | none =>
      match depth with
      | 0 => none
      | depth + 1 =>
        let inner := (cs.drop 9).dropLast
        if cs.getLast? != some '>' then none
        else if cs.take 9 == "buffer1d<".toList then (readWithin depth inner).map buffer1d
        else if cs.take 9 == "buffer2d<".toList then (readWithin depth inner).map buffer2d
        else none

/-- Reads a base name, or buffer marks around one. Of several marks around each other the outermost counts, and the
result need not be a type. -/
def read? (name : String) : Option ValueType :=
  readWithin name.length name.toList

end ValueType

end ShaderTrace
