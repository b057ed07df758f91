import ShaderTrace.Literal
import Mathlib.Data.Nat.Digits.Defs

/-!
# The bytes of literals

The bytes of a literal are as many as its type has, and they write one number to the base 256, lowest byte first
(`Literal.bytesValue_bytes`). A row of bytes is determined by its length and that number, so reading and writing a word undo each
other (`Literal.wordOfBytes?_eq_some_iff`), and a row of bytes is read as a literal exactly if it is the bytes of that literal
(`Literal.bytes_round_trip`).
-/

namespace ShaderTrace.Literal

/-! ## Numbers in bytes -/

/-- The number that a row of bytes writes to the base 256, lowest byte first. -/
def bytesValue (bytes : List UInt8) : Nat := Nat.ofDigits 256 (bytes.map UInt8.toNat)

@[simp] theorem bytesValue_nil : bytesValue [] = 0 := rfl

/-- The first byte is the lowest digit. -/
@[simp] theorem bytesValue_cons (byte : UInt8) (bytes : List UInt8) :
    bytesValue (byte :: bytes) = byte.toNat + 256 * bytesValue bytes := by
  simp [bytesValue, Nat.ofDigits_cons]

/-- Rows of bytes of the same length that write the same number are equal. -/
theorem eq_of_bytesValue_eq {bytes bytes' : List UInt8} (hlength : bytes.length = bytes'.length)
    (h : bytesValue bytes = bytesValue bytes') : bytes = bytes' := by
  have hlt : ∀ (row : List UInt8), ∀ digit ∈ row.map UInt8.toNat, digit < 256 := by
    intro row digit hdigit
    obtain ⟨byte, -, rfl⟩ := List.mem_map.1 hdigit
    exact byte.toNat_lt
  have hdigits : bytes.map UInt8.toNat = bytes'.map UInt8.toNat :=
    Nat.ofDigits_inj_of_len_eq (by decide) (by simpa using hlength) (hlt bytes) (hlt bytes') h
  exact (List.map_inj_right fun _ _ => UInt8.toNat_inj.1).1 hdigits

/-! ## Words -/

theorem length_wordBytes (word : UInt32) : (wordBytes word).length = 4 := rfl

/-- The bytes of a word write the word. -/
theorem bytesValue_wordBytes (word : UInt32) : bytesValue (wordBytes word) = word.toNat := by
  have hword := word.toNat_lt
  simp only [wordBytes, bytesValue_cons, bytesValue_nil, UInt32.toNat_toUInt8, UInt32.toNat_shiftRight, UInt32.reduceToNat,
    Nat.reduceMod, Nat.shiftRight_eq_div_pow, Nat.reducePow] at hword ⊢
  omega

/-- A byte that is put above the bits of a word is added to it, and up to the highest byte no bit of it is lost. -/
theorem toNat_or_shiftLeft {word shift : UInt32} (i : Nat) (hshift : shift.toNat = i) (hi : i ≤ 24) (h : word.toNat < 2 ^ i)
    (byte : UInt8) : (word ||| byte.toUInt32 <<< shift).toNat = word.toNat + byte.toNat * 2 ^ i := by
  have hfits : byte.toNat * 2 ^ i < 2 ^ 32 := calc
    byte.toNat * 2 ^ i < 2 ^ 8 * 2 ^ i := Nat.mul_lt_mul_of_pos_right byte.toNat_lt (Nat.two_pow_pos i)
    _ ≤ 2 ^ 8 * 2 ^ 24 := Nat.mul_le_mul_left _ (Nat.pow_le_pow_right (by decide) hi)
  have hshifted : (byte.toUInt32 <<< shift).toNat = byte.toNat <<< i := by
    rw [UInt32.toNat_shiftLeft, UInt8.toNat_toUInt32, hshift, Nat.mod_eq_of_lt (by omega : i < 32), Nat.shiftLeft_eq,
      Nat.mod_eq_of_lt hfits]
  rw [UInt32.toNat_or, hshifted, Nat.or_comm, ← Nat.shiftLeft_add_eq_or_of_lt h, Nat.shiftLeft_eq, Nat.add_comm]

/-- A word is read from four bytes, and is the number that they write. -/
theorem toNat_of_wordOfBytes? {bytes : List UInt8} {word : UInt32} (h : wordOfBytes? bytes = some word) :
    bytes.length = 4 ∧ word.toNat = bytesValue bytes := by
  unfold wordOfBytes? at h
  split at h
  · rename_i b0 b1 b2 b3
    obtain rfl := Option.some.inj h
    have h0 : b0.toUInt32.toNat < 2 ^ 8 := by rw [UInt8.toNat_toUInt32]; exact b0.toNat_lt
    have h1 := b1.toNat_lt
    have h2 := b2.toNat_lt
    -- the bytes are put above each other one at a time, each where the word so far ends
    have hone : (b0.toUInt32 ||| b1.toUInt32 <<< 8).toNat = b0.toUInt32.toNat + b1.toNat * 2 ^ 8 :=
      toNat_or_shiftLeft 8 rfl (by decide) h0 b1
    have htwo : (b0.toUInt32 ||| b1.toUInt32 <<< 8 ||| b2.toUInt32 <<< 16).toNat =
        (b0.toUInt32 ||| b1.toUInt32 <<< 8).toNat + b2.toNat * 2 ^ 16 :=
      toNat_or_shiftLeft 16 rfl (by decide) (by omega) b2
    have hthree : (b0.toUInt32 ||| b1.toUInt32 <<< 8 ||| b2.toUInt32 <<< 16 ||| b3.toUInt32 <<< 24).toNat =
        (b0.toUInt32 ||| b1.toUInt32 <<< 8 ||| b2.toUInt32 <<< 16).toNat + b3.toNat * 2 ^ 24 :=
      toNat_or_shiftLeft 24 rfl (by decide) (by omega) b3
    refine ⟨rfl, ?_⟩
    rw [hthree, htwo, hone, UInt8.toNat_toUInt32]
    simp only [bytesValue_cons, bytesValue_nil]
    omega
  · cases h

/-- Any four bytes are read as a word. -/
theorem exists_wordOfBytes? {bytes : List UInt8} (h : bytes.length = 4) : ∃ word, wordOfBytes? bytes = some word := by
  unfold wordOfBytes?
  split
  · exact ⟨_, rfl⟩
  · rename_i hne
    rcases bytes with _ | ⟨b0, _ | ⟨b1, _ | ⟨b2, _ | ⟨b3, _ | ⟨b4, rest⟩⟩⟩⟩⟩
    all_goals simp at h
    exact absurd rfl (hne b0 b1 b2 b3)

/-- Four bytes are read as the word whose bytes they are. -/
theorem wordOfBytes?_eq_some_iff {bytes : List UInt8} {word : UInt32} :
    wordOfBytes? bytes = some word ↔ wordBytes word = bytes := by
  constructor
  · intro h
    obtain ⟨hlength, hvalue⟩ := toNat_of_wordOfBytes? h
    exact eq_of_bytesValue_eq hlength.symm ((bytesValue_wordBytes word).trans hvalue)
  · rintro rfl
    obtain ⟨word', h⟩ := exists_wordOfBytes? (length_wordBytes word)
    have hvalue := (toNat_of_wordOfBytes? h).2
    rw [bytesValue_wordBytes] at hvalue
    rw [h, UInt32.toNat_inj.1 hvalue]

/-- Only rows of another length are not read as a word. -/
theorem wordOfBytes?_eq_none_iff {bytes : List UInt8} : wordOfBytes? bytes = none ↔ bytes.length ≠ 4 := by
  constructor
  · intro h hlength
    obtain ⟨word, hword⟩ := exists_wordOfBytes? hlength
    cases h.symm.trans hword
  · intro hlength
    cases h : wordOfBytes? bytes with
    | none => rfl
    | some word => exact absurd (toNat_of_wordOfBytes? h).1 hlength

/-! ## Literals -/

/-- How many bytes a value of a scalar type has. -/
def width (type : ValueType) : Nat := if type = .bool then 1 else 4

/-- The number that stands for a literal: a negative integer is counted from `2 ^ 32` downwards, and a floating-point number is
its bit pattern. -/
def code : Literal → Nat
  | bool value => value.toNat
  | int value => (value.toInt % 2 ^ 32).toNat
  | uint value => value.toNat
  | float value => value.bits.toNat

/-- A literal has as many bytes as its type. -/
theorem length_bytes (literal : Literal) : literal.bytes.length = width literal.type := by
  cases literal <;> rfl

/-- The bits of a signed number are its remainder modulo `2 ^ 32`. -/
theorem toNat_toUInt32_eq (value : Int32) : value.toUInt32.toNat = (value.toInt % 2 ^ 32).toNat := by
  have hmod : value.toInt % 2 ^ 32 = value.toUInt32.toNat := calc
    value.toInt % 2 ^ 32 = (value.toUInt32.toNat : Int).bmod (2 ^ 32) % (2 ^ 32 : Nat) := by
      rw [Int32.toInt, BitVec.toInt_eq_toNat_bmod]
      rfl
    _ = (value.toUInt32.toNat : Int) % (2 ^ 32 : Nat) := Int.bmod_emod
    _ = value.toUInt32.toNat := by rw [← Int.natCast_emod, Nat.mod_eq_of_lt value.toUInt32.toNat_lt]
  rw [hmod, Int.toNat_natCast]

/-- Lowest byte first, the bytes of a literal write the number that stands for it. -/
theorem bytesValue_bytes (literal : Literal) : bytesValue literal.bytes = literal.code := by
  cases literal with
  | bool value => cases value <;> rfl
  | int value => rw [bytes, bytesValue_wordBytes, code, toNat_toUInt32_eq]
  | uint value => exact bytesValue_wordBytes value
  | float value => exact bytesValue_wordBytes value.bits

section Reading
variable {type : ValueType} {bytes : List UInt8} {literal : Literal}

/-- What is read has the type that was asked for, and the bytes that were given. -/
theorem eq_of_ofBytes? (h : ofBytes? type bytes = some literal) : literal.type = type ∧ literal.bytes = bytes := by
  unfold ofBytes? at h
  split_ifs at h with hbool hint huint hfloat
  · split at h
    · obtain rfl := Option.some.inj h
      exact ⟨hbool.symm, rfl⟩
    · obtain rfl := Option.some.inj h
      exact ⟨hbool.symm, rfl⟩
    · cases h
  all_goals obtain ⟨word, hword, rfl⟩ := Option.map_eq_some_iff.1 h
  · exact ⟨hint.symm, wordOfBytes?_eq_some_iff.1 hword⟩
  · exact ⟨huint.symm, wordOfBytes?_eq_some_iff.1 hword⟩
  · exact ⟨hfloat.symm, wordOfBytes?_eq_some_iff.1 hword⟩

/-- The bytes of a literal are read as that literal. -/
theorem ofBytes?_bytes (literal : Literal) : ofBytes? literal.type literal.bytes = some literal := by
  have hread : ∀ word, wordOfBytes? (wordBytes word) = some word := fun word => wordOfBytes?_eq_some_iff.2 rfl
  cases literal with
  | bool value => cases value <;> rfl
  | int value => exact congrArg (Option.map fun word => int word.toInt32) (hread value.toUInt32)
  | uint value => exact congrArg (Option.map uint) (hread value)
  | float value => exact congrArg (Option.map fun word => float ⟨word⟩) (hread value.bits)

/-- A truth value is read from one byte, which is zero or one. -/
theorem ofBytes?_bool_eq_none_iff : ofBytes? .bool bytes = none ↔ bytes ≠ [0] ∧ bytes ≠ [1] := by
  constructor
  · intro h
    constructor
    all_goals
      rintro rfl
      cases h
  · rintro ⟨hzero, hone⟩
    unfold ofBytes?
    rw [if_pos rfl]
    split
    · exact absurd rfl hzero
    · exact absurd rfl hone
    · rfl

/-- What is not read: bytes for a type that has no literals, bytes of another number than the type has, and a byte that is no
boolean. -/
theorem ofBytes?_eq_none_iff : ofBytes? type bytes = none ↔
    type ∉ [.bool, .int, .uint, .float] ∨ bytes.length ≠ width type ∨ type = .bool ∧ bytes ≠ [0] ∧ bytes ≠ [1] := by
  by_cases hbool : type = .bool
  · subst hbool
    rw [ofBytes?_bool_eq_none_iff]
    constructor
    · exact fun h => .inr (.inr ⟨rfl, h⟩)
    · rintro (h | h | ⟨-, h⟩)
      · exact absurd List.mem_cons_self h
      · constructor
        all_goals
          rintro rfl
          exact h rfl
      · exact h
  · have hwidth : width type = 4 := if_neg hbool
    unfold ofBytes?
    rw [if_neg hbool]
    simp only [hwidth, hbool, false_and, or_false, List.mem_cons, List.not_mem_nil, false_or]
    split_ifs with hint huint hfloat
    all_goals simp [*, wordOfBytes?_eq_none_iff]

end Reading

/-- The bytes of a literal are as many as its type has, and they write the number that stands for it, lowest byte first. Bytes
are read for a type as a literal exactly if it is a literal of that type and these are its bytes. Nothing is read for a type other
than the four scalar types, off a row of another length than the type has, or off a byte that is no boolean, and everything else
is read. -/
theorem bytes_round_trip (literal : Literal) (type : ValueType) (bytes : List UInt8) :
    (literal.bytes.length = width literal.type ∧ bytesValue literal.bytes = literal.code) ∧
    (ofBytes? type bytes = some literal ↔ literal.type = type ∧ literal.bytes = bytes) ∧
    (ofBytes? type bytes = none ↔
      type ∉ [.bool, .int, .uint, .float] ∨ bytes.length ≠ width type ∨ type = .bool ∧ bytes ≠ [0] ∧ bytes ≠ [1]) := by
  refine ⟨⟨length_bytes literal, bytesValue_bytes literal⟩, ⟨eq_of_ofBytes?, ?_⟩, ofBytes?_eq_none_iff⟩
  rintro ⟨rfl, rfl⟩
  exact ofBytes?_bytes literal

end ShaderTrace.Literal
