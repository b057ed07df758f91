import ShaderTrace.Proofs.Signatures

/-!
# Type tags

Of all words of 32 bits, thirty-eight are types: void, and the types that can be named (`ValueType.isValid_iff_mem`). Whatever is
said of types only is said of these. The text of a type is read back as the type, and the text of any other word is not read and
shows the word in hexadecimal digits, so different words have different texts (`ValueType.text_injective`). A buffer is the base
bits of its element and one mark above them (`ValueType.toNat_marked`). The main statement is `ValueType.types_closed_and_named`.
-/

namespace ShaderTrace.ValueType

/-! ## The closed set -/

/-- The types that a buffer may hold: the int, uint and float scalars and vectors. -/
def elementTypes : List ValueType :=
  [int, uint, float, int2, uint2, float2, int3, uint3, float3, int4, uint4, float4]

/-- The word is the bit of a base type, or one buffer bit together with the bit of a type that a buffer may hold. -/
def IsTypeWord (bits : UInt32) : Prop :=
  (∃ type ∈ baseTypes.map Prod.fst, bits = type.bits) ∨
    ∃ element ∈ elementTypes, bits = buffer1dBit ||| element.bits ∨ bits = buffer2dBit ||| element.bits

instance (bits : UInt32) : Decidable (IsTypeWord bits) :=
  inferInstanceAs (Decidable (_ ∨ _))

/-- The base types own the lowest fourteen bits, one each and in order, and the two kinds of buffers own the highest two. -/
theorem owned_bits :
    baseTypes.map (fun entry => entry.1.bits.toNat) = (List.range 14).map (2 ^ ·) ∧ buffer1dBit.toNat = 2 ^ 30 ∧
      buffer2dBit.toNat = 2 ^ 31 := by
  decide

variable {type other : ValueType}

/-- The types with a name are the valid ones but `void`. -/
theorem isNameable_iff : type.isNameable = true ↔ type.isValid = true ∧ type ≠ void := by
  simp [isNameable, isVoid]

/-- The valid types are `void` and those with a name. -/
theorem isValid_iff_mem : type.isValid = true ↔ type ∈ void :: nameable := by
  constructor
  · intro h
    by_cases hvoid : type = void
    · exact hvoid ▸ List.mem_cons_self
    · exact List.mem_cons_of_mem void (mem_nameable (isNameable_iff.2 ⟨h, hvoid⟩))
  · have hall : ∀ type ∈ void :: nameable, type.isValid = true := by decide
    exact hall type

/-- A type is valid exactly if its bits are a word for one. -/
theorem isValid_iff_isTypeWord : type.isValid = true ↔ IsTypeWord type.bits := by
  constructor
  · have hall : ∀ type ∈ void :: nameable, IsTypeWord type.bits := by decide
    exact fun h => hall type (isValid_iff_mem.1 h)
  · obtain ⟨bits⟩ := type
    have hbase : ∀ type ∈ baseTypes.map Prod.fst, type.isValid = true := by decide
    have hbuffer : ∀ element ∈ elementTypes, isValid ⟨buffer1dBit ||| element.bits⟩ = true ∧
        isValid ⟨buffer2dBit ||| element.bits⟩ = true := by decide
    rintro (⟨type, htype, h⟩ | ⟨element, helement, h | h⟩)
    · obtain rfl : bits = type.bits := h
      exact hbase type htype
    · obtain rfl : bits = buffer1dBit ||| element.bits := h
      exact (hbuffer element helement).1
    · obtain rfl : bits = buffer2dBit ||| element.bits := h
      exact (hbuffer element helement).2

/-- Bits are read as a type exactly if they are a word for one. -/
theorem ofBits?_eq (bits : UInt32) : ofBits? bits = if IsTypeWord bits then some ⟨bits⟩ else none := by
  simp only [ofBits?, isValid_iff_isTypeWord]

/-! ## Texts -/

/-- Numbers with the same hexadecimal digits are equal: the last digits agree, and so do the digits before them. -/
theorem eq_of_toDigits_eq (m : Nat) : ∀ {n : Nat}, Nat.toDigits 16 m = Nat.toDigits 16 n → m = n := by
  have hdigit : ∀ m < 16, ∀ n < 16, Nat.digitChar m = Nat.digitChar n → m = n := by decide
  induction m using Nat.strongRecOn with
  | _ m ih =>
    intro n h
    rw [@Nat.toDigits_eq_if 16 m (by decide), @Nat.toDigits_eq_if 16 n (by decide)] at h
    split_ifs at h with hm hn hn
    · exact hdigit m hm n hn (List.singleton_inj.1 h)
    -- a single digit has nothing before it, a greater number has
    · have hempty : [] ++ [Nat.digitChar m] = Nat.toDigits 16 (n / 16) ++ [Nat.digitChar (n % 16)] := h
      exact absurd (List.append_inj' hempty rfl).1.symm Nat.toDigits_ne_nil
    · have hempty : Nat.toDigits 16 (m / 16) ++ [Nat.digitChar (m % 16)] = [] ++ [Nat.digitChar n] := h
      exact absurd (List.append_inj' hempty rfl).1 Nat.toDigits_ne_nil
    · obtain ⟨hfront, hlast⟩ := List.append_inj' h rfl
      have hquotient := ih (m / 16) (by omega) hfront
      have hremainder := hdigit _ (Nat.mod_lt m (by decide)) _ (Nat.mod_lt n (by decide)) (List.singleton_inj.1 hlast)
      omega

/-- Different words have different digits. -/
theorem hex_injective : Function.Injective hex := by
  intro word word' h
  exact UInt32.toNat_inj.1 (eq_of_toDigits_eq word.toNat (String.ofList_injective h))

/-- The base names and the buffer marks end in no parenthesis, so what ends in one is not read. -/
theorem readWithin_of_getLast? {depth : Nat} {cs : List Char} (h : cs.getLast? = some ')') : readWithin depth cs = none := by
  have hnames : ∀ entry ∈ baseTypes, entry.2.toList.getLast? ≠ some ')' := by decide
  have hnone : baseTypes.find? (·.2.toList == cs) = none := by
    rw [List.find?_eq_none]
    intro entry hentry heq
    rw [beq_iff_eq] at heq
    exact hnames entry hentry (heq ▸ h)
  unfold readWithin
  rw [hnone]
  cases depth with
  | zero => rfl
  | succ depth => simp [h]

/-- A type that is not valid is shown by its bits. -/
theorem text_of_not_isValid (h : ¬type.isValid = true) : type.text = "invalid(0x" ++ hex type.bits ++ ")" := by
  rw [text, Bool.eq_false_iff.2 h]
  rfl

/-- The text of a type is read as that type, and the text of a word that is no type is not read. -/
theorem read?_text (type : ValueType) : read? type.text = if type.isValid then some type else none := by
  split
  · rename_i h
    have hall : ∀ type ∈ void :: nameable, read? type.text = some type := by decide +kernel
    exact hall type (isValid_iff_mem.1 h)
  · rename_i h
    rw [text_of_not_isValid h]
    refine readWithin_of_getLast? ?_
    rw [String.toList_append]
    exact List.getLast?_concat

/-- Different types are shown differently. -/
theorem text_injective : Function.Injective text := by
  intro type other h
  have hread : read? type.text = read? other.text := congrArg read? h
  rw [read?_text, read?_text] at hread
  -- what is read tells a type from a word that is none, so two cases are left
  split_ifs at hread with htype hother hother
  · exact Option.some.inj hread
  · rw [text_of_not_isValid htype, text_of_not_isValid hother] at h
    have hdigits : hex type.bits = hex other.bits := (String.append_right_inj _).1 ((String.append_left_inj _).1 h)
    exact congrArg mk (hex_injective hdigits)

/-! ## Buffers -/

/-- The base of a type is its lower bits. -/
theorem toNat_base (type : ValueType) : type.base.bits.toNat = type.bits.toNat % 2 ^ 14 := by
  rw [base, UInt32.toNat_and]
  exact Nat.and_two_pow_sub_one_eq_mod type.bits.toNat 14

section Marks
variable {bit : UInt32} {i : Nat} (hi : 14 ≤ i) (hbit : bit.toNat = 2 ^ i)
include hi hbit

/-- A mark above the base bits is added to them. -/
theorem toNat_marked (type : ValueType) : (type.base.bits ||| bit).toNat = type.bits.toNat % 2 ^ 14 + 2 ^ i := by
  have hlt : type.bits.toNat % 2 ^ 14 < 2 ^ i :=
    Nat.lt_of_lt_of_le (Nat.mod_lt _ (by decide)) (Nat.pow_le_pow_right (by decide) hi)
  have hadd := Nat.two_pow_add_eq_or_of_lt hlt 1
  rw [UInt32.toNat_or, toNat_base, hbit, Nat.or_comm, Nat.add_comm]
  rwa [Nat.mul_one, eq_comm] at hadd

/-- A mark above the base does not change the base. -/
theorem base_marked (type : ValueType) : base ⟨type.base.bits ||| bit⟩ = type.base := by
  have hdvd : 2 ^ i = 2 ^ 14 * 2 ^ (i - 14) := by rw [← Nat.pow_add, Nat.add_sub_cancel' hi]
  refine congrArg mk (UInt32.toNat_inj.1 ?_)
  calc
    (base ⟨type.base.bits ||| bit⟩).bits.toNat = (type.base.bits ||| bit).toNat % 2 ^ 14 := toNat_base _
    _ = (type.bits.toNat % 2 ^ 14 + 2 ^ i) % 2 ^ 14 := by rw [toNat_marked hi hbit]
    _ = type.bits.toNat % 2 ^ 14 := by rw [hdvd, Nat.add_mul_mod_self_left, Nat.mod_mod]
    _ = type.base.bits.toNat := (toNat_base type).symm

/-- Types with the same mark are the same exactly if their bases are. -/
theorem marked_eq_iff : mk (type.base.bits ||| bit) = mk (other.base.bits ||| bit) ↔ type.base = other.base := by
  constructor
  · intro h
    rw [← base_marked hi hbit type, h, base_marked hi hbit other]
  · intro h
    rw [h]

end Marks

/-- The base of a buffer of one dimension is that of its element. -/
theorem base_buffer1d (element : ValueType) : (buffer1d element).base = element.base :=
  base_marked (by decide) owned_bits.2.1 element

/-- The base of a buffer of two dimensions is that of its element. -/
theorem base_buffer2d (element : ValueType) : (buffer2d element).base = element.base :=
  base_marked (by decide) owned_bits.2.2 element

/-- Buffers of one dimension are the same exactly if the bases of their elements are. -/
theorem buffer1d_eq_iff : buffer1d type = buffer1d other ↔ type.base = other.base :=
  marked_eq_iff (by decide) owned_bits.2.1

/-- Buffers of two dimensions are the same exactly if the bases of their elements are. -/
theorem buffer2d_eq_iff : buffer2d type = buffer2d other ↔ type.base = other.base :=
  marked_eq_iff (by decide) owned_bits.2.2

/-! ## Spellings and shapes -/

/-- A type can be spelled exactly if it is valid and not `void`. -/
theorem isSome_typeName?_iff : (Glsl.typeName? type).isSome = true ↔ type.isValid = true ∧ type ≠ void := by
  constructor
  · intro h
    constructor
    · by_contra hvalid
      rw [Glsl.typeName?, Bool.eq_false_iff.2 hvalid] at h
      cases h
    · rintro rfl
      exact absurd h (by decide)
  · exact fun h => isSome_typeName? (isNameable_iff.2 h)

/-- The base of a type with a name is the vector of its scalars and its lanes. -/
theorem vector?_scalarKind? (h : type.isNameable = true) :
    (type.scalarKind?.bind fun kind => vector? kind type.lanes) = some type.base := by
  have hall : ∀ type ∈ nameable, (type.scalarKind?.bind fun kind => vector? kind type.lanes) = some type.base := by decide
  exact hall type (mem_nameable h)

/-- Each base type and each kind of buffer owns one bit. The words that are types are the base bits, and one buffer bit with the
bit of one numeric type, and these words alone are accepted. No two words have the same text, whether they are types or not. A
buffer is the base bits of what it is made from and its own mark, and depends on nothing else, so that of several marks around each
other the outermost counts. The types other than void are those that have a spelling, and the kind and the number of lanes of each
of them give its base back. -/
theorem types_closed_and_named :
    (baseTypes.map (fun entry => entry.1.bits.toNat) = (List.range 14).map (2 ^ ·) ∧ buffer1dBit.toNat = 2 ^ 30 ∧
      buffer2dBit.toNat = 2 ^ 31) ∧
    (∀ bits, (isValid ⟨bits⟩ = true ↔ IsTypeWord bits) ∧ ofBits? bits = if IsTypeWord bits then some ⟨bits⟩ else none) ∧
    Function.Injective text ∧
    (∀ element : ValueType, (buffer1d element).bits.toNat = element.bits.toNat % 2 ^ 14 + 2 ^ 30 ∧
      (buffer2d element).bits.toNat = element.bits.toNat % 2 ^ 14 + 2 ^ 31) ∧
    (∀ type other : ValueType, (buffer1d type = buffer1d other ↔ type.base = other.base) ∧
      (buffer2d type = buffer2d other ↔ type.base = other.base)) ∧
    (∀ element : ValueType,
      (buffer1d (buffer1d element) = buffer1d element ∧ buffer1d (buffer2d element) = buffer1d element) ∧
      buffer2d (buffer1d element) = buffer2d element ∧ buffer2d (buffer2d element) = buffer2d element) ∧
    (∀ type, (Glsl.typeName? type).isSome = true ↔ type.isValid = true ∧ type ≠ void) ∧
    ∀ type : ValueType, type.isValid = true → type ≠ void →
      (type.scalarKind?.bind fun kind => vector? kind type.lanes) = some type.base := by
  refine ⟨owned_bits, fun bits => ⟨isValid_iff_isTypeWord, ofBits?_eq bits⟩, text_injective, fun element => ⟨?_, ?_⟩,
    fun type other => ⟨buffer1d_eq_iff, buffer2d_eq_iff⟩, fun element => ⟨⟨?_, ?_⟩, ?_, ?_⟩, fun type => isSome_typeName?_iff,
    fun type hvalid hvoid => vector?_scalarKind? (isNameable_iff.2 ⟨hvalid, hvoid⟩)⟩
  · exact toNat_marked (by decide) owned_bits.2.1 element
  · exact toNat_marked (by decide) owned_bits.2.2 element
  · exact buffer1d_eq_iff.2 (base_buffer1d element)
  · exact buffer1d_eq_iff.2 (base_buffer2d element)
  · exact buffer2d_eq_iff.2 (base_buffer1d element)
  · exact buffer2d_eq_iff.2 (base_buffer2d element)

/-- A buffer of vectors gives its vector type back; both buffer bits at once are no type. -/
theorem types_closed_and_named_uint3 :
    (buffer2d uint3).isValid = true ∧ buffer2d uint3 ≠ void ∧
      ((buffer2d uint3).scalarKind?.bind fun kind => vector? kind (buffer2d uint3).lanes) = some uint3 ∧
      ofBits? (buffer1dBit ||| buffer2dBit ||| uint3.bits) = none := by
  obtain ⟨-, hwords, -, -, -, -, -, hshape⟩ := types_closed_and_named
  have hvalid : (buffer2d uint3).isValid = true := by decide
  have hvoid : buffer2d uint3 ≠ void := by decide
  refine ⟨hvalid, hvoid, hshape _ hvalid hvoid, ?_⟩
  rw [(hwords _).2, if_neg (by decide)]

end ShaderTrace.ValueType
