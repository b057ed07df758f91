import ShaderTrace.Glsl.Naming
import ShaderTrace.Typing
import Mathlib.Tactic.IntervalCases

/-!
# Types and signatures

The words that are types are few: a type that can be named is one of the thirty-seven of `ValueType.nameable`
(`ValueType.mem_nameable`), so each of them has a spelling. An operator that accepts its operands has as many of them as it
takes (`Operator.length_of_result?`), and gives a type that can be named (`Operator.isNameable_of_result?`) and is no buffer
(`Operator.isBuffer_of_result?`).
-/

namespace ShaderTrace

namespace ValueType

/-! ## The words that are types -/

/-- One bit among the base bits is a base type. -/
theorem mem_baseTypes_of_holdsOneBit {word : UInt32} (h : holdsOneBit (word &&& baseMask) = true) :
    ⟨word &&& baseMask⟩ ∈ baseTypes.map Prod.fst := by
  have hb : (word &&& baseMask).toNat < 2 ^ 14 := by
    rw [UInt32.toNat_and]
    exact Nat.lt_of_le_of_lt Nat.and_le_right (by decide)
  simp only [holdsOneBit, Bool.and_eq_true, bne_iff_ne, ne_eq, beq_iff_eq] at h
  obtain ⟨hne, hand⟩ := h
  generalize word &&& baseMask = x at *
  have hx : x.toNat ≠ 0 := fun h0 => hne (UInt32.toNat_inj.1 h0)
  have hand' : x.toNat &&& (x.toNat - 1) = 0 := by
    have := congrArg UInt32.toNat hand
    rw [UInt32.toNat_and, UInt32.toNat_sub_of_le] at this
    · exact this
    · rw [UInt32.le_iff_toNat_le]
      exact Nat.one_le_iff_ne_zero.2 hx
  obtain ⟨k, hk⟩ := (Nat.and_sub_one_eq_zero_iff_isPowerOfTwo hx).1 hand'
  have hk14 : k < 14 := by
    rw [hk] at hb
    exact (Nat.pow_lt_pow_iff_right (by decide)).1 hb
  have hx' : x = UInt32.ofNat (2 ^ k) := by
    apply UInt32.toNat_inj.1
    rw [hk, UInt32.toNat_ofNat', Nat.mod_eq_of_lt]
    exact Nat.lt_trans (hk ▸ hb) (by decide)
  subst hx'
  clear hne hand hx hand' hb hk
  interval_cases k <;> decide

/-- A word without bits outside the masks is made of its base bits and its buffer bits. -/
theorem bits_eq {word : UInt32} (h : meets word (~~~(baseMask ||| bufferMask)) = false) :
    word = word &&& baseMask ||| word &&& bufferMask := by
  have h0 : word &&& ~~~(baseMask ||| bufferMask) = 0 := by simpa [meets] using h
  apply UInt32.toBitVec_inj.1
  ext i hi
  have hbit := congrArg (fun w : UInt32 => w.toBitVec[i]) h0
  simp only [UInt32.toBitVec_and, UInt32.toBitVec_not, UInt32.toBitVec_or, BitVec.getElem_and, BitVec.getElem_not,
    BitVec.getElem_or, UInt32.toBitVec_zero, BitVec.getElem_zero] at hbit ⊢
  cases hw : word.toBitVec[i] <;> cases hb : baseMask.toBitVec[i] <;> simp_all

/-- The types that can be named are those of the list. -/
theorem mem_nameable {type : ValueType} (h : type.isNameable = true) : type ∈ nameable := by
  obtain ⟨bits⟩ := type
  simp only [isNameable, isValid, isVoid, Bool.and_eq_true, Bool.not_eq_true', Bool.or_eq_true, beq_iff_eq] at h
  obtain ⟨⟨⟨hmask, hone⟩, hbuffer⟩, hvoid⟩ := h
  have hbits := bits_eq hmask
  have hbase := mem_baseTypes_of_holdsOneBit hone
  generalize bits &&& baseMask = base at *
  generalize bits &&& bufferMask = buffer at *
  subst hbits
  simp only [baseTypes, List.map_cons, List.map_nil, List.mem_cons, ValueType.mk.injEq, List.not_mem_nil, or_false, void,
    bool, int, uint, float, int2, uint2, float2, int3, uint3, float3, int4, uint4, float4] at hbase
  rcases hbuffer with rfl | ⟨rfl | rfl, helement⟩
  all_goals
    rcases hbase with rfl | rfl | rfl | rfl | rfl | rfl | rfl | rfl | rfl | rfl | rfl | rfl | rfl | rfl
    all_goals first | decide | exact absurd hvoid (by decide) | exact absurd helement (by decide)

/-- Every type that can be named has a spelling. -/
theorem isSome_typeName? {type : ValueType} (h : type.isNameable = true) : (Glsl.typeName? type).isSome = true := by
  have hall : ∀ type ∈ nameable, (Glsl.typeName? type).isSome = true := by decide
  exact hall type (mem_nameable h)

/-- No type has more than four lanes. -/
theorem lanes_le_four (type : ValueType) : type.lanes ≤ 4 := by
  unfold lanes
  split_ifs <;> omega

/-- A vector has a name. -/
theorem isNameable_of_vector? {kind : ScalarKind} {lanes : Nat} {type : ValueType} (h : vector? kind lanes = some type) :
    type.isNameable = true := by
  unfold vector? at h
  split at h
  all_goals first | cases h; decide | cases h

/-- A scalar or vector type can be named. -/
theorem isNameable_of_shape? {type : ValueType} (h : type.shape?.isSome = true) : type.isNameable = true := by
  simp only [shape?] at h
  split at h
  · rename_i hv
    simp only [Bool.and_eq_true] at hv
    rw [isNameable, hv.1, isVoid]
    have hne : type ≠ void := by
      rintro rfl
      exact absurd h (by decide)
    simp [hne]
  · cases h

/-- The lane of a type that has one can be named. -/
theorem isNameable_of_lane? {type lane : ValueType} (h : type.lane? = some lane) : lane.isNameable = true := by
  obtain ⟨kind, -, hv⟩ := Option.bind_eq_some_iff.1 h
  exact isNameable_of_vector? hv

/-- A numeric type has a name. -/
theorem isNameable_of_isNumeric {type : ValueType} (h : type.isNumeric = true) : type.isNameable = true := by
  refine isNameable_of_shape? ?_
  rw [isNumeric] at h
  cases hs : type.shape? with
  | none => rw [hs] at h; cases h
  | some shape => rfl

/-- The type of a literal has a name. -/
theorem isNameable_literal (literal : Literal) : literal.type.isNameable = true := by
  cases literal <;> simp only [Literal.type] <;> decide

end ValueType

/-! ## Operands and results -/

namespace Typing

open ValueType

/-- The type of a sum is that of one of its operands. -/
theorem eq_or_eq_of_arith? {a b type : ValueType} (h : arith? a b = some type) : type = a ∨ type = b := by
  unfold arith? at h
  split at h
  · split_ifs at h
    · exact .inl (Option.some.inj h).symm
    · exact .inr (Option.some.inj h).symm
  · cases h

/-- The type of a product has a name. -/
theorem isNameable_of_scaled? {a b type : ValueType} (h : scaled? a b = some type) : type.isNameable = true := by
  unfold scaled? at h
  split at h
  · split_ifs at h
    exact isNameable_of_vector? h
  · cases h

/-- The type of a remainder is that of its first operand. -/
theorem eq_of_modulo? {a b type : ValueType} (h : modulo? a b = some type) : type = a := by
  unfold modulo? at h
  split at h
  · split_ifs at h
    exact (Option.some.inj h).symm
  · cases h

/-- An operation on one operand has a type with a name, if the operand has. -/
theorem isNameable_of_unary? {op : UnaryOp} {a type : ValueType} (h : unary? op a = some type)
    (ha : a.isNameable = true) : type.isNameable = true := by
  cases op <;> simp only [unary?] at h <;> split_ifs at h <;> cases h
  · exact ha
  · decide
  · exact ha

/-- An operation on two operands has a type with a name, if both have. -/
theorem isNameable_of_binary? {op : BinaryOp} {a b type : ValueType} (h : binary? op a b = some type)
    (ha : a.isNameable = true) (hb : b.isNameable = true) : type.isNameable = true := by
  have harith : arith? a b = some type → type.isNameable = true := by
    intro h
    rcases eq_or_eq_of_arith? h with rfl | rfl
    · exact ha
    · exact hb
  cases op <;> simp only [binary?] at h
  case add => exact harith h
  case sub => exact harith h
  case mul =>
    rw [product?, Option.or_eq_some_iff, Option.or_eq_some_iff] at h
    rcases h with h | ⟨-, h | ⟨-, h⟩⟩
    · exact harith h
    · exact isNameable_of_scaled? h
    · exact isNameable_of_scaled? h
  case div =>
    rw [quotient?, Option.or_eq_some_iff] at h
    rcases h with h | ⟨-, h⟩
    · exact harith h
    · exact isNameable_of_scaled? h
  case rem => exact eq_of_modulo? h ▸ ha
  all_goals
    split_ifs at h
    cases h
    first | exact ha | decide

/-- A call has as many arguments as its function takes. -/
theorem length_of_call? {builtin : Builtin} {types : List ValueType} {type : ValueType}
    (h : call? builtin types = some type) : types.length = builtin.arity := by
  unfold call? at h
  split at h
  case h_8 =>
    split_ifs at h with hc
    exact hc.1.symm
  all_goals first | rfl | cases h

/-- A call has a type with a name, if the arguments have. -/
theorem isNameable_of_call? {builtin : Builtin} {types : List ValueType} {type : ValueType}
    (h : call? builtin types = some type) (ht : ∀ t ∈ types, t.isNameable = true) : type.isNameable = true := by
  unfold call? at h
  split at h
  all_goals
    first
    | cases h
    | split_ifs at h
      cases h
      first | decide | exact ht _ (by simp)

/-- What can be cast to has a name. -/
theorem isNameable_of_castable {a b : ValueType} (h : castable a b = true) : b.isNameable = true := by
  refine isNameable_of_shape? ?_
  unfold castable at h
  split at h
  · rename_i hb
    rw [hb]
    rfl
  · cases h

/-- A constructor makes a vector from as many operands as it has lanes. -/
theorem of_construct? {type type' : ValueType} {types : List ValueType} (h : construct? type types = some type') :
    type' = type ∧ types.length = type.lanes ∧ 1 < type.lanes ∧ type.isNameable = true := by
  unfold construct? at h
  split_ifs at h with hc
  obtain ⟨hv, hvec, hlen, -⟩ := hc
  have hlanes : 1 < type.lanes := by
    simp only [isVector, Bool.and_eq_true, decide_eq_true_eq] at hvec
    exact hvec.2
  refine ⟨(Option.some.inj h).symm, hlen, hlanes, ?_⟩
  have hne : type ≠ void := by
    rintro rfl
    exact absurd hlanes (by decide)
  simp [isNameable, hv, isVoid, hne]

/-- A sampling reads a buffer at as many integers as it has dimensions, and has the type of its base. -/
theorem of_sample? {isBuffer : ValueType → Bool} {count : Nat} {types : List ValueType} {type : ValueType}
    (h : sample? isBuffer count types = some type) :
    ∃ buffer indices, types = buffer :: indices ∧ buffer.isValid = true ∧ isBuffer buffer = true ∧
      indices.length = count ∧ (∀ index ∈ indices, index = int) ∧ type = buffer.base := by
  unfold sample? at h
  split at h
  · rename_i buffer indices
    split_ifs at h with hc
    obtain ⟨hv, hb, hl, hall⟩ := hc
    exact ⟨buffer, indices, rfl, hv, hb, hl, by simpa using hall, (Option.some.inj h).symm⟩
  · cases h

/-- An element of a buffer has a type that can be named. -/
theorem isNameable_base {buffer : ValueType} (h : buffer.isNameable = true) : buffer.base.isNameable = true := by
  have hall : ∀ type ∈ nameable, type.base.isNameable = true := by decide
  exact hall buffer (mem_nameable h)

end Typing

namespace Operator

/-- No operation is a block. -/
theorem isBlock_kind (operator : Operator) : operator.kind.isBlock = false := by
  cases operator with
  | unary op => cases op <;> rfl
  | binary op => cases op <;> rfl
  | _ => rfl

/-- How many operands an operator takes. -/
def operandCount : Operator → Nat
  | unary _ | cast _ => 1
  | binary _ | sample1d => 2
  | sample2d => 3
  | call builtin => builtin.arity
  | construct type => type.lanes
  | index | normalizedIndex => 0

/-- An operator that accepts its operands has as many as it takes. -/
theorem length_of_result? {operator : Operator} {types : List ValueType} {type : ValueType}
    (h : operator.result? types = some type) : types.length = operator.operandCount := by
  unfold result? at h
  split at h
  · rfl
  · rfl
  · exact Typing.length_of_call? h
  · rfl
  · exact (Typing.of_construct? h).2.1
  · rfl
  · rfl
  · obtain ⟨buffer, indices, rfl, -, -, hl, -⟩ := Typing.of_sample? h
    simp [operandCount, hl]
  · obtain ⟨buffer, indices, rfl, -, -, hl, -⟩ := Typing.of_sample? h
    simp [operandCount, hl]
  · cases h

/-- The type of a result can be named if the types of the operands can. -/
theorem isNameable_of_result? {operator : Operator} {types : List ValueType} {type : ValueType}
    (h : operator.result? types = some type) (ht : ∀ t ∈ types, t.isNameable = true) : type.isNameable = true := by
  unfold result? at h
  split at h
  · exact Typing.isNameable_of_unary? h (ht _ (by simp))
  · exact Typing.isNameable_of_binary? h (ht _ (by simp)) (ht _ (by simp))
  · exact Typing.isNameable_of_call? h ht
  · split_ifs at h with hc
    cases h
    exact Typing.isNameable_of_castable hc
  · obtain ⟨rfl, -, -, hn⟩ := Typing.of_construct? h
    exact hn
  · cases h
    decide
  · cases h
    decide
  · obtain ⟨buffer, indices, rfl, -, -, -, -, rfl⟩ := Typing.of_sample? h
    exact Typing.isNameable_base (ht buffer (by simp))
  · obtain ⟨buffer, indices, rfl, -, -, -, -, rfl⟩ := Typing.of_sample? h
    exact Typing.isNameable_base (ht buffer (by simp))
  · cases h

end Operator

/-! ## Types that are no buffers -/

namespace ValueType

/-- What has a shape is no buffer. -/
theorem isBuffer_of_shape? {type : ValueType} (h : type.shape?.isSome = true) : type.isBuffer = false := by
  unfold shape? at h
  split at h
  · rename_i hc
    simpa using (Bool.and_eq_true_iff.1 hc).2
  · cases h

/-- A vector is no buffer. -/
theorem isBuffer_of_vector? {kind : ScalarKind} {lanes : Nat} {type : ValueType} (h : vector? kind lanes = some type) :
    type.isBuffer = false := by
  unfold vector? at h
  split at h
  all_goals first | cases h; decide | cases h

/-- An element of a buffer is no buffer. -/
theorem isBuffer_base (type : ValueType) : type.base.isBuffer = false := by
  have hmasks : baseMask &&& bufferMask = 0 := by decide
  simp [isBuffer, base, meets, UInt32.and_assoc, hmasks]

/-- What has a shape of some sort is no buffer. -/
theorem isBuffer_of_any_shape? {type : ValueType} {holds : ScalarKind × Nat → Bool} (h : type.shape?.any holds = true) :
    type.isBuffer = false := by
  refine isBuffer_of_shape? ?_
  cases hs : type.shape? with
  | none => simp [hs] at h
  | some shape => rfl

/-- An integral type is no buffer. -/
theorem isBuffer_of_isIntegral {type : ValueType} (h : type.isIntegral = true) : type.isBuffer = false := by
  simp only [isIntegral, Bool.or_eq_true, beq_iff_eq] at h
  rcases h with rfl | rfl <;> decide

end ValueType

namespace Typing

open ValueType

/-- The operands of a sum have shapes. -/
theorem isSome_shape?_of_arith? {a b : ValueType} (h : (arith? a b).isSome = true) :
    a.shape?.isSome = true ∧ b.shape?.isSome = true := by
  unfold arith? at h
  split at h
  · rename_i ha hb
    simp [ha, hb]
  · cases h

theorem isBuffer_of_arith? {a b type : ValueType} (h : arith? a b = some type) : type.isBuffer = false := by
  obtain ⟨ha, hb⟩ := isSome_shape?_of_arith? (show (arith? a b).isSome = true by simp [h])
  rcases eq_or_eq_of_arith? h with rfl | rfl
  · exact isBuffer_of_shape? ha
  · exact isBuffer_of_shape? hb

theorem isBuffer_of_scaled? {a b type : ValueType} (h : scaled? a b = some type) : type.isBuffer = false := by
  unfold scaled? at h
  split at h
  · split_ifs at h
    exact isBuffer_of_vector? h
  · cases h

theorem isBuffer_of_modulo? {a b type : ValueType} (h : modulo? a b = some type) : type.isBuffer = false := by
  obtain rfl := eq_of_modulo? h
  unfold modulo? at h
  split at h
  · rename_i ha _
    exact isBuffer_of_shape? (by simp [ha])
  · cases h

/-- An operation on one operand is no buffer. -/
theorem isBuffer_of_unary? {op : UnaryOp} {a type : ValueType} (h : unary? op a = some type) : type.isBuffer = false := by
  cases op <;> simp only [unary?] at h <;> split_ifs at h with hc <;> cases h
  · exact isBuffer_of_any_shape? hc
  · decide
  · exact isBuffer_of_isIntegral hc

/-- An operation on two operands is no buffer. -/
theorem isBuffer_of_binary? {op : BinaryOp} {a b type : ValueType} (h : binary? op a b = some type) :
    type.isBuffer = false := by
  cases op <;> simp only [binary?] at h
  case add => exact isBuffer_of_arith? h
  case sub => exact isBuffer_of_arith? h
  case mul =>
    rw [product?, Option.or_eq_some_iff, Option.or_eq_some_iff] at h
    rcases h with h | ⟨-, h | ⟨-, h⟩⟩
    · exact isBuffer_of_arith? h
    · exact isBuffer_of_scaled? h
    · exact isBuffer_of_scaled? h
  case div =>
    rw [quotient?, Option.or_eq_some_iff] at h
    rcases h with h | ⟨-, h⟩
    · exact isBuffer_of_arith? h
    · exact isBuffer_of_scaled? h
  case rem => exact isBuffer_of_modulo? h
  -- bits are combined and shifted between integers; all other operators compare
  all_goals
    split_ifs at h with hc
    cases h
    first
    | decide
    | exact isBuffer_of_isIntegral (Bool.and_eq_true_iff.1 hc).2
    | exact isBuffer_of_isIntegral (Bool.and_eq_true_iff.1 hc).1

/-- What can be cast to is no buffer. -/
theorem isBuffer_of_castable {a b : ValueType} (h : castable a b = true) : b.isBuffer = false := by
  unfold castable at h
  split at h
  · rename_i hb
    exact isBuffer_of_shape? (by simp [hb])
  · cases h

/-- What is constructed is no buffer. -/
theorem isBuffer_of_construct? {type type' : ValueType} {types : List ValueType} (h : construct? type types = some type') :
    type'.isBuffer = false := by
  unfold construct? at h
  split_ifs at h with hc
  cases h
  simpa using (Bool.and_eq_true_iff.1 hc.2.1).1

/-- What a call gives is no buffer. -/
theorem isBuffer_of_call? {builtin : Builtin} {types : List ValueType} {type : ValueType}
    (h : call? builtin types = some type) : type.isBuffer = false := by
  unfold call? at h
  split at h
  all_goals
    first
    | cases h
    | split_ifs at h with hc
      cases h
      first
      | decide
      | exact isBuffer_of_any_shape? hc
      | exact isBuffer_of_any_shape? hc.2
      | exact isBuffer_of_any_shape? hc.2.2

end Typing

/-- No operation gives a buffer. -/
theorem Operator.isBuffer_of_result? {operator : Operator} {types : List ValueType} {type : ValueType}
    (h : operator.result? types = some type) : type.isBuffer = false := by
  unfold Operator.result? at h
  split at h
  · exact Typing.isBuffer_of_unary? h
  · exact Typing.isBuffer_of_binary? h
  · exact Typing.isBuffer_of_call? h
  · split_ifs at h with hc
    cases h
    exact Typing.isBuffer_of_castable hc
  · exact Typing.isBuffer_of_construct? h
  · cases h
    decide
  · cases h
    decide
  · obtain ⟨buffer, indices, -, -, -, -, -, rfl⟩ := Typing.of_sample? h
    exact ValueType.isBuffer_base buffer
  · obtain ⟨buffer, indices, -, -, -, -, -, rfl⟩ := Typing.of_sample? h
    exact ValueType.isBuffer_base buffer
  · cases h

end ShaderTrace
