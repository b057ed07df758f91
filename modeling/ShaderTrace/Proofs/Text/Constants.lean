import ShaderTrace.Proofs.Text.Numerals

/-!
# Literals denote their values

What a constant expression evaluates to (`Evaluates`): whole numbers within 32 bits, so that an expression that overflows has no
value, and numerals with a fraction or an exponent, rounded to the nearest number. The constant expression of a literal evaluates
to the literal and to nothing else, where numbers that are no numbers are not told apart (`evaluates_constantOf_iff`). The main
statement is `literal_denotes_value`.
-/

namespace ShaderTrace

/-! ## Signs -/

namespace Binary32

/-- The number with the other sign. The sign is the highest bit, so adding that turns it over. -/
def opposite (x : Binary32) : Binary32 := ⟨x.bits + 0x80000000⟩

/-- The opposite number has the other highest bit. -/
theorem toNat_bits_opposite (x : Binary32) : x.opposite.bits.toNat = (x.bits.toNat + 2 ^ 31) % 2 ^ 32 := by
  simp [opposite, UInt32.toNat_add]

/-- The opposite number has the same pattern. -/
theorem pattern_opposite (x : Binary32) : x.opposite.pattern = x.pattern := by
  rw [pattern, pattern, toNat_bits_opposite]
  omega

/-- The opposite number has the other sign. -/
theorem isNegative_opposite (x : Binary32) : x.opposite.isNegative = !x.isNegative := by
  have hlt := x.bits.toNat_lt
  rw [Bool.eq_iff_iff, isNegative_iff, toNat_bits_opposite, Bool.not_eq_true', ← Bool.not_eq_true, isNegative_iff]
  omega

/-- What a number divided by zero is: infinite, with a sign from both, and no number if it is zero itself. -/
def QuotientByZero (x y z : Binary32) : Prop :=
  x.isNaN = false ∧ y.magnitude = 0 ∧
    if x.magnitude = 0 then z.isNaN = true else z.isInfinite = true ∧ z.isNegative = (x.isNegative != y.isNegative)

end Binary32

namespace Glsl.Grammar

open Binary32 (RoundsTo QuotientByZero)

/-! ## Values of constant expressions -/

/-- The whole number has a place in 32 bits with a sign. -/
def FitsInt (n : Int) : Prop := -2 ^ 31 ≤ n ∧ n < 2 ^ 31

/-- What a constant expression evaluates to, as far as the expressions of literals need it. Nothing that overflows has a value. -/
inductive Evaluates : Phrase → Literal → Prop
  | bool (value : Bool) : Evaluates (.constant (.bool value)) (.bool value)
  | int {n : Nat} (h : FitsInt n) : Evaluates (.constant (.int n)) (.int (Int32.ofInt n))
  | uint {n : Nat} (h : n < 2 ^ 32) : Evaluates (.constant (.uint n)) (.uint (UInt32.ofNat n))
  | float {spelling : String} {x : Binary32} (h : RoundsTo (numeral spelling.toList) x) :
    Evaluates (.constant (.float spelling)) (.float x)
  | negInt {e : Phrase} {a : Int32} (h : Evaluates e (.int a)) (hfit : FitsInt (-a.toInt)) :
    Evaluates (.unary .neg e) (.int (Int32.ofInt (-a.toInt)))
  | negFloat {e : Phrase} {x : Binary32} (h : Evaluates e (.float x)) : Evaluates (.unary .neg e) (.float x.opposite)
  | subInt {l r : Phrase} {a b : Int32} (hl : Evaluates l (.int a)) (hr : Evaluates r (.int b))
    (hfit : FitsInt (a.toInt - b.toInt)) : Evaluates (.binary .sub l r) (.int (Int32.ofInt (a.toInt - b.toInt)))
  | divFloat {l r : Phrase} {x y z : Binary32} (hl : Evaluates l (.float x)) (hr : Evaluates r (.float y))
    (hz : QuotientByZero x y z) : Evaluates (.binary .div l r) (.float z)

/-- The two literals are the same value. Numbers that are no numbers are not told apart. -/
def Agrees (value value' : Literal) : Prop :=
  value = value' ∨ ∃ x y : Binary32, value = .float x ∧ value' = .float y ∧ x.isNaN = true ∧ y.isNaN = true

section Values

variable {value : Literal}

/-- A signed integer evaluates to itself, and to nothing else. -/
theorem evaluates_signed_int_iff (negative : Bool) {n : Nat} (h : n < 2 ^ 31) :
    Evaluates (signed negative (.int n)) value ↔ value = .int (Int32.ofInt (if negative then -n else n)) := by
  have hfit : FitsInt n := ⟨by omega, by omega⟩
  have htoInt : (Int32.ofInt n).toInt = n := Int32.toInt_ofInt_of_le hfit.1 hfit.2
  cases negative with
  | false =>
    constructor
    · rintro ⟨⟩
      rfl
    · rintro rfl
      exact .int hfit
  | true =>
    constructor
    · intro heval
      cases heval with
      | negInt hvalue _ =>
        cases hvalue
        rw [htoInt]
        rfl
      | negFloat hvalue => cases hvalue
    · rintro rfl
      have hneg := Evaluates.negInt (.int hfit) (by rw [htoInt]; exact ⟨by omega, by omega⟩)
      rwa [htoInt] at hneg

/-- A signed decimal evaluates to the number that it rounds to, with its sign. -/
theorem evaluates_signed_float_iff (negative : Bool) (spelling : String) :
    Evaluates (signed negative (.float spelling)) value ↔
      ∃ x, RoundsTo (numeral spelling.toList) x ∧ value = .float (if negative then x.opposite else x) := by
  cases negative with
  | false =>
    constructor
    · rintro ⟨⟩
      exact ⟨_, ‹_›, rfl⟩
    · rintro ⟨x, hx, rfl⟩
      exact .float hx
  | true =>
    constructor
    · intro heval
      cases heval with
      | negInt hvalue _ => cases hvalue
      | negFloat hvalue =>
        cases hvalue
        exact ⟨_, ‹_›, rfl⟩
    · rintro ⟨x, hx, rfl⟩
      exact .negFloat (.float hx)

/-- Of all integers only the least is greater in size than every literal. -/
theorem natAbs_lt_of_ne_minValue {n : Int32} (h : n ≠ Int32.minValue) : n.toInt.natAbs < 2 ^ 31 := by
  have hlower := n.le_toInt
  have hupper := n.toInt_lt
  have hne : n.toInt ≠ -2 ^ 31 := fun heq => h (Int32.toInt_inj.1 heq)
  omega

/-- The least integer is written as a difference. -/
theorem evaluates_least_iff :
    Evaluates (.binary .sub (signed true (.int 2147483647)) (.constant (.int 1))) value ↔ value = .int Int32.minValue := by
  have hleft : ∀ {v}, Evaluates (signed true (.int 2147483647)) v ↔ v = .int (Int32.ofInt (-2147483647)) :=
    evaluates_signed_int_iff true (by decide)
  have hright : ∀ {v}, Evaluates (.constant (.int 1)) v ↔ v = .int (Int32.ofInt 1) :=
    evaluates_signed_int_iff false (by decide)
  constructor
  · intro heval
    cases heval with
    | subInt hl hr _ =>
      cases hleft.1 hl
      cases hright.1 hr
      decide
  · rintro rfl
    exact .subInt (hleft.2 rfl) (hright.2 rfl) ⟨by decide, by decide⟩

/-- The text of a finite number gives back the number, sign included. -/
theorem evaluates_sizeText_iff {x : Binary32} (hnan : x.isNaN = false) (hinfinite : x.isInfinite = false) :
    Evaluates (signed x.isNegative (.float (sizeText x))) value ↔ value = .float x := by
  rw [evaluates_signed_float_iff]
  simp only [Binary32.roundsTo_numeral_iff hnan hinfinite]
  constructor
  · rintro ⟨y, ⟨hy, hpattern⟩, rfl⟩
    refine congrArg Literal.float ?_
    cases hsign : x.isNegative with
    | false => exact Binary32.eq_of_pattern hpattern (hy.1.trans hsign.symm)
    | true => exact Binary32.eq_of_pattern (y.pattern_opposite.trans hpattern) (by simp [y.isNegative_opposite, hy.1, hsign])
  · rintro rfl
    cases hsign : x.isNegative with
    | false => exact ⟨x, ⟨⟨hsign, hnan⟩, rfl⟩, rfl⟩
    | true =>
      have hunsigned : x.opposite.IsUnsigned := by
        refine ⟨by simp [x.isNegative_opposite, hsign], ?_⟩
        rwa [← Bool.not_eq_true, Binary32.isNaN_iff, x.pattern_opposite, ← Binary32.isNaN_iff, Bool.not_eq_true]
      refine ⟨x.opposite, ⟨hunsigned, x.pattern_opposite⟩, congrArg Literal.float ?_⟩
      refine Binary32.eq_of_pattern (by rw [if_pos rfl, Binary32.pattern_opposite, Binary32.pattern_opposite]) ?_
      simp [Binary32.isNegative_opposite]

/-- Zero evaluates to zero without a sign. -/
theorem evaluates_zero_iff : Evaluates (.constant (.float "0.0")) value ↔ value = .float ⟨0⟩ :=
  @evaluates_sizeText_iff _ ⟨0⟩ (by decide) (by decide)

/-- A division by zero evaluates to what the quotient by zero may be. -/
theorem evaluates_div_zero_iff {e : Phrase} {x : Binary32} (h : ∀ value, Evaluates e value ↔ value = .float x) :
    Evaluates (.binary .div e (.constant (.float "0.0"))) value ↔ ∃ z, QuotientByZero x ⟨0⟩ z ∧ value = .float z := by
  constructor
  · intro heval
    cases heval with
    | divFloat hl hr hz =>
      cases (h _).1 hl
      cases evaluates_zero_iff.1 hr
      exact ⟨_, hz, rfl⟩
  · rintro ⟨z, hz, rfl⟩
    exact .divFloat ((h _).2 rfl) (evaluates_zero_iff.2 rfl) hz

/-- Zero divided by zero evaluates to all that is not a number, and to nothing else. -/
theorem evaluates_nan_iff : Evaluates (.binary .div (.constant (.float "0.0")) (.constant (.float "0.0"))) value ↔
    ∃ z : Binary32, z.isNaN = true ∧ value = .float z := by
  rw [evaluates_div_zero_iff fun _ => evaluates_zero_iff]
  have hquotient : ∀ z, QuotientByZero ⟨0⟩ ⟨0⟩ z ↔ z.isNaN = true := fun z => by
    simp [QuotientByZero, show (⟨0⟩ : Binary32).magnitude = 0 by decide, show (⟨0⟩ : Binary32).isNaN = false by decide]
  simp only [hquotient]

/-- An infinite number is determined by its sign. -/
theorem evaluates_infinite_iff {x : Binary32} (h : x.isInfinite = true) :
    Evaluates (.binary .div (signed x.isNegative (.float "1.0")) (.constant (.float "0.0"))) value ↔ value = .float x := by
  obtain ⟨one, hone, hnan, hsize, hsign⟩ : ∃ one : Binary32,
      (∀ value, Evaluates (signed x.isNegative (.float "1.0")) value ↔ value = .float one) ∧ one.isNaN = false ∧
        one.magnitude ≠ 0 ∧ one.isNegative = x.isNegative := by
    cases x.isNegative with
    | false => exact ⟨⟨0x3f800000⟩, fun _ => @evaluates_sizeText_iff _ ⟨0x3f800000⟩ (by decide) (by decide), by decide⟩
    | true => exact ⟨⟨0xbf800000⟩, fun _ => @evaluates_sizeText_iff _ ⟨0xbf800000⟩ (by decide) (by decide), by decide⟩
  rw [evaluates_div_zero_iff hone]
  constructor
  · rintro ⟨z, ⟨-, -, hz⟩, rfl⟩
    rw [if_neg hsize] at hz
    have hpattern : z.pattern = x.pattern := by rw [(Binary32.isInfinite_iff z).1 hz.1, (Binary32.isInfinite_iff x).1 h]
    have hsigns : z.isNegative = x.isNegative := by simpa [hsign, show (⟨0⟩ : Binary32).isNegative = false by decide] using hz.2
    rw [Binary32.eq_of_pattern hpattern hsigns]
  · rintro rfl
    refine ⟨x, ⟨hnan, by decide, ?_⟩, rfl⟩
    rw [if_neg hsize]
    exact ⟨h, by simp [hsign, show (⟨0⟩ : Binary32).isNegative = false by decide]⟩

end Values

/-- To agree with a value that is a number is to be equal to it. -/
theorem agrees_iff_eq {value value' : Literal} (h : ∀ x, value = .float x → x.isNaN = false) :
    Agrees value value' ↔ value' = value := by
  constructor
  · rintro (rfl | ⟨x, _, hx, -, hnan, -⟩)
    · rfl
    · rw [h x hx] at hnan
      cases hnan
  · rintro rfl
    exact .inl rfl

/-- The constant expression of a literal has its value and no other. -/
theorem evaluates_constantOf_iff (value value' : Literal) : Evaluates (constantOf value) value' ↔ Agrees value value' := by
  cases value with
  | bool value =>
    rw [agrees_iff_eq fun _ hx => by cases hx]
    constructor
    · rintro ⟨⟩
      rfl
    · rintro rfl
      exact .bool value
  | int value =>
    rw [agrees_iff_eq (fun _ hx => by cases hx), constantOf]
    split
    · rename_i hleast
      rw [hleast]
      exact evaluates_least_iff
    · rename_i hleast
      have hvalue : (if decide (value.toInt < 0) = true then -(value.toInt.natAbs : Int) else value.toInt.natAbs) =
          value.toInt := by
        split
        · rename_i hneg
          have := of_decide_eq_true hneg
          omega
        · rename_i hpos
          have := mt decide_eq_true hpos
          omega
      rw [evaluates_signed_int_iff _ (natAbs_lt_of_ne_minValue hleast), hvalue, Int32.ofInt_toInt]
  | uint value =>
    rw [agrees_iff_eq fun _ hx => by cases hx]
    constructor
    · rintro ⟨⟩
      rw [UInt32.ofNat_toNat]
    · rintro rfl
      have hvalue := Evaluates.uint value.toNat_lt
      rwa [UInt32.ofNat_toNat] at hvalue
  | float x =>
    rw [constantOf]
    split
    · rename_i hnan
      rw [evaluates_nan_iff]
      constructor
      · rintro ⟨z, hz, rfl⟩
        exact .inr ⟨x, z, rfl, rfl, hnan, hz⟩
      · rintro (rfl | ⟨_, z, -, rfl, -, hz⟩)
        · exact ⟨x, hnan, rfl⟩
        · exact ⟨z, hz, rfl⟩
    · rename_i hnan
      have hnumber : x.isNaN = false := Bool.eq_false_iff.2 hnan
      rw [agrees_iff_eq fun y hy => by cases hy; exact hnumber]
      split
      · rename_i hinfinite
        exact evaluates_infinite_iff hinfinite
      · rename_i hinfinite
        exact evaluates_sizeText_iff hnumber (Bool.eq_false_iff.2 hinfinite)

/-! ## Constants among the tokens -/

mutual

/-- The constants of an operator tree, from left to right. -/
def Phrase.constants : Phrase → List Constant
  | .name _ => []
  | .constant value => [value]
  | .field object _ => object.constants
  | .unary _ operand => operand.constants
  | .binary _ left right => left.constants ++ right.constants
  | .call _ arguments => constantsAll arguments

def Phrase.constantsAll : List Phrase → List Constant
  | [] => []
  | e :: es => e.constants ++ constantsAll es

end

def Token.constant? : Token → Option Constant
  | .constant value => some value
  | _ => none

/-- The constants of a row of tokens are those of the tree that it stands for. -/
theorem Derives.constants {category : Category} {tokens : List Token} {es : List Phrase} (h : Derives category tokens es) :
    tokens.filterMap Token.constant? = Phrase.constantsAll es := by
  induction h <;> simp_all [List.filterMap_cons, Token.constant?, Phrase.constants, Phrase.constantsAll]

/-- The constants among the tokens of a literal are those of the phrase it is read as. -/
theorem constant_mem_constantOf {value : Literal} {tokens : List Token} (h : lex (literalText value) = some tokens)
    {constant : Constant} (hmem : .constant constant ∈ tokens) : constant ∈ (constantOf value).constants := by
  obtain ⟨tokens', hspelled, hderives⟩ := written_literal value
  rw [lex_of_spelled hspelled] at h
  cases h
  have hconstants := hderives.constants
  rw [Phrase.constantsAll, Phrase.constantsAll, List.append_nil] at hconstants
  rw [← hconstants]
  exact List.mem_filterMap.2 ⟨_, hmem, rfl⟩

/-- A signed constant has no other constant in it. -/
theorem mem_constants_signed {negative : Bool} {value constant : Constant} (h : constant ∈ (signed negative value).constants) :
    constant = value := by
  cases negative <;> exact List.mem_singleton.1 h

/-- No integer that is written is too great for a literal of the language. -/
theorem constant_le_of_mem_int {value : Int32} {m : Nat} (h : .int m ∈ (constantOf (.int value)).constants) :
    m ≤ 2147483647 := by
  rw [constantOf] at h
  split at h
  · rw [Phrase.constants, List.mem_append] at h
    rcases h with h | h
    · cases mem_constants_signed h
      exact Nat.le_refl _
    · cases List.mem_singleton.1 h
      decide
  · rename_i hleast
    cases mem_constants_signed h
    exact Nat.le_of_lt_succ (natAbs_lt_of_ne_minValue hleast)

/-! ## Literals -/

/-- Digits that are laid out have a point or an exponent. -/
theorem mark_mem_layOut (digits : List Char) (point : Int) :
    '.' ∈ Binary32.layOut digits point ∨ 'e' ∈ Binary32.layOut digits point := by
  unfold Binary32.layOut
  split
  · left
    split
    · simp
    · split <;> simp
  · exact .inr (List.mem_append_right _ List.mem_cons_self)

/-- A finite number is written with a point or an exponent. -/
theorem mark_mem_sizeText {x : Binary32} (hnan : x.isNaN = false) (hinfinite : x.isInfinite = false) :
    '.' ∈ (sizeText x).toList ∨ 'e' ∈ (sizeText x).toList := by
  rw [toList_sizeText hnan hinfinite]
  split
  · exact .inl (by decide)
  · exact mark_mem_layOut _ _

/-- The text of a literal is a constant expression that evaluates to the literal and to nothing else. No integer that is written
is too great for a literal, an unsigned one is written with its suffix, and a finite number is its sign and a numeral with a point
or an exponent which is rounded to the number's size. The other numbers are divisions by zero. -/
theorem literal_denotes_value (value : Literal) :
    (∃ e, (∀ e', Reads (literalText value) e' ↔ e' = e) ∧ ∀ value', Evaluates e value' ↔ Agrees value value') ∧
      match value with
      | .bool b => literalText value = toString b
      | .int _ => ∀ tokens m, lex (literalText value) = some tokens → .constant (.int m) ∈ tokens → m ≤ 2147483647
      | .uint n => literalText value = toString n.toNat ++ "u"
      | .float x =>
        if x.isNaN then literalText value = "(0.0 / 0.0)"
        else if x.isInfinite then literalText value = (if x.isNegative then "(-1.0 / 0.0)" else "(1.0 / 0.0)")
        else ∃ size : String, literalText value = (if x.isNegative then "-" else "") ++ size ∧
          ('.' ∈ size.toList ∨ 'e' ∈ size.toList) ∧ (∃ c ∈ size.toList.head?, Identifier.isDigit c = true) ∧
            ∀ y, RoundsTo (numeral size.toList) y ↔ y.IsUnsigned ∧ y.pattern = x.pattern := by
  have hreads := (written_literal value).reads
  refine ⟨⟨constantOf value, fun e' => ⟨fun h => reads_unique h hreads, ?_⟩, evaluates_constantOf_iff value⟩, ?_⟩
  · rintro rfl
    exact hreads
  · cases value with
    | bool b => cases b <;> rfl
    | int n => exact fun tokens m hlex hmem => constant_le_of_mem_int (constant_mem_constantOf hlex hmem)
    | uint n => rfl
    | float x =>
      simp only [literalText]
      split
      · rfl
      · rename_i hnan
        have hnumber : x.isNaN = false := Bool.eq_false_iff.2 hnan
        split
        · rfl
        · rename_i hinfinite
          have hfinite : x.isInfinite = false := Bool.eq_false_iff.2 hinfinite
          obtain ⟨digit, rest, _, htext, hdigit, -⟩ := isFloat_sizeText hnumber hfinite
          refine ⟨sizeText x, text_eq_signed hnumber, mark_mem_sizeText hnumber hfinite, ?_, ?_⟩
          · exact ⟨digit, by rw [htext]; rfl, hdigit⟩
          · exact fun y => Binary32.roundsTo_numeral_iff hnumber hfinite

end Glsl.Grammar

end ShaderTrace
