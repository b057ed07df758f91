import ShaderTrace.Proofs.Rounding
import ShaderTrace.Proofs.Text.Written

/-!
# Decimals that are read back

What a decimal numeral stands for (`numeral`), and that the numeral of a number stands for a rational in the interval of the
number: the decimal is sought in the interval, or it is the number itself, and laying its digits out keeps its value. So the
numeral of every finite number is rounded to the number (`roundsTo_numeral_iff`).
-/

namespace ShaderTrace

/-! ## Decimals as rationals -/

namespace Decimal

def value (decimal : Decimal) : ℚ := decimal.digits * 10 ^ decimal.exponent

/-- The value of a decimal without its denominator. -/
theorem value_mul (decimal : Decimal) :
    decimal.value * 10 ^ (-decimal.exponent).toNat = decimal.digits * 10 ^ decimal.exponent.toNat := by
  have hexponent : decimal.exponent + ((-decimal.exponent).toNat : ℤ) = (decimal.exponent.toNat : ℤ) := by omega
  rw [value, mul_assoc, ← zpow_natCast (10 : ℚ) (-decimal.exponent).toNat, ← zpow_add₀ (by norm_num), hexponent, zpow_natCast]

/-- A decimal is compared with a fraction as a rational. -/
theorem compareFraction_eq (decimal : Decimal) (numerator : Nat) {denominator : Nat} (h : 0 < denominator) :
    decimal.compareFraction numerator denominator = compare decimal.value (numerator / denominator) := by
  have hpow : (0 : ℚ) < 10 ^ (-decimal.exponent).toNat := by positivity
  have hden : (0 : ℚ) < denominator := by exact_mod_cast h
  have hscale : ∀ a b : ℚ, a < b ↔
      a * denominator * 10 ^ (-decimal.exponent).toNat < b * denominator * 10 ^ (-decimal.exponent).toNat := by
    intro a b
    rw [mul_lt_mul_iff_left₀ hpow, mul_lt_mul_iff_left₀ hden]
  have hleft : ((decimal.digits * Nat.pow 10 decimal.exponent.toNat * denominator : Nat) : ℚ) =
      decimal.value * denominator * 10 ^ (-decimal.exponent).toNat := by
    rw [mul_right_comm decimal.value, value_mul]
    push_cast [Nat.pow_eq]
    rfl
  have hright : ((numerator * Nat.pow 10 (-decimal.exponent).toNat : Nat) : ℚ) =
      numerator / denominator * denominator * 10 ^ (-decimal.exponent).toNat := by
    rw [div_mul_cancel₀ _ hden.ne']
    push_cast [Nat.pow_eq]
    rfl
  rw [compareFraction]
  rcases lt_trichotomy decimal.value (numerator / denominator) with hlt | heq | hgt
  · rw [compare_lt_iff_lt.2 hlt, compare_lt_iff_lt]
    rw [hscale, ← hleft, ← hright] at hlt
    exact_mod_cast hlt
  · rw [compare_eq_iff_eq.2 heq, compare_eq_iff_eq]
    rw [heq, ← hright] at hleft
    exact_mod_cast hleft
  · rw [compare_gt_iff_gt.2 hgt, compare_gt_iff_gt]
    rw [hscale, ← hleft, ← hright] at hgt
    exact_mod_cast hgt

end Decimal

namespace Interval

/-- The rational lies in the interval. -/
def Has (interval : Interval) (q : ℚ) : Prop :=
  (interval.lower / interval.denominator ≤ q ∧ q ≤ interval.upper / interval.denominator) ∧
    (interval.closed = false → interval.lower / interval.denominator < q ∧ q < interval.upper / interval.denominator)

/-- A decimal that passes the test of the interval lies in it. -/
theorem has_of_holds {interval : Interval} {decimal : Decimal} (hden : 0 < interval.denominator)
    (h : interval.holds decimal = true) : interval.Has decimal.value := by
  unfold holds at h
  simp only [decimal.compareFraction_eq _ hden, Bool.and_eq_true, Bool.or_eq_true, beq_iff_eq, compare_gt_iff_gt,
    compare_lt_iff_lt, compare_eq_iff_eq] at h
  obtain ⟨hlower, hupper⟩ := h
  refine ⟨⟨?_, ?_⟩, fun hopen => ⟨?_, ?_⟩⟩
  · exact hlower.elim le_of_lt fun heq => heq.2.ge
  · exact hupper.elim le_of_lt fun heq => heq.2.le
  · exact hlower.elim id fun heq => by rw [hopen] at heq; cases heq.1
  · exact hupper.elim id fun heq => by rw [hopen] at heq; cases heq.1

/-- The shortest decimal lies in the interval; so does the exact one, which stands in for it. -/
theorem has_shortest {interval : Interval} {places : Nat} (hden : interval.denominator = 2 ^ places)
    (hlower : interval.lower < interval.value) (hupper : interval.value < interval.upper) (highest : Int) (range digits : Nat) :
    interval.Has (interval.shortest highest range digits).value := by
  have hpos : 0 < interval.denominator := by
    rw [hden]
    exact Nat.two_pow_pos places
  unfold shortest
  simp only
  cases hfound : (List.range digits).findSome? fun (i : Nat) =>
      interval.nearest? (interval.leadingExponent highest range - i) with
  | some found =>
    obtain ⟨_, -, hnearest⟩ := List.exists_of_findSome?_eq_some hfound
    exact has_of_holds hpos (holds_of_nearest? hnearest)
  | none =>
    have hexact : Decimal.value ⟨interval.value * Nat.pow 5 interval.denominator.log2, -interval.denominator.log2⟩ =
        interval.value / interval.denominator := by
      have hten : (10 : ℚ) ^ places = 5 ^ places * 2 ^ places := by
        rw [← mul_pow]
        norm_num
      rw [Decimal.value, hden, Nat.log2_two_pow, zpow_neg, zpow_natCast, hten]
      push_cast [Nat.pow_eq]
      field_simp
    have hrational : (0 : ℚ) < interval.denominator := by exact_mod_cast hpos
    have hbelow : (interval.lower : ℚ) / interval.denominator < interval.value / interval.denominator := by
      gcongr
    have habove : (interval.value : ℚ) / interval.denominator < interval.upper / interval.denominator := by
      gcongr
    rw [Option.getD_none, hexact]
    exact ⟨⟨hbelow.le, habove.le⟩, fun _ => ⟨hbelow, habove⟩⟩

end Interval

namespace Binary32

/-- The decimal of a finite number is rounded to the number. -/
theorem roundsTo_decimal {x : Binary32} (hx : x.IsUnsigned) (h : x.magnitude ≠ 0) : RoundsTo x.decimal.value x := by
  have hgap : 0 < x.gap := Nat.two_pow_pos _
  have hlower : x.interval.lower < x.interval.value := by
    have hmagnitude := Nat.pos_of_ne_zero h
    show 4 * x.magnitude - (if x.isNarrowBelow then x.gap else 2 * x.gap) < 4 * x.magnitude
    split <;> omega
  have hupper : x.interval.value < x.interval.upper := by
    show 4 * x.magnitude < 4 * x.magnitude + 2 * x.gap
    omega
  have hhas : x.interval.Has x.decimal.value := @Interval.has_shortest _ 151 rfl hlower hupper 38 84 9
  have hden : (x.interval.denominator : ℚ) = 2 ^ 151 := by
    show ((Nat.pow 2 151 : Nat) : ℚ) = _
    norm_num
  have hhalf : ∀ n : Nat, ((2 * n : Nat) : ℚ) / 2 ^ 151 = (n : ℚ) / 2 ^ 150 := by
    intro n
    push_cast
    ring
  unfold Interval.Has at hhas
  rw [interval_lower h, interval_upper, hden, hhalf, hhalf] at hhas
  obtain ⟨⟨hle, hge⟩, hopen⟩ := hhas
  refine roundsTo_of_between hx hle hge fun hodd => hopen ?_
  rw [← Bool.not_eq_true, interval_closed]
  exact hodd

end Binary32

/-! ## Numerals -/

/-- The exponent that is written after its letter, with or without a sign. -/
def writtenExponent : List Char → ℤ
  | '-' :: digits => -(Nat.ofDigitChars 10 digits 0 : ℤ)
  | '+' :: digits => Nat.ofDigitChars 10 digits 0
  | digits => Nat.ofDigitChars 10 digits 0

/-- The rational that a numeral stands for: digits with a point among them, and perhaps an exponent. -/
def numeral (text : List Char) : ℚ :=
  let coefficient := text.takeWhile (· != 'e')
  let fraction := (coefficient.dropWhile (· != '.')).tail
  Nat.ofDigitChars 10 (coefficient.takeWhile (· != '.') ++ fraction) 0 *
    10 ^ (writtenExponent (text.dropWhile (· != 'e')).tail - fraction.length)

open Identifier (isDigit)

/-- Neither the point nor the letter of the exponent is a digit. -/
theorem ne_of_isDigit {c : Char} (h : isDigit c = true) : (c != 'e') = true ∧ (c != '.') = true ∧ c ≠ '-' ∧ c ≠ '+' := by
  refine ⟨bne_iff_ne.2 ?_, bne_iff_ne.2 ?_, ?_, ?_⟩ <;>
  · rintro rfl
    exact absurd h (by decide)

/-- An exponent of digits is their number. -/
theorem writtenExponent_digits {digits : List Char} (h : ∀ c ∈ digits, isDigit c = true) :
    writtenExponent digits = Nat.ofDigitChars 10 digits 0 := by
  unfold writtenExponent
  split
  · exact absurd rfl (ne_of_isDigit (h '-' List.mem_cons_self)).2.2.1
  · exact absurd rfl (ne_of_isDigit (h '+' List.mem_cons_self)).2.2.2
  · rfl

/-- An exponent is read back from how it is written. -/
theorem writtenExponent_toString (exponent : ℤ) : writtenExponent (toString exponent).toList = exponent := by
  have hdigits : ∀ n : Nat, ∀ c ∈ Nat.toDigits 10 n, isDigit c = true := fun n c => Glsl.isDigit_of_mem_toDigits
  cases exponent with
  | ofNat n =>
    have htext : (toString (Int.ofNat n)).toList = Nat.toDigits 10 n := Nat.toList_repr
    rw [htext, writtenExponent_digits (hdigits n), Nat.ofDigitChars_ten_toDigits]
    rfl
  | negSucc n =>
    have htext : (toString (Int.negSucc n)).toList = '-' :: Nat.toDigits 10 (n + 1) := by
      show ("-" ++ (n + 1).repr).toList = _
      rw [String.toList_append, Nat.toList_repr]
      rfl
    rw [htext, writtenExponent, Nat.ofDigitChars_ten_toDigits]
    rfl

section Numerals

variable {whole fraction coefficient : List Char}

/-- A numeral without an exponent. -/
theorem numeral_point (hwhole : ∀ c ∈ whole, isDigit c = true) (hfraction : ∀ c ∈ fraction, isDigit c = true) :
    numeral (whole ++ '.' :: fraction) = Nat.ofDigitChars 10 (whole ++ fraction) 0 * 10 ^ (-(fraction.length : ℤ)) := by
  have hmark : ∀ c ∈ whole ++ '.' :: fraction, (c != 'e') = true := by
    intro c hc
    rcases List.mem_append.1 hc with hc | hc
    · exact (ne_of_isDigit (hwhole c hc)).1
    · rcases List.mem_cons.1 hc with rfl | hc
      · rfl
      · exact (ne_of_isDigit (hfraction c hc)).1
  have hpoint : ∀ c ∈ whole, (c != '.') = true := fun c hc => (ne_of_isDigit (hwhole c hc)).2.1
  rw [numeral, List.takeWhile_eq_self_iff.2 hmark, List.dropWhile_eq_nil_iff.2 hmark, List.takeWhile_append_of_pos hpoint,
    List.dropWhile_append_of_pos hpoint]
  simp [writtenExponent]

/-- A numeral of digits is their number. -/
theorem numeral_digits (hwhole : ∀ c ∈ whole, isDigit c = true) : numeral whole = Nat.ofDigitChars 10 whole 0 := by
  have hmark : ∀ c ∈ whole, (c != 'e') = true := fun c hc => (ne_of_isDigit (hwhole c hc)).1
  have hpoint : ∀ c ∈ whole, (c != '.') = true := fun c hc => (ne_of_isDigit (hwhole c hc)).2.1
  rw [numeral, List.takeWhile_eq_self_iff.2 hmark, List.dropWhile_eq_nil_iff.2 hmark, List.takeWhile_eq_self_iff.2 hpoint,
    List.dropWhile_eq_nil_iff.2 hpoint]
  simp [writtenExponent]

/-- An exponent moves the point. -/
theorem numeral_power (h : ∀ c ∈ coefficient, (c != 'e') = true) (exponent : ℤ) :
    numeral (coefficient ++ 'e' :: (toString exponent).toList) = numeral coefficient * 10 ^ exponent := by
  have hnone : writtenExponent [].tail = 0 := rfl
  rw [numeral, numeral, List.takeWhile_append_of_pos h, List.dropWhile_append_of_pos h, List.takeWhile_eq_self_iff.2 h,
    List.dropWhile_eq_nil_iff.2 h, List.takeWhile_cons_of_neg (by decide), List.dropWhile_cons_of_neg (by decide),
    List.append_nil, List.tail_cons, writtenExponent_toString, hnone, mul_assoc, ← zpow_add₀ (by norm_num), zero_sub,
    neg_add_eq_sub]

end Numerals

section Digits

variable {digits : List Char} (hdigits : ∀ c ∈ digits, isDigit c = true)

theorem isDigit_zeros (count : Nat) : ∀ c ∈ List.replicate count '0', isDigit c = true := by
  intro c hc
  rw [List.eq_of_mem_replicate hc]
  rfl

include hdigits

/-- Zeros stand between the point and the digits. -/
theorem numeral_zeros_digits (count : Nat) :
    numeral ("0.".toList ++ List.replicate count '0' ++ digits) =
      Nat.ofDigitChars 10 digits 0 * 10 ^ (-(count + digits.length : ℤ)) := by
  have htext : "0.".toList ++ List.replicate count '0' ++ digits =
      List.replicate 1 '0' ++ '.' :: (List.replicate count '0' ++ digits) := by simp
  have hfraction : ∀ c ∈ List.replicate count '0' ++ digits, isDigit c = true := fun c hc =>
    (List.mem_append.1 hc).elim (isDigit_zeros count c) (hdigits c)
  rw [htext, numeral_point (isDigit_zeros 1) hfraction, Nat.ofDigitChars_append, Nat.ofDigitChars_append,
    Nat.ofDigitChars_replicate_zero, Nat.ofDigitChars_replicate_zero, Nat.mul_zero, List.length_append,
    List.length_replicate, Nat.cast_add]

/-- Zeros stand between the digits and the point. -/
theorem numeral_digits_zeros (count : Nat) :
    numeral (digits ++ List.replicate count '0' ++ ".0".toList) = Nat.ofDigitChars 10 digits 0 * 10 ^ (count : ℤ) := by
  have htext : digits ++ List.replicate count '0' ++ ".0".toList =
      (digits ++ List.replicate count '0') ++ '.' :: List.replicate 1 '0' := by simp
  have hwhole : ∀ c ∈ digits ++ List.replicate count '0', isDigit c = true := fun c hc =>
    (List.mem_append.1 hc).elim (hdigits c) (isDigit_zeros count c)
  rw [htext, numeral_point hwhole (isDigit_zeros 1), Nat.ofDigitChars_append, Nat.ofDigitChars_append,
    Nat.ofDigitChars_replicate_zero, Nat.ofDigitChars_replicate_zero, List.length_replicate, zpow_natCast]
  push_cast
  rw [zpow_neg_one]
  field_simp

/-- The point stands among the digits. -/
theorem numeral_take_drop (count : Nat) :
    numeral (digits.take count ++ '.' :: digits.drop count) =
      Nat.ofDigitChars 10 digits 0 * 10 ^ (-((digits.length - count : Nat) : ℤ)) := by
  have hwhole : ∀ c ∈ digits.take count, isDigit c = true := fun c hc => hdigits c (List.mem_of_mem_take hc)
  have hfraction : ∀ c ∈ digits.drop count, isDigit c = true := fun c hc => hdigits c (List.mem_of_mem_drop hc)
  rw [numeral_point hwhole hfraction, List.take_append_drop, List.length_drop]

end Digits

/-- Digits are laid out with the point after the first `point` of them, wherever that is. -/
theorem numeral_layOut {digits : List Char} (hne : digits ≠ []) (hdigits : ∀ c ∈ digits, isDigit c = true) (point : ℤ) :
    numeral (Binary32.layOut digits point) = Nat.ofDigitChars 10 digits 0 * 10 ^ (point - digits.length) := by
  unfold Binary32.layOut
  split
  · split
    · rw [numeral_zeros_digits hdigits, show -(((-point).toNat : ℤ) + digits.length) = point - digits.length by omega]
    · split
      · rw [numeral_digits_zeros hdigits, Int.toNat_of_nonneg (by omega)]
      · rw [numeral_take_drop hdigits, show -((digits.length - point.toNat : Nat) : ℤ) = point - digits.length by omega]
  · have hmark : ∀ c ∈ digits, (c != 'e') = true := fun c hc => (ne_of_isDigit (hdigits c hc)).1
    obtain ⟨first, rest, rfl⟩ := List.exists_cons_of_ne_nil hne
    cases rest with
    | nil =>
      rw [numeral_power hmark, numeral_digits hdigits]
      rfl
    | cons next rest =>
      have hcoefficient : ∀ c ∈ first :: '.' :: next :: rest, (c != 'e') = true := by
        intro c hc
        rcases List.mem_cons.1 hc with rfl | hc
        · exact hmark c List.mem_cons_self
        · rcases List.mem_cons.1 hc with rfl | hc
          · rfl
          · exact hmark c (List.mem_cons_of_mem first hc)
      -- the point stands after the first digit
      have hpoint := numeral_take_drop hdigits 1
      rw [List.take_succ_cons, List.take_zero, List.drop_succ_cons, List.drop_zero, List.singleton_append] at hpoint
      rw [numeral_power hcoefficient, hpoint, mul_assoc, ← zpow_add₀ (by norm_num),
        show -(((first :: next :: rest).length - 1 : Nat) : ℤ) + (point - 1) = point - (first :: next :: rest).length by
          simp only [List.length_cons]
          omega]

/-- The digits that are written, and the place of their point, keep the value. -/
theorem Decimal.value_written (decimal : Decimal) :
    (Nat.ofDigitChars 10 decimal.written.1 0 : ℚ) * 10 ^ (decimal.written.2 - decimal.written.1.length) = decimal.value := by
  obtain ⟨count, hall⟩ : ∃ count, Nat.toDigits 10 decimal.digits = decimal.written.1 ++ List.replicate count '0' := by
    have hsplit := @List.takeWhile_append_dropWhile _ (· == '0') (Nat.toDigits 10 decimal.digits).reverse
    have hzeros : ∀ c ∈ (Nat.toDigits 10 decimal.digits).reverse.takeWhile (· == '0'), c = '0' := by
      intro c hc
      have hzero := List.mem_takeWhile_imp hc
      exact beq_iff_eq.1 hzero
    rw [List.eq_replicate_of_mem hzeros] at hsplit
    have hreverse := congrArg List.reverse hsplit
    rw [List.reverse_append, List.reverse_replicate, List.reverse_reverse] at hreverse
    exact ⟨_, hreverse.symm⟩
  have hpoint : decimal.written.2 - decimal.written.1.length = count + decimal.exponent := by
    show ((Nat.toDigits 10 decimal.digits).length : ℤ) + decimal.exponent - decimal.written.1.length = _
    rw [hall, List.length_append, List.length_replicate]
    push_cast
    ring
  have hdigits : decimal.digits = 10 ^ count * Nat.ofDigitChars 10 decimal.written.1 0 := by
    rw [← Nat.ofDigitChars_replicate_zero, ← Nat.ofDigitChars_append, ← hall, Nat.ofDigitChars_ten_toDigits]
  have hcast : (decimal.digits : ℚ) = 10 ^ count * Nat.ofDigitChars 10 decimal.written.1 0 := by exact_mod_cast hdigits
  rw [hpoint, value, hcast, zpow_add₀ (by norm_num), zpow_natCast]
  ring

namespace Binary32

variable {x y : Binary32}

/-- The decimal of a number does not depend on its sign. -/
theorem decimal_eq_of_pattern (h : x.pattern = y.pattern) : x.decimal = y.decimal := by
  have hexponent : x.exponentField = y.exponentField := by rw [exponentField_eq, exponentField_eq, h]
  have hfraction : x.fractionField = y.fractionField := by rw [fractionField_eq, fractionField_eq, h]
  unfold decimal interval magnitude significand gap isNarrowBelow
  rw [hexponent, hfraction]

/-- The numeral of a finite number is rounded to the number without its sign, and to no other. -/
theorem roundsTo_numeral_iff (hnan : x.isNaN = false) (hinfinite : x.isInfinite = false) :
    RoundsTo (numeral (Glsl.Grammar.sizeText x).toList) y ↔ y.IsUnsigned ∧ y.pattern = x.pattern := by
  have hbound : x.pattern ≤ 255 * 2 ^ 23 := by
    rw [← Nat.not_lt, ← isNaN_iff, hnan]
    exact Bool.false_ne_true
  obtain ⟨u, hu, hpattern⟩ := exists_isUnsigned hbound
  have hmagnitude : u.magnitude = x.magnitude := by rw [magnitude_eq, magnitude_eq, hpattern]
  have hrounds : RoundsTo (numeral (Glsl.Grammar.sizeText x).toList) u := by
    rw [Glsl.Grammar.toList_sizeText hnan hinfinite]
    split
    · rename_i hzero
      have hnumeral : numeral "0.0".toList = u.size := by
        rw [size, hmagnitude, hzero, Nat.cast_zero, zero_div]
        exact (numeral_digits_zeros (isDigit_zeros 1) 0).trans (zero_mul _)
      rw [hnumeral]
      exact roundsTo_size hu
    · rename_i hne
      rw [numeral_layOut (Decimal.written_ne_nil (digits_decimal_pos hne)) fun c hc => Decimal.isDigit_written hc,
        Decimal.value_written, ← decimal_eq_of_pattern hpattern]
      exact roundsTo_decimal hu (hmagnitude ▸ hne)
  constructor
  · intro hy
    rw [hy.unique hrounds]
    exact ⟨hu, hpattern⟩
  · rintro ⟨hy, hp⟩
    rwa [hy.eq_of_pattern hu (hp.trans hpattern.symm)]

end Binary32

end ShaderTrace
