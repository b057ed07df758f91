import Mathlib.Algebra.Order.AbsoluteValue.Basic
import Mathlib.Algebra.Order.Field.Rat
import Mathlib.Order.Monotone.Basic
import Mathlib.Tactic.FieldSimp
import Mathlib.Tactic.Linarith
import Mathlib.Tactic.NormNum
import Mathlib.Tactic.Ring
import ShaderTrace.Binary32

/-!
# Rounding to the nearest number

The numbers without a sign are counted by their bit patterns, and the greater pattern is the greater number (`sizeAt_strictMono`).
So a rational is rounded to a number if it lies between the points halfway to the numbers before and after it
(`roundsTo_of_between`), and these points are the ends of the interval that a number stands for (`interval_lower`,
`interval_upper`). No rational is rounded to two numbers (`RoundsTo.unique`).
-/

namespace ShaderTrace.Binary32

/-! ## Patterns -/

/-- The bits of a number without its sign. -/
def pattern (x : Binary32) : Nat := x.bits.toNat % 2 ^ 31

/-- The size of the number with a pattern, counted in least positive numbers. -/
def sizeAt (n : Nat) : Nat := if n / 2 ^ 23 = 0 then n % 2 ^ 23 else (2 ^ 23 + n % 2 ^ 23) * 2 ^ (n / 2 ^ 23 - 1)

/-- The distance from the number with a pattern to the next one. -/
def gapAt (n : Nat) : Nat := 2 ^ (n / 2 ^ 23 - 1)

/-- The next number is larger by the gap. -/
theorem sizeAt_succ (n : Nat) : sizeAt (n + 1) = sizeAt n + gapAt n := by
  unfold sizeAt gapAt
  by_cases hcarry : n % 2 ^ 23 = 2 ^ 23 - 1
  · -- the next number is a power of two
    have hdiv : (n + 1) / 2 ^ 23 = n / 2 ^ 23 + 1 := by omega
    have hmod : (n + 1) % 2 ^ 23 = 0 := by omega
    rw [hdiv, hmod, hcarry, if_neg (Nat.succ_ne_zero _), Nat.add_sub_cancel]
    split
    · rename_i hzero
      rw [hzero]
      rfl
    · rename_i hpos
      obtain ⟨e, he⟩ := Nat.exists_eq_succ_of_ne_zero hpos
      rw [he, Nat.succ_eq_add_one, Nat.add_sub_cancel]
      ring
  · have hdiv : (n + 1) / 2 ^ 23 = n / 2 ^ 23 := by omega
    have hmod : (n + 1) % 2 ^ 23 = n % 2 ^ 23 + 1 := by omega
    rw [hdiv, hmod]
    split
    · rename_i hzero
      rw [hzero]
      rfl
    · ring

/-- A larger pattern is a larger number. -/
theorem sizeAt_strictMono : StrictMono sizeAt := by
  refine strictMono_nat_of_lt_succ fun n => ?_
  rw [sizeAt_succ]
  exact Nat.lt_add_of_pos_right (Nat.two_pow_pos _)

section Fields

variable (x : Binary32)

/-- The exponent is above the twenty-third bit of the pattern. -/
theorem exponentField_eq : x.exponentField = x.pattern / 2 ^ 23 := by
  show x.bits.toNat / 2 ^ 23 % 2 ^ 8 = x.bits.toNat % 2 ^ 31 / 2 ^ 23
  omega

/-- The fraction is below the twenty-third bit of the pattern. -/
theorem fractionField_eq : x.fractionField = x.pattern % 2 ^ 23 := by
  show x.bits.toNat % 2 ^ 23 = x.bits.toNat % 2 ^ 31 % 2 ^ 23
  omega

theorem magnitude_eq : x.magnitude = sizeAt x.pattern := by
  unfold magnitude significand gap sizeAt
  rw [exponentField_eq, fractionField_eq]
  simp only [beq_iff_eq]
  split
  · rename_i hzero
    rw [hzero]
    exact Nat.mul_one _
  · rfl

theorem gap_eq : x.gap = gapAt x.pattern := by
  rw [gap, exponentField_eq]
  rfl

/-- The sign is the highest bit. -/
theorem isNegative_iff : x.isNegative = true ↔ 2 ^ 31 ≤ x.bits.toNat := by
  rw [isNegative, decide_eq_true_eq]
  rfl

/-- Whether a number is finite, infinite or none shows in its pattern. -/
theorem isNaN_iff : x.isNaN = true ↔ 255 * 2 ^ 23 < x.pattern := by
  have hlt : x.pattern < 2 ^ 31 := Nat.mod_lt _ (Nat.two_pow_pos 31)
  rw [isNaN, exponentField_eq, fractionField_eq, Bool.and_eq_true, beq_iff_eq, bne_iff_ne]
  omega

/-- The infinite numbers have the one pattern above all finite ones. -/
theorem isInfinite_iff : x.isInfinite = true ↔ x.pattern = 255 * 2 ^ 23 := by
  have hlt : x.pattern < 2 ^ 31 := Nat.mod_lt _ (Nat.two_pow_pos 31)
  rw [isInfinite, exponentField_eq, fractionField_eq, Bool.and_eq_true, beq_iff_eq, beq_iff_eq]
  omega

/-- A number is given by its pattern and its sign. -/
theorem eq_of_pattern {x y : Binary32} (hp : x.pattern = y.pattern) (hs : x.isNegative = y.isNegative) : x = y := by
  have hiff : 2 ^ 31 ≤ x.bits.toNat ↔ 2 ^ 31 ≤ y.bits.toNat := by rw [← isNegative_iff, ← isNegative_iff, hs]
  have hx := x.bits.toNat_lt
  have hy := y.bits.toNat_lt
  have hbits : x.bits.toNat = y.bits.toNat := by
    unfold pattern at hp
    omega
  cases x
  cases y
  exact congrArg mk (UInt32.toNat_inj.1 hbits)

end Fields

/-! ## The nearest number -/

/-- Of two rationals, the lesser is the nearer one up to the point halfway between them, -/
theorem abs_sub_le_iff_le_halfway {a b q : ℚ} (h : a < b) : |q - a| ≤ |q - b| ↔ q ≤ (a + b) / 2 := by
  rw [← sq_le_sq]
  constructor <;> intro hle <;> nlinarith

/-- and the greater from there on. -/
theorem abs_sub_le_iff_halfway_le {a b q : ℚ} (h : a < b) : |q - b| ≤ |q - a| ↔ (a + b) / 2 ≤ q := by
  rw [← sq_le_sq]
  constructor <;> intro hle <;> nlinarith

/-- The size of a number. Infinity stands where the next power of two would be. -/
def size (x : Binary32) : ℚ := x.magnitude / 2 ^ 149

/-- The numbers that a numeral without a sign may stand for. -/
def IsUnsigned (x : Binary32) : Prop := x.isNegative = false ∧ x.isNaN = false

/-- The rational is rounded to the number: no other is nearer, and of two that are as near it is the one with the even pattern.
What is nearer to the place of infinity than to every finite number is rounded to infinity. -/
structure RoundsTo (q : ℚ) (x : Binary32) : Prop where
  unsigned : x.IsUnsigned
  nearest : ∀ y : Binary32, y.IsUnsigned → |q - x.size| ≤ |q - y.size|
  even : ∀ y : Binary32, y.IsUnsigned → y ≠ x → |q - y.size| = |q - x.size| → x.bits.toNat % 2 = 0

section Rounding

variable {q : ℚ} {x y : Binary32}

/-- Without a sign the pattern is the bits. -/
theorem IsUnsigned.pattern_eq (h : x.IsUnsigned) : x.pattern = x.bits.toNat := by
  have hlt : ¬2 ^ 31 ≤ x.bits.toNat := by rw [← isNegative_iff, h.1]; exact Bool.false_ne_true
  exact Nat.mod_eq_of_lt (by omega)

/-- Without a sign a number is given by its pattern. -/
theorem IsUnsigned.eq_of_pattern (h : x.IsUnsigned) (h' : y.IsUnsigned) (hp : x.pattern = y.pattern) : x = y :=
  Binary32.eq_of_pattern hp (h.1.trans h'.1.symm)

/-- Every pattern up to that of infinity is that of a number. -/
theorem exists_isUnsigned {n : Nat} (h : n ≤ 255 * 2 ^ 23) : ∃ x : Binary32, x.IsUnsigned ∧ x.pattern = n := by
  have hbits : (UInt32.ofNat n).toNat = n := UInt32.toNat_ofNat_of_lt' (by simp [UInt32.size]; omega)
  have hpattern : pattern ⟨UInt32.ofNat n⟩ = n := by
    rw [pattern, hbits]
    omega
  refine ⟨⟨UInt32.ofNat n⟩, ⟨?_, ?_⟩, hpattern⟩
  · rw [← Bool.not_eq_true, isNegative_iff, hbits]
    omega
  · rw [← Bool.not_eq_true, isNaN_iff, hpattern]
    omega

/-- Without a sign no pattern is above that of the infinite number. -/
theorem IsUnsigned.pattern_le (h : x.IsUnsigned) : x.pattern ≤ 255 * 2 ^ 23 := by
  rw [← Nat.not_lt, ← isNaN_iff, h.2]
  exact Bool.false_ne_true

/-- The order of the patterns is that of the numbers. -/
theorem size_lt_size (h : x.pattern < y.pattern) : x.size < y.size := by
  have hlt : x.magnitude < y.magnitude := by
    rw [magnitude_eq, magnitude_eq]
    exact sizeAt_strictMono h
  unfold size
  gcongr

/-- No rational is rounded to two numbers. -/
theorem RoundsTo.unique (h : RoundsTo q x) (h' : RoundsTo q y) : x = y := by
  have hdistance : |q - x.size| = |q - y.size| :=
    le_antisymm (h.nearest y h'.unsigned) (h'.nearest x h.unsigned)
  have hclose : ∀ {a b : Binary32}, RoundsTo q a → RoundsTo q b → |q - a.size| = |q - b.size| → ¬a.pattern < b.pattern := by
    intro a b ha hb heq hlt
    have hne : a ≠ b := fun hab => by rw [hab] at hlt; exact Nat.lt_irrefl _ hlt
    -- both are even, so another number lies between them, which is nearer
    have hevenA := ha.even b hb.unsigned hne.symm heq.symm
    have hevenB := hb.even a ha.unsigned hne heq
    rw [← ha.unsigned.pattern_eq] at hevenA
    rw [← hb.unsigned.pattern_eq] at hevenB
    have hbound := hb.unsigned.pattern_le
    obtain ⟨c, hc, hpattern⟩ := exists_isUnsigned (n := a.pattern + 1) (by omega)
    have hac : a.size < c.size := size_lt_size (by omega)
    have hcb : c.size < b.size := size_lt_size (by omega)
    have hnear := (abs_sub_le_iff_le_halfway hac).1 (ha.nearest c hc)
    have hhalf := (abs_sub_le_iff_halfway_le (hac.trans hcb)).1 heq.ge
    linarith
  have hle := Nat.not_lt.1 (hclose h h' hdistance)
  have hge := Nat.not_lt.1 (hclose h' h hdistance.symm)
  exact h.unsigned.eq_of_pattern h'.unsigned (Nat.le_antisymm hge hle)

/-- A number is rounded to itself. -/
theorem roundsTo_size (hx : x.IsUnsigned) : RoundsTo x.size x where
  unsigned := hx
  nearest y _ := by
    rw [sub_self, abs_zero]
    exact abs_nonneg _
  even y hy hne heq := by
    rw [sub_self, abs_zero, abs_eq_zero, sub_eq_zero] at heq
    rcases Nat.lt_trichotomy x.pattern y.pattern with hlt | hp | hlt
    · exact absurd heq (size_lt_size hlt).ne
    · exact absurd (hy.eq_of_pattern hx hp.symm) hne
    · exact absurd heq.symm (size_lt_size hlt).ne

/-! ## The interval of a number -/

/-- The gap below a number is half the one above at the powers of two, save the least of them, and the same elsewhere. -/
theorem gapAt_pred {n : Nat} (h : 0 < n) :
    2 * gapAt (n - 1) = if n % 2 ^ 23 = 0 ∧ 1 < n / 2 ^ 23 then gapAt n else 2 * gapAt n := by
  unfold gapAt
  by_cases hpower : n % 2 ^ 23 = 0
  · have hdiv : (n - 1) / 2 ^ 23 = n / 2 ^ 23 - 1 := by omega
    rw [hdiv]
    split
    · rename_i hnarrow
      obtain ⟨e, he⟩ : ∃ e, n / 2 ^ 23 = e + 2 := ⟨n / 2 ^ 23 - 2, by omega⟩
      rw [he, show e + 2 - 1 - 1 = e by omega, show e + 2 - 1 = e + 1 by omega, Nat.pow_succ, Nat.mul_comm]
    · rename_i hwide
      rw [show n / 2 ^ 23 - 1 - 1 = n / 2 ^ 23 - 1 by omega]
  · have hdiv : (n - 1) / 2 ^ 23 = n / 2 ^ 23 := by omega
    rw [hdiv, if_neg fun h => hpower h.1]

/-- What is not zero has a pattern that is not zero. -/
theorem pattern_pos (h : x.magnitude ≠ 0) : 0 < x.pattern := by
  refine Nat.pos_of_ne_zero fun hzero => h ?_
  rw [magnitude_eq, hzero]
  rfl

/-- The interval of a number begins halfway to the number before it. -/
theorem interval_lower (h : x.magnitude ≠ 0) : x.interval.lower = 2 * (sizeAt (x.pattern - 1) + sizeAt x.pattern) := by
  have hpos := pattern_pos h
  have hstep := sizeAt_succ (x.pattern - 1)
  rw [Nat.sub_add_cancel hpos] at hstep
  have hgap : 2 * gapAt (x.pattern - 1) = if x.isNarrowBelow then x.gap else 2 * x.gap := by
    rw [gapAt_pred hpos, gap_eq, isNarrowBelow, exponentField_eq, fractionField_eq]
    simp only [Bool.and_eq_true, beq_iff_eq, decide_eq_true_eq]
  show 4 * x.magnitude - (if x.isNarrowBelow then x.gap else 2 * x.gap) = _
  rw [← hgap, magnitude_eq]
  omega

/-- It ends halfway to the number after it. -/
theorem interval_upper : x.interval.upper = 2 * (sizeAt x.pattern + sizeAt (x.pattern + 1)) := by
  show 4 * x.magnitude + 2 * x.gap = _
  rw [sizeAt_succ, magnitude_eq, gap_eq]
  omega

/-- The ends of the interval round to the number exactly if its pattern is even. -/
theorem interval_closed : x.interval.closed = true ↔ x.pattern % 2 = 0 := by
  show (x.significand % 2 == 0) = true ↔ _
  rw [beq_iff_eq, significand, exponentField_eq, fractionField_eq]
  split
  · omega
  · show (2 ^ 23 + x.pattern % 2 ^ 23) % 2 = 0 ↔ _
    omega

/-- What lies between the points halfway to the numbers before and after is rounded to a number, the points themselves if its
pattern is even. -/
theorem roundsTo_of_between (hx : x.IsUnsigned) (hlower : ((sizeAt (x.pattern - 1) + sizeAt x.pattern : Nat) : ℚ) / 2 ^ 150 ≤ q)
    (hupper : q ≤ ((sizeAt x.pattern + sizeAt (x.pattern + 1) : Nat) : ℚ) / 2 ^ 150)
    (hopen : x.pattern % 2 ≠ 0 → ((sizeAt (x.pattern - 1) + sizeAt x.pattern : Nat) : ℚ) / 2 ^ 150 < q ∧
      q < ((sizeAt x.pattern + sizeAt (x.pattern + 1) : Nat) : ℚ) / 2 ^ 150) : RoundsTo q x := by
  have hsize : ∀ n : Nat, ((sizeAt n + sizeAt x.pattern : Nat) : ℚ) / 2 ^ 150 = ((sizeAt n : ℚ) / 2 ^ 149 + x.size) / 2 := by
    intro n
    rw [size, magnitude_eq]
    push_cast
    ring
  rw [Nat.add_comm (sizeAt x.pattern), hsize] at hupper hopen
  rw [hsize] at hlower hopen
  -- the other numbers lie beyond the two neighbours
  have hbeyond : ∀ y : Binary32, y.IsUnsigned → y ≠ x →
      y.size ≤ (sizeAt (x.pattern - 1) : ℚ) / 2 ^ 149 ∧ y.size < x.size ∨
        (sizeAt (x.pattern + 1) : ℚ) / 2 ^ 149 ≤ y.size ∧ x.size < y.size := by
    intro y hy hne
    rw [size, magnitude_eq]
    rcases Nat.lt_trichotomy y.pattern x.pattern with hlt | hp | hlt
    · have hle : sizeAt y.pattern ≤ sizeAt (x.pattern - 1) := sizeAt_strictMono.monotone (by omega)
      exact .inl ⟨by gcongr, by rw [← magnitude_eq]; exact size_lt_size hlt⟩
    · exact absurd (hy.eq_of_pattern hx hp) hne
    · have hle : sizeAt (x.pattern + 1) ≤ sizeAt y.pattern := sizeAt_strictMono.monotone hlt
      exact .inr ⟨by gcongr, by rw [← magnitude_eq]; exact size_lt_size hlt⟩
  refine ⟨hx, fun y hy => ?_, fun y hy hne heq => ?_⟩
  · by_cases hne : y = x
    · rw [hne]
    · rcases hbeyond y hy hne with ⟨hfar, hlt⟩ | ⟨hfar, hlt⟩
      · rw [abs_sub_le_iff_halfway_le hlt]
        linarith
      · rw [abs_sub_le_iff_le_halfway hlt]
        linarith
  · rw [← hx.pattern_eq]
    by_contra hodd
    obtain ⟨hlower, hupper⟩ := hopen hodd
    rcases hbeyond y hy hne with ⟨hfar, hlt⟩ | ⟨hfar, hlt⟩
    · have hhalf := (abs_sub_le_iff_le_halfway hlt).1 heq.le
      linarith
    · have hhalf := (abs_sub_le_iff_halfway_le hlt).1 heq.le
      linarith

end Rounding

end ShaderTrace.Binary32
