/-!
# Shortest decimals

A number that stands for an interval of reals is written by the decimal of the fewest digits inside the interval, and of
those by the one nearest to the number. The search works on naturals over a common denominator, so nothing is rounded
on the way.
-/

namespace ShaderTrace

/-- The decimal `digits * 10 ^ exponent`. -/
structure Decimal where
  digits : Nat
  exponent : Int
deriving DecidableEq, Repr

/-- A positive number with the interval of reals that it stands for, all over one denominator. The two ends belong to the
interval if it is `closed`. -/
structure Interval where
  value : Nat
  lower : Nat
  upper : Nat
  denominator : Nat
  closed : Bool
deriving Repr

namespace Decimal

/-- Compares a decimal with the fraction `numerator / denominator`. -/
def compareFraction (decimal : Decimal) (numerator denominator : Nat) : Ordering :=
  compare (decimal.digits * Nat.pow 10 decimal.exponent.toNat * denominator)
    (numerator * Nat.pow 10 (-decimal.exponent).toNat)

/-- The digits that are written, without zeros at the end, and the place of the point counted from their left end. -/
def written (decimal : Decimal) : List Char × Int :=
  let all := Nat.toDigits 10 decimal.digits
  ((all.reverse.dropWhile (· == '0')).reverse, all.length + decimal.exponent)

end Decimal

namespace Interval

/-- The decimal lies in the interval. -/
def holds (interval : Interval) (decimal : Decimal) : Bool :=
  let below := decimal.compareFraction interval.lower interval.denominator
  let above := decimal.compareFraction interval.upper interval.denominator
  (below == .gt || interval.closed && below == .eq) && (above == .lt || interval.closed && above == .eq)

/-- How many whole units of `10 ^ exponent` the number holds. -/
def wholeUnits (interval : Interval) (exponent : Int) : Nat :=
  interval.value * Nat.pow 10 (-exponent).toNat / (interval.denominator * Nat.pow 10 exponent.toNat)

/-- The exponent of the leading digit, sought from `highest` downwards over `range` exponents. -/
def leadingExponent (interval : Interval) (highest : Int) (range : Nat) : Int :=
  (((List.range range).map fun (i : Nat) => highest - i).find? fun e => 0 < interval.wholeUnits e).getD
    (highest - range)

/-- The multiple of `10 ^ exponent` in the interval that is nearest to the number; the greater of two equally near. -/
def nearest? (interval : Interval) (exponent : Int) : Option Decimal :=
  let units := interval.wholeUnits exponent
  let below : Decimal := ⟨units, exponent⟩
  let above : Decimal := ⟨units + 1, exponent⟩
  -- the point halfway between the two neighbours, doubled
  let halfway : Decimal := ⟨2 * units + 1, exponent⟩
  match interval.holds below, interval.holds above with
  | true, true =>
    if halfway.compareFraction (2 * interval.value) interval.denominator == .gt then some below else some above
  | true, false => some below
  | false, true => some above
  | false, false => none

/-- The decimal of the fewest digits, at most `places` of them, that lies in the interval. A number with denominator
`2 ^ n` has an exact decimal, which stands in if there is none. -/
def shortest (interval : Interval) (highest : Int) (range places : Nat) : Decimal :=
  let leading := interval.leadingExponent highest range
  let exact : Decimal :=
    ⟨interval.value * Nat.pow 5 interval.denominator.log2, -interval.denominator.log2⟩
  ((List.range places).findSome? fun (i : Nat) => interval.nearest? (leading - i)).getD exact

end Interval

end ShaderTrace
