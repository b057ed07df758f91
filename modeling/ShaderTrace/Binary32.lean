import ShaderTrace.Decimal

/-!
# Binary floating-point numbers of 32 bits

A number is its bit pattern: sign, eight bits of exponent, 23 bits of fraction. Every finite number is a natural
multiple of the least positive one, up to its sign, and the text of a number is the shortest decimal that rounds to it.
-/

namespace ShaderTrace

structure Binary32 where
  bits : UInt32
deriving DecidableEq, Repr

namespace Binary32

def isNegative (x : Binary32) : Bool := Nat.pow 2 31 ≤ x.bits.toNat

def exponentField (x : Binary32) : Nat := x.bits.toNat / Nat.pow 2 23 % Nat.pow 2 8

def fractionField (x : Binary32) : Nat := x.bits.toNat % Nat.pow 2 23

def isNaN (x : Binary32) : Bool := x.exponentField == 255 && x.fractionField != 0

def isInfinite (x : Binary32) : Bool := x.exponentField == 255 && x.fractionField == 0

/-- The fraction with its leading one, which the numbers next to zero lack. -/
def significand (x : Binary32) : Nat :=
  if x.exponentField == 0 then x.fractionField else Nat.pow 2 23 + x.fractionField

/-- The distance to the next greater number, counted in least positive numbers. -/
def gap (x : Binary32) : Nat := Nat.pow 2 (x.exponentField - 1)

/-- The size of a finite number, counted in least positive numbers. -/
def magnitude (x : Binary32) : Nat := x.significand * x.gap

/-- The number below is half as far away as the number above: so it is at every power of two but the least ones. -/
def isNarrowBelow (x : Binary32) : Bool := x.fractionField == 0 && 1 < x.exponentField

/-- The reals that round to a number other than zero, sign left out: they reach halfway to the neighbours on both sides,
and an even number takes the halfway points themselves. The least positive number is `1 / 2 ^ 149`, and a quarter of it
measures everything here. -/
def interval (x : Binary32) : Interval where
  value := 4 * x.magnitude
  lower := 4 * x.magnitude - (if x.isNarrowBelow then x.gap else 2 * x.gap)
  upper := 4 * x.magnitude + 2 * x.gap
  denominator := Nat.pow 2 151
  closed := x.significand % 2 == 0

/-- The shortest decimal of the size of a finite number other than zero. -/
def decimal (x : Binary32) : Decimal := x.interval.shortest 38 84 9

/-- Digits with the point after the first `point` of them, positionally while the number is at least `0.0001` and less
than `10 ^ 16`, and with an exponent beyond. At least one digit follows a point. -/
def layOut (digits : List Char) (point : Int) : List Char :=
  if -3 ≤ point ∧ point ≤ 16 then
    if point ≤ 0 then "0.".toList ++ List.replicate (-point).toNat '0' ++ digits
    else if digits.length ≤ point then digits ++ List.replicate (point - digits.length).toNat '0' ++ ".0".toList
    else digits.take point.toNat ++ '.' :: digits.drop point.toNat
  else
    let coefficient := match digits with
      | first :: next :: rest => first :: '.' :: next :: rest
      | _ => digits
    coefficient ++ 'e' :: (toString (point - 1)).toList

/-- The text of a number. A number that is not a number has no sign, zero has one. -/
def chars (x : Binary32) : List Char :=
  if x.isNaN then "NaN".toList
  else
    let size :=
      if x.isInfinite then "inf".toList
      else if x.magnitude == 0 then "0.0".toList
      else layOut x.decimal.written.1 x.decimal.written.2
    if x.isNegative then '-' :: size else size

def text (x : Binary32) : String := String.ofList x.chars

end Binary32

end ShaderTrace
