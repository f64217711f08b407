import Scenario.Number.Basic

/-!
# Rounding to the nearest number

The number nearest to a quotient of naturals, and nearest to a decimal `digits * 10 ^ exponent`.
Half-way cases go to the even neighbour, and what lies beyond the largest number is infinite.
-/

namespace Scenario.Number

/-- The quotient rounded to the nearest natural number, a half going to the even neighbour. -/
def roundDiv (num den : Nat) : Nat :=
  let q := num / den
  let r := num % den
  if 2 * r < den then q
  else if den < 2 * r then q + 1
  else if q % 2 = 0 then q else q + 1

/-- The exponent of the power of two at or below a positive quotient. -/
def log2Div (num den : Nat) : Int :=
  let l : Int := (num.log2 : Int) - den.log2
  if den * Nat.pow 2 l.toNat ≤ num * Nat.pow 2 (-l).toNat then l else l - 1

/-- The magnitude of the number nearest to a positive quotient: the significand is the quotient
rounded in units of `2 ^ q`, where `q` leaves fifty-three bits or is the least exponent there is.
Adding it to the shifted exponent carries into the next binade by itself. -/
def nearestMagnitude (num den : Nat) : Nat :=
  let q := max (log2Div num den - 52) (-1074)
  let m := roundDiv (num * Nat.pow 2 (-q).toNat) (den * Nat.pow 2 q.toNat)
  min ((q + 1074).toNat * Nat.pow 2 52 + m) infinityMagnitude

/-- The number of the given sign nearest to a quotient. -/
def ofRatio (negative : Bool) (num den : Nat) : Number :=
  ofMagnitude negative (if num = 0 then 0 else nearestMagnitude num den)

/-- The number nearest to a natural number. -/
def ofNat (n : Nat) : Number := ofRatio false n 1

/-- The number nearest to an integer. -/
def ofInt (n : Int) : Number := ofRatio (n < 0) n.natAbs 1

/-- The number of the given sign nearest to `digits * 10 ^ exponent`. Far outside the range of
numbers the power of ten is not formed. -/
def ofDecimal (negative : Bool) (digits : Nat) (exponent : Int) : Number :=
  if digits = 0 then ofMagnitude negative 0
  else if 400 < exponent then infinity negative
  else if (digits.log2 : Int) + 1 + exponent < -400 then ofMagnitude negative 0
  else ofRatio negative (digits * Nat.pow 10 exponent.toNat) (Nat.pow 10 (-exponent).toNat)

/-- The absolute value of a finite number as a quotient. -/
def toRatio (x : Number) : Nat × Nat :=
  (x.significand * Nat.pow 2 x.scale.toNat, Nat.pow 2 (-x.scale).toNat)

/-- The product of two finite numbers, rounded. -/
def mul (x y : Number) : Number :=
  ofRatio (x.isNegative != y.isNegative) (x.toRatio.1 * y.toRatio.1) (x.toRatio.2 * y.toRatio.2)

/-- The quotient of two finite numbers, rounded; the divisor is not zero. -/
def div (x y : Number) : Number :=
  ofRatio (x.isNegative != y.isNegative) (x.toRatio.1 * y.toRatio.2) (x.toRatio.2 * y.toRatio.1)

instance (n : Nat) : OfNat Number n := ⟨ofNat n⟩

end Scenario.Number
