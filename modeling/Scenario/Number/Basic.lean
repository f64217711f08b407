/-!
# Numbers

A number is a binary64 word. Its value, when finite, is `significand * 2 ^ scale`, so every
question that a scenario asks about a number (is it integral, are two of them equal, how large is
it) is answered on natural numbers and never by rounding arithmetic.
-/

namespace Scenario

/-- A binary64 number, kept as its 64-bit word. -/
structure Number where
  /-- The word: one sign bit, eleven exponent bits, fifty-two fraction bits. -/
  bits : UInt64
  deriving DecidableEq, Inhabited

namespace Number

/-- The word without its sign bit; on finite numbers it grows with the absolute value. -/
def magnitude (x : Number) : Nat := x.bits.toNat % Nat.pow 2 63

/-- The sign bit. -/
def isNegative (x : Number) : Bool := Nat.pow 2 63 ≤ x.bits.toNat

/-- The exponent bits. -/
def exponentField (x : Number) : Nat := x.magnitude / Nat.pow 2 52

/-- The fraction bits. -/
def fraction (x : Number) : Nat := x.magnitude % Nat.pow 2 52

/-- The magnitude of infinity. -/
def infinityMagnitude : Nat := 2047 * Nat.pow 2 52

/-- Not a number: every word above infinity. -/
def isNaN (x : Number) : Bool := infinityMagnitude < x.magnitude

/-- Neither infinite nor a NaN. -/
def isFinite (x : Number) : Bool := x.magnitude < infinityMagnitude

/-- Zero of either sign. -/
def isZero (x : Number) : Bool := x.magnitude = 0

/-- The integer `m` in the value `m * 2 ^ scale` of a finite number. -/
def significand (x : Number) : Nat :=
  if x.exponentField = 0 then x.fraction else Nat.pow 2 52 + x.fraction

/-- The exponent `q` in the value `significand * 2 ^ q` of a finite number. -/
def scale (x : Number) : Int := (max x.exponentField 1 : Nat) - 1075

/-- The number with the given sign and magnitude. -/
def ofMagnitude (negative : Bool) (m : Nat) : Number :=
  ⟨UInt64.ofNat (m % Nat.pow 2 63 + if negative then Nat.pow 2 63 else 0)⟩

/-- Infinity of the given sign. -/
def infinity (negative : Bool) : Number := ofMagnitude negative infinityMagnitude

/-- The one NaN that is ever shown. -/
def nan : Number := ofMagnitude false (infinityMagnitude + Nat.pow 2 51)

/-- The same number with a NaN replaced by `nan`. -/
def canonical (x : Number) : Number := if x.isNaN then nan else x

/-- Numerical equality: a NaN equals nothing and the two zeros are equal. -/
def eqv (x y : Number) : Bool :=
  !x.isNaN && !y.isNaN && (x.bits == y.bits || (x.isZero && y.isZero))

/-- The absolute value without its fractional part. -/
def truncate (x : Number) : Nat :=
  x.significand * Nat.pow 2 x.scale.toNat / Nat.pow 2 (-x.scale).toNat

/-- A finite number without a fractional part. -/
def isIntegral (x : Number) : Bool :=
  x.isFinite && x.significand % Nat.pow 2 (-x.scale).toNat == 0

/-- The largest index. -/
def maxIndex : Nat := Nat.pow 2 64 - 1

/-- The index that a number denotes, if it is integral and not below zero; beyond the largest index
it is that one. -/
def toIndex? (x : Number) : Option Nat :=
  if x.isIntegral && (x.isZero || !x.isNegative) then some (min x.truncate maxIndex) else none

theorem eqv_comm (x y : Number) : x.eqv y = y.eqv x := by
  simp only [eqv, Bool.and_comm (!x.isNaN), Bool.and_comm x.isZero, BEq.comm (a := x.bits)]

theorem eqv_self_iff (x : Number) : x.eqv x = true ↔ x.isNaN = false := by
  simp [eqv]

end Number

end Scenario
