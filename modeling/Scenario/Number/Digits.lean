import Scenario.Number.Basic

/-!
# The digits that identify a number

A positive number is written with the fewest decimal digits that still round to it, and with the
nearest such decimal when several have that many digits. The decimals that round to `m * 2 ^ q`
form an interval, whose ends belong to it exactly when `m` is even; the interval is searched on
the decimal grids from the coarsest to the finest.
-/

namespace Scenario.Number

/-- A positive decimal `digits * 10 ^ exponent`. -/
structure Decimal where
  /-- The digits, read as a natural number. -/
  digits : Nat
  /-- The power of ten that scales the last digit. -/
  exponent : Int
  deriving DecidableEq

/-- Which of two equally near decimals is taken. -/
inductive Tie where
  /-- The larger one. -/
  | up
  /-- The one whose last digit is even. -/
  | even
  deriving DecidableEq

/-- The interval of reals that round to a number, in quarters of its last binary place: the number
stands at `four`, the interval runs from `low` to `high`. -/
structure Interval where
  /-- Four times the significand. -/
  four : Nat
  /-- The lower end. -/
  low : Nat
  /-- The upper end. -/
  high : Nat
  /-- Whether the ends round to the number. -/
  closed : Bool

/-- The rounding interval of a finite positive number. Below a power of two the next number is
only half as far away. -/
def interval (x : Number) : Interval where
  four := 4 * x.significand
  low := 4 * x.significand - if x.fraction = 0 ∧ 1 < x.exponentField then 1 else 2
  high := 4 * x.significand + 2
  closed := x.significand % 2 = 0

/-- Whether `candidate * unit` lies in the interval scaled by `den`. -/
def Interval.holds (i : Interval) (unit den candidate : Nat) : Bool :=
  if i.closed then i.low * unit ≤ candidate * den && candidate * den ≤ i.high * unit
  else i.low * unit < candidate * den && candidate * den < i.high * unit

/-- The multiple of `10 ^ k` in the interval of a number with scale `q`, as a count of `10 ^ k`:
of the number's two neighbours on that grid, the nearer one that rounds to it. -/
def Interval.onGrid (i : Interval) (tie : Tie) (q : Int) (k : Int) : Option Nat :=
  let unit := Nat.pow 2 (q - 2).toNat * Nat.pow 10 (-k).toNat
  let den := Nat.pow 2 (2 - q).toNat * Nat.pow 10 k.toNat
  let below := i.four * unit / den
  let rest := i.four * unit % den
  match i.holds unit den below, i.holds unit den (below + 1) with
  | true, true =>
    if 2 * rest < den then some below
    else if den < 2 * rest then some (below + 1)
    else match tie with
      | .up => some (below + 1)
      | .even => some (below + below % 2)
  | true, false => some below
  | false, true => some (below + 1)
  | false, false => none

/-- The first grid, from `10 ^ k` downwards, that has a point in the interval. -/
def Interval.search (i : Interval) (tie : Tie) (q : Int) : Nat → Int → Decimal
  | 0, k => ⟨i.four, k⟩
  | n + 1, k =>
    match i.onGrid tie q k with
    | some d => ⟨d, k⟩
    | none => i.search tie q n (k - 1)

/-- The exponent of the leading decimal digit of a finite positive number. -/
def leadingExponent (x : Number) : Int :=
  let e := ((x.significand.log2 : Int) + x.scale) * 30103 / 100000 + 1
  let power := Nat.pow 10 e.toNat * Nat.pow 2 (-x.scale).toNat
  if power ≤ x.significand * Nat.pow 2 x.scale.toNat * Nat.pow 10 (-e).toNat then e else e - 1

/-- The same decimal without trailing zeros; the first argument bounds their number. -/
def Decimal.strip : Nat → Decimal → Decimal
  | 0, d => d
  | n + 1, d =>
    if d.digits ≠ 0 ∧ d.digits % 10 = 0 then Decimal.strip n ⟨d.digits / 10, d.exponent + 1⟩ else d

/-- The decimal that identifies a finite positive number: fewest digits, then nearest. Seventeen
digits always suffice. -/
def shortest (tie : Tie) (x : Number) : Decimal :=
  (x.interval.search tie x.scale 18 x.leadingExponent).strip 20

end Scenario.Number
