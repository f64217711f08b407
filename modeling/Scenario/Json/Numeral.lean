import Scenario.Number.Rounding
import Scenario.Number.Reading

/-!
# Number texts in JSON

A JSON number text is an integer when it has neither a point nor an exponent and fits a 64-bit
word. Every other text gathers as many digits as fit an unsigned 64-bit word and scales them by a
power of ten in rounding arithmetic, so a text of many digits may miss the nearest number. A text
beyond the largest number is refused.
-/

namespace Scenario.Json

/-- A number read from JSON text. -/
inductive Numeral where
  /-- An integer of 64 bits. -/
  | integer (n : Int)
  /-- Any other number. -/
  | real (x : Number)
  deriving DecidableEq

/-- The nearest number. -/
def Numeral.toNumber : Numeral → Number
  | integer n => Number.ofInt n
  | real x => x

/-- The parts of a number text: sign, digits before and after the point, and the exponent. The
digits after the point are absent when there is no point. -/
structure NumberText where
  /-- Whether a minus sign stands in front. -/
  negative : Bool
  /-- The digits before the point. -/
  whole : List Char
  /-- The digits after the point. -/
  places : Option (List Char)
  /-- The sign of the exponent (true for minus) and its digits. -/
  exponent : Option (Bool × List Char)

/-- Splits off the digits at the front. -/
def spanDigits (cs : List Char) : List Char × List Char :=
  (cs.takeWhile Char.isDigit, cs.dropWhile Char.isDigit)

/-- The exponent at the front, if one begins there: `none` is a malformed one. -/
def readExponentPart : List Char → Option (Option (Bool × List Char) × List Char)
  | c :: cs =>
    if c = 'e' ∨ c = 'E' then
      let (negative, rest) := match cs with
        | '-' :: r => (true, r)
        | '+' :: r => (false, r)
        | r => (false, r)
      let (ds, rest) := spanDigits rest
      if ds.isEmpty then none else some (some (negative, ds), rest)
    else some (none, c :: cs)
  | [] => some (none, [])

/-- The fraction at the front, if one begins there: `none` is a point without digits. -/
def readFractionPart : List Char → Option (Option (List Char) × List Char)
  | '.' :: cs =>
    let (ds, rest) := spanDigits cs
    if ds.isEmpty then none else some (some ds, rest)
  | cs => some (none, cs)

/-- The number text at the front after its sign: no leading zeros, digits on both sides of a
point. -/
def readUnsigned (negative : Bool) (cs : List Char) : Option (NumberText × List Char) := do
  let (whole, rest) := spanDigits cs
  if whole.isEmpty || (whole.head? == some '0' && 1 < whole.length) then none
  else
    let (places, rest) ← readFractionPart rest
    let (exponent, rest) ← readExponentPart rest
    some (⟨negative, whole, places, exponent⟩, rest)

/-- The number text at the front. -/
def readNumberText : List Char → Option (NumberText × List Char)
  | '-' :: cs => readUnsigned true cs
  | cs => readUnsigned false cs

/-- Appends digits to a natural number as long as it stays below `2 ^ 64`; what is left over
follows. -/
def gather : Nat → List Char → Nat × List Char
  | n, [] => (n, [])
  | n, c :: cs =>
    let m := 10 * n + (c.toNat - 48)
    if m < Nat.pow 2 64 then gather m cs else (n, c :: cs)

/-- A number times a power of ten, in rounding arithmetic: one factor up to `10 ^ 308`, several
divisions below. `none` is a result beyond the largest number. -/
def scaleByTen : Nat → Number → Int → Option Number
  | 0, x, _ => some x
  | n + 1, x, e =>
    if e.natAbs ≤ 308 then
      if 0 ≤ e then
        let y := x.mul (Number.ofDecimal false 1 e)
        if y.isFinite then some y else none
      else some (x.div (Number.ofDecimal false 1 (-e)))
    else if x.isZero then some x
    else if 0 ≤ e then none
    else scaleByTen n (x.div (Number.ofDecimal false 1 308)) (e + 308)

/-- The largest exponent that is counted exactly. -/
def exponentLimit : Int := 2147483647

/-- The number with the given sign and the value `significand * 10 ^ exponent`. -/
def realOf (negative : Bool) (significand : Nat) (exponent : Int) : Option Number :=
  let e := max (-2147483648) (min exponent exponentLimit)
  (scaleByTen 4 (Number.ofNat significand) e).map fun x => Number.ofMagnitude negative x.magnitude

/-- The number that a number text denotes; `none` when it is beyond the largest number. -/
def NumberText.value (t : NumberText) : Option Numeral :=
  let (significand, dropped) := gather 0 t.whole
  match t.places, t.exponent with
  | none, none =>
    if dropped.isEmpty then
      if !t.negative then some (.integer significand)
      else if 0 < significand ∧ significand ≤ Nat.pow 2 63 then some (.integer (-significand))
      else some (.real (Number.ofMagnitude true (Number.ofNat significand).magnitude))
    else (realOf t.negative significand dropped.length).map .real
  | places, exponent =>
    let ds := places.getD []
    let (significand, rest) := gather significand ds
    let start : Int := dropped.length - (ds.length - rest.length : Nat)
    match exponent with
    | none => (realOf t.negative significand start).map .real
    | some (down, es) =>
      let e : Int := Number.digitsValue es
      if exponentLimit < e then
        if significand ≠ 0 ∧ !down then none
        else some (.real (Number.ofMagnitude t.negative 0))
      else (realOf t.negative significand (if down then start - e else start + e)).map .real

end Scenario.Json
