import Scenario.Number.Digits

/-!
# Numbers as text

A `Layout` holds the decisions of one written form of numbers; `Layout.write` applies them to the
digits that identify a number.
-/

namespace Scenario.Number

/-- The decisions of a written form of numbers. -/
structure Layout where
  /-- The least exponent of the leading digit that is written with a decimal point only. -/
  plainFrom : Option Int
  /-- The largest such exponent. -/
  plainTo : Option Int
  /-- What ends a number without fractional digits. -/
  wholeTail : String
  /-- What stands between `e` and an exponent that is not negative. -/
  exponentSign : String
  /-- Which of two equally near decimals is taken. -/
  tie : Tie
  /-- The text of a NaN. -/
  nan : String
  /-- The text of positive infinity. -/
  infinity : String
  /-- The text of negative infinity. -/
  negativeInfinity : String

/-- The decimal digits of a natural number. -/
def digitText (n : Nat) : String := String.ofList (Nat.toDigits 10 n)

/-- A decimal written with a decimal point and no exponent. -/
def Decimal.plain (d : Decimal) (wholeTail : String) : String :=
  let ds := Nat.toDigits 10 d.digits
  if 0 ≤ d.exponent then
    String.ofList (ds ++ List.replicate d.exponent.toNat '0') ++ wholeTail
  else
    let places := (-d.exponent).toNat
    if ds.length ≤ places then
      "0." ++ String.ofList (List.replicate (places - ds.length) '0' ++ ds)
    else
      String.ofList (ds.take (ds.length - places)) ++ "." ++
        String.ofList (ds.drop (ds.length - places))

/-- A decimal written with one digit before the point and an exponent. -/
def Decimal.scientific (d : Decimal) (exponentSign : String) : String :=
  let ds := Nat.toDigits 10 d.digits
  let e : Int := d.exponent + (ds.length - 1 : Nat)
  let mantissa := String.ofList (ds.take 1) ++
    if ds.length ≤ 1 then "" else "." ++ String.ofList (ds.drop 1)
  let sign := if 0 ≤ e then exponentSign else "-"
  mantissa ++ "e" ++ sign ++ digitText e.natAbs

/-- The exponent of the leading digit of a decimal. -/
def Decimal.leading (d : Decimal) : Int :=
  d.exponent + ((Nat.toDigits 10 d.digits).length - 1 : Nat)

/-- The text of a decimal under a layout. -/
def Layout.decimal (l : Layout) (d : Decimal) : String :=
  if l.plainFrom.all (· ≤ d.leading) && l.plainTo.all (d.leading ≤ ·) then d.plain l.wholeTail
  else d.scientific l.exponentSign

/-- The text of a number under a layout. -/
def Layout.write (l : Layout) (x : Number) : String :=
  if x.isNaN then l.nan
  else if !x.isFinite then if x.isNegative then l.negativeInfinity else l.infinity
  else
    let sign := if x.isNegative then "-" else ""
    if x.isZero then sign ++ "0" ++ l.wholeTail
    else sign ++ l.decimal (x.shortest l.tie)

/-- The form shown to people: never an exponent. -/
def Layout.shown : Layout where
  plainFrom := none
  plainTo := none
  wholeTail := ""
  exponentSign := ""
  tie := .up
  nan := "NaN"
  infinity := "inf"
  negativeInfinity := "-inf"

/-- The form that names a number token in a diagnostic: one decimal place at least, and an exponent
outside `10 ^ -4` to `10 ^ 16`. -/
def Layout.token : Layout :=
  { Layout.shown with plainFrom := some (-4), plainTo := some 15, wholeTail := ".0" }

/-- The form in JSON text: one decimal place at least, a signed exponent outside `10 ^ -5` to
`10 ^ 16`, and `null` for what JSON cannot express. -/
def Layout.json : Layout where
  plainFrom := some (-5)
  plainTo := some 15
  wholeTail := ".0"
  exponentSign := "+"
  tie := .even
  nan := "null"
  infinity := "null"
  negativeInfinity := "null"

/-- A number as people see it: an integer of at most fifteen digits without a sign on zero,
anything else in the shown layout. -/
def display (x : Number) : String :=
  if x.isIntegral && x.truncate < Nat.pow 10 15 then
    (if x.isNegative && !x.isZero then "-" else "") ++ digitText x.truncate
  else Layout.shown.write x

end Scenario.Number
