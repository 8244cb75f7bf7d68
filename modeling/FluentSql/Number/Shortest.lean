import FluentSql.Number.Decimal
import FluentSql.Number.Double

/-!
# The shortest decimal of a double

Many decimals lie so near to a double that reading them gives the double back.
The text of a double is the shortest of them, and of two that are equally
short the nearer one.

* `Magnitude.roundsTo` tests whether a decimal rounds to a double.
* `Magnitude.digitsBefore` counts the digits before the point.
* `Magnitude.shortest` tries one digit, then two, and so on to seventeen.
* `DoubleStyle.text` lays the digits out: positional from four zeros after the point up to
  sixteen digits before it, and with an exponent outside that range.
-/

namespace FluentSql.Number

-- Powers are those of the core library, whatever else is imported.
attribute [local instance (10000)] instPowNat

/-- The decimal `digits * 10 ^ exponent`. -/
structure Decimal where
  /-- The digits, read as a whole number. -/
  digits : Nat
  /-- The power of ten. -/
  exponent : Int
deriving DecidableEq

namespace Decimal

/-- The value as numerator and denominator. -/
def ratio (d : Decimal) : Nat × Nat :=
  if 0 ≤ d.exponent then (d.digits * 10 ^ d.exponent.toNat, 1)
  else (d.digits, 10 ^ (-d.exponent).toNat)

/-- The same value without zeros at the end of the digits.  `fuel` bounds the zeros removed. -/
def dropZeros : Nat → Decimal → Decimal
  | 0, d => d
  | fuel + 1, d =>
    if d.digits ≠ 0 ∧ d.digits % 10 = 0 then dropZeros fuel ⟨d.digits / 10, d.exponent + 1⟩
    else d

end Decimal

/-- A finite magnitude `significand * 2 ^ scale` with the interval that rounds to it. -/
structure Magnitude where
  /-- The whole number. -/
  significand : Nat
  /-- The power of two. -/
  scale : Int
  /-- Whether the next smaller double is only half as far away as the next larger one. -/
  narrowBelow : Bool

namespace Magnitude

/-- The magnitude of a finite double. -/
def ofDouble (x : Double) : Magnitude :=
  ⟨x.significand, x.scale, x.fractionBits == 0 && 1 < x.exponentBits⟩

/-- A multiple of a quarter of the last place, as numerator and denominator. -/
def quarters (m : Magnitude) (n : Nat) : Nat × Nat :=
  if 2 ≤ m.scale then (n * 2 ^ (m.scale - 2).toNat, 1) else (n, 2 ^ (2 - m.scale).toNat)

/-- The magnitude as numerator and denominator. -/
def ratio (m : Magnitude) : Nat × Nat :=
  m.quarters (4 * m.significand)

/-- Whether a decimal rounds to the magnitude.  The ends of the interval do so exactly when the
significand is even. -/
def roundsTo (m : Magnitude) (d : Decimal) : Bool :=
  let (num, den) := d.ratio
  let (lowNum, lowDen) := m.quarters (4 * m.significand - if m.narrowBelow then 1 else 2)
  let (highNum, highDen) := m.quarters (4 * m.significand + 2)
  if m.significand % 2 = 0 then
    lowNum * den ≤ num * lowDen && num * highDen ≤ highNum * den
  else
    lowNum * den < num * lowDen && num * highDen < highNum * den

/-- The power of ten just above the magnitude. -/
def digitsBefore (m : Magnitude) : Int :=
  let (num, den) := m.ratio
  let guess : Int := (natDigits num).length - (natDigits den).length
  let (tenNum, tenDen) := (Decimal.mk 1 guess).ratio
  if tenNum * den ≤ num * tenDen then guess + 1 else guess

/-- The largest decimal with this exponent that is not above the magnitude. -/
def floorAt (m : Magnitude) (exponent : Int) : Decimal :=
  let (num, den) := m.ratio
  ⟨if 0 ≤ exponent then num / (den * 10 ^ exponent.toNat)
    else num * 10 ^ (-exponent).toNat / den, exponent⟩

/-- Whether the decimal above is nearer than `d`, the decimal below; a tie goes to the even one. -/
def nearerAbove (m : Magnitude) (d : Decimal) : Bool :=
  let (num, den) := m.ratio
  let (midNum, midDen) := (Decimal.mk (2 * d.digits + 1) d.exponent).ratio
  let twice := 2 * num * midDen
  midNum * den < twice || (midNum * den == twice && d.digits % 2 == 1)

/-- The neighbour of the magnitude among the decimals with this exponent that rounds to it. -/
def neighbour? (m : Magnitude) (exponent : Int) : Option Decimal :=
  let below := m.floorAt exponent
  let above : Decimal := ⟨below.digits + 1, exponent⟩
  match m.roundsTo below, m.roundsTo above with
  | true, true => some (if m.nearerAbove below then above else below)
  | true, false => some below
  | false, true => some above
  | false, false => none

/-- Tries `count` digits and, with `fuel` tries left, more. -/
def shortestFrom (m : Magnitude) : (fuel count : Nat) → Decimal
  | 0, count => m.floorAt (m.digitsBefore - count)
  | fuel + 1, count =>
    match m.neighbour? (m.digitsBefore - count) with
    | some d => d
    | none => shortestFrom m fuel (count + 1)

/-- The shortest decimal that rounds to the magnitude, without zeros at its end. -/
def shortest (m : Magnitude) : Decimal :=
  (m.shortestFrom 17 1).dropZeros 20

end Magnitude

/-- How a double is laid out: the powers of ten between which it is positional, and the words for
what is no finite number. -/
structure DoubleStyle where
  /-- The text of a NaN. -/
  nan : String
  /-- The text of positive infinity. -/
  infinity : String
  /-- The least number of digits before the point that is still positional. -/
  leastBefore : Int
  /-- The greatest number of digits before the point that is still positional. -/
  mostBefore : Int

namespace DoubleStyle

/-- A positional decimal: at least one digit on either side of the point. -/
def positional (digits : List Char) (before : Int) : List Char :=
  if before ≤ 0 then
    "0.".toList ++ List.replicate (-before).toNat '0' ++ digits
  else
    let whole := digits.take before.toNat ++ List.replicate (before.toNat - digits.length) '0'
    let fraction := digits.drop before.toNat
    whole ++ '.' :: (if fraction = [] then ['0'] else fraction)

/-- A decimal with an exponent: one digit before the point, a sign and at least two digits in the
exponent. -/
def scientific (digits : List Char) (before : Int) : List Char :=
  let exponent := before - 1
  let mantissa := match digits with
    | [] => ['0']
    | [d] => [d]
    | d :: rest => d :: '.' :: rest
  mantissa ++ 'e' :: (if exponent < 0 then '-' else '+') ::
    padLeft 2 (natDigits exponent.natAbs)

/-- The text of a double. -/
def text (style : DoubleStyle) (x : Double) : String :=
  if x.isNaN then style.nan
  else
    let sign := if x.isNegative then "-" else ""
    if x.isInfinite then sign ++ style.infinity
    else if x.isZero then sign ++ "0.0"
    else
      let d := (Magnitude.ofDouble x).shortest
      let digits := natDigits d.digits
      let before := d.exponent + digits.length
      sign ++ String.ofList
        (if style.leastBefore ≤ before ∧ before ≤ style.mostBefore then positional digits before
        else scientific digits before)

/-- The layout of numbers in SQL text and in literals. -/
def plain : DoubleStyle := ⟨"nan", "inf", -3, 16⟩

/-- The layout of numbers in JSON documents. -/
def json : DoubleStyle := ⟨"NaN", "Infinity", -3, 16⟩

end DoubleStyle

end FluentSql.Number
