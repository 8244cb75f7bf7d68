/-!
# Double-precision numbers

A double is its sixty-four bits.  Whatever can be said exactly about the
number is read off the bits in whole-number arithmetic; only sums and products
use the rounding arithmetic of the machine.

* `isNaN`, `isInfinite`, `isNegative` read the class and the sign, and `nan`
  makes one that stands for no number.
* `significand` and `scale` give the magnitude as `significand * 2 ^ scale`.
* `ratio` is the value as a fraction, `truncate?` its integer part, and
  `equalsInt`, `equals` compare values.
* `add`, `sub` and `mul` round, and `ofInt?` fails where no finite double is
  near.
-/

namespace FluentSql.Number

-- Powers are those of the core library, whatever else is imported.
attribute [local instance (10000)] instPowNat

/-- A double-precision number, given by its bits. -/
structure Double where
  /-- The sign, the exponent and the fraction, from the highest bit to the lowest. -/
  bits : UInt64
deriving DecidableEq

namespace Double

/-- Whether the sign bit is set. -/
def isNegative (x : Double) : Bool :=
  x.bits.toNat / 2 ^ (63 : Nat) == 1

/-- The eleven bits of the exponent. -/
def exponentBits (x : Double) : Nat :=
  x.bits.toNat / 2 ^ (52 : Nat) % 2 ^ (11 : Nat)

/-- The fifty-two bits of the fraction. -/
def fractionBits (x : Double) : Nat :=
  x.bits.toNat % 2 ^ (52 : Nat)

/-- Whether the bits stand for no number. -/
def isNaN (x : Double) : Bool :=
  x.exponentBits == 2047 && x.fractionBits != 0

/-- A double that stands for no number, with a mark that tells it from others. -/
def nan (mark : Nat) : Double :=
  ⟨.ofNat (0x7ff8000000000000 + mark % 2 ^ (51 : Nat))⟩

/-- Whether the number is one of the two infinities. -/
def isInfinite (x : Double) : Bool :=
  x.exponentBits == 2047 && x.fractionBits == 0

/-- The whole number that the magnitude is a power of two away from. -/
def significand (x : Double) : Nat :=
  if x.exponentBits = 0 then x.fractionBits else 2 ^ (52 : Nat) + x.fractionBits

/-- The power of two of the magnitude. -/
def scale (x : Double) : Int :=
  if x.exponentBits = 0 then -1074 else (x.exponentBits : Int) - 1075

/-- Whether the number is zero, of either sign. -/
def isZero (x : Double) : Bool :=
  x.significand == 0

/-- The value of a finite double as numerator and denominator. -/
def ratio (x : Double) : Int × Nat :=
  let m : Int := if x.isNegative then -(x.significand : Int) else x.significand
  if 0 ≤ x.scale then (m * 2 ^ x.scale.toNat, 1) else (m, 2 ^ (-x.scale).toNat)

/-- The integer part of a finite double. -/
def truncate (x : Double) : Int :=
  let (num, den) := x.ratio
  num.tdiv den

/-- Whether a double has the value of an integer. -/
def equalsInt (x : Double) (i : Int) : Bool :=
  let (num, den) := x.ratio
  !x.isNaN && !x.isInfinite && num == i * den

/-- Whether two doubles have the same value.  No double equals a NaN, and the two zeros are
equal. -/
def equals (x y : Double) : Bool :=
  !x.isNaN && !y.isNaN && (x.bits == y.bits || (x.isZero && y.isZero))

/-- The double that the machine's number is. -/
def ofFloat (f : Float) : Double :=
  ⟨f.toBits⟩

/-- The machine's number. -/
def toFloat (x : Double) : Float :=
  Float.ofBits x.bits

/-- The rounded sum. -/
def add (x y : Double) : Double :=
  ofFloat (x.toFloat + y.toFloat)

/-- The rounded difference. -/
def sub (x y : Double) : Double :=
  ofFloat (x.toFloat - y.toFloat)

/-- The rounded product. -/
def mul (x y : Double) : Double :=
  ofFloat (x.toFloat * y.toFloat)

/-- The double nearest to an integer, unless it is out of range. -/
def ofInt? (i : Int) : Option Double :=
  let magnitude := Float.ofNat i.natAbs
  let x := ofFloat (if i < 0 then -magnitude else magnitude)
  if x.isInfinite then none else some x

end Double

end FluentSql.Number
