import FluentSql.Text.Blank
import FluentSql.Text.Digit

/-!
# Reading a numeral

A numeral is an optional sign and decimal digits of any script, with at most
one underscore between two digits, and blanks around the whole.  The four
ASCII separators U+001C to U+001F are no blanks here.

* `readDigits` reads the digits and the underscores between them.
* `readInt` reads a numeral.
-/

namespace FluentSql.Number

open FluentSql.Text

/-- The blanks that may stand around a numeral. -/
def isNumeralBlank (c : Char) : Bool :=
  isBlank c && !(0x1c ≤ c.toNat && c.toNat ≤ 0x1f)

/-- The most digits a numeral may have. -/
def maxNumeralDigits : Nat := 4300

/-- Reads digits after a digit: more digits, each with at most one underscore before it.  `n` is the
value so far and `count` the number of digits. -/
def readDigits (n count : Nat) : List Char → Option (Nat × Nat)
  | [] => some (n, count)
  | '_' :: c :: rest =>
    match decimalDigit? c with
    | some d => readDigits (10 * n + d) (count + 1) rest
    | none => none
  | c :: rest =>
    match decimalDigit? c with
    | some d => readDigits (10 * n + d) (count + 1) rest
    | none => none

/-- Reads one digit or more. -/
def readNat : List Char → Option Nat
  | [] => none
  | c :: rest => do
    let d ← decimalDigit? c
    let (n, count) ← readDigits d 1 rest
    if count ≤ maxNumeralDigits then some n else none

/-- Reads an optional sign and digits. -/
def readSigned : List Char → Option Int
  | '-' :: rest => (readNat rest).map fun n => -(n : Int)
  | '+' :: rest => (readNat rest).map fun n => (n : Int)
  | cs => (readNat cs).map fun n => (n : Int)

/-- The integer that a numeral stands for, or nothing if the characters are no numeral. -/
def readInt (cs : List Char) : Option Int :=
  readSigned ((cs.dropWhile isNumeralBlank).reverse.dropWhile isNumeralBlank).reverse

end FluentSql.Number
