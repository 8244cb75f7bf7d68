/-!
# Sets of characters as ranges of code points

A character class of the Unicode standard is data: a few hundred ranges of
code points.  A table of such a class is written as lines of words, where a
word is one code point in hexadecimal (`b5`) or two joined by a hyphen
(`660-669`).

* `hexNumber` reads one hexadecimal number.
* `Ranges` is the set itself, and `Ranges.ofLines` reads its table.
* `Ranges.contains` is membership.
-/

namespace FluentSql.Text

/-- The value of a hexadecimal digit in lower case; any other character counts as zero. -/
def hexDigit (c : Char) : Nat :=
  if '0' ≤ c ∧ c ≤ '9' then c.toNat - '0'.toNat
  else if 'a' ≤ c ∧ c ≤ 'f' then c.toNat - 'a'.toNat + 10
  else 0

/-- The number that a word of hexadecimal digits stands for. -/
def hexNumber (digits : List Char) : Nat :=
  digits.foldl (fun n c => 16 * n + hexDigit c) 0

/-- The words of a line, which single spaces separate. -/
def words (line : String) : List (List Char) :=
  (line.toList.splitOn ' ').filter (· ≠ [])

/-- A set of code points, as the list of its ranges with both ends included. -/
structure Ranges where
  /-- The first and the last code point of each range. -/
  spans : List (Nat × Nat)

namespace Ranges

/-- The range that a table word stands for. -/
def ofWord (word : List Char) : Nat × Nat :=
  match word.splitOn '-' with
  | [first, last] => (hexNumber first, hexNumber last)
  | _ => (hexNumber word, hexNumber word)

/-- Reads a table of ranges. -/
def ofLines (lines : List String) : Ranges :=
  ⟨(lines.flatMap words).map ofWord⟩

/-- Whether a code point is in one of the ranges. -/
def contains (ranges : Ranges) (code : Nat) : Bool :=
  ranges.spans.any fun span => span.1 ≤ code && code ≤ span.2

end Ranges

end FluentSql.Text
