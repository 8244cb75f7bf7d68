/-!
# Blank characters

The white space of texts: the twenty-nine characters that trimming removes
and that may stand around the word between a name and its alias.

* `isBlank` is the class.
* `trim`, `trimLeft` and `trimRight` remove blanks at the ends of a text.
-/

namespace FluentSql.Text

/-- White space: the ASCII blanks and separators, the next-line character, and the Unicode
spaces. -/
def isBlank (c : Char) : Bool :=
  let n := c.toNat
  (0x09 ≤ n && n ≤ 0x0d) || (0x1c ≤ n && n ≤ 0x20) || n == 0x85 || n == 0xa0 || n == 0x1680 ||
    (0x2000 ≤ n && n ≤ 0x200a) || n == 0x2028 || n == 0x2029 || n == 0x202f || n == 0x205f ||
    n == 0x3000

/-- Every blank of the core library is one of these. -/
theorem isBlank_of_isWhitespace {c : Char} (h : c.isWhitespace = true) : isBlank c = true := by
  simp only [Char.isWhitespace, Bool.or_eq_true, decide_eq_true_eq] at h
  rcases h with ((rfl | rfl) | rfl) | rfl <;> decide

/-- The characters without blanks at the front. -/
def dropBlanks (cs : List Char) : List Char :=
  cs.dropWhile isBlank

/-- The text without blanks at the front. -/
def trimLeft (s : String) : String :=
  String.ofList (dropBlanks s.toList)

/-- The text without blanks at the end. -/
def trimRight (s : String) : String :=
  String.ofList (dropBlanks s.toList.reverse).reverse

/-- The text without blanks at either end. -/
def trim (s : String) : String :=
  String.ofList (dropBlanks (dropBlanks s.toList).reverse).reverse

end FluentSql.Text
