/-!
# Decimal numerals of whole numbers

* `natText` and `intText` write a number in base ten.
* `padLeft` and `padZeros` widen a numeral with zeros; the second keeps a sign
  in front.
-/

namespace FluentSql.Number

/-- The characters of a number in base ten, without leading zeros. -/
def natDigits (n : Nat) : List Char :=
  Nat.toDigits 10 n

/-- A number in base ten. -/
def natText (n : Nat) : String :=
  String.ofList (natDigits n)

/-- An integer in base ten, with a minus sign if it is negative. -/
def intText (i : Int) : String :=
  if i < 0 then "-" ++ natText i.natAbs else natText i.natAbs

/-- The characters with zeros in front, until there are `width` of them. -/
def padLeft (width : Nat) (cs : List Char) : List Char :=
  List.replicate (width - cs.length) '0' ++ cs

/-- A number in base ten with at least `width` digits. -/
def natPadded (width n : Nat) : String :=
  String.ofList (padLeft width (natDigits n))

/-- The text with zeros in front, until it is `width` characters long.  A sign at its start stays
in front of the zeros. -/
def padZeros (width : Nat) (s : String) : String :=
  match s.toList with
  | c :: rest =>
    if c = '+' ∨ c = '-' then String.ofList (c :: padLeft (width - 1) rest)
    else String.ofList (padLeft width (c :: rest))
  | [] => String.ofList (padLeft width [])

end FluentSql.Number
