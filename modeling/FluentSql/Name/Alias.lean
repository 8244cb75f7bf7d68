import FluentSql.Text.Blank

/-!
# The alias of a name

A name may carry an alias after a separator: blanks, the word `as` in any
case, and blanks.  The separator takes all the blanks around the word.

* `separator?` recognises a separator at the start of the characters and gives
  what follows it.
* `splitAlias?` cuts at the first separator.
* `splitAliases` cuts at every separator, and `lastAlias` is the last piece:
  the name by which a source is addressed.
-/

namespace FluentSql.Name

open Text

/-- The letter `a` in either case. -/
def isLetterA (c : Char) : Bool := c == 'a' || c == 'A'

/-- The letter `s` in any case, the long s included. -/
def isLetterS (c : Char) : Bool := c == 's' || c == 'S' || c == 'ſ'

/-- What follows the separator that the characters start with. -/
def separator? (cs : List Char) : Option (List Char) :=
  match cs with
  | [] => none
  | c :: _ =>
    if isBlank c then
      match dropBlanks cs with
      | a :: s :: b :: rest =>
        if isLetterA a && isLetterS s && isBlank b then some (dropBlanks rest) else none
      | _ => none
    else none

/-- What stands before and after the first separator. -/
def splitAlias? : List Char → Option (List Char × List Char)
  | [] => none
  | c :: rest =>
    match separator? (c :: rest) with
    | some after => some ([], after)
    | none => (splitAlias? rest).map fun (before, after) => (c :: before, after)

/-- Whether a name carries an alias. -/
def hasAlias (cs : List Char) : Bool :=
  (splitAlias? cs).isSome

/-- Cuts at every separator.  `fuel` bounds the number of cuts. -/
def splitAliasesWith : Nat → List Char → List (List Char)
  | 0, cs => [cs]
  | fuel + 1, cs =>
    match splitAlias? cs with
    | some (before, after) => before :: splitAliasesWith fuel after
    | none => [cs]

/-- The pieces between the separators. -/
def splitAliases (cs : List Char) : List (List Char) :=
  splitAliasesWith cs.length cs

/-- The name by which a source is addressed: its alias, or the name itself. -/
def lastAlias (s : String) : String :=
  String.ofList ((splitAliases s.toList).getLastD s.toList)

end FluentSql.Name
