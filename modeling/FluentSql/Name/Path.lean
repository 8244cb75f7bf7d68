/-!
# Paths into JSON columns

A selector is a column, an arrow, and the keys of a path with arrows between
them.

* `splitArrow?` cuts at the first arrow and `splitArrows` at every one.
* `doubleQuotes` writes a single quote twice; backslashes right before a quote
  are dropped with it.
* `replaceAll` replaces every occurrence of a text.
* `pathLiteral` is the path as a literal that starts with `$`.
-/

namespace FluentSql.Name

/-- What stands before and after the first arrow. -/
def splitArrow? : List Char → Option (List Char × List Char)
  | [] => none
  | '-' :: '>' :: rest => some ([], rest)
  | c :: rest => (splitArrow? rest).map fun (before, after) => (c :: before, after)

/-- Whether the characters hold an arrow. -/
def hasArrow (cs : List Char) : Bool :=
  (splitArrow? cs).isSome

/-- Cuts at every arrow; `current` holds the piece so far, last character first. -/
def splitArrowsFrom (current : List Char) : List Char → List (List Char)
  | [] => [current.reverse]
  | '-' :: '>' :: rest => current.reverse :: splitArrowsFrom [] rest
  | c :: rest => splitArrowsFrom (c :: current) rest

/-- The pieces between the arrows. -/
def splitArrows (cs : List Char) : List (List Char) :=
  splitArrowsFrom [] cs

/-- Writes a single quote twice.  `held` counts the backslashes that were read and not yet written:
they are dropped if a quote follows them. -/
def doubleQuotesFrom (held : Nat) : List Char → List Char
  | [] => List.replicate held '\\'
  | c :: rest =>
    if c = '\\' then doubleQuotesFrom (held + 1) rest
    else if c = '\'' then '\'' :: '\'' :: doubleQuotesFrom 0 rest
    else List.replicate held '\\' ++ c :: doubleQuotesFrom 0 rest

/-- Writes a single quote twice and drops the backslashes right before it. -/
def doubleQuotes (cs : List Char) : List Char :=
  doubleQuotesFrom 0 cs

/-- Replaces every occurrence of a text that is not empty, from left to right.  `skip` counts the
characters of an occurrence still to be passed over. -/
def replaceFrom (old new : List Char) (skip : Nat) : List Char → List Char
  | [] => []
  | c :: rest =>
    match skip with
    | skip + 1 => replaceFrom old new skip rest
    | 0 =>
      if old.isPrefixOf (c :: rest) then new ++ replaceFrom old new (old.length - 1) rest
      else c :: replaceFrom old new 0 rest

/-- Replaces every occurrence of a text.  The empty text occurs before every character and at the
end. -/
def replaceAll (old new cs : List Char) : List Char :=
  if old = [] then new ++ cs.flatMap fun c => c :: new
  else replaceFrom old new 0 cs

/-- Replaces the first occurrence of a text. -/
def replaceFirst (old new : List Char) : List Char → List Char
  | [] => []
  | c :: rest =>
    if old.isPrefixOf (c :: rest) then new ++ (c :: rest).drop old.length
    else c :: replaceFirst old new rest

/-- The arrow between the keys of a path. -/
def arrow : List Char := ['-', '>']

/-- The path literal: every key in double quotes after a point, the whole in single quotes. -/
def pathLiteral (delimiter path : List Char) : List Char :=
  ['\'', '$', '.', '"'] ++ replaceAll delimiter ['"', '.', '"'] (doubleQuotes path) ++ ['"', '\'']

end FluentSql.Name
