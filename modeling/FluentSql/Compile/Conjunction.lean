import FluentSql.Value.Sequence
import FluentSql.Text.Blank

/-!
# Joining fragments of SQL

* `dropConjunction` removes the joining word at the start of a list of
  conditions.
* `spaced` joins fragments with single spaces and passes over empty ones.
-/

namespace FluentSql

/-- Removes `and ` or `or `, in any case, from the start of the characters. -/
def dropConjunctionChars : List Char → List Char
  | o :: r :: ' ' :: rest =>
    if o.toLower = 'o' ∧ r.toLower = 'r' then rest
    else o :: r :: ' ' :: rest
  | a :: n :: d :: ' ' :: rest =>
    if a.toLower = 'a' ∧ n.toLower = 'n' ∧ d.toLower = 'd' then rest
    else a :: n :: d :: ' ' :: rest
  | cs => cs

/-- Removes the joining word `and` or `or`, in any case, and the space after it, from the start of a
text. -/
def dropConjunction (s : String) : String :=
  String.ofList (dropConjunctionChars s.toList)

/-- Joins the fragments that are not empty with single spaces. -/
def spaced (fragments : List String) : String :=
  joinWith " " (fragments.filter fun fragment => !fragment.isEmpty)

end FluentSql
