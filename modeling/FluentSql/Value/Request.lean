import FluentSql.Value.Basic

/-!
# Requests

Some operations ask a value for something and do not look first at what kind
of value it is: a text is split, a map is asked for its keys.  A query has no
answer of its own to such a request.  If there is an extension of that name,
the extension answers.

* `Request` are the requests.
* `Request.name` and `Request.arguments` are what an extension is called by
  and with.
-/

namespace FluentSql

/-- What a value is asked for, whatever kind of value it is. -/
inductive Request where
  /-- The entries of a map. -/
  | items
  /-- The keys of a map. -/
  | keys
  /-- The values of a map. -/
  | values
  /-- The pieces of a text between the occurrences of a separator, with a limit on the cuts. -/
  | split (separator : String) (cuts : Option Nat)
  /-- A text with every occurrence of a part replaced. -/
  | replace (part replacement : String)
  /-- Whether a text has only digits. -/
  | onlyDigits
  /-- The first element of a list, which is taken out. -/
  | takeFirst
deriving DecidableEq

namespace Request

/-- The name of a request. -/
def name : Request → String
  | items => "items"
  | keys => "keys"
  | values => "values"
  | split .. => "split"
  | replace .. => "replace"
  | onlyDigits => "isdigit"
  | takeFirst => "pop"

/-- The arguments that go with a request. -/
def arguments : Request → List Value
  | split separator cuts => .text separator :: (cuts.map fun n => Value.int n).toList
  | replace part replacement => [.text part, .text replacement]
  | takeFirst => [.int 0]
  | _ => []

end Request

end FluentSql
