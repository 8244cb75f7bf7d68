import FluentSql.Failure
import FluentSql.Name.Path
import FluentSql.Value.Sequence

/-!
# Answers to requests

A value answers a request if it is of the right kind.  What a query answers
depends on the extensions, so it is looked up in an `Oracle`.

* `Value.entriesBy`, `keysBy` and `valuesBy` are the parts of a map.
* `Value.replacedBy` is a text in which something is replaced.
* `Value.answerBy` is what a value other than a text answers where a text is
  due.
-/

namespace FluentSql

/-- How queries answer requests. -/
abbrev Oracle := QueryId → Request → Except Failure Value

namespace Value

/-- The elements of what a query answers; any other value lacks what it is asked for. -/
def itemsBy (oracle : Oracle) (request : Request) : Value → Except Failure (List Value)
  | object (.query q) => do (← oracle q request).items
  | _ => .error .missingAttribute

/-- The entries of a map. -/
def entriesBy (oracle : Oracle) : Value → Except Failure (List (Value × Value))
  | map entries => .ok entries
  | v => do (← v.itemsBy oracle .items).mapM pair

/-- The keys of a map. -/
def keysBy (oracle : Oracle) : Value → Except Failure (List Value)
  | map entries => .ok (entries.map (·.1))
  | v => v.itemsBy oracle .keys

/-- The values of a map. -/
def valuesBy (oracle : Oracle) : Value → Except Failure (List Value)
  | map entries => .ok (entries.map (·.2))
  | v => v.itemsBy oracle .values

/-- A text with every occurrence of a part replaced.  Bytes and dates are replaced in by other
means. -/
def replacedBy (oracle : Oracle) (part replacement : String) : Value → Except Failure Value
  | text s => .ok (text (String.ofList (Name.replaceAll part.toList replacement.toList s.toList)))
  | bytes _ | date _ | dateTime _ | time _ => .error .wrongType
  | object (.query q) => oracle q (.replace part replacement)
  | _ => .error .missingAttribute

/-- What a value that is no text answers to a request that a text could answer.  Bytes can too, but
not with a text for an argument. -/
def answerBy (oracle : Oracle) (request : Request) : Value → Except Failure Value
  | object (.query q) => oracle q request
  | bytes _ => .error .wrongType
  | _ => .error .missingAttribute

end Value

end FluentSql
