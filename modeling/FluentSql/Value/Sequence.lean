import FluentSql.Value.Number

/-!
# Values as sequences

* `Value.items` are the elements that a value is gone through by: a text gives
  its characters, a map its keys, bytes their numbers.
* `Value.length` counts them, `Value.subscript` picks one, and `Value.pair`
  takes exactly two.
* `Value.asText` takes texts only, and so does `joinTexts`.
* `Value.contains` looks for a text in a value.
-/

namespace FluentSql

namespace Value

/-- The elements of a value, in order. -/
def items : Value → Except Failure (List Value)
  | text s => .ok (s.toList.map fun c => text (String.singleton c))
  | bytes bs => .ok (bs.map fun b => int b.toNat)
  | list items => .ok items
  | tuple items => .ok items
  | map entries => .ok (entries.map (·.1))
  | _ => .error .wrongType

/-- The number of elements of a value. -/
def length (v : Value) : Except Failure Nat :=
  v.items.map (·.length)

/-- The elements of a list or a tuple. -/
def listItems? : Value → Option (List Value)
  | list items => some items
  | tuple items => some items
  | _ => none

/-- The elements of a list or a tuple, or else the value alone. -/
def listed (v : Value) : List Value :=
  v.listItems?.getD [v]

/-- The text that a value is. -/
def asText : Value → Except Failure String
  | text s => .ok s
  | _ => .error .wrongType

/-- The element at a place; a negative place counts from the end. -/
def elementAt (elements : List Value) (place : Int) : Except Failure Value :=
  let place := if place < 0 then place + elements.length else place
  if place < 0 then .error (.value .badIndex)
  else elements[place.toNat]?.elim (.error (.value .badIndex)) .ok

/-- The value at a place of a sequence, or under a key of a map. -/
def subscript (v key : Value) : Except Failure Value :=
  match v with
  | map entries =>
    if key.hashable then (lookupKey key entries).elim (.error (.value .missingKey)) .ok
    else .error .wrongType
  | text _ | bytes _ | list _ | tuple _ =>
    match key with
    | int place => do elementAt (← v.items) place
    | bool b => do elementAt (← v.items) (if b then 1 else 0)
    | _ => .error .wrongType
  | _ => .error .wrongType

/-- The two elements of a pair. -/
def pair (v : Value) : Except Failure (Value × Value) := do
  match ← v.items with
  | [first, second] => .ok (first, second)
  | _ => .error .badValue

/-- Whether a text occurs in another. -/
def textIn (part : List Char) : List Char → Bool
  | [] => part.isEmpty
  | c :: rest => part.isPrefixOf (c :: rest) || textIn part rest

/-- Whether a text occurs in a text, or is an element of a sequence. -/
def contains (part : String) : Value → Except Failure Bool
  | text s => .ok (textIn part.toList s.toList)
  | list items => .ok (items.any (text part).equals)
  | tuple items => .ok (items.any (text part).equals)
  | map entries => .ok (entries.any fun entry => (text part).sameKey entry.1)
  | _ => .error .wrongType

end Value

/-- Texts with a separator between neighbours; a value that is no text fails. -/
def joinTexts (separator : String) (values : List Value) : Except Failure String :=
  return joinWith separator (← values.mapM Value.asText)

end FluentSql
