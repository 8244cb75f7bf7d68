import FluentSql.Number.Shortest
import FluentSql.Text.Literal
import FluentSql.Value.Number

/-!
# JSON documents

A value as the text of a JSON document.  A comma or a colon is followed by a
space, every character beyond ASCII is escaped, and the keys of a map must be
scalars, which are written as texts.

* `Json.string` quotes a text.
* `Json.key` is the text of a key.
* `Value.json` writes a value; dates, bytes, raw fragments, objects and integers
  of too many digits have no JSON form, and a map inside itself has no end.
* `Value.jsonParameter` is what stands in SQL for a value inside a JSON
  comparison.
-/

namespace FluentSql

open Number Text

namespace Json

/-- The escape of a UTF-16 unit. -/
def unitEscape (unit : Nat) : List Char :=
  '\\' :: 'u' :: hexPadded 4 unit

/-- One character of a quoted text.  A character beyond the first plane is two units. -/
def escapeChar (c : Char) : List Char :=
  if c = '"' ∨ c = '\\' then ['\\', c]
  else if c = '\n' then ['\\', 'n']
  else if c = '\r' then ['\\', 'r']
  else if c = '\t' then ['\\', 't']
  else if c = '\x08' then ['\\', 'b']
  else if c = '\x0c' then ['\\', 'f']
  else if 32 ≤ c.toNat ∧ c.toNat < 127 then [c]
  else if c.toNat < 0x10000 then unitEscape c.toNat
  else
    let rest := c.toNat - 0x10000
    unitEscape (0xd800 + rest / 0x400) ++ unitEscape (0xdc00 + rest % 0x400)

/-- A text in quotes. -/
def string (s : String) : String :=
  String.ofList ('"' :: s.toList.flatMap escapeChar ++ ['"'])

/-- The text of an integer.  One with too many digits has no text. -/
def integer (i : Int) : Except Failure String :=
  if (natDigits i.natAbs).length ≤ maxNumeralDigits then .ok (intText i) else .error .badValue

/-- The text of a key. -/
def key : Value → Except Failure String
  | .text s => .ok s
  | .null => .ok "null"
  | .bool b => .ok (if b then "true" else "false")
  | .int i => integer i
  | .double x => .ok (DoubleStyle.json.text x)
  | _ => .error .wrongType

end Json

namespace Value

mutual

/-- The JSON document of a value. -/
def json : Value → Except Failure String
  | null => .ok "null"
  | bool b => .ok (if b then "true" else "false")
  | int i => Json.integer i
  | double x => .ok (DoubleStyle.json.text x)
  | text s => .ok (Json.string s)
  | list items => do return "[" ++ joinWith ", " (← jsonItems items) ++ "]"
  | tuple items => do return "[" ++ joinWith ", " (← jsonItems items) ++ "]"
  | map entries => do return "\x7b" ++ joinWith ", " (← jsonEntries entries) ++ "\x7d"
  | object (.bindings _) => .error .badValue
  | _ => .error .wrongType

/-- The documents of the elements of a list. -/
def jsonItems : List Value → Except Failure (List String)
  | [] => .ok []
  | v :: rest => do
    let document ← json v
    return document :: (← jsonItems rest)

/-- The entries of an object. -/
def jsonEntries : List (Value × Value) → Except Failure (List String)
  | [] => .ok []
  | (k, v) :: rest => do
    let name := Json.string (← Json.key k)
    let document ← json v
    return (name ++ ": " ++ document) :: (← jsonEntries rest)

end

/-- What a value becomes inside a JSON comparison: a raw fragment stays what it holds, a truth value
is the JSON word for it, and any other value of a JSON document is a placeholder. -/
def jsonParameter : Value → Option Value
  | raw value => some value
  | bool b => some (text (if b then "true" else "false"))
  | null | int _ | double _ | text _ | list _ | tuple _ | map _ | object (.bindings _) =>
    some (text "?")
  | _ => none

end Value

end FluentSql
