import FluentSql.Number.Shortest
import FluentSql.Text.Literal
import FluentSql.Value.Basic

/-!
# The text of a value

A value has two texts.  Its literal shows what kind of value it is: texts are
quoted, dates name their fields.  Its display is what stands in SQL text: a
text is itself, and a raw fragment is the text of what it holds.

* `Value.literal` with `literals` and `entryLiterals` for the elements of a
  list and of a map.
* `Value.display`.
-/

namespace FluentSql

open Number Text

/-- Texts with a separator between neighbours. -/
def joinWith (separator : String) : List String → String
  | [] => ""
  | [s] => s
  | s :: rest => s ++ separator ++ joinWith separator rest

/-- The text of a reference, which says no more than what kind of object it is.  The bindings of a
query are shown as a map elsewhere; here they are the map inside itself. -/
def Handle.display : Handle → String
  | query _ => "<query>"
  | grammar _ => "<grammar>"
  | connection _ => "<connection>"
  | resolver _ => "<resolver>"
  | extensions => "<extensions>"
  | callback _ => "<callback>"
  | settings _ => "<settings>"
  | bindings _ => "\x7b...\x7d"

/-- The fields of a date in a literal. -/
def Date.fields (d : Date) : List Nat := [d.year, d.month, d.day]

/-- The fields of a time in a literal: the seconds are left out when they are zero. -/
def TimeOfDay.fields (t : TimeOfDay) : List Nat :=
  if t.second = 0 then [t.hour, t.minute] else [t.hour, t.minute, t.second]

/-- A literal that names its fields. -/
def fieldsLiteral (name : String) (fields : List Nat) : String :=
  name ++ "(" ++ joinWith ", " (fields.map natText) ++ ")"

/-- A truth value in a literal. -/
def boolLiteral (b : Bool) : String :=
  if b then "True" else "False"

namespace Value

mutual

/-- The literal of a value. -/
def literal : Value → String
  | null => "None"
  | bool b => boolLiteral b
  | int i => intText i
  | double x => DoubleStyle.plain.text x
  | text s => Text.literal s
  | bytes bs => bytesLiteral bs
  | date d => fieldsLiteral "datetime.date" d.fields
  | dateTime d => fieldsLiteral "datetime.datetime" (d.date.fields ++ d.time.fields)
  | time t => fieldsLiteral "datetime.time" t.fields
  | list items => "[" ++ joinWith ", " (literals items) ++ "]"
  | tuple items =>
    match items with
    | [item] => "(" ++ literal item ++ ",)"
    | items => "(" ++ joinWith ", " (literals items) ++ ")"
  | map entries => "\x7b" ++ joinWith ", " (entryLiterals entries) ++ "\x7d"
  | raw value => "Expression(" ++ literal value ++ ")"
  | object handle => handle.display

/-- The literals of the elements of a list. -/
def literals : List Value → List String
  | [] => []
  | v :: rest => literal v :: literals rest

/-- The literals of the entries of a map. -/
def entryLiterals : List (Value × Value) → List String
  | [] => []
  | (k, v) :: rest => (literal k ++ ": " ++ literal v) :: entryLiterals rest

end

/-- The text of a value in SQL text and in messages. -/
def display : Value → String
  | text s => s
  | raw value => display value
  | date d => d.iso
  | dateTime d => d.date.iso ++ " " ++ d.time.iso
  | time t => t.iso
  | v => v.literal

end Value

end FluentSql
