import FluentSql.Execution.Engine
import FluentSql.Failure
import FluentSql.Number.Decimal
import FluentSql.Value.Sequence

/-!
# Placeholder styles

Queries write a question mark for every value.  Engines take other styles, so
a statement is converted before it is sent.  Question marks inside quotes are
no placeholders; a quote ends at the next quote of its kind, and one that is
never closed runs to the end.

* `Style` are the styles that a statement is converted to.
* `convertFrom` converts the elements of a statement one after another.
* `convertPlaceholders` converts a statement and arranges its values.
-/

namespace FluentSql

/-- A placeholder style other than the question mark. -/
inductive Style where
  /-- A percent sign and a letter. -/
  | format
  /-- Written like `format`, for engines that also take names. -/
  | pyformat
  /-- A colon and the place, the first being 1. -/
  | numeric
  /-- A colon and a name. -/
  | named
deriving DecidableEq

namespace Style

/-- The style of a name. -/
def ofName? (name : String) : Option Style :=
  [("format", format), ("pyformat", pyformat), ("numeric", numeric), ("named", named)].lookup name

/-- Whether a percent sign is written twice. -/
def doublesPercent : Style → Bool
  | format | pyformat => true
  | numeric | named => false

/-- The name of the value at a place, the first being 0. -/
def valueName (index : Nat) : List Char :=
  'p' :: Number.natDigits index

/-- The placeholder at a place, the first being 0. -/
def placeholder (style : Style) (index : Nat) : List Char :=
  match style with
  | format | pyformat => ['%', 's']
  | numeric => ':' :: Number.natDigits (index + 1)
  | named => ':' :: valueName index

end Style

/-- Whether a percent sign is written twice in the style of a name. -/
def escapesPercent (style : Value) : Bool :=
  (style.text?.bind Style.ofName?).any Style.doublesPercent

/-- Whether a character is a quote. -/
def isQuote (c : Char) : Bool :=
  c == '\'' || c == '"' || c == '\x60'

/-- Converts the placeholders of a statement whose elements may be characters: `charOf` is the
character that an element is, and `write` gives the elements of a text.  `quote` is the quote that
is open and `index` the number of placeholders so far.  A style that is not known fails at the
first placeholder. -/
def convertFrom {α : Type} (charOf : α → Option Char) (write : List Char → List α)
    (escapes : Bool) (placeholder : Nat → Except Failure (List Char)) :
    (quote : Option Char) → (index : Nat) → List α → Except Failure (List α)
  | _, _, [] => .ok []
  | quote, index, a :: rest =>
    let convert quote index := convertFrom charOf write escapes placeholder quote index rest
    if escapes && charOf a == some '%' then
      return write ['%', '%'] ++ (← convert quote index)
    else
      match quote, charOf a with
      | some open_, c => return a :: (← convert (if c = some open_ then none else quote) index)
      | none, some '?' => do
        let mark ← placeholder index
        return write mark ++ (← convert none (index + 1))
      | none, some c => return a :: (← convert (if isQuote c then some c else none) index)
      | none, none => return a :: (← convert none index)

/-- The placeholders of a style; one that is not known has none. -/
def placeholderOf (style : Value) (index : Nat) : Except Failure (List Char) :=
  match style.text?.bind Style.ofName? with
  | some style => .ok (style.placeholder index)
  | none => .error (.connection (.placeholderStyle style.display))

/-- The character that a value is. -/
def Value.char? (v : Value) : Option Char :=
  match v.text?.map String.toList with
  | some [c] => some c
  | _ => none

/-- The text of a statement with its placeholders converted.  A statement that is no text is put
together from its elements. -/
def convertText (style : Value) : Value → Except Failure String
  | .text s => do
    let converted ← convertFrom some id (escapesPercent style) (placeholderOf style) none 0 s.toList
    return String.ofList converted
  | sql => do
    let converted ← convertFrom Value.char? (fun cs => [.text (String.ofList cs)])
      (escapesPercent style) (placeholderOf style) none 0 (← sql.items)
    joinTexts "" converted

/-- The values of a statement, by place or by name. -/
def arrangeValues (style : Value) (values : List Value) : Parameters :=
  if style.text? = some "named" then
    .named (values.mapIdx fun index value => (String.ofList (Style.valueName index), value))
  else .positional values

/-- Converts a statement for an engine and arranges its values.  A statement without values is sent
as it is. -/
def convertPlaceholders (sql style bindings : Value) : Except Failure SentStatement := do
  if !bindings.truthy then return ⟨sql, .none⟩
  else if style.text? = some "qmark" then return ⟨sql, .positional (← bindings.items)⟩
  else
    let converted ← convertText style sql
    return ⟨.text converted, arrangeValues style (← bindings.items)⟩

end FluentSql
