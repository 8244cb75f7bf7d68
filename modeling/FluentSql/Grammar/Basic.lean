import FluentSql.Name.Wrapping
import FluentSql.Value.Answer

/-!
# Grammars

A grammar is a dialect with a table prefix.  It quotes what stands for a
column or a table, and it writes placeholders for values.  A raw fragment is
never quoted and never becomes a placeholder: what it holds is written as it
is, and that need not be a text.

* `Grammar.wrap` and `Grammar.wrapTable` quote a column and a table.
* `Grammar.columnize` quotes a list of columns.
* `Grammar.parameter` and `Grammar.parameterize` write placeholders.
* `Grammar.fieldAndPath` and `Grammar.jsonFieldAndPath` take a path into a
  JSON column apart.
-/

namespace FluentSql

/-- What compiles queries: a dialect with a table prefix. -/
structure Grammar where
  /-- The dialect. -/
  dialect : Dialect
  /-- Whether it only quotes names and compiles no statements. -/
  namesOnly : Bool := false
  /-- What is put before every table name; a text, unless someone sets another value. -/
  tablePrefix : Value := .text ""
  /-- Whether the database has savepoints, read as a condition. -/
  supportsSavepoints : Value := .bool true

namespace Grammar

/-- The prefix as it is put before names. -/
def namePrefix (g : Grammar) : Name.TablePrefix :=
  g.tablePrefix.text?.map String.toList

/-- Quotes a reference given as text. -/
def wrapText (g : Grammar) (aliasToo : Bool) (s : String) : Except Failure String :=
  (Name.wrap g.dialect g.namePrefix aliasToo s.toList).map String.ofList

/-- Quotes a column, or a table whose prefix is in place. -/
def wrapAs (g : Grammar) (aliasToo : Bool) (v : Value) : Except Failure Value :=
  match v with
  | .raw value => .ok value
  | v => (g.wrapText aliasToo v.display).map .text

/-- Quotes a column. -/
def wrap (g : Grammar) (v : Value) : Except Failure Value :=
  g.wrapAs false v

/-- Quotes a table and puts the prefix before it. -/
def wrapTable (g : Grammar) (v : Value) : Except Failure Value :=
  match v with
  | .raw value => .ok value
  | v => do g.wrapAs true (← g.tablePrefix.plus v)

/-- The text of a quoted column. -/
def wrapped (g : Grammar) (v : Value) : Except Failure String :=
  (g.wrap v).map Value.display

/-- The text of a quoted table. -/
def wrappedTable (g : Grammar) (v : Value) : Except Failure String :=
  (g.wrapTable v).map Value.display

/-- Quotes columns, with commas between them. -/
def columnize (g : Grammar) (columns : List Value) : Except Failure String := do
  joinTexts ", " (← columns.mapM g.wrap)

/-- What stands in SQL for a value: a raw fragment itself, or a placeholder. -/
def parameter (v : Value) : Value :=
  match v with
  | .raw value => value
  | _ => .text "?"

/-- Placeholders for values, with commas between them. -/
def parameterize (values : List Value) : Except Failure String :=
  joinTexts ", " (values.map parameter)

/-- The quoted column of a JSON selector and its path argument. -/
def fieldAndPath (g : Grammar) (s : String) : Except Failure (String × String) := do
  let (field, path) ← Name.fieldAndPath (Name.wrap g.dialect g.namePrefix false) s.toList
  return (String.ofList field, String.ofList path)

/-- The quoted column of a JSON selector of any kind and its path argument. -/
def jsonFieldAndPath (g : Grammar) (oracle : Oracle) (selector : Value) :
    Except Failure (Value × String) :=
  match selector with
  | .text s => (g.fieldAndPath s).map fun (field, path) => (.text field, path)
  | selector => do
    let pieces ← selector.answerBy oracle (.split "->" (some 1))
    let field ← g.wrap (← pieces.subscript (.int 0))
    if 1 < (← pieces.length) then
      let path ← (← pieces.subscript (.int 1)).asText
      return (field, String.ofList (Name.pathArgument path.toList))
    else return (field, "")

end Grammar

end FluentSql
