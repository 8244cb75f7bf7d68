import FluentSql.Dialect
import FluentSql.Failure
import FluentSql.Name.Alias
import FluentSql.Name.Path
import FluentSql.Text.Digit

/-!
# Quoting of names

A reference names a column or a table: segments with points between them,
perhaps an alias, perhaps a path into a JSON column.  Each segment is quoted
on its own, and the table prefix is put before the table of a reference.

* `quoteName` quotes one segment.
* `TablePrefix` is the prefix; one that is no text cannot be put before a
  name.
* `wrapFrom` quotes a reference.  Every step passes to a shorter part of the
  reference, except the step that puts the prefix before a table; `fuel`
  bounds the steps, and `wrap` gives enough of them for every reference under
  a prefix without points.
-/

namespace FluentSql.Name

/-- Writes every occurrence of a quote twice. -/
def doubleChar (quote : Char) (cs : List Char) : List Char :=
  cs.flatMap fun c => if c = quote then [c, c] else [c]

/-- A segment in quotes.  The asterisk stands for all columns and is left as it is. -/
def quoteName (dialect : Dialect) (cs : List Char) : List Char :=
  if cs = ['*'] then cs
  else dialect.quote :: doubleChar dialect.quote cs ++ [dialect.quote]

/-- The prefix of table names.  There is nothing in it when it is no text. -/
abbrev TablePrefix := Option (List Char)

namespace TablePrefix

/-- The name with the prefix before it. -/
def before (tablePrefix : TablePrefix) (cs : List Char) : Except Failure (List Char) :=
  tablePrefix.elim (.error .wrongType) fun p => .ok (p ++ cs)

end TablePrefix

/-- Segments with points between them. -/
def joinPoints : List (List Char) → List Char
  | [] => []
  | [segment] => segment
  | segment :: rest => segment ++ '.' :: joinPoints rest

/-- A key of a path after an arrow: an array index is bare and any other key is quoted. -/
def pathKey (key : List Char) : List Char :=
  if Text.allDigits (String.ofList key) then key else '\'' :: key ++ ['\'']

/-- The keys of a path with arrows before them, the last arrow being the one that gives text. -/
def arrowKeys : List (List Char) → List Char
  | [] => []
  | [key] => ['-', '>', '>'] ++ pathKey key
  | key :: rest => ['-', '>'] ++ pathKey key ++ arrowKeys rest

/-- Quotes the segments of a reference.  The first of several is a table, which `wrapTable`
quotes. -/
def wrapSegments (dialect : Dialect) (wrapTable : List Char → Except Failure (List Char))
    (segments : List (List Char)) : Except Failure (List Char) :=
  match segments with
  | table :: column :: rest => do
    let table ← wrapTable table
    return joinPoints (table :: (column :: rest).map (quoteName dialect))
  | segments => .ok (joinPoints (segments.map (quoteName dialect)))

/-- The path of a selector as the second argument of a JSON function: a comma and a literal. -/
def pathArgument (path : List Char) : List Char :=
  ", ".toList ++ pathLiteral arrow path

/-- The quoted column of a selector and its path argument, which is empty if there is no path. -/
def fieldAndPath (wrap : List Char → Except Failure (List Char)) (cs : List Char) :
    Except Failure (List Char × List Char) :=
  match splitArrow? cs with
  | some (field, path) => do return (← wrap field, pathArgument path)
  | none => do return (← wrap cs, [])

/-- Quotes a path into a JSON column, given how to quote a column and the table of a reference. -/
def wrapSelector (dialect : Dialect) (wrap wrapTable : List Char → Except Failure (List Char))
    (cs : List Char) : Except Failure (List Char) :=
  match dialect with
  | .ansi => .error (.unsupported .json)
  | .mysql => do
    let (field, path) ← fieldAndPath wrap cs
    return "json_unquote(json_extract(".toList ++ field ++ path ++ "))".toList
  | .sqlite => do
    let (field, path) ← fieldAndPath wrap cs
    return "json_extract(".toList ++ field ++ path ++ ")".toList
  | .postgres =>
    match splitArrows cs with
    | field :: key :: keys => do
      let field ← wrapSegments dialect wrapTable (field.splitOn '.')
      return field ++ arrowKeys (key :: keys)
    | pieces => do
      let _ ← wrapSegments dialect wrapTable (pieces.flatten.splitOn '.')
      .error (.value .badIndex)

/-- Quotes a reference.  With `aliasToo` the prefix is put before the alias as well. -/
def wrapFrom (dialect : Dialect) (tablePrefix : TablePrefix) :
    (fuel : Nat) → (aliasToo : Bool) → List Char → Except Failure (List Char)
  | 0, _, _ => .error (.value .endless)
  | fuel + 1, aliasToo, cs =>
    let wrap := wrapFrom dialect tablePrefix fuel false
    let wrapTable := fun table => do
      wrapFrom dialect tablePrefix fuel true (← tablePrefix.before table)
    match splitAlias? cs with
    | some (name, given) => do
      let given ← if aliasToo then tablePrefix.before given else .ok given
      return (← wrap name) ++ " as ".toList ++ quoteName dialect given
    | none =>
      if hasArrow cs then wrapSelector dialect wrap wrapTable cs
      else wrapSegments dialect wrapTable (cs.splitOn '.')

/-- The steps that quoting a reference may take. -/
def wrapFuel : Nat := 12

/-- Quotes a reference to a column, or to a table if `aliasToo` is set. -/
def wrap (dialect : Dialect) (tablePrefix : TablePrefix) (aliasToo : Bool) (cs : List Char) :
    Except Failure (List Char) :=
  wrapFrom dialect tablePrefix wrapFuel aliasToo cs

end FluentSql.Name
