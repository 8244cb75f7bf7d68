import FluentSql.Grammar.Basic

/-!
# Pieces of SQL

What a caller asks of a grammar that writes SQL piece by piece.  Unlike the
compilers, which only meet texts where a name is due, a caller may give any
value.

* `Grammar.segment` and `Grammar.segments` quote one segment of a reference
  and all of them.
* `Grammar.aliased` quotes a reference that must have an alias, and
  `Grammar.selector` one that is taken for a path into a JSON column.
* `quotedText` writes a literal for contexts that take no placeholder.
-/

namespace FluentSql

mutual

/-- A value between single quotes, or the elements of a list or a tuple with commas between them.
Nothing is escaped. -/
def quotedText : Value → String
  | .list items => joinWith ", " (quotedTexts items)
  | .tuple items => joinWith ", " (quotedTexts items)
  | v => "'" ++ v.display ++ "'"

/-- The values of a list, each between single quotes. -/
def quotedTexts : List Value → List String
  | [] => []
  | v :: rest => quotedText v :: quotedTexts rest

end

namespace Grammar

/-- Quotes one segment of a reference. -/
def segment (g : Grammar) (oracle : Oracle) (v : Value) : Except Failure Value :=
  match v with
  | .text s => .ok (.text (String.ofList (Name.quoteName g.dialect s.toList)))
  | v => do
    let quote := String.singleton g.dialect.quote
    let doubled ← (← v.replacedBy oracle quote (quote ++ quote)).asText
    return .text (quote ++ doubled ++ quote)

/-- Quotes the segments of a reference, of which the first of several is a table. -/
def segments (g : Grammar) (oracle : Oracle) (v : Value) : Except Failure String := do
  let pieces ← match ← v.items with
    | table :: column :: rest => do
      let table ← g.wrapTable table
      let columns ← (column :: rest).mapM (g.segment oracle)
      .ok (table :: columns)
    | pieces => pieces.mapM (g.segment oracle)
  joinTexts "." pieces

/-- Quotes a reference with an alias; a reference without one fails. -/
def aliased (g : Grammar) (aliasToo : Bool) (v : Value) : Except Failure String := do
  let s ← v.asText
  match Name.splitAlias? s.toList with
  | some (name, given) => do
    let given ← if aliasToo then Name.TablePrefix.before g.namePrefix given else .ok given
    let name ← g.wrapText false (String.ofList name)
    return name ++ " as " ++ String.ofList (Name.quoteName g.dialect given)
  | none => do
    let _ ← if aliasToo then .error (.value .badIndex) else g.wrapText false s
    .error (.value .badIndex)

/-- A key of a path as it stands after an arrow: a text of digits is bare, others are quoted. -/
def keyPiece (oracle : Oracle) (key : Value) : Except Failure Value :=
  match key with
  | .text s => .ok (.text (String.ofList (Name.pathKey s.toList)))
  | key => do
    let bare ← match key with
      | .bytes bs => .ok (!bs.isEmpty && bs.all fun b => 48 ≤ b.toNat && b.toNat ≤ 57)
      | key => (key.answerBy oracle .onlyDigits).map Value.truthy
    return if bare then key else .text ("'" ++ key.display ++ "'")

/-- Takes out the first of some pieces that a query gave for a selector, and gives what is left.
The first piece of a map is that of the key zero, and its keys are left; a query that gives a
first piece has no others. -/
def firstPiece (oracle : Oracle) (pieces : Value) :
    Except Failure (Value × Except Failure (List Value)) :=
  match pieces with
  | .list (first :: rest) => .ok (first, .ok rest)
  | .list [] => .error (.value .badIndex)
  | .map entries => do
    let first ← (Value.map entries).subscript (.int 0)
    let left := entries.filter fun entry => !entry.1.equals (.int 0)
    return (first, .ok (left.map (·.1)))
  | .object (.query q) => do return (← oracle q .takeFirst, .error .wrongType)
  | _ => .error .missingAttribute

/-- Quotes a path into a JSON column, in PostgreSQL, from the pieces that a query gave for it. -/
def arrowPieces (g : Grammar) (oracle : Oracle) (pieces : Value) : Except Failure String := do
  let (field, keys) ← firstPiece oracle pieces
  let segments ← match field with
    | .text s => .ok (.list ((s.toList.splitOn '.').map fun cs => .text (String.ofList cs)))
    | field => field.answerBy oracle (.split "." none)
  let field ← g.segments oracle segments
  let keys ← (← keys).mapM (keyPiece oracle)
  match keys.getLast? with
  | none => .error (.value .badIndex)
  | some last => do
    let path ← joinTexts "->" keys.dropLast
    return field ++ (if keys.length ≤ 1 then "" else "->" ++ path) ++ "->>" ++ last.display

/-- Quotes a path into a JSON column that is given as a query. -/
def selectorOfQuery (g : Grammar) (oracle : Oracle) (v : Value) : Except Failure String :=
  match g.dialect with
  | .ansi => .error (.unsupported .json)
  | .mysql => do
    let (field, path) ← g.jsonFieldAndPath oracle v
    return "json_unquote(json_extract(" ++ field.display ++ path ++ "))"
  | .sqlite => do
    let (field, path) ← g.jsonFieldAndPath oracle v
    return "json_extract(" ++ field.display ++ path ++ ")"
  | .postgres => do g.arrowPieces oracle (← v.answerBy oracle (.split "->" none))

/-- Quotes a path into a JSON column, whether or not it has an arrow. -/
def selector (g : Grammar) (oracle : Oracle) (v : Value) : Except Failure String :=
  match v with
  | .text s =>
    let wrapTable := fun table => do
      Name.wrap g.dialect g.namePrefix true (← Name.TablePrefix.before g.namePrefix table)
    (Name.wrapSelector g.dialect (Name.wrap g.dialect g.namePrefix false) wrapTable s.toList).map
      String.ofList
  | v => g.selectorOfQuery oracle v

/-- The path of a selector as a literal. -/
def pathLiteral (path delimiter : Value) : Except Failure String := do
  let path ← path.asText
  let delimiter ← delimiter.asText
  return String.ofList (Name.pathLiteral delimiter.toList path.toList)

/-- A member of a union as it stands there. -/
def unionMember (g : Grammar) (sql : Value) : Value :=
  if g.dialect = .mysql then .text ("(" ++ sql.display ++ ")") else sql

end Grammar

end FluentSql
