import FluentSql.Compile.Select

/-!
# Queries as statements that change rows

* Inserts: `insertSql` and its forms that pass over rejected rows, that give
  the id of the new row, and that insert the rows of a query.
* Updates and deletes: `updateSql` and `deleteSql`.  A dialect whose rows have
  an address selects the rows by it when there are joins or a limit.
* `updateBindings` and `deleteBindings` put the values of a query into the
  order of its update or delete.
* `truncateStatements` empties a table; each statement comes with its values.
-/

namespace FluentSql

namespace Grammar

/-! ## Inserts -/

/-- The insert of a row without values. -/
def insertDefaultsSql (g : Grammar) (table : String) : String :=
  if g.dialect = .mysql then "insert into " ++ table ++ " () values ()"
  else "insert into " ++ table ++ " default values"

/-- The first of some records, given as a list or a tuple.  The elements of texts and bytes are no
records. -/
def firstRecord : Value → Except Failure Value
  | .list (record :: _) | .tuple (record :: _) => .ok record
  | .text _ | .bytes _ => .error .missingAttribute
  | _ => .error .wrongType

/-- The insert of records: one map, or a list of maps whose first gives the columns. -/
def insertSql (g : Grammar) (oracle : Oracle) (q : Query) (records : Value) :
    Except Failure String := do
  let table ← g.wrappedTable q.source
  if records.truthy then
    let records := match records with
      | .map entries => .list [.map entries]
      | records => records
    let first ← firstRecord records
    let columns ← g.columnize (← first.keysBy oracle)
    let rows ← (← records.items).mapM fun record => do
      return "(" ++ (← parameterize (← record.valuesBy oracle)) ++ ")"
    return "insert into " ++ table ++ " (" ++ columns ++ ") values " ++ joinWith ", " rows
  else return g.insertDefaultsSql table

/-- Replaces the first occurrence of the word for inserting. -/
def replaceInsert (new : String) (sql : String) : String :=
  String.ofList (Name.replaceFirst "insert".toList new.toList sql.toList)

/-- The insert that passes over rejected rows. -/
def insertIgnoringSql (g : Grammar) (oracle : Oracle) (q : Query) (records : Value) :
    Except Failure String :=
  match g.dialect with
  | .ansi => .error (.unsupported .insertIgnoring)
  | .mysql => (g.insertSql oracle q records).map (replaceInsert "insert ignore")
  | .sqlite => (g.insertSql oracle q records).map (replaceInsert "insert or ignore")
  | .postgres => (g.insertSql oracle q records).map (· ++ " on conflict do nothing")

/-- The insert that gives the id of the new row; PostgreSQL asks for the column that holds it. -/
def insertReturningSql (g : Grammar) (oracle : Oracle) (q : Query) (records sequence : Value) :
    Except Failure String := do
  let insert ← g.insertSql oracle q records
  if g.dialect = .postgres then
    let column := if sequence.truthy then sequence else .text "id"
    return insert ++ " returning " ++ (← g.wrapped column)
  else return insert

/-- The insert of the rows of a query. -/
def insertUsingSql (g : Grammar) (q : Query) (columns : List Value) (sql : Value) :
    Except Failure String := do
  let table ← g.wrappedTable q.source
  return "insert into " ++ table ++ " (" ++ (← g.columnize columns) ++ ") " ++ sql.display

/-! ## Updates and deletes -/

/-- The assignments of an update. -/
def assignmentsSql (g : Grammar) (oracle : Oracle) (values : Value) : Except Failure String := do
  let fragments ← (← values.entriesBy oracle).mapM fun entry => do
    return (← g.wrapped entry.1) ++ " = " ++ (parameter entry.2).display
  return joinWith ", " fragments

/-- The ordering and the limit at the end of an update or delete without joins, in MySQL. -/
def changeTail (g : Grammar) (q : Query) (sql : String) : Except Failure String :=
  if g.dialect = .mysql then do
    let orders ← trailingOf q.orders g.ordersSql
    return Text.trimRight sql ++ orders ++ (← trailing q.limit limitSql)
  else .ok sql

/-- The column with the address of a row, if the rows of a query are selected by it. -/
def addressColumn? (g : Grammar) (q : Query) : Option String :=
  if !q.joins.isEmpty || q.limit.isSome then g.dialect.rowAddress? else none

/-- The condition that a row is among those of a query, by its address.  The rows are selected by a
copy of the query. -/
def addressCondition (g : Grammar) (attached : Attached) (q : Query) (address : String) :
    Except Failure String := do
  let source := Name.lastAlias q.source.display
  if !attached.canCopy q then throw .wrongType
  let select ← g.selectSql attached { q with columns := some [.text (source ++ "." ++ address)] }
  return "where " ++ (← g.wrapped (.text address)) ++ " in (" ++ select ++ ")"

/-- The update of the rows of a query. -/
def updateSql (g : Grammar) (attached : Attached) (q : Query) (values : Value) :
    Except Failure String := do
  let table ← g.wrappedTable q.source
  let assignments ← g.assignmentsSql attached.oracle values
  match g.addressColumn? q with
  | some address =>
    return "update " ++ table ++ " set " ++ assignments ++ " " ++
      (← g.addressCondition attached q address)
  | none =>
    let condition ← g.wheresSql attached q
    let sql ← if q.joins.isEmpty then
        g.changeTail q ("update " ++ table ++ " set " ++ assignments ++ " " ++ condition)
      else do
        let joins ← joinsSql attached q.joins
        .ok ("update " ++ table ++ " " ++ joins ++ " set " ++ assignments ++ " " ++ condition)
    return Text.trim sql

/-- What stands after the last occurrence of a text; the whole if there is none.  `current` holds
what was read since the last occurrence, last character first, and `skip` counts the characters of
an occurrence still to be passed over. -/
def afterLastFrom (part current : List Char) (skip : Nat) : List Char → List Char
  | [] => current.reverse
  | c :: rest =>
    match skip with
    | skip + 1 => afterLastFrom part current skip rest
    | 0 =>
      if part.isPrefixOf (c :: rest) then afterLastFrom part [] (part.length - 1) rest
      else afterLastFrom part (c :: current) 0 rest

/-- The name by which a quoted table is addressed: its alias, or the table itself. -/
def quotedAlias (oracle : Oracle) (table : Value) : Except Failure String :=
  match table with
  | .text s => .ok (String.ofList (afterLastFrom " as ".toList [] 0 s.toList))
  | table => do
    let pieces ← table.answerBy oracle (.split " as " none)
    return (← pieces.subscript (.int (-1))).display

/-- The delete of the rows of a query. -/
def deleteSql (g : Grammar) (attached : Attached) (q : Query) : Except Failure String := do
  let table ← g.wrapTable q.source
  match g.addressColumn? q with
  | some address =>
    return "delete from " ++ table.display ++ " " ++ (← g.addressCondition attached q address)
  | none =>
    let condition ← g.wheresSql attached q
    let sql ← if q.joins.isEmpty then
        g.changeTail q ("delete from " ++ table.display ++ " " ++ condition)
      else do
        let target ← quotedAlias attached.oracle table
        let joins ← joinsSql attached q.joins
        .ok ("delete " ++ target ++ " from " ++ table.display ++ " " ++ joins ++ " " ++ condition)
    return Text.trim sql

/-- The values of all groups but some, in order. -/
def bindingsBut (groups : List String) (bindings : List (Value × Value)) :
    Except Failure (List Value) := do
  let kept := bindings.filter fun entry => !groups.any fun name => (Value.text name).equals entry.1
  return (← kept.mapM fun entry => entry.2.items).flatten

/-- The values that are no raw fragments. -/
def boundValues (values : List Value) : List Value :=
  values.filter fun v => !v.isRaw

/-- The values of an update in the order of its placeholders, given those of the query by groups.
Joins stand before the assignments, unless the rows are selected by their address. -/
def updateBindings (g : Grammar) (oracle : Oracle) (bindings values : Value) :
    Except Failure (List Value) := do
  if g.dialect.rowAddress?.isSome then
    let assigned := boundValues (← values.valuesBy oracle)
    return assigned ++ (← bindingsBut ["select"] (← bindings.entriesBy oracle))
  else
    let rest ← bindingsBut ["select", "join"] (← bindings.entriesBy oracle)
    let assigned := boundValues (← values.valuesBy oracle)
    let joins ← (← bindings.subscript (.text "join")).items
    return joins ++ assigned ++ rest

/-- The values of a delete in the order of its placeholders, given those of the query by groups. -/
def deleteBindings (oracle : Oracle) (bindings : Value) : Except Failure (List Value) := do
  bindingsBut ["select"] (← bindings.entriesBy oracle)

/-! ## Emptying a table -/

/-- The statements that empty a table, each with its values. -/
def truncateStatements (g : Grammar) (q : Query) : Except Failure (List (String × List Value)) :=
  match g.dialect with
  | .sqlite => do
    let name ← g.tablePrefix.plus (.text q.source.display)
    let table ← g.wrappedTable q.source
    return [("delete from sqlite_sequence where name = ?", [name]), ("delete from " ++ table, [])]
  | .postgres => do
    return [("truncate " ++ (← g.wrappedTable q.source) ++ " restart identity cascade", [])]
  | _ => do return [("truncate table " ++ (← g.wrappedTable q.source), [])]

/-! ## Savepoints -/

/-- A statement about a savepoint. -/
def savepointSql (g : Grammar) (words : String) (name : Value) : Except Failure String :=
  if g.supportsSavepoints.truthy then .ok (words ++ " " ++ name.display)
  else .error (.unsupported .savepoints)

end Grammar

end FluentSql
