import FluentSql.Compile.Statement
import FluentSql.Fluent.Where
import FluentSql.Store.Copy

/-!
# Statements of a query

What a query compiles to beside its select statement, each with the values in
the order of the placeholders.

* `alignRecords` gives inserted records the columns of the first, in its
  order.
* `QueryId.toInsertSql` and its kin, `toUpdateSql`, `toDeleteSql` and
  `toTruncateSql`.
* `QueryId.forAggregate` is a copy of a query that aggregates its rows.
-/

namespace FluentSql

/-! ## Inserted records -/

/-- A pair whose first value may be a key. -/
def pairOf (v : Value) : Except Failure (Value × Value) := do
  match ← v.items with
  | [key, value] => if key.hashable then return (key, value) else throw .wrongType
  | _ => throw .badValue

/-- The entries that a query gives for a record.  It can name keys, but has no values for them. -/
def recordOfQuery (run : Runner) (q : QueryId) : Action (List (Value × Value)) := do
  if ((← get).extension? Request.keys.name).isNone then throw .wrongType
  let keys ← (← Extensions.call run q Request.keys.name []).itemsNow
  if keys.isEmpty then return [] else throw .wrongType

/-- A record: a map, or a sequence of pairs. -/
def recordOf (run : Runner) (v : Value) : Action (List (Value × Value)) := do
  match ← v.now with
  | .map entries => return entries
  | .object (.query q) => recordOfQuery run q
  | v => return ofEntries (← Action.ofExcept ((← Action.ofExcept v.items).mapM pairOf))

/-- The records of an insert, given as one map or as a sequence of records. -/
def recordsOf (run : Runner) (values : Value) : Action (List (List (Value × Value))) := do
  match ← values.now with
  | .map entries => return [entries]
  | values => (← Action.ofExcept values.items).mapM (recordOf run)

/-- A record in the order of some columns, which it must have and no others. -/
def alignRecord (columns : List Value) (record : List (Value × Value)) :
    Except Failure (List (Value × Value)) :=
  if sameKeys (record.map (·.1)) columns then
    columns.mapM fun column =>
      (lookupKey column record).elim (.error (.value .missingKey)) fun value => .ok (column, value)
  else .error (.argument .recordColumns)

/-- The records in the column order of the first.  Records without columns count as no record. -/
def alignRecords (records : List (List (Value × Value))) :
    Except Failure (List (List (Value × Value))) :=
  match records with
  | [] => .ok []
  | first :: _ => do
    let columns := first.map (·.1)
    let aligned ← records.mapM (alignRecord columns)
    return if columns.isEmpty then [] else aligned

/-- Records as a value. -/
def recordsValue (records : List (List (Value × Value))) : Value :=
  .list (records.map .map)

/-- The values of records that are no raw fragments, row by row. -/
def recordBindings (records : List (List (Value × Value))) : List Value :=
  Grammar.boundValues (records.flatMap (·.map (·.2)))

/-- A compiled statement with its values. -/
structure Statement where
  /-- The text. -/
  sql : String
  /-- The values of its placeholders. -/
  bindings : List Value

namespace QueryId

/-- The question whether the query has rows. -/
def toExistsSql (run : Runner) (q : QueryId) : Action Statement :=
  return ⟨← q.compile run "compile_exists" Grammar.existsSql, ← q.bindings⟩

/-- An insert by a method of the grammar, compiled from its aligned records. -/
def insertStatement (run : Runner) (q : QueryId) (values : Value) (method : String)
    (sql : Grammar → Oracle → Query → Value → Except Failure String) : Action Statement := do
  let records ← Action.ofExcept (alignRecords (← recordsOf run values))
  let shown ← (recordsValue records).shown
  let sql ← q.compile run method fun g attached query => sql g attached.oracle query shown
  return ⟨sql, recordBindings records⟩

/-- The insert of records. -/
def toInsertSql (run : Runner) (q : QueryId) (values : Value) : Action Statement :=
  q.insertStatement run values "compile_insert" Grammar.insertSql

/-- The insert that passes over rejected rows. -/
def toInsertOrIgnoreSql (run : Runner) (q : QueryId) (values : Value) : Action Statement :=
  q.insertStatement run values "compile_insert_or_ignore" Grammar.insertIgnoringSql

/-- The insert that gives the id of the new row. -/
def toInsertGetIdSql (run : Runner) (q : QueryId) (values sequence : Value) : Action Statement := do
  let sequence ← sequence.shown
  q.insertStatement run values "compile_insert_get_id" fun g oracle query records =>
    g.insertReturningSql oracle query records sequence

/-- The values of a query in the order of one of its statements. -/
def arrange (run : Runner) (q : QueryId) (method : String)
    (f : Grammar → Oracle → Value → Except Failure (List Value)) : Action (List Value) :=
  consult run fun s known => do
    let query := s.query q
    let g ← s.grammarFor query.grammar method
    f g (s.oracle known) (.map query.bindings.toEntries)

/-- The update of the rows of the query. -/
def toUpdateSql (run : Runner) (q : QueryId) (values : Value) : Action Statement := do
  let shown ← values.shown
  let sql ← q.compile run "compile_update" fun g attached query => g.updateSql attached query shown
  let values ← values.now
  let bindings ← q.arrange run "prepare_bindings_for_update" fun g oracle bindings =>
    g.updateBindings oracle bindings values
  return ⟨sql, bindings⟩

/-- The column of the row id, under the name by which the source is addressed. -/
def idColumn (q : QueryId) : Action Value := do
  let _ ← q.grammarFor "table_alias"
  return .text (Name.lastAlias (← (← q.read).source.displayNow) ++ ".id")

/-- The delete of the rows of the query, or only of the row with an id. -/
def toDeleteSql (run : Runner) (q : QueryId) (id : Value) : Action Statement := do
  let target ← if id.isNull then pure q
    else do
      let restricted ← q.copy
      restricted.where run (← q.idColumn) (some (.text "=")) (some id) (.text "and")
      pure restricted
  let sql ← target.compile run "compile_delete" Grammar.deleteSql
  let bindings ← target.arrange run "prepare_bindings_for_delete" fun _ oracle bindings =>
    Grammar.deleteBindings oracle bindings
  return ⟨sql, bindings⟩

/-- The statements that empty the table of the query. -/
def toTruncateSql (run : Runner) (q : QueryId) : Action (List Statement) := do
  let statements ← q.compile run "compile_truncate" fun g _ query => g.truncateStatements query
  return statements.map fun statement => ⟨statement.1, statement.2⟩

/-! ## Copies -/

/-- The property that a value names. -/
def propertyOf (name : Value) : Except Failure QueryProperty :=
  if name.hashable then
    (name.text?.bind QueryProperty.ofName?).elim
      (.error (.argument (.property name.display))) .ok
  else .error .wrongType

/-- A copy with some properties put back to their start. -/
def copyWithout (q : QueryId) (properties : Value) : Action QueryId := do
  let copy ← q.copy
  for name in ← properties.itemsNow do
    let property ← Action.ofExcept (propertyOf name)
    copy.modify property.reset
  return copy

/-- A copy without the values of some groups. -/
def copyWithoutBindings (q : QueryId) (groups : Value) : Action QueryId := do
  let copy ← q.copy
  for name in ← groups.itemsNow do
    let group ← Action.ofExcept (BindingGroup.ofValue name)
    copy.modify (·.rebind group [])
  return copy

/-- A copy that aggregates the rows of the query.  Without unions it loses its select list, and
without groups its ordering. -/
def forAggregate (q : QueryId) (function columns : Value) : Action QueryId := do
  let copy ← q.copy
  copy.modify fun query =>
    if query.isUnion then query else { query.rebind .select [] with columns := none }
  let columns ← columns.itemsNow
  copy.modify fun query => { query with aggregate := some ⟨function, columns⟩ }
  copy.modify fun query => if query.groups.isEmpty then query.unordered else query
  return copy

end QueryId

end FluentSql
