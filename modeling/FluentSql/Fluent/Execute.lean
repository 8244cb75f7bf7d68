import FluentSql.Execution.Connection
import FluentSql.Fluent.Order
import FluentSql.Fluent.Statement

/-!
# Running a query

Every call compiles the query and then hands the statement to the connection
of the query.

* `QueryId.get`, `first`, `find`, `value`, `pluck`, `hasRows` read rows.
* `QueryId.aggregate`, `count` and `sum` read one number.
* `QueryId.insert`, `update`, `delete`, `truncate` and their kin change rows.
-/

namespace FluentSql

namespace QueryId

/-- The connection of a query. -/
def needConnection (q : QueryId) : Action ConnectionId := do
  (← q.read).connection.elim (throw .noConnection) pure

/-! ## Reading rows -/

/-- Runs the query and gives its rows.  Columns may be named for a query that has no select list. -/
def get (run : Runner) (q : QueryId) (columns : Value) : Action (List Row) := do
  let chosen ← if (← q.read).columns.isNone then columns.itemsOrNone else pure []
  let shown ← chosen.mapM Value.shown
  let sql ← q.compile run "compile_select" fun g attached query =>
    g.selectSql attached
      (if chosen.isEmpty then query else { query with columns := some shown })
  let bindings ← q.bindings
  (← q.needConnection).select (.text sql) (.list bindings)

/-- Runs the query for one row. -/
def first (run : Runner) (q : QueryId) (columns : Value) : Action (Option Row) := do
  let copy ← q.copy
  copy.limit (.int 1)
  return (← copy.get run columns).head?

/-- The row with an id. -/
def find (run : Runner) (q : QueryId) (id columns : Value) : Action (Option Row) := do
  let copy ← q.copy
  copy.where run (.text "id") (some (.text "=")) (some id) (.text "and")
  copy.first run columns

/-- The value that stands first in a row. -/
def firstValue (row : Row) : Except Failure Value :=
  row.head?.elim (.error (.value .noElement)) fun entry => .ok entry.2

/-- The first value of the first row, if there is a row that is not empty. -/
def value (run : Runner) (q : QueryId) (column : Value) : Action Value := do
  match ← q.first run (.list [column]) with
  | some (entry :: _) => return entry.2
  | _ => return .null

/-- The first value of every row. -/
def pluck (run : Runner) (q : QueryId) (column : Value) : Action (List Value) := do
  let rows ← q.get run (.list [column])
  Action.ofExcept (rows.mapM firstValue)

/-- The value of a column in the first row. -/
def columnOfFirst (name : String) (rows : List Row) : Except Failure (Option Value) :=
  match rows with
  | [] => .ok none
  | row :: _ =>
    (lookupKey (.text name) row).elim (.error (.value .missingKey)) fun value => .ok (some value)

/-- Whether the query has rows. -/
def hasRows (run : Runner) (q : QueryId) : Action Bool := do
  let statement ← q.toExistsSql run
  let rows ← (← q.needConnection).select (.text statement.sql) (.list statement.bindings)
  let answer ← Action.ofExcept (columnOfFirst "exists" rows)
  return answer.any Value.truthy

/-! ## Aggregates -/

/-- Runs an aggregate function over the rows. -/
def aggregate (run : Runner) (q : QueryId) (function columns : Value) : Action Value := do
  let copy ← q.forAggregate function columns
  let rows ← copy.get run .null
  return (← Action.ofExcept (columnOfFirst "aggregate" rows)).getD .null

/-- The number of rows. -/
def count (run : Runner) (q : QueryId) (columns : Value) : Action Int := do
  let result ← q.aggregate run (.text "count") (.list columns.listed)
  if result.truthy then Action.ofExcept result.toInt else return 0

/-- The sum of a column, which is zero if there are no values. -/
def sum (run : Runner) (q : QueryId) (column : Value) : Action Value := do
  let result ← q.aggregate run (.text "sum") (.list [column])
  return if result.isNull then .int 0 else result

/-! ## Changing rows -/

/-- Inserts records; there is nothing to do without one. -/
def insert (run : Runner) (q : QueryId) (values : Value) : Action Unit := do
  let values ← match ← values.now with
    | .map entries => pure [.map entries]
    | values => Action.ofExcept values.items
  if values.isEmpty then return ()
  let statement ← q.toInsertSql run (.list values)
  (← q.needConnection).statement (.text statement.sql) (.list statement.bindings)

/-- Inserts records and passes over rejected rows. -/
def insertOrIgnore (run : Runner) (q : QueryId) (values : Value) : Action Value := do
  if !values.truthy then return .int 0
  let statement ← q.toInsertOrIgnoreSql run values
  (← q.needConnection).affectingStatement (.text statement.sql) (.list statement.bindings)

/-- Inserts a record and gives the id of the new row. -/
def insertGetId (run : Runner) (q : QueryId) (values sequence : Value) : Action Value := do
  let statement ← q.toInsertGetIdSql run values sequence
  (← q.needConnection).insertGetId (.text statement.sql) (.list statement.bindings)

/-- Inserts the rows of a sub-query. -/
def insertUsing (run : Runner) (q : QueryId) (columns query : Value) : Action Value := do
  let sub ← q.createSub run query
  let connection ← q.needConnection
  let _ ← q.grammarFor "compile_insert_using"
  let columns ← (← columns.itemsNow).mapM Value.shown
  let sql ← q.compile run "compile_insert_using" fun g _ query =>
    g.insertUsingSql query columns (.text sub.sql)
  connection.affectingStatement (.text sql) (.list (Grammar.boundValues sub.bindings))

/-- Updates the rows of the query. -/
def update (run : Runner) (q : QueryId) (values : Value) : Action Value := do
  let statement ← q.toUpdateSql run values
  (← q.needConnection).affectingStatement (.text statement.sql) (.list statement.bindings)

/-- The amount of a step, which must be a number. -/
def stepAmount (amount : Value) : Except Failure String :=
  match amount with
  | .int _ | .double _ => .ok amount.display
  | _ => .error (.argument .stepAmount)

/-- Steps a column up or down and updates further columns. -/
def step (run : Runner) (q : QueryId) (column amount extra : Value) (sign : String) :
    Action Value := do
  let amount ← Action.ofExcept (stepAmount amount)
  let wrapped ← q.wrapped column
  if !column.hashable then throw .wrongType
  let stepped := Value.raw (.text (wrapped ++ " " ++ sign ++ " " ++ amount))
  let further ← if extra.truthy then recordOf run extra else pure []
  q.update run (.map (ofEntries ((column, stepped) :: further)))

/-- Deletes the rows of the query, or only the row with an id. -/
def delete (run : Runner) (q : QueryId) (id : Value) : Action Value := do
  let statement ← q.toDeleteSql run id
  (← q.needConnection).affectingStatement (.text statement.sql) (.list statement.bindings)

/-- Empties the table of the query. -/
def truncate (run : Runner) (q : QueryId) : Action Unit := do
  let connection ← q.needConnection
  for statement in ← q.toTruncateSql run do
    connection.statement (.text statement.sql) (.list statement.bindings)

end QueryId

end FluentSql
