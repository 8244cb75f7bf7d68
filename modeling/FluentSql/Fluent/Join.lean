import FluentSql.Fluent.Where

/-!
# Joins

A join is built on a join condition: a query of its own whose conditions are
the condition of the join.

* `QueryId.newJoin` makes the join condition.
* `QueryId.on` adds a comparison of columns to it, or a group.
* `QueryId.join`, `QueryId.joinSub` and `QueryId.crossJoin` attach it.
-/

namespace FluentSql

namespace QueryId

/-- A join condition for a table, on the connection and grammar of a query. -/
def newJoin (q : QueryId) (type table : Value) : Action QueryId := do
  let parent ← q.read
  Query.create
    { kind := .join type table, connection := parent.connection, grammar := parent.grammar }

/-- Adds a comparison of columns, or the group that a callback builds. -/
def on (run : Runner) (q : QueryId) (first operator second boolean : Value) : Action Unit :=
  if first.isCallable then q.whereNested run first boolean
  else q.whereColumn run first operator second boolean

/-- Attaches a join condition with its values. -/
def attachJoin (q join : QueryId) : Action Unit := do
  q.modify fun query => { query with joins := query.joins ++ [join] }
  q.bind .join (← join.bindings)

/-- Joins a table.  The condition is a callback, a comparison with a value if `byValue` is set, or a
comparison of columns. -/
def join (run : Runner) (q : QueryId) (table first operator second type : Value)
    (byValue : Bool) : Action Unit := do
  let join ← q.newJoin type table
  if first.isCallable then discard (first.call run join [])
  else if byValue then join.where run first (some operator) (some second) (.text "and")
  else join.on run first operator second (.text "and")
  q.attachJoin join

/-- Joins a sub-query under a name. -/
def joinSub (run : Runner) (q : QueryId) (query name first operator second type : Value)
    (byValue : Bool) : Action Unit := do
  let sub ← q.createSub run query
  let name ← q.wrappedTable name
  q.bind .join sub.bindings
  q.join run (.raw (.text ("(" ++ sub.sql ++ ") as " ++ name))) first operator second type byValue

/-- Joins every row of a table, or those that a condition keeps. -/
def crossJoin (run : Runner) (q : QueryId) (table first operator second : Value) :
    Action Unit := do
  if first.isNull then
    let join ← q.newJoin (.text "cross") table
    q.modify fun query => { query with joins := query.joins ++ [join] }
  else q.join run table first operator second (.text "cross") false

end QueryId

end FluentSql
