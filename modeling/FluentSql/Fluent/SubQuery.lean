import FluentSql.Fluent.Consult

/-!
# Queries inside queries

A sub-query is given as a query, or as a callback that is run on a new one.

* `QueryId.newQuery` and `QueryId.forSubQuery` make the new query.  Inside a
  join condition the first is again a join condition, the second a statement.
* `QueryId.bindings` reads the values of a query.
* `Value.call` runs a callback on a query.
* `QueryId.createSub` compiles a sub-query at once; `QueryId.resolveSub` keeps
  it to be compiled with the query that it is attached to.
-/

namespace FluentSql

/-- A compiled sub-query with its values. -/
structure SubQuery where
  /-- The text. -/
  sql : String
  /-- The values of its placeholders. -/
  bindings : List Value

/-- Runs a callback on a query; a value that is no callback cannot be called. -/
def Value.call (run : Runner) (callback : Value) (q : QueryId) (extra : List Value) :
    Action Value :=
  match callback with
  | .object (.callback id) => run id q extra
  | _ => throw .wrongType

namespace QueryId

/-- A query on the same connection and grammar. -/
def newStatement (q : QueryId) : Action QueryId := do
  let parent ← q.read
  Query.create { connection := parent.connection, grammar := parent.grammar }

/-- A new query of the same kind: in a join condition, a condition of the same join. -/
def newQuery (q : QueryId) : Action QueryId := do
  let parent ← q.read
  Query.create
    { kind := parent.kind, connection := parent.connection, grammar := parent.grammar }

/-- A new statement, also inside a join condition. -/
def forSubQuery (q : QueryId) : Action QueryId :=
  q.newStatement

/-- The values of the query, in the order of its placeholders. -/
def bindings (q : QueryId) : Action (List Value) :=
  return (← q.read).bindings.flatten

/-- Quotes a column by the grammar of the query. -/
def wrapped (q : QueryId) (v : Value) : Action String := do
  Action.ofExcept ((← q.grammarFor "wrap").wrapped (← v.shown))

/-- Quotes a table by the grammar of the query. -/
def wrappedTable (q : QueryId) (v : Value) : Action String := do
  Action.ofExcept ((← q.grammarFor "wrap_table").wrappedTable (← v.shown))

/-- Compiles a query by its own grammar. -/
def asSub (run : Runner) (q : QueryId) : Action SubQuery :=
  return ⟨← q.toSql run, ← q.bindings⟩

/-- Compiles a sub-query that is given as a query, a callback, or SQL text. -/
def createSub (run : Runner) (q : QueryId) (query : Value) : Action SubQuery :=
  match query with
  | .object (.query sub) => sub.asSub run
  | .object (.callback callback) => do
    let sub ← q.forSubQuery
    let _ ← run callback sub []
    sub.asSub run
  | .text _ | .raw _ => return ⟨← query.displayNow, []⟩
  | _ => throw (.argument .subQueryOrText)

/-- The query that is given as itself or as a callback. -/
def resolveSub (run : Runner) (q : QueryId) (query : Value) : Action QueryId :=
  match query with
  | .object (.query sub) => return sub
  | .object (.callback callback) => do
    let sub ← q.forSubQuery
    let _ ← run callback sub []
    return sub
  | _ => throw (.argument .subQuery)

end QueryId

/-- The query that a value refers to; any other value has no bindings to ask for. -/
def Value.needQuery (v : Value) : Action QueryId :=
  v.query?.elim (throw .missingAttribute) pure

/-- The elements of a list of values that may be left out. -/
def Value.itemsOrNone (v : Value) : Action (List Value) :=
  if v.truthy then v.itemsNow else return []

end FluentSql
