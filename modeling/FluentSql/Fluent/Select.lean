import FluentSql.Fluent.Binding

/-!
# Select list and source

* `flatten` unpacks arguments that are given as one list.
* `QueryId.select` and `QueryId.addSelect` set and extend the select list;
  an entry of a map selects its value under its key.
* `QueryId.selectRaw` and `QueryId.selectSub` add a fragment and a sub-query.
* `QueryId.setSource`, `fromSub` and `fromRaw` set the source.
-/

namespace FluentSql

/-- Arguments that are given one by one, or as one list. -/
def flatten (arguments : List Value) : List Value :=
  match arguments with
  | [argument] => argument.listed
  | arguments => arguments

namespace QueryId

/-! ## Select list -/

/-- Adds entries to the select list, without a look at what they are. -/
def addColumns (q : QueryId) (columns : List Value) : Action Unit :=
  q.modify (·.addColumns columns)

/-- Adds a fragment to the select list. -/
def selectRaw (q : QueryId) (sql bindings : Value) : Action Unit := do
  q.addColumns [.raw sql]
  if bindings.truthy then
    q.bind .select (← bindings.itemsNow)

/-- Adds a sub-query to the select list, under a name. -/
def selectSub (run : Runner) (q : QueryId) (query name : Value) : Action Unit := do
  let sub ← q.createSub run query
  let name ← q.wrapped name
  q.selectRaw (.text ("(" ++ sub.sql ++ ") as " ++ name)) (.list sub.bindings)

/-- Adds the value of a map entry to the select list, under its key. -/
def selectAs (run : Runner) (q : QueryId) (name value : Value) : Action Unit := do
  if value.isQueryable then q.selectSub run value name
  else q.addColumns [.text ((← value.displayNow) ++ " as " ++ (← name.displayNow))]

/-- Adds one entry to the select list; a map selects each value under its key. -/
def selectEntry (run : Runner) (q : QueryId) (column : Value) : Action Unit := do
  match ← column.now with
  | .map entries => entries.forM fun entry => q.selectAs run entry.1 entry.2
  | column => q.addColumns [column]

/-- Adds columns to the select list. -/
def addSelect (run : Runner) (q : QueryId) (columns : List Value) : Action Unit := do
  q.addColumns []
  (flatten columns).forM (q.selectEntry run)

/-- Replaces the select list; no columns stand for all of them. -/
def select (run : Runner) (q : QueryId) (columns : List Value) : Action Unit := do
  q.modify fun query => { query.rebind .select [] with columns := some [] }
  let columns := flatten columns
  q.addSelect run (if columns.isEmpty then [.text "*"] else columns)

/-- Drops duplicate rows. -/
def distinct (q : QueryId) : Action Unit :=
  q.modify fun query => { query with distinct := true }

/-! ## Source -/

/-- Sets a fragment as the source. -/
def fromRaw (q : QueryId) (sql bindings : Value) : Action Unit := do
  q.modify fun query => { query with source := .raw sql }
  q.bind .source (← bindings.itemsOrNone)

/-- Sets a sub-query as the source, under a name. -/
def fromSub (run : Runner) (q : QueryId) (query name : Value) : Action Unit := do
  let sub ← q.createSub run query
  let name ← q.wrappedTable name
  q.fromRaw (.text ("(" ++ sub.sql ++ ") as " ++ name)) (.list sub.bindings)

/-- Sets the source: a table, a fragment, or a sub-query, which must have a name. -/
def setSource (run : Runner) (q : QueryId) (table name : Value) : Action Unit := do
  if table.isQueryable then
    if name.isNull then throw (.argument .aliasMissing) else q.fromSub run table name
  else
    let source ← if name.truthy then do
        let text := (← table.displayNow) ++ " as " ++ (← name.displayNow)
        pure (.text text)
      else pure table
    q.modify fun query => { query with source }

end QueryId

end FluentSql
