import FluentSql.Fluent.Comparison

/-!
# Ordering, paging, unions and locks

Once a query has unions, its ordering and paging belong to the union.

* `QueryId.orderBy`, `orderByRaw`, `reorder` set the ordering.
* `QueryId.offset`, `limit` and `forPage` set the paging.
* `QueryId.union` adds a member to the union.
* `QueryId.lock` sets the row lock, and `QueryId.whenever` makes a call
  depend on a condition.
-/

namespace FluentSql

namespace QueryId

/-! ## Ordering -/

/-- The direction that a value names, in any case.  A query names one by an extension. -/
def direction (run : Runner) (word : Value) : Action Direction := do
  let word ← match word with
    | .text s => pure (.text (Text.lower s))
    | .bytes bs => pure (.bytes bs)
    | .object (.query sub) => Extensions.call run sub "lower" []
    | _ => throw .missingAttribute
  (word.text?.bind Direction.ofWord?).elim (throw (.argument .direction)) pure

/-- Orders by a column or by the result of a sub-query. -/
def orderBy (run : Runner) (q : QueryId) (column word : Value) : Action Unit := do
  let group := (← q.read).orderGroup
  let column ← if column.isQueryable then do
      let sub ← q.createSub run column
      q.bind group sub.bindings
      pure (.raw (.text ("(" ++ sub.sql ++ ")")))
    else pure column
  let direction ← direction run word
  q.modify (·.addOrder (.byColumn column direction))

/-- Orders by a fragment. -/
def orderByRaw (q : QueryId) (sql bindings : Value) : Action Unit := do
  q.modify (·.addOrder (.raw sql))
  let values ← bindings.itemsOrNone
  q.bind (← q.read).orderGroup values

/-- Orders the rows by chance. -/
def inRandomOrder (q : QueryId) (seed : Value) : Action Unit := do
  let grammar ← q.grammarFor "compile_random"
  q.orderByRaw (.text (grammar.randomSql (← seed.shown))) .null

/-- Removes every ordering and may set a new one. -/
def reorder (run : Runner) (q : QueryId) (column word : Value) : Action Unit := do
  q.modify Query.dropOrders
  if column.isNull then return ()
  q.orderBy run column word

/-! ## Paging -/

/-- Sets the number of rows passed over; a negative one counts as none. -/
def offset (q : QueryId) (value : Value) : Action Unit := do
  let n ← Action.ofExcept value.toInt
  q.modify (·.setOffset n.toNat)

/-- Sets the greatest number of rows; a negative one is passed over. -/
def limit (q : QueryId) (value : Value) : Action Unit := do
  if value.isNull then return ()
  let n ← Action.ofExcept value.toInt
  if 0 ≤ n then q.modify (·.setLimit n.toNat)

/-- Sets the rows of one page, the first page being 1. -/
def forPage (q : QueryId) (page perPage : Value) : Action Unit := do
  let before ← Action.ofExcept (page.minus (.int 1))
  q.offset (.int (← Action.ofExcept (before.timesInt perPage)))
  q.limit perPage

/-! ## Unions -/

/-- Unites the query with another, given as itself or as a callback. -/
def union (run : Runner) (q : QueryId) (query keepsAll : Value) : Action Unit := do
  let query ← if query.isCallable then do
      let member ← q.newQuery
      let _ ← query.call run member []
      pure (.ofQuery member)
    else pure query
  q.modify fun current =>
    { current with unions := current.unions ++ [⟨query.query?, keepsAll⟩] }
  let member ← query.needQuery
  q.bind .union (← member.bindings)

/-! ## Locks and choices -/

/-- Sets the row lock. -/
def lock (q : QueryId) (value : Value) : Action Unit :=
  q.modify fun query => { query with lock := value }

/-- Runs a callback if a value reads as true, and another one, if there is one, if it does not.  The
result is that of the callback, or the query if that reads as false. -/
def whenever (run : Runner) (q : QueryId) (value callback otherwise : Value) : Action Value := do
  let chosen := if value.truthy then some callback
    else if otherwise.isNull then none else some otherwise
  match chosen with
  | none => return .ofQuery q
  | some callback =>
    let result ← callback.call run q [value]
    return if result.truthy then result else .ofQuery q

end QueryId

end FluentSql
