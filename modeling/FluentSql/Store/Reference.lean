import FluentSql.Store

/-!
# References between objects

Values, clauses and queries refer to objects of the store by their numbers.

* `handles` lists the objects that a value, a clause or a query refers to.
* `Value.substitute` puts other values in the place of references.
* `Renaming` says what takes the place of the objects of each kind, and
  `rename` puts it there.
-/

namespace FluentSql

/-! ## References in values -/

namespace Value

mutual

/-- The objects in a value. -/
def handles : Value → List Handle
  | list items => handlesOfAll items
  | tuple items => handlesOfAll items
  | map entries => handlesOfEntries entries
  | raw value => handles value
  | object handle => [handle]
  | _ => []

/-- The objects in the elements of a list. -/
def handlesOfAll : List Value → List Handle
  | [] => []
  | v :: rest => handles v ++ handlesOfAll rest

/-- The objects in the entries of a map. -/
def handlesOfEntries : List (Value × Value) → List Handle
  | [] => []
  | (k, v) :: rest => handles k ++ handles v ++ handlesOfEntries rest

end

mutual

/-- Replaces the references in a value. -/
def substitute (f : Handle → Value) : Value → Value
  | list items => list (substituteAll f items)
  | tuple items => tuple (substituteAll f items)
  | map entries => map (substituteEntries f entries)
  | raw value => raw (substitute f value)
  | object handle => f handle
  | v => v

/-- Replaces the references in the elements of a list. -/
def substituteAll (f : Handle → Value) : List Value → List Value
  | [] => []
  | v :: rest => substitute f v :: substituteAll f rest

/-- Replaces the references in the entries of a map. -/
def substituteEntries (f : Handle → Value) : List (Value × Value) → List (Value × Value)
  | [] => []
  | (k, v) :: rest => (substitute f k, substitute f v) :: substituteEntries f rest

end

end Value

/-- What takes the place of the objects of each kind. -/
structure Renaming where
  /-- What takes the place of a query. -/
  query : QueryId → QueryId := id
  /-- What takes the place of a grammar. -/
  grammar : GrammarId → GrammarId := id
  /-- What takes the place of a connection. -/
  connection : ConnectionId → ConnectionId := id
  /-- What takes the place of a resolver. -/
  resolver : ResolverId → ResolverId := id
  /-- What takes the place of the bindings of a query. -/
  bindings : QueryId → Value := fun id => .object (.bindings id)

namespace Renaming

/-- What takes the place of a reference. -/
def handle (r : Renaming) : Handle → Value
  | .query id => .object (.query (r.query id))
  | .grammar id => .object (.grammar (r.grammar id))
  | .connection id => .object (.connection (r.connection id))
  | .resolver id => .object (.resolver (r.resolver id))
  | .bindings id => r.bindings id
  | h => .object h

/-- Replaces the references in a value. -/
def value (r : Renaming) (v : Value) : Value :=
  v.substitute r.handle

/-- What takes the place of a compiler. -/
def compiler (r : Renaming) : Compiler → Compiler
  | .grammar id => .grammar (r.grammar id)
  | .connection id => .connection (r.connection id)
  | .query id => .query (r.query id)

end Renaming

namespace Where

/-- The objects in a condition. -/
def handles : Where → List Handle
  | raw sql => sql.handles
  | basic column _ value => column.handles ++ value.handles
  | among column values _ => column.handles ++ Value.handlesOfAll values
  | amongIntegers column _ _ => column.handles
  | null column _ => column.handles
  | between column values _ => column.handles ++ Value.handlesOfAll values
  | datePart _ column _ value => column.handles ++ value.handles
  | columnPair first _ second => first.handles ++ second.handles
  | nested query => [.query query]
  | sub column operator query => column.handles ++ operator.handles ++ [.query query]
  | «exists» query _ => query.toList.map .query
  | rowValues columns operator values =>
    Value.handlesOfAll columns ++ operator.handles ++ Value.handlesOfAll values
  | jsonContains column value _ => column.handles ++ value.handles
  | jsonLength column _ value => column.handles ++ value.handles

/-- Replaces the references in a condition. -/
def rename (r : Renaming) : Where → Where
  | raw sql => raw (r.value sql)
  | basic column operator value => basic (r.value column) operator (r.value value)
  | among column values negated => among (r.value column) (values.map r.value) negated
  | amongIntegers column values negated => amongIntegers (r.value column) values negated
  | null column negated => null (r.value column) negated
  | between column values negated => between (r.value column) (values.map r.value) negated
  | datePart part column operator value =>
    datePart part (r.value column) operator (r.value value)
  | columnPair first operator second => columnPair (r.value first) operator (r.value second)
  | nested query => nested (r.query query)
  | sub column operator query => sub (r.value column) (r.value operator) (r.query query)
  | «exists» query negated => «exists» (query.map r.query) negated
  | rowValues columns operator values =>
    rowValues (columns.map r.value) (r.value operator) (values.map r.value)
  | jsonContains column value negated => jsonContains (r.value column) (r.value value) negated
  | jsonLength column operator value => jsonLength (r.value column) operator (r.value value)

end Where

namespace Having

/-- The objects in a condition on groups. -/
def handles : Having → List Handle
  | basic column _ value => column.handles ++ value.handles
  | raw sql => sql.handles
  | between column values _ => column.handles ++ Value.handlesOfAll values
  | null column _ => column.handles

/-- Replaces the references in a condition on groups. -/
def rename (r : Renaming) : Having → Having
  | basic column operator value => basic (r.value column) operator (r.value value)
  | raw sql => raw (r.value sql)
  | between column values negated => between (r.value column) (values.map r.value) negated
  | null column negated => null (r.value column) negated

end Having

namespace Order

/-- The objects in an ordering. -/
def handles : Order → List Handle
  | byColumn column _ => column.handles
  | raw sql => sql.handles

/-- Replaces the references in an ordering. -/
def rename (r : Renaming) : Order → Order
  | byColumn column direction => byColumn (r.value column) direction
  | raw sql => raw (r.value sql)

end Order

namespace QueryKind

/-- The objects in the joined table. -/
def handles : QueryKind → List Handle
  | statement => []
  | join type table => type.handles ++ table.handles

/-- Replaces the references in the joined table. -/
def rename (r : Renaming) : QueryKind → QueryKind
  | statement => statement
  | join type table => join (r.value type) (r.value table)

end QueryKind

namespace Query

/-- The objects that a query refers to. -/
def handles (q : Query) : List Handle :=
  q.kind.handles ++ q.connection.toList.map .connection ++ [q.grammar.handle] ++
    Value.handlesOfAll q.bindings.flatten ++
    q.aggregate.toList.flatMap (fun a => a.function.handles ++ Value.handlesOfAll a.columns) ++
    Value.handlesOfAll (q.columns.getD []) ++ q.source.handles ++ q.joins.map .query ++
    q.wheres.flatMap (fun c => c.boolean.handles ++ c.body.handles) ++
    Value.handlesOfAll q.groups ++
    q.havings.flatMap (fun c => c.boolean.handles ++ c.body.handles) ++
    q.orders.flatMap Order.handles ++
    q.unions.flatMap (fun u => u.member.toList.map .query ++ u.keepsAll.handles) ++
    q.unionOrders.flatMap Order.handles ++ q.lock.handles

/-- Replaces the references of a query. -/
def rename (r : Renaming) (q : Query) : Query :=
  { q with
    kind := q.kind.rename r
    connection := q.connection.map r.connection
    grammar := r.compiler q.grammar
    bindings := q.bindings.map r.value
    aggregate := q.aggregate.map fun a => ⟨r.value a.function, a.columns.map r.value⟩
    columns := q.columns.map (·.map r.value)
    source := r.value q.source
    joins := q.joins.map r.query
    wheres := q.wheres.map fun c => ⟨r.value c.boolean, c.body.rename r⟩
    groups := q.groups.map r.value
    havings := q.havings.map fun c => ⟨r.value c.boolean, c.body.rename r⟩
    orders := q.orders.map (Order.rename r)
    unions := q.unions.map fun u => ⟨u.member.map r.query, r.value u.keepsAll⟩
    unionOrders := q.unionOrders.map (Order.rename r)
    lock := r.value q.lock }

end Query

end FluentSql
