import FluentSql.Query.Bindings
import FluentSql.Query.Clause

/-!
# Queries

A query is the state of one statement under construction.  A join condition
is a query too: its conditions are the condition of the join.

* `QueryKind` tells the two apart.
* `Query` holds the clauses and the bindings.
* The operations below change one part of a query each; everything that the
  fluent calls do to a query is made of them.
-/

namespace FluentSql

/-- What a query is for. -/
inductive QueryKind where
  /-- A statement. -/
  | statement
  /-- The condition of a join, with the kind of the join and the joined table. -/
  | join (type table : Value)

/-- The state of a statement under construction. -/
structure Query where
  /-- Whether this is a statement or a join condition. -/
  kind : QueryKind := .statement
  /-- The connection on which the query runs. -/
  connection : Option ConnectionId
  /-- The grammar that compiles the query, or what stands in its place. -/
  grammar : Compiler
  /-- The values of the placeholders. -/
  bindings : Bindings := {}
  /-- The function over the rows. -/
  aggregate : Option Aggregate := none
  /-- The select list; without one every column is selected. -/
  columns : Option (List Value) := none
  /-- Whether duplicate rows are dropped. -/
  distinct : Bool := false
  /-- The table or the raw source. -/
  source : Value := .null
  /-- The joins, each a join condition. -/
  joins : List QueryId := []
  /-- The conditions. -/
  wheres : List Condition := []
  /-- The columns to group by. -/
  groups : List Value := []
  /-- The conditions on groups. -/
  havings : List GroupCondition := []
  /-- The orderings. -/
  orders : List Order := []
  /-- The greatest number of rows. -/
  limit : Option Nat := none
  /-- The number of rows passed over. -/
  offset : Option Nat := none
  /-- The united queries. -/
  unions : List Union := []
  /-- The greatest number of rows of the union. -/
  unionLimit : Option Nat := none
  /-- The number of rows of the union passed over. -/
  unionOffset : Option Nat := none
  /-- The orderings of the union. -/
  unionOrders : List Order := []
  /-- The row lock: absent, exclusive, shared or a fragment of SQL. -/
  lock : Value := .null

namespace Query

instance : Inhabited Query := ⟨{ connection := none, grammar := .grammar ⟨0⟩ }⟩

/-- The kind of the query in messages. -/
def isJoin (q : Query) : Bool :=
  match q.kind with
  | .statement => false
  | .join .. => true

/-- The word before the conditions. -/
def keyword (q : Query) : String :=
  if q.isJoin then "on" else "where"

/-- Adds values to a binding group. -/
def bind (q : Query) (group : BindingGroup) (values : List Value) : Query :=
  { q with bindings := q.bindings.extend group values }

/-- Replaces a binding group. -/
def rebind (q : Query) (group : BindingGroup) (values : List Value) : Query :=
  { q with bindings := q.bindings.set group values }

/-- Adds a condition. -/
def addWhere (q : Query) (boolean : Value) (body : Where) : Query :=
  { q with wheres := q.wheres ++ [⟨boolean, body⟩] }

/-- Adds a condition on groups. -/
def addHaving (q : Query) (boolean : Value) (body : Having) : Query :=
  { q with havings := q.havings ++ [⟨boolean, body⟩] }

/-- Adds columns to the select list, which is there afterwards. -/
def addColumns (q : Query) (columns : List Value) : Query :=
  { q with columns := some (q.columns.getD [] ++ columns) }

/-- Whether the query is united with others.  Ordering and paging then belong to the union. -/
def isUnion (q : Query) : Bool :=
  !q.unions.isEmpty

/-- The binding group of the ordering. -/
def orderGroup (q : Query) : BindingGroup :=
  if q.isUnion then .unionOrder else .order

/-- Adds an ordering, to the union if there is one. -/
def addOrder (q : Query) (order : Order) : Query :=
  if q.isUnion then { q with unionOrders := q.unionOrders ++ [order] }
  else { q with orders := q.orders ++ [order] }

/-- Removes every ordering and its values. -/
def dropOrders (q : Query) : Query :=
  { q with
    orders := []
    unionOrders := []
    bindings := (q.bindings.set .order []).set .unionOrder [] }

/-- Sets the number of rows passed over, of the union if there is one. -/
def setOffset (q : Query) (n : Nat) : Query :=
  if q.isUnion then { q with unionOffset := some n } else { q with offset := some n }

/-- Sets the greatest number of rows, of the union if there is one. -/
def setLimit (q : Query) (n : Nat) : Query :=
  if q.isUnion then { q with unionLimit := some n } else { q with limit := some n }

/-- The query without its orderings, as an aggregate of ungrouped rows wants it. -/
def unordered (q : Query) : Query :=
  { q with orders := [], bindings := q.bindings.set .order [] }

end Query

/-- A property of a query that can be put back to its start. -/
inductive QueryProperty where
  | aggregate | columns | distinct | source | joins | wheres | groups | havings | orders | limit
  | offset | unions | unionLimit | unionOffset | unionOrders | lock
deriving DecidableEq

namespace QueryProperty

/-- The properties with their names. -/
def named : List (String × QueryProperty) :=
  [("aggregate_", aggregate), ("columns", columns), ("distinct_", distinct),
    ("from_table", source), ("joins", joins), ("wheres", wheres), ("groups", groups),
    ("havings", havings), ("orders", orders), ("limit_", limit), ("offset_", offset),
    ("unions", unions), ("union_limit", unionLimit), ("union_offset", unionOffset),
    ("union_orders", unionOrders), ("lock_", lock)]

/-- The property of a name. -/
def ofName? (name : String) : Option QueryProperty :=
  named.lookup name

/-- Puts a property of a query back to its start. -/
def reset (q : Query) : QueryProperty → Query
  | aggregate => { q with aggregate := none }
  | columns => { q with columns := none }
  | distinct => { q with distinct := false }
  | source => { q with source := .null }
  | joins => { q with joins := [] }
  | wheres => { q with wheres := [] }
  | groups => { q with groups := [] }
  | havings => { q with havings := [] }
  | orders => { q with orders := [] }
  | limit => { q with limit := none }
  | offset => { q with offset := none }
  | unions => { q with unions := [] }
  | unionLimit => { q with unionLimit := none }
  | unionOffset => { q with unionOffset := none }
  | unionOrders => { q with unionOrders := [] }
  | lock => { q with lock := .null }

end QueryProperty

end FluentSql
