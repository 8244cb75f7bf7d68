import FluentSql.Value.Basic

/-!
# Bindings

The values bound to the placeholders of a query are kept in nine groups, one
for each part of a statement that may hold placeholders.  The order of the
groups is the order in which the parts stand in a select statement.

* `BindingGroup` are the groups, `BindingGroup.all` their order.
* `Bindings` holds the values; `get`, `set` and `extend` work on one group.
* `Bindings.flatten` is the list of all values in order.
-/

namespace FluentSql

/-- A group of bindings. -/
inductive BindingGroup where
  /-- The select list. -/
  | select
  /-- The source. -/
  | source
  /-- The joins. -/
  | join
  /-- The conditions. -/
  | condition
  /-- The grouping. -/
  | grouping
  /-- The conditions on groups. -/
  | having
  /-- The ordering. -/
  | order
  /-- The unions. -/
  | union
  /-- The ordering of the union. -/
  | unionOrder
deriving DecidableEq

namespace BindingGroup

/-- The groups in the order in which their parts stand in a statement. -/
def all : List BindingGroup :=
  [select, source, join, condition, grouping, having, order, union, unionOrder]

/-- The name of a group. -/
def name : BindingGroup → String
  | select => "select"
  | source => "from"
  | join => "join"
  | condition => "where"
  | grouping => "group_by"
  | having => "having"
  | order => "order"
  | union => "union"
  | unionOrder => "union_order"

/-- The group of a name. -/
def ofName? (name : String) : Option BindingGroup :=
  all.find? fun group => group.name == name

end BindingGroup

/-- The values bound to the placeholders of a query. -/
structure Bindings where
  /-- Values of the select list. -/
  select : List Value := []
  /-- Values of the source. -/
  source : List Value := []
  /-- Values of the joins. -/
  join : List Value := []
  /-- Values of the conditions. -/
  condition : List Value := []
  /-- Values of the grouping. -/
  grouping : List Value := []
  /-- Values of the conditions on groups. -/
  having : List Value := []
  /-- Values of the ordering. -/
  order : List Value := []
  /-- Values of the unions. -/
  union : List Value := []
  /-- Values of the ordering of the union. -/
  unionOrder : List Value := []

namespace Bindings

/-- The values of a group. -/
def get (b : Bindings) : BindingGroup → List Value
  | .select => b.select
  | .source => b.source
  | .join => b.join
  | .condition => b.condition
  | .grouping => b.grouping
  | .having => b.having
  | .order => b.order
  | .union => b.union
  | .unionOrder => b.unionOrder

/-- Replaces the values of a group. -/
def set (b : Bindings) (group : BindingGroup) (values : List Value) : Bindings :=
  match group with
  | .select => { b with select := values }
  | .source => { b with source := values }
  | .join => { b with join := values }
  | .condition => { b with condition := values }
  | .grouping => { b with grouping := values }
  | .having => { b with having := values }
  | .order => { b with order := values }
  | .union => { b with union := values }
  | .unionOrder => { b with unionOrder := values }

/-- Adds values at the end of a group. -/
def extend (b : Bindings) (group : BindingGroup) (values : List Value) : Bindings :=
  b.set group (b.get group ++ values)

@[simp] theorem get_set_self (b : Bindings) (g : BindingGroup) (vs : List Value) :
    (b.set g vs).get g = vs := by
  cases g <;> rfl

@[simp] theorem get_set_of_ne (b : Bindings) {g h : BindingGroup} (vs : List Value) (ne : h ≠ g) :
    (b.set g vs).get h = b.get h := by
  cases g <;> cases h <;> first | rfl | exact absurd rfl ne

/-- The values of some groups, in their order. -/
def flattenGroups (b : Bindings) (groups : List BindingGroup) : List Value :=
  groups.flatMap b.get

/-- All values, in the order of the groups. -/
def flatten (b : Bindings) : List Value :=
  b.flattenGroups BindingGroup.all

/-- The groups as a map from their names to their values. -/
def toEntries (b : Bindings) : List (Value × Value) :=
  BindingGroup.all.map fun group => (.text group.name, .list (b.get group))

/-- Adds the values of every group of other bindings to the same group. -/
def merge (b other : Bindings) : Bindings :=
  BindingGroup.all.foldl (fun merged group => merged.extend group (other.get group)) b

/-- Changes every value. -/
def map (b : Bindings) (f : Value → Value) : Bindings :=
  BindingGroup.all.foldl (fun mapped group => mapped.set group ((b.get group).map f)) b

end Bindings

end FluentSql
