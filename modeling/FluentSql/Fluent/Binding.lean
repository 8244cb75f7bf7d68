import FluentSql.Fluent.SubQuery

/-!
# Bindings of a query

* `BindingGroup.ofValue` is the group that a value names.
* `QueryId.addBinding`, `QueryId.setBindings` and `QueryId.mergeBindings`
  change the bindings.
-/

namespace FluentSql

/-- The group that a value names. -/
def BindingGroup.ofValue (name : Value) : Except Failure BindingGroup :=
  if name.hashable then
    (name.text?.bind BindingGroup.ofName?).elim
      (.error (.argument (.bindingGroup name.display))) .ok
  else .error .wrongType

namespace QueryId

/-- Adds values to a group. -/
def bind (q : QueryId) (group : BindingGroup) (values : List Value) : Action Unit :=
  q.modify (·.bind group values)

/-- Adds a value, or every element of a list, to the group of a name. -/
def addBinding (q : QueryId) (value name : Value) : Action Unit := do
  let group ← Action.ofExcept (BindingGroup.ofValue name)
  q.bind group value.listed

/-- Replaces the values of the group of a name. -/
def setBindings (q : QueryId) (values name : Value) : Action Unit := do
  let group ← Action.ofExcept (BindingGroup.ofValue name)
  let values ← values.itemsNow
  q.modify (·.rebind group values)

/-- Adds the values of another query, group by group. -/
def mergeBindings (q : QueryId) (other : Value) : Action Unit := do
  let other ← other.needQuery
  let added := (← other.read).bindings
  q.modify fun query => { query with bindings := query.bindings.merge added }

end QueryId

end FluentSql
