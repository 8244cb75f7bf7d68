import FluentSql.Fluent.Where

/-!
# Grouping

* `QueryId.groupBy` and `groupByRaw` set the columns to group by.
* `QueryId.having` and its kin add conditions on groups.
-/

namespace FluentSql

namespace QueryId

/-- Adds columns to group by. -/
def groupBy (q : QueryId) (columns : List Value) : Action Unit :=
  q.modify fun query => { query with groups := query.groups ++ flatten columns }

/-- Adds a fragment to group by. -/
def groupByRaw (q : QueryId) (sql bindings : Value) : Action Unit := do
  q.modify fun query => { query with groups := query.groups ++ [.raw sql] }
  q.bind .grouping (← bindings.itemsOrNone)

/-- Adds a condition on groups. -/
def addHaving (q : QueryId) (boolean : Value) (body : Having) : Action Unit :=
  q.modify (·.addHaving boolean body)

/-- Adds a comparison on groups. -/
def having (q : QueryId) (column : Value) (operator value : Option Value) (boolean : Value) :
    Action Unit := do
  let comparison ← q.comparison operator value
  q.addHaving boolean (.basic column comparison.operator comparison.value)
  q.bindValue .having comparison.value

/-- Adds a fragment as a condition on groups. -/
def havingRaw (q : QueryId) (sql bindings boolean : Value) : Action Unit := do
  q.addHaving boolean (.raw sql)
  q.bind .having (← bindings.itemsOrNone)

/-- Adds a condition that a column is between the first and the last of some values. -/
def havingBetween (q : QueryId) (column values boolean : Value) (negated : Bool) :
    Action Unit := do
  let values ← values.itemsNow
  let ends ← Action.ofExcept (betweenEnds values)
  q.addHaving boolean (.between column values negated)
  q.bindValues .having ends

/-- Adds conditions that columns have no value, or have one. -/
def havingNull (q : QueryId) (columns boolean : Value) (negated : Bool) : Action Unit :=
  columns.listed.forM fun column => q.addHaving boolean (.null column negated)

end QueryId

end FluentSql
