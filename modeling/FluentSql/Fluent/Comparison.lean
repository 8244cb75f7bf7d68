import FluentSql.Fluent.Binding
import FluentSql.Text.Case
import FluentSql.Value.Json

/-!
# Comparisons

A comparison is called with an operator and a value, or with a value alone,
which is then compared for equality.

* `isOperator` says which words are operators.
* `Comparison.ofArguments` reads the two arguments.
-/

namespace FluentSql

/-- The operator of a comparison, in lower case, with its value. -/
structure Comparison where
  /-- The operator, in lower case. -/
  operator : String
  /-- The value. -/
  value : Value

/-- Whether a word in lower case is an operator: one that every query knows, or one of those
added. -/
def isOperator (added : Except Failure (List String)) (word : String) : Except Failure Bool :=
  if Dialect.commonOperators.contains word then .ok true else added.map (·.contains word)

namespace Comparison

/-- The operators that may stand before the absent value. -/
def nullOperators : List String := ["=", "<>", "!="]

/-- An operator with its value, if the operator is known and goes with the value. -/
def check (added : Except Failure (List String)) (operator value : Value) :
    Except Failure Comparison :=
  match operator with
  | .text s => do
    let operator := Text.lower s
    if !(← isOperator added operator) then .error (.argument (.operator (Value.text s).literal))
    else if value.isNull && !nullOperators.contains operator then
      .error (.argument .operatorOnNull)
    else .ok ⟨operator, value⟩
  | operator => .error (.argument (.operator operator.literal))

/-- Reads the arguments of a comparison.  One that stands alone is the value. -/
def ofArguments (added : Except Failure (List String)) (operator value : Option Value) :
    Except Failure Comparison :=
  match value with
  | none => check added (.text "=") (operator.getD .null)
  | some value => check added (operator.getD (.text "=")) value

end Comparison

namespace QueryId

/-- The operators that the grammar of a query adds, if it can be asked for them. -/
def addedOperators (q : QueryId) : Action (Except Failure (List String)) := do
  let s ← get
  return s.operatorsOf (s.query q).grammar

/-- Reads the arguments of a comparison by the grammar of the query. -/
def comparison (q : QueryId) (operator value : Option Value) : Action Comparison := do
  let operator ← match operator, value with
    | some operator, some _ => some <$> operator.shown
    | operator, _ => pure operator
  Action.ofExcept (Comparison.ofArguments (← q.addedOperators) operator value)

/-- Adds a value to a group as the value of one placeholder, unless it is a raw fragment. -/
def bindValue (q : QueryId) (group : BindingGroup) (value : Value) : Action Unit :=
  if value.isRaw then pure () else q.bind group [value]

/-- Adds the values that are no raw fragments to a group. -/
def bindValues (q : QueryId) (group : BindingGroup) (values : List Value) : Action Unit :=
  q.bind group (values.filter (!·.isRaw))

/-- Adds a condition. -/
def addWhere (q : QueryId) (boolean : Value) (body : Where) : Action Unit :=
  q.modify (·.addWhere boolean body)

end QueryId

end FluentSql
