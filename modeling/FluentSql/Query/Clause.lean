import FluentSql.Value.Basic

/-!
# Clauses

The entries that a query collects: conditions on rows, conditions on groups,
orderings, unions and aggregates.

* `Where` are the kinds of conditions.  A `Condition` is one of them with the
  word that joins it to the condition before it.
* `Having` and `GroupCondition` are the same for conditions on groups.
* `Order`, `Union` and `Aggregate`.

A clause that holds another query holds its number in the store, so the query
may still change after it was attached.
-/

namespace FluentSql

/-- The part of a date that a condition looks at. -/
inductive DatePart where
  /-- The day of the calendar. -/
  | date
  /-- The time of day. -/
  | time
  /-- The day of the month. -/
  | day
  /-- The month. -/
  | month
  /-- The year. -/
  | year
deriving DecidableEq

namespace DatePart

/-- The word for the part. -/
def name : DatePart → String
  | date => "date"
  | time => "time"
  | day => "day"
  | month => "month"
  | year => "year"

/-- The pattern that writes the part. -/
def pattern : DatePart → String
  | date => "%Y-%m-%d"
  | time => "%H:%M:%S"
  | day => "%d"
  | month => "%m"
  | year => "%Y"

end DatePart

/-- A condition on rows. -/
inductive Where where
  /-- A fragment of SQL. -/
  | raw (sql : Value)
  /-- A column compared with a value. -/
  | basic (column : Value) (operator : String) (value : Value)
  /-- A column among values, or not among them. -/
  | among (column : Value) (values : List Value) (negated : Bool)
  /-- A column among integers that are written into the SQL. -/
  | amongIntegers (column : Value) (values : List Int) (negated : Bool)
  /-- A column without a value, or with one. -/
  | null (column : Value) (negated : Bool)
  /-- A column between the first and the last of some values. -/
  | between (column : Value) (values : List Value) (negated : Bool)
  /-- A part of a date compared with a value. -/
  | datePart (part : DatePart) (column : Value) (operator : String) (value : Value)
  /-- Two columns compared. -/
  | columnPair (first : Value) (operator : String) (second : Value)
  /-- The conditions of a query as one group. -/
  | nested (query : QueryId)
  /-- A column compared with the result of a query. -/
  | sub (column : Value) (operator : Value) (query : QueryId)
  /-- Whether a query has rows; what is attached may fail to be a query. -/
  | exists (query : Option QueryId) (negated : Bool)
  /-- A row of columns compared with a row of values. -/
  | rowValues (columns : List Value) (operator : Value) (values : List Value)
  /-- A JSON column that contains a document, or does not. -/
  | jsonContains (column value : Value) (negated : Bool)
  /-- The length of a JSON array compared with a value. -/
  | jsonLength (column : Value) (operator : String) (value : Value)

namespace Where

/-- The name of the kind of a condition. -/
def tag : Where → String
  | raw _ => "raw"
  | basic .. => "basic"
  | among _ _ negated => if negated then "not_in" else "in"
  | amongIntegers _ _ negated => if negated then "not_in_raw" else "in_raw"
  | null _ negated => if negated then "not_null" else "null"
  | between .. => "between"
  | datePart .. => "date_based"
  | columnPair .. => "column"
  | nested _ => "nested"
  | sub .. => "sub"
  | «exists» _ negated => if negated then "not_exists" else "exists"
  | rowValues .. => "row_values"
  | jsonContains .. => "json_contains"
  | jsonLength .. => "json_length"

end Where

/-- A condition with the word that joins it to the one before it. -/
structure Condition where
  /-- The joining word. -/
  boolean : Value
  /-- The condition. -/
  body : Where

/-- A condition on groups. -/
inductive Having where
  /-- A column compared with a value. -/
  | basic (column : Value) (operator : String) (value : Value)
  /-- A fragment of SQL. -/
  | raw (sql : Value)
  /-- A column between the first and the last of some values. -/
  | between (column : Value) (values : List Value) (negated : Bool)
  /-- A column without a value, or with one. -/
  | null (column : Value) (negated : Bool)

namespace Having

/-- The name of the kind of a condition. -/
def tag : Having → String
  | basic .. => "basic"
  | raw _ => "raw"
  | between .. => "between"
  | null _ negated => if negated then "not_null" else "null"

end Having

/-- A condition on groups with the word that joins it to the one before it. -/
structure GroupCondition where
  /-- The joining word. -/
  boolean : Value
  /-- The condition. -/
  body : Having

/-- The direction of an ordering. -/
inductive Direction where
  /-- From the least up. -/
  | ascending
  /-- From the greatest down. -/
  | descending
deriving DecidableEq

namespace Direction

/-- The word for a direction. -/
def word : Direction → String
  | ascending => "asc"
  | descending => "desc"

/-- The direction of a word. -/
def ofWord? (word : String) : Option Direction :=
  if word = "asc" then some ascending
  else if word = "desc" then some descending
  else none

end Direction

/-- An ordering. -/
inductive Order where
  /-- By a column. -/
  | byColumn (column : Value) (direction : Direction)
  /-- By a fragment of SQL. -/
  | raw (sql : Value)

/-- A query united with another; what is attached may fail to be a query. -/
structure Union where
  /-- The query. -/
  member : Option QueryId
  /-- The mark that keeps duplicates, read as a condition. -/
  keepsAll : Value

/-- A function over the rows of a query. -/
structure Aggregate where
  /-- The name of the function. -/
  function : Value
  /-- Its columns. -/
  columns : List Value

end FluentSql
