import FluentSql.Compile.Conjunction
import FluentSql.Grammar.Basic
import FluentSql.Query.Basic
import FluentSql.Text.Case

/-!
# Conditions as SQL

* `Attached` is how the queries that clauses refer to are compiled.
* `Where.sql` is the text of one condition in a dialect.
* `conditionsSql` is the text of a list of conditions: every condition with
  its joining word before it, but for the word of the first.
* `havingsSql` is the same for conditions on groups.
-/

namespace FluentSql

/-- How attached queries are compiled. -/
structure Attached where
  /-- A query as a select statement. -/
  select : QueryId → Except Failure String
  /-- The conditions of a query as one group. -/
  conditions : QueryId → Except Failure String
  /-- A join condition as a join clause. -/
  join : QueryId → Except Failure String
  /-- Whether everything that a query refers to can be copied. -/
  canCopy : Query → Bool
  /-- What a query answers when it stands where another kind of value is due. -/
  oracle : Oracle

namespace Attached

/-- What was attached as a query, as a select statement. -/
def selectOf (attached : Attached) (query : Option QueryId) : Except Failure String :=
  query.elim (.error .missingAttribute) attached.select

end Attached

/-- The word for a condition that may be negated. -/
def negatable (negated : Bool) (word : String) : String :=
  if negated then "not " ++ word else word

/-! ## JSON conditions -/

/-- Shortens the arrow that gives text to the arrow that gives a document. -/
def documentArrows (oracle : Oracle) (v : Value) : Except Failure String :=
  (v.replacedBy oracle "->>" "->").map Value.display

namespace Grammar

-- Powers are those of the core library, whatever else is imported.
attribute [local instance (10000)] instPowNat

/-- Whether the document in a column contains a value. -/
def jsonContainsSql (g : Grammar) (oracle : Oracle) (column value : Value) :
    Except Failure String :=
  match g.dialect with
  | .mysql => do
    let (field, path) ← g.jsonFieldAndPath oracle column
    return "json_contains(" ++ field.display ++ ", " ++ value.display ++ path ++ ")"
  | .postgres => do
    let column ← documentArrows oracle (← g.wrap column)
    return "(" ++ column ++ ")::jsonb @> " ++ value.display
  | _ => .error (.unsupported .jsonContains)

/-- The length of the array in a column compared with a value. -/
def jsonLengthSql (g : Grammar) (oracle : Oracle) (column : Value) (operator : String)
    (value : Value) : Except Failure String :=
  match g.dialect with
  | .ansi => .error (.unsupported .jsonLength)
  | .mysql => do
    let (field, path) ← g.jsonFieldAndPath oracle column
    return "json_length(" ++ field.display ++ path ++ ") " ++ operator ++ " " ++ value.display
  | .postgres => do
    let column ← documentArrows oracle (← g.wrap column)
    return "json_array_length((" ++ column ++ ")::json) " ++ operator ++ " " ++ value.display
  | .sqlite => do
    let (field, path) ← g.jsonFieldAndPath oracle column
    return "json_array_length(" ++ field.display ++ path ++ ") " ++ operator ++ " " ++ value.display

/-! ## Conditions on rows -/

/-- A column compared with a value. -/
def comparisonSql (g : Grammar) (column : Value) (operator : String) (value : Value) :
    Except Failure String :=
  return (← g.wrapped column) ++ " " ++ operator ++ " " ++ (parameter value).display

/-- A column compared with a value.  PostgreSQL compares likeness on text only. -/
def basicSql (g : Grammar) (column : Value) (operator : String) (value : Value) :
    Except Failure String :=
  if g.dialect = .postgres ∧ Value.textIn "like".toList (Text.lower operator).toList then do
    return (← g.wrapped column) ++ "::text " ++ operator ++ " " ++ (parameter value).display
  else g.comparisonSql column operator value

/-- A column among values.  No value means never, and always if it is negated. -/
def amongSql (g : Grammar) (column : Value) (values : Except Failure String)
    (isEmpty negated : Bool) : Except Failure String :=
  if isEmpty then .ok (if negated then "1 = 1" else "0 = 1")
  else do
    let column ← g.wrapped column
    return column ++ " " ++ negatable negated "in" ++ " (" ++ (← values) ++ ")"

/-- An integer in SQL.  One with too many digits has no text. -/
def integerText (i : Int) : Except Failure String :=
  if i.natAbs < 10 ^ Number.maxNumeralDigits then .ok (Number.intText i) else .error .badValue

/-- Integers with commas between them. -/
def integersSql (values : List Int) : Except Failure String :=
  return joinWith ", " (← values.mapM integerText)

/-- A column without a value, or with one. -/
def plainNullSql (g : Grammar) (column : Value) (negated : Bool) : Except Failure String :=
  return (← g.wrapped column) ++ (if negated then " is not null" else " is null")

/-- A column without a value.  In MySQL a path may also lead to the JSON word for it. -/
def nullSql (g : Grammar) (column : Value) (negated : Bool) : Except Failure String :=
  match g.dialect, column with
  | .mysql, .text s =>
    if Name.hasArrow s.toList then do
      let (field, path) ← g.fieldAndPath s
      let extract := "json_extract(" ++ field ++ path ++ ")"
      return if negated then
        "(" ++ extract ++ " is not null AND json_type(" ++ extract ++ ") != 'NULL')"
      else "(" ++ extract ++ " is null OR json_type(" ++ extract ++ ") = 'NULL')"
    else g.plainNullSql column negated
  | _, _ => g.plainNullSql column negated

/-- A column between the first and the last of some values. -/
def betweenSql (g : Grammar) (column : Value) (values : List Value) (negated : Bool) :
    Except Failure String :=
  match values.head?, values.getLast? with
  | some first, some last => do
    return (← g.wrapped column) ++ " " ++ negatable negated "between" ++ " " ++
      (parameter first).display ++ " and " ++ (parameter last).display
  | _, _ => .error (.value .badIndex)

/-- A part of a date compared with a value. -/
def datePartSql (g : Grammar) (part : DatePart) (column : Value) (operator : String)
    (value : Value) : Except Failure String := do
  let column ← g.wrapped column
  let value := (parameter value).display
  return match g.dialect, part with
    | .postgres, .date => column ++ "::date " ++ operator ++ " " ++ value
    | .postgres, .time => column ++ "::time " ++ operator ++ " " ++ value
    | .postgres, part =>
      "extract(" ++ part.name ++ " from " ++ column ++ ") " ++ operator ++ " " ++ value
    | .sqlite, part =>
      "strftime('" ++ part.pattern ++ "', " ++ column ++ ") " ++ operator ++ " cast(" ++ value ++
        " as text)"
    | _, part => part.name ++ "(" ++ column ++ ") " ++ operator ++ " " ++ value

/-- The text of a condition. -/
def whereSql (g : Grammar) (attached : Attached) : Where → Except Failure String
  | .raw sql => .ok sql.display
  | .basic column operator value => g.basicSql column operator value
  | .among column values negated =>
    g.amongSql column (parameterize values) values.isEmpty negated
  | .amongIntegers column values negated => do
    let integers ← integersSql values
    g.amongSql column (.ok integers) values.isEmpty negated
  | .null column negated => g.nullSql column negated
  | .between column values negated => g.betweenSql column values negated
  | .datePart part column operator value => g.datePartSql part column operator value
  | .columnPair first operator second => do
    let first ← g.wrapped first
    return first ++ " " ++ operator ++ " " ++ (← g.wrapped second)
  | .nested query => do return "(" ++ (← attached.conditions query) ++ ")"
  | .sub column operator query => do
    let select ← attached.select query
    return (← g.wrapped column) ++ " " ++ operator.display ++ " (" ++ select ++ ")"
  | .exists query negated => do
    return negatable negated "exists" ++ " (" ++ (← attached.selectOf query) ++ ")"
  | .rowValues columns operator values => do
    let columns ← g.columnize columns
    let values ← parameterize values
    return "(" ++ columns ++ ") " ++ operator.display ++ " (" ++ values ++ ")"
  | .jsonContains column value negated => do
    return (if negated then "not " else "") ++
      (← g.jsonContainsSql attached.oracle column (parameter value))
  | .jsonLength column operator value =>
    g.jsonLengthSql attached.oracle column operator (parameter value)

/-- The text of a list of conditions, without the joining word of the first. -/
def conditionsSql (g : Grammar) (attached : Attached) (conditions : List Condition) :
    Except Failure String := do
  let fragments ← conditions.mapM fun condition => do
    return condition.boolean.display ++ " " ++ (← g.whereSql attached condition.body)
  return dropConjunction (joinWith " " fragments)

/-- The conditions of a query after their keyword, or nothing if there are none. -/
def wheresSql (g : Grammar) (attached : Attached) (q : Query) : Except Failure String :=
  if q.wheres.isEmpty then .ok ""
  else do return q.keyword ++ " " ++ (← g.conditionsSql attached q.wheres)

/-! ## Conditions on groups -/

/-- The text of a condition on groups. -/
def havingSql (g : Grammar) : Having → Except Failure String
  | .basic column operator value => g.comparisonSql column operator value
  | .raw sql => .ok sql.display
  | .between column values negated => g.betweenSql column values negated
  | .null column negated => g.plainNullSql column negated

/-- The text of a list of conditions on groups, with its keyword. -/
def havingsSql (g : Grammar) (conditions : List GroupCondition) : Except Failure String := do
  let fragments ← conditions.mapM fun condition => do
    return condition.boolean.display ++ " " ++ (← g.havingSql condition.body)
  return "having " ++ dropConjunction (joinWith " " fragments)

end Grammar

end FluentSql
