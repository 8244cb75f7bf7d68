import FluentSql.Fluent.Comparison
import FluentSql.Fluent.Select

/-!
# Conditions on rows

A condition is a comparison, a list or a map of conditions, or a callback
that builds a group.  Every condition comes with the word that joins it to
the one before it.

* `QueryId.whereNested` and its parts build a group of conditions.
* `QueryId.whereSingle` and `QueryId.whereColumnSingle` add one comparison.
* `QueryId.whereGroup` goes through a list or a map of conditions;
  `QueryId.where` and `QueryId.whereColumn` take either form.
* The other functions add one kind of condition each.
-/

namespace FluentSql

namespace QueryId

/-! ## Groups -/

/-- A new query on the source of this one, to collect a group of conditions. -/
def forNestedWhere (run : Runner) (q : QueryId) : Action QueryId := do
  let nested ← q.newQuery
  nested.setSource run (← q.read).source .null
  return nested

/-- Adds the conditions of a query as one group.  A query without conditions adds nothing. -/
def addNested (q nested : QueryId) (boolean : Value) : Action Unit := do
  let group ← nested.read
  if group.wheres.isEmpty then return ()
  q.addWhere boolean (.nested nested)
  q.bind .condition group.bindings.condition

/-- Adds a group of conditions that some action builds. -/
def groupBuiltBy (run : Runner) (q : QueryId) (boolean : Value) (build : QueryId → Action Unit) :
    Action Unit := do
  let nested ← q.forNestedWhere run
  build nested
  q.addNested nested boolean

/-- Adds a group of conditions that a callback builds. -/
def whereNested (run : Runner) (q : QueryId) (callback boolean : Value) : Action Unit :=
  q.groupBuiltBy run boolean fun nested => discard (callback.call run nested [])

/-! ## Single comparisons -/

/-- Adds conditions that columns have no value, or have one. -/
def whereNull (q : QueryId) (columns boolean : Value) (negated : Bool) : Action Unit :=
  columns.listed.forM fun column => q.addWhere boolean (.null column negated)

/-- Adds a comparison with the result of a sub-query. -/
def whereSub (run : Runner) (q : QueryId) (column operator query boolean : Value) :
    Action Unit := do
  let sub ← q.resolveSub run query
  q.addWhere boolean (.sub column operator sub)
  q.bind .condition (← sub.bindings)

/-- A truth value that is compared with a path into a JSON column is written as the JSON word. -/
def jsonWord (column value : Value) : Value :=
  match column, value with
  | .text s, .bool b =>
    if Name.hasArrow s.toList then .raw (.text (if b then "true" else "false")) else value
  | _, value => value

/-- Adds one comparison: of a column or a sub-query, with a value or a sub-query. -/
def whereSingle (run : Runner) (q : QueryId) (column : Value) (operator value : Option Value)
    (boolean : Value) : Action Unit := do
  if column.isCallable && operator.isNone then
    q.whereNested run column boolean
  else
    let comparison ← q.comparison operator value
    let column ← if column.isQuery then do
        let sub ← q.createSub run column
        q.bind .condition sub.bindings
        pure (.raw (.text ("(" ++ sub.sql ++ ")")))
      else pure column
    if comparison.value.isQueryable then
      q.whereSub run column (.text comparison.operator) comparison.value boolean
    else if comparison.value.isNull then
      q.whereNull column boolean (comparison.operator != "=")
    else
      let value := jsonWord column comparison.value
      q.addWhere boolean (.basic column comparison.operator value)
      q.bindValue .condition value

/-- Adds one comparison of two columns.  What is no operator is the second column. -/
def whereColumnSingle (q : QueryId) (first operator second boolean : Value) : Action Unit := do
  let added ← q.addedOperators
  let known ← match operator with
    | .text s => Action.ofExcept (isOperator added (Text.lower s))
    | _ => pure false
  let (operator, second) :=
    match known, operator with
    | true, .text s => (Text.lower s, second)
    | _, operator => ("=", operator)
  if second.isNull then throw (.argument .secondColumnMissing)
  q.addWhere boolean (.columnPair first operator second)

/-! ## Lists and maps of conditions -/

/-- Whether a value is a list or a map of conditions. -/
def isConditionList : Value → Bool
  | .map _ | .list _ | .tuple _ => true
  | _ => false

/-- The arguments of each condition of a list or a map.  The entries of a map are compared for
equality. -/
def conditionArguments (conditions boolean : Value) : List (Except Failure (List Value)) :=
  match conditions with
  | .map entries => entries.map fun entry => .ok [entry.1, .text "=", entry.2, boolean]
  | .list items | .tuple items => items.map Value.items
  | _ => []

mutual

/-- How deeply lists and maps are nested in a value. -/
def depth : Value → Nat
  | .list items => depthOfAll items + 1
  | .tuple items => depthOfAll items + 1
  | .map entries => depthOfEntries entries + 1
  | _ => 0

/-- The greatest depth of the elements of a list. -/
def depthOfAll : List Value → Nat
  | [] => 0
  | v :: rest => max (depth v) (depthOfAll rest)

/-- The greatest depth of the keys and values of a map. -/
def depthOfEntries : List (Value × Value) → Nat
  | [] => 0
  | (k, v) :: rest => max (max (depth k) (depth v)) (depthOfEntries rest)

end

/-- The kind of comparison that a list of conditions is made of. -/
inductive ComparisonKind where
  /-- Columns with values. -/
  | values
  /-- Columns with columns. -/
  | columns
deriving DecidableEq

/-- Adds one comparison, given by one to four arguments. -/
def compareSingle (run : Runner) (q : QueryId) (kind : ComparisonKind) (arguments : List Value) :
    Action Unit :=
  match arguments with
  | [] => throw .wrongType
  | column :: rest =>
    if 3 < rest.length then throw .wrongType
    else
      let boolean := (rest[2]?).getD (.text "and")
      match kind with
      | .values => q.whereSingle run column rest[0]? rest[1]? boolean
      | .columns => q.whereColumnSingle column (rest[0]?.getD .null) (rest[1]?.getD .null) boolean

/-- Adds a list or a map of conditions as one group.  A condition may itself be such a list; `fuel`
bounds how deeply they are nested. -/
def whereGroup (run : Runner) (kind : ComparisonKind) :
    (fuel : Nat) → QueryId → (conditions boolean : Value) → Action Unit
  | 0, _, _, _ => throw (.value .endless)
  | fuel + 1, q, conditions, boolean =>
    q.groupBuiltBy run boolean fun nested =>
      (conditionArguments conditions boolean).forM fun arguments => do
        let arguments ← Action.ofExcept arguments
        match arguments with
        | column :: rest =>
          let column ← column.now
          if isConditionList column && rest.length ≤ 3 then
            whereGroup run kind fuel nested column ((rest[2]?).getD (.text "and"))
          else nested.compareSingle run kind (column :: rest)
        | [] => throw .wrongType

/-- Adds a comparison, or a list or a map of them as one group. -/
def «where» (run : Runner) (q : QueryId) (column : Value) (operator value : Option Value)
    (boolean : Value) : Action Unit := do
  let column ← column.now
  if isConditionList column then q.whereGroup run .values (depth column + 1) column boolean
  else q.whereSingle run column operator value boolean

/-- Adds a comparison of columns, or a list or a map of them as one group. -/
def whereColumn (run : Runner) (q : QueryId) (first operator second boolean : Value) :
    Action Unit := do
  let first ← first.now
  if isConditionList first then q.whereGroup run .columns (depth first + 1) first boolean
  else q.whereColumnSingle first operator second boolean

/-- Adds a negated group: what a callback builds, or one comparison. -/
def whereNot (run : Runner) (q : QueryId) (column : Value) (operator value : Option Value)
    (boolean : Value) : Action Unit := do
  let boolean := Value.text ((← Action.ofExcept boolean.asText) ++ " not")
  if column.isCallable then q.whereNested run column boolean
  else
    q.groupBuiltBy run boolean fun nested =>
      nested.where run column operator value (.text "and")

/-! ## Other conditions -/

/-- Adds a fragment as a condition. -/
def whereRaw (q : QueryId) (sql bindings boolean : Value) : Action Unit := do
  q.addWhere boolean (.raw sql)
  q.bind .condition (← bindings.itemsOrNone)

/-- Adds a condition that a column is among values, or among the rows of a sub-query. -/
def whereIn (run : Runner) (q : QueryId) (column values boolean : Value) (negated : Bool) :
    Action Unit := do
  let values ← if values.isQueryable then do
      let sub ← q.createSub run values
      q.bind .condition sub.bindings
      pure [.raw (.text sub.sql)]
    else values.itemsNow
  q.addWhere boolean (.among column values negated)
  q.bindValues .condition values

/-- The integer of a value in a raw list. -/
def rawInteger (v : Value) : Action Int := do
  match v.toInt with
  | .error (.value .wrongType) | .error (.value .badValue) =>
    throw (.argument (.notInteger (← v.shown).literal))
  | result => Action.ofExcept result

/-- Adds a condition that a column is among integers, which are written into the SQL. -/
def whereIntegerIn (q : QueryId) (column values boolean : Value) (negated : Bool) :
    Action Unit := do
  let integers ← (← values.itemsNow).mapM rawInteger
  q.addWhere boolean (.amongIntegers column integers negated)

/-- The first and the last of the values of a between clause. -/
def betweenEnds (values : List Value) : Except Failure (List Value) :=
  match values.head?, values.getLast? with
  | some first, some last => .ok [first, last]
  | _, _ => .error (.argument .betweenEmpty)

/-- Adds a condition that a column is between the first and the last of some values. -/
def whereBetween (q : QueryId) (column values boolean : Value) (negated : Bool) :
    Action Unit := do
  let values ← values.itemsNow
  let ends ← Action.ofExcept (betweenEnds values)
  q.addWhere boolean (.between column values negated)
  q.bindValues .condition ends

/-- The value that a part of a date is compared with: dates and times are written by the pattern of
the part, and days and months have two digits. -/
def datePartValue (part : DatePart) (value : Value) : Value :=
  match value with
  | .date d => .text ((Moment.ofDate d).format part.pattern)
  | .dateTime d => .text ((Moment.ofDateTime d).format part.pattern)
  | .time t => .text (Moment.format { time := t } part.pattern)
  | .raw _ => value
  | value =>
    if part = .day ∨ part = .month then .text (Number.padZeros 2 value.display) else value

/-- The value that a part of a date is compared with.  A query gives its own, if there is an
extension for the writing of dates. -/
def writtenDatePart (run : Runner) (part : DatePart) (value : Value) : Action Value := do
  match value with
  | .object (.query sub) =>
    if ((← get).extension? "strftime").isSome then
      Extensions.call run sub "strftime" [.text part.pattern]
    else return datePartValue part value
  | value =>
    if part = .day ∨ part = .month then return datePartValue part (← value.shown)
    else return datePartValue part value

/-- Adds a comparison of a part of a date. -/
def whereDatePart (run : Runner) (q : QueryId) (part : DatePart) (column operator : Value)
    (value : Option Value) (boolean : Value) : Action Unit := do
  let comparison ← q.comparison (some operator) value
  let value ← writtenDatePart run part comparison.value
  q.addWhere boolean (.datePart part column comparison.operator value)
  q.bindValue .condition value

/-- Adds a condition that what was given as a query has rows. -/
def addWhereExists (q : QueryId) (query boolean : Value) (negated : Bool) : Action Unit := do
  q.addWhere boolean (.exists query.query? negated)
  let sub ← query.needQuery
  q.bind .condition (← sub.bindings)

/-- Adds a condition that a sub-query has rows, or has none. -/
def whereExists (run : Runner) (q : QueryId) (query boolean : Value) (negated : Bool) :
    Action Unit := do
  let sub ← q.resolveSub run query
  q.addWhereExists (.ofQuery sub) boolean negated

/-- Adds a comparison of a row of columns with a row of values. -/
def whereRowValues (q : QueryId) (columns operator values boolean : Value) : Action Unit := do
  let columns ← columns.itemsNow
  let values ← values.itemsNow
  if columns.length ≠ values.length then throw (.argument .rowLengths)
  q.addWhere boolean (.rowValues columns operator values)
  q.bindValues .condition values

/-- Adds a condition that a JSON column contains a document. -/
def whereJsonContains (q : QueryId) (column value boolean : Value) (negated : Bool) :
    Action Unit := do
  q.addWhere boolean (.jsonContains column value negated)
  if value.isRaw then return ()
  let _ ← q.grammarFor "prepare_binding_for_json_contains"
  q.bind .condition [.text (← Action.ofExcept (← value.shown).json)]

/-- Adds a comparison of the length of a JSON array. -/
def whereJsonLength (q : QueryId) (column operator : Value) (value : Option Value)
    (boolean : Value) : Action Unit := do
  let comparison ← q.comparison (some operator) value
  q.addWhere boolean (.jsonLength column comparison.operator comparison.value)
  if comparison.value.isRaw then return ()
  q.bind .condition [.int (← Action.ofExcept comparison.value.toInt)]

end QueryId

end FluentSql
