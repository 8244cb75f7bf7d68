import FluentSql.Fluent.Execute
import FluentSql.Fluent.Having
import FluentSql.Fluent.Join
import FluentSql.Script.Signature

/-!
# Methods of queries

The fluent calls by name, in families: select list and source, joins,
conditions, grouping, ordering, bindings, compilation and execution.  Calls
that build a query return it, so that they chain.

* `queryMethods` are the methods of every query, `joinMethods` those of a join
  condition beside them.
* `queryAttributes` are the names under which a query keeps data, which cannot
  be called.
-/

namespace FluentSql

open Parameter

/-- A call that returns the query itself. -/
def QueryId.after (q : QueryId) (action : Action Unit) : Action Value := do
  action
  return .ofQuery q

/-- A call that returns nothing. -/
def Action.quietly (action : Action Unit) : Action Value := do
  action
  return .null

/-- A row as a value. -/
def Row.toValue (row : Option Row) : Value :=
  row.elim .null .map

/-- A statement as a value. -/
def Statement.toValue (statement : Statement) : Value :=
  .tuple [.text statement.sql, .list statement.bindings]

/-- A method that builds the query and returns it. -/
def builder (name : String) (parameters : List Parameter)
    (run : Runner → QueryId → Arguments → Action Unit) : Method QueryId :=
  ⟨name, { parameters }, fun runner q a => q.after (run runner q a)⟩

/-- A method that takes any number of arguments, builds the query and returns it. -/
def builderOfMany (name : String) (run : Runner → QueryId → List Value → Action Unit) :
    Method QueryId :=
  ⟨name, { takesRest := true }, fun runner q a => q.after (run runner q a.rest)⟩

/-- A method that gives a value. -/
def reader (name : String) (parameters : List Parameter)
    (run : Runner → QueryId → Arguments → Action Value) : Method QueryId :=
  ⟨name, { parameters }, run⟩

/-- The joining word, which is `and` unless another is given. -/
def booleanParameter : Parameter := defaulted "boolean" (.text "and")

/-- The mark of a negated condition. -/
def notParameter : Parameter := defaulted "not_" (.bool false)

/-- A parameter that is absent unless it is given. -/
def orNull (name : String) : Parameter := defaulted name .null

/-- The words `and` and `or` as values. -/
def andWord : Value := .text "and"

/-- The word that joins an alternative. -/
def orWord : Value := .text "or"

/-! ## Select list and source -/

/-- Methods of the select list and the source. -/
def selectMethods : List (Method QueryId) := [
  builderOfMany "select" fun run q columns => q.select run columns,
  builderOfMany "add_select" fun run q columns => q.addSelect run columns,
  builder "select_raw" [needed "expression", orNull "bindings"] fun _ q a =>
    q.selectRaw (a.get "expression") (a.get "bindings"),
  builder "select_sub" [needed "query", needed "as_"] fun run q a =>
    q.selectSub run (a.get "query") (a.get "as_"),
  builder "distinct" [] fun _ q _ => q.distinct,
  builder "from_" [needed "table", orNull "as_"] fun run q a =>
    q.setSource run (a.get "table") (a.get "as_"),
  builder "from_sub" [needed "query", needed "as_"] fun run q a =>
    q.fromSub run (a.get "query") (a.get "as_"),
  builder "from_raw" [needed "expression", orNull "bindings"] fun _ q a =>
    q.fromRaw (a.get "expression") (a.get "bindings")]

/-! ## Joins -/

/-- The parameters of a join condition whose operator and second column may be left out. -/
def looseJoin : List Parameter := [needed "first", orNull "operator", orNull "second"]

/-- The parameters of a join condition that compares with a value. -/
def strictJoin : List Parameter := [needed "first", needed "operator", needed "second"]

/-- The kind of a join, unless it is given. -/
def typeParameter : Parameter := defaulted "type_" (.text "inner")

/-- The mark of a join that compares with a value. -/
def whereParameter : Parameter := defaulted "where" (.bool false)

/-- A join of a kind, with the arguments of a call. -/
def joinWithArguments (run : Runner) (q : QueryId) (a : Arguments) (type : Value)
    (byValue : Bool) : Action Unit :=
  q.join run (a.get "table") (a.get "first") (a.get "operator") (a.get "second") type byValue

/-- A join of a sub-query of a kind, with the arguments of a call. -/
def joinSubWithArguments (run : Runner) (q : QueryId) (a : Arguments) (type : Value)
    (byValue : Bool) : Action Unit :=
  q.joinSub run (a.get "query") (a.get "as_") (a.get "first") (a.get "operator") (a.get "second")
    type byValue

/-- Joins of one kind under the names of that kind. -/
def joinMethodsOf (word : String) : List (Method QueryId) := [
  builder (word ++ "_join") (needed "table" :: looseJoin) fun run q a =>
    joinWithArguments run q a (.text word) false,
  builder (word ++ "_join_where") (needed "table" :: strictJoin) fun run q a =>
    joinWithArguments run q a (.text word) true,
  builder (word ++ "_join_sub") (needed "query" :: needed "as_" :: looseJoin) fun run q a =>
    joinSubWithArguments run q a (.text word) false]

/-- Methods of joins. -/
def joiningMethods : List (Method QueryId) := [
  builder "join" (needed "table" :: looseJoin ++ [typeParameter, whereParameter]) fun run q a =>
    joinWithArguments run q a (a.get "type_") (a.flag "where"),
  builder "join_where" (needed "table" :: strictJoin ++ [typeParameter]) fun run q a =>
    joinWithArguments run q a (a.get "type_") true,
  builder "join_sub"
    (needed "query" :: needed "as_" :: looseJoin ++ [typeParameter, whereParameter])
    fun run q a => joinSubWithArguments run q a (a.get "type_") (a.flag "where")] ++
  joinMethodsOf "left" ++ joinMethodsOf "right" ++ [
  builder "cross_join" [needed "table", orNull "first", orNull "operator", orNull "second"]
    fun run q a => q.crossJoin run (a.get "table") (a.get "first") (a.get "operator")
      (a.get "second"),
  reader "new_join_clause" [needed "parent_query", needed "type_", needed "table"] fun _ _ a => do
    let parent ← (a.get "parent_query").needQuery
    return .ofQuery (← parent.newJoin (a.get "type_") (a.get "table"))]

/-! ## Conditions on rows -/

/-- The parameters of a comparison. -/
def comparison : List Parameter := [needed "column", free "operator", free "value"]

/-- The parameters of a comparison of columns. -/
def columnComparison : List Parameter := [needed "first", orNull "operator", orNull "second"]

/-- The parameters of a comparison that always has an operator or a value. -/
def operatorComparison : List Parameter := [needed "column", needed "operator", free "value"]

/-- Methods of comparisons and groups. -/
def comparisonMethods : List (Method QueryId) := [
  builder "where" (comparison ++ [booleanParameter]) fun run q a =>
    q.where run (a.get "column") (a.get? "operator") (a.get? "value") (a.get "boolean"),
  builder "or_where" comparison fun run q a =>
    q.where run (a.get "column") (a.get? "operator") (a.get? "value") orWord,
  builder "where_not" (comparison ++ [booleanParameter]) fun run q a =>
    q.whereNot run (a.get "column") (a.get? "operator") (a.get? "value") (a.get "boolean"),
  builder "where_column" (columnComparison ++ [booleanParameter]) fun run q a =>
    q.whereColumn run (a.get "first") (a.get "operator") (a.get "second") (a.get "boolean"),
  builder "or_where_column" columnComparison fun run q a =>
    q.whereColumn run (a.get "first") (a.get "operator") (a.get "second") orWord,
  builder "where_raw" [needed "sql", orNull "bindings", booleanParameter] fun _ q a =>
    q.whereRaw (a.get "sql") (a.get "bindings") (a.get "boolean"),
  builder "or_where_raw" [needed "sql", orNull "bindings"] fun _ q a =>
    q.whereRaw (a.get "sql") (a.get "bindings") orWord,
  builder "where_nested" [needed "callback", booleanParameter] fun run q a =>
    q.whereNested run (a.get "callback") (a.get "boolean"),
  reader "for_nested_where" [] fun run q _ => return .ofQuery (← q.forNestedWhere run),
  builder "add_nested_where_query" [needed "query", booleanParameter] fun _ q a => do
    q.addNested (← (a.get "query").needQuery) (a.get "boolean"),
  builder "where_sub" [needed "column", needed "operator", needed "query", booleanParameter]
    fun run q a =>
      q.whereSub run (a.get "column") (a.get "operator") (a.get "query") (a.get "boolean")]

/-- Methods that ask whether a column is among values. -/
def membershipMethods : List (Method QueryId) := [
  builder "where_in" [needed "column", needed "values", booleanParameter, notParameter]
    fun run q a =>
      q.whereIn run (a.get "column") (a.get "values") (a.get "boolean") (a.flag "not_"),
  builder "or_where_in" [needed "column", needed "values"] fun run q a =>
    q.whereIn run (a.get "column") (a.get "values") orWord false,
  builder "where_not_in" [needed "column", needed "values", booleanParameter] fun run q a =>
    q.whereIn run (a.get "column") (a.get "values") (a.get "boolean") true,
  builder "or_where_not_in" [needed "column", needed "values"] fun run q a =>
    q.whereIn run (a.get "column") (a.get "values") orWord true,
  builder "where_integer_in_raw" [needed "column", needed "values", booleanParameter, notParameter]
    fun _ q a =>
      q.whereIntegerIn (a.get "column") (a.get "values") (a.get "boolean") (a.flag "not_"),
  builder "where_integer_not_in_raw" [needed "column", needed "values", booleanParameter]
    fun _ q a => q.whereIntegerIn (a.get "column") (a.get "values") (a.get "boolean") true,
  builder "where_null" [needed "columns", booleanParameter, notParameter] fun _ q a =>
    q.whereNull (a.get "columns") (a.get "boolean") (a.flag "not_"),
  builder "or_where_null" [needed "columns"] fun _ q a =>
    q.whereNull (a.get "columns") orWord false,
  builder "where_not_null" [needed "columns", booleanParameter] fun _ q a =>
    q.whereNull (a.get "columns") (a.get "boolean") true,
  builder "or_where_not_null" [needed "columns"] fun _ q a =>
    q.whereNull (a.get "columns") orWord true,
  builder "where_between" [needed "column", needed "values", booleanParameter, notParameter]
    fun _ q a => q.whereBetween (a.get "column") (a.get "values") (a.get "boolean") (a.flag "not_"),
  builder "or_where_between" [needed "column", needed "values"] fun _ q a =>
    q.whereBetween (a.get "column") (a.get "values") orWord false,
  builder "where_not_between" [needed "column", needed "values", booleanParameter] fun _ q a =>
    q.whereBetween (a.get "column") (a.get "values") (a.get "boolean") true,
  builder "or_where_not_between" [needed "column", needed "values"] fun _ q a =>
    q.whereBetween (a.get "column") (a.get "values") orWord true]

/-- The comparison of a part of a date. -/
def datePartMethod (part : DatePart) : Method QueryId :=
  builder ("where_" ++ part.name) (operatorComparison ++ [booleanParameter]) fun run q a =>
    q.whereDatePart run part (a.get "column") (a.get "operator") (a.get? "value") (a.get "boolean")

/-- The comparison of a part of a date as an alternative. -/
def orDatePartMethod (part : DatePart) : Method QueryId :=
  builder ("or_where_" ++ part.name) operatorComparison fun run q a =>
    q.whereDatePart run part (a.get "column") (a.get "operator") (a.get? "value") orWord

/-- Methods of conditions with sub-queries, rows, dates and JSON columns. -/
def furtherWhereMethods : List (Method QueryId) :=
  [DatePart.date, .time, .day, .month, .year].map datePartMethod ++
  [DatePart.date, .time].map orDatePartMethod ++ [
  builder "where_exists" [needed "query", booleanParameter, notParameter] fun run q a =>
    q.whereExists run (a.get "query") (a.get "boolean") (a.flag "not_"),
  builder "or_where_exists" [needed "query", notParameter] fun run q a =>
    q.whereExists run (a.get "query") orWord (a.flag "not_"),
  builder "where_not_exists" [needed "query", booleanParameter] fun run q a =>
    q.whereExists run (a.get "query") (a.get "boolean") true,
  builder "or_where_not_exists" [needed "query"] fun run q a =>
    q.whereExists run (a.get "query") orWord true,
  builder "add_where_exists_query" [needed "query", booleanParameter, notParameter] fun _ q a =>
    q.addWhereExists (a.get "query") (a.get "boolean") (a.flag "not_"),
  builder "where_row_values"
    [needed "columns", needed "operator", needed "values", booleanParameter]
    fun _ q a =>
      q.whereRowValues (a.get "columns") (a.get "operator") (a.get "values") (a.get "boolean"),
  builder "or_where_row_values" [needed "columns", needed "operator", needed "values"] fun _ q a =>
    q.whereRowValues (a.get "columns") (a.get "operator") (a.get "values") orWord,
  builder "where_json_contains" [needed "column", needed "value", booleanParameter, notParameter]
    fun _ q a =>
      q.whereJsonContains (a.get "column") (a.get "value") (a.get "boolean") (a.flag "not_"),
  builder "or_where_json_contains" [needed "column", needed "value"] fun _ q a =>
    q.whereJsonContains (a.get "column") (a.get "value") orWord false,
  builder "where_json_doesnt_contain" [needed "column", needed "value", booleanParameter]
    fun _ q a => q.whereJsonContains (a.get "column") (a.get "value") (a.get "boolean") true,
  builder "where_json_length" (operatorComparison ++ [booleanParameter]) fun _ q a =>
    q.whereJsonLength (a.get "column") (a.get "operator") (a.get? "value") (a.get "boolean"),
  builder "or_where_json_length" operatorComparison fun _ q a =>
    q.whereJsonLength (a.get "column") (a.get "operator") (a.get? "value") orWord]

/-! ## Grouping, ordering and paging -/

/-- Methods of grouping and conditions on groups. -/
def groupMethods : List (Method QueryId) := [
  builderOfMany "group_by" fun _ q columns => q.groupBy columns,
  builder "group_by_raw" [needed "sql", orNull "bindings"] fun _ q a =>
    q.groupByRaw (a.get "sql") (a.get "bindings"),
  builder "having" (comparison ++ [booleanParameter]) fun _ q a =>
    q.having (a.get "column") (a.get? "operator") (a.get? "value") (a.get "boolean"),
  builder "or_having" comparison fun _ q a =>
    q.having (a.get "column") (a.get? "operator") (a.get? "value") orWord,
  builder "having_raw" [needed "sql", orNull "bindings", booleanParameter] fun _ q a =>
    q.havingRaw (a.get "sql") (a.get "bindings") (a.get "boolean"),
  builder "or_having_raw" [needed "sql", orNull "bindings"] fun _ q a =>
    q.havingRaw (a.get "sql") (a.get "bindings") orWord,
  builder "having_between" [needed "column", needed "values", booleanParameter, notParameter]
    fun _ q a =>
      q.havingBetween (a.get "column") (a.get "values") (a.get "boolean") (a.flag "not_"),
  builder "having_null" [needed "columns", booleanParameter, notParameter] fun _ q a =>
    q.havingNull (a.get "columns") (a.get "boolean") (a.flag "not_"),
  builder "having_not_null" [needed "columns", booleanParameter] fun _ q a =>
    q.havingNull (a.get "columns") (a.get "boolean") true]

/-- The word for ascending order. -/
def ascending : Value := .text "asc"

/-- The word for descending order. -/
def descending : Value := .text "desc"

/-- The column of the time of creation, unless another is given. -/
def createdParameter : Parameter := defaulted "column" (.text "created_at")

/-- Methods of ordering, paging, unions and locks. -/
def orderMethods : List (Method QueryId) := [
  builder "order_by" [needed "column", defaulted "direction" ascending] fun run q a =>
    q.orderBy run (a.get "column") (a.get "direction"),
  builder "order_by_desc" [needed "column"] fun run q a =>
    q.orderBy run (a.get "column") descending,
  builder "latest" [createdParameter] fun run q a => q.orderBy run (a.get "column") descending,
  builder "oldest" [createdParameter] fun run q a => q.orderBy run (a.get "column") ascending,
  builder "in_random_order" [defaulted "seed" (.text "")] fun _ q a =>
    q.inRandomOrder (a.get "seed"),
  builder "order_by_raw" [needed "sql", orNull "bindings"] fun _ q a =>
    q.orderByRaw (a.get "sql") (a.get "bindings"),
  builder "reorder" [orNull "column", defaulted "direction" ascending] fun run q a =>
    q.reorder run (a.get "column") (a.get "direction"),
  builder "offset" [needed "value"] fun _ q a => q.offset (a.get "value"),
  builder "skip" [needed "value"] fun _ q a => q.offset (a.get "value"),
  builder "limit" [needed "value"] fun _ q a => q.limit (a.get "value"),
  builder "take" [needed "value"] fun _ q a => q.limit (a.get "value"),
  builder "for_page" [needed "page", defaulted "per_page" (.int 15)] fun _ q a =>
    q.forPage (a.get "page") (a.get "per_page"),
  builder "union" [needed "query", defaulted "all" (.bool false)] fun run q a =>
    q.union run (a.get "query") (a.get "all"),
  builder "union_all" [needed "query"] fun run q a => q.union run (a.get "query") (.bool true),
  builder "lock" [defaulted "value" (.bool true)] fun _ q a => q.lock (a.get "value"),
  builder "lock_for_update" [] fun _ q _ => q.lock (.bool true),
  builder "shared_lock" [] fun _ q _ => q.lock (.bool false),
  reader "when" [needed "value", needed "callback", orNull "default"] fun run q a =>
    q.whenever run (a.get "value") (a.get "callback") (a.get "default")]

/-! ## Bindings and compilation -/

/-- The group of conditions, unless another is named. -/
def groupParameter : Parameter := defaulted "type_" (.text "where")

/-- Methods of bindings. -/
def bindingMethods : List (Method QueryId) := [
  reader "get_bindings" [] fun _ q _ => return .list (← q.bindings),
  reader "get_raw_bindings" [] fun _ q _ => return .object (.bindings q),
  builder "set_bindings" [needed "bindings", groupParameter] fun _ q a =>
    q.setBindings (a.get "bindings") (a.get "type_"),
  builder "add_binding" [needed "value", groupParameter] fun _ q a =>
    q.addBinding (a.get "value") (a.get "type_"),
  builder "merge_bindings" [needed "query"] fun _ q a => q.mergeBindings (a.get "query")]

/-- Methods that compile the query. -/
def compilingMethods : List (Method QueryId) := [
  reader "to_sql" [] fun run q _ => return .text (← q.toSql run),
  reader "to_sql_and_bindings" [] fun run q _ =>
    return Statement.toValue ⟨← q.toSql run, ← q.bindings⟩,
  reader "to_exists_sql" [] fun run q _ => return (← q.toExistsSql run).toValue,
  reader "to_insert_sql" [needed "values"] fun run q a =>
    return (← q.toInsertSql run (a.get "values")).toValue,
  reader "to_insert_or_ignore_sql" [needed "values"] fun run q a =>
    return (← q.toInsertOrIgnoreSql run (a.get "values")).toValue,
  reader "to_insert_get_id_sql" [needed "values", orNull "sequence"] fun run q a =>
    return (← q.toInsertGetIdSql run (a.get "values") (a.get "sequence")).toValue,
  reader "to_update_sql" [needed "values"] fun run q a =>
    return (← q.toUpdateSql run (a.get "values")).toValue,
  reader "to_delete_sql" [orNull "id"] fun run q a =>
    return (← q.toDeleteSql run (a.get "id")).toValue,
  reader "to_truncate_sql" [] fun run q _ => do
    let statements ← q.toTruncateSql run
    return .map (ofEntries (statements.map fun s => (.text s.sql, .list s.bindings)))]

/-! ## Execution and copies -/

/-- All columns, unless others are given. -/
def starParameter : Parameter := defaulted "columns" (.tuple [.text "*"])

/-- Methods that read rows. -/
def readingMethods : List (Method QueryId) := [
  reader "get" [orNull "columns"] fun run q a =>
    return .list ((← q.get run (a.get "columns")).map .map),
  reader "first" [orNull "columns"] fun run q a =>
    return Row.toValue (← q.first run (a.get "columns")),
  reader "find" [needed "id", orNull "columns"] fun run q a =>
    return Row.toValue (← q.find run (a.get "id") (a.get "columns")),
  reader "value" [needed "column"] fun run q a => q.value run (a.get "column"),
  reader "pluck" [needed "column"] fun run q a => return .list (← q.pluck run (a.get "column")),
  reader "exists" [] fun run q _ => return .bool (← q.hasRows run),
  reader "doesnt_exist" [] fun run q _ => return .bool !(← q.hasRows run),
  reader "count" [defaulted "columns" (.text "*")] fun run q a =>
    return .int (← q.count run (a.get "columns")),
  reader "min" [needed "column"] fun run q a =>
    q.aggregate run (.text "min") (.list [a.get "column"]),
  reader "max" [needed "column"] fun run q a =>
    q.aggregate run (.text "max") (.list [a.get "column"]),
  reader "sum" [needed "column"] fun run q a => q.sum run (a.get "column"),
  reader "avg" [needed "column"] fun run q a =>
    q.aggregate run (.text "avg") (.list [a.get "column"]),
  reader "average" [needed "column"] fun run q a =>
    q.aggregate run (.text "avg") (.list [a.get "column"]),
  reader "aggregate" [needed "function", starParameter] fun run q a =>
    q.aggregate run (a.get "function") (a.get "columns"),
  reader "for_aggregate" [needed "function", starParameter] fun _ q a =>
    return .ofQuery (← q.forAggregate (a.get "function") (a.get "columns"))]

/-- The parameters of a step of a column. -/
def stepParameters : List Parameter :=
  [needed "column", defaulted "amount" (.int 1), orNull "extra"]

/-- Methods that change rows. -/
def changingMethods : List (Method QueryId) := [
  reader "insert" [needed "values"] fun run q a => do
    q.insert run (a.get "values")
    return .bool true,
  reader "insert_or_ignore" [needed "values"] fun run q a => q.insertOrIgnore run (a.get "values"),
  reader "insert_get_id" [needed "values", orNull "sequence"] fun run q a =>
    q.insertGetId run (a.get "values") (a.get "sequence"),
  reader "insert_using" [needed "columns", needed "query"] fun run q a =>
    q.insertUsing run (a.get "columns") (a.get "query"),
  reader "update" [needed "values"] fun run q a => q.update run (a.get "values"),
  reader "increment" stepParameters fun run q a =>
    q.step run (a.get "column") (a.get "amount") (a.get "extra") "+",
  reader "decrement" stepParameters fun run q a =>
    q.step run (a.get "column") (a.get "amount") (a.get "extra") "-",
  reader "delete" [orNull "id"] fun run q a => q.delete run (a.get "id"),
  reader "truncate" [] fun run q _ => Action.quietly (q.truncate run)]

/-- Methods that make other queries. -/
def copyingMethods : List (Method QueryId) := [
  reader "raw" [needed "value"] fun _ _ a => return .raw (a.get "value"),
  reader "new_query" [] fun _ q _ => return .ofQuery (← q.newQuery),
  reader "for_sub_query" [] fun _ q _ => return .ofQuery (← q.forSubQuery),
  reader "clone" [] fun _ q _ => return .ofQuery (← q.copy),
  reader "clone_without" [needed "properties"] fun _ q a =>
    return .ofQuery (← q.copyWithout (a.get "properties")),
  reader "clone_without_bindings" [needed "groups"] fun _ q a =>
    return .ofQuery (← q.copyWithoutBindings (a.get "groups"))]

/-- The methods of every query. -/
def queryMethods : List (Method QueryId) :=
  selectMethods ++ joiningMethods ++ comparisonMethods ++ membershipMethods ++
    furtherWhereMethods ++ groupMethods ++ orderMethods ++ bindingMethods ++ compilingMethods ++
    readingMethods ++ changingMethods ++ copyingMethods

/-- The methods of a join condition beside those of every query. -/
def joinMethods : List (Method QueryId) := [
  builder "on" (columnComparison ++ [booleanParameter]) fun run q a =>
    q.on run (a.get "first") (a.get "operator") (a.get "second") (a.get "boolean"),
  builder "or_on" columnComparison fun run q a =>
    q.on run (a.get "first") (a.get "operator") (a.get "second") orWord]

/-- The names under which a query keeps data. -/
def queryAttributes : List String :=
  ["connection", "grammar", "bindings", "where_keyword", "operators"] ++
    QueryProperty.named.map (·.1)

/-- The names under which a join condition keeps data beside that of every query. -/
def joinAttributes : List String :=
  ["type", "table", "parent_class", "parent_connection", "parent_grammar"]

end FluentSql
