import FluentSql.Compile.Statement
import FluentSql.Fluent.Consult
import FluentSql.Fluent.SubQuery
import FluentSql.Grammar.Piece
import FluentSql.Script.Signature
import FluentSql.Value.Json

/-!
# Methods of grammars

* `nameMethods` quote names and write placeholders.  Every grammar has them.
* `pieceMethods` and `compilingMethods` are those of a grammar that compiles
  statements: the pieces that do not depend on a query, and the statements
  of a query.
* `grammarMethods` chooses among them.
-/

namespace FluentSql

open Parameter

/-- Arguments with everything in them that follows a query as it is now. -/
def Arguments.shown (a : Arguments) (s : Store) : Arguments where
  values := a.values.map fun argument => (argument.1, s.shown argument.2)
  rest := a.rest.map s.shown

/-- A method that reads the grammar and its arguments, and may ask queries among these. -/
def grammarReader (name : String) (parameters : List Parameter)
    (compile : Grammar → Oracle → Arguments → Except Failure Value) : Method GrammarId :=
  ⟨name, { parameters }, fun run id a =>
    consult run fun s known => compile (s.grammar id) (s.oracle known) (a.shown s)⟩

/-- A method that gives a text. -/
def grammarWriter (name : String) (parameters : List Parameter)
    (compile : Grammar → Oracle → Arguments → Except Failure String) : Method GrammarId :=
  grammarReader name parameters fun g oracle a => (compile g oracle a).map .text

/-! ## Names and placeholders -/

/-- The pattern of dates as databases store them. -/
def dateFormat : String := "%Y-%m-%d %H:%M:%S"

/-- The mark of a reference whose alias takes the prefix too. -/
def aliasTooParameter : Parameter := defaulted "prefix_alias" (.bool false)

/-- The method that gives what a raw fragment holds.  A query has no such method of its own. -/
def getValueMethod : Method GrammarId :=
  ⟨"get_value", { parameters := [needed "expression"] }, fun run _ a => do
    match a.get "expression" with
    | .raw value => return value
    | .object (.query q) => Extensions.call run q "get_value" []
    | _ => throw .missingAttribute⟩

/-- Methods that quote names and write placeholders. -/
def nameMethods : List (Method GrammarId) := [
  grammarReader "wrap" [needed "value", aliasTooParameter] fun g _ a =>
    g.wrapAs (a.flag "prefix_alias") (a.get "value"),
  grammarReader "wrap_table" [needed "table"] fun g _ a => g.wrapTable (a.get "table"),
  grammarReader "wrap_value" [needed "value"] fun g oracle a => g.segment oracle (a.get "value"),
  grammarReader "wrap_array" [needed "values"] fun g _ a => do
    return .list (← (← (a.get "values").items).mapM g.wrap),
  grammarWriter "columnize" [needed "columns"] fun g _ a => do
    g.columnize (← (a.get "columns").items),
  grammarReader "parameter" [needed "value"] fun _ _ a =>
    .ok (Grammar.parameter (a.get "value")),
  grammarWriter "parameterize" [needed "values"] fun _ _ a => do
    Grammar.parameterize (← (a.get "values").items),
  grammarWriter "quote_string" [needed "value"] fun _ _ a => .ok (quotedText (a.get "value")),
  grammarReader "is_expression" [needed "value"] fun _ _ a => .ok (.bool (a.get "value").isRaw),
  getValueMethod,
  grammarWriter "get_date_format" [] fun _ _ _ => .ok dateFormat,
  grammarReader "get_table_prefix" [] fun g _ _ => .ok g.tablePrefix,
  ⟨"set_table_prefix", { parameters := [needed "prefix"] }, fun _ id a => do
    id.modify fun g => { g with tablePrefix := a.get "prefix" }
    return .object (.grammar id)⟩,
  grammarReader "is_json_selector" [needed "value"] fun _ _ a =>
    (Value.contains "->" (a.get "value")).map .bool,
  grammarWriter "wrap_segments" [needed "segments"] fun g oracle a =>
    g.segments oracle (a.get "segments"),
  grammarWriter "wrap_aliased_value" [needed "value", aliasTooParameter] fun g _ a =>
    g.aliased (a.flag "prefix_alias") (a.get "value"),
  grammarWriter "wrap_json_selector" [needed "value"] fun g oracle a =>
    g.selector oracle (a.get "value")]

/-! ## Pieces of statements -/

/-- Methods that write pieces of statements. -/
def pieceMethods : List (Method GrammarId) := [
  grammarReader "get_operators" [] fun g _ _ => .ok (.tuple (g.dialect.operators.map .text)),
  grammarReader "wrap_json_field_and_path" [needed "column"] fun g oracle a => do
    let (field, path) ← g.jsonFieldAndPath oracle (a.get "column")
    return .tuple [field, .text path],
  grammarWriter "wrap_json_path" [needed "value", defaulted "delimiter" (.text "->")] fun _ _ a =>
    Grammar.pathLiteral (a.get "value") (a.get "delimiter"),
  grammarWriter "table_alias" [needed "table"] fun _ _ a =>
    .ok (Name.lastAlias (a.get "table").display),
  grammarWriter "remove_leading_boolean" [needed "value"] fun _ _ a =>
    (a.get "value").asText.map dropConjunction,
  grammarWriter "concatenate" [needed "segments"] fun _ _ a => do
    joinTexts " " ((← (a.get "segments").items).filter fun v => !v.equals (.text "")),
  grammarReader "wrap_union" [needed "sql"] fun g _ a => .ok (g.unionMember (a.get "sql")),
  grammarWriter "compile_random" [defaulted "seed" (.text "")] fun g _ a =>
    .ok (g.randomSql (a.get "seed")),
  grammarWriter "compile_savepoint" [needed "name"] fun g _ a =>
    g.savepointSql "SAVEPOINT" (a.get "name"),
  grammarWriter "compile_savepoint_rollback" [needed "name"] fun g _ a =>
    g.savepointSql "ROLLBACK TO SAVEPOINT" (a.get "name"),
  grammarWriter "compile_json_contains" [needed "column", needed "value"] fun g oracle a =>
    g.jsonContainsSql oracle (a.get "column") (a.get "value"),
  grammarWriter "compile_json_length" [needed "column", needed "operator", needed "value"]
    fun g oracle a =>
    g.jsonLengthSql oracle (a.get "column") (a.get "operator").display (a.get "value"),
  grammarWriter "prepare_binding_for_json_contains" [needed "binding"] fun _ _ a =>
    (a.get "binding").json,
  grammarReader "prepare_bindings_for_update" [needed "bindings", needed "values"]
    fun g oracle a =>
    (g.updateBindings oracle (a.get "bindings") (a.get "values")).map .list,
  grammarReader "prepare_bindings_for_delete" [needed "bindings"] fun _ oracle a =>
    (Grammar.deleteBindings oracle (a.get "bindings")).map .list]

/-! ## Statements of a query -/

/-- A method that compiles a statement of a query, which is its first argument. -/
def statementWriter (name : String) (parameters : List Parameter)
    (compile : Grammar → Attached → Query → Arguments → Except Failure Value) :
    Method GrammarId :=
  ⟨name, { parameters := needed "query" :: parameters }, fun run id a => do
    let q ← (a.get "query").needQuery
    consult run fun s known => do
      let s := s.settled
      let g := s.grammar id
      compile g (s.attached g known) (s.query q) (a.shown s)⟩

/-- A method that compiles a query to a text. -/
def statementText (name : String) (parameters : List Parameter)
    (compile : Grammar → Attached → Query → Arguments → Except Failure String) :
    Method GrammarId :=
  statementWriter name parameters fun g attached q a => (compile g attached q a).map .text

/-- The insert that passes over rejected rows.  A dialect without it does not look at the query. -/
def insertIgnoringMethod : Method GrammarId :=
  let method := statementText "compile_insert_or_ignore" [needed "values"] fun g attached q a =>
    g.insertIgnoringSql attached.oracle q (a.get "values")
  { method with
    run := fun run id a => do
      if (← id.read).dialect = .ansi then throw (.unsupported .insertIgnoring)
      method.run run id a }

/-- The insert of the rows of a query, whose columns are looked at after the table. -/
def Grammar.insertColumnsSql (g : Grammar) (q : Query) (columns sql : Value) :
    Except Failure String := do
  let _ ← g.wrappedTable q.source
  g.insertUsingSql q (← columns.items) sql

/-- The failure of a value that stands where a condition is due.  A query lacks the joining word,
unless an extension stands for it, and the kind that a condition has. -/
def Store.conditionFault (s : Store) (v : Value) : Failure :=
  let lacks := fun name => (s.extension? name).isNone
  match v with
  | .object (.query q) =>
    if lacks "boolean" then .unknownMethod (s.classOf q) "boolean"
    else
      match (s.query q).kind with
      | .join type _ => if type.hashable then .value .missingKey else .wrongType
      | .statement =>
        if lacks "type" then .unknownMethod (s.classOf q) "type" else .value .missingKey
  | _ => .missingAttribute

/-- The method that compiles the conditions of a query, or a list given in their place.  No value is
a condition, so such a list must be empty. -/
def wheresMethod : Method GrammarId :=
  let method := statementText "compile_wheres" [defaulted "wheres" .null] fun g attached q _ =>
    g.wheresSql attached q
  { method with
    run := fun run id a => do
      let wheres ← (a.get "wheres").now
      if wheres.isNull then method.run run id a
      else if wheres.truthy then
        let conditions ← Action.ofExcept wheres.items
        throw ((← get).conditionFault (conditions.headD .null))
      else return .text "" }

/-- The statements that empty a table as a map from their texts to their values. -/
def Grammar.truncateMap (g : Grammar) (q : Query) : Except Failure Value := do
  let statements ← g.truncateStatements q
  return .map (ofEntries (statements.map fun s => (.text s.1, .list s.2)))

/-- Methods that compile the statements of a query. -/
def statementMethods : List (Method GrammarId) := [
  statementText "compile_select" [] fun g attached q _ => g.selectSql attached q,
  statementText "compile_exists" [] fun g attached q _ => g.existsSql attached q,
  statementText "compile_insert" [needed "values"] fun g attached q a =>
    g.insertSql attached.oracle q (a.get "values"),
  insertIgnoringMethod,
  statementText "compile_insert_get_id" [needed "values", defaulted "sequence" .null]
    fun g attached q a =>
    g.insertReturningSql attached.oracle q (a.get "values") (a.get "sequence"),
  statementText "compile_insert_using" [needed "columns", needed "sql"] fun g _ q a =>
    g.insertColumnsSql q (a.get "columns") (a.get "sql"),
  statementText "compile_update" [needed "values"] fun g attached q a =>
    g.updateSql attached q (a.get "values"),
  statementText "compile_delete" [] fun g attached q _ => g.deleteSql attached q,
  statementWriter "compile_truncate" [] fun g _ q _ => g.truncateMap q,
  wheresMethod]

/-- The methods of a grammar. -/
def grammarMethods (g : Grammar) : List (Method GrammarId) :=
  if g.namesOnly then nameMethods else nameMethods ++ pieceMethods ++ statementMethods

/-- The names under which a grammar keeps data, which cannot be called. -/
def grammarAttributes (g : Grammar) : List String :=
  if g.namesOnly then ["table_prefix"]
  else ["table_prefix", "operators", "select_components", "supports_savepoints"]

end FluentSql
