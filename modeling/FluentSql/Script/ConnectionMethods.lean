import FluentSql.Execution.Resolver
import FluentSql.Extension
import FluentSql.Script.QueryMethods

/-!
# Methods of connections and registries

* `connectionMethods` are the methods of a connection.
* `resolverMethods` are those of a registry of named connections.
* `extensionMethods` are those of the registry of extensions.
-/

namespace FluentSql

open Parameter

/-! ## Connections -/

/-- The compiler that a value refers to, which is to take over a prefix. -/
def Value.needCompiler (v : Value) : Except Failure Compiler :=
  match v with
  | .object (.grammar id) => .ok (.grammar id)
  | .object (.connection id) => .ok (.connection id)
  | .object (.query id) => .ok (.query id)
  | _ => .error .missingAttribute

/-- An entry of the log of a connection as a map. -/
def QueryLogEntry.toValue (entry : QueryLogEntry) : Value :=
  .map [(.text "query", entry.sql), (.text "bindings", .list entry.bindings)]

/-- Methods of the grammar, the prefix and the queries of a connection. -/
def connectionBasics : List (Method ConnectionId) := [
  ⟨"use_default_query_grammar", {}, fun _ c _ => Action.quietly c.useDefaultGrammar⟩,
  ⟨"get_query_grammar", {}, fun _ c _ => return .object (← c.read).grammar.handle⟩,
  ⟨"set_query_grammar", { parameters := [needed "grammar"] }, fun run c a => do
    c.useGrammar run (← Action.ofExcept (a.get "grammar").needCompiler)
    return .object (.connection c)⟩,
  ⟨"get_table_prefix", {}, fun _ c _ => return (← c.read).tablePrefix⟩,
  ⟨"set_table_prefix", { parameters := [needed "prefix"] }, fun run c a => do
    c.setTablePrefix run (a.get "prefix")
    return .object (.connection c)⟩,
  ⟨"query", {}, fun _ c _ => return .ofQuery (← c.query)⟩,
  ⟨"table", { parameters := [needed "table", orNull "as_"] }, fun run c a =>
    return .ofQuery (← c.table run (a.get "table") (a.get "as_"))⟩,
  ⟨"raw", { parameters := [needed "value"] }, fun _ _ a => return .raw (a.get "value")⟩]

/-- The parameters of a statement. -/
def statementParameters : List Parameter := [needed "sql", defaulted "bindings" (.tuple [])]

/-- A method that runs a statement. -/
def statementRunner (name : String) (further : List Parameter)
    (run : ConnectionId → Value → Value → Action Value) : Method ConnectionId :=
  ⟨name, { parameters := statementParameters ++ further }, fun _ c a =>
    run c (a.get "sql") (a.get "bindings")⟩

/-- Runs a statement and says that it succeeded. -/
def ConnectionId.succeed (c : ConnectionId) (sql bindings : Value) : Action Value := do
  c.statement sql bindings
  return .bool true

/-- Methods that run statements. -/
def connectionStatements : List (Method ConnectionId) := [
  statementRunner "select" [] fun c sql bindings =>
    return .list ((← c.select sql bindings).map .map),
  statementRunner "select_one" [] fun c sql bindings =>
    return Row.toValue (← c.selectOne sql bindings),
  statementRunner "insert" [] ConnectionId.succeed,
  statementRunner "insert_get_id" [orNull "sequence"] ConnectionId.insertGetId,
  statementRunner "update" [] ConnectionId.affectingStatement,
  statementRunner "delete" [] ConnectionId.affectingStatement,
  statementRunner "statement" [] ConnectionId.succeed,
  statementRunner "affecting_statement" [] ConnectionId.affectingStatement]

/-- Methods of the engine and the log of a connection.  The engine itself is no value; to ask for it
only makes sure that it is there. -/
def connectionLogging : List (Method ConnectionId) := [
  ⟨"get_engine", {}, fun _ c _ => do
    let _ ← c.engine
    return .null⟩,
  ⟨"enable_query_log", {}, fun _ c _ => Action.quietly (c.setLogging true)⟩,
  ⟨"disable_query_log", {}, fun _ c _ => Action.quietly (c.setLogging false)⟩,
  ⟨"logging", {}, fun _ c _ => return .bool (← c.read).logging⟩,
  ⟨"get_query_log", {}, fun _ c _ =>
    return .list ((← c.read).queryLog.map QueryLogEntry.toValue)⟩,
  ⟨"flush_query_log", {}, fun _ c _ => Action.quietly c.flushQueryLog⟩]

/-- The methods of a connection. -/
def connectionMethods : List (Method ConnectionId) :=
  connectionBasics ++ connectionStatements ++ connectionLogging

/-- The names under which a connection keeps data, which cannot be called. -/
def connectionAttributes : List String :=
  ["engine", "database", "table_prefix", "config", "name", "query_grammar"]

/-! ## Named connections -/

/-- The settings that a value refers to; an absent value stands for the common ones. -/
def Value.needSettings (v : Value) : Action Settings := do
  match v with
  | .null => return (← get).settings
  | .object (.settings id) =>
    match (← get).configurations[id.index]? with
    | some settings => return settings
    | none => throw .missingAttribute
  | .object (.query q) =>
    let s ← get
    throw (if (s.extension? "db").isSome then .missingAttribute
      else .unknownMethod (s.classOf q) "db")
  | _ => throw .missingAttribute

/-- The methods of a registry of named connections. -/
def resolverMethods : List (Method ResolverId) := [
  ⟨"connection", { parameters := [orNull "name"] }, fun _ r a => r.connection (a.get "name")⟩,
  ⟨"add_connection", { parameters := [needed "name", needed "connection"] }, fun _ r a =>
    Action.quietly (r.addConnection (a.get "name") (a.get "connection"))⟩,
  ⟨"has_connection", { parameters := [needed "name"] }, fun _ r a =>
    return .bool (← r.hasConnection (a.get "name"))⟩,
  ⟨"get_default_connection", {}, fun _ r _ => return (← r.read).default⟩,
  ⟨"set_default_connection", { parameters := [needed "name"] }, fun _ r a =>
    Action.quietly (r.setDefault (a.get "name"))⟩,
  ⟨"from_config", { parameters := [orNull "config"] }, fun _ _ a => do
    return .object (.resolver (← Resolver.ofSettings (← (a.get "config").needSettings)))⟩]

/-- The names under which a registry of connections keeps data. -/
def resolverAttributes : List String := ["default"]

/-! ## Extensions -/

/-- The methods of the registry of extensions. -/
def extensionMethods : List (Method Unit) := [
  ⟨"register", { parameters := [needed "name", needed "macro"] }, fun run _ a =>
    Action.quietly (Extensions.register run (a.get "name") (a.get "macro"))⟩,
  ⟨"get", { parameters := [needed "name"] }, fun _ _ a =>
    return (← Extensions.find (a.get "name")).elim .null fun id => .object (.callback id)⟩,
  ⟨"has", { parameters := [needed "name"] }, fun _ _ a =>
    return .bool (← Extensions.has (a.get "name"))⟩,
  ⟨"flush", {}, fun _ _ _ => Action.quietly Extensions.clear⟩]

end FluentSql
