import FluentSql.Execution.Placeholder
import FluentSql.Fluent.Select

/-!
# Connections

* `ConnectionId.useGrammar` and `ConnectionId.setTablePrefix` keep
  the prefix of a connection and that of its grammar together.
* `ConnectionId.query` and `table` start queries.
* `ConnectionId.run` sends a statement; the other calls read its result.
* Every statement that succeeds is logged and may be kept in the log of the
  connection; one that is rejected is logged as an error.
-/

namespace FluentSql

/-- The logger of connections. -/
def connectionLogger : String := "database.connection"

/-! ## Grammar and prefix -/

/-- Tells a compiler its table prefix, and a connection tells its own grammar in turn.  `fuel`
bounds the number of connections on the way; with more of them than there are, one tells itself
for ever. -/
def Compiler.setTablePrefixWithin (run : Runner) (tablePrefix : Value) :
    (fuel : Nat) → Compiler → Action Unit
  | _, .grammar id => id.modify fun g => { g with tablePrefix }
  | _, .query q => discard (Extensions.call run q "set_table_prefix" [tablePrefix])
  | 0, .connection _ => throw (.value .endless)
  | fuel + 1, .connection id => do
    id.modify fun c => { c with tablePrefix }
    (← id.read).grammar.setTablePrefixWithin run tablePrefix fuel

/-- Tells a compiler its table prefix. -/
def Compiler.setTablePrefix (run : Runner) (compiler : Compiler) (tablePrefix : Value) :
    Action Unit := do
  compiler.setTablePrefixWithin run tablePrefix ((← get).connections.size + 1)

namespace ConnectionId

/-- Makes a connection use a grammar, which takes over its prefix. -/
def useGrammar (run : Runner) (id : ConnectionId) (grammar : Compiler) : Action Unit := do
  grammar.setTablePrefix run (← id.read).tablePrefix
  id.modify fun c => { c with grammar }

/-- Makes a connection use a new grammar of the common core. -/
def useDefaultGrammar (id : ConnectionId) : Action Unit := do
  let grammar ← Grammar.create { dialect := .ansi, tablePrefix := (← id.read).tablePrefix }
  id.modify fun c => { c with grammar := .grammar grammar }

/-- Sets the prefix of a connection and of its grammar. -/
def setTablePrefix (run : Runner) (id : ConnectionId) (tablePrefix : Value) : Action Unit :=
  (Compiler.connection id).setTablePrefix run tablePrefix

/-! ## Queries -/

/-- A new query. -/
def query (id : ConnectionId) : Action QueryId := do
  Query.create { connection := some id, grammar := (← id.read).grammar }

/-- A new query of a table. -/
def table (run : Runner) (id : ConnectionId) (table name : Value) : Action QueryId := do
  let q ← id.query
  q.setSource run table name
  return q

/-! ## Statements -/

/-- The engine of a connection. -/
def engine (id : ConnectionId) : Action Engine := do
  let c ← id.read
  match c.engine with
  | some engine => return engine
  | none => throw (.connection (.noEngine (← c.name.displayNow)))

/-- Hands a statement to the engine and takes its answer. -/
def send (id : ConnectionId) (engine : Engine) (statement : SentStatement) : Action Outcome := do
  let (outcome, engine) := engine.answer
  id.modify fun c => { c with engine := some engine }
  modifyThe Store fun s => { s with sent := s.sent.push statement }
  return outcome

/-- A statement with its values, as it is logged. -/
def describe (sql : Value) (bindings : List Value) : Action String := do
  let s ← get
  return (s.shown sql).display ++ " " ++ (s.shown (.list bindings)).literal

/-- Logs a statement that succeeded, and keeps it if the connection keeps its statements. -/
def record (id : ConnectionId) (sql : Value) (bindings : List Value) : Action Unit := do
  LogRecord.write ⟨.debug, connectionLogger, ← describe sql bindings⟩
  id.modify fun c =>
    if c.logging then { c with queryLog := c.queryLog ++ [⟨sql, bindings⟩] } else c

/-- Runs a statement and reads its result. -/
def run {α : Type} (id : ConnectionId) (sql bindings : Value)
    (read : StatementResult → Except Failure α) : Action α := do
  let engine ← id.engine
  let bindings ← bindings.itemsOrNone
  let shown ← sql.shown
  let statement ← Action.ofExcept (convertPlaceholders shown engine.paramstyle (.list bindings))
  match ← id.send engine statement with
  | .accepted result =>
    let value ← Action.ofExcept (read result)
    id.record sql bindings
    return value
  | .rejected reason =>
    LogRecord.write ⟨.error, connectionLogger,
      "❌ Query failed on '" ++ (← (← id.read).name.displayNow) ++ "': " ++
        (← describe sql bindings)⟩
    throw (.rejected reason (← sql.shown) bindings)

/-- The rows of a result as maps. -/
def readRows (result : StatementResult) : List Row :=
  result.rows.map ofEntries

/-- Runs a query and gives its rows. -/
def select (id : ConnectionId) (sql bindings : Value) : Action (List Row) :=
  id.run sql bindings fun result => .ok (readRows result)

/-- Runs a query and gives its first row. -/
def selectOne (id : ConnectionId) (sql bindings : Value) : Action (Option Row) :=
  return (← id.select sql bindings).head?

/-- Runs a statement and gives nothing but success. -/
def statement (id : ConnectionId) (sql bindings : Value) : Action Unit :=
  id.run sql bindings fun _ => .ok ()

/-- Runs a statement and gives the number of rows that it changed. -/
def affectingStatement (id : ConnectionId) (sql bindings : Value) : Action Value :=
  id.run sql bindings fun result => .ok result.rowCount

/-- The id of an inserted row: the first value that the statement returned, or what the database
says it was. -/
def readInsertedId (result : StatementResult) : Except Failure Value :=
  if result.returnsRows then
    match result.rows with
    | [] => .ok .null
    | row :: _ => row.head?.elim (.error (.value .badIndex)) fun entry => .ok entry.2
  else .ok result.lastRowId

/-- Runs an insert and gives the id of the new row. -/
def insertGetId (id : ConnectionId) (sql bindings : Value) : Action Value :=
  id.run sql bindings readInsertedId

/-- Starts or stops keeping statements. -/
def setLogging (id : ConnectionId) (logging : Bool) : Action Unit :=
  id.modify fun c => { c with logging }

/-- Forgets the kept statements. -/
def flushQueryLog (id : ConnectionId) : Action Unit :=
  id.modify fun c => { c with queryLog := [] }

end ConnectionId

/-- Opens a connection that uses a grammar, which takes over its prefix. -/
def ConnectionOptions.openWith (options : ConnectionOptions) (grammar : GrammarId) :
    Action ConnectionId := do
  grammar.modify fun g => { g with tablePrefix := options.tablePrefix }
  Connection.create
    { engine := options.engine, database := options.database, tablePrefix := options.tablePrefix,
      name := options.name, grammar := .grammar grammar, logging := options.logging }

/-- Opens a connection with a grammar of its own. -/
def ConnectionOptions.connect (options : ConnectionOptions) : Action ConnectionId := do
  options.openWith (← Grammar.create { dialect := options.dialect })

end FluentSql
