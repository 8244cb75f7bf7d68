import FluentSql.Script.Interpreter

/-!
# Sessions

A session starts with registers for a connection, its grammar and a query,
and performs calls one after another.  A call that fails does not end it.

* `SessionOptions.start` fills the registers.
* `performStep` performs one call and reports what can be seen of it.
* `Store.sqlOf` looks at a query between calls.
-/

namespace FluentSql

/-- How a session starts. -/
structure SessionOptions where
  /-- Whether there is nothing but a grammar that quotes names. -/
  namesOnly : Bool := false
  /-- Whether there is a connection. -/
  connected : Bool := true
  /-- Whether the query is given its grammar, or finds one by itself. -/
  givesGrammar : Bool := true
  /-- The connection, or the dialect and the prefix of the grammar without one. -/
  connection : ConnectionOptions := {}

namespace SessionOptions

/-- Sets the registers of a grammar and a query. -/
def setQuery (connection : Option ConnectionId) (grammar : Compiler) : Action Unit := do
  setRegister "grammar" (.object grammar.handle)
  setRegister "q" (.ofQuery (← Query.create { connection, grammar }))

/-- The registers of a session with a connection. -/
def startConnected (options : SessionOptions) : Action Unit := do
  let connection ← options.connection.connect
  setRegister "conn" (.object (.connection connection))
  setQuery (some connection) (← connection.read).grammar

/-- The registers of a session without a connection.  A query that finds its grammar by itself uses
the common core without a prefix. -/
def startUnconnected (options : SessionOptions) : Action Unit := do
  let grammar ← Grammar.create
    (if options.givesGrammar then
      { dialect := options.connection.dialect, tablePrefix := options.connection.tablePrefix }
    else { dialect := .ansi })
  setQuery none (.grammar grammar)

/-- Fills the registers. -/
def start (options : SessionOptions) : Action Unit := do
  setRegister "registry" (.object .extensions)
  setRegister "resolver" (.object (.resolver (← Resolver.create {})))
  if options.namesOnly then
    let grammar ← Grammar.create
      { dialect := .ansi, namesOnly := true, tablePrefix := options.connection.tablePrefix }
    setRegister "grammar" (.object (.grammar grammar))
  else if options.connected then options.startConnected
  else options.startUnconnected

end SessionOptions

/-- Runs an action on a store. -/
def Action.runOn {α : Type} (action : Action α) (s : Store) : Except Failure α × Store :=
  action.run.run s

/-- A query as a select statement, and the store after the extensions that it called. -/
def Store.sqlOf (s : Store) (q : QueryId) : Except Failure String × Store :=
  (q.toSql Interpreter.standard.run).runOn s

/-- What can be seen of one call. -/
structure StepReport where
  /-- The object of the call, if there is one. -/
  target : Option Value
  /-- The result. -/
  result : Except Failure Value
  /-- The object as a select statement after the call, if it is a query. -/
  sql : Option (Except Failure String)
  /-- The statements that reached an engine. -/
  sent : Array SentStatement
  /-- The log. -/
  log : Array LogRecord

/-- Performs one call and reports on it. -/
def performStep (call : Call) (s : Store) : StepReport × Store :=
  let s := { s with sent := #[], log := #[] }
  let target := ((Scope.target {} call.target).runOn s).1.toOption
  let (result, s) := (Interpreter.standard.perform {} call).runOn s
  let (sql, s) := match target.bind Value.query? with
    | some q => let (sql, s) := s.sqlOf q; (some sql, s)
    | none => (none, s)
  ({ target, result, sql, sent := s.sent, log := s.log }, s)

/-- A store with nothing in it but settings. -/
def Store.ofSettings (settings : Settings) : Store := { settings }

end FluentSql
