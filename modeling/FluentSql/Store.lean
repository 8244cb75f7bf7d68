import FluentSql.Grammar.Basic
import FluentSql.Log.Record
import FluentSql.Query.Basic
import FluentSql.Script.Basic

/-!
# The store

Queries, grammars and connections are objects: several clauses and registers
may refer to one of them, and all see it change.  The store holds them by
their numbers.

* `Connection` and `Resolver` are the objects beside `Query` and `Grammar`.
* `Store` holds all objects, the extensions, the log and the statements sent.
* `Action` is a computation on the store.  What it did before it failed stays
  done.
* The operations below read an object, change it, or add one.
-/

namespace FluentSql

/-- One entry of the log of a connection. -/
structure QueryLogEntry where
  /-- The statement, with the placeholders that queries use. -/
  sql : Value
  /-- Its values. -/
  bindings : List Value

/-- A grammar with an engine. -/
structure Connection where
  /-- The engine, if statements can be run. -/
  engine : Option Engine
  /-- The name of the database. -/
  database : Value
  /-- The table prefix. -/
  tablePrefix : Value
  /-- The name of the connection. -/
  name : Value
  /-- The grammar of its queries, or what stands in its place. -/
  grammar : Compiler
  /-- Whether statements are kept in the log. -/
  logging : Bool
  /-- The log of its statements. -/
  queryLog : List QueryLogEntry := []

/-- Named connections with a default one. -/
structure Resolver where
  /-- The connections by name; a value that is no connection may have been added. -/
  connections : List (Value × Value) := []
  /-- The name that stands for none. -/
  default : Value := .text "default"

/-- All objects, and what can be seen of what was done. -/
structure Store where
  /-- The queries. -/
  queries : Array Query := #[]
  /-- The grammars. -/
  grammars : Array Grammar := #[]
  /-- The connections. -/
  connections : Array Connection := #[]
  /-- The resolvers. -/
  resolvers : Array Resolver := #[]
  /-- The callbacks. -/
  callbacks : Array Callback := #[]
  /-- The configurations. -/
  configurations : Array Settings := #[]
  /-- The extensions, by name. -/
  extensions : List (Value × CallbackId) := []
  /-- The registers that scripts name. -/
  registers : List (String × Value) := []
  /-- The settings that stand for none given. -/
  settings : Settings
  /-- The log, the oldest record first. -/
  log : Array LogRecord := #[]
  /-- The statements that reached an engine, the oldest first. -/
  sent : Array SentStatement := #[]
  /-- The number of doubles that were made and stand for no number. -/
  notNumbers : Nat := 0

/-- A computation on the store that may fail. -/
abbrev Action := ExceptT Failure (StateM Store)

namespace Store

/-- The query of a number. -/
def query (s : Store) (id : QueryId) : Query :=
  s.queries[id.index]?.getD default

/-- The grammar of a number. -/
def grammar (s : Store) (id : GrammarId) : Grammar :=
  s.grammars[id.index]?.getD { dialect := .ansi }

/-- The connection of a number. -/
def connection (s : Store) (id : ConnectionId) : Connection :=
  s.connections[id.index]?.getD
    { engine := none, database := .null, tablePrefix := .null, name := .null,
      grammar := .grammar ⟨0⟩, logging := false }

/-- The resolver of a number. -/
def resolver (s : Store) (id : ResolverId) : Resolver :=
  s.resolvers[id.index]?.getD {}

/-- The extension by which a query answers to a name. -/
def extension? (s : Store) (name : String) : Option CallbackId :=
  lookupKey (.text name) s.extensions

/-- The class of a query object. -/
def classOf (s : Store) (id : QueryId) : QueryClass :=
  if (s.query id).isJoin then .join else .statement

/-- The grammar that a method is asked of.  A grammar that only quotes names has no other methods,
and what is no grammar has none of them. -/
def grammarFor (s : Store) (compiler : Compiler) (method : String) : Except Failure Grammar :=
  match compiler with
  | .grammar id =>
    let g := s.grammar id
    if g.namesOnly ∧ method ∉ ["wrap", "wrap_table"] then .error .missingAttribute
    else .ok g
  | .connection _ => .error .missingAttribute
  | .query id => .error (.unknownMethod (s.classOf id) method)

/-- The operators that are known beside those of every query. -/
def operatorsOf (s : Store) (compiler : Compiler) : Except Failure (List String) :=
  match compiler with
  | .grammar id => (s.grammarFor (.grammar id) "operators").map (·.dialect.operators)
  | .connection _ => .error .missingAttribute
  | .query _ => .ok Dialect.commonOperators

end Store

/-! ## Reading and changing objects -/

/-- Takes a result that did not depend on the store. -/
def Action.ofExcept {α : Type} (result : Except Failure α) : Action α :=
  ExceptT.mk (pure result)

/-- The query of a number. -/
def QueryId.read (id : QueryId) : Action Query :=
  return (← get).query id

/-- Changes a query. -/
def QueryId.modify (id : QueryId) (f : Query → Query) : Action Unit :=
  modifyThe Store fun s => { s with queries := s.queries.modify id.index f }

/-- The grammar of a query that a method is asked of. -/
def QueryId.grammarFor (id : QueryId) (method : String) : Action Grammar := do
  let s ← get
  Action.ofExcept (s.grammarFor (s.query id).grammar method)

/-- The grammar of a number. -/
def GrammarId.read (id : GrammarId) : Action Grammar :=
  return (← get).grammar id

/-- Changes a grammar. -/
def GrammarId.modify (id : GrammarId) (f : Grammar → Grammar) : Action Unit :=
  modifyThe Store fun s => { s with grammars := s.grammars.modify id.index f }

/-- The connection of a number. -/
def ConnectionId.read (id : ConnectionId) : Action Connection :=
  return (← get).connection id

/-- Changes a connection. -/
def ConnectionId.modify (id : ConnectionId) (f : Connection → Connection) : Action Unit :=
  modifyThe Store fun s => { s with connections := s.connections.modify id.index f }

/-- The resolver of a number. -/
def ResolverId.read (id : ResolverId) : Action Resolver :=
  return (← get).resolver id

/-- Changes a resolver. -/
def ResolverId.modify (id : ResolverId) (f : Resolver → Resolver) : Action Unit :=
  modifyThe Store fun s => { s with resolvers := s.resolvers.modify id.index f }

/-! ## New objects -/

/-- Adds a query. -/
def Query.create (q : Query) : Action QueryId :=
  modifyGetThe Store fun s => (⟨s.queries.size⟩, { s with queries := s.queries.push q })

/-- Adds a grammar. -/
def Grammar.create (g : Grammar) : Action GrammarId :=
  modifyGetThe Store fun s => (⟨s.grammars.size⟩, { s with grammars := s.grammars.push g })

/-- Adds a connection. -/
def Connection.create (c : Connection) : Action ConnectionId :=
  modifyGetThe Store fun s =>
    (⟨s.connections.size⟩, { s with connections := s.connections.push c })

/-- Adds a resolver. -/
def Resolver.create (r : Resolver) : Action ResolverId :=
  modifyGetThe Store fun s => (⟨s.resolvers.size⟩, { s with resolvers := s.resolvers.push r })

/-- Adds a callback. -/
def Callback.create (c : Callback) : Action CallbackId :=
  modifyGetThe Store fun s => (⟨s.callbacks.size⟩, { s with callbacks := s.callbacks.push c })

/-- Adds a configuration. -/
def Settings.create (c : Settings) : Action SettingsId :=
  modifyGetThe Store fun s =>
    (⟨s.configurations.size⟩, { s with configurations := s.configurations.push c })

/-- Adds a record to the log. -/
def LogRecord.write (record : LogRecord) : Action Unit :=
  modifyThe Store fun s => { s with log := s.log.push record }

/-- How a callback is run on a query, with further arguments. -/
abbrev Runner := CallbackId → QueryId → List Value → Action Value

end FluentSql
