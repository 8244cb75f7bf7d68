import FluentSql.Execution.Connection
import FluentSql.Execution.Pool

/-!
# Named connections

* `Dialect.ofDriver` chooses the dialect for a driver.
* `ConnectionRequest.connect` opens the connection that a caller asks for.
* `ResolverId.connection`, `addConnection` and their kin work on a registry of
  named connections, and `Resolver.ofSettings` makes one from settings.
-/

namespace FluentSql

/-! ## Opening a connection -/

/-- The dialects, by driver. -/
def driverDialects : List (String × Dialect) :=
  [("mysql", .mysql), ("pgsql", .postgres), ("postgresql", .postgres), ("sqlite", .sqlite)]

/-- The failure for a driver without a dialect. -/
def unknownDriver (driver : Value) : Failure :=
  .argument (.driverAmong driver.display (driverDialects.map (·.1)))

/-- The dialect for a driver, whose name may be in any case. -/
def Dialect.ofDriver (driver : Value) : Except Failure Dialect :=
  match driver with
  | .text s => (driverDialects.lookup (Text.lower s)).elim (.error (unknownDriver driver)) .ok
  | .bytes _ => .error (unknownDriver driver)
  | _ => .error .missingAttribute

/-- The logger of the connection factory. -/
def factoryLogger : String := "utils.database_utils"

/-- What a caller asks of a new connection; an absent value stands for one that is left out. -/
structure ConnectionRequest where
  /-- The engine, if there is one already. -/
  engine : Option Engine := none
  /-- The driver. -/
  driver : Value := .null
  /-- The table prefix. -/
  tablePrefix : Value := .null
  /-- The name. -/
  name : Value := .text "default"
  /-- What is asked of a new engine, or why it cannot be asked. -/
  newEngine : Except Failure EngineRequest := .ok {}

/-- The engine for a request: the one given, or a new one for its URL. -/
def ConnectionRequest.openEngine (request : ConnectionRequest) (driver : Value)
    (settings : Settings) : Except Failure Engine :=
  match request.engine with
  | some engine => .ok engine
  | none => do
    let newEngine ← request.newEngine
    let plan ← { newEngine with url := { newEngine.url with driver } }.plan settings
    return { database := plan.url.database.elim .null .text }

/-- Opens a connection.  What is left out is taken from the settings. -/
def ConnectionRequest.connect (request : ConnectionRequest) : Action ConnectionId := do
  let settings := (← get).settings
  let driver := request.driver.orText settings.database.driver
  let dialect ← Action.ofExcept (Dialect.ofDriver driver)
  let grammar ← Grammar.create { dialect }
  let engine ← Action.ofExcept (request.openEngine driver settings)
  LogRecord.write ⟨.debug, factoryLogger,
    "Created '" ++ request.name.display ++ "' connection using the " ++ driver.display ++
      " grammar"⟩
  ConnectionOptions.openWith
    { dialect
      tablePrefix := request.tablePrefix.orTextIfNull settings.database.tablePrefix
      name := request.name
      database := engine.database.orText ""
      logging := settings.logging.queries
      engine := some engine } grammar

/-! ## The registry -/

/-- The logger of resolvers. -/
def resolverLogger : String := "database.resolver"

namespace ResolverId

/-- A name that may be a key. -/
def keyOf (name : Value) : Except Failure Value :=
  if name.hashable then .ok name else .error .wrongType

/-- The connection of a name; the default one stands for no name. -/
def connection (id : ResolverId) (name : Value) : Action Value := do
  let resolver ← id.read
  let name ← Action.ofExcept (keyOf (if name.truthy then name else resolver.default))
  (lookupKey name resolver.connections).elim
    (throw (.connection (.notConfigured name.display))) pure

/-- Adds a connection under a name.  Replacing one is logged. -/
def addConnection (id : ResolverId) (name connection : Value) : Action Unit := do
  let name ← Action.ofExcept (keyOf name)
  let resolver ← id.read
  if (lookupKey name resolver.connections).isSome then
    LogRecord.write ⟨.warning, resolverLogger,
      "Replacing database connection '" ++ name.display ++ "'"⟩
  id.modify fun resolver =>
    { resolver with connections := insertKey name connection resolver.connections }

/-- Whether there is a connection of a name. -/
def hasConnection (id : ResolverId) (name : Value) : Action Bool := do
  let name ← Action.ofExcept (keyOf name)
  return (lookupKey name (← id.read).connections).isSome

/-- Sets the name that stands for none. -/
def setDefault (id : ResolverId) (name : Value) : Action Unit :=
  id.modify fun resolver => { resolver with default := name }

end ResolverId

/-- A resolver whose default connection is that of some settings. -/
def Resolver.ofSettings (settings : Settings) : Action ResolverId := do
  let connection ← ConnectionRequest.connect
    { driver := .text settings.database.driver
      tablePrefix := .text settings.database.tablePrefix
      newEngine := .ok { url := settings.database.request } }
  LogRecord.write ⟨.info, resolverLogger,
    "Configured default '" ++ settings.database.driver ++ "' connection"⟩
  let name := (← connection.read).name
  Resolver.create { connections := [(name, .object (.connection connection))], default := name }

end FluentSql
