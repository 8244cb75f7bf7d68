import FluentSql.Execution.Resolver
import FluentSql.Execution.Waiting
import FluentSql.Log.Setup
import FluentSql.Script.Signature

/-!
# Functions with named arguments

The requests that functions outside the objects of a script take, made from
arguments by name.

* `UrlRequest.ofNamed`, `EngineRequest.ofNamed` and
  `ConnectionRequest.ofNamed` are what engines and connections are asked for.
* `WaitRequest.ofNamed` is how to wait for a database.
* `LogSetup.ofNamed` is what is asked of the logging.
-/

namespace FluentSql

open Parameter

/-- Arguments by name. -/
abbrev NamedArguments := List (String × Value)

/-- Matches arguments by name with parameters. -/
def bindNamed (parameters : List Parameter) (named : NamedArguments) : Except Failure Arguments :=
  Signature.bind { parameters } [] named

/-- A parameter that is absent unless it is given. -/
def absentParameter (name : String) : Parameter := defaulted name .null

/-! ## Engines and connections -/

/-- The parameters that say where a database is. -/
def urlParameters : List Parameter :=
  ["driver", "host", "port", "user", "password", "database"].map absentParameter

/-- Where a database is, by matched arguments. -/
def Arguments.urlRequest (a : Arguments) : UrlRequest where
  driver := a.get "driver"
  host := a.get "host"
  port := a.get "port"
  user := a.get "user"
  password := a.get "password"
  database := a.get "database"

/-- Where a database is, by named arguments. -/
def UrlRequest.ofNamed (named : NamedArguments) : Except Failure UrlRequest :=
  (bindNamed urlParameters named).map Arguments.urlRequest

/-- The parameters of a new engine. -/
def engineParameters : List Parameter :=
  urlParameters ++
    [defaulted "echo" (.bool false), defaulted "pool_size" (.int 5),
      defaulted "max_overflow" (.int 10)]

/-- What is asked of a new engine, by named arguments. -/
def EngineRequest.ofNamed (named : NamedArguments) : Except Failure EngineRequest := do
  let a ← bindNamed engineParameters named
  return {
    url := a.urlRequest
    echo := a.get "echo"
    poolSize := a.get "pool_size"
    maxOverflow := a.get "max_overflow" }

/-- The parameters of a new connection beside those of its engine. -/
def connectionParameters : List String := ["driver", "engine", "table_prefix", "name"]

/-- What is asked of a new engine, by the named arguments of a connection.  Those that the
connection does not take itself are for its engine; a value in the place of an engine lacks all
that an engine has. -/
def EngineRequest.ofConnection (named : NamedArguments) : Except Failure EngineRequest :=
  if ((named.lookup "engine").getD .null).isNull then
    EngineRequest.ofNamed
      (named.filter fun argument => !connectionParameters.contains argument.1)
  else .error .missingAttribute

/-- What is asked of a new connection, by named arguments. -/
def ConnectionRequest.ofNamed (engine : Option Engine) (named : NamedArguments) :
    ConnectionRequest where
  engine
  driver := (named.lookup "driver").getD .null
  tablePrefix := (named.lookup "table_prefix").getD .null
  name := (named.lookup "name").getD (.text "default")
  newEngine := EngineRequest.ofConnection named

/-! ## Waiting -/

/-- How to wait for a database. -/
structure WaitRequest where
  /-- The number of attempts. -/
  limit : Value
  /-- The pause between two attempts. -/
  pause : Value

/-- How to wait for a database, by named arguments. -/
def WaitRequest.ofNamed (named : NamedArguments) : Except Failure WaitRequest := do
  let a ← bindNamed [defaulted "max_retries" (.int 10), defaulted "retry_delay" (.int 2)] named
  return ⟨a.get "max_retries", a.get "retry_delay"⟩

/-! ## Logging -/

/-- The parameters of a logging setup. -/
def logParameters : List Parameter :=
  [defaulted "log_level" (.text "INFO"), absentParameter "log_file", absentParameter "log_dir",
    defaulted "console_output" (.bool true), defaulted "use_colors" (.bool true),
    defaulted "loggers" (.list (packageLoggers.map .text))]

/-- What is asked of the logging, by named arguments. -/
def LogSetup.ofNamed (named : NamedArguments) : Except Failure LogSetup := do
  let a ← bindNamed logParameters named
  return {
    level := a.get "log_level"
    file := a.get "log_file"
    directory := a.get "log_dir"
    console := a.get "console_output"
    colors := a.get "use_colors"
    loggers := a.get "loggers" }

end FluentSql
