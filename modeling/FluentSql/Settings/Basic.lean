import FluentSql.Failure
import FluentSql.Number.Numeral
import FluentSql.Text.Blank
import FluentSql.Text.Case

/-!
# Settings

Connection and logging settings, read from named variables of an environment.

* `Environment` is the environment, `Environment.flag` reads a switch.
* `DatabaseSettings` and `LogSettings` are the two halves of `Settings`.
* `Settings.ofEnvironment` reads them; a port that is no numeral fails.
-/

namespace FluentSql

open Text

/-- Named variables with their values. -/
abbrev Environment := List (String × String)

namespace Environment

/-- The value of a variable, or what stands for it when it is not set. -/
def get (env : Environment) (name fallback : String) : String :=
  (env.lookup name).getD fallback

/-- The words that turn a switch on. -/
def onWords : List String := ["1", "true", "yes", "on"]

/-- Reads a switch: a variable that is set turns it on only by one of the words for it. -/
def flag (env : Environment) (name : String) (fallback : Bool) : Bool :=
  match env.lookup name with
  | none => fallback
  | some word => onWords.contains (lower (trim word))

end Environment

/-- Where the database is. -/
structure DatabaseSettings where
  /-- The driver, in lower case. -/
  driver : String
  /-- The host. -/
  host : String
  /-- The port. -/
  port : Option Int
  /-- The user. -/
  user : String
  /-- The password. -/
  password : String
  /-- The database, or the file of a file database. -/
  database : String
  /-- The table prefix. -/
  tablePrefix : String
deriving DecidableEq

/-- What is logged, and where. -/
structure LogSettings where
  /-- The level, in upper case. -/
  level : String
  /-- The log file, if there is one. -/
  file : Option String
  /-- The directory of the log file. -/
  directory : String
  /-- Whether the console is coloured. -/
  colors : Bool
  /-- Whether connections keep a log of their statements. -/
  queries : Bool
deriving DecidableEq

/-- All settings. -/
structure Settings where
  /-- Where the database is. -/
  database : DatabaseSettings
  /-- What is logged. -/
  logging : LogSettings
deriving DecidableEq

/-- The usual port of a driver. -/
def defaultPort (driver : String) : Option Int :=
  [("mysql", 3306), ("pgsql", 5432), ("postgresql", 5432)].lookup driver

/-- Reads the port, which falls back to the usual one of the driver. -/
def readPort (driver : String) (port : Option String) : Except Failure (Option Int) :=
  match port with
  | none => .ok (defaultPort driver)
  | some digits =>
    if digits.isEmpty then .ok (defaultPort driver)
    else (Number.readInt digits.toList).elim (.error .badValue) fun n => .ok (some n)

/-- Reads the connection settings. -/
def DatabaseSettings.ofEnvironment (env : Environment) : Except Failure DatabaseSettings := do
  let driver := lower (env.get "DB_CONNECTION" "sqlite")
  let port ← readPort driver (env.lookup "DB_PORT")
  return {
    driver
    port
    host := env.get "DB_HOST" "localhost"
    user := env.get "DB_USERNAME" ""
    password := env.get "DB_PASSWORD" ""
    database := env.get "DB_DATABASE" (if driver = "sqlite" then ":memory:" else "")
    tablePrefix := env.get "DB_PREFIX" "" }

/-- Reads the logging settings. -/
def LogSettings.ofEnvironment (env : Environment) : LogSettings where
  level := upper (env.get "LOG_LEVEL" "INFO")
  file := (env.lookup "LOG_FILE").filter (!·.isEmpty)
  directory := env.get "LOG_DIR" "logs"
  colors := env.flag "LOG_COLORS" true
  queries := env.flag "LOG_QUERIES" false

/-- Reads all settings. -/
def Settings.ofEnvironment (env : Environment) : Except Failure Settings :=
  return ⟨← DatabaseSettings.ofEnvironment env, LogSettings.ofEnvironment env⟩

end FluentSql
