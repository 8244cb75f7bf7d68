import FluentSql.Execution.Connection
import FluentSql.Log.Disk
import FluentSql.Number.Decimal
import FluentSql.Text.Case

/-!
# Logging setup

* `levelNumber?` and `levelName` relate the numbers and the names of levels.
* `LineFormat.line` lays out a record on the console.
* `LogSetup` is what is asked of the logging, and `LogSystem.setup` puts
  handlers on loggers accordingly.
-/

namespace FluentSql

-- Powers are those of the core library, whatever else is imported.
attribute [local instance (10000)] instPowNat

/-! ## Levels -/

/-- The levels by name.  Two of them have a second name. -/
def namedLevels : List (String × Nat) :=
  [("CRITICAL", 50), ("FATAL", 50), ("ERROR", 40), ("WARN", 30), ("WARNING", 30), ("INFO", 20),
    ("DEBUG", 10), ("NOTSET", 0)]

/-- The number of a level whose name is given in any case.  Bytes are no name of a level. -/
def levelNumber (name : Value) : Except Failure Nat :=
  match name with
  | .text s => (namedLevels.lookup (Text.upper s)).elim (.error (.unknownLevel s)) .ok
  | .bytes _ => .error (.unknownLevel name.display)
  | _ => .error .missingAttribute

/-- The names of the levels by number. -/
def levelNames : List (Int × String) :=
  [(50, "CRITICAL"), (40, "ERROR"), (30, "WARNING"), (20, "INFO"), (10, "DEBUG"), (0, "NOTSET")]

/-- The name of a level.  A number without a name is named by itself. -/
def levelName (level : Int) : String :=
  (levelNames.lookup level).getD ("Level " ++ Number.intText level)

/-! ## Console lines -/

/-- How the console shows records. -/
inductive LineFormat where
  /-- Text alone. -/
  | plain
  /-- The level in colour, after a sign for it. -/
  | colored
deriving DecidableEq

/-- The sign and the colour code of a level. -/
def levelMarks : List (String × String × String) :=
  [("DEBUG", "🔍", "36"), ("INFO", "ℹ️ ", "32"), ("WARNING", "⚠️ ", "33"), ("ERROR", "❌", "31"),
    ("CRITICAL", "🔥", "35")]

/-- A text in the colour of a code. -/
def colored (code s : String) : String :=
  "\x1b[" ++ code ++ "m" ++ s ++ "\x1b[0m"

namespace LineFormat

/-- The sign before a line. -/
def sign (format : LineFormat) (level : String) : String :=
  match format with
  | plain => ""
  | .colored => ((levelMarks.lookup level).elim "" (·.1)) ++ " "

/-- The level as it stands in a line. -/
def shownLevel (format : LineFormat) (level : String) : String :=
  match format, levelMarks.lookup level with
  | .colored, some (_, code) => FluentSql.colored code level
  | _, _ => level

/-- The line of a record that was made so many seconds after the start of 1970. -/
def line (format : LineFormat) (created : Int) (level logger message : String) : String :=
  format.sign level ++ (Moment.ofSeconds created).format "%Y-%m-%d %H:%M:%S" ++ " - " ++ logger ++
    " - " ++ format.shownLevel level ++ " - " ++ message

end LineFormat

/-- The seconds that a time of creation stands for; a fraction is cut off downwards.  A time must
be a machine word, and its year must have a number that can be read as one of 32 bits. -/
def creationSeconds (created : Value) : Except Failure Int := do
  let seconds ← match created with
    | .double x =>
      if x.isNaN then throw .badValue
      else if x.isInfinite then throw (.value .overflow)
      else pure (x.ratio.1.fdiv x.ratio.2)
    | .int n => pure n
    | .bool b => pure (if b then 1 else 0)
    | _ => throw .wrongType
  if seconds < -2 ^ (63 : Nat) ∨ 2 ^ (63 : Nat) ≤ seconds then throw (.value .overflow)
  let year := (Moment.ofSeconds seconds).year - 1900
  if year < -2 ^ (31 : Nat) ∨ 2 ^ (31 : Nat) ≤ year then throw (.value .beyondCalendar)
  if 2 ^ (31 : Nat) ≤ year + 1900 then throw (.value .overflow)
  return seconds

/-! ## Handlers and loggers -/

/-- Where a handler writes. -/
inductive HandlerTarget where
  /-- The console. -/
  | console (format : LineFormat)
  /-- A file. -/
  | file (place : Place)
deriving DecidableEq

/-- A handler with its level. -/
structure Handler where
  /-- Where it writes. -/
  target : HandlerTarget
  /-- The least level that it writes. -/
  level : Nat := 0
deriving DecidableEq

/-- The settings of one logger. -/
structure Logger where
  /-- The level. -/
  level : Nat := 0
  /-- Whether records go on to the parent of the logger. -/
  propagates : Bool := true
  /-- The handlers, by the number of the setup that made them, if one did. -/
  handlers : List (Option Nat × Handler) := []

/-- The name of the logger above all others. -/
def rootLogger : String := "root"

/-- The name of a logger.  No name stands for the logger above all others. -/
def loggerName (name : Value) : Except Failure String :=
  if name.truthy then name.asText else .ok rootLogger

/-- The loggers of the library. -/
def packageLoggers : List String := ["query", "database", "utils", "core"]

/-- What is asked of the logging. -/
structure LogSetup where
  /-- The name of the level. -/
  level : Value := .text "INFO"
  /-- The log file. -/
  file : Value := .null
  /-- The directory of the log file. -/
  directory : Value := .null
  /-- Whether there is console output, read as a condition. -/
  console : Value := .bool true
  /-- Whether the console is coloured, read as a condition. -/
  colors : Value := .bool true
  /-- The loggers. -/
  loggers : Value := .list (packageLoggers.map .text)

/-- The setup that settings ask for. -/
def LogSettings.setup (settings : LogSettings) : LogSetup where
  level := .text settings.level
  file := settings.file.elim .null .text
  directory := .text settings.directory
  colors := .bool settings.colors

/-- The logging of a program: its loggers and the files that were opened. -/
structure LogSystem where
  /-- The loggers that differ from a fresh one. -/
  loggers : List (String × Logger) := []
  /-- The directories and files. -/
  disk : Disk := {}
  /-- The number of setups so far. -/
  setups : Nat := 0

namespace LogSetup

/-- The directory that is made for the log file. -/
def directoryWay (setup : LogSetup) : Except Failure String :=
  (if setup.directory.truthy then setup.directory else .text "logs").asText

/-- The console, if it is asked for. -/
def consoleTargets (setup : LogSetup) : List HandlerTarget :=
  if setup.console.truthy then [.console (if setup.colors.truthy then .colored else .plain)] else []

/-- The names of the loggers of a setup. -/
def loggerNames (setup : LogSetup) : Except Failure (List String) := do
  (← setup.loggers.items).mapM loggerName

end LogSetup

namespace LogSystem

/-- The logger of a name. -/
def logger (system : LogSystem) (name : String) : Logger :=
  (system.loggers.lookup name).getD {}

/-- The logging before any setup: the loggers of the library have a level and a handler of their
own, and do not propagate. -/
def initial : LogSystem where
  loggers := packageLoggers.map fun name =>
    (name, {
      level := 10
      propagates := false
      handlers := [(none, { target := .console .plain })] })

/-- The handlers that a setup makes; they take its level when they are put on a logger. -/
def handlersOf (targets : List HandlerTarget) (level : Nat) (names : List String) :
    List Handler :=
  targets.map fun target => { target, level := if names.isEmpty then 0 else level }

/-- Makes the directory of a log file and opens the file. -/
def openLogFile (system : LogSystem) (request : LogSetup) : Except Failure (Place × LogSystem) := do
  let directory ← request.directoryWay
  let disk ← system.disk.makeDirectory directory
  let file ← request.file.asText
  let place := (waySteps directory).foldl Place.step (wayStart {} directory)
  let place := (waySteps file).foldl Place.step (wayStart place file)
  return (place, { system with disk := ← disk.openFile place })

/-- The log file of a setup, opened if it is asked for. -/
def openTarget (system : LogSystem) (request : LogSetup) :
    Except Failure (List HandlerTarget × LogSystem) :=
  if request.file.truthy then
    (system.openLogFile request).map fun (place, system) => ([.file place], system)
  else .ok ([], system)

/-- Puts the handlers of a setup on its loggers, in place of those that are there. -/
def setup (system : LogSystem) (request : LogSetup) :
    Except Failure (List Handler × LogSystem) := do
  let level ← levelNumber request.level
  let (files, system) ← system.openTarget request
  let names ← request.loggerNames
  let handlers := handlersOf (request.consoleTargets ++ files) level names
  let number := system.setups + 1
  let logger : Logger :=
    { level, propagates := handlers.isEmpty, handlers := handlers.map fun h => (some number, h) }
  return (handlers, { system with
    loggers := names.map (·, logger) ++ system.loggers
    setups := number })

/-- The files that were opened in the working directory and below it. -/
def localFiles (system : LogSystem) : List String :=
  (system.disk.files.filter Place.isLocal).map Place.display

/-- The level of a logger, after it was given one unless that is absent or empty. -/
def levelOf (system : LogSystem) (name : String) (level : Value) : Except Failure Nat :=
  if level.truthy then levelNumber level else .ok (system.logger name).level

/-- The number of the handlers of a logger that the last setup made. -/
def lastHandlers (system : LogSystem) (name : String) : Nat :=
  ((system.logger name).handlers.filter (·.1 == some system.setups)).length

end LogSystem

end FluentSql
