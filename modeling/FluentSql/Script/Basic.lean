import FluentSql.Dialect
import FluentSql.Execution.Engine
import FluentSql.Settings.Basic

/-!
# Scripts

A script is a list of calls on the objects of a store, given as data.  The
body of a callback is one, so a callback that builds a nested condition or a
sub-query can be looked at, repeated and reasoned about.

* `ConnectionOptions` describe a connection to be opened.
* `Argument` is an expression that gives a value in a scope.
* `Call` is one call: a method, the object, the arguments, and the register
  that takes the result.
* `Callback` is a script with the value that it returns.
-/

namespace FluentSql

/-- What a new connection is given. -/
structure ConnectionOptions where
  /-- The dialect of its grammar. -/
  dialect : Dialect := .ansi
  /-- The table prefix. -/
  tablePrefix : Value := .text ""
  /-- The name. -/
  name : Value := .text "default"
  /-- The name of the database. -/
  database : Value := .text ""
  /-- Whether it keeps a log of its statements. -/
  logging : Bool := false
  /-- The engine on which it runs statements. -/
  engine : Option Engine := none

mutual

/-- An expression that gives a value. -/
inductive Argument where
  /-- A value that needs no scope. -/
  | constant (value : Value)
  /-- A whole number, given by its numeral. -/
  | numeral (digits : String)
  /-- A new double that stands for no number. -/
  | notNumber
  /-- A day, by year, month and day. -/
  | date (fields : List Int)
  /-- A day with a time, by year, month, day, hour, minute and second. -/
  | dateTime (fields : List Int)
  /-- A time, by hour, minute and second. -/
  | time (fields : List Int)
  /-- A list. -/
  | list (items : List Argument)
  /-- A tuple. -/
  | tuple (items : List Argument)
  /-- A map; of entries with one key the first gives the place and the last the value. -/
  | map (entries : List (Argument × Argument))
  /-- A raw fragment of SQL. -/
  | raw (value : Argument)
  /-- What stands for a value inside a JSON comparison. -/
  | json (value : Argument)
  /-- What a register holds. -/
  | register (name : String)
  /-- An argument of the callback that is running, or else the default. -/
  | extra (index : Nat) (fallback : Argument)
  /-- A callback. -/
  | callback (steps : List Call) (result : Argument)
  /-- A new query of the running script, on which steps have been run. -/
  | query (steps : List Call)
  /-- A new query of a new connection without an engine, on which steps have been run. -/
  | queryOf (dialect : Dialect) (tablePrefix : Value) (steps : List Call)
  /-- A new connection. -/
  | connection (options : ConnectionOptions)
  /-- The settings that an environment gives. -/
  | settings (env : Environment)

/-- One call. -/
inductive Call where
  /-- A method, called on the object of a register (or the default object), with arguments by place
  and by name; the result goes into a register if one is named. -/
  | mk (method : String) (target : Option String) (arguments : List Argument)
      (named : List (String × Argument)) (result : Option String)

end

instance : Inhabited Argument := ⟨.constant .null⟩

instance : Inhabited Call := ⟨.mk "" none [] [] none⟩

instance : Inhabited ConnectionOptions := ⟨{}⟩

namespace Call

/-- The name of the method. -/
def method : Call → String
  | mk method .. => method

/-- The register of the object. -/
def target : Call → Option String
  | mk _ target .. => target

/-- The arguments by place. -/
def arguments : Call → List Argument
  | mk _ _ arguments .. => arguments

/-- The arguments by name. -/
def named : Call → List (String × Argument)
  | mk _ _ _ named _ => named

/-- The register that takes the result. -/
def result : Call → Option String
  | mk _ _ _ _ result => result

end Call

/-- A script that is run on a query, and the value that it returns. -/
structure Callback where
  /-- The calls. -/
  steps : List Call
  /-- The value returned after them. -/
  result : Argument

end FluentSql
