/-!
# Log records

* `Level` are the levels that the library logs at, with their numbers.
* `LogRecord` is one message of one logger.
-/

namespace FluentSql

/-- A level of the library's own messages. -/
inductive Level where
  /-- Every executed statement. -/
  | debug
  /-- What goes as planned. -/
  | info
  /-- What may surprise. -/
  | warning
  /-- What fails. -/
  | error
deriving DecidableEq

/-- The name of a level. -/
def Level.name : Level → String
  | debug => "DEBUG"
  | info => "INFO"
  | warning => "WARNING"
  | error => "ERROR"

/-- One message of one logger. -/
structure LogRecord where
  /-- How urgent the message is. -/
  level : Level
  /-- The logger. -/
  logger : String
  /-- The message. -/
  message : String
deriving DecidableEq

end FluentSql
