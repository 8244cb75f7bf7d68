import FluentSql.Value.Display
import FluentSql.Value.Request

/-!
# Failures

Why a call fails.  A failure is a cause; its wording is in `Failure.message`.

* `ArgumentFault` are malformed arguments of a fluent call.
* `Feature` are constructs that a dialect may lack.
* `ConnectionFault` are the ways in which no usable connection is there.
* `ValueFault` are values of a kind that an operation does not take, and
  files that cannot be opened; these have no wording.
* `Failure` collects them with what a rejected statement carries.
-/

namespace FluentSql

/-- A malformed argument of a fluent call. -/
inductive ArgumentFault where
  /-- A sub-query is the source of a query and has no alias. -/
  | aliasMissing
  /-- A column comparison has only one column. -/
  | secondColumnMissing
  /-- A value of a raw list is no integer; its literal is given. -/
  | notInteger (value : String)
  /-- A between clause has no value. -/
  | betweenEmpty
  /-- A row of values is not as long as its row of columns. -/
  | rowLengths
  /-- An order goes neither up nor down. -/
  | direction
  /-- There is no binding group of this name. -/
  | bindingGroup (name : String)
  /-- Inserted records have different columns. -/
  | recordColumns
  /-- A column is stepped by something that is no number. -/
  | stepAmount
  /-- A query has no property of this name. -/
  | property (name : String)
  /-- What should be a query, its text or a callback is none of these. -/
  | subQueryOrText
  /-- What should be a query or a callback is neither. -/
  | subQuery
  /-- An operator, given by its literal, is not known. -/
  | operator (operator : String)
  /-- An operator does not go with the absent value. -/
  | operatorOnNull
  /-- A value of this kind has no place in a JSON document. -/
  | jsonKind (kind : String)
  /-- An extension, given by the literal of its name, cannot have that name. -/
  | extensionName (name : String)
  /-- An extension, given by the literal of its name, cannot be called. -/
  | extensionBody (name : String)
  /-- There is no dialect for a driver. -/
  | driver (name : String)
  /-- There is no dialect for a driver; the drivers that have one are listed. -/
  | driverAmong (name : String) (known : List String)

/-- A construct that a dialect may lack. -/
inductive Feature where
  /-- Paths into JSON columns. -/
  | json
  /-- Containment in JSON documents. -/
  | jsonContains
  /-- The length of JSON arrays. -/
  | jsonLength
  /-- Inserts that pass over rejected rows. -/
  | insertIgnoring
  /-- Savepoints. -/
  | savepoints

/-- A reason why no usable connection is there. -/
inductive ConnectionFault where
  /-- The placeholder style is not known. -/
  | placeholderStyle (name : String)
  /-- The connection has no engine. -/
  | noEngine (name : String)
  /-- There is no connection of this name. -/
  | notConfigured (name : String)
  /-- The database never answered. -/
  | unavailable (target attempts : String)

/-- A value of a kind that an operation does not take, or a file that cannot be opened. -/
inductive ValueFault where
  /-- The value is of the wrong type, or a call has the wrong arguments. -/
  | wrongType
  /-- The value is of the right type and has no reading. -/
  | badValue
  /-- A map lacks a key. -/
  | missingKey
  /-- A list is too short. -/
  | badIndex
  /-- There is no first element. -/
  | noElement
  /-- A number is too large. -/
  | overflow
  /-- An object lacks what it is asked for. -/
  | missingAttribute
  /-- A file is opened in a directory that is not there. -/
  | missingDirectory
  /-- A directory is opened as a file. -/
  | isDirectory
  /-- A directory is made where a file is. -/
  | fileExists
  /-- A file stands on the way to a place. -/
  | notDirectory
  /-- The name of a file is too long. -/
  | nameTooLong
  /-- A moment lies in a year that no calendar counts to. -/
  | beyondCalendar
  /-- A value would not fit into memory. -/
  | memory
  /-- The call would never end. -/
  | endless
deriving DecidableEq

/-- The two kinds of query objects. -/
inductive QueryClass where
  /-- A statement. -/
  | statement
  /-- A join condition. -/
  | join
deriving DecidableEq

/-- The name of the kind in messages. -/
def QueryClass.display : QueryClass → String
  | statement => "Builder"
  | join => "JoinClause"

/-- Why a call fails. -/
inductive Failure where
  /-- An argument is malformed. -/
  | argument (fault : ArgumentFault)
  /-- The dialect lacks a construct. -/
  | unsupported (feature : Feature)
  /-- A query without a connection cannot run. -/
  | noConnection
  /-- No usable connection is there. -/
  | connection (fault : ConnectionFault)
  /-- The database rejects a statement. -/
  | rejected (reason : String) (sql : Value) (bindings : List Value)
  /-- A query has no method and no extension of this name. -/
  | unknownMethod (kind : QueryClass) (name : String)
  /-- There is no log level of this name. -/
  | unknownLevel (name : String)
  /-- A query is asked for something that an extension has to answer first. -/
  | unanswered (query : QueryId) (request : Request)
  /-- A value is of a kind that an operation does not take. -/
  | value (fault : ValueFault)

namespace ArgumentFault

/-- The wording of a malformed argument. -/
def message : ArgumentFault → String
  | aliasMissing => "A sub-query used as a table requires an alias."
  | secondColumnMissing => "A column comparison requires a second column."
  | notInteger value => "Raw in-list values must be integers, got " ++ value
  | betweenEmpty => "A between clause requires at least one value."
  | rowLengths => "The number of columns must match the number of values"
  | direction => "Order direction must be \"asc\" or \"desc\"."
  | bindingGroup name => "Invalid binding type: " ++ name ++ "."
  | recordColumns => "Every inserted record must have the same columns."
  | stepAmount => "Non-numeric value passed to increment method."
  | property name => "Unknown query property: " ++ name
  | subQueryOrText =>
    "A sub-query must be a query builder instance, a callable, or a string."
  | subQuery => "A sub-query must be a query builder instance or a callable."
  | operator literal => "Illegal operator: " ++ literal
  | operatorOnNull => "Illegal operator and value combination."
  | jsonKind kind => "JSON value is of illegal type: " ++ kind
  | extensionName name => "Invalid macro name: " ++ name
  | extensionBody name => "Macro " ++ name ++ " must be callable"
  | driver name => "Unsupported database driver: " ++ name
  | driverAmong name known =>
    "Unsupported database driver: " ++ name ++ " (expected one of " ++ joinWith ", " known ++ ")"

end ArgumentFault

namespace Feature

/-- What the dialect lacks, in words. -/
def lacking : Feature → String
  | json => "JSON operations"
  | jsonContains => "JSON contains operations"
  | jsonLength => "JSON length operations"
  | insertIgnoring => "inserting while ignoring errors"
  | savepoints => "savepoints"

/-- The wording for a construct that the dialect lacks. -/
def message (feature : Feature) : String :=
  "This database engine does not support " ++ feature.lacking ++ "."

end Feature

namespace ConnectionFault

/-- The wording of a missing connection. -/
def message : ConnectionFault → String
  | placeholderStyle name => "Unsupported parameter style: " ++ name
  | noEngine name =>
    "Connection '" ++ name ++ "' has no engine; it can compile queries but not run them"
  | notConfigured name => "Database connection [" ++ name ++ "] not configured."
  | unavailable target attempts =>
    "Database at " ++ target ++ " did not become available after " ++ attempts ++ " attempts"

end ConnectionFault

namespace Failure

/-- The wording of a failure; a value of the wrong kind and a request without an answer have
none. -/
def message : Failure → Option String
  | argument fault => some fault.message
  | unsupported feature => some feature.message
  | noConnection => some "No database connection is available to run the query."
  | connection fault => some fault.message
  | rejected reason sql _ => some (reason ++ " (SQL: " ++ sql.display ++ ")")
  | unknownMethod kind name =>
    some ("'" ++ kind.display ++ "' object has no attribute '" ++ name ++ "'")
  | unknownLevel name => some ("Unknown log level: " ++ name)
  | unanswered .. => none
  | value _ => none

/-- A value of the wrong type. -/
def wrongType : Failure := value .wrongType

/-- A value without a reading. -/
def badValue : Failure := value .badValue

/-- An object that lacks what it is asked for. -/
def missingAttribute : Failure := value .missingAttribute

end Failure

end FluentSql
