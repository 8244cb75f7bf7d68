/-!
# Dialects

The dialects of SQL that queries compile to.  What a dialect decides in one
word is here: its name, the quote around names, the operators it adds, and
whether it selects the rows of an update by their address.
-/

namespace FluentSql

/-- A dialect of SQL. -/
inductive Dialect where
  /-- The common core, close to the standard. -/
  | ansi
  /-- MySQL and MariaDB. -/
  | mysql
  /-- PostgreSQL. -/
  | postgres
  /-- SQLite. -/
  | sqlite
deriving DecidableEq

namespace Dialect

/-- The quote around a name. -/
def quote : Dialect → Char
  | mysql => '\x60'
  | _ => '"'

/-- The operators that every query knows. -/
def commonOperators : List String :=
  ["=", "<", ">", "<=", ">=", "<>", "!=", "<=>", "like", "like binary", "not like", "ilike",
    "&", "|", "^", "<<", ">>", "rlike", "not rlike", "regexp", "not regexp",
    "~", "~*", "!~", "!~*", "similar to", "not similar to", "not ilike", "~~*", "!~~*"]

/-- The operators that the dialect adds. -/
def operators : Dialect → List String
  | ansi => []
  | mysql => ["sounds like"]
  | postgres =>
    ["~", "~*", "!~", "!~*", "similar to", "not similar to", "not ilike", "~~*", "!~~*", "&&",
      "@>", "<@", "||", "-", "@@", "#-", "is distinct from", "is not distinct from"]
  | sqlite => ["glob", "not glob", "match"]

/-- The column that holds the address of a row, in dialects whose updates and deletes select their
rows by it when there are joins or a limit. -/
def rowAddress? : Dialect → Option String
  | postgres => some "ctid"
  | sqlite => some "rowid"
  | _ => none

end Dialect

end FluentSql
