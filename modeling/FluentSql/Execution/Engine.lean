import FluentSql.Value.Basic

/-!
# Engines

An engine is a database as a connection sees it: it takes statements and
answers each with the next outcome of its script.

* `Outcome` is the answer to one statement.
* `Engine` holds the outcomes that are left; an engine without any answers
  with an empty result.
* `SentStatement` is what reached an engine.
-/

namespace FluentSql

/-- A row: the values of its columns, in order. -/
abbrev Row := List (Value × Value)

/-- What a database returns for a statement that it accepts. -/
structure StatementResult where
  /-- The rows. -/
  rows : List Row := []
  /-- The number of rows that the statement changed. -/
  rowCount : Value := .int 0
  /-- The id that the database gave to an inserted row. -/
  lastRowId : Value := .null
  /-- Whether the statement is one that returns rows. -/
  returnsRows : Bool := false

/-- The answer of a database to one statement. -/
inductive Outcome where
  /-- The statement is accepted. -/
  | accepted (result : StatementResult)
  /-- The statement is rejected, for a reason. -/
  | rejected (reason : String)

instance : Inhabited Outcome := ⟨.accepted {}⟩

/-- A database with a script of answers. -/
structure Engine where
  /-- The style of the placeholders that it takes. -/
  paramstyle : Value := .text "qmark"
  /-- The name of the database. -/
  database : Value := .null
  /-- The answers that are left. -/
  outcomes : List Outcome := []

namespace Engine

/-- The next answer, and the engine after it. -/
def answer (engine : Engine) : Outcome × Engine :=
  match engine.outcomes with
  | [] => (.accepted {}, engine)
  | outcome :: rest => (outcome, { engine with outcomes := rest })

end Engine

/-- The values that go with a statement. -/
inductive Parameters where
  /-- No values. -/
  | none
  /-- Values by their place. -/
  | positional (values : List Value)
  /-- Values by their names. -/
  | named (values : List (String × Value))

/-- A statement as it reached an engine. -/
structure SentStatement where
  /-- The statement in the style of the engine. -/
  sql : Value
  /-- Its values. -/
  parameters : Parameters

end FluentSql
