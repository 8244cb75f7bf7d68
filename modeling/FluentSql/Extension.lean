import FluentSql.Store
import FluentSql.Text.Identifier

/-!
# Extensions

An extension is a callback under a name.  A query that has no method of that
name runs the callback on itself.

* `Extensions.register`, `find`, `has` and `clear` work on the registry.
* `Extensions.call` runs the extension of a name on a query.
-/

namespace FluentSql.Extensions

/-- The logger of the registry. -/
def logger : String := "query.macros"

/-- Whether a text may name an extension: an identifier that does not start with an underscore. -/
def isName (s : String) : Bool :=
  Text.isIdentifier s && !(['_'].isPrefixOf s.toList)

/-- Runs the extension of a name on a query. -/
def call (run : Runner) (q : QueryId) (name : String) (arguments : List Value) : Action Value := do
  let s ← get
  match s.extension? name with
  | some callback => run callback q arguments
  | none => throw (.unknownMethod (s.classOf q) name)

/-- Whether a value may name an extension.  A query is asked through its own extensions. -/
def accepts (run : Runner) (name : Value) : Action Bool := do
  match name with
  | .text text => return isName text
  | .object (.query q) =>
    if (← call run q "isidentifier" []).truthy then
      return !(← call run q "startswith" [.text "_"]).truthy
    else return false
  | _ => throw .missingAttribute

/-- Registers a callback under a name.  Replacing one is logged. -/
def register (run : Runner) (name callback : Value) : Action Unit := do
  if !(← accepts run name) then throw (.argument (.extensionName name.literal))
  let .object (.callback id) := callback | throw (.argument (.extensionBody name.literal))
  if (lookupKey name (← get).extensions).isSome then
    LogRecord.write
      ⟨.warning, logger, "Replacing existing query macro '" ++ name.display ++ "'"⟩
  modifyThe Store fun s => { s with extensions := insertKey name id s.extensions }

/-- The callback of a name. -/
def find (name : Value) : Action (Option CallbackId) := do
  if !name.hashable then throw .wrongType
  return lookupKey name (← get).extensions

/-- Whether there is a callback of a name. -/
def has (name : Value) : Action Bool :=
  return (← find name).isSome

/-- Removes all callbacks. -/
def clear : Action Unit :=
  modifyThe Store fun s => { s with extensions := [] }

end FluentSql.Extensions
