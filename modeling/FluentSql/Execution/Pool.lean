import FluentSql.Settings.Url
import FluentSql.Value.Equality

/-!
# New engines

A new engine has a URL and, unless the database is a file, a pool of
connections that are probed before they are used.

* `EngineRequest` is what a caller asks for and `EnginePlan` what it gets.
* `EngineRequest.plan` checks the one and gives the other.
-/

namespace FluentSql

/-- What a caller asks of a new engine. -/
structure EngineRequest where
  /-- Where the database is. -/
  url : UrlRequest := {}
  /-- Whether statements are shown as they run. -/
  echo : Value := .bool false
  /-- The number of connections that are kept. -/
  poolSize : Value := .int 5
  /-- The number of connections beyond those. -/
  maxOverflow : Value := .int 10

/-- The pool of a server. -/
structure Pool where
  /-- The number of connections that are kept. -/
  size : Value
  /-- The number of connections beyond those. -/
  maxOverflow : Value

/-- A new engine. -/
structure EnginePlan where
  /-- The URL. -/
  url : DatabaseUrl
  /-- Whether statements are shown as they run. -/
  echo : Value
  /-- The pool, unless the database is a file. -/
  pool : Option Pool

/-- What may be said about showing statements. -/
def echoValues : List Value := [.null, .bool false, .bool true, .text "debug"]

/-- Checks what is said about showing statements. -/
def checkEcho (echo : Value) : Except Failure Value :=
  if !echo.hashable then .error .wrongType
  else if echoValues.any echo.sameKey then .ok echo
  else .error (.value .missingKey)

/-- A pool of a size.  One without a size has no limit. -/
def Pool.ofSize (size maxOverflow : Value) : Except Failure Pool :=
  match size.numeric? with
  | none => .error .wrongType
  | some n => .ok ⟨size, if n.equals (.int 0) then .int (-1) else maxOverflow⟩

/-- The engine for a request. -/
def EngineRequest.plan (request : EngineRequest) (settings : Settings) :
    Except Failure EnginePlan := do
  let url ← request.url.resolve settings
  let pool ← if url.driverName = "sqlite" then .ok none
    else (Pool.ofSize request.poolSize request.maxOverflow).map some
  return { url, pool, echo := ← checkEcho request.echo }

end FluentSql
