import FluentSql.Execution.Resolver

/-!
# Waiting for a database

A database is probed until it answers or the attempts run out, with a pause
between two attempts.

* `WaitTrace` is what can be seen of the waiting.
* `waitLoop` makes the attempts one after another.
* `waitForDatabase` reads the arguments and starts it.
-/

namespace FluentSql

/-- What can be seen of the waiting. -/
structure WaitTrace where
  /-- The number of attempts made. -/
  attempts : Nat := 0
  /-- The length of each pause. -/
  sleeps : List Value := []
  /-- The log, the oldest record first. -/
  log : List LogRecord := []

namespace WaitTrace

/-- Adds a record to the log. -/
def write (trace : WaitTrace) (level : Level) (message : String) : WaitTrace :=
  { trace with log := trace.log ++ [⟨level, factoryLogger, message⟩] }

end WaitTrace

/-- The message of a database that cannot be reached. -/
def refusal : String := "refused"

/-- The attempt that is under way, of how many. -/
def attemptText (attempt limit : String) : String :=
  "(attempt " ++ attempt ++ "/" ++ limit ++ ")"

/-- Makes attempts until one succeeds or `left` of them were made.  `probes` says of each attempt
whether it succeeds; attempts beyond it fail. -/
def waitLoop (limit : String) (pause : Value) :
    (left : Nat) → (probes : List Bool) → WaitTrace → Bool × WaitTrace
  | 0, _, trace => (false, trace)
  | left + 1, probes, trace =>
    let trace := { trace with attempts := trace.attempts + 1 }
    let attempt := attemptText (Number.natText trace.attempts) limit
    if probes.headD false then
      (true, trace.write .info ("✅ Database is available " ++ attempt))
    else
      let trace := trace.write .debug ("Database not available: " ++ refusal)
      if left = 0 then (false, trace)
      else
        let trace := trace.write .warning
          ("⏳ Database not available yet " ++ attempt ++ ", retrying in " ++ pause.display ++
            "s...")
        waitLoop limit pause left probes.tail { trace with sleeps := trace.sleeps ++ [pause] }

/-- The number of attempts that a limit allows. -/
def attemptsIn (limit : Value) : Except Failure Nat :=
  match limit with
  | .int n => .ok n.toNat
  | .bool b => .ok (if b then 1 else 0)
  | _ => .error .wrongType

/-- Waits for the database of a URL. -/
def waitForDatabase (url : DatabaseUrl) (limit pause : Value) (probes : List Bool) :
    Except Failure Unit × WaitTrace :=
  let target := url.render true
  let trace := WaitTrace.write {} .info ("Waiting for database at " ++ target ++ "...")
  match attemptsIn limit with
  | .error failure => (.error failure, trace)
  | .ok left =>
    let (answered, trace) := waitLoop limit.display pause left probes trace
    if answered then (.ok (), trace)
    else
      let fault := ConnectionFault.unavailable target limit.display
      (.error (.connection fault), trace.write .error ("❌ " ++ fault.message))

end FluentSql
