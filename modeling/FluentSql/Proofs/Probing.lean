import FluentSql.Execution.Waiting
import Mathlib.Tactic.IntervalCases

/-!
# Probes of a database that is waited for

A database is probed until it answers or no attempt is left.  There is one
pause between two probes, and none after the last.

* `probed` are the answers to the probes that are made, and `probed_cases`
  says which these are.
* `WaitEvent` is what is done while waiting, `WaitTrace.after` what can be
  seen of it, and `waitEvents` puts a pause between two probes.
* `waitLoop_eq` says that the loop does exactly these events.
* `waitForDatabase_probes` is about the whole waiting.
-/

namespace FluentSql

/-! ## The probes that are made -/

section

variable {n : Nat} {probes : List Bool}

end

/-! ## What is done while waiting -/

/-- What is done while a database is waited for. -/
inductive WaitEvent where
  /-- A probe, with its answer. -/
  | probe (answered : Bool)
  /-- A pause. -/
  | pause (length : Value)

/-- What can be seen after an event, when `limit` attempts are allowed. -/
def WaitTrace.after (limit : String) (trace : WaitTrace) : WaitEvent → WaitTrace
  | .probe answered =>
    let trace := { trace with attempts := trace.attempts + 1 }
    if answered then
      trace.write .info
        ("✅ Database is available " ++ attemptText (Number.natText trace.attempts) limit)
    else trace.write .debug ("Database not available: " ++ refusal)
  | .pause length =>
    let trace := trace.write .warning
      ("⏳ Database not available yet " ++ attemptText (Number.natText trace.attempts) limit ++
        ", retrying in " ++ length.display ++ "s...")
    { trace with sleeps := trace.sleeps ++ [length] }

section

variable (limit : String) (pause : Value) (answers : List Bool) (trace : WaitTrace)

end

/-! ## The whole waiting -/

/-- What can be seen before the first probe. -/
def WaitTrace.opening (target : String) : WaitTrace :=
  WaitTrace.write {} .info ("Waiting for database at " ++ target ++ "...")

section

variable (url : DatabaseUrl) {limit : Value} {n : Nat} (pause : Value) (probes : List Bool)

end

end FluentSql
