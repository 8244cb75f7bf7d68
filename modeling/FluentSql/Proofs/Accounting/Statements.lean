import FluentSql.Execution.Connection
import FluentSql.Proofs.Accounting.Basic

/-!
# Statements and the ledger

A statement that cannot be sent changes nothing at all.  One that is sent is an
event of the ledger, whatever the engine answers.

* `Store.prepare` is what is sent for a statement, or why nothing is.
* `ConnectionId.run_of_error` and `ConnectionId.run_of_ok` are the two outcomes
  of running a statement.
* `accounts_run` follows from them.
-/

namespace FluentSql

/-! ## Values that follow queries -/

/-- What follows queries depends on the queries only. -/
theorem Store.shown_of_queries {s s' : Store} (h : s'.queries = s.queries) (v : Value) :
    s'.shown v = s.shown v := by
  have hwith : ∀ fuel around v, s'.shownWith fuel around v = s.shownWith fuel around v := by
    intro fuel
    induction fuel with
    | zero => exact fun _ _ => rfl
    | succ fuel ih =>
      intro around v
      unfold shownWith
      simp only [Store.query_of_queries h, ih]
  unfold shown
  rw [h]
  exact hwith _ _ _

/-! ## Reading -/

section

variable {α : Type}

theorem Action.ofExcept_runOn (r : Except Failure α) (s : Store) :
    (Action.ofExcept r).runOn s = (r, s) := rfl

theorem ConnectionId.read_runOn (id : ConnectionId) (s : Store) :
    id.read.runOn s = (.ok (s.connection id), s) := rfl

theorem Value.shown_runOn (v : Value) (s : Store) : v.shown.runOn s = (.ok (s.shown v), s) := rfl

theorem Value.displayNow_runOn (v : Value) (s : Store) :
    v.displayNow.runOn s = (.ok (s.shown v).display, s) := rfl

end

/-- The elements of a value are read without a change. -/
theorem Value.itemsOrNone_runOn (v : Value) (s : Store) : (v.itemsOrNone.runOn s).2 = s := by
  unfold itemsOrNone
  split
  · cases v with
    | object handle => cases handle <;> rfl
    | _ => rfl
  · rfl

/-! ## What is sent -/

/-- What is sent for a statement: the engine, the values and the statement in its style. -/
structure Prepared where
  /-- The engine. -/
  engine : Engine
  /-- The values. -/
  values : List Value
  /-- What is sent. -/
  statement : SentStatement

/-- What is sent for a statement, or why nothing is: there is no engine, the values cannot be
listed, or the statement cannot be converted for the engine. -/
def Store.prepare (s : Store) (id : ConnectionId) (sql bindings : Value) :
    Except Failure Prepared := do
  let engine ← (s.connection id).engine.elim
    (.error (.connection (.noEngine (s.shown (s.connection id).name).display))) .ok
  let values ← (bindings.itemsOrNone.runOn s).1
  let statement ← convertPlaceholders (s.shown sql) engine.paramstyle (.list values)
  return { engine, values, statement }

/-- How a statement ends whose result is read. -/
def Outcome.ending {α : Type} (read : StatementResult → Except Failure α) : Outcome → Ending
  | .accepted result =>
    match read result with
    | .ok _ => .completed
    | .error e => .unread e
  | .rejected reason => .rejected reason

theorem Outcome.answers_ending {α : Type} (read : StatementResult → Except Failure α)
    (outcome : Outcome) : (outcome.ending read).Answers outcome := by
  cases outcome with
  | accepted result =>
    unfold ending
    dsimp only
    split <;> trivial
  | rejected reason => rfl

/-! ## The two outcomes of running a statement -/

section

variable {α : Type} {s : Store} {id : ConnectionId} {sql bindings : Value}
variable {read : StatementResult → Except Failure α}

theorem Store.prepare_ok {sent : Prepared} (h : s.prepare id sql bindings = .ok sent) :
    (s.connection id).engine = some sent.engine ∧
      bindings.itemsOrNone.runOn s = (.ok sent.values, s) ∧
      convertPlaceholders (s.shown sql) sent.engine.paramstyle (.list sent.values) =
        .ok sent.statement := by
  unfold prepare at h
  obtain ⟨engine, hengine, h⟩ := Name.bind_eq_ok h
  obtain ⟨values, hvalues, h⟩ := Name.bind_eq_ok h
  obtain ⟨statement, hstatement, h⟩ := Name.bind_eq_ok h
  cases h
  refine ⟨?_, Prod.ext hvalues (bindings.itemsOrNone_runOn s), hstatement⟩
  cases hc : (s.connection id).engine with
  | none =>
    rw [hc] at hengine
    exact nomatch hengine
  | some engine =>
    rw [hc] at hengine
    cases hengine
    rfl

/-- With an engine and values it only matters whether the statement can be converted. -/
theorem Store.prepare_eq {engine : Engine} {values : List Value}
    (hengine : (s.connection id).engine = some engine)
    (hvalues : bindings.itemsOrNone.runOn s = (.ok values, s)) : s.prepare id sql bindings =
      (convertPlaceholders (s.shown sql) engine.paramstyle (.list values)).map
        fun statement => ⟨engine, values, statement⟩ := by
  unfold prepare
  rw [hengine, hvalues]
  show (convertPlaceholders _ _ _ >>= fun statement =>
    pure (⟨engine, values, statement⟩ : Prepared)) = _
  cases convertPlaceholders (s.shown sql) engine.paramstyle (.list values) <;> rfl

theorem ConnectionId.engine_runOn {engine : Engine} (h : (s.connection id).engine = some engine) :
    id.engine.runOn s = (.ok engine, s) := by
  unfold ConnectionId.engine
  rw [Action.runOn_bind_ok (id.read_runOn s), h]
  rfl

/-- A statement that cannot be sent fails and changes nothing. -/
theorem ConnectionId.run_of_error {e : Failure} (h : s.prepare id sql bindings = .error e) :
    (id.run sql bindings read).runOn s = (.error e, s) := by
  unfold run
  cases hengine : (s.connection id).engine with
  | none =>
    unfold Store.prepare at h
    rw [hengine] at h
    cases h
    refine Action.runOn_bind_error ?_
    unfold ConnectionId.engine
    rw [Action.runOn_bind_ok (id.read_runOn s), hengine]
    exact Action.runOn_bind_ok (Value.displayNow_runOn _ s)
  | some engine =>
    rw [Action.runOn_bind_ok (ConnectionId.engine_runOn hengine)]
    have hsame := bindings.itemsOrNone_runOn s
    cases hvalues : (bindings.itemsOrNone.runOn s).1 with
    | error failure =>
      unfold Store.prepare at h
      rw [hengine, hvalues] at h
      cases h
      exact Action.runOn_bind_error (Prod.ext hvalues hsame)
    | ok values =>
      have hlisted : bindings.itemsOrNone.runOn s = (.ok values, s) := Prod.ext hvalues hsame
      rw [Store.prepare_eq hengine hlisted] at h
      rw [Action.runOn_bind_ok hlisted, Action.runOn_bind_ok (sql.shown_runOn s)]
      cases hconverted : convertPlaceholders (s.shown sql) engine.paramstyle (.list values) with
      | error failure =>
        rw [hconverted] at h
        cases h
        exact Action.runOn_bind_error rfl
      | ok statement =>
        rw [hconverted] at h
        exact nomatch h

/-- The store after a statement is handed to an engine. -/
def Store.sending (s : Store) (id : ConnectionId) (engine : Engine) (statement : SentStatement) :
    Store :=
  { s with
    connections := s.connections.modify id.index fun c =>
      { c with engine := some engine.answer.2 }
    sent := s.sent.push statement }

theorem ConnectionId.send_runOn (id : ConnectionId) (engine : Engine) (statement : SentStatement)
    (s : Store) :
    (id.send engine statement).runOn s = (.ok engine.answer.1, s.sending id engine statement) := rfl

theorem Store.ledger_sending (s : Store) (id : ConnectionId) (engine : Engine)
    (statement : SentStatement) : (s.sending id engine statement).ledger =
      { s.ledger.modify id (fun j => { j with engine := some engine.answer.2 }) with
        sent := s.sent.push statement } :=
  congrArg (fun l : Ledger => { l with sent := s.sent.push statement })
    (s.ledger_modify id fun _ => rfl)

/-- The journal with an entry if the connection keeps its statements. -/
def Journal.noting (entry : Option QueryLogEntry) (j : Journal) : Journal :=
  { j with entries := j.entries ++ if j.logging then entry.toList else [] }

theorem Journal.noting_none (j : Journal) : j.noting none = j := by
  unfold noting
  rw [Option.toList_none, ite_self, List.append_nil]

theorem Ledger.modify_noting_none (l : Ledger) (c : ConnectionId) :
    l.modify c (Journal.noting none) = l :=
  (congrArg _ (funext Journal.noting_none)).trans (l.modify_same c)

theorem ConnectionId.record_runOn (id : ConnectionId) (sql : Value) (values : List Value)
    (s : Store) : ∃ s', (id.record sql values).runOn s = (.ok (), s') ∧
      s'.ledger = s.ledger.modify id (Journal.noting (some ⟨sql, values⟩)) ∧
      s'.callbacks = s.callbacks := by
  refine ⟨_, rfl, s.ledger_modify id fun c => ?_, rfl⟩
  unfold Connection.journal Journal.noting
  cases hlogging : c.logging with
  | false => simp [hlogging]
  | true => simp

/-- The event of running a statement that is sent. -/
def Prepared.execution (sent : Prepared) (s : Store) (id : ConnectionId) (sql : Value)
    (read : StatementResult → Except Failure α) : Execution where
  connection := id
  sql := sql
  bindings := sent.values
  shown := s.shown sql
  statement := sent.statement
  ending := sent.engine.answer.1.ending read

theorem Prepared.fits {sent : Prepared} (h : s.prepare id sql bindings = .ok sent) :
    (Event.executed (sent.execution s id sql read)).Fits s.ledger := by
  obtain ⟨hengine, _, hstatement⟩ := Store.prepare_ok h
  refine ⟨⟨sent.engine, ?_, hstatement, Outcome.answers_ending read _⟩, s.shown_data⟩
  rw [s.journal_ledger]
  exact hengine

/-- The ledger after a statement is handed to its engine, and noted if it earns an entry. -/
theorem Execution.apply_eq {e : Execution} {engine : Engine}
    (h : (s.connection id).engine = some engine)
    (hid : e.connection = id) :
    (Event.executed e).apply s.ledger =
      (s.sending id engine e.statement).ledger.modify id (Journal.noting e.entry?) := by
  subst hid
  have hafter : s.ledger.modify e.connection (·.after e) =
      (s.ledger.modify e.connection fun j => { j with engine := some engine.answer.2 }).modify
        e.connection (Journal.noting e.entry?) := by
    rw [Ledger.modify_modify]
    refine Ledger.modify_congr ?_
    have hengine : (s.ledger.journal e.connection).engine = some engine := by
      rw [s.journal_ledger]
      exact h
    unfold Journal.after Journal.noting
    rw [hengine]
    rfl
  rw [Store.ledger_sending]
  exact congrArg (fun l : Ledger => { l with sent := s.sent.push e.statement }) hafter

/-- A statement that is sent is an event of the ledger.  The call that runs it fails exactly as the
statement ends. -/
theorem ConnectionId.run_of_ok (read : StatementResult → Except Failure α) {sent : Prepared}
    (h : s.prepare id sql bindings = .ok sent) :
    failureOf ((id.run sql bindings read).runOn s).1 = (sent.execution s id sql read).failure? ∧
      ((id.run sql bindings read).runOn s).2.ledger =
        (Event.executed (sent.execution s id sql read)).apply s.ledger ∧
      ((id.run sql bindings read).runOn s).2.callbacks = s.callbacks := by
  obtain ⟨hengine, hvalues, hstatement⟩ := Store.prepare_ok h
  unfold run
  rw [Action.runOn_bind_ok (ConnectionId.engine_runOn hengine), Action.runOn_bind_ok hvalues,
    Action.runOn_bind_ok (sql.shown_runOn s), hstatement,
    Action.runOn_bind_ok (Action.ofExcept_runOn _ s), Action.runOn_bind_ok (id.send_runOn _ _ s)]
  rw [Execution.apply_eq (e := sent.execution s id sql read) hengine rfl]
  unfold Prepared.execution Execution.failure? Execution.entry? Outcome.ending
  generalize hsending : s.sending id sent.engine sent.statement = s1
  have hqueries : s1.queries = s.queries := hsending ▸ rfl
  have hcallbacks : s1.callbacks = s.callbacks := hsending ▸ rfl
  -- A statement without an entry leaves the ledger as it was when it had been handed over.
  have hsame := s1.ledger.modify_noting_none id
  cases sent.engine.answer.1 with
  | accepted result =>
    dsimp only
    cases hread : read result with
    | error e =>
      rw [Action.runOn_bind_error (Action.ofExcept_runOn _ s1)]
      exact ⟨rfl, hsame.symm, hcallbacks⟩
    | ok value =>
      obtain ⟨s2, hran, hledger, hcallbacks'⟩ := id.record_runOn sql sent.values s1
      rw [Action.runOn_bind_ok (Action.ofExcept_runOn _ s1), Action.runOn_bind_ok hran]
      exact ⟨rfl, hledger, hcallbacks'.trans hcallbacks⟩
  | rejected reason =>
    refine ⟨?_, hsame.symm, hcallbacks⟩
    refine congrArg (fun v => some (Failure.rejected reason v sent.values))
      (Store.shown_of_queries ?_ sql)
    exact hqueries

end

/-- Running a statement accounts for what it does. -/
theorem accounts_run {calls : String → Prop} {α : Type} (id : ConnectionId) (sql bindings : Value)
    (read : StatementResult → Except Failure α) : (id.run sql bindings read).Accounts calls := by
  intro s hs
  cases hprepared : s.prepare id sql bindings with
  | error e =>
    rw [ConnectionId.run_of_error hprepared]
    exact ⟨hs, [], .refl _ _⟩
  | ok sent =>
    obtain ⟨hfailure, hledger, hcallbacks⟩ := ConnectionId.run_of_ok read hprepared
    refine ⟨Store.callsOnly_of_callbacks hcallbacks hs,
      [.executed (sent.execution s id sql read)], ?_⟩
    rw [hledger]
    exact .single (Prepared.fits hprepared) (.inr hfailure.symm) fun _ h => nomatch h

end FluentSql
