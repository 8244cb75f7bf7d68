import FluentSql.Proofs.Accounting.Statements
import FluentSql.Proofs.Cloned

/-!
# What a query asks for its rows

A query is compiled with the columns that are named for it, and its connection
is asked with the text and the values.  What is sent then depends on the
connection alone.

* `Inquiry` is what is asked, `QueryId.inquire` and `Store.inquiry` how a query
  comes to it.
* `QueryId.get_eq` says that getting the rows is to ask for them, and
  `Inquiry.rows_of_ok` what the connection gives.
* `Inquiry.rows_same` says that the same question is sent as the same statement.
-/

namespace FluentSql

/-! ## Questions -/

/-- What a query asks its connection. -/
structure Inquiry where
  /-- The connection. -/
  connection : ConnectionId
  /-- The statement. -/
  sql : String
  /-- Its values. -/
  values : List Value

/-- The rows that the connection gives. -/
def Inquiry.rows (i : Inquiry) : Action (List Row) :=
  i.connection.select (.text i.sql) (.list i.values)

/-- A query with columns in the place of its select list, if there are any. -/
def Query.listing (columns : List Value) (q : Query) : Query :=
  if columns.isEmpty then q else { q with columns := some columns }

theorem ok_of_toOption {α : Type} {x : Except Failure α} {a : α} (h : x.toOption = some a) :
    x = .ok a := by
  cases x with
  | error e => exact nomatch h
  | ok b => exact congrArg Except.ok (Option.some.inj h)

/-- What a query asks for its rows, with columns for a query without a select list. -/
def QueryId.inquire (run : Runner) (q : QueryId) (columns : Value) : Action Inquiry := do
  let chosen ← if (← q.read).columns.isNone then columns.itemsOrNone else pure []
  let shown ← chosen.mapM Value.shown
  let sql ← q.compile run "compile_select" fun g attached query =>
    g.selectSql attached
      (if chosen.isEmpty then query else { query with columns := some shown })
  let values ← q.bindings
  return ⟨← q.needConnection, sql, values⟩

/-- The statement of a query with columns in the place of its select list. -/
def Store.listedSql (s : Store) (q : QueryId) (columns : List Value) : Except Failure String :=
  s.settled.compiled [] q "compile_select" fun g attached query =>
    g.selectSql attached (query.listing columns)

/-- What a query asks with columns in the place of its select list. -/
def Store.inquiry (s : Store) (q : QueryId) (columns : List Value) : Except Failure Inquiry := do
  let sql ← s.listedSql q columns
  let connection ← (s.query q).connection.elim (.error .noConnection) .ok
  return ⟨connection, sql, (s.query q).bindings.flatten⟩

section

variable {run : Runner} {q : QueryId} {s s' : Store}

/-- The rows of a query are those for what it asks. -/
theorem QueryId.get_eq (run : Runner) (q : QueryId) (columns : Value) :
    q.get run columns = q.inquire run columns >>= Inquiry.rows := by
  unfold get inquire
  rw [bind_assoc]
  refine congrArg (q.read >>= ·) (funext fun query => ?_)
  split <;> simp only [bind_assoc, pure_bind] <;> rfl

theorem Value.mapM_shown_runOn (vs : List Value) (s : Store) :
    (vs.mapM Value.shown).runOn s = (.ok (vs.map s.shown), s) := by
  induction vs with
  | nil => rfl
  | cons v vs ih =>
    rw [List.mapM_cons, Action.runOn_bind_ok (v.shown_runOn s), Action.runOn_bind_ok ih]
    rfl

theorem QueryId.needConnection_runOn (q : QueryId) (s : Store) :
    q.needConnection.runOn s = ((s.query q).connection.elim (.error .noConnection) .ok, s) := by
  unfold needConnection
  rw [Action.runOn_bind_ok (show q.read.runOn s = (.ok (s.query q), s) from rfl)]
  cases (s.query q).connection <;> rfl

/-- What a query asks once its columns are chosen. -/
theorem QueryId.inquire_of_chosen {columns : Value} {chosen : List Value}
    (hchosen : if (s.query q).columns.isNone then columns.itemsOrNone.runOn s = (.ok chosen, s)
      else chosen = [])
    (hasks : AsksNothing (s.listedSql q (chosen.map s.shown))) :
    (q.inquire run columns).runOn s = (s.inquiry q (chosen.map s.shown), s) := by
  have hempty : (chosen.map s.shown).isEmpty = chosen.isEmpty := List.isEmpty_map
  have hcompile : (q.compile run "compile_select" fun g attached query => g.selectSql attached
      (if chosen.isEmpty then query else { query with columns := some (chosen.map s.shown) })).runOn
        s = (s.listedSql q (chosen.map s.shown), s) := by
    rw [← hempty]
    exact consult_runOn run hasks
  unfold inquire
  rw [Action.runOn_bind_ok (show q.read.runOn s = (.ok (s.query q), s) from rfl)]
  have hrest : (do
      let shown ← chosen.mapM Value.shown
      let sql ← q.compile run "compile_select" fun g attached query => g.selectSql attached
        (if chosen.isEmpty then query else { query with columns := some shown })
      let values ← q.bindings
      return ⟨← q.needConnection, sql, values⟩ : Action Inquiry).runOn s =
        (s.inquiry q (chosen.map s.shown), s) := by
    rw [Action.runOn_bind_ok (Value.mapM_shown_runOn chosen s)]
    unfold Store.inquiry
    cases hsql : s.listedSql q (chosen.map s.shown) with
    | error e =>
      rw [hsql] at hcompile
      exact Action.runOn_bind_error hcompile
    | ok sql =>
      rw [hsql] at hcompile
      have hvalues : q.bindings.runOn s = (.ok (s.query q).bindings.flatten, s) := rfl
      rw [Action.runOn_bind_ok hcompile, Action.runOn_bind_ok hvalues]
      have hconnection := q.needConnection_runOn s
      cases hc : (s.query q).connection with
      | none =>
        rw [hc] at hconnection
        exact Action.runOn_bind_error hconnection
      | some c =>
        rw [hc] at hconnection
        exact Action.runOn_bind_ok hconnection
  split at hchosen
  · rename_i hnone
    rw [if_pos hnone, Action.runOn_bind_ok hchosen]
    exact hrest
  · rename_i hsome
    subst hchosen
    rw [if_neg hsome]
    exact hrest

/-- A question that cannot be put is not put. -/
theorem QueryId.get_of_error {columns : Value} {e : Failure}
    (h : (q.inquire run columns).runOn s = (.error e, s)) :
    (q.get run columns).runOn s = (.error e, s) := by
  rw [q.get_eq]
  exact Action.runOn_bind_error h

theorem QueryId.get_of_ok {columns : Value} {i : Inquiry}
    (h : (q.inquire run columns).runOn s = (.ok i, s)) :
    (q.get run columns).runOn s = i.rows.runOn s := by
  rw [q.get_eq]
  exact Action.runOn_bind_ok h

/-! ## Answers -/

/-- What a connection makes of the answer of its engine. -/
def Inquiry.answer (i : Inquiry) : Outcome → Except Failure (List Row)
  | .accepted result => .ok (ConnectionId.readRows result)
  | .rejected reason => .error (.rejected reason (.text i.sql) i.values)

/-- What is sent for a question, or why nothing is. -/
def Store.prepared (s : Store) (i : Inquiry) : Except Failure Prepared :=
  s.prepare i.connection (.text i.sql) (.list i.values)

theorem ran_itemsOrNone_list (vs : List Value) (s : Store) :
    Ran (Value.list vs).itemsOrNone s vs s := by
  rw [Value.itemsOrNone_list]
  rfl

/-- A question that can be sent gets what the engine answers. -/
theorem Inquiry.rows_of_ok {i : Inquiry} {sent : Prepared} (h : s.prepared i = .ok sent) :
    (i.rows.runOn s).1 = i.answer sent.engine.answer.1 ∧
      (i.rows.runOn s).2.sent = s.sent.push sent.statement := by
  obtain ⟨hengine, hvalues, hstatement⟩ := Store.prepare_ok h
  have hsame : sent.values = i.values := by
    rw [Value.itemsOrNone_list] at hvalues
    exact (Except.ok.inj (congrArg Prod.fst hvalues)).symm
  unfold rows ConnectionId.select ConnectionId.run
  rw [Action.runOn_bind_ok (ConnectionId.engine_runOn hengine), Action.runOn_bind_ok hvalues,
    Action.runOn_bind_ok (Value.shown_runOn _ s), hstatement,
    Action.runOn_bind_ok (Action.ofExcept_runOn _ s),
    Action.runOn_bind_ok (ConnectionId.send_runOn _ _ _ s), hsame]
  cases sent.engine.answer.1 <;> exact ⟨rfl, rfl⟩

/-- A question that cannot be sent fails, and nothing is sent. -/
theorem Inquiry.rows_of_error {i : Inquiry} {e : Failure} (h : s.prepared i = .error e) :
    i.rows.runOn s = (.error e, s) :=
  ConnectionId.run_of_error h

/-- The same question is sent as the same statement, and gets the same answer. -/
theorem Inquiry.rows_same (i : Inquiry)
    (hconnection : s'.connection i.connection = s.connection i.connection)
    (hsent : s'.sent = s.sent) :
    (i.rows.runOn s').2.sent = (i.rows.runOn s).2.sent ∧
      (i.rows.runOn s').1.toOption = (i.rows.runOn s).1.toOption := by
  have hsame : (s'.prepared i).toOption = (s.prepared i).toOption := by
    cases hengine : (s.connection i.connection).engine with
    | none =>
      have hnone : ∀ s : Store, (s.connection i.connection).engine = none →
          (s.prepared i).toOption = none := by
        intro s h
        unfold Store.prepared Store.prepare
        rw [h]
        rfl
      rw [hnone s hengine, hnone s' (hconnection ▸ hengine)]
    | some engine =>
      unfold Store.prepared
      rw [Store.prepare_eq hengine (ran_itemsOrNone_list i.values s),
        Store.prepare_eq (hconnection ▸ hengine) (ran_itemsOrNone_list i.values s'),
        Store.shown_data s rfl, Store.shown_data s' rfl]
  cases h : s.prepared i with
  | error e =>
    cases h' : s'.prepared i with
    | error e' =>
      rw [rows_of_error h, rows_of_error h']
      exact ⟨hsent, rfl⟩
    | ok sent' =>
      rw [h, h'] at hsame
      exact nomatch hsame
  | ok sent =>
    have h' : s'.prepared i = .ok sent := by
      rw [h] at hsame
      cases h' : s'.prepared i with
      | error e' => rw [h'] at hsame; exact nomatch hsame
      | ok sent' =>
        rw [h'] at hsame
        exact congrArg Except.ok (Option.some.inj hsame)
    obtain ⟨hanswer, hpushed⟩ := rows_of_ok h
    obtain ⟨hanswer', hpushed'⟩ := rows_of_ok h'
    rw [hanswer, hanswer', hpushed, hpushed', hsent]
    exact ⟨rfl, rfl⟩

end

/-! ## A query with a database -/

/-- A store with one query, on a connection whose engine answers one statement with some rows. -/
def Store.answering (query : Query) (rows : List Row) : Store where
  queries := #[{ query with connection := some ⟨0⟩, grammar := .grammar ⟨0⟩ }]
  grammars := #[{ dialect := .ansi }]
  connections := #[{ engine := some { outcomes := [.accepted { rows, returnsRows := true }] },
                     database := .null, tablePrefix := .text "", name := .text "main",
                     grammar := .grammar ⟨0⟩, logging := false }]
  settings :=
    { database := ⟨"sqlite", "localhost", none, "", "", ":memory:", ""⟩
      logging := ⟨"INFO", none, "logs", true, false⟩ }

/-- A query that refers to no object of its own can be copied and compiled there. -/
theorem Store.Clonable.answering {query : Query} (rows : List Row)
    (halone : ∀ x ∈ ((Store.answering query rows).query ⟨0⟩).handles, x.owner? = none ∧ x.IsCopied)
    (hdata : ∀ v ∈ query.bindings.flatten, v.handles = []) :
    (Store.answering query rows).Clonable ⟨0⟩ := by
  refine .of_later ⟨?_, fun _ _ h => (nomatch h), fun _ => rfl⟩ ⟨⟨0⟩, rfl, Nat.zero_lt_one⟩
    Nat.zero_lt_one ?_ ?_ hdata
  · rintro ⟨_ | n⟩
    · exact ⟨⟨0⟩, rfl⟩
    · exact ⟨⟨0⟩, rfl⟩
  · rintro ⟨_ | n⟩ hlt x hx
    · obtain ⟨howner, hcopied⟩ := halone x hx
      refine ⟨hcopied, ?_⟩
      rintro b rfl
      exact nomatch howner
    · exact absurd hlt (Nat.not_lt_of_le (Nat.le_add_left 1 n))
  · rintro c ⟨⟩
    exact Nat.zero_lt_one

/-- The query of a table. -/
def Query.ofTable (table : String) : Query :=
  { connection := none, grammar := .grammar ⟨0⟩, source := .text table }

/-- The texts of the statements that were sent. -/
def Store.sentTexts (s : Store) : List String :=
  s.sent.toList.map (·.sql.display)

end FluentSql
