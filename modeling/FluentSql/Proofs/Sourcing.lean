import FluentSql.Proofs.Asking
import FluentSql.Proofs.Rejecting.SubQueries

/-!
# Replaced sources

A query has one source, and the call that sets it replaces the one before.
The values of the source are added to those of all earlier ones.

* `FluentCall.sourcing` is the source of a call with its values, and
  `FluentCall.ran_perform_source` says that the call puts them in place.
* `SetsSources` is a run of calls that set the source, and
  `SetsSources.source_eq` is what it leaves.
* `sources_match_iff` is the result: the values are those of the last source
  only if there were none before.
-/

namespace FluentSql

/-! ## Calls that set the source -/

namespace FluentCall

/-- Compiles a sub-query as a source, under a name. -/
def subSource (run : Runner) (q : QueryId) (query name : Value) : Action (Value × List Value) := do
  let sub ← q.createSub run query
  let name ← q.wrappedTable name
  return (.raw (.text ("(" ++ sub.sql ++ ") as " ++ name)), sub.bindings)

/-- The source of a call that sets it, with the values of its placeholders. -/
def sourcing (run : Runner) (q : QueryId) : FluentCall → Action (Value × List Value)
  | setSource table name =>
    if table.isQueryable then subSource run q table name
    else if name.truthy then do
      let text := (← table.displayNow) ++ " as " ++ (← name.displayNow)
      return (.text text, [])
    else return (table, [])
  | fromSub query name => subSource run q query name
  | fromRaw sql bindings => do return (.raw sql, ← bindings.itemsOrNone)
  | _ => throw .wrongType

/-- The call sets the source. -/
def setsSource : FluentCall → Bool
  | setSource .. | fromSub .. | fromRaw .. => true
  | _ => false

end FluentCall

/-- The query with a source in the place of another, and with its values after those there are. -/
def Query.putSource (source : Value × List Value) (query : Query) : Query :=
  ({ query with source := source.1 }).bind .source source.2

section

variable {run : Runner} {q : QueryId} {s s' s1 : Store}

/-- What a value is read as does not depend on the source of a query. -/
theorem ran_itemsOrNone_edit {v : Value} {vs : List Value} {source : Value}
    (h : Ran v.itemsOrNone (s.edit q fun query => { query with source }) vs s') :
    s' = (s.edit q fun query => { query with source }) ∧ Ran v.itemsOrNone s vs s := by
  have hbindings : ∀ id, ((s.edit q fun query => { query with source }).query id).bindings =
      (s.query id).bindings := by
    intro id
    obtain heq | ⟨_, _, heq⟩ := s.query_edit_cases q (fun query => { query with source }) id <;>
      rw [heq]
  unfold Value.itemsOrNone at h ⊢
  split at h
  · rename_i htruthy
    rw [if_pos htruthy]
    unfold Value.itemsNow Value.now at h ⊢
    split at h
    · simp only [ran_bind, ran_read, ran_pure, ran_ofExcept] at h ⊢
      obtain ⟨_, _, ⟨_, _, ⟨rfl, rfl⟩, rfl, rfl⟩, hitems, rfl⟩ := h
      exact ⟨rfl, _, _, ⟨_, _, ⟨rfl, rfl⟩, rfl, rfl⟩, by rwa [hbindings] at hitems, rfl⟩
    · simp only [ran_bind, ran_pure, ran_ofExcept] at h ⊢
      obtain ⟨_, _, ⟨rfl, rfl⟩, hitems, rfl⟩ := h
      exact ⟨rfl, _, _, ⟨rfl, rfl⟩, hitems, rfl⟩
  · rename_i htruthy
    rw [if_neg htruthy]
    obtain ⟨rfl, rfl⟩ := ran_pure.1 h
    exact ⟨rfl, ran_pure.2 ⟨rfl, rfl⟩⟩

theorem ran_fromRaw {sql bindings : Value} {u : Unit} (h : Ran (q.fromRaw sql bindings) s u s') :
    ∃ vs, Ran bindings.itemsOrNone s vs s ∧ s' = s.edit q (Query.putSource (.raw sql, vs)) := by
  unfold QueryId.fromRaw QueryId.bind at h
  simp only [ran_bind, ran_modify] at h
  obtain ⟨_, _, rfl, vs, _, hran, rfl⟩ := h
  obtain ⟨rfl, hvs⟩ := ran_itemsOrNone_edit hran
  exact ⟨vs, hvs, Store.edit_edit _ _ _ _⟩

theorem ran_fromSub {query name : Value} {u : Unit} (h : Ran (q.fromSub run query name) s u s') :
    ∃ source s1, Ran (FluentCall.subSource run q query name) s source s1 ∧
      s' = s1.edit q (Query.putSource source) := by
  unfold QueryId.fromSub at h
  simp only [ran_bind] at h
  obtain ⟨sub, s1, hsub, wrapped, s2, hwrapped, h⟩ := h
  obtain ⟨vs, hvs, rfl⟩ := ran_fromRaw h
  rw [Value.itemsOrNone_list] at hvs
  obtain ⟨rfl, _⟩ := ran_pure.1 hvs
  refine ⟨_, s2, ?_, rfl⟩
  unfold FluentCall.subSource
  simp only [ran_bind, ran_pure]
  exact ⟨sub, s1, hsub, wrapped, s2, hwrapped, rfl, rfl⟩

/-- A call that sets the source puts its own source in the place of the one before, and adds its own
values. -/
theorem FluentCall.ran_perform_source {c : FluentCall} (hc : c.setsSource) {u : Unit}
    (h : Ran (c.perform run q) s u s') :
    ∃ source s1, Ran (c.sourcing run q) s source s1 ∧ s' = s1.edit q (Query.putSource source) := by
  have hplain : ∀ (t : Store) (source : Value),
      t.edit q (fun query => { query with source }) = t.edit q (Query.putSource (source, [])) :=
    fun t source => congrArg (t.edit q) (funext fun query => (Query.bind_nil _ _).symm)
  cases c with
  | fromSub query name => exact ran_fromSub h
  | fromRaw sql bindings =>
    obtain ⟨vs, hvs, rfl⟩ := ran_fromRaw h
    refine ⟨_, s, ?_, rfl⟩
    unfold FluentCall.sourcing
    simp only [ran_bind, ran_pure]
    exact ⟨vs, s, hvs, rfl, rfl⟩
  | setSource table name =>
    unfold FluentCall.perform QueryId.setSource at h
    unfold FluentCall.sourcing
    dsimp only at h ⊢
    split at h
    · rename_i hqueryable
      rw [if_pos hqueryable]
      split at h
      · exact absurd h ran_throw
      · exact ran_fromSub h
    · rename_i hqueryable
      rw [if_neg hqueryable]
      split at h
      · rename_i htruthy
        rw [if_pos htruthy]
        simp only [ran_bind, ran_pure, ran_modify] at h ⊢
        obtain ⟨first, s1, hfirst, second, s2, hsecond, _, _, ⟨rfl, rfl⟩, rfl⟩ := h
        exact ⟨_, _, ⟨first, s1, hfirst, second, _, hsecond, rfl, rfl⟩, hplain _ _⟩
      · rename_i htruthy
        rw [if_neg htruthy]
        simp only [ran_bind, ran_pure, ran_modify] at h
        obtain ⟨_, _, ⟨rfl, rfl⟩, rfl⟩ := h
        exact ⟨_, _, ran_pure.2 ⟨rfl, rfl⟩, hplain _ _⟩
  | _ => cases hc

end

/-! ## Runs of calls -/

/-- Some calls set the source, one after another: what they set, and the store afterwards. -/
inductive SetsSources (run : Runner) (q : QueryId) :
    Store → List FluentCall → List (Value × List Value) → Store → Prop
  /-- There is no call. -/
  | nil (s : Store) : SetsSources run q s [] [] s
  /-- A call comes before others. -/
  | cons {s s1 s' : Store} {c : FluentCall} {source : Value × List Value}
      {calls : List FluentCall} {sources : List (Value × List Value)} (hc : c.setsSource)
      (hperform : Ran (c.perform run q) s () s1)
      (hsource : ((c.sourcing run q).runOn s).1 = .ok source)
      (rest : SetsSources run q s1 calls sources s') :
      SetsSources run q s (c :: calls) (source :: sources) s'

section

variable {run : Runner} {world : Array Callback → Prop} {q : QueryId} {s s' s1 : Store}

/-- The sub-queries and the callbacks of a source are not the query itself. -/
theorem keeps_sourcing (hrun : run.ActsOnReceiver world) (c : FluentCall) :
    (c.sourcing run q).Keeps (Preserving.boundary run world s) := by
  have hany := Preserving.admits run world s
  have hsub : ∀ query name, (FluentCall.subSource run q query name).Keeps
      (Preserving.boundary run world s) := fun query name =>
    (within_createSub (Preserving.runs run world s hrun) not_false (hany query)).keeps.next
      fun _ => (keeps_wrappedTable q name).next fun _ => within_pure trivial
  cases c with
  | fromSub query name => exact hsub query name
  | fromRaw sql bindings =>
    exact (within_itemsOrNone (hany bindings)).keeps.next fun _ => within_pure trivial
  | setSource table name =>
    unfold FluentCall.sourcing
    dsimp only
    split
    · exact hsub table name
    · split
      · exact (keeps_displayNow _).next fun _ => (keeps_displayNow _).next fun _ =>
          within_pure trivial
      · exact within_pure trivial
  | _ => exact within_throw _

/-- What one call does to the query. -/
theorem FluentCall.query_perform_source (hrun : run.ActsOnReceiver world)
    (hq : q.index < s.queries.size) {t t' : Store}
    (ht : (Preserving.boundary run world s).Guards t) {c : FluentCall} (hc : c.setsSource)
    {source : Value × List Value} (hsource : ((c.sourcing run q).runOn t).1 = .ok source)
    (hperform : Ran (c.perform run q) t () t') :
    (Preserving.boundary run world s).Guards t' ∧
      t'.query q = (t.query q).putSource source := by
  obtain ⟨found, t1, hran, rfl⟩ := FluentCall.ran_perform_source hc hperform
  have hkeeps := keeps_sourcing (s := s) (q := q) hrun c t ht
  have hrun1 : (c.sourcing run q).runOn t = (.ok found, t1) := hran
  rw [show (c.sourcing run q).run.run t = (.ok found, t1) from hran] at hkeeps
  rw [hrun1] at hsource
  cases hsource
  obtain ⟨hguards, hstep, _⟩ := hkeeps
  refine ⟨Preserving.guards_edit hguards _, ?_⟩
  rw [Store.query_edit_self (Nat.lt_of_lt_of_le hq hguards.start_le), hstep.kept q hq]

/-- After a run the source is the last one, and the values of all of them have been added. -/
theorem SetsSources.source_eq (hrun : run.ActsOnReceiver world) (hq : q.index < s.queries.size)
    {t t' : Store} {calls : List FluentCall} {sources : List (Value × List Value)}
    (h : SetsSources run q t calls sources t')
    (ht : (Preserving.boundary run world s).Guards t) :
    (t'.query q).source = (sources.getLast?.map (·.1)).getD (t.query q).source ∧
      (t'.query q).bindings.source = (t.query q).bindings.source ++ sources.flatMap (·.2) := by
  induction h with
  | nil t => exact ⟨rfl, (List.append_nil _).symm⟩
  | @cons t t1 t' c source calls sources hc hperform hsource rest ih =>
    obtain ⟨hguards, hquery⟩ := FluentCall.query_perform_source hrun hq ht hc hsource hperform
    obtain ⟨hlast, hvalues⟩ := ih hguards
    rw [hlast, hvalues, hquery]
    refine ⟨?_, ?_⟩
    · cases sources with
      | nil => rfl
      | cons source' sources => rw [List.getLast?_cons_cons]; rfl
    · rw [List.flatMap_cons, ← List.append_assoc]
      rfl

/-- After some calls have set the source, its values are those of the last one, after all values
that were there and those of all earlier calls.  So they are those of the last source, and as many
as the placeholders in its clause, if and only if there were no others.  The text of the last source
is taken to have as many placeholders as it has values. -/
theorem sources_match_iff (hrun : run.ActsOnReceiver world) (hworld : world s.callbacks)
    (hanswers : ∀ (request : Request) callback, s.extension? request.name = some callback →
      run.LeavesQueries world callback) (hq : q.index < s.queries.size)
    {calls : List FluentCall} {sources : List (Value × List Value)} {last : Value × List Value}
    (h : SetsSources run q s calls (sources ++ [last]) s') {g : Grammar} {clause : String}
    (hclause : g.sourceSql last.1 = .ok clause)
    (hmatch : marks none clause.toList = last.2.length) :
    g.sourceSql (s'.query q).source = .ok clause ∧
      (s'.query q).bindings.source =
        (s.query q).bindings.source ++ sources.flatMap (·.2) ++ last.2 ∧
      ((s'.query q).bindings.source = last.2 ↔
        (s.query q).bindings.source = [] ∧ ∀ source ∈ sources, source.2 = []) ∧
      (marks none clause.toList = (s'.query q).bindings.source.length ↔
        (s.query q).bindings.source = [] ∧ ∀ source ∈ sources, source.2 = []) := by
  have hguards := (Preserving.guards_iff run world s).2 ⟨Nat.le_refl _, hworld, hanswers⟩
  obtain ⟨hsource, hvalues⟩ := h.source_eq hrun hq hguards
  have hlast : (s'.query q).source = last.1 := by
    rw [hsource, List.getLast?_concat]
    rfl
  have hall : (s'.query q).bindings.source =
      (s.query q).bindings.source ++ sources.flatMap (·.2) ++ last.2 := by
    rw [hvalues, List.flatMap_append, List.append_assoc]
    simp
  have hnone : (s.query q).bindings.source ++ sources.flatMap (·.2) = [] ↔
      (s.query q).bindings.source = [] ∧ ∀ source ∈ sources, source.2 = [] := by
    rw [List.append_eq_nil_iff, List.flatMap_eq_nil_iff]
  refine ⟨hlast ▸ hclause, hall, ?_, ?_⟩
  · rw [hall, List.append_left_eq_self]
    exact hnone
  · rw [hall, hmatch, List.length_append, ← hnone, ← List.length_eq_zero_iff]
    omega

end

/-! ## Two sources -/

namespace ReplacedSource

/-- A fragment with a placeholder and its value. -/
def fragment : FluentCall := .fromRaw (.text "series(?)") (.list [.int 1])

/-- A table. -/
def table : FluentCall := .setSource (.text "orders") .null

/-- Every callback drops duplicate rows. -/
def run : Runner := fun _ q _ => q.after q.distinct

/-- The store after two calls on the query of a store. -/
def after (first second : FluentCall) : Store :=
  ((do first.perform run ⟨0⟩; second.perform run ⟨0⟩).runOn (Store.ofTable "users")).2

theorem sets_fragment : SetsSources run ⟨0⟩ (Store.ofTable "users") [table, fragment]
    [(.text "orders", []), (.raw (.text "series(?)"), [.int 1])] (after table fragment) :=
  .cons rfl rfl rfl (.cons rfl rfl rfl (.nil _))

theorem sets_table : SetsSources run ⟨0⟩ (Store.ofTable "users") [fragment, table]
    [(.raw (.text "series(?)"), [.int 1]), (.text "orders", [])] (after fragment table) :=
  .cons rfl rfl rfl (.cons rfl rfl rfl (.nil _))

end ReplacedSource

section

open ReplacedSource

/-- A fragment in the place of a table has its own value only. -/
theorem sources_match_iff_fragment :
    ((after table fragment).query ⟨0⟩).bindings.source = [.int 1] := by
  have hrun : run.ActsOnReceiver fun _ => True := fun _ q _ s _ =>
    ⟨trivial, s.onlyChanged_edit q fun _ => rfl⟩
  have hanswers : ∀ (request : Request) (callback : CallbackId),
      (Store.ofTable "users").extension? request.name = some callback →
        run.LeavesQueries (fun _ => True) callback := fun _ _ h => nomatch h
  have hclause : ({ dialect := .sqlite } : Grammar).sourceSql (.raw (.text "series(?)")) =
      .ok "from series(?)" := rfl
  have hsets : SetsSources run ⟨0⟩ (Store.ofTable "users") [table, fragment]
      ([(.text "orders", [])] ++ [(.raw (.text "series(?)"), [.int 1])]) (after table fragment) :=
    sets_fragment
  exact (sources_match_iff hrun trivial hanswers (by decide) hsets hclause (by decide)).2.2.1.2
    ⟨rfl, by decide⟩

/-- A table in the place of a fragment leaves the value of the fragment, which has no placeholder
any more. -/
theorem source_keeps_value : ∃ s', SetsSources run ⟨0⟩ (Store.ofTable "users") [fragment, table]
      [(.raw (.text "series(?)"), [.int 1]), (.text "orders", [])] s' ∧
    ({ dialect := .sqlite } : Grammar).sourceSql (s'.query ⟨0⟩).source = .ok "from \"orders\"" ∧
    marks none "from \"orders\"".toList = 0 ∧ (s'.query ⟨0⟩).bindings.source = [.int 1] :=
  ⟨_, sets_table, rfl, by decide, rfl⟩

end

end FluentSql
