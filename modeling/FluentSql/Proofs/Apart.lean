import FluentSql.Proofs.Boundary.Calls
import FluentSql.Proofs.Reaching
import FluentSql.Proofs.Resembling.Selecting
import FluentSql.Script.Session

/-!
# Calls on one side of a store

Two queries are apart if no query is reached from both.  Calls that only meet
queries apart from another one do not change it, nor anything that it refers
to, so its SQL and its bindings stay the same.

* `Store.Orderly` and `Store.Whole` say what is expected of a store and of a
  query: they refer to objects of the right kinds that are there.
* `Store.Apart` is the relation, and `Store.beyond` the boundary that hides
  what is not apart from a query.
* `Store.Calls` are calls, one after the other, that keep to a boundary.
* `Store.Calls.query_eq` and `Store.Calls.toSql_eq` say what such calls leave
  the same.
-/

namespace FluentSql

/-- The query that an object is, or whose bindings it is. -/
def Handle.owner? : Handle → Option QueryId
  | .query id | .bindings id => some id
  | _ => none

namespace Store

/-! ## Stores in order -/

/-- Connections have grammars, registries of connections hold no queries, and no extension answers
requests. -/
structure Orderly (s : Store) : Prop where
  connections : ∀ id, ∃ g, (s.connection id).grammar = .grammar g
  resolvers : ∀ id, ∀ h ∈ Value.handlesOfEntries (s.resolver id).connections, h.owner? = none
  silent : ∀ request : Request, s.extension? request.name = none

/-- A query has a grammar, all queries that it refers to are there, and it follows the bindings of
none. -/
structure Whole (s : Store) (q : QueryId) : Prop where
  grammar : ∃ g, (s.query q).grammar = .grammar g ∧ g.index < s.grammars.size
  queries : ∀ id, s.Reaches (.query q) (.query id) → id.index < s.queries.size
  plain : ∀ id, ¬s.Reaches (.query q) (.bindings id)

/-- No query is reached from both. -/
def Apart (s : Store) (root id : QueryId) : Prop :=
  ∀ x, s.Reaches (.query id) (.query x) → ¬s.Reaches (.query root) (.query x)

/-- The boundary that hides the queries of a store that are not apart from a query, as long as the
callbacks that there are satisfy a condition. -/
def beyond (s : Store) (world : Array Callback → Prop) (root : QueryId) : Boundary where
  start := s.queries.size
  kept id := id.index < s.queries.size ∧ ¬s.Apart root id
  hidden id := id.index < s.queries.size ∧ ¬s.Apart root id
  trusted _ := False
  steady := True
  world := world
  kept_of_hidden h := h
  lt_of_kept h := h.1

variable {s t : Store} {world : Array Callback → Prop} {root id : QueryId}

theorem Apart.of_reaches {x : QueryId} (h : s.Apart root id)
    (hx : s.Reaches (.query id) (.query x)) : s.Apart root x :=
  fun y hy => h y (hx.trans hy)

theorem not_hides_of_owner {h : Handle} (b : Boundary) (hh : h.owner? = none) : ¬b.Hides h := by
  cases h with
  | query id => exact nomatch hh
  | bindings id => exact nomatch hh
  | _ => exact fun h => h

/-- A store in order respects the boundary around any of its queries. -/
theorem Orderly.guards (hs : s.Orderly) (hworld : world s.callbacks) (root : QueryId) :
    (s.beyond world root).Guards s where
  start_le := Nat.le_refl _
  world := hworld
  queries id hid := by
    refine Boundary.allows_query.1 fun h hmem => ?_
    by_cases hlt : id.index < s.queries.size
    · have hapart : s.Apart root id := Classical.byContradiction fun h => hid ⟨hlt, h⟩
      have hreaches : s.Reaches (.query id) h := .step .refl hmem
      cases h with
      | query x => exact fun hx => hx.2 (hapart.of_reaches hreaches)
      | bindings x => exact fun hx => hx.2 (hapart.of_reaches (.owner hreaches))
      | _ => exact fun h => h
    · rw [query_of_le (Nat.le_of_not_lt hlt)] at hmem
      cases List.mem_singleton.1 hmem
      exact fun h => h
  connections id := by
    obtain ⟨g, hg⟩ := hs.connections id
    rw [hg]
    exact fun h => h
  resolvers id := Boundary.allows_entries.1 fun h hmem =>
    not_hides_of_owner _ (hs.resolvers id h hmem)
  answers request callback hcallback := by
    rw [hs.silent] at hcallback
    exact nomatch hcallback

/-! ## Calls -/

/-- Calls of methods, one after the other, whether they succeed or fail.  No call is made on a query
that is kept, and none is given anything hidden. -/
inductive Calls (run : Runner) (b : Boundary) : Store → Store → Prop where
  | nil (s : Store) : Calls run b s s
  | call {s t : Store} {m : Method QueryId} {q : QueryId} {placed : List Value}
      {named : List (String × Value)} (hm : m ∈ queryMethods ++ joinMethods) (hq : ¬b.kept q)
      (hplaced : b.AdmitsAll placed) (hnamed : ∀ x ∈ named, b.Admits x.2)
      (rest : Calls run b ((m.call run q placed named).runOn s).2 t) : Calls run b s t

variable {run : Runner}

/-- Calls keep to a boundary that callbacks keep to. -/
theorem Calls.within {b : Boundary} (hrun : b.Runs run) (hsealed : ∀ id, b.kept id → b.hidden id)
    (h : Calls run b s t) (hs : b.Guards s) : b.Guards t ∧ b.Step s t := by
  induction h with
  | nil s => exact ⟨hs, .refl s⟩
  | @call s t m q placed named hm hq hplaced hnamed _ ih =>
    obtain ⟨hguards, hstep, _⟩ := keeps_call hrun hsealed hm hq hplaced hnamed s hs
    obtain ⟨hguards', hstep'⟩ := ih hguards
    exact ⟨hguards', hstep.trans hstep'⟩

section

variable (hs : s.Orderly) (hworld : world s.callbacks) (hroot : s.Whole root)
  (hrun : (s.beyond world root).Runs run)
  (h : Calls run (s.beyond world root) s t)

include hs hworld hrun h

theorem Calls.step : (s.beyond world root).Step s t :=
  (h.within hrun (fun _ hid => hid) (hs.guards hworld root)).2

include hroot

/-- Calls beyond a query leave the query as it was, and every query that it refers to. -/
theorem Calls.query_eq (hid : s.Reaches (.query root) (.query id)) : t.query id = s.query id :=
  (h.step hs hworld hrun).kept id ⟨hroot.queries id hid, fun hapart => hapart id .refl hid⟩

end

end Store

/-! ## Select statements -/

/-- A compilation that asks nothing is done at once, and nothing changes. -/
theorem consult_runOn {α : Type} (run : Runner)
    {compile : Store → KnownAnswers → Except Failure α} {s : Store}
    (h : AsksNothing (compile s [])) : (consult run compile).runOn s = (compile s [], s) := by
  have hget : ∀ f : Store → Action α, (get >>= f).runOn s = (f s).runOn s := fun _ => rfl
  unfold consult requestLimit
  rw [consultFrom, hget]
  split
  · rename_i q request hask
    exact absurd hask (h q request)
  · rfl

theorem QueryId.toSql_runOn (run : Runner) (q : QueryId) {s : Store}
    (h : AsksNothing (s.settled.compiled [] q "compile_select" Grammar.selectSql)) :
    (q.toSql run).runOn s =
      (s.settled.compiled [] q "compile_select" Grammar.selectSql, s) := by
  show (consult run fun s known =>
    s.settled.compiled known q "compile_select" Grammar.selectSql).runOn s = _
  exact consult_runOn run h

/-- Two select statements that are compiled alike. -/
theorem QueryId.toSql_reproduces {s t : Store} {q q' : QueryId} (run : Runner) {shallow : Prop}
    (h : Reproduces shallow (s.settled.compiled [] q "compile_select" Grammar.selectSql)
      (t.settled.compiled [] q' "compile_select" Grammar.selectSql)) :
    ((q'.toSql run).runOn t).1 = ((q.toSql run).runOn s).1 ∨
      shallow ∧ ((q.toSql run).runOn s).1 = .error (.value .endless) := by
  rw [q.toSql_runOn run h.asksNothing]
  rcases h.same_or_endless with hsame | hendless
  · have hasks := h.asksNothing
    rw [hsame] at hasks ⊢
    rw [q'.toSql_runOn run hasks]
    exact .inl rfl
  · exact .inr hendless

namespace Store

variable {s t : Store} {world : Array Callback → Prop} {root id : QueryId} {run : Runner}

theorem Whole.settled_query (h : s.Whole root) (hid : s.Reaches (.query root) (.query id)) :
    s.settled.query id = s.query id :=
  Store.settled_query fun other hmem => h.plain other (hid.step hmem)

/-- Calls beyond a query leave its select statement as it was, unless compiling it did not come to an
end. -/
theorem Calls.toSql_eq (hs : s.Orderly) (hworld : world s.callbacks) (hroot : s.Whole root)
    (hrun : (s.beyond world root).Runs run) (h : Calls run (s.beyond world root) s t) :
    ((root.toSql run).runOn t).1 = ((root.toSql run).runOn s).1 ∨
      ((root.toSql run).runOn s).1 = .error (.value .endless) := by
  have hstep := h.step hs hworld hrun
  have hsteady := hstep.steady trivial
  have hsilent : ∀ request : Request, t.extension? request.name = none := by
    intro request
    unfold extension?
    rw [hsteady.extensions]
    exact hs.silent request
  have hsettled : ∀ id, s.Reaches (.query root) (.query id) →
      t.settled.query id = s.query id := by
    intro id hid
    have hsame := h.query_eq hs hworld hroot hrun hid
    rw [Store.settled_query, hsame]
    intro other hmem
    rw [hsame] at hmem
    exact hroot.plain other (hid.step hmem)
  have hresembles : Resembles {} (fun id => s.Reaches (.query root) (.query id)) s.settled
      t.settled :=
    { faithful := fun id => ⟨id, rfl⟩
      query := fun id hid => by
        rw [Query.rename_same, hroot.settled_query hid]
        exact hsettled id hid
      attached := fun id hid => by
        rw [hroot.settled_query hid]
        exact Meets.attachedIn fun x hx => hid.step hx
      silent := hs.silent
      silent' := hsilent }
  obtain ⟨g, hg, hlt⟩ := hroot.grammar
  have hgrammar : ∀ method, t.settled.grammarFor (t.settled.query root).grammar method =
      s.settled.grammarFor (s.settled.query root).grammar method := by
    intro method
    have hsame : t.settled.grammar g = s.settled.grammar g := hsteady.grammars g hlt
    rw [hsettled root .refl, hroot.settled_query .refl, hg]
    unfold grammarFor
    dsimp only
    rw [hsame]
  have hsize : s.settled.queries.size ≤ t.settled.queries.size := by
    unfold settled
    rw [Array.size_map, Array.size_map]
    exact hstep.size_le
  have hcompiled : Reproduces True
      (s.settled.compiled [] root "compile_select" Grammar.selectSql)
      (t.settled.compiled [] root "compile_select" Grammar.selectSql) :=
    hresembles.compiled Reaches.refl (.inr ⟨trivial, hsize⟩) hgrammar "compile_select"
  exact (QueryId.toSql_reproduces run hcompiled).imp_right And.right

end Store

end FluentSql
