import FluentSql.Proofs.Boundary.Reading
import FluentSql.Proofs.Reaching

/-!
# Copying within a boundary

The copy of a query takes along what is reachable from it.  Of a query that is
not hidden nothing hidden is reachable, so the copies refer to nothing hidden,
and what is there stays as it is.

* `Boundary.AdmitsQuery.rename` is a query in which other objects take the
  place of its own.
* `Boundary.Guards.reachable` is about what is reachable.
* `within_copy` is the copy: a query that is not kept.
-/

namespace FluentSql

variable {b : Boundary}

/-! ## Renamed queries -/

namespace Boundary

/-- What takes the place of an object that is not hidden refers to nothing hidden. -/
structure AdmitsRenaming (b : Boundary) (r : Renaming) : Prop where
  query : ∀ id, ¬b.hidden id → ¬b.hidden (r.query id)
  bindings : ∀ id, ¬b.hidden id → b.Admits (r.bindings id)

variable {r : Renaming}

theorem AdmitsRenaming.handle (h : b.AdmitsRenaming r) {handle : Handle} (hh : ¬b.Hides handle) :
    b.Admits (r.handle handle) := by
  cases handle with
  | query id => exact admits_object.2 (h.query id hh)
  | bindings id => exact h.bindings id hh
  | _ => exact admits_object.2 fun h => h

theorem AdmitsRenaming.value (h : b.AdmitsRenaming r) {v : Value} (hv : b.Admits v) :
    b.Admits (r.value v) :=
  Value.admits_substitute v fun handle hmem => h.handle (hv handle hmem)

theorem AdmitsRenaming.compiler (h : b.AdmitsRenaming r) {c : Compiler} (hc : ¬b.Hides c.handle) :
    ¬b.Hides (r.compiler c).handle := by
  cases c with
  | query id => exact h.query id hc
  | _ => exact id

/-- A query in which other objects take the place of its own. -/
theorem AdmitsQuery.rename {q : Query} (h : b.AdmitsQuery q) (hr : b.AdmitsRenaming r) :
    b.AdmitsQuery (q.rename r) := by
  rw [← allows_query, Query.handles_rename]
  exact allows_flatMap.2 fun handle hmem => hr.handle (allows_query.2 h handle hmem)

/-! ## What is reachable -/

variable {s : Store}

/-- An object that is not hidden refers to nothing hidden. -/
theorem Guards.handlesOf (hs : b.Guards s) {handle : Handle} (h : ¬b.Hides handle) :
    b.Allows (s.handlesOf handle) := by
  cases handle with
  | query id => exact allows_query.2 (hs.queries id h)
  | bindings id => exact allows_all.2 (admitsBindings_flatten.2 (hs.queries id h).bindings)
  | connection id => exact allows_singleton.2 (hs.connections id)
  | resolver id => exact allows_entries.2 (hs.resolvers id)
  | _ => exact allows_nil

/-- Nothing hidden is reachable from a query that is not hidden. -/
theorem Guards.reachable (hs : b.Guards s) {q : QueryId} (h : ¬b.hidden q) :
    b.Allows (s.reachable (Store.sharedBy (s.query q)) q) := by
  intro handle hmem
  have hself : ∀ x ∈ [Handle.query q], ¬b.Hides x := List.forall_mem_singleton.2 h
  have hshared : ∀ x ∈ Store.sharedBy (s.query q), ¬b.Hides x := by
    refine List.forall_mem_append.2 ⟨fun x hx => ?_, ?_⟩
    · obtain ⟨c, _, rfl⟩ := List.mem_map.1 hx
      exact id
    · exact List.forall_mem_singleton.2 (hs.queries q h).grammar
  exact Store.reachFrom_forall (fun x hx y hy => hs.handlesOf hx y hy)
    (List.forall_mem_append.2 ⟨hshared, hself⟩) hself handle (List.mem_of_mem_drop hmem)

theorem Guards.queriesIn_reachable (hs : b.Guards s) {q : QueryId} (h : ¬b.hidden q) :
    ∀ id ∈ Store.queriesIn (s.reachable (Store.sharedBy (s.query q)) q), ¬b.hidden id := by
  intro id hid
  obtain ⟨handle, hmem, hsome⟩ := List.mem_filterMap.1 hid
  have hhandle := hs.reachable h handle hmem
  cases handle with
  | query a =>
    cases hsome
    exact hhandle
  | _ => exact nomatch hsome

/-! ## Copies -/

variable {handles : List Handle}

/-- A query or its copy. -/
theorem Guards.copyRenaming_query (hs : b.Guards s) {id : QueryId} (h : ¬b.hidden id) :
    ¬b.hidden ((s.copyRenaming handles).query id) := by
  show ¬b.hidden ⟨Store.placeFor (Store.queriesIn handles) s.queries.size (·.index) id⟩
  rcases Store.placeFor_cases (Store.queriesIn handles) s.queries.size (·.index) id with
    ⟨k, _, hplace⟩ | ⟨_, hplace⟩
  · rw [hplace]
    refine not_hidden_of_not_kept (not_kept_of_le ?_)
    exact Nat.le_trans hs.start_le (Nat.le_add_right _ k)
  · rw [hplace]
    exact h

theorem Guards.copiedBindings (hs : b.Guards s) (fuel : Nat) {id : QueryId} (h : ¬b.hidden id) :
    b.Admits (s.copiedBindings handles fuel id) := by
  induction fuel generalizing id with
  | zero => exact admits_object.2 h
  | succ fuel ih =>
    unfold Store.copiedBindings
    dsimp only
    split
    · exact admits_object.2 (hs.copyRenaming_query h)
    · have hr : b.AdmitsRenaming
          { s.objectRenaming handles with bindings := s.copiedBindings handles fuel } :=
        { query := fun _ hid => hs.copyRenaming_query hid
          bindings := fun _ hid => ih hid }
      exact hr.value (admits_map.2 (hs.queries id h).bindings.entries)

theorem Guards.copyRenaming (hs : b.Guards s) : b.AdmitsRenaming (s.copyRenaming handles) where
  query _ h := hs.copyRenaming_query h
  bindings _ h := hs.copiedBindings _ h

/-- The store with the copies of objects that are not hidden. -/
theorem Guards.addCopies (hs : b.Guards s)
    (h : ∀ id ∈ Store.queriesIn handles, ¬b.hidden id) : b.Guards (s.addCopies handles) where
  start_le := by
    rw [Store.size_addCopies]
    have := hs.start_le
    omega
  world := hs.world
  queries id hid := by
    by_cases hlt : id.index < (s.addCopies handles).queries.size
    · rcases Store.old_or_copy hlt with hold | ⟨k, source, hk, rfl⟩
      · rw [Store.query_addCopies_of_lt hold]
        exact hs.queries id hid
      · rw [Store.query_addCopies_copy hk]
        exact (hs.queries source (h source (List.mem_of_getElem? hk))).rename hs.copyRenaming
    · -- Beyond the last query both stores show a default.
      have hge : s.queries.size ≤ id.index := by
        rw [Store.size_addCopies] at hlt
        omega
      rw [Store.query_of_le (Nat.le_of_not_lt hlt), ← Store.query_of_le hge]
      exact hs.queries id hid
  connections id := by
    unfold Store.addCopies Store.connection
    dsimp only
    by_cases hlt : id.index < s.connections.size
    · rw [Array.getElem?_append_left hlt]
      exact hs.connections id
    · rw [Array.getElem?_append_right (Nat.le_of_not_lt hlt), List.getElem?_toArray,
        List.getElem?_map]
      cases (Store.connectionsIn handles)[id.index - s.connections.size]? with
      | none => exact fun h => h
      | some source => exact hs.copyRenaming.compiler (hs.connections source)
  resolvers id := by
    unfold Store.addCopies Store.resolver
    dsimp only
    by_cases hlt : id.index < s.resolvers.size
    · rw [Array.getElem?_append_left hlt]
      exact hs.resolvers id
    · rw [Array.getElem?_append_right (Nat.le_of_not_lt hlt), List.getElem?_toArray,
        List.getElem?_map]
      cases (Store.resolversIn handles)[id.index - s.resolvers.size]? with
      | none => exact fun _ h => nomatch h
      | some source =>
        refine Value.admits_substituteEntries _ fun handle hmem => hs.copyRenaming.handle ?_
        exact allows_entries.2 (hs.resolvers source) handle hmem
  answers := hs.answers

/-- The copies change nothing that is there. -/
theorem Guards.step_addCopies (hs : b.Guards s) : b.Step s (s.addCopies handles) where
  size_le := by
    rw [Store.size_addCopies]
    omega
  kept id hid := Store.query_addCopies_of_lt (Nat.lt_of_lt_of_le (b.lt_of_kept hid) hs.start_le)
  kind id hid := by rw [Store.query_addCopies_of_lt hid]
  steady _ :=
    { size_le := by
        unfold Store.addCopies
        dsimp only
        rw [Array.size_append]
        omega
      grammars := fun id hid => by
        unfold Store.addCopies Store.grammar
        dsimp only
        rw [Array.getElem?_append_left hid]
      extensions := rfl }

end Boundary

/-! ## The copy of a query -/

private theorem run_get_bind {α : Type} (f : Store → Action α) (s : Store) :
    (get >>= f).run.run s = (f s).run.run s := rfl

private theorem run_set_pure {α : Type} (s s' : Store) (v : α) :
    (do set s'; pure v : Action α).run.run s = (.ok v, s') := rfl

private theorem run_throw_bind {α β : Type} (e : Failure) (f : α → Action β) (s : Store) :
    (throw e >>= f).run.run s = (.error e, s) := rfl

/-- The copy of a query is a query that is not kept. -/
theorem within_copy {q : QueryId} (h : ¬b.hidden q) : q.copy.Within b fun id => ¬b.kept id := by
  intro s hs
  unfold QueryId.copy
  rw [run_get_bind]
  dsimp only
  split
  · rw [run_throw_bind]
    exact ⟨hs, .refl s, fun _ hid => nomatch hid⟩
  · rw [run_set_pure]
    refine ⟨hs.addCopies (hs.queriesIn_reachable h), hs.step_addCopies, fun id hid => ?_⟩
    obtain ⟨found, _, hfound, _⟩ := s.reachable_eq (Store.sharedBy (s.query q)) q
    rcases Store.placeFor_cases
        (Store.queriesIn (s.reachable (Store.sharedBy (s.query q)) q)) s.queries.size (·.index) q with
      ⟨k, _, hplace⟩ | ⟨hnot, _⟩
    · have hcopy : id = ⟨s.queries.size + k⟩ :=
        (Except.ok.inj hid).symm.trans (congrArg QueryId.mk hplace)
      rw [hcopy]
      exact Boundary.not_kept_of_le (Nat.le_trans hs.start_le (Nat.le_add_right _ k))
    · -- The query itself is always copied.
      rw [hfound] at hnot
      exact absurd List.mem_cons_self hnot

end FluentSql
