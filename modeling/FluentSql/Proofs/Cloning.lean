import FluentSql.Proofs.Apart

/-!
# The copy of a query

The copy of a query is equal to it and independent of it.  It has the same SQL
and the same bindings, on the same connection and grammar.  No query is reached
from both, so whatever calls are made on one of the two, or on what it refers
to, the other one stays as it is.

* `Store.copied` are the objects that are copied with a query, `Store.withCopy`
  the store afterwards, and `Store.placing` puts the copies in their places.
* `Store.query_placing` says what the copies are, and `Store.reaches_copy` what
  they refer to.
* `copy_equal_and_independent` is the result.
-/

namespace FluentSql

namespace Store

variable {s : Store} {q a id : QueryId}

/-! ## The store with the copy -/

/-- The objects that are copied with a query. -/
def copied (s : Store) (q : QueryId) : List Handle :=
  s.reachable (sharedBy (s.query q)) q

/-- The store after a query was copied. -/
def withCopy (s : Store) (q : QueryId) : Store :=
  s.addCopies (s.copied q)

/-- Puts the copies that are made with that of a query in the places of what they are copies of. -/
def placing (s : Store) (q : QueryId) : Renaming :=
  let r := s.objectRenaming (s.copied q)
  { r with bindings := fun id => .object (.bindings (r.query id)) }

theorem mem_queriesIn {handles : List Handle} : a ∈ queriesIn handles ↔ .query a ∈ handles := by
  unfold queriesIn
  rw [List.mem_filterMap]
  refine ⟨?_, fun h => ⟨_, h, rfl⟩⟩
  rintro ⟨h, hmem, hsome⟩
  cases h with
  | query b =>
    cases hsome
    exact hmem
  | _ => exact nomatch hsome

theorem mem_copied_self : .query q ∈ s.copied q := by
  obtain ⟨found, _, hfound, _⟩ := s.reachable_eq (sharedBy (s.query q)) q
  unfold copied
  rw [hfound]
  exact List.mem_cons_self

theorem withCopy_query_of_lt (h : id.index < s.queries.size) :
    (s.withCopy q).query id = s.query id :=
  query_addCopies_of_lt h

/-- The copy of a query stands behind all queries that there were. -/
theorem placing_query (h : .query a ∈ s.copied q) :
    ∃ k, (queriesIn (s.copied q))[k]? = some a ∧
      (s.placing q).query a = ⟨s.queries.size + k⟩ := by
  rcases placeFor_cases (queriesIn (s.copied q)) s.queries.size (·.index) a with
    ⟨k, hk, hplace⟩ | ⟨hnot, _⟩
  · exact ⟨k, hk, congrArg QueryId.mk hplace⟩
  · exact absurd (mem_queriesIn.2 h) hnot

theorem le_placing_query (h : .query a ∈ s.copied q) :
    s.queries.size ≤ ((s.placing q).query a).index := by
  obtain ⟨k, _, hplace⟩ := placing_query h
  rw [hplace]
  exact Nat.le_add_right _ k

theorem placing_query_lt (h : .query a ∈ s.copied q) :
    ((s.placing q).query a).index < (s.withCopy q).queries.size := by
  obtain ⟨k, hk, hplace⟩ := placing_query h
  rw [hplace]
  exact lt_addCopies hk

theorem placing_faithful (s : Store) (q : QueryId) : (s.placing q).Faithful :=
  fun _ => ⟨_, rfl⟩

section

variable (hs : s.Orderly) (hq : s.Whole q)

include hq

/-- A copy is the query that it is a copy of, with copies in the places of what it refers to. -/
theorem query_placing (h : .query a ∈ s.copied q) :
    (s.withCopy q).query ((s.placing q).query a) = (s.query a).rename (s.placing q) := by
  obtain ⟨k, hk, hplace⟩ := placing_query h
  rw [hplace]
  refine (query_addCopies_copy hk).trans (Query.rename_congr fun handle hmem => ?_)
  cases handle with
  | bindings id => exact absurd ((reaches_of_reachable h).step hmem) (hq.plain id)
  | _ => rfl

/-- A query that a copied query refers to is copied too. -/
theorem copied_closed (hs : s.Orderly) (ha : .query a ∈ s.copied q)
    (hid : .query id ∈ (s.query a).handles) : .query id ∈ s.copied q :=
  reachable_closed hs.connections (hq.grammar.imp fun _ h => h.1) ha hid

omit hq

include hs

/-- A store in order stays so when a query is copied. -/
theorem Orderly.withCopy (q : QueryId) : (s.withCopy q).Orderly where
  connections id := by
    unfold Store.withCopy addCopies connection
    dsimp only
    by_cases hlt : id.index < s.connections.size
    · rw [Array.getElem?_append_left hlt]
      exact hs.connections id
    · rw [Array.getElem?_append_right (Nat.le_of_not_lt hlt), List.getElem?_toArray,
        List.getElem?_map]
      cases (connectionsIn (s.copied q))[id.index - s.connections.size]? with
      | none => exact ⟨⟨0⟩, rfl⟩
      | some source =>
        obtain ⟨g, hg⟩ := hs.connections source
        exact ⟨_, congrArg (s.copyRenaming (s.copied q)).compiler hg⟩
  resolvers id := by
    unfold Store.withCopy addCopies resolver
    dsimp only
    by_cases hlt : id.index < s.resolvers.size
    · rw [Array.getElem?_append_left hlt]
      exact hs.resolvers id
    · rw [Array.getElem?_append_right (Nat.le_of_not_lt hlt), List.getElem?_toArray,
        List.getElem?_map]
      cases (resolversIn (s.copied q))[id.index - s.resolvers.size]? with
      | none => exact fun _ h => nomatch h
      | some source =>
        intro handle hmem
        dsimp only [Option.map_some, Option.getD_some] at hmem
        rw [Value.handlesOfEntries_substitute] at hmem
        obtain ⟨before, hbefore, hmem⟩ := List.mem_flatMap.1 hmem
        have hnone := hs.resolvers source before hbefore
        cases before with
        | query id => exact nomatch hnone
        | bindings id => exact nomatch hnone
        | _ =>
          cases List.mem_singleton.1 hmem
          rfl
  silent := hs.silent

omit hs

/-! ## What is reached from the query and from its copy -/

/-- Where a store is in order, only queries lead to queries. -/
theorem Orderly.owner_of_step (hs : s.Orderly) {x y : Handle} (hx : x.owner? = none)
    (hy : y ∈ s.handlesOf x) : y.owner? = none := by
  cases x with
  | query id => cases hx
  | bindings id => cases hx
  | connection id =>
    obtain ⟨g, hg⟩ := hs.connections id
    rw [handlesOf, hg] at hy
    cases List.mem_singleton.1 hy
    rfl
  | resolver id => exact hs.resolvers id y hy
  | _ => cases hy

/-- What holds of a query and passes on to the queries that a query refers to holds of all queries
that are reached, if none follows the bindings of another one. -/
theorem Reaches.forall_queries {P : QueryId → Prop} (hs : s.Orderly) {root : QueryId}
    (hroot : P root)
    (hstep : ∀ a, P a → ∀ h ∈ (s.query a).handles, ∀ b, h.owner? = some b → h = .query b ∧ P b)
    {x : Handle} (hx : s.Reaches (.query root) x) :
    ∀ b, x.owner? = some b → x = .query b ∧ P b := by
  refine hx.forall (P := fun x => ∀ b, x.owner? = some b → x = .query b ∧ P b) ?_ ?_ ?_
  · intro b hb
    cases hb
    exact ⟨rfl, hroot⟩
  · intro x hx y hy b hb
    cases hxo : x.owner? with
    | none => exact absurd (hs.owner_of_step hxo hy) (by rw [hb]; exact fun h => nomatch h)
    | some a =>
      obtain ⟨rfl, ha⟩ := hx a hxo
      exact hstep a ha y hy b hb
  · intro id hid b hb
    exact nomatch (hid id rfl).1

include hs hq

/-- The query still refers to the queries that it referred to, and to no others. -/
theorem reaches_original {x : Handle} (hx : (s.withCopy q).Reaches (.query q) x) :
    ∀ b, x.owner? = some b → x = .query b ∧ s.Reaches (.query q) (.query b) := by
  refine hx.forall_queries (hs.withCopy q) .refl fun a ha h hmem b hb => ?_
  rw [withCopy_query_of_lt (hq.queries a ha)] at hmem
  cases h with
  | query c =>
    cases hb
    exact ⟨rfl, ha.step hmem⟩
  | bindings c => exact absurd (ha.step hmem) (hq.plain c)
  | _ => exact nomatch hb

/-- The copy refers to copies only. -/
theorem reaches_copy {x : Handle}
    (hx : (s.withCopy q).Reaches (.query ((s.placing q).query q)) x) :
    ∀ b, x.owner? = some b →
      x = .query b ∧ ∃ a, .query a ∈ s.copied q ∧ b = (s.placing q).query a := by
  refine hx.forall_queries (hs.withCopy q) ⟨q, mem_copied_self, rfl⟩ ?_
  rintro _ ⟨a, ha, rfl⟩ h hmem b hb
  rw [query_placing hq ha, Query.handles_rename] at hmem
  obtain ⟨before, hbefore, hmem⟩ := List.mem_flatMap.1 hmem
  cases before with
  | query c =>
    cases List.mem_singleton.1 hmem
    cases hb
    exact ⟨rfl, c, copied_closed hq hs ha hbefore, rfl⟩
  | bindings c => exact absurd ((reaches_of_reachable ha).step hbefore) (hq.plain c)
  | _ =>
    cases List.mem_singleton.1 hmem
    exact nomatch hb

/-- No query is reached from both. -/
theorem not_reached_twice {x : QueryId} (hx : (s.withCopy q).Reaches (.query q) (.query x)) :
    ¬(s.withCopy q).Reaches (.query ((s.placing q).query q)) (.query x) := by
  intro hcopy
  obtain ⟨_, horiginal⟩ := reaches_original hs hq hx x rfl
  obtain ⟨_, a, ha, rfl⟩ := reaches_copy hs hq hcopy x rfl
  exact absurd (hq.queries _ horiginal) (Nat.not_lt_of_le (le_placing_query ha))

/-! ## What the copy shares with the query -/

omit hs hq in
private theorem not_copied_of_shared {h : Handle} (hshared : h ∈ sharedBy (s.query q))
    (hne : h ≠ .query q) : h ∉ s.copied q := by
  obtain ⟨found, _, hfound, hnew⟩ := s.reachable_eq (sharedBy (s.query q)) q
  intro hmem
  unfold copied at hmem
  rw [hfound] at hmem
  rcases List.mem_cons.1 hmem with heq | hmem
  · exact hne heq
  · exact hnew h hmem hshared

omit hs in
theorem copy_grammar :
    ((s.withCopy q).query ((s.placing q).query q)).grammar = (s.query q).grammar := by
  obtain ⟨g, hg, _⟩ := hq.grammar
  have hplace : (s.placing q).grammar g = g := by
    rcases placeFor_cases (grammarsIn (s.copied q)) s.grammars.size (·.index) g with
      ⟨k, hk, _⟩ | ⟨_, hplace⟩
    · obtain ⟨h, hmem, hsome⟩ := List.mem_filterMap.1 (List.mem_of_getElem? hk)
      have hgrammar : h = .grammar g := by
        cases h with
        | grammar g' => exact congrArg Handle.grammar (Option.some.inj hsome)
        | _ => exact nomatch hsome
      have hshared : Handle.grammar g ∈ sharedBy (s.query q) := by
        unfold sharedBy
        rw [hg]
        exact List.mem_append_right _ List.mem_cons_self
      exact absurd (hgrammar ▸ hmem) (not_copied_of_shared hshared fun h => nomatch h)
    · exact congrArg GrammarId.mk hplace
  rw [query_placing hq mem_copied_self]
  show (s.placing q).compiler (s.query q).grammar = (s.query q).grammar
  rw [hg]
  exact congrArg Compiler.grammar hplace

omit hs in
theorem copy_connection :
    ((s.withCopy q).query ((s.placing q).query q)).connection = (s.query q).connection := by
  rw [query_placing hq mem_copied_self]
  show (s.query q).connection.map (s.placing q).connection = (s.query q).connection
  cases hconnection : (s.query q).connection with
  | none => rfl
  | some c =>
    refine congrArg some ?_
    rcases placeFor_cases (connectionsIn (s.copied q)) s.connections.size (·.index) c with
      ⟨k, hk, _⟩ | ⟨_, hplace⟩
    · obtain ⟨h, hmem, hsome⟩ := List.mem_filterMap.1 (List.mem_of_getElem? hk)
      have hhandle : h = .connection c := by
        cases h with
        | connection c' => exact congrArg Handle.connection (Option.some.inj hsome)
        | _ => exact nomatch hsome
      have hshared : Handle.connection c ∈ sharedBy (s.query q) := by
        unfold sharedBy
        rw [hconnection]
        exact List.mem_append_left _ List.mem_cons_self
      exact absurd (hhandle ▸ hmem) (not_copied_of_shared hshared fun h => nomatch h)
    · exact congrArg ConnectionId.mk hplace

/-- The query is whole after it was copied. -/
theorem whole_original : (s.withCopy q).Whole q where
  grammar := by
    obtain ⟨g, hg, hlt⟩ := hq.grammar
    rw [withCopy_query_of_lt (hq.queries q .refl)]
    refine ⟨g, hg, ?_⟩
    unfold withCopy addCopies
    dsimp only
    rw [Array.size_append]
    omega
  queries id hid := by
    have hlt := hq.queries id (reaches_original hs hq hid id rfl).2
    unfold withCopy
    rw [size_addCopies]
    omega
  plain id hid := nomatch (reaches_original hs hq hid id rfl).1

/-- So is the copy. -/
theorem whole_copy : (s.withCopy q).Whole ((s.placing q).query q) where
  grammar := by
    rw [copy_grammar hq, ← withCopy_query_of_lt (hq.queries q .refl)]
    exact (whole_original hs hq).grammar
  queries id hid := by
    obtain ⟨_, a, ha, rfl⟩ := reaches_copy hs hq hid id rfl
    exact placing_query_lt ha
  plain id hid := nomatch (reaches_copy hs hq hid id rfl).1

/-! ## The select statement of the copy -/

/-- The copied queries resemble their copies. -/
theorem copied_resemble : Resembles (s.placing q) (fun a => .query a ∈ s.copied q)
    (s.withCopy q).settled (s.withCopy q).settled := by
  have horiginal : ∀ a, .query a ∈ s.copied q → (s.withCopy q).settled.query a = s.query a := by
    intro a ha
    have hreaches := reaches_of_reachable ha
    have hsame := withCopy_query_of_lt (q := q) (hq.queries a hreaches)
    rw [Store.settled_query, hsame]
    intro other hmem
    rw [hsame] at hmem
    exact hq.plain other (hreaches.step hmem)
  have hcopy : ∀ a, .query a ∈ s.copied q →
      (s.withCopy q).settled.query ((s.placing q).query a) = (s.query a).rename (s.placing q) := by
    intro a ha
    rw [Store.settled_query, query_placing hq ha]
    intro other hmem
    rw [query_placing hq ha, Query.handles_rename] at hmem
    obtain ⟨before, hbefore, hmem⟩ := List.mem_flatMap.1 hmem
    cases before with
    | bindings c => exact hq.plain c ((reaches_of_reachable ha).step hbefore)
    | _ => exact nomatch List.mem_singleton.1 hmem
  exact
    { faithful := placing_faithful s q
      query := fun a ha => by rw [hcopy a ha, horiginal a ha]
      attached := fun a ha => by
        rw [horiginal a ha]
        exact Meets.attachedIn fun id hid => copied_closed hq hs ha hid
      silent := hs.silent
      silent' := hs.silent }

/-- The copy has the same select statement. -/
theorem copy_toSql (run : Runner) :
    ((((s.placing q).query q).toSql run).runOn (s.withCopy q)).1 =
      ((q.toSql run).runOn (s.withCopy q)).1 := by
  have hgrammar : ∀ method, (s.withCopy q).settled.grammarFor
        ((s.withCopy q).settled.query ((s.placing q).query q)).grammar method =
      (s.withCopy q).settled.grammarFor ((s.withCopy q).settled.query q).grammar method := by
    intro method
    rw [(whole_copy hs hq).settled_query .refl, (whole_original hs hq).settled_query .refl,
      copy_grammar hq, withCopy_query_of_lt (hq.queries q .refl)]
  have hcompiled : Reproduces False
      ((s.withCopy q).settled.compiled [] q "compile_select" Grammar.selectSql)
      ((s.withCopy q).settled.compiled [] ((s.placing q).query q) "compile_select"
        Grammar.selectSql) :=
    (copied_resemble hs hq).compiled mem_copied_self (.inl rfl) hgrammar "compile_select"
  exact (QueryId.toSql_reproduces run hcompiled).elim id fun h => h.1.elim

end

/-- A query that does not refer to the registry of extensions can be copied. -/
theorem ran_copy (h : ¬s.Reaches (.query q) .extensions) :
    Ran q.copy s ((s.placing q).query q) (s.withCopy q) := by
  have hhandles : ∀ x ∈ (s.query q).handles, s.Reaches (.query q) x := fun x hx => .step .refl hx
  have hown : ∀ x ∈ (s.query q).handles.filter (· ∉ sharedBy (s.query q)),
      s.Reaches (.query q) x := fun x hx => hhandles x (List.mem_filter.1 hx).1
  have hcan : s.canCopy (s.query q) = true := by
    refine decide_eq_true fun hmem => h ?_
    refine reachFrom_forall (fun y hy z hz => hy.step hz) ?_ hown _ hmem
    exact List.forall_mem_append.2 ⟨fun x hx => hhandles x (mem_handles_of_shared hx), hown⟩
  unfold QueryId.copy
  refine ran_bind.2 ⟨s, s, ran_get.2 ⟨rfl, rfl⟩, ?_⟩
  dsimp only
  rw [hcan]
  exact ran_bind.2 ⟨(), _, ran_set.2 rfl, ran_pure.2 ⟨rfl, rfl⟩⟩

end Store

/-! ## The result -/

/-- A query can be copied.  The copy is the query with copies in the places of what it refers to, on
the same connection and grammar; it has the same select statement, and the same bindings if these
are data.  No query is reached from both.  Whatever calls are then made that only meet queries apart
from one of the two, as all those are that the other one refers to, they leave the query, all that
it refers to, and its select statement as they were. -/
theorem copy_equal_and_independent {s : Store} (hs : s.Orderly) {q : QueryId} (hq : s.Whole q)
    (hcopy : ¬s.Reaches (.query q) .extensions) (run : Runner) :
    ∃ c s', Ran q.copy s c s' ∧
      (∀ id : QueryId, id.index < s.queries.size → s'.query id = s.query id) ∧
      (s'.query c).connection = (s'.query q).connection ∧
      (s'.query c).grammar = (s'.query q).grammar ∧
      (∃ r : Renaming, r.Faithful ∧ s'.query c = (s'.query q).rename r) ∧
      ((∀ v ∈ (s'.query q).bindings.flatten, v.handles = []) →
        (s'.query c).bindings = (s'.query q).bindings) ∧
      ((c.toSql run).runOn s').1 = ((q.toSql run).runOn s').1 ∧
      ∀ root other, (root = q ∧ other = c) ∨ (root = c ∧ other = q) →
        (∀ id, s'.Reaches (.query other) (.query id) → s'.Apart root id) ∧
        ∀ world t, world s'.callbacks → (s'.beyond world root).Runs run →
          Store.Calls run (s'.beyond world root) s' t →
          (∀ id, s'.Reaches (.query root) (.query id) → t.query id = s'.query id) ∧
          (((root.toSql run).runOn t).1 = ((root.toSql run).runOn s').1 ∨
            ((root.toSql run).runOn s').1 = .error (.value .endless)) := by
  have hself := Store.withCopy_query_of_lt (q := q) (hq.queries q .refl)
  have hquery := Store.query_placing hq (q := q) Store.mem_copied_self
  refine ⟨(s.placing q).query q, s.withCopy q, Store.ran_copy hcopy,
    fun id hid => Store.withCopy_query_of_lt hid, ?_, ?_, ⟨s.placing q, s.placing_faithful q, ?_⟩,
    fun hdata => ?_, Store.copy_toSql hs hq run, fun root other hsides => ?_⟩
  · rw [Store.copy_connection hq, hself]
  · rw [Store.copy_grammar hq, hself]
  · rw [hquery, hself]
  · rw [hself] at hdata ⊢
    rw [hquery]
    show (s.query q).bindings.map (s.placing q).value = (s.query q).bindings
    refine (Renaming.Agree.bindings fun h hmem => ?_).trans (Bindings.map_same _)
    rw [Value.handlesOfAll_eq_flatMap, List.flatMap_eq_nil_iff.2 hdata] at hmem
    exact nomatch hmem
  · have hroot : (s.withCopy q).Whole root ∧ (s.withCopy q).Apart root other := by
      rcases hsides with ⟨rfl, rfl⟩ | ⟨rfl, rfl⟩
      · exact ⟨Store.whole_original hs hq, fun x hcopy hx =>
          Store.not_reached_twice hs hq hx hcopy⟩
      · exact ⟨Store.whole_copy hs hq, fun x hx hcopy =>
          Store.not_reached_twice hs hq hx hcopy⟩
    refine ⟨fun id hid => hroot.2.of_reaches hid, fun world t hworld hrun hcalls =>
      ⟨fun id hid => ?_, ?_⟩⟩
    · exact hcalls.query_eq (hs.withCopy q) hworld hroot.1 hrun hid
    · exact hcalls.toSql_eq (hs.withCopy q) hworld hroot.1 hrun

/-- A store with two queries, the first of which asks whether the second has rows. -/
def Store.ofExists : Store where
  queries :=
    #[{ connection := none, grammar := .grammar ⟨0⟩, source := .text "users",
        wheres := [⟨.text "and", .exists (some ⟨1⟩) false⟩] },
      { connection := none, grammar := .grammar ⟨0⟩, source := .text "posts" }]
  grammars := #[{ dialect := .sqlite }]
  settings :=
    { database := ⟨"sqlite", "localhost", none, "", "", ":memory:", ""⟩
      logging := ⟨"INFO", none, "logs", true, false⟩ }

theorem Store.reaches_ofExists {x : Handle} (h : Store.ofExists.Reaches (.query ⟨0⟩) x) :
    x ∈ [Handle.query ⟨0⟩, .query ⟨1⟩, .grammar ⟨0⟩] :=
  h.forall (P := (· ∈ [Handle.query ⟨0⟩, .query ⟨1⟩, .grammar ⟨0⟩])) (by decide) (by decide)
    fun _ hid => absurd hid (by simp)

/-- Calls on the copy, which asks whether a copy of the second query has rows, leave the first query
as it was. -/
theorem copy_equal_and_independent_exists :
    ∃ c s', Ran (QueryId.copy ⟨0⟩) Store.ofExists c s' ∧
      ((c.toSql fun _ q _ => q.after q.distinct).runOn s').1 =
        ((QueryId.toSql (fun _ q _ => q.after q.distinct) ⟨0⟩).runOn s').1 ∧
      ∀ t, Store.Calls (fun _ q _ => q.after q.distinct) (s'.beyond (fun _ => True) ⟨0⟩) s' t →
        t.query ⟨0⟩ = s'.query ⟨0⟩ := by
  have horderly : Store.ofExists.Orderly :=
    ⟨fun _ => ⟨⟨0⟩, rfl⟩, fun _ _ h => (nomatch h), fun _ => rfl⟩
  have hwhole : Store.ofExists.Whole ⟨0⟩ := by
    refine ⟨⟨⟨0⟩, rfl, by decide⟩, fun id hid => ?_, fun id hid => ?_⟩
    · have hmem := Store.reaches_ofExists hid
      simp only [List.mem_cons, Handle.query.injEq, reduceCtorEq, List.not_mem_nil, or_false] at hmem
      rcases hmem with rfl | rfl
      · decide
      · decide
    · exact absurd (Store.reaches_ofExists hid) (by simp)
  have hextensions : ¬Store.ofExists.Reaches (.query ⟨0⟩) .extensions := fun h =>
    absurd (Store.reaches_ofExists h) (by decide)
  obtain ⟨c, s', hran, _, _, _, _, _, hsql, hsides⟩ := copy_equal_and_independent horderly hwhole
    hextensions fun _ q _ => q.after q.distinct
  refine ⟨c, s', hran, hsql, fun t hcalls => ?_⟩
  have hruns : (s'.beyond (fun _ => True) ⟨0⟩).Runs fun _ q _ => q.after q.distinct := by
    intro callback q extra hq _
    have hkept : ¬(s'.beyond (fun _ => True) ⟨0⟩).kept q := hq.resolve_right fun h => h
    exact (keeps_distinct hkept).next fun _ => within_pure (Boundary.admits_ofQuery.2 hkept)
  obtain ⟨_, hkeeps⟩ := hsides ⟨0⟩ c (.inl ⟨rfl, rfl⟩)
  exact (hkeeps _ t trivial hruns hcalls).1 ⟨0⟩ .refl

end FluentSql
