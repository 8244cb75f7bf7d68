import FluentSql.Store.Copy

/-!
# What a query refers to, and its copy

A copy of a query takes along all objects that are reachable from it.  The
copies stand behind all objects that are there, in the order in which the
objects were reached, so nothing that is there changes.

* `Store.reachFrom_forall` is the induction over what is reachable.
* `Store.placeFor_cases` is the place of a copy.
* `Store.query_addCopies_of_lt` and `Store.query_addCopies_copy` are the
  queries of the store with the copies, and `Store.old_or_copy` says that there
  are no others.
* `Store.wheres_copied` is about queries with conditions.

An object reaches those that it refers to, directly or not.  What follows the
bindings of a query reaches the query.  The objects that are copied with a query
are found round by round; the rounds are bounded, and the bound is enough to
find all of them.

* `Store.Reaches` is the relation.
* `Store.reachFrom_closed` is the search: each round but the last finds an
  object that was not seen and that refers to others, and there are no more of
  these than rounds.
* `Store.reaches_of_reachable` and `Store.reachable_closed` say that what is
  found is reached, and that no query is left out.
-/

namespace FluentSql.Store

variable {s : Store}

/-- Beyond its last query a store shows a default. -/
theorem query_of_le {id : QueryId} (h : s.queries.size ≤ id.index) : s.query id = default := by
  unfold query
  rw [Array.getElem?_eq_none h]
  rfl

/-! ## What is reachable -/

/-- What holds of the objects to start from and passes on to those that an object refers to holds
of all objects that are reached. -/
theorem reachFrom_forall {P : Handle → Prop} (hstep : ∀ x, P x → ∀ y ∈ s.handlesOf x, P y)
    {fuel : Nat} {seen frontier : List Handle} (hseen : ∀ x ∈ seen, P x)
    (hfrontier : ∀ x ∈ frontier, P x) : ∀ x ∈ s.reachFrom fuel seen frontier, P x := by
  induction fuel generalizing seen frontier with
  | zero => exact hseen
  | succ fuel ih =>
    have hfound : ∀ x ∈ ((frontier.flatMap s.handlesOf).filter (· ∉ seen)).eraseDups, P x := by
      intro x hx
      rw [List.mem_eraseDups, List.mem_filter] at hx
      obtain ⟨y, hy, hx⟩ := List.mem_flatMap.1 hx.1
      exact hstep y (hfrontier y hy) x hx
    unfold reachFrom
    dsimp only
    split
    · exact hseen
    · refine ih (fun x hx => ?_) hfound
      rcases List.mem_append.1 hx with hx | hx
      · exact hseen x hx
      · exact hfound x hx

/-- What was seen stays in front, and nothing is seen twice. -/
theorem reachFrom_eq (s : Store) (fuel : Nat) (seen frontier : List Handle) :
    ∃ found, s.reachFrom fuel seen frontier = seen ++ found ∧ ∀ x ∈ found, x ∉ seen := by
  induction fuel generalizing seen frontier with
  | zero => exact ⟨[], (List.append_nil _).symm, fun _ h => nomatch h⟩
  | succ fuel ih =>
    unfold reachFrom
    dsimp only
    split
    · exact ⟨[], (List.append_nil _).symm, fun _ h => nomatch h⟩
    · obtain ⟨found, hfound, hnew⟩ := ih (seen ++ ((frontier.flatMap s.handlesOf).filter
        (· ∉ seen)).eraseDups) ((frontier.flatMap s.handlesOf).filter (· ∉ seen)).eraseDups
      refine ⟨_, hfound.trans (List.append_assoc _ _ _), fun x hx => ?_⟩
      rcases List.mem_append.1 hx with hx | hx
      · rw [List.mem_eraseDups, List.mem_filter] at hx
        exact of_decide_eq_true hx.2
      · exact fun hseen => hnew x hx (List.mem_append_left _ hseen)

/-- A query is the first of the objects that are reachable from it, and none of them is shared. -/
theorem reachable_eq (s : Store) (shared : List Handle) (t : QueryId) :
    ∃ found, s.reachFrom s.size (shared ++ [.query t]) [.query t] =
        shared ++ s.reachable shared t ∧
      s.reachable shared t = .query t :: found ∧ ∀ x ∈ found, x ∉ shared := by
  obtain ⟨found, hfound, hnew⟩ := s.reachFrom_eq s.size (shared ++ [.query t]) [.query t]
  have hreachable : s.reachable shared t = .query t :: found := by
    rw [reachable, hfound, List.append_assoc, List.drop_left]
    rfl
  refine ⟨found, ?_, hreachable, fun x hx hshared => hnew x hx (List.mem_append_left _ hshared)⟩
  rw [hfound, hreachable, List.append_assoc]
  rfl

/-! ## Places of copies -/

/-- A copy is behind all objects that are there; what is not copied stays in its place. -/
theorem placeFor_cases {α : Type} [BEq α] [LawfulBEq α] (copied : List α) (size : Nat)
    (index : α → Nat) (id : α) :
    (∃ k, copied[k]? = some id ∧ placeFor copied size index id = size + k) ∨
      id ∉ copied ∧ placeFor copied size index id = index id := by
  unfold placeFor
  cases hfind : copied.idxOf? id with
  | none => exact .inr ⟨List.idxOf?_eq_none_iff.1 hfind, rfl⟩
  | some k =>
    obtain ⟨hlt, heq, _⟩ := List.idxOf?_eq_some_iff.1 hfind
    exact .inl ⟨k, by rw [List.getElem?_eq_getElem hlt, heq], rfl⟩

/-- What stands behind the objects of an array. -/
theorem getElem?_behind {α β : Type} {xs : Array β} {ids : List α} {f : α → β} {k : Nat}
    {id : α} (h : ids[k]? = some id) : (xs ++ (ids.map f).toArray)[xs.size + k]? = some (f id) := by
  rw [Array.getElem?_append_right (Nat.le_add_right _ _), Nat.add_sub_cancel_left,
    List.getElem?_toArray, List.getElem?_map, h]
  rfl

variable {handles : List Handle} {id : QueryId} {k : Nat}

theorem size_addCopies (s : Store) (handles : List Handle) :
    (s.addCopies handles).queries.size = s.queries.size + (queriesIn handles).length := by
  unfold addCopies
  simp only [Array.size_append, List.size_toArray, List.length_map]

theorem query_addCopies_of_lt (h : id.index < s.queries.size) :
    (s.addCopies handles).query id = s.query id := by
  unfold query addCopies
  rw [Array.getElem?_append_left h]

theorem query_addCopies_copy (h : (queriesIn handles)[k]? = some id) :
    (s.addCopies handles).query ⟨s.queries.size + k⟩ =
      (s.query id).rename (s.copyRenaming handles) := by
  show (s.queries ++ ((queriesIn handles).map _).toArray)[s.queries.size + k]?.getD default = _
  rw [getElem?_behind h]
  rfl

/-- A query of the store with the copies was there or is a copy. -/
theorem old_or_copy (h : id.index < (s.addCopies handles).queries.size) :
    id.index < s.queries.size ∨
      ∃ k source, (queriesIn handles)[k]? = some source ∧ id = ⟨s.queries.size + k⟩ := by
  rw [size_addCopies] at h
  by_cases hlt : id.index < s.queries.size
  · exact .inl hlt
  · have hk : id.index - s.queries.size < (queriesIn handles).length := by omega
    refine .inr ⟨_, _, List.getElem?_eq_getElem hk, ?_⟩
    cases id
    exact congrArg QueryId.mk (by dsimp only at hlt ⊢; omega)

theorem lt_addCopies (h : (queriesIn handles)[k]? = some id) :
    s.queries.size + k < (s.addCopies handles).queries.size := by
  rw [size_addCopies]
  have hk := (List.getElem?_eq_some_iff.1 h).1
  omega

/-! ## Conditions of copies -/

/-- A query with conditions is one of the store. -/
theorem lt_of_wheres {id : QueryId} (h : (s.query id).wheres ≠ []) : id.index < s.queries.size := by
  refine Nat.lt_of_not_le fun hle => h ?_
  rw [query_of_le hle]
  rfl

theorem wheres_rename_ne_nil {r : Renaming} {q : Query} (h : q.wheres ≠ []) :
    (q.rename r).wheres ≠ [] :=
  fun hnil => h (List.map_eq_nil_iff.1 hnil)

/-- What takes the place of a query with conditions has conditions. -/
theorem wheres_copied {id : QueryId} (h : (s.query id).wheres ≠ []) :
    ((s.addCopies handles).query ((s.copyRenaming handles).query id)).wheres ≠ [] := by
  rcases placeFor_cases (queriesIn handles) s.queries.size (·.index) id with
    ⟨k, hk, hplace⟩ | ⟨_, hplace⟩
  · have hcopy : (s.copyRenaming handles).query id = ⟨s.queries.size + k⟩ :=
      congrArg QueryId.mk hplace
    rw [hcopy, query_addCopies_copy hk]
    exact wheres_rename_ne_nil h
  · have hsame : (s.copyRenaming handles).query id = id := congrArg QueryId.mk hplace
    rwa [hsame, query_addCopies_of_lt (lt_of_wheres h)]

end FluentSql.Store

namespace FluentSql.Store

/-- An object refers to another one, directly or not.  The bindings of a query stand for the
query. -/
inductive Reaches (s : Store) (root : Handle) : Handle → Prop where
  | refl : Reaches s root root
  | step {x y : Handle} : Reaches s root x → y ∈ s.handlesOf x → Reaches s root y
  | owner {id : QueryId} : Reaches s root (.bindings id) → Reaches s root (.query id)

variable {s : Store} {root x y : Handle}

/-- What holds of an object and passes on to those that an object refers to holds of all objects
that are reached. -/
theorem Reaches.forall {P : Handle → Prop} (h : s.Reaches root x) (hroot : P root)
    (hstep : ∀ x, P x → ∀ y ∈ s.handlesOf x, P y)
    (howner : ∀ id, P (.bindings id) → P (.query id)) : P x := by
  induction h with
  | refl => exact hroot
  | step _ hy ih => exact hstep _ ih _ hy
  | owner _ ih => exact howner _ ih

theorem Reaches.trans (h : s.Reaches root x) (h' : s.Reaches x y) : s.Reaches root y := by
  induction h' with
  | refl => exact h
  | step _ hz ih => exact .step ih hz
  | owner _ ih => exact .owner ih

/-! ## Objects that refer to others -/

/-- The objects that are there and may refer to other ones. -/
def sources (s : Store) : List Handle :=
  (List.range s.queries.size).map (fun i => .query ⟨i⟩) ++
    (List.range s.queries.size).map (fun i => .bindings ⟨i⟩) ++
    (List.range s.connections.size).map (fun i => .connection ⟨i⟩) ++
    (List.range s.resolvers.size).map fun i => .resolver ⟨i⟩

theorem length_sources_le (s : Store) : s.sources.length ≤ s.size := by
  simp only [sources, size, List.length_append, List.length_map, List.length_range]
  omega

/-- An object that is not there, or refers to no others, leads no further than to a grammar. -/
theorem grammar_of_not_source (h : x ∉ s.sources) (hy : y ∈ s.handlesOf x) :
    ∃ id, y = .grammar id := by
  simp only [sources, List.mem_append, List.mem_map, List.mem_range, not_or, not_exists,
    not_and] at h
  obtain ⟨⟨⟨hquery, hbindings⟩, hconnection⟩, hresolver⟩ := h
  cases x with
  | query id =>
    have hlt : ¬id.index < s.queries.size := fun hlt => hquery id.index hlt rfl
    rw [handlesOf, query_of_le (Nat.le_of_not_lt hlt)] at hy
    exact ⟨_, List.mem_singleton.1 hy⟩
  | bindings id =>
    have hlt : ¬id.index < s.queries.size := fun hlt => hbindings id.index hlt rfl
    rw [handlesOf, query_of_le (Nat.le_of_not_lt hlt)] at hy
    exact nomatch hy
  | connection id =>
    have hlt : ¬id.index < s.connections.size := fun hlt => hconnection id.index hlt rfl
    rw [handlesOf, connection, Array.getElem?_eq_none (Nat.le_of_not_lt hlt)] at hy
    exact ⟨_, List.mem_singleton.1 hy⟩
  | resolver id =>
    have hlt : ¬id.index < s.resolvers.size := fun hlt => hresolver id.index hlt rfl
    rw [handlesOf, resolver, Array.getElem?_eq_none (Nat.le_of_not_lt hlt)] at hy
    exact nomatch hy
  | _ => exact nomatch hy

/-! ## The search -/

/-- Fewer objects are left when one was found. -/
private theorem length_unseen_lt {xs seen found : List Handle} (hx : x ∈ xs) (hfound : x ∈ found)
    (hseen : x ∉ seen) :
    (xs.filter (· ∉ seen ++ found)).length < (xs.filter (· ∉ seen)).length := by
  have htwice : xs.filter (· ∉ seen ++ found) = (xs.filter (· ∉ seen)).filter (· ∉ found) := by
    rw [List.filter_filter]
    refine List.filter_congr fun y _ => ?_
    simp only [List.mem_append, not_or, Bool.decide_and, Bool.and_comm]
  rw [htwice, List.length_filter_lt_length_iff_exists]
  exact ⟨x, List.mem_filter.2 ⟨hx, decide_eq_true hseen⟩, by simpa using hfound⟩

/-- The search leaves out nothing but grammars, if objects that were seen and do not stand at the
frontier lead to no others, and if there are more rounds than objects that are still to be found and
refer to others. -/
theorem reachFrom_closed {fuel : Nat} {seen frontier : List Handle}
    (hopen : ∀ x ∈ seen, x ∈ frontier ∨
      ∀ y ∈ s.handlesOf x, y ∈ seen ∨ ∃ id, y = .grammar id)
    (hfuel : (∃ x ∈ frontier, x ∈ s.sources) → (s.sources.filter (· ∉ seen)).length < fuel) :
    ∀ x ∈ s.reachFrom fuel seen frontier, ∀ y ∈ s.handlesOf x,
      y ∈ s.reachFrom fuel seen frontier ∨ ∃ id, y = .grammar id := by
  induction fuel generalizing seen frontier with
  | zero =>
    intro x hx y hy
    rcases hopen x hx with hfrontier | hclosed
    · refine .inr (grammar_of_not_source (fun hsource => ?_) hy)
      exact Nat.not_lt_zero _ (hfuel ⟨x, hfrontier, hsource⟩)
    · exact hclosed y hy
  | succ fuel ih =>
    have hfound : ∀ x ∈ frontier, ∀ y ∈ s.handlesOf x, y ∈ seen ∨
        y ∈ ((frontier.flatMap s.handlesOf).filter (· ∉ seen)).eraseDups := by
      intro x hx y hy
      by_cases hseen : y ∈ seen
      · exact .inl hseen
      · refine .inr (List.mem_eraseDups.2 (List.mem_filter.2 ⟨?_, decide_eq_true hseen⟩))
        exact List.mem_flatMap.2 ⟨x, hx, hy⟩
    have hfrom : ∀ x ∈ ((frontier.flatMap s.handlesOf).filter (· ∉ seen)).eraseDups,
        x ∉ seen ∧ ∃ z ∈ frontier, x ∈ s.handlesOf z := by
      intro x hx
      rw [List.mem_eraseDups, List.mem_filter] at hx
      exact ⟨of_decide_eq_true hx.2, List.mem_flatMap.1 hx.1⟩
    unfold reachFrom
    dsimp only
    generalize ((frontier.flatMap s.handlesOf).filter (· ∉ seen)).eraseDups = found at hfound hfrom
    split
    · rename_i hempty
      intro x hx y hy
      rcases hopen x hx with hfrontier | hclosed
      · rcases hfound x hfrontier y hy with hseen | hnew
        · exact .inl hseen
        · rw [List.isEmpty_iff.1 hempty] at hnew
          cases hnew
      · exact hclosed y hy
    · refine ih (fun x hx => ?_) ?_
      · rcases List.mem_append.1 hx with hx | hx
        · refine .inr fun y hy => ?_
          rcases hopen x hx with hfrontier | hclosed
          · exact (hfound x hfrontier y hy).elim (fun h => .inl (List.mem_append_left _ h))
              fun h => .inl (List.mem_append_right _ h)
          · exact (hclosed y hy).imp_left (List.mem_append_left _)
        · exact .inl hx
      · -- A round that finds an object that refers to others leaves fewer to be found.
        rintro ⟨x, hx, hsource⟩
        obtain ⟨hunseen, z, hz, hxz⟩ := hfrom x hx
        have hzsource : z ∈ s.sources := by
          refine Decidable.byContradiction fun hz' => ?_
          obtain ⟨id, rfl⟩ := grammar_of_not_source hz' hxz
          simp [sources] at hsource
        have hbefore := hfuel ⟨z, hz, hzsource⟩
        have hfewer := length_unseen_lt hsource hx hunseen
        omega

/-! ## What is copied with a query -/

variable {q : QueryId}

theorem mem_handles_of_shared {query : Query} (h : x ∈ sharedBy query) : x ∈ query.handles := by
  unfold sharedBy at h
  simp only [Query.handles, List.mem_append, or_assoc]
  rcases List.mem_append.1 h with h | h
  · exact .inr (.inl h)
  · exact .inr (.inr (.inl h))

/-- What is copied with a query is reached from it. -/
theorem reaches_of_reachable (h : x ∈ s.reachable (sharedBy (s.query q)) q) :
    s.Reaches (.query q) x := by
  obtain ⟨found, hsearch, _, _⟩ := s.reachable_eq (sharedBy (s.query q)) q
  have hself : ∀ y ∈ [Handle.query q], s.Reaches (.query q) y :=
    List.forall_mem_singleton.2 .refl
  have hshared : ∀ y ∈ sharedBy (s.query q), s.Reaches (.query q) y := fun y hy =>
    .step .refl (mem_handles_of_shared hy)
  have hall : ∀ y ∈ s.reachFrom s.size (sharedBy (s.query q) ++ [.query q]) [.query q],
      s.Reaches (.query q) y :=
    reachFrom_forall (fun y hy z hz => hy.step hz) (List.forall_mem_append.2 ⟨hshared, hself⟩) hself
  rw [hsearch] at hall
  exact hall x (List.mem_append_right _ h)

/-- A query to which a copied object refers is copied too, where connections and queries have
grammars. -/
theorem reachable_closed (hconnections : ∀ id, ∃ g, (s.connection id).grammar = .grammar g)
    (hgrammar : ∃ g, (s.query q).grammar = .grammar g)
    (hx : x ∈ s.reachable (sharedBy (s.query q)) q) {id : QueryId}
    (hid : .query id ∈ s.handlesOf x) : .query id ∈ s.reachable (sharedBy (s.query q)) q := by
  obtain ⟨g, hg⟩ := hgrammar
  have hshared : ∀ y ∈ sharedBy (s.query q), (∃ c, y = .connection c) ∨ y = .grammar g := by
    intro y hy
    unfold sharedBy at hy
    rw [hg] at hy
    rcases List.mem_append.1 hy with hy | hy
    · obtain ⟨c, _, rfl⟩ := List.mem_map.1 hy
      exact .inl ⟨c, rfl⟩
    · exact .inr (List.mem_singleton.1 hy)
  obtain ⟨found, hsearch, _, _⟩ := s.reachable_eq (sharedBy (s.query q)) q
  have hclosed : ∀ y ∈ s.handlesOf x, y ∈ sharedBy (s.query q) ++
      s.reachable (sharedBy (s.query q)) q ∨ ∃ id, y = .grammar id := by
    rw [← hsearch]
    refine reachFrom_closed (fun y hy => ?_) (fun hsource => ?_) x ?_
    · rcases List.mem_append.1 hy with hy | hy
      · refine .inr fun z hz => .inr ?_
        rcases hshared y hy with ⟨c, rfl⟩ | rfl
        · obtain ⟨g', hg'⟩ := hconnections c
          rw [handlesOf, hg'] at hz
          exact ⟨g', List.mem_singleton.1 hz⟩
        · exact nomatch hz
      · exact .inl hy
    · -- The query itself was seen, so there are fewer objects to be found than rounds.
      obtain ⟨y, hy, hsource⟩ := hsource
      have hfewer : (s.sources.filter (· ∉ [] ++ (sharedBy (s.query q) ++ [.query q]))).length <
          (s.sources.filter (· ∉ ([] : List Handle))).length :=
        length_unseen_lt hsource (List.mem_append_right _ hy) List.not_mem_nil
      have hall := List.length_filter_le (· ∉ ([] : List Handle)) s.sources
      have hsize := s.length_sources_le
      rw [List.nil_append] at hfewer
      omega
    · rw [hsearch]
      exact List.mem_append_right _ hx
  rcases hclosed _ hid with hmem | ⟨g', h⟩
  · rcases List.mem_append.1 hmem with hmem | hmem
    · rcases hshared _ hmem with ⟨c, h⟩ | h
      · exact nomatch h
      · exact nomatch h
    · exact hmem
  · exact nomatch h

end FluentSql.Store
