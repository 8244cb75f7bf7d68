import FluentSql.Proofs.Boundary.Basic
import FluentSql.Proofs.Renaming

/-!
# Reading and compiling within a boundary

What is read off a value that refers to nothing hidden refers to nothing
hidden either.  The same holds of values that follow a query.

* `Value.admits_substitute` is about values in the place of references, and
  `Value.admits_items` about the elements of a value.
* `Boundary.Guards.shown` is a value in which all maps that follow queries are
  read.
* `within_now` and the lemmas after it are the actions that read values.

Compiling reads the store.  It changes nothing unless a query stands where
another kind of value is due and an extension answers for it; such extensions
keep to the boundary by `Boundary.Guards`.

* `within_extension` is an extension that is called on a query that is not
  kept, and `within_answer` one that answers a request.
* `keeps_consult` is a compilation, and `keeps_compile` that of a query.
* `within_newQuery` and `within_newStatement` make queries.
* `within_createSub` and `within_resolveSub` are sub-queries.
-/

namespace FluentSql

variable {b : Boundary}

/-! ## Parts of values -/

namespace Value

/-- A value in which references are replaced by values that refer to nothing hidden. -/
theorem admits_substitute {f : Handle → Value} (v : Value)
    (h : ∀ handle ∈ v.handles, b.Admits (f handle)) : b.Admits (v.substitute f) := by
  unfold Boundary.Admits
  rw [handles_substitute]
  exact Boundary.allows_flatMap.2 h

theorem admits_substituteEntries {f : Handle → Value} (entries : List (Value × Value))
    (h : ∀ handle ∈ handlesOfEntries entries, b.Admits (f handle)) :
    b.AdmitsEntries (substituteEntries f entries) := by
  rw [← Boundary.allows_entries, handlesOfEntries_substitute]
  exact Boundary.allows_flatMap.2 h

theorem admits_items {v : Value} (h : b.Admits v) {vs : List Value} (hvs : v.items = .ok vs) :
    b.AdmitsAll vs := by
  cases v with
  | text s =>
    cases hvs
    intro v hv
    obtain ⟨c, _, rfl⟩ := List.mem_map.1 hv
    exact Boundary.admits_text _
  | bytes bs =>
    cases hvs
    intro v hv
    obtain ⟨c, _, rfl⟩ := List.mem_map.1 hv
    exact Boundary.admits_int _
  | list items =>
    cases hvs
    exact Boundary.admits_list.1 h
  | tuple items =>
    cases hvs
    exact Boundary.admits_tuple.1 h
  | map entries =>
    cases hvs
    intro v hv
    obtain ⟨entry, hentry, rfl⟩ := List.mem_map.1 hv
    exact (Boundary.admits_map.1 h entry hentry).1
  | _ => exact nomatch hvs

theorem admitsAll_listed {v : Value} (h : b.Admits v) : b.AdmitsAll v.listed := by
  cases v with
  | list items => exact Boundary.admits_list.1 h
  | tuple items => exact Boundary.admits_tuple.1 h
  | _ => exact Boundary.admitsAll_cons.2 ⟨h, Boundary.admitsAll_nil⟩

/-- The query of a value that refers to nothing hidden. -/
theorem not_hidden_of_query? {v : Value} (h : b.Admits v) {id : QueryId} (hid : v.query? = some id) :
    ¬b.hidden id := by
  cases v with
  | object handle =>
    cases handle with
    | query q =>
      cases hid
      exact Boundary.admits_object.1 h
    | _ => exact nomatch hid
  | _ => exact nomatch hid

end Value

theorem admitsAll_flatten {vs : List Value} (h : b.AdmitsAll vs) : b.AdmitsAll (flatten vs) := by
  unfold flatten
  split
  · exact Value.admitsAll_listed (Boundary.admitsAll_cons.1 h).1
  · exact h

/-- The binding groups as a map. -/
theorem Boundary.AdmitsBindings.entries {bindings : Bindings} (h : b.AdmitsBindings bindings) :
    b.AdmitsEntries bindings.toEntries := by
  intro entry hentry
  obtain ⟨group, _, rfl⟩ := List.mem_map.1 hentry
  exact ⟨Boundary.admits_text _, Boundary.admits_list.2 (h group)⟩

/-! ## Values that follow a query -/

/-- Reading the maps that follow queries meets nothing hidden. -/
theorem Boundary.Guards.shownWith {s : Store} (hs : b.Guards s) (fuel : Nat)
    (around : List QueryId) {v : Value} (h : b.Admits v) :
    b.Admits (s.shownWith fuel around v) := by
  induction fuel generalizing around v with
  | zero => exact h
  | succ fuel ih =>
    refine Value.admits_substitute v fun handle hmem => ?_
    have hhandle := h handle hmem
    cases handle with
    | bindings id =>
      show b.Admits (if id ∈ around then _ else _)
      split
      · exact Boundary.admits_object.2 hhandle
      · refine Boundary.admits_map.2 fun entry hentry => ?_
        obtain ⟨before, hbefore, rfl⟩ := List.mem_map.1 hentry
        obtain ⟨hname, hvalues⟩ := (hs.queries id hhandle).bindings.entries before hbefore
        exact ⟨hname, ih _ hvalues⟩
    | _ => exact Boundary.admits_object.2 hhandle

theorem Boundary.Guards.shown {s : Store} (hs : b.Guards s) {v : Value} (h : b.Admits v) :
    b.Admits (s.shown v) :=
  hs.shownWith _ _ h

theorem within_now {v : Value} (h : b.Admits v) : v.now.Within b b.Admits := by
  unfold Value.now
  split
  · refine (within_read (Boundary.admits_object.1 h)).bind fun q hq => within_pure ?_
    exact Boundary.admits_map.2 hq.bindings.entries
  · exact within_pure h

theorem within_shown {v : Value} (h : b.Admits v) : v.shown.Within b b.Admits :=
  within_get.bind fun _ hs => within_pure (hs.shown h)

theorem within_itemsNow {v : Value} (h : b.Admits v) : v.itemsNow.Within b b.AdmitsAll :=
  (within_now h).bind fun _ hv => within_ofExcept fun _ hvs => Value.admits_items hv hvs

theorem within_itemsOrNone {v : Value} (h : b.Admits v) : v.itemsOrNone.Within b b.AdmitsAll := by
  unfold Value.itemsOrNone
  split
  · exact within_itemsNow h
  · exact within_pure Boundary.admitsAll_nil

/-! ## Reading anything

Reading changes nothing, whatever is read. -/

theorem keeps_read (q : QueryId) : q.read.Keeps b :=
  within_get.bind fun _ _ => within_pure trivial

theorem keeps_now (v : Value) : v.now.Keeps b := by
  unfold Value.now
  split
  · exact (keeps_read _).next fun _ => within_pure trivial
  · exact within_pure trivial

theorem keeps_shown (v : Value) : v.shown.Keeps b :=
  within_get.bind fun _ _ => within_pure trivial

theorem keeps_itemsNow (v : Value) : v.itemsNow.Keeps b :=
  (keeps_now v).next fun _ => keeps_ofExcept _

theorem keeps_itemsOrNone (v : Value) : v.itemsOrNone.Keeps b := by
  unfold Value.itemsOrNone
  split
  · exact keeps_itemsNow v
  · exact within_pure trivial

theorem keeps_bindings (q : QueryId) : q.bindings.Keeps b :=
  (keeps_read q).next fun _ => within_pure trivial

theorem keeps_displayNow (v : Value) : v.displayNow.Keeps b := by
  intro s hs
  exact ⟨hs, .refl s, fun _ _ => trivial⟩

theorem within_needQuery {v : Value} (h : b.Admits v) :
    v.needQuery.Within b fun id => ¬b.hidden id := by
  unfold Value.needQuery
  cases hid : v.query? with
  | none => exact within_throw _
  | some id => exact within_pure (Value.not_hidden_of_query? h hid)

theorem within_bindings {q : QueryId} (h : ¬b.hidden q) : q.bindings.Within b b.AdmitsAll :=
  (within_read h).bind fun _ hquery =>
    within_pure (Boundary.admitsBindings_flatten.2 hquery.bindings)

theorem keeps_grammarFor (q : QueryId) (method : String) : (q.grammarFor method).Keeps b := by
  unfold QueryId.grammarFor
  exact within_get.bind fun _ _ => keeps_ofExcept _

theorem keeps_wrapped (q : QueryId) (v : Value) : (q.wrapped v).Keeps b := by
  unfold QueryId.wrapped
  refine (keeps_grammarFor q _).next fun g => ?_
  refine Action.Keeps.next ?_ fun w => keeps_ofExcept _
  exact within_get.bind fun _ _ => within_pure trivial

theorem keeps_wrappedTable (q : QueryId) (v : Value) : (q.wrappedTable v).Keeps b := by
  unfold QueryId.wrappedTable
  refine (keeps_grammarFor q _).next fun g => ?_
  refine Action.Keeps.next ?_ fun w => keeps_ofExcept _
  exact within_get.bind fun _ _ => within_pure trivial

/-! ## Compiling -/

section

variable {run : Runner} {q : QueryId}

/-! ## Extensions -/

theorem within_extension (hrun : b.Runs run) (h : ¬b.kept q) (name : String)
    {arguments : List Value} (harguments : b.AdmitsAll arguments) :
    (Extensions.call run q name arguments).Within b b.Admits := by
  refine within_get.bind fun s _ => ?_
  split
  · exact hrun.on h _ harguments
  · exact within_throw _

theorem admitsAll_arguments (request : Request) : b.AdmitsAll request.arguments := by
  cases request with
  | split separator cuts =>
    refine Boundary.admitsAll_cons.2 ⟨Boundary.admits_text _, ?_⟩
    cases cuts with
    | none => exact Boundary.admitsAll_nil
    | some n => exact Boundary.admitsAll_cons.2 ⟨Boundary.admits_int _, Boundary.admitsAll_nil⟩
  | replace part replacement => simp [Request.arguments]
  | takeFirst => simp [Request.arguments]
  | _ => exact Boundary.admitsAll_nil

/-- An extension that answers a request for a query. -/
theorem within_answer (hrun : b.Runs run) (q : QueryId) (request : Request) :
    (Extensions.call run q request.name request.arguments).Within b b.Admits := by
  refine within_get.bind fun s hs => ?_
  cases hanswer : s.extension? request.name with
  | some callback =>
    exact hrun callback q _ (.inr (hs.answers request callback hanswer))
      (admitsAll_arguments request)
  | none => exact within_throw _

/-! ## Compilations -/

section

variable {α : Type}

private theorem keeps_consultFrom (hrun : b.Runs run)
    (compile : Store → KnownAnswers → Except Failure α) (fuel : Nat) (known : KnownAnswers) :
    (consultFrom run compile fuel known).Keeps b := by
  induction fuel generalizing known with
  | zero => exact within_throw _
  | succ fuel ih =>
    refine within_get.bind fun s _ => ?_
    split
    · rename_i request _
      refine (within_answer hrun _ request).bind fun answer hanswer => ?_
      exact (within_shown hanswer).keeps.next fun _ => ih _
    · exact keeps_ofExcept _

theorem keeps_consult (hrun : b.Runs run) (compile : Store → KnownAnswers → Except Failure α) :
    (consult run compile).Keeps b :=
  keeps_consultFrom hrun compile _ _

theorem keeps_compile (hrun : b.Runs run) (q : QueryId) (method : String)
    (f : Grammar → Attached → Query → Except Failure α) : (q.compile run method f).Keeps b :=
  keeps_consult hrun _

end

theorem keeps_toSql (hrun : b.Runs run) (q : QueryId) : (q.toSql run).Keeps b :=
  keeps_compile hrun q _ _

/-! ## New queries -/

/-- A new query has only its kind, its connection and its grammar. -/
theorem Boundary.admitsQuery_blank {kind : QueryKind} (hkind : b.Allows kind.handles)
    (connection : Option ConnectionId) {grammar : Compiler} (hgrammar : ¬b.Hides grammar.handle) :
    b.AdmitsQuery { kind, connection, grammar } where
  kind := hkind
  grammar := hgrammar
  bindings group := by cases group <;> exact admitsAll_nil
  aggregate _ h := nomatch h
  columns := admitsAll_nil
  source := admits_null
  joins _ h := nomatch h
  wheres _ h := nomatch h
  groups := admitsAll_nil
  havings _ h := nomatch h
  orders _ h := nomatch h
  unions _ h := nomatch h
  unionOrders _ h := nomatch h
  lock := admits_null

theorem within_newStatement (h : ¬b.hidden q) : q.newStatement.Within b fun id => ¬b.kept id :=
  (within_read h).bind fun _ hparent =>
    within_create (Boundary.admitsQuery_blank Boundary.allows_nil _ hparent.grammar)

theorem within_newQuery (h : ¬b.hidden q) : q.newQuery.Within b fun id => ¬b.kept id :=
  (within_read h).bind fun _ hparent =>
    within_create (Boundary.admitsQuery_blank hparent.kind _ hparent.grammar)

theorem within_newJoin (h : ¬b.hidden q) {type table : Value} (htype : b.Admits type)
    (htable : b.Admits table) : (q.newJoin type table).Within b fun id => ¬b.kept id :=
  (within_read h).bind fun _ hparent =>
    within_create (Boundary.admitsQuery_blank (Boundary.allows_append.2 ⟨htype, htable⟩) _
      hparent.grammar)

/-! ## Sub-queries -/

theorem within_call (hrun : b.Runs run) (h : ¬b.kept q) (callback : Value) {extra : List Value}
    (hextra : b.AdmitsAll extra) : (callback.call run q extra).Within b b.Admits := by
  unfold Value.call
  split
  · exact hrun.on h _ hextra
  · exact within_throw _

theorem within_asSub (hrun : b.Runs run) (h : ¬b.hidden q) :
    (q.asSub run).Within b fun sub => b.AdmitsAll sub.bindings := by
  refine (keeps_toSql hrun q).next fun _ => ?_
  exact (within_bindings h).bind fun _ hbindings => within_pure hbindings

theorem within_createSub (hrun : b.Runs run) (h : ¬b.hidden q) {query : Value}
    (hquery : b.Admits query) :
    (q.createSub run query).Within b fun sub => b.AdmitsAll sub.bindings := by
  unfold QueryId.createSub
  split
  · exact within_asSub hrun (Boundary.admits_object.1 hquery)
  · refine (within_newStatement h).bind fun sub hsub => ?_
    refine (hrun.on hsub _ Boundary.admitsAll_nil).keeps.next fun _ => ?_
    exact within_asSub hrun (Boundary.not_hidden_of_not_kept hsub)
  · exact (keeps_displayNow _).next fun _ => within_pure Boundary.admitsAll_nil
  · exact (keeps_displayNow _).next fun _ => within_pure Boundary.admitsAll_nil
  · exact within_throw _

theorem within_resolveSub (hrun : b.Runs run) (h : ¬b.hidden q) {query : Value}
    (hquery : b.Admits query) : (q.resolveSub run query).Within b fun sub => ¬b.hidden sub := by
  unfold QueryId.resolveSub
  split
  · exact within_pure (Boundary.admits_object.1 hquery)
  · refine (within_newStatement h).bind fun sub hsub => ?_
    refine (hrun.on hsub _ Boundary.admitsAll_nil).keeps.next fun _ => ?_
    exact within_pure (Boundary.not_hidden_of_not_kept hsub)
  · exact within_throw _

end

end FluentSql
