import FluentSql.Proofs.Fetching.Listing

/-!
# Columns of fetched rows

`value` and `pluck` take the value that stands first in a row.  It is that of
the column that is named if every row begins with the column.  A query without
a select list asks for that column alone; one with a select list does not ask
for it at all, so that the name makes no difference.

* `QueryId.answer?` is what the engine answers, and `Row.Begins` says that a row
  begins with a column.
* `QueryId.pluck_value_named_iff` is the result.
-/

namespace FluentSql

/-- The result with which the engine of the connection answers a fetch, if the fetch reaches it and
is not rejected. -/
def QueryId.answer? (run : Runner) (q : QueryId) (columns : Value) (s : Store) :
    Option StatementResult := do
  let asked := (q.inquire run columns).runOn s
  let i ← asked.1.toOption
  let sent ← (asked.2.prepared i).toOption
  match sent.engine.answer.1 with
  | .accepted result => some result
  | .rejected _ => none

namespace Row

/-- The value that stands first. -/
def first? (row : Row) : Option Value :=
  row.head?.map (·.2)

/-- The value under a column stands first. -/
def Begins (column : Value) (row : Row) : Prop :=
  row.first? = lookupKey column row

variable {column : Value} {row : Row}

theorem first?_isSome (h : (lookupKey column row).isSome) : row.first?.isSome := by
  cases row with
  | nil => exact nomatch h
  | cons entry rest => rfl

end Row

namespace QueryId

section

variable {run : Runner} {q c : QueryId} {s s' : Store} {columns column : Value}
variable {result : StatementResult}

/-! ## Rows -/

/-- A fetch that is answered gives the rows of the result. -/
theorem ran_get_of_answer (h : q.answer? run columns s = some result) :
    ∃ s', Ran (q.get run columns) s (ConnectionId.readRows result) s' := by
  obtain ⟨i, hasked, h⟩ := Option.bind_eq_some_iff.1 h
  obtain ⟨sent, hsent, h⟩ := Option.bind_eq_some_iff.1 h
  have hanswer : sent.engine.answer.1 = .accepted result := by
    cases hcase : sent.engine.answer.1 with
    | accepted result => rw [hcase] at h; exact congrArg _ (Option.some.inj h)
    | rejected reason => rw [hcase] at h; exact nomatch h
  obtain ⟨hrows, _⟩ := Inquiry.rows_of_ok (ok_of_toOption hsent)
  rw [hanswer] at hrows
  refine ⟨(i.rows.runOn ((q.inquire run columns).runOn s).2).2, ?_⟩
  rw [q.get_eq]
  exact ran_bind.2 ⟨i, _, Prod.ext (ok_of_toOption hasked) rfl, Prod.ext hrows rfl⟩

/-- The engine of its connection answers a query with a select list and without values, if the query
is compiled. -/
theorem answer?_of_listed {sql : String} {c : ConnectionId} {engine : Engine} (h : s.Clonable q)
    (hlist : (s.query q).columns.isSome) (hsql : s.listedSql q [] = .ok sql)
    (hunbound : (s.query q).bindings.flatten = []) (hc : (s.query q).connection = some c)
    (hengine : (s.connection c).engine = some engine) (hanswer : engine.answer.1 = .accepted result)
    (columns : Value) : q.answer? run columns s = some result := by
  have hasked : s.inquiry q [] = .ok ⟨c, sql, []⟩ := by
    unfold Store.inquiry
    rw [hsql, hc, hunbound]
    rfl
  have hsent : s.prepared ⟨c, sql, []⟩ = .ok ⟨engine, [], ⟨.text sql, .none⟩⟩ := by
    unfold Store.prepared
    rw [Store.prepare_eq hengine (ran_itemsOrNone_list [] s), Store.shown_data s rfl]
    rfl
  unfold answer?
  rw [h.inquire_listed run hlist columns, hasked]
  show ((s.prepared ⟨c, sql, []⟩).toOption.bind _) = _
  rw [hsent]
  show (match engine.answer.1 with
    | .accepted result => some result
    | .rejected _ => none) = some result
  rw [hanswer]

/-- The copy of a query with a select list has one, also with a limit. -/
theorem listed_of_copy (hlist : (s.query q).columns.isSome) (hcopy : Ran q.copy s c s') :
    ((s'.edit c (·.setLimit 1)).query c).columns.isSome := by
  obtain ⟨handles, _, rfl, hfirst, rfl⟩ := ran_copied hcopy
  rw [Store.query_edit_self (Store.lt_addCopies hfirst), Query.columns_setLimit,
    Store.query_addCopies_copy hfirst]
  show ((s.query q).columns.map _).isSome
  rwa [Option.isSome_map]

/-- The same for the one row of a copy. -/
theorem answer?_of_copy {sql : String} {c : ConnectionId} {engine : Engine} (h : s.Clonable q)
    (hlist : (s.query q).columns.isSome) (hsql : (s.edit q (·.setLimit 1)).listedSql q [] = .ok sql)
    (hunbound : (s.query q).bindings.flatten = []) (hc : (s.query q).connection = some c)
    (hengine : (s.connection c).engine = some engine) (hanswer : engine.answer.1 = .accepted result)
    (columns : Value) :
    ((s.placing q).query q).answer? run columns
      ((s.withCopy q).edit ((s.placing q).query q) (·.setLimit 1)) = some result := by
  have hlimit := Query.adjusts_setLimit 1
  refine answer?_of_listed (c := c) (h.withCopy.edit hlimit) (listed_of_copy hlist h.ran_copy)
    ((h.listed_copy hlimit).trans hsql) ?_ ?_ ?_ hanswer columns
  · rw [h.query_copy_edit, Query.bindings_setLimit, h.bindings_copy, hunbound]
  · rw [h.withCopy.connection_edit hlimit, Store.copy_connection h.whole, hc]
  · rw [h.connection_copy_edit _ _ hc, hengine]

/-- The values that stand first are taken if no row is empty. -/
theorem mapM_firstValue {rows : List Row} (h : ∀ row ∈ rows, row.first?.isSome) :
    ∃ vs, rows.mapM firstValue = .ok vs ∧ vs.map some = rows.map Row.first? := by
  induction rows with
  | nil => exact ⟨[], rfl, rfl⟩
  | cons row rows ih =>
    obtain ⟨hrow, hrows⟩ := List.forall_mem_cons.1 h
    obtain ⟨vs, hvs, hsame⟩ := ih hrows
    cases row with
    | nil => exact nomatch hrow
    | cons entry rest =>
      refine ⟨entry.2 :: vs, ?_, ?_⟩
      · rw [List.mapM_cons, hvs]
        rfl
      · rw [List.map_cons, List.map_cons, hsame]
        rfl

/-- `pluck` gives the values that stand first. -/
theorem ran_pluck_of_answer (h : q.answer? run (.list [column]) s = some result)
    (hnamed : ∀ row ∈ ConnectionId.readRows result, (lookupKey column row).isSome) :
    ∃ vs s', Ran (q.pluck run column) s vs s' ∧
      vs.map some = (ConnectionId.readRows result).map Row.first? := by
  obtain ⟨s', hran⟩ := ran_get_of_answer h
  obtain ⟨vs, hvs, hsame⟩ := mapM_firstValue fun row hrow => Row.first?_isSome (hnamed row hrow)
  refine ⟨vs, s', ran_bind.2 ⟨_, _, hran, ?_⟩, hsame⟩
  rw [hvs]
  rfl

/-- `value` gives the value that stands first in the first row. -/
theorem ran_value_of_answer {s1 : Store} (hcopy : Ran q.copy s c s1)
    (h : c.answer? run (.list [column]) (s1.edit c (·.setLimit 1)) = some result) :
    ∃ v s', Ran (q.value run column) s v s' ∧
      v = ((ConnectionId.readRows result).head?.bind Row.first?).getD .null := by
  obtain ⟨s', hran⟩ := ran_get_of_answer h
  have hfirst : Ran (q.first run (.list [column])) s (ConnectionId.readRows result).head? s' :=
    ran_bind.2 ⟨c, s1, hcopy, ran_bind.2 ⟨(), _, ran_limit_one, ran_bind.2 ⟨_, s', hran,
      ran_pure.2 ⟨rfl, rfl⟩⟩⟩⟩
  refine ⟨_, s', ran_bind.2 ⟨_, s', hfirst, ?_⟩, rfl⟩
  cases ConnectionId.readRows result with
  | nil => rfl
  | cons row rows => cases row <;> rfl

/-! ## Select lists -/

/-- The columns of a fetch make no difference to a query with a select list. -/
theorem get_of_listed (hlist : (s.query q).columns.isSome) (columns columns' : Value) :
    (q.get run columns).runOn s = (q.get run columns').runOn s := by
  have hread : q.read.runOn s = (.ok (s.query q), s) := rfl
  have hnone : (s.query q).columns.isNone = false := by
    rw [Option.isNone_eq_false_iff, hlist]
  unfold get
  rw [Action.runOn_bind_ok hread, Action.runOn_bind_ok hread, hnone]
  rfl

theorem first_of_listed (hlist : (s.query q).columns.isSome) (columns columns' : Value) :
    (q.first run columns).runOn s = (q.first run columns').runOn s := by
  cases hcopy : q.copy.runOn s with
  | mk copied s1 =>
    cases copied with
    | error e =>
      unfold first
      rw [Action.runOn_bind_error hcopy, Action.runOn_bind_error hcopy]
    | ok c =>
      rw [first_runOn hcopy ran_limit_one, first_runOn hcopy ran_limit_one,
        get_of_listed (listed_of_copy hlist hcopy) columns columns']

theorem pluck_of_listed (hlist : (s.query q).columns.isSome) (column column' : Value) :
    (q.pluck run column).runOn s = (q.pluck run column').runOn s := by
  unfold pluck
  rw [Action.runOn_bind, Action.runOn_bind, get_of_listed hlist (.list [column]) (.list [column'])]

theorem value_of_listed (hlist : (s.query q).columns.isSome) (column column' : Value) :
    (q.value run column).runOn s = (q.value run column').runOn s := by
  unfold value
  rw [Action.runOn_bind, Action.runOn_bind,
    first_of_listed hlist (.list [column]) (.list [column'])]

/-- A query without a select list asks for the column alone. -/
theorem inquire_of_unlisted (h : s.Clonable q) (hnone : (s.query q).columns = none)
    (hcolumn : column.IsColumn) :
    (q.inquire run (.list [column])).runOn s = (s.inquiry q [column], s) := by
  have hentries : ∀ v ∈ [column], v.IsEntry := List.forall_mem_singleton.2 hcolumn.isEntry
  have hasked := h.inquire_fetched run hnone hentries
  rwa [List.map_singleton, Value.fetched_same hcolumn.data.2] at hasked

end

/-! ## The result -/

/-- If the engine answers with rows that have a column, `pluck` gives the values of the column
exactly if all rows begin with it, and `value`, for the first row, exactly if this one does; without
a row there is no value.  A query with a select list gives the same for every column.  A query
without one asks for the column alone. -/
theorem pluck_value_named_iff (run : Runner) (s : Store) (q : QueryId) (column : Value) :
    (∀ result, q.answer? run (.list [column]) s = some result →
      (∀ row ∈ ConnectionId.readRows result, (lookupKey column row).isSome) →
      ∃ vs s', Ran (q.pluck run column) s vs s' ∧
        (vs.map some = (ConnectionId.readRows result).map (lookupKey column) ↔
          ∀ row ∈ ConnectionId.readRows result, row.Begins column)) ∧
    (∀ c s1 result, Ran q.copy s c s1 →
      c.answer? run (.list [column]) (s1.edit c (·.setLimit 1)) = some result →
      (∀ row ∈ ConnectionId.readRows result, (lookupKey column row).isSome) →
      ∃ v s', Ran (q.value run column) s v s' ∧ (ConnectionId.readRows result = [] → v = .null) ∧
        ∀ row ∈ (ConnectionId.readRows result).head?,
          (lookupKey column row = some v ↔ row.Begins column)) ∧
    ((s.query q).columns.isSome → ∀ other,
      (q.pluck run other).runOn s = (q.pluck run column).runOn s ∧
        (q.value run other).runOn s = (q.value run column).runOn s) ∧
    (s.Clonable q → (s.query q).columns = none → column.IsColumn →
      (q.inquire run (.list [column])).runOn s = (s.inquiry q [column], s)) := by
  refine ⟨fun result hanswer hnamed => ?_, fun c s1 result hcopy hanswer hnamed => ?_,
    fun hlist other => ⟨pluck_of_listed hlist other column, value_of_listed hlist other column⟩,
    fun h hnone hcolumn => inquire_of_unlisted h hnone hcolumn⟩
  · obtain ⟨vs, s', hran, hsame⟩ := ran_pluck_of_answer hanswer hnamed
    refine ⟨vs, s', hran, ?_⟩
    rw [hsame]
    exact List.map_inj_left
  · obtain ⟨v, s', hran, hv⟩ := ran_value_of_answer hcopy hanswer
    refine ⟨v, s', hran, fun hempty => ?_, fun row hrow => ?_⟩
    · rw [hv, hempty]
      rfl
    · rw [hrow, Option.bind_some] at hv
      obtain ⟨w, hw⟩ := Option.isSome_iff_exists.1
        (Row.first?_isSome (hnamed row (List.mem_of_mem_head? hrow)))
      rw [hw, Option.getD_some] at hv
      unfold Row.Begins
      rw [hw, hv]
      exact eq_comm

/-! ## A table with its own select list -/

/-- A query of a table with its own select list. -/
def listed (columns : List String) : Query :=
  { Query.ofTable "t" with columns := some (columns.map .text) }

/-- The row of a person. -/
def person : Row :=
  [(.text "name", .text "Ada"), (.text "id", .int 1)]

theorem lookupKey_person :
    lookupKey (.text "name") person = some (.text "Ada") ∧
      lookupKey (.text "name") person.reverse = some (.text "Ada") := by
  simp [lookupKey, person, Value.sameKey_text]

theorem readRows_person :
    ConnectionId.readRows { rows := [person], returnsRows := true } = [person] ∧
      ConnectionId.readRows { rows := [person.reverse], returnsRows := true } =
        [person.reverse] := by
  simp [ConnectionId.readRows, person, ofEntries, insertKey, Value.sameKey_text]

/-- The rows begin with the name, which is the first column of the select list. -/
theorem pluck_value_named_iff_person :
    let s := Store.answering (listed ["name", "id"]) [person]
    (∃ vs s', Ran (QueryId.pluck Runner.idle ⟨0⟩ (.text "name")) s vs s' ∧
      vs.map some = [some (.text "Ada")]) ∧
    ∃ v s', Ran (QueryId.value Runner.idle ⟨0⟩ (.text "name")) s v s' ∧
      some v = some (.text "Ada") := by
  intro s
  have hclonable : s.Clonable ⟨0⟩ := .answering [person] (by decide) (by decide)
  have hread := readRows_person.1
  have hnamed : ∀ row ∈ ConnectionId.readRows { rows := [person], returnsRows := true },
      (lookupKey (.text "name") row).isSome := by
    rw [hread]
    exact List.forall_mem_singleton.2 (by rw [lookupKey_person.1]; rfl)
  have hbegins : person.Begins (.text "name") := lookupKey_person.1.symm
  have hsql : (s.listedSql ⟨0⟩ []).toOption = some "select \"name\", \"id\" from \"t\"" := by
    decide +kernel
  have hlimited : ((s.edit ⟨0⟩ (·.setLimit 1)).listedSql ⟨0⟩ []).toOption =
      some "select \"name\", \"id\" from \"t\" limit 1" := by
    decide +kernel
  obtain ⟨hpluck, hvalue, _⟩ := pluck_value_named_iff Runner.idle s ⟨0⟩ (.text "name")
  constructor
  · obtain ⟨vs, s', hran, hiff⟩ := hpluck _
      (answer?_of_listed hclonable rfl (ok_of_toOption hsql) rfl rfl rfl rfl _) hnamed
    rw [hread] at hiff
    refine ⟨vs, s', hran, (hiff.2 (List.forall_mem_singleton.2 hbegins)).trans ?_⟩
    rw [List.map_singleton, lookupKey_person.1]
  · obtain ⟨v, s', hran, _, hiff⟩ := hvalue _ _ _ hclonable.ran_copy
      (answer?_of_copy hclonable rfl (ok_of_toOption hlimited) rfl rfl rfl rfl _) hnamed
    rw [hread] at hiff
    exact ⟨v, s', hran, ((hiff person rfl).2 hbegins).symm.trans lookupKey_person.1⟩

/-- The rows have the name, but begin with the id. -/
theorem pluck_not_named :
    let s := Store.answering (listed ["id", "name"]) [person.reverse]
    (∃ vs s', Ran (QueryId.pluck Runner.idle ⟨0⟩ (.text "name")) s vs s' ∧ vs = [.int 1]) ∧
      (∃ v s', Ran (QueryId.value Runner.idle ⟨0⟩ (.text "name")) s v s' ∧ v = .int 1) ∧
      lookupKey (.text "name") person.reverse = some (.text "Ada") := by
  intro s
  have hclonable : s.Clonable ⟨0⟩ := .answering [person.reverse] (by decide) (by decide)
  have hread := readRows_person.2
  have hsql : (s.listedSql ⟨0⟩ []).toOption = some "select \"id\", \"name\" from \"t\"" := by
    decide +kernel
  have hlimited : ((s.edit ⟨0⟩ (·.setLimit 1)).listedSql ⟨0⟩ []).toOption =
      some "select \"id\", \"name\" from \"t\" limit 1" := by
    decide +kernel
  refine ⟨?_, ?_, lookupKey_person.2⟩
  · have hanswer : QueryId.answer? Runner.idle ⟨0⟩ (.list [.text "name"]) s = some _ :=
      answer?_of_listed hclonable rfl (ok_of_toOption hsql) rfl rfl rfl rfl _
    obtain ⟨vs, s', hran, hvs⟩ := ran_pluck_of_answer hanswer
      (by rw [hread]; exact List.forall_mem_singleton.2 (by rw [lookupKey_person.2]; rfl))
    refine ⟨vs, s', hran, ?_⟩
    rw [hread] at hvs
    exact List.map_injective_iff.2 (Option.some_injective _) hvs
  · have hanswer : ((s.placing ⟨0⟩).query ⟨0⟩).answer? Runner.idle (.list [.text "name"])
        ((s.withCopy ⟨0⟩).edit ((s.placing ⟨0⟩).query ⟨0⟩) (·.setLimit 1)) = some _ :=
      answer?_of_copy hclonable rfl (ok_of_toOption hlimited) rfl rfl rfl rfl _
    obtain ⟨v, s', hran, hv⟩ := ran_value_of_answer hclonable.ran_copy hanswer
    refine ⟨v, s', hran, ?_⟩
    rw [hread] at hv
    exact hv

end QueryId

end FluentSql
