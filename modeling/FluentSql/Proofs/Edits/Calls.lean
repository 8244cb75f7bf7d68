import FluentSql.Proofs.Building.Copying
import FluentSql.Proofs.Edits.Building

/-!
# The edits of calls

Every method of a query makes edits that fit, as long as its callbacks do.
Three kinds of methods ask for more.

* Compiling and running a query edits copies only, and the aggregate of a
  query is such a copy: `edits_copy_bind`.
* A call that puts values into a binding group must put values there that may
  stand there: `Method.Puts`.
* `reorder` removes orderings, and `clone_without` puts a property of a copy
  back to its start, which is no edit at all.
* `edits_methodCall` is the result.
-/

namespace FluentSql

variable {p : Policy} {run : Runner} {q : QueryId}

/-! ## Copies -/

/-- The copy of a query is made behind all queries that there are. -/
theorem edits_copy_bind {α : Type} {f : QueryId → Action α}
    (h : ∀ copy : QueryId, p.start ≤ copy.index → (f copy).Edits p) : (q.copy >>= f).Edits p := by
  refine fun s hs => edited_bind ?_ fun copy s1 hran hcopied => ?_
  · show p.Edited s (q.copy.runOn s).2
    unfold QueryId.copy
    refine edited_bind .refl fun s1 _ hran _ => ?_
    cases hran
    dsimp only
    split
    · exact .refl
    · exact .copy .refl _
  · obtain ⟨_, _, _, _, rfl⟩ := QueryId.ran_copied hran
    exact h _ hs s1 (Nat.le_trans hs hcopied.size_le)

theorem edits_copy (q : QueryId) : q.copy.Edits p := by
  rw [← bind_pure q.copy]
  exact edits_copy_bind fun copy _ => edits_pure copy

theorem edits_copyWithoutBindings (q : QueryId) (groups : Value) :
    (q.copyWithoutBindings groups).Edits p := by
  refine (edits_copy q).next fun copy => (edits_itemsNow groups).next fun names => ?_
  refine (edits_forIn fun name => (edits_ofExcept _).next fun group => ?_).next fun _ =>
    edits_pure _
  exact (edits_edit (.rebind group []) fun _ _ _ _ hmem => nomatch hmem).next fun _ => edits_pure _

/-- The aggregate of a query stands on a copy, so that the query keeps its ordering. -/
theorem edits_forAggregate (q : QueryId) (function columns : Value) :
    (q.forAggregate function columns).Edits p := by
  refine edits_copy_bind fun copy hcopy => ?_
  have hcolumns : Action.Edits p (copy.modify fun query =>
      if query.isUnion then query else { query.rebind .select [] with columns := none }) := by
    intro s _
    show p.Edited s (s.edit copy _)
    rw [Store.edit_ite]
    split
    · rw [Store.edit_same fun _ => rfl]
      exact .refl
    · have hfits : (Edit.rebind .select []).Fits p s copy := fun hmem => absurd hmem (by decide)
      have hstep := (Policy.Edited.refl.edit copy _ hfits).edit copy (.setColumns none) trivial
      rwa [Store.edit_edit] at hstep
  have horder : Action.Edits p (copy.modify fun query =>
      if query.groups.isEmpty then query.unordered else query) := by
    intro s _
    show p.Edited s (s.edit copy _)
    rw [Store.edit_ite]
    split
    · exact .edit .refl copy .unorder hcopy
    · rw [Store.edit_same fun _ => rfl]
      exact .refl
  exact hcolumns.next fun _ => (edits_itemsNow columns).next fun columns =>
    (edits_edit (.aggregate ⟨function, columns⟩) fun _ => trivial).next fun _ =>
      horder.next fun _ => edits_pure copy

/-! ## Statements -/

theorem edits_recordOf (hrun : p.Runs run) (v : Value) : (recordOf run v).Edits p := by
  refine (edits_now v).next fun v => ?_
  split
  · exact edits_pure _
  · refine edits_get.next fun s => ?_
    split
    · exact edits_throw _
    · refine (edits_extension hrun _ _ _).next fun keys => (edits_itemsNow keys).next fun keys => ?_
      split
      · exact edits_pure _
      · exact edits_throw _
  · exact (edits_ofExcept _).next fun _ => (edits_ofExcept _).next fun _ => edits_pure _

theorem edits_recordsOf (hrun : p.Runs run) (values : Value) :
    (recordsOf run values).Edits p := by
  refine (edits_now values).next fun values => ?_
  split
  · exact edits_pure _
  · exact (edits_ofExcept _).next fun _ => edits_mapM (edits_recordOf hrun)

theorem edits_toExistsSql (hrun : p.Runs run) (q : QueryId) : (q.toExistsSql run).Edits p :=
  (edits_compile hrun q _ _).next fun _ => (edits_bindings q).next fun _ => edits_pure _

theorem edits_insertStatement (hrun : p.Runs run) (q : QueryId) (values : Value) (method : String)
    (sql : Grammar → Oracle → Query → Value → Except Failure String) :
    (q.insertStatement run values method sql).Edits p :=
  (edits_recordsOf hrun values).next fun _ => (edits_ofExcept _).next fun _ =>
    (edits_shown _).next fun _ => (edits_compile hrun q _ _).next fun _ => edits_pure _

theorem edits_toInsertGetIdSql (hrun : p.Runs run) (q : QueryId) (values sequence : Value) :
    (q.toInsertGetIdSql run values sequence).Edits p :=
  (edits_shown sequence).next fun _ => edits_insertStatement hrun q values _ _

theorem edits_toUpdateSql (hrun : p.Runs run) (q : QueryId) (values : Value) :
    (q.toUpdateSql run values).Edits p :=
  (edits_shown values).next fun _ => (edits_compile hrun q _ _).next fun _ =>
    (edits_now values).next fun _ => (edits_consult hrun _).next fun _ => edits_pure _

theorem edits_idColumn (q : QueryId) : q.idColumn.Edits p :=
  (edits_grammarFor q _).next fun _ => (edits_read q).next fun _ => (edits_displayNow _).next
    fun _ => edits_pure _

theorem edits_toDeleteSql (hrun : p.Runs run) (q : QueryId) (id : Value) :
    (q.toDeleteSql run id).Edits p := by
  have hcompile : ∀ target : QueryId, Action.Edits p (do
      let sql ← target.compile run "compile_delete" Grammar.deleteSql
      let bindings ← target.arrange run "prepare_bindings_for_delete" fun _ oracle bindings =>
        Grammar.deleteBindings oracle bindings
      return (⟨sql, bindings⟩ : Statement)) := fun target =>
    (edits_compile hrun target _ _).next fun _ => (edits_consult hrun _).next fun _ => edits_pure _
  unfold QueryId.toDeleteSql
  dsimp only
  split
  · exact (edits_pure q).next hcompile
  · exact (edits_copy q).next fun restricted => (edits_idColumn q).next fun column =>
      (edits_where hrun restricted _ _ _ _).next fun _ => (edits_pure restricted).next hcompile

theorem edits_toTruncateSql (hrun : p.Runs run) (q : QueryId) : (q.toTruncateSql run).Edits p :=
  (edits_compile hrun q _ _).next fun _ => edits_pure _

/-! ## Running a query -/

theorem edits_modifyConnection (id : ConnectionId) (f : Connection → Connection) :
    (id.modify f).Edits p :=
  edits_modifyStore fun _ => rfl

theorem edits_writeLog (record : LogRecord) : record.write.Edits p :=
  edits_modifyStore fun _ => rfl

/-- Running a statement edits no query, whether the engine accepts it or not. -/
theorem edits_run {α : Type} (id : ConnectionId) (sql bindings : Value)
    (read : StatementResult → Except Failure α) : (id.run sql bindings read).Edits p := by
  have hengine : id.engine.Edits p := by
    refine edits_get.next fun s => ?_
    split
    · exact edits_pure _
    · exact (edits_displayNow _).next fun _ => edits_throw _
  refine hengine.next fun engine => (edits_itemsOrNone bindings).next fun bindings =>
    (edits_shown sql).next fun shown => (edits_ofExcept _).next fun statement => ?_
  have hsend : (id.send engine statement).Edits p :=
    (edits_modifyConnection id _).next fun _ => Action.Edits.next (edits_modifyStore fun _ => rfl)
      fun _ => edits_pure _
  refine hsend.next fun outcome => ?_
  cases outcome with
  | accepted result =>
    refine (edits_ofExcept _).next fun value => Action.Edits.next ?_ fun _ => edits_pure value
    exact edits_get.next fun s => (edits_writeLog _).next fun _ => edits_modifyConnection id _
  | rejected reason =>
    exact edits_get.next fun s => (edits_displayNow _).next fun _ => edits_get.next fun s =>
      (edits_writeLog _).next fun _ => edits_get.next fun s => edits_throw _

theorem edits_needConnection (q : QueryId) : q.needConnection.Edits p := by
  refine (edits_read q).next fun query => ?_
  cases query.connection with
  | none => exact edits_throw _
  | some id => exact edits_pure _

theorem edits_rows (hrun : p.Runs run) (q : QueryId) (columns : Value) :
    (q.get run columns).Edits p := by
  have hselect : ∀ chosen : List Value, Action.Edits p (do
      let shown ← chosen.mapM Value.shown
      let sql ← q.compile run "compile_select" fun g attached query =>
        g.selectSql attached
          (if chosen.isEmpty then query else { query with columns := some shown })
      let bindings ← q.bindings
      (← q.needConnection).select (.text sql) (.list bindings)) := fun chosen =>
    (edits_mapM edits_shown).next fun _ => (edits_compile hrun q _ _).next fun _ =>
      (edits_bindings q).next fun _ => (edits_needConnection q).next fun id => edits_run id _ _ _
  refine (edits_read q).next fun query => ?_
  dsimp only
  split
  · exact (edits_itemsOrNone columns).next hselect
  · exact (edits_pure _).next hselect

theorem edits_first (hrun : p.Runs run) (q : QueryId) (columns : Value) :
    (q.first run columns).Edits p :=
  (edits_copy q).next fun copy => (edits_limit copy _).next fun _ =>
    (edits_rows hrun copy columns).next fun _ => edits_pure _

theorem edits_find (hrun : p.Runs run) (q : QueryId) (id columns : Value) :
    (q.find run id columns).Edits p :=
  (edits_copy q).next fun copy => (edits_where hrun copy _ _ _ _).next fun _ =>
    edits_first hrun copy columns

theorem edits_value (hrun : p.Runs run) (q : QueryId) (column : Value) :
    (q.value run column).Edits p := by
  refine (edits_first hrun q _).next fun row => ?_
  split
  · exact edits_pure _
  · exact edits_pure _

theorem edits_pluck (hrun : p.Runs run) (q : QueryId) (column : Value) :
    (q.pluck run column).Edits p :=
  (edits_rows hrun q _).next fun _ => edits_ofExcept _

theorem edits_hasRows (hrun : p.Runs run) (q : QueryId) : (q.hasRows run).Edits p :=
  (edits_toExistsSql hrun q).next fun _ => (edits_needConnection q).next fun id =>
    Action.Edits.next (edits_run id _ _ _) fun _ => (edits_ofExcept _).next fun _ => edits_pure _

theorem edits_aggregate (hrun : p.Runs run) (q : QueryId) (function columns : Value) :
    (q.aggregate run function columns).Edits p :=
  (edits_forAggregate q _ _).next fun copy => (edits_rows hrun copy _).next fun _ =>
    (edits_ofExcept _).next fun _ => edits_pure _

theorem edits_count (hrun : p.Runs run) (q : QueryId) (columns : Value) :
    (q.count run columns).Edits p := by
  refine (edits_aggregate hrun q _ _).next fun result => ?_
  split
  · exact edits_ofExcept _
  · exact edits_pure _

theorem edits_sum (hrun : p.Runs run) (q : QueryId) (column : Value) :
    (q.sum run column).Edits p :=
  (edits_aggregate hrun q _ _).next fun _ => edits_pure _

theorem edits_insert (hrun : p.Runs run) (q : QueryId) (values : Value) :
    (q.insert run values).Edits p := by
  have hinsert : ∀ values : List Value, Action.Edits p (do
      if values.isEmpty then return ()
      let statement ← q.toInsertSql run (.list values)
      (← q.needConnection).statement (.text statement.sql) (.list statement.bindings)) := by
    intro values
    split
    · exact edits_pure _
    · exact (edits_insertStatement hrun q _ _ _).next fun _ => (edits_needConnection q).next
        fun id => edits_run id _ _ _
  refine (edits_now values).next fun values => ?_
  dsimp only
  split
  · exact (edits_pure _).next hinsert
  · exact (edits_ofExcept _).next hinsert

theorem edits_insertOrIgnore (hrun : p.Runs run) (q : QueryId) (values : Value) :
    (q.insertOrIgnore run values).Edits p := by
  unfold QueryId.insertOrIgnore
  split
  · exact edits_pure _
  · exact (edits_insertStatement hrun q _ _ _).next fun _ => (edits_needConnection q).next
      fun id => edits_run id _ _ _

theorem edits_insertGetId (hrun : p.Runs run) (q : QueryId) (values sequence : Value) :
    (q.insertGetId run values sequence).Edits p :=
  (edits_toInsertGetIdSql hrun q values sequence).next fun _ => (edits_needConnection q).next
    fun id => edits_run id _ _ _

theorem edits_insertUsing (hrun : p.Runs run) (q : QueryId) (columns query : Value) :
    (q.insertUsing run columns query).Edits p :=
  (edits_createSub hrun q query).next fun _ => (edits_needConnection q).next fun id =>
    (edits_grammarFor q _).next fun _ => (edits_itemsNow columns).next fun _ =>
      (edits_mapM edits_shown).next fun _ => (edits_compile hrun q _ _).next fun _ =>
        edits_run id _ _ _

theorem edits_update (hrun : p.Runs run) (q : QueryId) (values : Value) :
    (q.update run values).Edits p :=
  (edits_toUpdateSql hrun q values).next fun _ => (edits_needConnection q).next
    fun id => edits_run id _ _ _

theorem edits_step (hrun : p.Runs run) (q : QueryId) (column amount extra : Value)
    (sign : String) : (q.step run column amount extra sign).Edits p := by
  refine (edits_ofExcept _).next fun amount => (edits_wrapped q column).next fun wrapped => ?_
  dsimp only
  split
  · exact edits_throw _
  · split
    · exact (edits_recordOf hrun extra).next fun _ => edits_update hrun q _
    · exact (edits_pure _).next fun _ => edits_update hrun q _

theorem edits_delete (hrun : p.Runs run) (q : QueryId) (id : Value) :
    (q.delete run id).Edits p :=
  (edits_toDeleteSql hrun q id).next fun _ => (edits_needConnection q).next
    fun id => edits_run id _ _ _

theorem edits_truncate (hrun : p.Runs run) (q : QueryId) : (q.truncate run).Edits p := by
  refine (edits_needConnection q).next fun id => (edits_toTruncateSql hrun q).next
    fun statements => ?_
  refine (edits_forIn fun statement => ?_).next fun _ => edits_pure _
  exact Action.Edits.next (edits_run id _ _ _) fun _ => edits_pure _

/-! ## Families of methods -/

/-- The method makes edits only. -/
def Method.Edits (p : Policy) (run : Runner) (m : Method QueryId) : Prop :=
  ∀ q a, (m.run run q a).Edits p

theorem edits_returning {α β : Type} {action : Action α} (h : action.Edits p) (f : α → β) :
    Action.Edits p (do return f (← action)) :=
  h.next fun _ => edits_pure _

theorem edits_builder {name : String} {parameters : List Parameter}
    {build : Runner → QueryId → Arguments → Action Unit}
    (h : ∀ q a, (build run q a).Edits p) : (builder name parameters build).Edits p run :=
  fun q a => (h q a).next fun _ => edits_pure _

theorem edits_builderOfMany {name : String} {build : Runner → QueryId → List Value → Action Unit}
    (h : ∀ q vs, (build run q vs).Edits p) : (builderOfMany name build).Edits p run :=
  fun q a => (h q a.rest).next fun _ => edits_pure _

theorem edits_selectMethods (hrun : p.Runs run) : ∀ m ∈ selectMethods, m.Edits p run := by
  simp only [selectMethods, List.forall_mem_cons]
  refine ⟨?_, ?_, ?_, ?_, ?_, ?_, ?_, ?_, fun _ h => nomatch h⟩
  · exact edits_builderOfMany fun q _ => edits_select hrun q _
  · exact edits_builderOfMany fun q _ => edits_addSelect hrun q _
  · exact edits_builder fun q _ => edits_selectRaw q _ _
  · exact edits_builder fun q _ => edits_selectSub hrun q _ _
  · exact edits_builder fun q _ => edits_distinct q
  · exact edits_builder fun q _ => edits_setSource hrun q _ _
  · exact edits_builder fun q _ => edits_fromSub hrun q _ _
  · exact edits_builder fun q _ => edits_fromRaw q _ _

theorem edits_joinMethodsOf (hrun : p.Runs run) (word : String) :
    ∀ m ∈ joinMethodsOf word, m.Edits p run := by
  simp only [joinMethodsOf, List.forall_mem_cons]
  refine ⟨?_, ?_, ?_, fun _ h => nomatch h⟩
  · exact edits_builder fun q _ => edits_join hrun q _ _ _ _ _ _
  · exact edits_builder fun q _ => edits_join hrun q _ _ _ _ _ _
  · exact edits_builder fun q _ => edits_joinSub hrun q _ _ _ _ _ _ _

theorem edits_joiningMethods (hrun : p.Runs run) : ∀ m ∈ joiningMethods, m.Edits p run := by
  simp only [joiningMethods, List.forall_mem_append, List.forall_mem_cons]
  refine ⟨⟨⟨⟨?_, ?_, ?_, fun _ h => nomatch h⟩, edits_joinMethodsOf hrun _⟩,
    edits_joinMethodsOf hrun _⟩, ?_, ?_, fun _ h => nomatch h⟩
  · exact edits_builder fun q _ => edits_join hrun q _ _ _ _ _ _
  · exact edits_builder fun q _ => edits_join hrun q _ _ _ _ _ _
  · exact edits_builder fun q _ => edits_joinSub hrun q _ _ _ _ _ _ _
  · exact edits_builder fun q _ => edits_crossJoin hrun q _ _ _ _
  · exact fun q _ => (edits_needQuery _).next fun parent =>
      edits_returning (edits_newJoin parent _ _) _

theorem edits_comparisonMethods (hrun : p.Runs run) :
    ∀ m ∈ comparisonMethods, m.Edits p run := by
  simp only [comparisonMethods, List.forall_mem_cons]
  refine ⟨?_, ?_, ?_, ?_, ?_, ?_, ?_, ?_, ?_, ?_, ?_, fun _ h => nomatch h⟩
  · exact edits_builder fun q _ => edits_where hrun q _ _ _ _
  · exact edits_builder fun q _ => edits_where hrun q _ _ _ _
  · exact edits_builder fun q _ => edits_whereNot hrun q _ _ _ _
  · exact edits_builder fun q _ => edits_whereColumn hrun q _ _ _ _
  · exact edits_builder fun q _ => edits_whereColumn hrun q _ _ _ _
  · exact edits_builder fun q _ => edits_whereRaw q _ _ _
  · exact edits_builder fun q _ => edits_whereRaw q _ _ _
  · exact edits_builder fun q _ => edits_whereNested hrun q _ _
  · exact fun q _ => edits_returning (edits_forNestedWhere hrun q) _
  · exact edits_builder fun q _ => (edits_needQuery _).next fun nested => edits_addNested q nested _
  · exact edits_builder fun q _ => edits_whereSub hrun q _ _ _ _

theorem edits_membershipMethods (hrun : p.Runs run) :
    ∀ m ∈ membershipMethods, m.Edits p run := by
  simp only [membershipMethods, List.forall_mem_cons]
  refine ⟨?_, ?_, ?_, ?_, ?_, ?_, ?_, ?_, ?_, ?_, ?_, ?_, ?_, ?_, fun _ h => nomatch h⟩
  · exact edits_builder fun q _ => edits_whereIn hrun q _ _ _ _
  · exact edits_builder fun q _ => edits_whereIn hrun q _ _ _ _
  · exact edits_builder fun q _ => edits_whereIn hrun q _ _ _ _
  · exact edits_builder fun q _ => edits_whereIn hrun q _ _ _ _
  · exact edits_builder fun q _ => edits_whereIntegerIn q _ _ _ _
  · exact edits_builder fun q _ => edits_whereIntegerIn q _ _ _ _
  · exact edits_builder fun q _ => edits_whereNull q _ _ _
  · exact edits_builder fun q _ => edits_whereNull q _ _ _
  · exact edits_builder fun q _ => edits_whereNull q _ _ _
  · exact edits_builder fun q _ => edits_whereNull q _ _ _
  · exact edits_builder fun q _ => edits_whereBetween q _ _ _ _
  · exact edits_builder fun q _ => edits_whereBetween q _ _ _ _
  · exact edits_builder fun q _ => edits_whereBetween q _ _ _ _
  · exact edits_builder fun q _ => edits_whereBetween q _ _ _ _

theorem edits_furtherWhereMethods (hrun : p.Runs run) :
    ∀ m ∈ furtherWhereMethods, m.Edits p run := by
  unfold furtherWhereMethods
  simp only [List.forall_mem_append]
  have hdate : ∀ part, (datePartMethod part).Edits p run := fun part =>
    edits_builder fun q _ => edits_whereDatePart hrun q part _ _ _ _
  have horDate : ∀ part, (orDatePartMethod part).Edits p run := fun part =>
    edits_builder fun q _ => edits_whereDatePart hrun q part _ _ _ _
  refine ⟨⟨List.forall_mem_map.2 fun part _ => hdate part,
    List.forall_mem_map.2 fun part _ => horDate part⟩, ?_⟩
  simp only [List.forall_mem_cons]
  refine ⟨?_, ?_, ?_, ?_, ?_, ?_, ?_, ?_, ?_, ?_, ?_, ?_, fun _ h => nomatch h⟩
  · exact edits_builder fun q _ => edits_whereExists hrun q _ _ _
  · exact edits_builder fun q _ => edits_whereExists hrun q _ _ _
  · exact edits_builder fun q _ => edits_whereExists hrun q _ _ _
  · exact edits_builder fun q _ => edits_whereExists hrun q _ _ _
  · exact edits_builder fun q _ => edits_addWhereExists q _ _ _
  · exact edits_builder fun q _ => edits_whereRowValues q _ _ _ _
  · exact edits_builder fun q _ => edits_whereRowValues q _ _ _ _
  · exact edits_builder fun q _ => edits_whereJsonContains q _ _ _ _
  · exact edits_builder fun q _ => edits_whereJsonContains q _ _ _ _
  · exact edits_builder fun q _ => edits_whereJsonContains q _ _ _ _
  · exact edits_builder fun q _ => edits_whereJsonLength q _ _ _ _
  · exact edits_builder fun q _ => edits_whereJsonLength q _ _ _ _

theorem edits_groupMethods : ∀ m ∈ groupMethods, m.Edits p run := by
  simp only [groupMethods, List.forall_mem_cons]
  refine ⟨?_, ?_, ?_, ?_, ?_, ?_, ?_, ?_, ?_, fun _ h => nomatch h⟩
  · exact edits_builderOfMany fun q _ => edits_addGroups q _
  · exact edits_builder fun q _ => edits_groupByRaw q _ _
  · exact edits_builder fun q _ => edits_having q _ _ _ _
  · exact edits_builder fun q _ => edits_having q _ _ _ _
  · exact edits_builder fun q _ => edits_havingRaw q _ _ _
  · exact edits_builder fun q _ => edits_havingRaw q _ _ _
  · exact edits_builder fun q _ => edits_havingBetween q _ _ _ _
  · exact edits_builder fun q _ => edits_havingNull q _ _ _
  · exact edits_builder fun q _ => edits_havingNull q _ _ _

theorem edits_orderMethods (hrun : p.Runs run) :
    ∀ m ∈ orderMethods, (m.name = "reorder" → p.reorders) → m.Edits p run := by
  simp only [orderMethods, List.forall_mem_cons]
  refine ⟨?_, ?_, ?_, ?_, ?_, ?_, ?_, ?_, ?_, ?_, ?_, ?_, ?_, ?_, ?_, ?_, ?_, ?_,
    fun _ h => nomatch h⟩
  · exact fun _ => edits_builder fun q _ => edits_orderBy hrun q _ _
  · exact fun _ => edits_builder fun q _ => edits_orderBy hrun q _ _
  · exact fun _ => edits_builder fun q _ => edits_orderBy hrun q _ _
  · exact fun _ => edits_builder fun q _ => edits_orderBy hrun q _ _
  · exact fun _ => edits_builder fun q _ => edits_inRandomOrder q _
  · exact fun _ => edits_builder fun q _ => edits_orderByRaw q _ _
  · exact fun h => edits_builder fun q _ => edits_reorder hrun (h rfl) q _ _
  · exact fun _ => edits_builder fun q _ => edits_offset q _
  · exact fun _ => edits_builder fun q _ => edits_offset q _
  · exact fun _ => edits_builder fun q _ => edits_limit q _
  · exact fun _ => edits_builder fun q _ => edits_limit q _
  · exact fun _ => edits_builder fun q _ => edits_forPage q _ _
  · exact fun _ => edits_builder fun q _ => edits_union hrun q _ _
  · exact fun _ => edits_builder fun q _ => edits_union hrun q _ _
  · exact fun _ => edits_builder fun q _ => edits_lock q _
  · exact fun _ => edits_builder fun q _ => edits_lock q _
  · exact fun _ => edits_builder fun q _ => edits_lock q _
  · exact fun _ q _ => edits_whenever hrun q _ _ _

theorem edits_compilingMethods (hrun : p.Runs run) : ∀ m ∈ compilingMethods, m.Edits p run := by
  simp only [compilingMethods, List.forall_mem_cons]
  refine ⟨?_, ?_, ?_, ?_, ?_, ?_, ?_, ?_, ?_, fun _ h => nomatch h⟩
  · exact fun q _ => edits_returning (edits_toSql hrun q) _
  · exact fun q _ => (edits_toSql hrun q).next fun _ => edits_returning (edits_bindings q) _
  · exact fun q _ => edits_returning (edits_toExistsSql hrun q) _
  · exact fun q _ => edits_returning (edits_insertStatement hrun q _ _ _) _
  · exact fun q _ => edits_returning (edits_insertStatement hrun q _ _ _) _
  · exact fun q _ => edits_returning (edits_toInsertGetIdSql hrun q _ _) _
  · exact fun q _ => edits_returning (edits_toUpdateSql hrun q _) _
  · exact fun q _ => edits_returning (edits_toDeleteSql hrun q _) _
  · exact fun q _ => edits_returning (edits_toTruncateSql hrun q) _

theorem edits_readingMethods (hrun : p.Runs run) : ∀ m ∈ readingMethods, m.Edits p run := by
  simp only [readingMethods, List.forall_mem_cons]
  refine ⟨?_, ?_, ?_, ?_, ?_, ?_, ?_, ?_, ?_, ?_, ?_, ?_, ?_, ?_, ?_, fun _ h => nomatch h⟩
  · exact fun q _ => edits_returning (edits_rows hrun q _) _
  · exact fun q _ => edits_returning (edits_first hrun q _) _
  · exact fun q _ => edits_returning (edits_find hrun q _ _) _
  · exact fun q _ => edits_value hrun q _
  · exact fun q _ => edits_returning (edits_pluck hrun q _) _
  · exact fun q _ => edits_returning (edits_hasRows hrun q) _
  · exact fun q _ => edits_returning (edits_hasRows hrun q) _
  · exact fun q _ => edits_returning (edits_count hrun q _) _
  · exact fun q _ => edits_aggregate hrun q _ _
  · exact fun q _ => edits_aggregate hrun q _ _
  · exact fun q _ => edits_sum hrun q _
  · exact fun q _ => edits_aggregate hrun q _ _
  · exact fun q _ => edits_aggregate hrun q _ _
  · exact fun q _ => edits_aggregate hrun q _ _
  · exact fun q _ => edits_returning (edits_forAggregate q _ _) _

theorem edits_changingMethods (hrun : p.Runs run) : ∀ m ∈ changingMethods, m.Edits p run := by
  simp only [changingMethods, List.forall_mem_cons]
  refine ⟨?_, ?_, ?_, ?_, ?_, ?_, ?_, ?_, ?_, fun _ h => nomatch h⟩
  · exact fun q _ => (edits_insert hrun q _).next fun _ => edits_pure _
  · exact fun q _ => edits_insertOrIgnore hrun q _
  · exact fun q _ => edits_insertGetId hrun q _ _
  · exact fun q _ => edits_insertUsing hrun q _ _
  · exact fun q _ => edits_update hrun q _
  · exact fun q _ => edits_step hrun q _ _ _ _
  · exact fun q _ => edits_step hrun q _ _ _ _
  · exact fun q _ => edits_delete hrun q _
  · exact fun q _ => (edits_truncate hrun q).next fun _ => edits_pure _

theorem edits_copyingMethods :
    ∀ m ∈ copyingMethods, m.name ≠ "clone_without" → m.Edits p run := by
  simp only [copyingMethods, List.forall_mem_cons]
  refine ⟨?_, ?_, ?_, ?_, ?_, ?_, fun _ h => nomatch h⟩
  · exact fun _ q _ => edits_pure _
  · exact fun _ q _ => edits_returning (edits_newQuery q) _
  · exact fun _ q _ => edits_returning (edits_newStatement q) _
  · exact fun _ q _ => edits_returning (edits_copy q) _
  · exact fun h => absurd rfl h
  · exact fun _ q _ => edits_returning (edits_copyWithoutBindings q _) _

theorem edits_joinConditionMethods (hrun : p.Runs run) : ∀ m ∈ joinMethods, m.Edits p run := by
  simp only [joinMethods, List.forall_mem_cons]
  refine ⟨?_, ?_, fun _ h => nomatch h⟩
  · exact edits_builder fun q _ => edits_on hrun q _ _ _ _
  · exact edits_builder fun q _ => edits_on hrun q _ _ _ _

/-! ## Calls that put values into a group -/

/-- The calls that put values into a binding group of any name. -/
def puttingCalls : List String := ["set_bindings", "add_binding", "merge_bindings"]

/-- What is bound anew in the groups of the unions of a query satisfies a condition. -/
def Store.PutsOnly (puts : Value → Prop) (q : QueryId) (s s' : Store) : Prop :=
  ∀ group ∈ BindingGroup.ofUnion, ∀ v ∈ (s'.query q).bindings.get group,
    puts v ∨ v ∈ (s.query q).bindings.get group

/-- An edit that binds some values fits if they may stand where they stand afterwards. -/
theorem edited_of_puts {s : Store} {e : Edit} {placed : BindingGroup → List Value}
    (hfits : (∀ group, p.Permits (s.query q) group (placed group)) → e.Fits p s q)
    (hplaced : ∀ query group, ∀ v ∈ placed group, v ∈ (e.apply query).bindings.get group)
    (hputs : s.PutsOnly p.puts q (s.edit q e.apply)) : p.Edited s (s.edit q e.apply) := by
  by_cases hlt : q.index < s.queries.size
  · refine .edit .refl q e (hfits fun group hmem _ v hv => ?_)
    refine hputs group hmem v ?_
    rw [Store.query_edit_self hlt]
    exact hplaced _ group v hv
  · rw [Store.edit_of_le (Nat.le_of_not_lt hlt)]
    exact .refl

/-- Values in one group only. -/
def BindingGroup.only (group : BindingGroup) (values : List Value) (other : BindingGroup) :
    List Value :=
  if other = group then values else []

theorem BindingGroup.mem_only {group other : BindingGroup} {values : List Value} {v : Value}
    (h : v ∈ group.only values other) : other = group ∧ v ∈ values := by
  unfold only at h
  split at h
  · exact ⟨‹_›, h⟩
  · exact nomatch h

theorem BindingGroup.only_self (group : BindingGroup) (values : List Value) :
    group.only values group = values :=
  if_pos rfl

theorem edited_bind_of_puts {s : Store} (group : BindingGroup) (values : List Value)
    (hputs : s.PutsOnly p.puts q (s.edit q (Edit.bind group values).apply)) :
    p.Edited s (s.edit q (Edit.bind group values).apply) := by
  refine edited_of_puts (fun h => ?_) (fun query other v (hv : v ∈ group.only values other) => ?_)
    hputs
  · exact group.only_self values ▸ h group
  · obtain ⟨rfl, hmem⟩ := BindingGroup.mem_only hv
    show v ∈ (query.bindings.set other _).get other
    rw [Bindings.get_set_self]
    exact List.mem_append_right _ hmem

theorem edited_rebind_of_puts {s : Store} (group : BindingGroup) (values : List Value)
    (hputs : s.PutsOnly p.puts q (s.edit q (Edit.rebind group values).apply)) :
    p.Edited s (s.edit q (Edit.rebind group values).apply) := by
  refine edited_of_puts (fun h => ?_) (fun query other v (hv : v ∈ group.only values other) => ?_)
    hputs
  · exact group.only_self values ▸ h group
  · obtain ⟨rfl, hmem⟩ := BindingGroup.mem_only hv
    show v ∈ (query.bindings.set other values).get other
    rwa [Bindings.get_set_self]

theorem Bindings.get_merge (b added : Bindings) (group : BindingGroup) :
    (b.merge added).get group = b.get group ++ added.get group := by
  cases group <;> rfl

theorem edited_merge_of_puts {s : Store} (added : Bindings)
    (hputs : s.PutsOnly p.puts q (s.edit q (Edit.merge added).apply)) :
    p.Edited s (s.edit q (Edit.merge added).apply) := by
  refine edited_of_puts id (fun query group v (hv : v ∈ added.get group) => ?_) hputs
  show v ∈ (query.bindings.merge added).get group
  rw [Bindings.get_merge]
  exact List.mem_append_right _ hv

/-- What a call that builds leaves is what its action leaves. -/
theorem runOn_after (action : Action Unit) (s : Store) :
    ((q.after action).runOn s).2 = (action.runOn s).2 := by
  unfold QueryId.after
  rw [Action.runOn_bind]
  split
  · rfl
  · rfl

theorem edited_setBindings {s : Store} {values name : Value}
    (hputs : s.PutsOnly p.puts q ((q.setBindings values name).runOn s).2) :
    p.Edited s ((q.setBindings values name).runOn s).2 := by
  revert hputs
  unfold QueryId.setBindings Value.itemsNow
  cases BindingGroup.ofValue name with
  | error e => exact fun _ => .refl
  | ok group =>
    cases values with
    | object handle =>
      cases handle with
      | bindings id => exact edited_rebind_of_puts group _
      | _ => exact fun _ => .refl
    | text _ | bytes _ | list _ | tuple _ | map _ => exact edited_rebind_of_puts group _
    | _ => exact fun _ => .refl

theorem edited_addBinding {s : Store} {value name : Value}
    (hputs : s.PutsOnly p.puts q ((q.addBinding value name).runOn s).2) :
    p.Edited s ((q.addBinding value name).runOn s).2 := by
  revert hputs
  unfold QueryId.addBinding
  cases BindingGroup.ofValue name with
  | error e => exact fun _ => .refl
  | ok group => exact edited_bind_of_puts group value.listed

theorem edited_mergeBindings {s : Store} {other : Value}
    (hputs : s.PutsOnly p.puts q ((q.mergeBindings other).runOn s).2) :
    p.Edited s ((q.mergeBindings other).runOn s).2 := by
  revert hputs
  unfold QueryId.mergeBindings Value.needQuery
  cases other.query? with
  | none => exact fun _ => .refl
  | some id => exact edited_merge_of_puts _

/-- The method makes edits only, as long as what it binds in the groups of the unions may stand
there. -/
def Method.EditsPutting (p : Policy) (run : Runner) (m : Method QueryId) : Prop :=
  ∀ q a s, p.start ≤ s.queries.size →
    (m.name ∈ puttingCalls → s.PutsOnly p.puts q ((m.run run q a).runOn s).2) →
    p.Edited s ((m.run run q a).runOn s).2

theorem Method.Edits.putting {m : Method QueryId} (h : m.Edits p run) : m.EditsPutting p run :=
  fun q a s hs _ => h q a s hs

theorem edits_bindingMethods : ∀ m ∈ bindingMethods, m.EditsPutting p run := by
  simp only [bindingMethods, List.forall_mem_cons]
  refine ⟨?_, ?_, ?_, ?_, ?_, fun _ h => nomatch h⟩
  · exact fun q _ _ _ _ => .refl
  · exact fun q _ _ _ _ => .refl
  · intro q a s _ hputs
    have hafter := runOn_after (q := q) (q.setBindings (a.get "bindings") (a.get "type_")) s
    exact hafter ▸ edited_setBindings (hafter ▸ hputs (by decide))
  · intro q a s _ hputs
    have hafter := runOn_after (q := q) (q.addBinding (a.get "value") (a.get "type_")) s
    exact hafter ▸ edited_addBinding (hafter ▸ hputs (by decide))
  · intro q a s _ hputs
    have hafter := runOn_after (q := q) (q.mergeBindings (a.get "query")) s
    exact hafter ▸ edited_mergeBindings (hafter ▸ hputs (by decide))

/-! ## Calls -/

/-- A method of a query or a join condition. -/
theorem edits_method (hrun : p.Runs run) {m : Method QueryId}
    (hm : m ∈ queryMethods ++ joinMethods) (hreorder : m.name = "reorder" → p.reorders)
    (hreset : m.name ≠ "clone_without") : m.EditsPutting p run := by
  simp only [queryMethods, List.mem_append] at hm
  rcases hm with (((((((((((hm | hm) | hm) | hm) | hm) | hm) | hm) | hm) | hm) | hm) | hm) | hm) | hm
  · exact (edits_selectMethods hrun m hm).putting
  · exact (edits_joiningMethods hrun m hm).putting
  · exact (edits_comparisonMethods hrun m hm).putting
  · exact (edits_membershipMethods hrun m hm).putting
  · exact (edits_furtherWhereMethods hrun m hm).putting
  · exact (edits_groupMethods m hm).putting
  · exact (edits_orderMethods hrun m hm hreorder).putting
  · exact edits_bindingMethods m hm
  · exact (edits_compilingMethods hrun m hm).putting
  · exact (edits_readingMethods hrun m hm).putting
  · exact (edits_changingMethods hrun m hm).putting
  · exact (edits_copyingMethods m hm hreset).putting
  · exact (edits_joinConditionMethods hrun m hm).putting

/-- A call of a method, which fails without an edit if its arguments do not match. -/
theorem edited_call (hrun : p.Runs run) {m : Method QueryId}
    (hm : m ∈ queryMethods ++ joinMethods) (hreorder : m.name = "reorder" → p.reorders)
    (hreset : m.name ≠ "clone_without") {placed : List Value} {named : List (String × Value)}
    {s : Store} (hs : p.start ≤ s.queries.size)
    (hputs : m.name ∈ puttingCalls →
      s.PutsOnly p.puts q ((m.call run q placed named).runOn s).2) :
    p.Edited s ((m.call run q placed named).runOn s).2 := by
  revert hputs
  unfold Method.call
  cases m.signature.bind placed named with
  | error e => exact fun _ => .refl
  | ok a => exact edits_method hrun hm hreorder hreset q a s hs

end FluentSql
