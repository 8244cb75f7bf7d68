import FluentSql.Proofs.Accounting.Building
import FluentSql.Script.QueryMethods

/-!
# The methods of queries and the ledger

Every method of a query accounts for what it does, as long as its callbacks
do.

* Compiling a statement leaves the ledger to the extensions it consults.
* Running a query runs one statement, or one after another where the grammar
  gives several.  What stands around it, such as a copy of the query, leaves
  the ledger alone.
* `accounts_queryMethods` goes through the methods in the families in which
  they are declared.
-/

namespace FluentSql

variable {calls : String → Prop} {run : Runner} {q : QueryId}

/-! ## Copies -/

theorem accounts_copyWithout (q : QueryId) (properties : Value) :
    (q.copyWithout properties).Accounts calls := by
  refine (accounts_copy q).next fun copy => (accounts_itemsNow properties).next fun names => ?_
  refine (accounts_forIn fun name => (accounts_ofExcept _).next fun property => ?_).next fun _ =>
    accounts_pure _
  exact (accounts_edit copy _).next fun _ => accounts_pure _

theorem accounts_copyWithoutBindings (q : QueryId) (groups : Value) :
    (q.copyWithoutBindings groups).Accounts calls := by
  refine (accounts_copy q).next fun copy => (accounts_itemsNow groups).next fun names => ?_
  refine (accounts_forIn fun name => (accounts_ofExcept _).next fun group => ?_).next fun _ =>
    accounts_pure _
  exact (accounts_edit copy _).next fun _ => accounts_pure _

theorem accounts_forAggregate (q : QueryId) (function columns : Value) :
    (q.forAggregate function columns).Accounts calls :=
  (accounts_copy q).next fun copy => (accounts_edit copy _).next fun _ =>
    (accounts_itemsNow columns).next fun _ => (accounts_edit copy _).next fun _ =>
      (accounts_edit copy _).next fun _ => accounts_pure _

/-! ## Statements -/

theorem accounts_recordOf (hrun : run.Accounts calls) (v : Value) :
    (recordOf run v).Accounts calls := by
  refine (accounts_now v).next fun v => ?_
  split
  · exact accounts_pure _
  · refine accounts_get.next fun s => ?_
    split
    · exact accounts_throw _
    · refine (accounts_extension hrun _ _ _).next fun keys =>
        (accounts_itemsNow keys).next fun keys => ?_
      split
      · exact accounts_pure _
      · exact accounts_throw _
  · exact (accounts_ofExcept _).next fun _ => (accounts_ofExcept _).next fun _ => accounts_pure _

theorem accounts_recordsOf (hrun : run.Accounts calls) (values : Value) :
    (recordsOf run values).Accounts calls := by
  refine (accounts_now values).next fun values => ?_
  split
  · exact accounts_pure _
  · exact (accounts_ofExcept _).next fun _ => accounts_mapM fun v _ => accounts_recordOf hrun v

theorem accounts_toExistsSql (hrun : run.Accounts calls) (q : QueryId) :
    (q.toExistsSql run).Accounts calls :=
  (accounts_compile hrun q _ _).next fun _ => (accounts_bindings q).next fun _ => accounts_pure _

theorem accounts_insertStatement (hrun : run.Accounts calls) (q : QueryId) (values : Value)
    (method : String)
    (sql : Grammar → Oracle → Query → Value → Except Failure String) :
    (q.insertStatement run values method sql).Accounts calls :=
  (accounts_recordsOf hrun values).next fun _ => (accounts_ofExcept _).next fun _ =>
    (accounts_shown _).next fun _ => (accounts_compile hrun q _ _).next fun _ => accounts_pure _

theorem accounts_toInsertGetIdSql (hrun : run.Accounts calls) (q : QueryId)
    (values sequence : Value) :
    (q.toInsertGetIdSql run values sequence).Accounts calls :=
  (accounts_shown sequence).next fun _ => accounts_insertStatement hrun q values _ _

theorem accounts_toUpdateSql (hrun : run.Accounts calls) (q : QueryId) (values : Value) :
    (q.toUpdateSql run values).Accounts calls :=
  (accounts_shown values).next fun _ => (accounts_compile hrun q _ _).next fun _ =>
    (accounts_now values).next fun _ => (accounts_consult hrun _).next fun _ => accounts_pure _

theorem accounts_idColumn (q : QueryId) : q.idColumn.Accounts calls :=
  (accounts_grammarFor q _).next fun _ => (accounts_read q).next fun _ =>
    (accounts_displayNow _).next fun _ => accounts_pure _

theorem accounts_toDeleteSql (hrun : run.Accounts calls) (q : QueryId) (id : Value) :
    (q.toDeleteSql run id).Accounts calls := by
  have hcompile : ∀ target : QueryId, Action.Accounts calls (do
      let sql ← target.compile run "compile_delete" Grammar.deleteSql
      let bindings ← target.arrange run "prepare_bindings_for_delete" fun _ oracle bindings =>
        Grammar.deleteBindings oracle bindings
      return (⟨sql, bindings⟩ : Statement)) := fun target =>
    (accounts_compile hrun target _ _).next fun _ => (accounts_consult hrun _).next fun _ =>
      accounts_pure _
  unfold QueryId.toDeleteSql
  dsimp only
  split
  · exact (accounts_pure q).next hcompile
  · exact (accounts_copy q).next fun restricted => (accounts_idColumn q).next fun column =>
      (accounts_where hrun restricted _ _ _ _).next fun _ =>
        (accounts_pure restricted).next hcompile

theorem accounts_toTruncateSql (hrun : run.Accounts calls) (q : QueryId) :
    (q.toTruncateSql run).Accounts calls :=
  (accounts_compile hrun q _ _).next fun _ => accounts_pure _

/-! ## Running a query -/

theorem accounts_needConnection (q : QueryId) : q.needConnection.Accounts calls := by
  refine (accounts_read q).next fun query => ?_
  cases query.connection with
  | none => exact accounts_throw _
  | some id => exact accounts_pure _

theorem accounts_rows (hrun : run.Accounts calls) (q : QueryId) (columns : Value) :
    (q.get run columns).Accounts calls := by
  have hselect : ∀ chosen : List Value, Action.Accounts calls (do
      let shown ← chosen.mapM Value.shown
      let sql ← q.compile run "compile_select" fun g attached query =>
        g.selectSql attached
          (if chosen.isEmpty then query else { query with columns := some shown })
      let bindings ← q.bindings
      (← q.needConnection).select (.text sql) (.list bindings)) := fun chosen =>
    (accounts_mapM fun v _ => accounts_shown v).next fun _ =>
      (accounts_compile hrun q _ _).next fun _ => (accounts_bindings q).next fun _ =>
        (accounts_needConnection q).next fun id => accounts_run id _ _ _
  refine (accounts_read q).next fun query => ?_
  dsimp only
  split
  · exact (accounts_itemsOrNone columns).next hselect
  · exact (accounts_pure _).next hselect

theorem accounts_first (hrun : run.Accounts calls) (q : QueryId) (columns : Value) :
    (q.first run columns).Accounts calls :=
  (accounts_copy q).next fun copy => (accounts_limit copy _).next fun _ =>
    (accounts_rows hrun copy columns).next fun _ => accounts_pure _

theorem accounts_find (hrun : run.Accounts calls) (q : QueryId) (id columns : Value) :
    (q.find run id columns).Accounts calls :=
  (accounts_copy q).next fun copy => (accounts_where hrun copy _ _ _ _).next fun _ =>
    accounts_first hrun copy columns

theorem accounts_value (hrun : run.Accounts calls) (q : QueryId) (column : Value) :
    (q.value run column).Accounts calls := by
  refine (accounts_first hrun q _).next fun row => ?_
  split
  · exact accounts_pure _
  · exact accounts_pure _

theorem accounts_pluck (hrun : run.Accounts calls) (q : QueryId) (column : Value) :
    (q.pluck run column).Accounts calls :=
  (accounts_rows hrun q _).next fun _ => accounts_ofExcept _

theorem accounts_hasRows (hrun : run.Accounts calls) (q : QueryId) :
    (q.hasRows run).Accounts calls :=
  (accounts_toExistsSql hrun q).next fun _ => (accounts_needConnection q).next fun id =>
    Action.Accounts.next (accounts_run id _ _ _) fun _ => (accounts_ofExcept _).next fun _ =>
      accounts_pure _

theorem accounts_aggregate (hrun : run.Accounts calls) (q : QueryId) (function columns : Value) :
    (q.aggregate run function columns).Accounts calls :=
  (accounts_forAggregate q _ _).next fun copy => (accounts_rows hrun copy _).next fun _ =>
    (accounts_ofExcept _).next fun _ => accounts_pure _

theorem accounts_count (hrun : run.Accounts calls) (q : QueryId) (columns : Value) :
    (q.count run columns).Accounts calls := by
  refine (accounts_aggregate hrun q _ _).next fun result => ?_
  split
  · exact accounts_ofExcept _
  · exact accounts_pure _

theorem accounts_sum (hrun : run.Accounts calls) (q : QueryId) (column : Value) :
    (q.sum run column).Accounts calls :=
  (accounts_aggregate hrun q _ _).next fun _ => accounts_pure _

theorem accounts_insert (hrun : run.Accounts calls) (q : QueryId) (values : Value) :
    (q.insert run values).Accounts calls := by
  have hinsert : ∀ values : List Value, Action.Accounts calls (do
      if values.isEmpty then return ()
      let statement ← q.toInsertSql run (.list values)
      (← q.needConnection).statement (.text statement.sql) (.list statement.bindings)) := by
    intro values
    split
    · exact accounts_pure _
    · exact (accounts_insertStatement hrun q _ _ _).next fun _ => (accounts_needConnection q).next
        fun id => accounts_run id _ _ _
  refine (accounts_now values).next fun values => ?_
  dsimp only
  split
  · exact (accounts_pure _).next hinsert
  · exact (accounts_ofExcept _).next hinsert

theorem accounts_insertOrIgnore (hrun : run.Accounts calls) (q : QueryId) (values : Value) :
    (q.insertOrIgnore run values).Accounts calls := by
  unfold QueryId.insertOrIgnore
  split
  · exact accounts_pure _
  · exact (accounts_insertStatement hrun q _ _ _).next fun _ => (accounts_needConnection q).next
      fun id => accounts_run id _ _ _

theorem accounts_insertGetId (hrun : run.Accounts calls) (q : QueryId) (values sequence : Value) :
    (q.insertGetId run values sequence).Accounts calls :=
  (accounts_toInsertGetIdSql hrun q values sequence).next fun _ => (accounts_needConnection q).next
    fun id => accounts_run id _ _ _

theorem accounts_insertUsing (hrun : run.Accounts calls) (q : QueryId) (columns query : Value) :
    (q.insertUsing run columns query).Accounts calls :=
  (accounts_createSub hrun q query).next fun _ => (accounts_needConnection q).next fun id =>
    (accounts_grammarFor q _).next fun _ => (accounts_itemsNow columns).next fun _ =>
      (accounts_mapM fun v _ => accounts_shown v).next fun _ =>
        (accounts_compile hrun q _ _).next fun _ => accounts_run id _ _ _

theorem accounts_update (hrun : run.Accounts calls) (q : QueryId) (values : Value) :
    (q.update run values).Accounts calls :=
  (accounts_toUpdateSql hrun q values).next fun _ => (accounts_needConnection q).next
    fun id => accounts_run id _ _ _

theorem accounts_step (hrun : run.Accounts calls) (q : QueryId) (column amount extra : Value)
    (sign : String) : (q.step run column amount extra sign).Accounts calls := by
  refine (accounts_ofExcept _).next fun amount => (accounts_wrapped q column).next fun wrapped => ?_
  dsimp only
  split
  · exact accounts_throw _
  · split
    · exact (accounts_recordOf hrun extra).next fun _ => accounts_update hrun q _
    · exact (accounts_pure _).next fun _ => accounts_update hrun q _

theorem accounts_delete (hrun : run.Accounts calls) (q : QueryId) (id : Value) :
    (q.delete run id).Accounts calls :=
  (accounts_toDeleteSql hrun q id).next fun _ => (accounts_needConnection q).next
    fun id => accounts_run id _ _ _

theorem accounts_truncate (hrun : run.Accounts calls) (q : QueryId) :
    (q.truncate run).Accounts calls := by
  refine (accounts_needConnection q).next fun id => (accounts_toTruncateSql hrun q).next
    fun statements => ?_
  refine (accounts_forIn fun statement => ?_).next fun _ => accounts_pure _
  exact Action.Accounts.next (accounts_run id _ _ _) fun _ => accounts_pure _

/-! ## Families of methods -/

/-- The method accounts for what it does, whatever its object and its arguments are. -/
def Method.Accounts {α : Type} (calls : String → Prop) (run : Runner) (m : Method α) : Prop :=
  ∀ target a, (m.run run target a).Accounts calls

theorem accounts_builder {name : String} {parameters : List Parameter}
    {build : Runner → QueryId → Arguments → Action Unit}
    (h : ∀ q a, (build run q a).Accounts calls) :
      (builder name parameters build).Accounts calls run :=
  fun q a => (h q a).next fun _ => accounts_pure _

theorem accounts_builderOfMany {name : String} {build : Runner → QueryId → List Value → Action Unit}
    (h : ∀ q vs, (build run q vs).Accounts calls) : (builderOfMany name build).Accounts calls run :=
  fun q a => (h q a.rest).next fun _ => accounts_pure _

theorem accounts_selectMethods (hrun : run.Accounts calls) :
    ∀ m ∈ selectMethods, m.Accounts calls run := by
  simp only [selectMethods, List.forall_mem_cons]
  refine ⟨?_, ?_, ?_, ?_, ?_, ?_, ?_, ?_, fun _ h => nomatch h⟩
  · exact accounts_builderOfMany fun q _ => accounts_select hrun q _
  · exact accounts_builderOfMany fun q _ => accounts_addSelect hrun q _
  · exact accounts_builder fun q _ => accounts_selectRaw q _ _
  · exact accounts_builder fun q _ => accounts_selectSub hrun q _ _
  · exact accounts_builder fun q _ => accounts_distinct q
  · exact accounts_builder fun q _ => accounts_setSource hrun q _ _
  · exact accounts_builder fun q _ => accounts_fromSub hrun q _ _
  · exact accounts_builder fun q _ => accounts_fromRaw q _ _

theorem accounts_joinMethodsOf (hrun : run.Accounts calls) (word : String) :
    ∀ m ∈ joinMethodsOf word, m.Accounts calls run := by
  simp only [joinMethodsOf, List.forall_mem_cons]
  refine ⟨?_, ?_, ?_, fun _ h => nomatch h⟩
  · exact accounts_builder fun q _ => accounts_join hrun q _ _ _ _ _ _
  · exact accounts_builder fun q _ => accounts_join hrun q _ _ _ _ _ _
  · exact accounts_builder fun q _ => accounts_joinSub hrun q _ _ _ _ _ _ _

theorem accounts_joiningMethods (hrun : run.Accounts calls) :
    ∀ m ∈ joiningMethods, m.Accounts calls run := by
  simp only [joiningMethods, List.forall_mem_append, List.forall_mem_cons]
  refine ⟨⟨⟨⟨?_, ?_, ?_, fun _ h => nomatch h⟩, accounts_joinMethodsOf hrun _⟩,
    accounts_joinMethodsOf hrun _⟩, ?_, ?_, fun _ h => nomatch h⟩
  · exact accounts_builder fun q _ => accounts_join hrun q _ _ _ _ _ _
  · exact accounts_builder fun q _ => accounts_join hrun q _ _ _ _ _ _
  · exact accounts_builder fun q _ => accounts_joinSub hrun q _ _ _ _ _ _ _
  · exact accounts_builder fun q _ => accounts_crossJoin hrun q _ _ _ _
  · exact fun q _ => (accounts_needQuery _).next fun parent =>
      accounts_returning (accounts_newJoin parent _ _) _

theorem accounts_comparisonMethods (hrun : run.Accounts calls) :
    ∀ m ∈ comparisonMethods, m.Accounts calls run := by
  simp only [comparisonMethods, List.forall_mem_cons]
  refine ⟨?_, ?_, ?_, ?_, ?_, ?_, ?_, ?_, ?_, ?_, ?_, fun _ h => nomatch h⟩
  · exact accounts_builder fun q _ => accounts_where hrun q _ _ _ _
  · exact accounts_builder fun q _ => accounts_where hrun q _ _ _ _
  · exact accounts_builder fun q _ => accounts_whereNot hrun q _ _ _ _
  · exact accounts_builder fun q _ => accounts_whereColumn hrun q _ _ _ _
  · exact accounts_builder fun q _ => accounts_whereColumn hrun q _ _ _ _
  · exact accounts_builder fun q _ => accounts_whereRaw q _ _ _
  · exact accounts_builder fun q _ => accounts_whereRaw q _ _ _
  · exact accounts_builder fun q _ => accounts_whereNested hrun q _ _
  · exact fun q _ => accounts_returning (accounts_forNestedWhere hrun q) _
  · exact accounts_builder fun q _ => (accounts_needQuery _).next fun nested =>
      accounts_addNested q nested _
  · exact accounts_builder fun q _ => accounts_whereSub hrun q _ _ _ _

theorem accounts_membershipMethods (hrun : run.Accounts calls) :
    ∀ m ∈ membershipMethods, m.Accounts calls run := by
  simp only [membershipMethods, List.forall_mem_cons]
  refine ⟨?_, ?_, ?_, ?_, ?_, ?_, ?_, ?_, ?_, ?_, ?_, ?_, ?_, ?_, fun _ h => nomatch h⟩
  · exact accounts_builder fun q _ => accounts_whereIn hrun q _ _ _ _
  · exact accounts_builder fun q _ => accounts_whereIn hrun q _ _ _ _
  · exact accounts_builder fun q _ => accounts_whereIn hrun q _ _ _ _
  · exact accounts_builder fun q _ => accounts_whereIn hrun q _ _ _ _
  · exact accounts_builder fun q _ => accounts_whereIntegerIn q _ _ _ _
  · exact accounts_builder fun q _ => accounts_whereIntegerIn q _ _ _ _
  · exact accounts_builder fun q _ => accounts_whereNull q _ _ _
  · exact accounts_builder fun q _ => accounts_whereNull q _ _ _
  · exact accounts_builder fun q _ => accounts_whereNull q _ _ _
  · exact accounts_builder fun q _ => accounts_whereNull q _ _ _
  · exact accounts_builder fun q _ => accounts_whereBetween q _ _ _ _
  · exact accounts_builder fun q _ => accounts_whereBetween q _ _ _ _
  · exact accounts_builder fun q _ => accounts_whereBetween q _ _ _ _
  · exact accounts_builder fun q _ => accounts_whereBetween q _ _ _ _

theorem accounts_furtherWhereMethods (hrun : run.Accounts calls) :
    ∀ m ∈ furtherWhereMethods, m.Accounts calls run := by
  unfold furtherWhereMethods
  simp only [List.forall_mem_append]
  have hdate : ∀ part, (datePartMethod part).Accounts calls run := fun part =>
    accounts_builder fun q _ => accounts_whereDatePart hrun q part _ _ _ _
  have horDate : ∀ part, (orDatePartMethod part).Accounts calls run := fun part =>
    accounts_builder fun q _ => accounts_whereDatePart hrun q part _ _ _ _
  refine ⟨⟨List.forall_mem_map.2 fun part _ => hdate part,
    List.forall_mem_map.2 fun part _ => horDate part⟩, ?_⟩
  simp only [List.forall_mem_cons]
  refine ⟨?_, ?_, ?_, ?_, ?_, ?_, ?_, ?_, ?_, ?_, ?_, ?_, fun _ h => nomatch h⟩
  · exact accounts_builder fun q _ => accounts_whereExists hrun q _ _ _
  · exact accounts_builder fun q _ => accounts_whereExists hrun q _ _ _
  · exact accounts_builder fun q _ => accounts_whereExists hrun q _ _ _
  · exact accounts_builder fun q _ => accounts_whereExists hrun q _ _ _
  · exact accounts_builder fun q _ => accounts_addWhereExists q _ _ _
  · exact accounts_builder fun q _ => accounts_whereRowValues q _ _ _ _
  · exact accounts_builder fun q _ => accounts_whereRowValues q _ _ _ _
  · exact accounts_builder fun q _ => accounts_whereJsonContains q _ _ _ _
  · exact accounts_builder fun q _ => accounts_whereJsonContains q _ _ _ _
  · exact accounts_builder fun q _ => accounts_whereJsonContains q _ _ _ _
  · exact accounts_builder fun q _ => accounts_whereJsonLength q _ _ _ _
  · exact accounts_builder fun q _ => accounts_whereJsonLength q _ _ _ _

theorem accounts_groupMethods : ∀ m ∈ groupMethods, m.Accounts calls run := by
  simp only [groupMethods, List.forall_mem_cons]
  refine ⟨?_, ?_, ?_, ?_, ?_, ?_, ?_, ?_, ?_, fun _ h => nomatch h⟩
  · exact accounts_builderOfMany fun q _ => accounts_addGroups q _
  · exact accounts_builder fun q _ => accounts_groupByRaw q _ _
  · exact accounts_builder fun q _ => accounts_having q _ _ _ _
  · exact accounts_builder fun q _ => accounts_having q _ _ _ _
  · exact accounts_builder fun q _ => accounts_havingRaw q _ _ _
  · exact accounts_builder fun q _ => accounts_havingRaw q _ _ _
  · exact accounts_builder fun q _ => accounts_havingBetween q _ _ _ _
  · exact accounts_builder fun q _ => accounts_havingNull q _ _ _
  · exact accounts_builder fun q _ => accounts_havingNull q _ _ _

theorem accounts_orderMethods (hrun : run.Accounts calls) :
    ∀ m ∈ orderMethods, m.Accounts calls run := by
  simp only [orderMethods, List.forall_mem_cons]
  refine ⟨?_, ?_, ?_, ?_, ?_, ?_, ?_, ?_, ?_, ?_, ?_, ?_, ?_, ?_, ?_, ?_, ?_, ?_,
    fun _ h => nomatch h⟩
  · exact accounts_builder fun q _ => accounts_orderBy hrun q _ _
  · exact accounts_builder fun q _ => accounts_orderBy hrun q _ _
  · exact accounts_builder fun q _ => accounts_orderBy hrun q _ _
  · exact accounts_builder fun q _ => accounts_orderBy hrun q _ _
  · exact accounts_builder fun q _ => accounts_inRandomOrder q _
  · exact accounts_builder fun q _ => accounts_orderByRaw q _ _
  · exact accounts_builder fun q _ => accounts_reorder hrun q _ _
  · exact accounts_builder fun q _ => accounts_offset q _
  · exact accounts_builder fun q _ => accounts_offset q _
  · exact accounts_builder fun q _ => accounts_limit q _
  · exact accounts_builder fun q _ => accounts_limit q _
  · exact accounts_builder fun q _ => accounts_forPage q _ _
  · exact accounts_builder fun q _ => accounts_union hrun q _ _
  · exact accounts_builder fun q _ => accounts_union hrun q _ _
  · exact accounts_builder fun q _ => accounts_lock q _
  · exact accounts_builder fun q _ => accounts_lock q _
  · exact accounts_builder fun q _ => accounts_lock q _
  · exact fun q _ => accounts_whenever hrun q _ _ _

theorem accounts_compilingMethods (hrun : run.Accounts calls) :
    ∀ m ∈ compilingMethods, m.Accounts calls run := by
  simp only [compilingMethods, List.forall_mem_cons]
  refine ⟨?_, ?_, ?_, ?_, ?_, ?_, ?_, ?_, ?_, fun _ h => nomatch h⟩
  · exact fun q _ => accounts_returning (accounts_toSql hrun q) _
  · exact fun q _ => (accounts_toSql hrun q).next fun _ =>
      accounts_returning (accounts_bindings q) _
  · exact fun q _ => accounts_returning (accounts_toExistsSql hrun q) _
  · exact fun q _ => accounts_returning (accounts_insertStatement hrun q _ _ _) _
  · exact fun q _ => accounts_returning (accounts_insertStatement hrun q _ _ _) _
  · exact fun q _ => accounts_returning (accounts_toInsertGetIdSql hrun q _ _) _
  · exact fun q _ => accounts_returning (accounts_toUpdateSql hrun q _) _
  · exact fun q _ => accounts_returning (accounts_toDeleteSql hrun q _) _
  · exact fun q _ => accounts_returning (accounts_toTruncateSql hrun q) _

theorem accounts_readingMethods (hrun : run.Accounts calls) :
    ∀ m ∈ readingMethods, m.Accounts calls run := by
  simp only [readingMethods, List.forall_mem_cons]
  refine ⟨?_, ?_, ?_, ?_, ?_, ?_, ?_, ?_, ?_, ?_, ?_, ?_, ?_, ?_, ?_, fun _ h => nomatch h⟩
  · exact fun q _ => accounts_returning (accounts_rows hrun q _) _
  · exact fun q _ => accounts_returning (accounts_first hrun q _) _
  · exact fun q _ => accounts_returning (accounts_find hrun q _ _) _
  · exact fun q _ => accounts_value hrun q _
  · exact fun q _ => accounts_returning (accounts_pluck hrun q _) _
  · exact fun q _ => accounts_returning (accounts_hasRows hrun q) _
  · exact fun q _ => accounts_returning (accounts_hasRows hrun q) _
  · exact fun q _ => accounts_returning (accounts_count hrun q _) _
  · exact fun q _ => accounts_aggregate hrun q _ _
  · exact fun q _ => accounts_aggregate hrun q _ _
  · exact fun q _ => accounts_sum hrun q _
  · exact fun q _ => accounts_aggregate hrun q _ _
  · exact fun q _ => accounts_aggregate hrun q _ _
  · exact fun q _ => accounts_aggregate hrun q _ _
  · exact fun q _ => accounts_returning (accounts_forAggregate q _ _) _

theorem accounts_changingMethods (hrun : run.Accounts calls) :
    ∀ m ∈ changingMethods, m.Accounts calls run := by
  simp only [changingMethods, List.forall_mem_cons]
  refine ⟨?_, ?_, ?_, ?_, ?_, ?_, ?_, ?_, ?_, fun _ h => nomatch h⟩
  · exact fun q _ => (accounts_insert hrun q _).next fun _ => accounts_pure _
  · exact fun q _ => accounts_insertOrIgnore hrun q _
  · exact fun q _ => accounts_insertGetId hrun q _ _
  · exact fun q _ => accounts_insertUsing hrun q _ _
  · exact fun q _ => accounts_update hrun q _
  · exact fun q _ => accounts_step hrun q _ _ _ _
  · exact fun q _ => accounts_step hrun q _ _ _ _
  · exact fun q _ => accounts_delete hrun q _
  · exact fun q _ => (accounts_truncate hrun q).next fun _ => accounts_pure _

theorem accounts_copyingMethods : ∀ m ∈ copyingMethods, m.Accounts calls run := by
  simp only [copyingMethods, List.forall_mem_cons]
  refine ⟨?_, ?_, ?_, ?_, ?_, ?_, fun _ h => nomatch h⟩
  · exact fun q _ => accounts_pure _
  · exact fun q _ => accounts_returning (accounts_newQuery q) _
  · exact fun q _ => accounts_returning (accounts_newStatement q) _
  · exact fun q _ => accounts_returning (accounts_copy q) _
  · exact fun q _ => accounts_returning (accounts_copyWithout q _) _
  · exact fun q _ => accounts_returning (accounts_copyWithoutBindings q _) _

theorem accounts_setBindings (q : QueryId) (values name : Value) :
    (q.setBindings values name).Accounts calls :=
  (accounts_ofExcept _).next fun _ => (accounts_itemsNow values).next fun _ => accounts_edit q _

theorem accounts_addBinding (q : QueryId) (value name : Value) :
    (q.addBinding value name).Accounts calls :=
  (accounts_ofExcept _).next fun _ => accounts_edit q _

theorem accounts_mergeBindings (q : QueryId) (other : Value) :
    (q.mergeBindings other).Accounts calls :=
  (accounts_needQuery other).next fun source => (accounts_read source).next fun _ =>
    accounts_edit q _

theorem accounts_bindingMethods : ∀ m ∈ bindingMethods, m.Accounts calls run := by
  simp only [bindingMethods, List.forall_mem_cons]
  refine ⟨?_, ?_, ?_, ?_, ?_, fun _ h => nomatch h⟩
  · exact fun q _ => accounts_returning (accounts_bindings q) _
  · exact fun q _ => accounts_pure _
  · exact accounts_builder fun q _ => accounts_setBindings q _ _
  · exact accounts_builder fun q _ => accounts_addBinding q _ _
  · exact accounts_builder fun q _ => accounts_mergeBindings q _

theorem accounts_joinConditionMethods (hrun : run.Accounts calls) :
    ∀ m ∈ joinMethods, m.Accounts calls run := by
  simp only [joinMethods, List.forall_mem_cons]
  refine ⟨?_, ?_, fun _ h => nomatch h⟩
  · exact accounts_builder fun q _ => accounts_on hrun q _ _ _ _
  · exact accounts_builder fun q _ => accounts_on hrun q _ _ _ _

theorem accounts_queryMethods (hrun : run.Accounts calls) :
    ∀ m ∈ queryMethods ++ joinMethods, m.Accounts calls run := by
  simp only [queryMethods, List.forall_mem_append]
  exact ⟨⟨⟨⟨⟨⟨⟨⟨⟨⟨⟨⟨accounts_selectMethods hrun, accounts_joiningMethods hrun⟩,
    accounts_comparisonMethods hrun⟩, accounts_membershipMethods hrun⟩,
    accounts_furtherWhereMethods hrun⟩, accounts_groupMethods⟩, accounts_orderMethods hrun⟩,
    accounts_bindingMethods⟩, accounts_compilingMethods hrun⟩, accounts_readingMethods hrun⟩,
    accounts_changingMethods hrun⟩, accounts_copyingMethods⟩, accounts_joinConditionMethods hrun⟩

end FluentSql
