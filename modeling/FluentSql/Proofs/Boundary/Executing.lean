import FluentSql.Fluent.Execute
import FluentSql.Proofs.Boundary.Clauses
import FluentSql.Proofs.Boundary.Copying

/-!
# Statements within a boundary

Compiling a statement of a query and running it changes no query that is
there, so it is enough that the query is not hidden; it may be kept.

* `keeps_forIn` is a loop, and `Store.Alike` says that stores have the same
  queries, grammars and extensions.
* `keeps_run` sends a statement on a connection.
* The statements of a query, its copies, and the calls that run it.
-/

namespace FluentSql

variable {b : Boundary} {run : Runner} {q : QueryId}

/-! ## Loops -/

theorem keeps_forIn {α : Type} {xs : List α} {f : α → Action (ForInStep PUnit)}
    (h : ∀ x ∈ xs, (f x).Keeps b) :
    Action.Keeps b (forIn xs PUnit.unit fun x _ => f x) := by
  induction xs with
  | nil => exact within_pure trivial
  | cons x xs ih =>
    rw [List.forIn_cons]
    refine (h x List.mem_cons_self).next fun step => ?_
    cases step with
    | done => exact within_pure trivial
    | yield => exact ih fun y hy => h y (List.mem_cons_of_mem x hy)

/-! ## Stores that differ beside their queries -/

/-- Two stores have the same queries, grammars, resolvers, callbacks and extensions, and their
connections use the same grammars. -/
structure Store.Alike (s s' : Store) : Prop where
  queries : s'.queries = s.queries
  grammars : s'.grammars = s.grammars
  connections : ∀ id, (s'.connection id).grammar = (s.connection id).grammar
  resolvers : s'.resolvers = s.resolvers
  callbacks : s'.callbacks = s.callbacks
  extensions : s'.extensions = s.extensions

theorem keeps_modifyStore {f : Store → Store} (h : ∀ s, Store.Alike s (f s)) :
    Action.Keeps b (modifyThe Store f) := by
  intro s hs
  show b.Guards (f s) ∧ b.Step s (f s) ∧ _
  have hquery : ∀ id, (f s).query id = s.query id := fun id => by
    unfold Store.query
    rw [(h s).queries]
  refine ⟨⟨?_, (h s).callbacks ▸ hs.world, fun id hid => ?_, fun id => ?_, fun id => ?_, fun request callback hc => ?_⟩,
    ⟨?_, fun id _ => hquery id, fun id _ => by rw [hquery], fun _ => ⟨?_, fun id _ => ?_, ?_⟩⟩,
    fun _ _ => trivial⟩
  · rw [(h s).queries]
    exact hs.start_le
  · rw [hquery]
    exact hs.queries id hid
  · rw [(h s).connections]
    exact hs.connections id
  · unfold Store.resolver
    rw [(h s).resolvers]
    exact hs.resolvers id
  · refine hs.answers request callback ?_
    unfold Store.extension? at hc
    rwa [(h s).extensions] at hc
  · exact Nat.le_of_eq (by rw [(h s).queries])
  · exact Nat.le_of_eq (by rw [(h s).grammars])
  · unfold Store.grammar
    rw [(h s).grammars]
  · exact (h s).extensions

theorem keeps_modifyConnection (id : ConnectionId) {f : Connection → Connection}
    (hf : ∀ c, (f c).grammar = c.grammar) : (id.modify f).Keeps b := by
  refine keeps_modifyStore fun s => ⟨rfl, rfl, fun other => ?_, rfl, rfl, rfl⟩
  unfold Store.connection
  dsimp only
  rw [Array.getElem?_modify]
  split
  · cases s.connections[other.index]? with
    | none => rfl
    | some c => exact hf c
  · rfl

theorem keeps_writeLog (record : LogRecord) : record.write.Keeps b :=
  keeps_modifyStore fun _ => ⟨rfl, rfl, fun _ => rfl, rfl, rfl, rfl⟩

/-! ## Connections -/

section

variable (id : ConnectionId)

theorem keeps_engine : id.engine.Keeps b := by
  unfold ConnectionId.engine
  refine within_get.bind fun s _ => ?_
  split
  · exact within_pure trivial
  · exact (keeps_displayNow _).next fun _ => within_throw _

theorem keeps_send (engine : Engine) (statement : SentStatement) :
    (id.send engine statement).Keeps b := by
  refine Action.Keeps.next (keeps_modifyConnection id fun _ => rfl) fun _ => ?_
  refine Action.Keeps.next (keeps_modifyStore fun _ => ?_) fun _ => within_pure trivial
  exact ⟨rfl, rfl, fun _ => rfl, rfl, rfl, rfl⟩

theorem keeps_record (sql : Value) (bindings : List Value) : (id.record sql bindings).Keeps b := by
  refine within_get.bind fun s _ => (keeps_writeLog _).next fun _ => ?_
  exact keeps_modifyConnection id fun c => by split <;> rfl

/-- A statement changes no query, whether the engine accepts it or not. -/
theorem keeps_run {α : Type} (sql bindings : Value) (read : StatementResult → Except Failure α) :
    (id.run sql bindings read).Keeps b := by
  refine (keeps_engine id).next fun engine => ?_
  refine (keeps_itemsOrNone bindings).next fun bindings => (keeps_shown sql).next fun shown => ?_
  refine (keeps_ofExcept _).next fun statement => (keeps_send id engine statement).next
    fun outcome => ?_
  cases outcome with
  | accepted result =>
    exact (keeps_ofExcept _).next fun value => (keeps_record id sql bindings).next fun _ =>
      within_pure trivial
  | rejected reason =>
    refine within_get.bind fun s _ => (keeps_displayNow _).next fun _ => within_get.bind
      fun s _ => (keeps_writeLog _).next fun _ => within_get.bind fun s _ => within_throw _

end

/-! ## Statements -/

theorem keeps_recordOf (hrun : b.Runs run) (v : Value) : (recordOf run v).Keeps b := by
  refine (keeps_now v).next fun v => ?_
  split
  · exact within_pure trivial
  · rename_i q
    refine within_get.bind fun s _ => ?_
    split
    · exact within_throw _
    · refine (within_answer hrun q .keys).keeps.next fun keys => ?_
      refine (keeps_itemsNow keys).next fun keys => ?_
      split
      · exact within_pure trivial
      · exact within_throw _
  · exact (keeps_ofExcept _).next fun _ => (keeps_ofExcept _).next fun _ => within_pure trivial

theorem keeps_recordsOf (hrun : b.Runs run) (values : Value) :
    (recordsOf run values).Keeps b := by
  refine (keeps_now values).next fun values => ?_
  split
  · exact within_pure trivial
  · exact (keeps_ofExcept _).next fun vs => (within_mapM fun v _ => keeps_recordOf hrun v).keeps

theorem keeps_toExistsSql (hrun : b.Runs run) (q : QueryId) : (q.toExistsSql run).Keeps b :=
  (keeps_compile hrun q _ _).next fun _ => (keeps_bindings q).next fun _ => within_pure trivial

theorem keeps_insertStatement (hrun : b.Runs run) (q : QueryId) (values : Value) (method : String)
    (sql : Grammar → Oracle → Query → Value → Except Failure String) :
    (q.insertStatement run values method sql).Keeps b :=
  (keeps_recordsOf hrun values).next fun _ => (keeps_ofExcept _).next fun _ =>
    (keeps_shown _).next fun _ => (keeps_compile hrun q _ _).next fun _ => within_pure trivial

theorem keeps_toInsertGetIdSql (hrun : b.Runs run) (q : QueryId) (values sequence : Value) :
    (q.toInsertGetIdSql run values sequence).Keeps b :=
  (keeps_shown sequence).next fun _ => keeps_insertStatement hrun q values _ _

theorem keeps_arrange (hrun : b.Runs run) (q : QueryId) (method : String)
    (f : Grammar → Oracle → Value → Except Failure (List Value)) :
    (q.arrange run method f).Keeps b :=
  keeps_consult hrun _

theorem keeps_toUpdateSql (hrun : b.Runs run) (q : QueryId) (values : Value) :
    (q.toUpdateSql run values).Keeps b :=
  (keeps_shown values).next fun _ => (keeps_compile hrun q _ _).next fun _ =>
    (keeps_now values).next fun _ => (keeps_arrange hrun q _ _).next fun _ => within_pure trivial

theorem within_idColumn (q : QueryId) : q.idColumn.Within b b.Admits :=
  (keeps_grammarFor q _).next fun _ => (keeps_read q).next fun _ => (keeps_displayNow _).next
    fun _ => within_pure (Boundary.admits_text _)

/-- The restriction to one row stands on a copy. -/
theorem keeps_toDeleteSql (hrun : b.Runs run) (h : ¬b.hidden q) {id : Value}
    (hid : b.Admits id) : (q.toDeleteSql run id).Keeps b := by
  have hcompile : ∀ target : QueryId, Action.Keeps b (do
      let sql ← target.compile run "compile_delete" Grammar.deleteSql
      let bindings ← target.arrange run "prepare_bindings_for_delete" fun _ oracle bindings =>
        Grammar.deleteBindings oracle bindings
      return (⟨sql, bindings⟩ : Statement)) := fun target =>
    (keeps_compile hrun target _ _).next fun _ => (keeps_arrange hrun target _ _).next fun _ =>
      within_pure trivial
  unfold QueryId.toDeleteSql
  dsimp only
  split
  · exact hcompile q
  · refine (within_copy h).bind fun restricted hrestricted => ?_
    refine (within_idColumn q).bind fun column hcolumn => ?_
    refine Action.Keeps.next (keeps_where hrun hrestricted hcolumn ?_ ?_ ?_) fun _ =>
      hcompile restricted
    · exact fun v hv => Option.some.inj hv ▸ Boundary.admits_text _
    · exact fun v hv => Option.some.inj hv ▸ hid
    · exact Boundary.admits_text _

theorem keeps_toTruncateSql (hrun : b.Runs run) (q : QueryId) : (q.toTruncateSql run).Keeps b :=
  (keeps_compile hrun q _ _).next fun _ => within_pure trivial

/-! ## Copies -/

theorem Boundary.AdmitsQuery.reset {query : Query} (h : b.AdmitsQuery query)
    (property : QueryProperty) : b.AdmitsQuery (property.reset query) := by
  cases property with
  | aggregate => exact { h with aggregate := fun _ h => nomatch h }
  | columns => exact { h with columns := Boundary.admitsAll_nil }
  | source => exact { h with source := Boundary.admits_null }
  | joins => exact { h with joins := fun _ h => nomatch h }
  | wheres => exact { h with wheres := fun _ h => nomatch h }
  | groups => exact { h with groups := Boundary.admitsAll_nil }
  | havings => exact { h with havings := fun _ h => nomatch h }
  | orders => exact { h with orders := fun _ h => nomatch h }
  | unions => exact { h with unions := fun _ h => nomatch h }
  | unionOrders => exact { h with unionOrders := fun _ h => nomatch h }
  | lock => exact { h with lock := Boundary.admits_null }
  | _ => exact { h with }

theorem QueryProperty.kind_reset (query : Query) (property : QueryProperty) :
    (property.reset query).kind = query.kind := by
  cases property <;> rfl

theorem keeps_copyWithout (h : ¬b.hidden q) (properties : Value) :
    (q.copyWithout properties).Keeps b := by
  refine (within_copy h).bind fun copy hcopy => (keeps_itemsNow properties).next fun names => ?_
  refine Action.Keeps.next (keeps_forIn fun name _ => ?_) fun _ => within_pure trivial
  refine (keeps_ofExcept _).next fun property => ?_
  exact Action.Keeps.next (keeps_modify hcopy (QueryProperty.kind_reset · property) fun _ hquery =>
    hquery.reset property) fun _ => within_pure trivial

theorem keeps_copyWithoutBindings (h : ¬b.hidden q) (groups : Value) :
    (q.copyWithoutBindings groups).Keeps b := by
  refine (within_copy h).bind fun copy hcopy => (keeps_itemsNow groups).next fun names => ?_
  refine Action.Keeps.next (keeps_forIn fun name _ => ?_) fun _ => within_pure trivial
  refine (keeps_ofExcept _).next fun group => ?_
  exact Action.Keeps.next (keeps_modify hcopy (fun _ => rfl) fun _ hquery =>
    hquery.rebind group Boundary.admitsAll_nil) fun _ => within_pure trivial

/-- The query that aggregates the rows is a copy. -/
theorem within_forAggregate (h : ¬b.hidden q) {function columns : Value}
    (hfunction : b.Admits function) (hcolumns : b.Admits columns) :
    (q.forAggregate function columns).Within b fun copy => ¬b.kept copy := by
  refine (within_copy h).bind fun copy hcopy => ?_
  refine Action.Keeps.next (keeps_modify hcopy (fun query => ?_) fun query hquery => ?_) fun _ => ?_
  · split <;> rfl
  · split
    · exact hquery
    · exact { hquery.rebind .select Boundary.admitsAll_nil with columns := Boundary.admitsAll_nil }
  refine (within_itemsNow hcolumns).bind fun columns hcolumns => ?_
  refine Action.Keeps.next (keeps_modify hcopy (fun _ => rfl) fun query hquery => ?_) fun _ => ?_
  · exact { hquery with aggregate := fun a ha => Option.some.inj ha ▸ ⟨hfunction, hcolumns⟩ }
  refine Action.Keeps.next (keeps_modify hcopy (fun query => ?_) fun query hquery => ?_) fun _ =>
    within_pure hcopy
  · split <;> rfl
  · split
    · exact hquery.unordered
    · exact hquery

/-! ## Running a query -/

theorem keeps_needConnection (q : QueryId) : q.needConnection.Keeps b := by
  refine (keeps_read q).next fun query => ?_
  cases query.connection with
  | none => exact within_throw _
  | some id => exact within_pure trivial

theorem keeps_get (hrun : b.Runs run) (q : QueryId) (columns : Value) :
    (q.get run columns).Keeps b := by
  have hselect : ∀ chosen : List Value, Action.Keeps b (do
      let shown ← chosen.mapM Value.shown
      let sql ← q.compile run "compile_select" fun g attached query =>
        g.selectSql attached
          (if chosen.isEmpty then query else { query with columns := some shown })
      let bindings ← q.bindings
      (← q.needConnection).select (.text sql) (.list bindings)) := fun chosen =>
    (within_mapM fun v _ => keeps_shown v).keeps.next fun _ =>
      (keeps_compile hrun q _ _).next fun _ => (keeps_bindings q).next fun _ =>
        (keeps_needConnection q).next fun id => keeps_run id _ _ _
  refine (keeps_read q).next fun query => ?_
  dsimp only
  split
  · exact (keeps_itemsOrNone columns).next hselect
  · exact (within_pure (P := fun _ => True) trivial).bind fun chosen _ => hselect chosen

theorem keeps_first (hrun : b.Runs run) (h : ¬b.hidden q) (columns : Value) :
    (q.first run columns).Keeps b :=
  (within_copy h).bind fun copy hcopy => (keeps_limit hcopy _).next fun _ =>
    (keeps_get hrun copy columns).next fun _ => within_pure trivial

theorem keeps_find (hrun : b.Runs run) (h : ¬b.hidden q) {id : Value} (hid : b.Admits id)
    (columns : Value) : (q.find run id columns).Keeps b := by
  refine (within_copy h).bind fun copy hcopy => ?_
  refine Action.Keeps.next (keeps_where hrun hcopy (Boundary.admits_text _) ?_ ?_ ?_) fun _ =>
    keeps_first hrun (Boundary.not_hidden_of_not_kept hcopy) columns
  · exact fun v hv => Option.some.inj hv ▸ Boundary.admits_text _
  · exact fun v hv => Option.some.inj hv ▸ hid
  · exact Boundary.admits_text _

theorem keeps_value (hrun : b.Runs run) (h : ¬b.hidden q) (column : Value) :
    (q.value run column).Keeps b := by
  refine (keeps_first hrun h _).next fun row => ?_
  split
  · exact within_pure trivial
  · exact within_pure trivial

theorem keeps_pluck (hrun : b.Runs run) (q : QueryId) (column : Value) :
    (q.pluck run column).Keeps b :=
  (keeps_get hrun q _).next fun _ => keeps_ofExcept _

theorem keeps_hasRows (hrun : b.Runs run) (q : QueryId) : (q.hasRows run).Keeps b :=
  (keeps_toExistsSql hrun q).next fun _ => (keeps_needConnection q).next fun id =>
    Action.Keeps.next (keeps_run id _ _ _) fun _ => (keeps_ofExcept _).next fun _ =>
      within_pure trivial

theorem keeps_aggregate (hrun : b.Runs run) (h : ¬b.hidden q) {function columns : Value}
    (hfunction : b.Admits function) (hcolumns : b.Admits columns) :
    (q.aggregate run function columns).Keeps b :=
  (within_forAggregate h hfunction hcolumns).bind fun copy _ =>
    (keeps_get hrun copy _).next fun _ => (keeps_ofExcept _).next fun _ => within_pure trivial

theorem keeps_count (hrun : b.Runs run) (h : ¬b.hidden q) {columns : Value}
    (hcolumns : b.Admits columns) : (q.count run columns).Keeps b := by
  refine (keeps_aggregate hrun h (Boundary.admits_text _)
    (Boundary.admits_list.2 (Value.admitsAll_listed hcolumns))).next fun result => ?_
  split
  · exact keeps_ofExcept _
  · exact within_pure trivial

theorem keeps_sum (hrun : b.Runs run) (h : ¬b.hidden q) {column : Value}
    (hcolumn : b.Admits column) : (q.sum run column).Keeps b :=
  (keeps_aggregate hrun h (Boundary.admits_text _) (by simpa using hcolumn)).next fun _ =>
    within_pure trivial

/-! ## Changing rows -/

theorem keeps_insert (hrun : b.Runs run) (q : QueryId) (values : Value) :
    (q.insert run values).Keeps b := by
  have hinsert : ∀ values : List Value, Action.Keeps b (do
      if values.isEmpty then return ()
      let statement ← q.toInsertSql run (.list values)
      (← q.needConnection).statement (.text statement.sql) (.list statement.bindings)) := by
    intro values
    split
    · exact within_pure trivial
    · exact (keeps_insertStatement hrun q _ _ _).next fun _ => (keeps_needConnection q).next
        fun id => keeps_run id _ _ _
  refine (keeps_now values).next fun values => ?_
  dsimp only
  split
  · exact (within_pure (P := fun _ => True) trivial).bind fun values _ => hinsert values
  · exact (keeps_ofExcept _).next hinsert

theorem keeps_insertOrIgnore (hrun : b.Runs run) (q : QueryId) (values : Value) :
    (q.insertOrIgnore run values).Keeps b := by
  unfold QueryId.insertOrIgnore
  split
  · exact within_pure trivial
  · exact (keeps_insertStatement hrun q _ _ _).next fun _ => (keeps_needConnection q).next
      fun id => keeps_run id _ _ _

theorem keeps_insertGetId (hrun : b.Runs run) (q : QueryId) (values sequence : Value) :
    (q.insertGetId run values sequence).Keeps b :=
  (keeps_toInsertGetIdSql hrun q values sequence).next fun _ => (keeps_needConnection q).next
    fun id => keeps_run id _ _ _

theorem keeps_insertUsing (hrun : b.Runs run) (h : ¬b.hidden q) (columns : Value) {query : Value}
    (hquery : b.Admits query) : (q.insertUsing run columns query).Keeps b :=
  (within_createSub hrun h hquery).keeps.next fun _ => (keeps_needConnection q).next fun id =>
    (keeps_grammarFor q _).next fun _ => (keeps_itemsNow columns).next fun _ =>
      (within_mapM fun v _ => keeps_shown v).keeps.next fun _ =>
        (keeps_compile hrun q _ _).next fun _ => keeps_run id _ _ _

theorem keeps_update (hrun : b.Runs run) (q : QueryId) (values : Value) :
    (q.update run values).Keeps b :=
  (keeps_toUpdateSql hrun q values).next fun _ => (keeps_needConnection q).next
    fun id => keeps_run id _ _ _

theorem keeps_step (hrun : b.Runs run) (q : QueryId) (column amount extra : Value)
    (sign : String) : (q.step run column amount extra sign).Keeps b := by
  refine (keeps_ofExcept _).next fun amount => (keeps_wrapped q column).next fun wrapped => ?_
  dsimp only
  split
  · exact within_throw _
  · split
    · exact (keeps_recordOf hrun extra).next fun _ => keeps_update hrun q _
    · exact keeps_update hrun q _

theorem keeps_delete (hrun : b.Runs run) (h : ¬b.hidden q) {id : Value} (hid : b.Admits id) :
    (q.delete run id).Keeps b :=
  (keeps_toDeleteSql hrun h hid).next fun _ => (keeps_needConnection q).next
    fun id => keeps_run id _ _ _

theorem keeps_truncate (hrun : b.Runs run) (q : QueryId) : (q.truncate run).Keeps b := by
  refine (keeps_needConnection q).next fun id => (keeps_toTruncateSql hrun q).next
    fun statements => ?_
  refine Action.Keeps.next (keeps_forIn fun statement _ => ?_) fun _ => within_pure trivial
  exact Action.Keeps.next (keeps_run id _ _ _) fun _ => within_pure trivial

end FluentSql
