import FluentSql.Proofs.Building.Wheres

/-!
# Calls for grouping, ordering, paging and unions

Each of these calls keeps its query noted.

* `Ready.groupBy` and `Ready.having` with their kin.
* `Ready.orderBy` with its kin; `OrderAllowed` is what a column to order by
  must be.
* `Ready.offset`, `Ready.limit`, `Ready.forPage`, `Ready.union` and
  `Ready.lock`.
-/

namespace FluentSql

/-- A column to order by, or a sub-query. -/
def OrderAllowed (g : Grammar) (avail : Offers) (column : Value) : Prop :=
  SubAllowed avail column ∨ ColumnHolds g column []

section

variable {g : Grammar} {p : String} {run : Runner} {avail : Offers}
variable {s s' s1 : Store} {notes notes' notes1 : QueryId → Notes} {t : QueryId}

/-- An ordering by chance holds no placeholders if its seed holds none. -/
theorem randomSql_sealed (g : Grammar) {seed : Value} (hseed : WordHolds seed) :
    Sealed (g.randomSql seed).toList := by
  unfold Grammar.randomSql
  split
  · rw [String.toList_append, String.toList_append]
    have hopen : Sealed "RAND(".toList := by decide
    exact (hopen.append hseed.2).append (by decide)
  · decide

/-- Values may be bound before or after their ordering is added. -/
theorem Query.addOrder_bind (q : Query) (group : BindingGroup) (vs : List Value) (order : Order) :
    (q.bind group vs).addOrder order = (q.addOrder order).bind group vs := by
  have hunion : (q.bind group vs).isUnion = q.isUnion := rfl
  unfold Query.addOrder
  rw [hunion]
  split <;> rfl

/-- A comparison of groups with data adds one condition. -/
theorem having_ran (hg : g.Compiles p) (hgrammar : ∃ id, (s.query t).grammar = .grammar id ∧
      id.index < s.grammars.size ∧ s.grammar id = g)
    {column boolean : Value} {operator value : Option Value} {u : Unit}
    (hran : Ran (t.having column operator value boolean) s u s') :
    ∃ word : String, Sealed word.toList ∧ s' = s.edit t fun q =>
      (q.addHaving boolean (.basic column word (comparand operator value))).bind .having
        (comparand operator value).bound := by
  unfold QueryId.having QueryId.addHaving at hran
  simp only [ran_bind, ran_modify, ran_bindValue] at hran
  obtain ⟨c, s1, hcomparison, _, _, rfl, rfl⟩ := hran
  obtain ⟨rfl, hoperator, hc⟩ := comparison_ran hg hgrammar hcomparison
  rw [← hc]
  exact ⟨c.operator, hoperator, Store.edit_edit ..⟩

theorem havingBetween_ran {column values boolean : Value} {negated : Bool}
    (hdata : values.handles = []) {u : Unit}
    (hran : Ran (t.havingBetween column values boolean negated) s u s') :
    ∃ vs ends, values.items = .ok vs ∧ QueryId.betweenEnds vs = .ok ends ∧
      s' = s.edit t fun q => (q.addHaving boolean (.between column vs negated)).bind .having
        (ends.map Value.bound).flatten := by
  unfold QueryId.havingBetween QueryId.addHaving at hran
  simp only [ran_bind, ran_itemsNow hdata, ran_ofExcept, ran_modify, ran_bindValues] at hran
  obtain ⟨vs, _, ⟨hvs, rfl⟩, ends, _, ⟨hends, rfl⟩, _, _, rfl, rfl⟩ := hran
  exact ⟨vs, ends, hvs, hends, Store.edit_edit ..⟩

namespace Ready

variable (h : Ready g p run avail s notes t) (hstands : s.Stands notes t)
include h hstands

/-! ## Grouping -/

theorem groupBy {columns : List Value} (hcolumns : ∀ c ∈ flatten columns, ColumnHolds g c [])
    {u : Unit} (hran : Ran (t.groupBy columns) s u s') : Kept g avail s notes t s' := by
  obtain rfl := ran_modify.1 hran
  have hnoted := (h.noted.queries t hstands).addGroups (plainColumns hcolumns) fun v hv => by
    rw [flatten_plain] at hv
    exact nomatch hv
  rw [flatten_plain, Query.bind_nil] at hnoted
  exact h.change hnoted hstands.2 rfl ⟨rfl, rfl, rfl, rfl⟩

theorem groupByRaw {sql bindings : Value} (hsql : FragmentAllowed sql bindings) {u : Unit}
    (hran : Ran (t.groupByRaw sql bindings) s u s') : Kept g avail s notes t s' := by
  unfold QueryId.groupByRaw QueryId.bind at hran
  simp only [ran_bind, ran_modify, ran_itemsOrNone hsql.bindingsData] at hran
  obtain ⟨_, _, rfl, vs, _, ⟨hvs, rfl⟩, rfl⟩ := hran
  rw [s.edit_edit]
  have hcolumn : ColumnHolds g (.raw sql) vs := ⟨hsql.sqlData, hsql.reads vs hvs⟩
  have hflat : [vs].flatten = vs := List.append_nil vs
  have hnoted := (h.noted.queries t hstands).addGroups (.cons hcolumn .nil) fun v hv => by
    rw [hflat] at hv
    exact Value.given_data hsql.bindingsData hvs v hv
  rw [hflat] at hnoted
  exact h.change hnoted hstands.2 rfl ⟨rfl, rfl, rfl, rfl⟩

/-- A condition on groups with its values. -/
theorem addHaving {boolean : Value} (hboolean : WordHolds boolean) {body : Having} {note : Note}
    (hbody : HavingHolds g note body) {vs : List Value}
    (hvalues : note.column ++ note.values.flatten = vs) (hdata : ∀ v ∈ vs, v.handles = []) :
    Kept g avail s notes t
      (s.edit t fun q => (q.addHaving boolean body).bind .having vs) := by
  subst hvalues
  exact h.change ((h.noted.queries t hstands).addHaving hboolean hbody hdata) hstands.2 rfl
    ⟨rfl, rfl, rfl, rfl⟩

theorem having {column boolean : Value} {operator value : Option Value}
    (hcolumn : ColumnHolds g column []) (hvalue : ValueAllowed (comparand operator value))
    (hboolean : WordHolds boolean) {u : Unit}
    (hran : Ran (t.having column operator value boolean) s u s') : Kept g avail s notes t s' := by
  obtain ⟨word, hword, rfl⟩ := having_ran h.compiles h.grammar hran
  generalize comparand operator value = v at hvalue
  have hbody : HavingHolds g { values := [v.bound] } (.basic column word v) :=
    ⟨hcolumn, hword, _, rfl, hvalue.param⟩
  exact h.addHaving hstands hboolean hbody (List.append_nil _) hvalue.bound_data

theorem havingRaw {sql bindings boolean : Value} (hsql : FragmentAllowed sql bindings)
    (hboolean : WordHolds boolean) {u : Unit}
    (hran : Ran (t.havingRaw sql bindings boolean) s u s') : Kept g avail s notes t s' := by
  unfold QueryId.havingRaw QueryId.addHaving QueryId.bind at hran
  simp only [ran_bind, ran_modify, ran_itemsOrNone hsql.bindingsData] at hran
  obtain ⟨_, _, rfl, vs, _, ⟨hvs, rfl⟩, rfl⟩ := hran
  rw [s.edit_edit]
  have hbody : HavingHolds g { values := [vs] } (.raw sql) :=
    ⟨hsql.sqlData, rfl, vs, rfl, hsql.reads vs hvs⟩
  exact h.addHaving hstands hboolean hbody (List.append_nil vs)
    (Value.given_data hsql.bindingsData hvs)

theorem havingBetween {column values boolean : Value} {negated : Bool}
    (hcolumn : ColumnHolds g column []) (hvalues : ValuesAllowed values)
    (hboolean : WordHolds boolean) {u : Unit}
    (hran : Ran (t.havingBetween column values boolean negated) s u s') :
    Kept g avail s notes t s' := by
  obtain ⟨vs, ends, hvs, hends, rfl⟩ := havingBetween_ran hvalues.1 hran
  have hall : ∀ v ∈ ends, ValueAllowed v := fun v hv =>
    hvalues.2 vs hvs v (mem_of_betweenEnds hends v hv)
  have hbody : HavingHolds g { values := ends.map Value.bound } (.between column vs negated) :=
    ⟨hcolumn, endsHold (Value.items_data hvalues.1 hvs) hends fun v hv => (hall v hv).param⟩
  exact h.addHaving hstands hboolean hbody rfl (ValueAllowed.bounds_data hall)

theorem havingNull {columns boolean : Value} {negated : Bool}
    (hcolumns : ∀ c ∈ columns.listed, ColumnHolds g c []) (hboolean : WordHolds boolean) {u : Unit}
    (hran : Ran (t.havingNull columns boolean negated) s u s') : Kept g avail s notes t s' := by
  refine h.each hstands (fun c hc s notes s' u h hstands hadd => ?_) hran
  obtain rfl := ran_modify.1 hadd
  have hbody : HavingHolds g {} (.null c negated) := ⟨hcolumns c hc, rfl⟩
  have hkept := h.addHaving hstands hboolean hbody rfl fun v hv => nomatch hv
  have hsame : (fun q : Query => (q.addHaving boolean (.null c negated)).bind .having []) =
      (·.addHaving boolean (.null c negated)) := funext fun q => Query.bind_nil _ _
  exact hsame ▸ hkept

/-! ## Ordering -/

/-- An ordering with its values. -/
theorem addOrder {order : Order} {vs : List Value} (horder : OrderHolds g vs order)
    (hdata : ∀ v ∈ vs, v.handles = []) :
    Kept g avail s notes t
      (s.edit t fun q => (q.addOrder order).bind (s.query t).orderGroup vs) := by
  obtain ⟨n, htable, hwhole, _, hclosed, hnoted⟩ :=
    (h.noted.queries t hstands).addOrder horder hdata
  have hframe : ∀ q : Query, (q.addOrder order).attachments = q.attachments ∧
      (q.addOrder order).grammar = q.grammar ∧ (q.addOrder order).aggregate = q.aggregate := by
    intro q
    unfold Query.addOrder
    split <;> exact ⟨rfl, rfl, rfl⟩
  obtain ⟨hattach, hgrammar, haggregate⟩ := hframe (s.query t)
  exact h.change hnoted (hclosed.trans hstands.2) hattach ⟨htable, hwhole, hgrammar, haggregate⟩

omit h hstands in
/-- The word of a direction is read from data alone. -/
theorem direction_ran {word : Value} (hdata : word.handles = []) {d : Direction}
    (hran : Ran (QueryId.direction run word) s d s') : s' = s := by
  have hread : ∀ v : Value, Ran ((v.text?.bind Direction.ofWord?).elim
      (throw (.argument .direction)) pure) s d s' → s' = s := by
    intro v hv
    cases hd : v.text?.bind Direction.ofWord? with
    | none =>
      rw [hd] at hv
      exact absurd hv ran_throw
    | some d =>
      rw [hd] at hv
      exact (ran_pure.1 hv).2
  unfold QueryId.direction at hran
  cases word with
  | text w => exact hread (.text (Text.lower w)) hran
  | bytes bs => exact hread (.bytes bs) hran
  | object handle => exact nomatch hdata
  | _ => simp only [ran_bind, ran_throw, false_and, exists_false] at hran

/-- An ordering by the result of a sub-query, or by a column. -/
theorem orderBy {column word : Value}
    (hcolumn : column.isQueryable = true ∧ CreatesText g run avail s notes t column ∨
      ColumnHolds g column [])
    (hword : word.handles = []) {u : Unit} (hran : Ran (t.orderBy run column word) s u s') :
    Kept g avail s notes t s' := by
  unfold QueryId.orderBy QueryId.bind at hran
  simp only [ran_bind, ran_read] at hran
  obtain ⟨_, _, ⟨rfl, rfl⟩, hran⟩ := hran
  split at hran
  · rename_i hqueryable
    have hsub := by
      refine (hcolumn.resolve_right fun hholds => ?_).2
      rw [Value.isQueryable_data hholds.data] at hqueryable
      cases hqueryable
    simp only [ran_bind, ran_modify, ran_pure] at hran
    obtain ⟨sub, s1, hcreate, _, _, rfl, _, _, ⟨rfl, rfl⟩, d, s2, hdirection, rfl⟩ := hran
    obtain rfl := direction_ran hword hdirection
    obtain ⟨notes1, hlater, hreads, hdata⟩ := hsub sub _ hcreate
    have h1 := h.after hlater
    rw [Store.edit_edit, ← (h.unchanged hlater).1]
    refine .after hlater ?_
    have hholds : ColumnHolds g (.raw (.text ("(" ++ sub.sql ++ ")"))) sub.bindings :=
      columnHolds_sub hreads
    have horder : OrderHolds g sub.bindings
        (.byColumn (.raw (.text ("(" ++ sub.sql ++ ")"))) d) := hholds
    have hkept := h1.addOrder (hlater.stands hstands (Set.notMem_empty t)) horder hdata
    have hsame : (fun q : Query => (q.bind (s1.query t).orderGroup sub.bindings).addOrder
        (.byColumn (.raw (.text ("(" ++ sub.sql ++ ")"))) d)) =
        fun q => (q.addOrder (.byColumn (.raw (.text ("(" ++ sub.sql ++ ")"))) d)).bind
          (s1.query t).orderGroup sub.bindings := funext fun q => Query.addOrder_bind _ _ _ _
    rw [hsame]
    exact hkept
  · rename_i hnot
    have hholds : ColumnHolds g column [] := hcolumn.resolve_left fun hsub => hnot hsub.1
    simp only [ran_bind, ran_modify, ran_pure] at hran
    obtain ⟨column, _, ⟨rfl, rfl⟩, d, s2, hdirection, rfl⟩ := hran
    obtain rfl := direction_ran hword hdirection
    have horder : OrderHolds g [] (.byColumn column d) := hholds
    have hkept := h.addOrder hstands horder fun v hv => by cases hv
    have hsame : (fun q : Query => (q.addOrder (.byColumn column d)).bind
        (s2.query t).orderGroup []) = (·.addOrder (.byColumn column d)) :=
      funext fun q => Query.bind_nil _ _
    exact hsame ▸ hkept

theorem orderByRaw {sql bindings : Value} (hsql : FragmentAllowed sql bindings) {u : Unit}
    (hran : Ran (t.orderByRaw sql bindings) s u s') : Kept g avail s notes t s' := by
  unfold QueryId.orderByRaw QueryId.bind at hran
  simp only [ran_bind, ran_modify, ran_itemsOrNone hsql.bindingsData, ran_read] at hran
  obtain ⟨_, _, rfl, vs, _, ⟨hvs, rfl⟩, _, _, ⟨rfl, rfl⟩, rfl⟩ := hran
  have hgroup : ((s.query t).addOrder (.raw sql)).orderGroup = (s.query t).orderGroup := by
    unfold Query.orderGroup
    rw [Query.isUnion_addOrder]
  rw [s.edit_edit, Store.query_edit_self h.there, hgroup]
  have horder : OrderHolds g vs (.raw sql) := ⟨hsql.sqlData, hsql.reads vs hvs⟩
  exact h.addOrder hstands horder (Value.given_data hsql.bindingsData hvs)

theorem inRandomOrder {seed : Value} (hseed : WordHolds seed) {u : Unit}
    (hran : Ran (t.inRandomOrder seed) s u s') : Kept g avail s notes t s' := by
  unfold QueryId.inRandomOrder at hran
  simp only [ran_bind, h.grammarFor, ran_shown] at hran
  obtain ⟨_, _, ⟨rfl, rfl⟩, _, _, ⟨rfl, rfl⟩, hran⟩ := hran
  rw [Store.shown_data _ hseed.1] at hran
  refine h.orderByRaw hstands ⟨rfl, rfl, fun vs hvs => ?_⟩ hran
  cases hvs
  exact randomSql_sealed _ hseed

theorem reorder {column word : Value}
    (hcolumn : column.isNull = false → OrderAllowed g avail column) (hword : word.handles = [])
    {u : Unit} (hran : Ran (t.reorder run column word) s u s') : Kept g avail s notes t s' := by
  unfold QueryId.reorder at hran
  simp only [ran_bind, ran_modify] at hran
  obtain ⟨_, _, rfl, hran⟩ := hran
  have hdrop : Kept g avail s notes t (s.edit t Query.dropOrders) :=
    h.change (h.noted.queries t hstands).dropOrders hstands.2 rfl ⟨rfl, rfl, rfl, rfl⟩
  split at hran
  · obtain ⟨_, rfl⟩ := ran_pure.1 hran
    exact hdrop
  · rename_i hnull
    refine .trans h hdrop fun notes1 h1 hstands1 => ?_
    exact h1.orderBy hstands1 ((hcolumn (Bool.eq_false_of_not_eq_true hnull)).imp_left h1.createsText_sub)
      hword hran

/-! ## Paging -/

theorem offset {value : Value} {u : Unit} (hran : Ran (t.offset value) s u s') :
    Kept g avail s notes t s' := by
  unfold QueryId.offset at hran
  simp only [ran_bind, ran_ofExcept, ran_modify] at hran
  obtain ⟨count, _, ⟨_, rfl⟩, rfl⟩ := hran
  refine h.change ((h.noted.queries t hstands).setOffset count.toNat) hstands.2 ?_ ?_ <;>
    unfold Query.setOffset <;> split
  · rfl
  · rfl
  · exact ⟨rfl, rfl, rfl, rfl⟩
  · exact ⟨rfl, rfl, rfl, rfl⟩

theorem limit {value : Value} {u : Unit} (hran : Ran (t.limit value) s u s') :
    Kept g avail s notes t s' := by
  unfold QueryId.limit at hran
  split at hran
  · obtain ⟨_, rfl⟩ := ran_pure.1 hran
    exact .refl h hstands
  · simp only [ran_bind, ran_ofExcept] at hran
    obtain ⟨count, _, ⟨_, rfl⟩, hran⟩ := hran
    split at hran
    · obtain rfl := ran_modify.1 hran
      refine h.change ((h.noted.queries t hstands).setLimit count.toNat) hstands.2 ?_ ?_ <;>
        unfold Query.setLimit <;> split
      · rfl
      · rfl
      · exact ⟨rfl, rfl, rfl, rfl⟩
      · exact ⟨rfl, rfl, rfl, rfl⟩
    · obtain ⟨_, rfl⟩ := ran_pure.1 hran
      exact .refl h hstands

theorem forPage {page perPage : Value} {u : Unit} (hran : Ran (t.forPage page perPage) s u s') :
    Kept g avail s notes t s' := by
  unfold QueryId.forPage at hran
  simp only [ran_bind, ran_ofExcept] at hran
  obtain ⟨_, _, ⟨_, rfl⟩, _, _, ⟨_, rfl⟩, _, s1, hoffset, hlimit⟩ := hran
  refine .trans h (h.offset hstands hoffset) fun notes1 h1 hstands1 => ?_
  exact h1.limit hstands1 hlimit

/-! ## Locks and unions -/

theorem lock {value : Value} (hdata : value.handles = [])
    (hvalue : ∀ sql, value = .text sql → Sealed sql.toList) {u : Unit}
    (hran : Ran (t.lock value) s u s') : Kept g avail s notes t s' := by
  obtain rfl := ran_modify.1 hran
  exact h.change ((h.noted.queries t hstands).setLock hdata hvalue) hstands.2 rfl
    ⟨rfl, rfl, rfl, rfl⟩

/-- A member of a union, once it is read. -/
theorem unionGiven (hlater : Later g ∅ avail.queries s notes s1 notes1) {sub : QueryId}
    (hgiven : Given avail s t s1 notes1 sub) {keepsAll : Value} (hkeeps : keepsAll.handles = []) :
    Kept g avail s notes t (s1.edit t fun q =>
      ({ q with unions := q.unions ++ [⟨some sub, keepsAll⟩] } : Query).bind .union
        (s1.query sub).bindings.flatten) := by
  have h1 := h.after hlater
  have hstands1 := hlater.stands hstands (Set.notMem_empty t)
  have hnoted := (h1.noted.queries t hstands1).addUnion h1.plain hgiven.stands hgiven.whole
    (h1.noted.queries sub hgiven.stands).data hkeeps
    (Nat.le_add_right (notes1 t).rank ((notes1 sub).rank + 1)) (by omega)
  refine h.close (hlater.mono (Set.empty_subset _) (Set.Subset.refl _)) hnoted hstands1.2 ?_
    ⟨rfl, rfl, rfl, rfl⟩
  intro id hid
  rcases Query.mem_attachments.1 hid with hjoin | hgroup | hsub
  · exact .inl (Query.mem_attachments.2 (.inl hjoin))
  · exact .inl (Query.mem_attachments.2 (.inr (.inl hgroup)))
  · rcases Query.mem_subQueries.1 hsub with hwhere | ⟨member, hmember, hid⟩
    · exact .inl (Query.mem_attachments_sub (Query.mem_subQueries.2 (.inl hwhere)))
    · rcases List.mem_append.1 hmember with hmember | hmember
      · exact .inl (Query.mem_attachments_sub (Query.mem_subQueries_union hmember hid))
      · rw [List.mem_singleton.1 hmember] at hid
        cases hid
        exact .inr (hgiven.source.imp_right fun hge => ⟨hgiven.other, hge⟩)

/-- A member of a union that a callback builds. -/
theorem built_member {callback : CallbackId} (hcallback : callback ∈ avail.callbacks)
    {member : QueryId} {v : Value} (hnew : Ran t.newQuery s member s1) (hran : Ran (run callback member []) s1 v s') :
    ∃ notes', Later g ∅ avail.queries s notes s' notes' ∧ Given avail s t s' notes' member := by
  unfold QueryId.newQuery at hnew
  simp only [ran_bind, ran_read, ran_create] at hnew
  obtain ⟨_, s, ⟨rfl, rfl⟩, rfl, rfl⟩ := hnew
  have hnoted :
      ({ kind := (s.query t).kind, connection := (s.query t).connection,
         grammar := (s.query t).grammar } : Query).Noted g s notes { table := (notes t).table } :=
    Query.blank_noted h.grammar (h.noted.queries t hstands).kind rfl fun _ => h.compiles.noSource
  obtain ⟨notes', hlater, hmember, _, hwhole, _⟩ := h.run_new hnoted rfl hcallback hran
  refine ⟨notes', hlater, hmember, hwhole, ?_, .inr (Nat.le_refl _)⟩
  rintro rfl
  exact absurd h.there (Nat.lt_irrefl _)

theorem union {query keepsAll : Value} (hquery : SubAllowed avail query)
    (hkeeps : keepsAll.handles = []) {u : Unit}
    (hran : Ran (t.union run query keepsAll) s u s') : Kept g avail s notes t s' := by
  have hend : ∀ {s1 notes1 sub}, Later g ∅ avail.queries s notes s1 notes1 →
      Given avail s t s1 notes1 sub →
      Ran (do
        t.modify fun current =>
          { current with unions := current.unions ++ [⟨(Value.ofQuery sub).query?, keepsAll⟩] }
        let member ← (Value.ofQuery sub).needQuery
        t.bind .union (← member.bindings)) s1 u s' → Kept g avail s notes t s' := by
    intro s1 notes1 sub hlater hgiven hran
    unfold Value.needQuery QueryId.bindings QueryId.bind at hran
    simp only [Value.ofQuery, Value.query?, Option.elim, ran_bind, ran_modify, ran_pure, ran_read]
      at hran
    obtain ⟨_, _, rfl, sub, _, ⟨rfl, rfl⟩, _, _, ⟨_, _, ⟨rfl, rfl⟩, rfl, rfl⟩, rfl⟩ := hran
    rw [Store.edit_edit, Store.query_edit_of_ne hgiven.other]
    exact h.unionGiven hstands hlater hgiven hkeeps
  unfold QueryId.union at hran
  rcases hquery with ⟨id, hid, rfl⟩ | ⟨callback, hcallback, rfl⟩
  · obtain ⟨hne, hsub, hwhole⟩ := h.offered id hid
    exact hend (.refl h.noted) ⟨hsub, hwhole, hne, .inl hid⟩ hran
  · have hbuilt : Ran (do
        let member ← t.newQuery
        let _ ← run callback member []
        t.modify fun current =>
          { current with unions := current.unions ++ [⟨(Value.ofQuery member).query?, keepsAll⟩] }
        let member ← (Value.ofQuery member).needQuery
        t.bind .union (← member.bindings)) s u s' := hran
    rw [ran_bind] at hbuilt
    obtain ⟨member, s1, hnew, hbuilt⟩ := hbuilt
    rw [ran_bind] at hbuilt
    obtain ⟨v, s2, hrun, hbuilt⟩ := hbuilt
    obtain ⟨notes2, hlater, hgiven⟩ := h.built_member hstands hcallback hnew hrun
    exact hend hlater hgiven hbuilt

end Ready

end

end FluentSql
