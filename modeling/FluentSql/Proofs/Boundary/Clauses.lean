import FluentSql.Fluent.Having
import FluentSql.Fluent.Join
import FluentSql.Fluent.Order
import FluentSql.Proofs.Boundary.Conditions

/-!
# Further clauses within a boundary

Joins, grouping, ordering, paging, unions and locks, as in
`FluentSql.Proofs.Boundary.Conditions`.

* `keeps_join` builds a join condition on a new query and attaches it.
* `within_direction` calls an extension on an argument, so it asks that every
  kept query is hidden.
* `keeps_union` may build its member on a new query.
-/

namespace FluentSql

variable {b : Boundary} {run : Runner} {q : QueryId}

/-! ## Joins -/

theorem keeps_on (hrun : b.Runs run) (h : ¬b.kept q) {first operator second boolean : Value}
    (hfirst : b.Admits first) (hoperator : b.Admits operator) (hsecond : b.Admits second)
    (hboolean : b.Admits boolean) : (q.on run first operator second boolean).Keeps b := by
  unfold QueryId.on
  split
  · exact keeps_whereNested hrun h first hboolean
  · exact keeps_whereColumn hrun h hfirst hoperator hsecond hboolean

theorem Boundary.AdmitsQuery.addJoin {query : Query} (h : b.AdmitsQuery query) {join : QueryId}
    (hjoin : ¬b.hidden join) : b.AdmitsQuery { query with joins := query.joins ++ [join] } :=
  { h with joins := List.forall_mem_append.2 ⟨h.joins, List.forall_mem_singleton.2 hjoin⟩ }

theorem keeps_attachJoin (h : ¬b.kept q) {join : QueryId} (hjoin : ¬b.hidden join) :
    (q.attachJoin join).Keeps b := by
  refine Action.Keeps.next (keeps_modify h (fun _ => rfl) fun _ hquery => ?_) fun _ => ?_
  · exact hquery.addJoin hjoin
  · exact (within_bindings hjoin).bind fun _ hvs => keeps_bind h _ hvs

/-- The arguments that make the condition of a join. -/
structure Boundary.AdmitsCondition (b : Boundary) (first operator second : Value) : Prop where
  first : b.Admits first
  operator : b.Admits operator
  second : b.Admits second

theorem keeps_join (hrun : b.Runs run) (h : ¬b.kept q) {table first operator second type : Value}
    (htable : b.Admits table) (hcondition : b.AdmitsCondition first operator second)
    (htype : b.Admits type) (byValue : Bool) :
    (q.join run table first operator second type byValue).Keeps b := by
  have hq := Boundary.not_hidden_of_not_kept h
  refine (within_newJoin hq htype htable).bind fun join hjoin => ?_
  have hattach : (q.attachJoin join).Keeps b :=
    keeps_attachJoin h (Boundary.not_hidden_of_not_kept hjoin)
  dsimp only
  split
  · exact (within_call hrun hjoin first Boundary.admitsAll_nil).discard.next fun _ => hattach
  · split
    · refine (keeps_where hrun hjoin hcondition.first ?_ ?_ (Boundary.admits_text _)).next
        fun _ => hattach
      · exact fun v hv => Option.some.inj hv ▸ hcondition.operator
      · exact fun v hv => Option.some.inj hv ▸ hcondition.second
    · exact (keeps_on hrun hjoin hcondition.first hcondition.operator hcondition.second
        (Boundary.admits_text _)).next fun _ => hattach

theorem keeps_joinSub (hrun : b.Runs run) (h : ¬b.kept q)
    {query name first operator second type : Value} (hquery : b.Admits query)
    (hcondition : b.AdmitsCondition first operator second) (htype : b.Admits type)
    (byValue : Bool) :
    (q.joinSub run query name first operator second type byValue).Keeps b := by
  refine (within_createSub hrun (Boundary.not_hidden_of_not_kept h) hquery).bind fun sub hsub => ?_
  refine (keeps_wrappedTable q name).next fun _ => (keeps_bind h _ hsub).next fun _ => ?_
  exact keeps_join hrun h (Boundary.admits_raw.2 (Boundary.admits_text _)) hcondition htype byValue

theorem keeps_crossJoin (hrun : b.Runs run) (h : ¬b.kept q)
    {table first operator second : Value} (htable : b.Admits table)
    (hcondition : b.AdmitsCondition first operator second) :
    (q.crossJoin run table first operator second).Keeps b := by
  unfold QueryId.crossJoin
  split
  · refine (within_newJoin (Boundary.not_hidden_of_not_kept h) (Boundary.admits_text _)
      htable).bind fun join hjoin => ?_
    exact keeps_modify h (fun _ => rfl) fun _ hquery =>
      hquery.addJoin (Boundary.not_hidden_of_not_kept hjoin)
  · exact keeps_join hrun h htable hcondition (Boundary.admits_text _) false

/-! ## Grouping -/

theorem keeps_groupBy (h : ¬b.kept q) {columns : List Value} (hcolumns : b.AdmitsAll columns) :
    (q.groupBy columns).Keeps b :=
  keeps_modify h (fun _ => rfl) fun _ hquery => hquery.addGroups (admitsAll_flatten hcolumns)

theorem keeps_groupByRaw (h : ¬b.kept q) {sql bindings : Value} (hsql : b.Admits sql)
    (hbindings : b.Admits bindings) : (q.groupByRaw sql bindings).Keeps b := by
  have hgroup : b.AdmitsAll [.raw sql] := by simpa using hsql
  refine Action.Keeps.next (keeps_modify h (fun _ => rfl) fun _ hquery => ?_) fun _ => ?_
  · exact hquery.addGroups hgroup
  · exact (within_itemsOrNone hbindings).bind fun _ hvs => keeps_bind h _ hvs

theorem keeps_addHaving (h : ¬b.kept q) {boolean : Value} {body : Having}
    (hboolean : b.Admits boolean) (hbody : b.Allows body.handles) :
    (q.addHaving boolean body).Keeps b :=
  keeps_modify h (fun _ => rfl) fun _ hquery => hquery.addHaving hboolean hbody

theorem keeps_having (h : ¬b.kept q) {column boolean : Value} {operator value : Option Value}
    (hcolumn : b.Admits column) (hoperator : ∀ v ∈ operator, b.Admits v)
    (hvalue : ∀ v ∈ value, b.Admits v) (hboolean : b.Admits boolean) :
    (q.having column operator value boolean).Keeps b := by
  refine (within_comparison hoperator hvalue).bind fun comparison hcomparison => ?_
  have hbody : b.Allows (Having.basic column comparison.operator comparison.value).handles :=
    Boundary.allows_append.2 ⟨hcolumn, hcomparison⟩
  exact (keeps_addHaving h hboolean hbody).next fun _ => keeps_bindValue h _ hcomparison

theorem keeps_havingRaw (h : ¬b.kept q) {sql bindings boolean : Value} (hsql : b.Admits sql)
    (hbindings : b.Admits bindings) (hboolean : b.Admits boolean) :
    (q.havingRaw sql bindings boolean).Keeps b := by
  have hbody : b.Allows (Having.raw sql).handles := hsql
  refine (keeps_addHaving h hboolean hbody).next fun _ => ?_
  exact (within_itemsOrNone hbindings).bind fun _ hvs => keeps_bind h _ hvs

theorem keeps_havingBetween (h : ¬b.kept q) {column values boolean : Value}
    (hcolumn : b.Admits column) (hvalues : b.Admits values) (hboolean : b.Admits boolean)
    (negated : Bool) : (q.havingBetween column values boolean negated).Keeps b := by
  refine (within_itemsNow hvalues).bind fun vs hvs => ?_
  refine (within_ofExcept fun _ hends => admits_betweenEnds hvs hends).bind fun ends hends => ?_
  have hbody : b.Allows (Having.between column vs negated).handles :=
    Boundary.allows_append.2 ⟨hcolumn, Boundary.allows_all.2 hvs⟩
  exact (keeps_addHaving h hboolean hbody).next fun _ => keeps_bindValues h _ hends

theorem keeps_havingNull (h : ¬b.kept q) {columns boolean : Value} (hcolumns : b.Admits columns)
    (hboolean : b.Admits boolean) (negated : Bool) :
    (q.havingNull columns boolean negated).Keeps b :=
  keeps_forM fun column hcolumn =>
    keeps_addHaving h hboolean (Value.admitsAll_listed hcolumns column hcolumn)

/-! ## Ordering -/

theorem keeps_direction (hrun : b.Runs run) (hsealed : ∀ id, b.kept id → b.hidden id)
    {word : Value} (hword : b.Admits word) : (QueryId.direction run word).Keeps b := by
  have hread : ∀ v : Value, Action.Keeps b
      ((v.text?.bind Direction.ofWord?).elim (throw (.argument .direction)) pure) := by
    intro v
    cases v.text?.bind Direction.ofWord? with
    | none => exact within_throw _
    | some direction => exact within_pure trivial
  unfold QueryId.direction
  dsimp only
  split
  · exact (within_pure (P := fun _ => True) trivial).bind fun word _ => hread word
  · exact (within_pure (P := fun _ => True) trivial).bind fun word _ => hread word
  · rename_i sub
    refine (within_extension hrun (fun hkept => ?_) _ Boundary.admitsAll_nil).keeps.next hread
    exact Boundary.admits_ofQuery.1 hword (hsealed sub hkept)
  · exact within_throw _

theorem keeps_addOrder (h : ¬b.kept q) {order : Order} (horder : b.Allows order.handles) :
    Action.Keeps b (q.modify (·.addOrder order)) :=
  keeps_modify h (fun _ => Query.kind_addOrder _ _) fun _ hquery => hquery.addOrder horder

theorem keeps_orderBy (hrun : b.Runs run) (hsealed : ∀ id, b.kept id → b.hidden id)
    (h : ¬b.kept q) {column word : Value} (hcolumn : b.Admits column) (hword : b.Admits word) :
    (q.orderBy run column word).Keeps b := by
  have hq := Boundary.not_hidden_of_not_kept h
  have hadd : ∀ column, b.Admits column → Action.Keeps b (do
      let direction ← QueryId.direction run word
      q.modify (·.addOrder (.byColumn column direction))) := fun column hcolumn =>
    (keeps_direction hrun hsealed hword).next fun direction => keeps_addOrder h hcolumn
  refine (within_read hq).bind fun query _ => ?_
  dsimp only
  split
  · refine (within_createSub hrun hq hcolumn).bind fun sub hsub => ?_
    refine (keeps_bind h _ hsub).next fun _ => ?_
    exact hadd _ (Boundary.admits_raw.2 (Boundary.admits_text _))
  · exact hadd _ hcolumn

theorem keeps_orderByRaw (h : ¬b.kept q) {sql bindings : Value} (hsql : b.Admits sql)
    (hbindings : b.Admits bindings) : (q.orderByRaw sql bindings).Keeps b := by
  have horder : b.Allows (Order.raw sql).handles := hsql
  refine (keeps_addOrder h horder).next fun _ => ?_
  refine (within_itemsOrNone hbindings).bind fun vs hvs => ?_
  exact (within_read (Boundary.not_hidden_of_not_kept h)).bind fun _ _ => keeps_bind h _ hvs

theorem keeps_inRandomOrder (h : ¬b.kept q) (seed : Value) : (q.inRandomOrder seed).Keeps b := by
  refine (keeps_grammarFor q _).next fun grammar => within_get.bind fun s _ => ?_
  exact keeps_orderByRaw h (Boundary.admits_text _) Boundary.admits_null

theorem keeps_reorder (hrun : b.Runs run) (hsealed : ∀ id, b.kept id → b.hidden id)
    (h : ¬b.kept q) {column word : Value} (hcolumn : b.Admits column) (hword : b.Admits word) :
    (q.reorder run column word).Keeps b := by
  refine Action.Keeps.next (keeps_modify h (fun _ => rfl) fun _ hquery => hquery.dropOrders)
    fun _ => ?_
  split
  · exact within_pure trivial
  · exact keeps_orderBy hrun hsealed h hcolumn hword

/-! ## Paging -/

theorem keeps_offset (h : ¬b.kept q) (value : Value) : (q.offset value).Keeps b :=
  (keeps_ofExcept _).next fun _ =>
    keeps_modify h (fun _ => Query.kind_setOffset _ _) fun _ hquery => hquery.setOffset _

theorem keeps_limit (h : ¬b.kept q) (value : Value) : (q.limit value).Keeps b := by
  unfold QueryId.limit
  split
  · exact within_pure trivial
  · refine (keeps_ofExcept _).next fun n => ?_
    split
    · exact keeps_modify h (fun _ => Query.kind_setLimit _ _) fun _ hquery => hquery.setLimit _
    · exact within_pure trivial

theorem keeps_forPage (h : ¬b.kept q) (page perPage : Value) : (q.forPage page perPage).Keeps b :=
  (keeps_ofExcept _).next fun _ => (keeps_ofExcept _).next fun _ =>
    (keeps_offset h _).next fun _ => keeps_limit h _

/-! ## Unions -/

theorem keeps_union (hrun : b.Runs run) (h : ¬b.kept q) {query keepsAll : Value}
    (hquery : b.Admits query) (hkeepsAll : b.Admits keepsAll) :
    (q.union run query keepsAll).Keeps b := by
  have hattach : ∀ query, b.Admits query → Action.Keeps b (do
      q.modify fun current =>
        { current with unions := current.unions ++ [⟨query.query?, keepsAll⟩] }
      let member ← query.needQuery
      q.bind .union (← member.bindings)) := by
    intro query hquery
    refine Action.Keeps.next (keeps_modify h (fun _ => rfl) fun _ hcurrent => ?_) fun _ => ?_
    · exact { hcurrent with
        unions := List.forall_mem_append.2 ⟨hcurrent.unions, List.forall_mem_singleton.2
          ⟨fun id hid => Value.not_hidden_of_query? hquery hid, hkeepsAll⟩⟩ }
    · refine (within_needQuery hquery).bind fun member hmember => ?_
      exact (within_bindings hmember).bind fun _ hvs => keeps_bind h _ hvs
  unfold QueryId.union
  dsimp only
  split
  · refine (within_newQuery (Boundary.not_hidden_of_not_kept h)).bind fun member hmember => ?_
    refine (within_call hrun hmember query Boundary.admitsAll_nil).keeps.next fun _ => ?_
    exact hattach _ (Boundary.admits_ofQuery.2 (Boundary.not_hidden_of_not_kept hmember))
  · exact hattach _ hquery

/-! ## Locks and choices -/

theorem keeps_lock (h : ¬b.kept q) {value : Value} (hvalue : b.Admits value) :
    (q.lock value).Keeps b :=
  keeps_modify h (fun _ => rfl) fun _ hquery => { hquery with lock := hvalue }

theorem within_whenever (hrun : b.Runs run) (h : ¬b.kept q) {value : Value}
    (hvalue : b.Admits value) (callback otherwise : Value) :
    (q.whenever run value callback otherwise).Within b b.Admits := by
  have hself : b.Admits (.ofQuery q) :=
    Boundary.admits_ofQuery.2 (Boundary.not_hidden_of_not_kept h)
  unfold QueryId.whenever
  dsimp only
  split
  · exact within_pure hself
  · refine (within_call hrun h _ (by simpa using hvalue)).bind fun result hresult => ?_
    refine within_pure ?_
    split
    · exact hresult
    · exact hself

end FluentSql
