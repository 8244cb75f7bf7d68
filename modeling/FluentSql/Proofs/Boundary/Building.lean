import FluentSql.Proofs.Boundary.Reading
import FluentSql.Proofs.References

/-!
# Fluent calls within a boundary

A fluent call changes the query that it is made on, and it may make others.
What it stores comes from its arguments, so it keeps to a boundary if its
query is not kept and its arguments refer to nothing hidden.

* The changes of one query: `Boundary.AdmitsQuery.bind` and the lemmas beside
  it.
* The fluent calls in families: bindings, select list and source, conditions,
  joins, grouping, ordering, paging, unions and locks.
-/

namespace FluentSql

variable {b : Boundary} {run : Runner} {q : QueryId}

/-! ## Changes of one query -/

namespace Boundary

theorem AdmitsBindings.set {bindings : Bindings} (h : b.AdmitsBindings bindings)
    (group : BindingGroup) {vs : List Value} (hvs : b.AdmitsAll vs) :
    b.AdmitsBindings (bindings.set group vs) := by
  intro other
  by_cases hother : other = group
  · rw [hother, Bindings.get_set_self]
    exact hvs
  · rw [Bindings.get_set_of_ne bindings vs hother]
    exact h other

theorem AdmitsBindings.extend {bindings : Bindings} (h : b.AdmitsBindings bindings)
    (group : BindingGroup) {vs : List Value} (hvs : b.AdmitsAll vs) :
    b.AdmitsBindings (bindings.extend group vs) :=
  h.set group (admitsAll_append.2 ⟨h group, hvs⟩)

theorem AdmitsBindings.merge {bindings other : Bindings} (h : b.AdmitsBindings bindings)
    (hother : b.AdmitsBindings other) : b.AdmitsBindings (bindings.merge other) := by
  have hfold : ∀ (groups : List BindingGroup) (merged : Bindings), b.AdmitsBindings merged →
      b.AdmitsBindings
        (groups.foldl (fun merged group => merged.extend group (other.get group)) merged) := by
    intro groups
    induction groups with
    | nil => exact fun _ hmerged => hmerged
    | cons group groups ih =>
      exact fun merged hmerged => ih _ (hmerged.extend group (hother group))
  exact hfold _ _ h

variable {query : Query}

theorem AdmitsQuery.bind (h : b.AdmitsQuery query) (group : BindingGroup) {vs : List Value}
    (hvs : b.AdmitsAll vs) : b.AdmitsQuery (query.bind group vs) :=
  { h with bindings := h.bindings.extend group hvs }

theorem AdmitsQuery.rebind (h : b.AdmitsQuery query) (group : BindingGroup) {vs : List Value}
    (hvs : b.AdmitsAll vs) : b.AdmitsQuery (query.rebind group vs) :=
  { h with bindings := h.bindings.set group hvs }

theorem AdmitsQuery.addWhere (h : b.AdmitsQuery query) {boolean : Value} {body : Where}
    (hboolean : b.Admits boolean) (hbody : b.Allows body.handles) :
    b.AdmitsQuery (query.addWhere boolean body) :=
  { h with
    wheres := List.forall_mem_append.2
      ⟨h.wheres, List.forall_mem_singleton.2 ⟨hboolean, hbody⟩⟩ }

theorem AdmitsQuery.addHaving (h : b.AdmitsQuery query) {boolean : Value} {body : Having}
    (hboolean : b.Admits boolean) (hbody : b.Allows body.handles) :
    b.AdmitsQuery (query.addHaving boolean body) :=
  { h with
    havings := List.forall_mem_append.2
      ⟨h.havings, List.forall_mem_singleton.2 ⟨hboolean, hbody⟩⟩ }

theorem AdmitsQuery.addColumns (h : b.AdmitsQuery query) {columns : List Value}
    (hcolumns : b.AdmitsAll columns) : b.AdmitsQuery (query.addColumns columns) :=
  { h with columns := admitsAll_append.2 ⟨h.columns, hcolumns⟩ }

theorem AdmitsQuery.addOrder (h : b.AdmitsQuery query) {order : Order}
    (horder : b.Allows order.handles) : b.AdmitsQuery (query.addOrder order) := by
  unfold Query.addOrder
  split
  · exact { h with
      unionOrders :=
        List.forall_mem_append.2 ⟨h.unionOrders, List.forall_mem_singleton.2 horder⟩ }
  · exact { h with
      orders := List.forall_mem_append.2 ⟨h.orders, List.forall_mem_singleton.2 horder⟩ }

theorem AdmitsQuery.dropOrders (h : b.AdmitsQuery query) : b.AdmitsQuery query.dropOrders :=
  { h with
    bindings := (h.bindings.set _ admitsAll_nil).set _ admitsAll_nil
    orders := fun _ hmem => nomatch hmem
    unionOrders := fun _ hmem => nomatch hmem }

theorem AdmitsQuery.unordered (h : b.AdmitsQuery query) : b.AdmitsQuery query.unordered :=
  { h with
    bindings := h.bindings.set _ admitsAll_nil
    orders := fun _ hmem => nomatch hmem }

theorem AdmitsQuery.setOffset (h : b.AdmitsQuery query) (n : Nat) :
    b.AdmitsQuery (query.setOffset n) := by
  unfold Query.setOffset
  split <;> exact { h with }

theorem AdmitsQuery.setLimit (h : b.AdmitsQuery query) (n : Nat) :
    b.AdmitsQuery (query.setLimit n) := by
  unfold Query.setLimit
  split <;> exact { h with }

theorem AdmitsQuery.addGroups (h : b.AdmitsQuery query) {columns : List Value}
    (hcolumns : b.AdmitsAll columns) :
    b.AdmitsQuery { query with groups := query.groups ++ columns } :=
  { h with groups := admitsAll_append.2 ⟨h.groups, hcolumns⟩ }

end Boundary

theorem Query.kind_addOrder (query : Query) (order : Order) :
    (query.addOrder order).kind = query.kind := by
  unfold Query.addOrder
  split <;> rfl

theorem Query.kind_setOffset (query : Query) (n : Nat) : (query.setOffset n).kind = query.kind := by
  unfold Query.setOffset
  split <;> rfl

theorem Query.kind_setLimit (query : Query) (n : Nat) : (query.setLimit n).kind = query.kind := by
  unfold Query.setLimit
  split <;> rfl

/-! ## Bindings -/

theorem keeps_bind (h : ¬b.kept q) (group : BindingGroup) {vs : List Value}
    (hvs : b.AdmitsAll vs) : (q.bind group vs).Keeps b :=
  keeps_modify h (fun _ => rfl) fun _ hquery => hquery.bind group hvs

theorem keeps_addBinding (h : ¬b.kept q) {value : Value} (hvalue : b.Admits value) (name : Value) :
    (q.addBinding value name).Keeps b :=
  (keeps_ofExcept _).next fun _ => keeps_bind h _ (Value.admitsAll_listed hvalue)

theorem keeps_setBindings (h : ¬b.kept q) {values : Value} (hvalues : b.Admits values)
    (name : Value) : (q.setBindings values name).Keeps b := by
  refine (keeps_ofExcept _).next fun _ => (within_itemsNow hvalues).bind fun vs hvs => ?_
  exact keeps_modify h (fun _ => rfl) fun _ hquery => hquery.rebind _ hvs

theorem keeps_mergeBindings (h : ¬b.kept q) {other : Value} (hother : b.Admits other) :
    (q.mergeBindings other).Keeps b := by
  refine (within_needQuery hother).bind fun id hid => (within_read hid).bind fun added hadded => ?_
  exact keeps_modify h (fun _ => rfl) fun _ hquery =>
    { hquery with bindings := hquery.bindings.merge hadded.bindings }

theorem keeps_bindValue (h : ¬b.kept q) (group : BindingGroup) {value : Value}
    (hvalue : b.Admits value) : (q.bindValue group value).Keeps b := by
  unfold QueryId.bindValue
  split
  · exact within_pure trivial
  · exact keeps_bind h _ (Boundary.admitsAll_cons.2 ⟨hvalue, Boundary.admitsAll_nil⟩)

theorem keeps_bindValues (h : ¬b.kept q) (group : BindingGroup) {values : List Value}
    (hvalues : b.AdmitsAll values) : (q.bindValues group values).Keeps b :=
  keeps_bind h _ (hvalues.filter _)

theorem keeps_addWhere (h : ¬b.kept q) {boolean : Value} {body : Where}
    (hboolean : b.Admits boolean) (hbody : b.Allows body.handles) :
    (q.addWhere boolean body).Keeps b :=
  keeps_modify h (fun _ => rfl) fun _ hquery => hquery.addWhere hboolean hbody

/-! ## Comparisons -/

theorem admits_checked {added : Except Failure (List String)} {operator value : Value}
    (hvalue : b.Admits value) {c : Comparison} (hc : Comparison.check added operator value = .ok c) :
    b.Admits c.value := by
  unfold Comparison.check at hc
  split at hc
  · obtain ⟨known, _, hc⟩ := Name.bind_eq_ok hc
    split at hc
    · exact nomatch hc
    · split at hc
      · exact nomatch hc
      · cases hc
        exact hvalue
  · exact nomatch hc

theorem admits_compared {added : Except Failure (List String)} {operator value : Option Value}
    (hoperator : ∀ v ∈ operator, b.Admits v) (hvalue : ∀ v ∈ value, b.Admits v) {c : Comparison}
    (hc : Comparison.ofArguments added operator value = .ok c) : b.Admits c.value := by
  cases value with
  | some value => exact admits_checked (hvalue value rfl) hc
  | none =>
    have hcheck : Comparison.check added (.text "=") (operator.getD .null) = .ok c := hc
    refine admits_checked ?_ hcheck
    cases operator with
    | none => exact Boundary.admits_null
    | some operator => exact hoperator operator rfl

theorem keeps_addedOperators (q : QueryId) : q.addedOperators.Keeps b :=
  within_get.bind fun _ _ => within_pure trivial

/-- The value of a comparison is one of its arguments. -/
theorem within_comparison {operator value : Option Value} (hoperator : ∀ v ∈ operator, b.Admits v)
    (hvalue : ∀ v ∈ value, b.Admits v) :
    (q.comparison operator value).Within b fun c => b.Admits c.value := by
  have hread : ∀ operator' : Option Value, (∀ v ∈ operator', b.Admits v) →
      Action.Within b (do Action.ofExcept (Comparison.ofArguments (← q.addedOperators) operator'
        value)) fun c => b.Admits c.value := fun operator' hoperator' =>
    (keeps_addedOperators q).next fun _ =>
      within_ofExcept fun _ hc => admits_compared hoperator' hvalue hc
  unfold QueryId.comparison
  split
  · refine Action.Within.bind (P := fun o : Option Value => ∀ v ∈ o, b.Admits v) ?_ hread
    exact (within_shown (hoperator _ rfl)).map fun v hv w hw => Option.some.inj hw ▸ hv
  · exact (within_pure hoperator).bind hread

/-! ## Select list and source -/

theorem keeps_addColumns (h : ¬b.kept q) {columns : List Value} (hcolumns : b.AdmitsAll columns) :
    (q.addColumns columns).Keeps b :=
  keeps_modify h (fun _ => rfl) fun _ hquery => hquery.addColumns hcolumns

theorem keeps_selectRaw (h : ¬b.kept q) {sql bindings : Value} (hsql : b.Admits sql)
    (hbindings : b.Admits bindings) : (q.selectRaw sql bindings).Keeps b := by
  unfold QueryId.selectRaw
  have hcolumns : b.AdmitsAll [.raw sql] :=
    Boundary.admitsAll_cons.2 ⟨hsql, Boundary.admitsAll_nil⟩
  refine (keeps_addColumns h hcolumns).next fun _ => ?_
  split
  · exact (within_itemsNow hbindings).bind fun _ hvs => keeps_bind h _ hvs
  · exact within_pure trivial

theorem keeps_selectSub (hrun : b.Runs run) (h : ¬b.kept q) {query : Value}
    (hquery : b.Admits query) (name : Value) : (q.selectSub run query name).Keeps b := by
  refine (within_createSub hrun (Boundary.not_hidden_of_not_kept h) hquery).bind fun sub hsub => ?_
  refine (keeps_wrapped q name).next fun _ => ?_
  exact keeps_selectRaw h (Boundary.admits_text _) (Boundary.admits_list.2 hsub)

theorem keeps_selectAs (hrun : b.Runs run) (h : ¬b.kept q) (name : Value) {value : Value}
    (hvalue : b.Admits value) : (q.selectAs run name value).Keeps b := by
  unfold QueryId.selectAs
  split
  · exact keeps_selectSub hrun h hvalue name
  · refine (keeps_displayNow _).next fun _ => (keeps_displayNow _).next fun _ => ?_
    exact keeps_addColumns h (by simp)

theorem keeps_selectEntry (hrun : b.Runs run) (h : ¬b.kept q) {column : Value}
    (hcolumn : b.Admits column) : (q.selectEntry run column).Keeps b := by
  refine (within_now hcolumn).bind fun v hv => ?_
  split
  · exact keeps_forM fun entry hentry =>
      keeps_selectAs hrun h _ (Boundary.admits_map.1 hv entry hentry).2
  · exact keeps_addColumns h (Boundary.admitsAll_cons.2 ⟨hv, Boundary.admitsAll_nil⟩)

theorem keeps_addSelect (hrun : b.Runs run) (h : ¬b.kept q) {columns : List Value}
    (hcolumns : b.AdmitsAll columns) : (q.addSelect run columns).Keeps b :=
  (keeps_addColumns h Boundary.admitsAll_nil).next fun _ =>
    keeps_forM fun column hcolumn =>
      keeps_selectEntry hrun h (admitsAll_flatten hcolumns column hcolumn)

theorem keeps_select (hrun : b.Runs run) (h : ¬b.kept q) {columns : List Value}
    (hcolumns : b.AdmitsAll columns) : (q.select run columns).Keeps b := by
  refine Action.Keeps.next (keeps_modify h (fun _ => rfl) fun _ hquery => ?_) fun _ => ?_
  · exact { hquery.rebind .select Boundary.admitsAll_nil with columns := Boundary.admitsAll_nil }
  · refine keeps_addSelect hrun h ?_
    split
    · exact Boundary.admitsAll_cons.2 ⟨Boundary.admits_text _, Boundary.admitsAll_nil⟩
    · exact admitsAll_flatten hcolumns

theorem keeps_distinct (h : ¬b.kept q) : q.distinct.Keeps b :=
  keeps_modify h (fun _ => rfl) fun _ hquery => { hquery with }

theorem keeps_fromRaw (h : ¬b.kept q) {sql bindings : Value} (hsql : b.Admits sql)
    (hbindings : b.Admits bindings) : (q.fromRaw sql bindings).Keeps b := by
  refine Action.Keeps.next (keeps_modify h (fun _ => rfl) fun _ hquery => ?_) fun _ => ?_
  · exact { hquery with source := hsql }
  · exact (within_itemsOrNone hbindings).bind fun _ hvs => keeps_bind h _ hvs

theorem keeps_fromSub (hrun : b.Runs run) (h : ¬b.kept q) {query : Value}
    (hquery : b.Admits query) (name : Value) : (q.fromSub run query name).Keeps b := by
  refine (within_createSub hrun (Boundary.not_hidden_of_not_kept h) hquery).bind fun sub hsub => ?_
  refine (keeps_wrappedTable q name).next fun _ => ?_
  exact keeps_fromRaw h (Boundary.admits_text _) (Boundary.admits_list.2 hsub)

theorem keeps_setSource (hrun : b.Runs run) (h : ¬b.kept q) {table : Value}
    (htable : b.Admits table) (name : Value) : (q.setSource run table name).Keeps b := by
  have hset : ∀ source, b.Admits source →
      Action.Keeps b (q.modify fun query => { query with source }) := fun source hsource =>
    keeps_modify h (fun _ => rfl) fun _ hquery => { hquery with source := hsource }
  unfold QueryId.setSource
  split
  · split
    · exact within_throw _
    · exact keeps_fromSub hrun h htable name
  · split
    · refine (keeps_displayNow _).next fun _ => (keeps_displayNow _).next fun _ => ?_
      exact hset _ (Boundary.admits_text _)
    · exact hset _ htable

end FluentSql
