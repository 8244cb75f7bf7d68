import FluentSql.Proofs.Building.Data

/-!
# Changes that keep the notes of a query

What a fluent call does to a query is made of few changes: a clause is added
together with its values.  Each of them keeps the query noted, with a note for
the new clause at the end of its list.

* The changes of the select list: `addColumns`, `clearColumns`, `selectColumn`
  and `setAggregate`.
* Those of the source, the joins and the conditions: `setSource`, `addJoin`,
  `addWhere`.
* Those of the grouping, the orderings, the paging, the unions and the lock.
-/

namespace FluentSql

namespace Query.Noted

variable {g : Grammar} {s : Store} {notes : QueryId → Notes} {n : Notes} {q : Query}

/-- The values of a query after some are added to a group. -/
theorem data_bind (h : q.Noted g s notes n) (group : BindingGroup) {vs : List Value}
    (hvs : ∀ v ∈ vs, v.handles = []) :
    ∀ v ∈ (q.bindings.extend group vs).flatten, v.handles = [] :=
  Bindings.extend_data h.data group hvs

/-! ## Select list -/

/-- Entries with their values. -/
theorem addColumns (h : q.Noted g s notes n) (hplain : q.aggregate = none) {columns : List Value}
    {vss : List (List Value)} (hcolumns : List.Forall₂ (ColumnHolds g) columns vss)
    (hdata : ∀ v ∈ vss.flatten, v.handles = []) :
    ((q.addColumns columns).bind .select vss.flatten).Noted g s notes
      { n with columns := n.columns ++ vss } :=
  { h with
    aggregate := fun a ha => by
      have hnone : q.aggregate = some a := ha
      rw [hplain] at hnone
      exact nomatch hnone
    columns := List.rel_append h.columns hcolumns
    select := by
      show q.bindings.select ++ vss.flatten = (n.columns ++ vss).flatten
      rw [h.select, List.flatten_append]
    data := h.data_bind .select hdata }

/-- The select list emptied, or left out. -/
theorem clearColumns (h : q.Noted g s notes n) (hplain : q.aggregate = none)
    {columns : Option (List Value)} (hempty : columns.getD [] = []) :
    ({ q.rebind .select [] with columns := columns } : Query).Noted g s notes
      { n with columns := [] } :=
  { h with
    aggregate := fun a ha => by
      have hnone : q.aggregate = some a := ha
      rw [hplain] at hnone
      exact nomatch hnone
    columns := by
      show List.Forall₂ (ColumnHolds g) (columns.getD []) []
      rw [hempty]
      exact .nil
    select := rfl
    data := Bindings.set_data h.data .select fun v hv => nomatch hv }

/-- One column without values as the select list. -/
theorem selectColumn (h : q.Noted g s notes n) {column : Value} (hcolumn : ColumnHolds g column []) :
    ({ q.rebind .select [] with columns := some [column] } : Query).Noted g s notes
      { n with columns := [[]] } :=
  { h with
    aggregate := fun a ha => by
      obtain ⟨hfunction, hcolumns, _⟩ := h.aggregate a ha
      exact ⟨hfunction, hcolumns, .inr rfl⟩
    columns := .cons hcolumn .nil
    select := rfl
    data := Bindings.set_data h.data .select fun _ hv => nomatch hv }

/-- Duplicate rows dropped. -/
theorem setDistinct (h : q.Noted g s notes n) :
    ({ q with distinct := true } : Query).Noted g s notes n :=
  { h with aggregate := h.aggregate }

/-- A function over the rows in the place of the select list. -/
theorem setAggregate (h : q.Noted g s notes n) {a : Aggregate} (hfunction : WordHolds a.function)
    (hcolumns : ∀ c ∈ a.columns, ColumnHolds g c [])
    (hselect : q.isUnion = true ∨ q.bindings.select = []) :
    ({ q with aggregate := some a } : Query).Noted g s notes n :=
  { h with
    aggregate := fun other hother => by
      cases hother
      exact ⟨hfunction, hcolumns, hselect⟩ }

/-! ## Source, joins and conditions -/

/-- A source in the place of one without values. -/
theorem setSource (h : q.Noted g s notes n) (hnone : q.bindings.source = []) {source : Value}
    {vs : List Value} (hsource : TableHolds g source vs) (hdata : ∀ v ∈ vs, v.handles = []) :
    (({ q with source := source } : Query).bind .source vs).Noted g s notes
      { n with source := vs } :=
  { h with
    sourceData := hsource.data
    source := fun _ => by
      refine ⟨hsource, ?_⟩
      show q.bindings.source ++ vs = vs
      rw [hnone, List.nil_append]
    data := h.data_bind .source hdata }

/-- Attached queries stay below a rank that grows. -/
private theorem attached_le (h : q.Noted g s notes n) {rank : Nat} (hold : n.rank ≤ rank)
    {id : QueryId} (hid : id ∈ q.attachments) : s.Stands notes id ∧ (notes id).rank < rank := by
  obtain ⟨hstands, hrank⟩ := h.attached id hid
  exact ⟨hstands, by omega⟩

/-- A join condition with its values. -/
theorem addJoin (h : q.Noted g s notes n) {id : QueryId} (hid : s.Stands notes id)
    (honly : (s.query id).OnlyConditions) (hdata : ∀ v ∈ (notes id).table, v.handles = [])
    (hbound : ∀ v ∈ (s.query id).bindings.flatten, v.handles = []) {rank : Nat}
    (hold : n.rank ≤ rank) (hrank : (notes id).rank < rank) :
    (({ q with joins := q.joins ++ [id] } : Query).bind .join
      ((notes id).table ++ (s.query id).bindings.flatten)).Noted g s notes
      { n with rank := rank } :=
  { h with
    join := by
      show q.bindings.join ++ _ = (q.joins ++ [id]).flatMap _
      rw [h.join, List.flatMap_append, List.flatMap_singleton]
    attached := by
      intro other hother
      rcases Query.mem_attachments.1 hother with hjoin | hrest
      · rcases List.mem_append.1 hjoin with hjoin | hnew
        · exact h.attached_le hold (Query.mem_attachments.2 (.inl hjoin))
        · rw [List.mem_singleton.1 hnew]
          exact ⟨hid, hrank⟩
      · exact h.attached_le hold (Query.mem_attachments.2 (.inr hrest))
    joins := by
      intro other hother
      rcases List.mem_append.1 hother with hother | hother
      · exact h.joins other hother
      · rw [List.mem_singleton.1 hother]
        exact honly
    data := by
      refine h.data_bind .join fun v hv => ?_
      exact (List.mem_append.1 hv).elim (hdata v) (hbound v) }

/-- A condition with its values. -/
theorem addWhere (h : q.Noted g s notes n) {boolean : Value} (hboolean : WordHolds boolean)
    {body : Where} {note : Note} (hbody : WhereHolds g note body)
    (hdata : ∀ v ∈ body.valuesIn s note, v.handles = []) {rank : Nat} (hold : n.rank ≤ rank)
    (hgroup : ∀ id ∈ body.group?, s.Stands notes id ∧ (notes id).rank < rank)
    (hsub : ∀ id ∈ body.sub?, (s.Stands notes id ∧ (notes id).rank < rank) ∧
      (notes id).whole = true) :
    ((q.addWhere boolean body).bind .condition (body.valuesIn s note)).Noted g s notes
      { n with wheres := n.wheres ++ [note], rank := rank } :=
  { h with
    wheres := List.rel_append h.wheres (.cons ⟨hboolean, hbody⟩ .nil)
    condition := by
      show q.bindings.condition ++ _ =
        (List.zipWith (fun c note => c.body.valuesIn s note) (q.wheres ++ [⟨boolean, body⟩])
          (n.wheres ++ [note])).flatten
      rw [List.zipWith_append h.wheres.length_eq, List.flatten_append, h.condition]
      exact congrArg _ (List.append_nil _).symm
    attached := by
      intro id hid
      rcases Query.mem_attachments.1 hid with hjoin | ⟨c, hc, hid⟩ | hid
      · exact h.attached_le hold (Query.mem_attachments.2 (.inl hjoin))
      · rcases List.mem_append.1 hc with hc | hc
        · exact h.attached_le hold (Query.mem_attachments_group hc hid)
        · rw [List.mem_singleton.1 hc] at hid
          exact hgroup id hid
      · rcases Query.mem_subQueries.1 hid with ⟨c, hc, hid⟩ | hunion
        · rcases List.mem_append.1 hc with hc | hc
          · exact h.attached_le hold (Query.mem_attachments_sub (Query.mem_subQueries_where hc hid))
          · rw [List.mem_singleton.1 hc] at hid
            exact (hsub id hid).1
        · exact h.attached_le hold
            (Query.mem_attachments_sub (Query.mem_subQueries.2 (.inr hunion)))
    subQueries := by
      intro id hid
      rcases Query.mem_subQueries.1 hid with ⟨c, hc, hid⟩ | hunion
      · rcases List.mem_append.1 hc with hc | hc
        · exact h.subQueries id (Query.mem_subQueries_where hc hid)
        · rw [List.mem_singleton.1 hc] at hid
          exact (hsub id hid).2
      · exact h.subQueries id (Query.mem_subQueries.2 (.inr hunion))
    data := h.data_bind .condition hdata }

/-! ## Grouping -/

/-- Columns to group by. -/
theorem addGroups (h : q.Noted g s notes n) {columns : List Value} {vss : List (List Value)}
    (hcolumns : List.Forall₂ (ColumnHolds g) columns vss)
    (hdata : ∀ v ∈ vss.flatten, v.handles = []) :
    (({ q with groups := q.groups ++ columns } : Query).bind .grouping vss.flatten).Noted g s notes
      { n with groups := n.groups ++ vss } :=
  { h with
    groups := List.rel_append h.groups hcolumns
    grouping := by
      show q.bindings.grouping ++ vss.flatten = (n.groups ++ vss).flatten
      rw [h.grouping, List.flatten_append]
    data := h.data_bind .grouping hdata }

/-- A condition on groups with its values. -/
theorem addHaving (h : q.Noted g s notes n) {boolean : Value} (hboolean : WordHolds boolean)
    {body : Having} {note : Note} (hbody : HavingHolds g note body)
    (hdata : ∀ v ∈ note.column ++ note.values.flatten, v.handles = []) :
    ((q.addHaving boolean body).bind .having (note.column ++ note.values.flatten)).Noted g s notes
      { n with havings := n.havings ++ [note] } :=
  { h with
    havings := List.rel_append h.havings (.cons ⟨hboolean, hbody⟩ .nil)
    having := by
      show q.bindings.having ++ _ =
        ((n.havings ++ [note]).map fun note => note.column ++ note.values.flatten).flatten
      rw [h.having, List.map_append, List.flatten_append]
      exact congrArg _ (List.append_nil _).symm
    data := h.data_bind .having hdata }

/-! ## Orderings, paging and locks -/

/-- An ordering with its values. -/
theorem addOrder (h : q.Noted g s notes n) {order : Order} {vs : List Value}
    (horder : OrderHolds g vs order) (hdata : ∀ v ∈ vs, v.handles = []) :
    ∃ n' : Notes, n'.table = n.table ∧ n'.whole = n.whole ∧ n'.rank = n.rank ∧
      n'.closed = n.closed ∧ ((q.addOrder order).bind q.orderGroup vs).Noted g s notes n' := by
  have hflat : ∀ vss : List (List Value), (vss ++ [vs]).flatten = vss.flatten ++ vs := by
    intro vss
    rw [List.flatten_append, List.flatten_cons, List.flatten_nil, List.append_nil]
  unfold Query.addOrder Query.orderGroup
  cases hq : q.isUnion with
  | true =>
    refine ⟨{ n with unionOrders := n.unionOrders ++ [vs] }, rfl, rfl, rfl, rfl, ?_⟩
    exact { h with
      unionOrders := List.rel_append h.unionOrders (.cons horder .nil)
      unionOrder := by
        show q.bindings.unionOrder ++ vs = _
        rw [h.unionOrder, hflat]
      unionOnly := fun hnot => by
        have hsame : q.isUnion = false := hnot
        rw [hq] at hsame
        exact nomatch hsame
      data := h.data_bind .unionOrder hdata }
  | false =>
    refine ⟨{ n with orders := n.orders ++ [vs] }, rfl, rfl, rfl, rfl, ?_⟩
    exact { h with
      orders := List.rel_append h.orders (.cons horder .nil)
      order := by
        show q.bindings.order ++ vs = _
        rw [h.order, hflat]
      data := h.data_bind .order hdata }

/-- All orderings removed. -/
theorem dropOrders (h : q.Noted g s notes n) :
    q.dropOrders.Noted g s notes { n with orders := [], unionOrders := [] } :=
  { h with
    orders := .nil
    order := rfl
    unionOrders := .nil
    unionOrder := rfl
    unionOnly := fun _ => rfl
    data := by
      have hnone : ∀ v ∈ ([] : List Value), v.handles = [] := fun v hv => nomatch hv
      exact Bindings.set_data (Bindings.set_data h.data .order hnone) .unionOrder hnone }

/-- The orderings of the rows removed, but not those of a union. -/
theorem unordered (h : q.Noted g s notes n) :
    q.unordered.Noted g s notes { n with orders := [] } :=
  { h with
    aggregate := h.aggregate
    orders := .nil
    order := rfl
    data := Bindings.set_data h.data .order fun _ hv => nomatch hv }

theorem setOffset (h : q.Noted g s notes n) (count : Nat) :
    (q.setOffset count).Noted g s notes n := by
  unfold Query.setOffset
  split
  · exact { h with aggregate := h.aggregate }
  · exact { h with aggregate := h.aggregate }

theorem setLimit (h : q.Noted g s notes n) (count : Nat) :
    (q.setLimit count).Noted g s notes n := by
  unfold Query.setLimit
  split
  · exact { h with aggregate := h.aggregate }
  · exact { h with aggregate := h.aggregate }

/-- A row lock. -/
theorem setLock (h : q.Noted g s notes n) {lock : Value} (hdata : lock.handles = [])
    (hlock : ∀ sql, lock = .text sql → Sealed sql.toList) :
    ({ q with lock := lock } : Query).Noted g s notes n :=
  { h with
    aggregate := h.aggregate
    lock := ⟨hdata, hlock⟩ }

/-! ## Unions -/

/-- A member of a union with its values. -/
theorem addUnion (h : q.Noted g s notes n) (hplain : q.aggregate = none) {id : QueryId}
    (hid : s.Stands notes id) (hwhole : (notes id).whole = true)
    (hdata : ∀ v ∈ (s.query id).bindings.flatten, v.handles = []) {keepsAll : Value}
    (hkeeps : keepsAll.handles = []) {rank : Nat} (hold : n.rank ≤ rank)
    (hrank : (notes id).rank < rank) :
    (({ q with unions := q.unions ++ [⟨some id, keepsAll⟩] } : Query).bind .union
      (s.query id).bindings.flatten).Noted g s notes { n with rank := rank } :=
  { h with
    aggregate := fun a ha => by
      have hnone : q.aggregate = some a := ha
      rw [hplain] at hnone
      exact nomatch hnone
    unions := by
      intro u hu
      rcases List.mem_append.1 hu with hu | hu
      · exact h.unions u hu
      · rw [List.mem_singleton.1 hu]
        exact ⟨rfl, hkeeps⟩
    union := by
      show q.bindings.union ++ _ =
        ((q.unions ++ [(⟨some id, keepsAll⟩ : Union)]).filterMap (·.member)).flatMap _
      rw [h.union, List.filterMap_append, List.flatMap_append]
      exact congrArg _ (List.append_nil _).symm
    unionOnly := fun hnot => by
      have hempty : (!(q.unions ++ [(⟨some id, keepsAll⟩ : Union)]).isEmpty) = false := hnot
      rw [Bool.not_eq_false', List.isEmpty_iff, List.append_eq_nil_iff] at hempty
      exact nomatch hempty.2
    attached := by
      intro other hother
      rcases Query.mem_attachments.1 hother with hjoin | hgroup | hsub
      · exact h.attached_le hold (Query.mem_attachments.2 (.inl hjoin))
      · exact h.attached_le hold (Query.mem_attachments.2 (.inr (.inl hgroup)))
      · rcases Query.mem_subQueries.1 hsub with hwhere | ⟨u, hu, hmember⟩
        · exact h.attached_le hold
            (Query.mem_attachments_sub (Query.mem_subQueries.2 (.inl hwhere)))
        · rcases List.mem_append.1 hu with hu | hu
          · exact h.attached_le hold
              (Query.mem_attachments_sub (Query.mem_subQueries_union hu hmember))
          · rw [List.mem_singleton.1 hu] at hmember
            cases hmember
            exact ⟨hid, hrank⟩
    subQueries := by
      intro other hother
      rcases Query.mem_subQueries.1 hother with hwhere | ⟨u, hu, hmember⟩
      · exact h.subQueries other (Query.mem_subQueries.2 (.inl hwhere))
      · rcases List.mem_append.1 hu with hu | hu
        · exact h.subQueries other (Query.mem_subQueries_union hu hmember)
        · rw [List.mem_singleton.1 hu] at hmember
          cases hmember
          exact hwhole
    data := h.data_bind .union hdata }

end Query.Noted

end FluentSql
