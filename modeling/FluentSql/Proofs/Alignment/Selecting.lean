import FluentSql.Compile.Select
import FluentSql.Proofs.Alignment.Conditions

/-!
# Select statements with and without their values

The compilation of a select statement mirrors that of the query with its
values written in.  The components of the statement stand in the order of the
binding groups, so the placeholders stand for the values of the query in
order.

* `aggregateSql_self`, `ordersSql_mirrors`, `unionsSql_mirrors` and
  `joinSql_mirrors` are the clauses that have a text of their own.
* `components_mirrors` are the components, and `selectSql_mirrors` the
  statement.
* `attachedBy_mirrors` is the induction over the depth of attached queries.
* `Store.compiled_mirrors` is a statement of a query of the store.
-/

namespace FluentSql

open Name

variable {g : Grammar} {p : String} {lit : Literals} {s : Store} {notes : QueryId → Notes}
variable {attached attached' : Attached}

/-! ## Clauses -/

/-- An aggregate has no placeholders. -/
theorem aggregateSql_self (lit : Literals) (hg : g.Compiles p) {a : Aggregate} {q : Query}
    (h : AggregateHolds g q a) (distinct : Bool) :
    MirrorsFill lit (g.aggregateSql distinct a) [] (g.aggregateSql distinct a) := by
  obtain ⟨hfunction, hcolumns, _⟩ := h
  have hself := columnize_self lit hg hcolumns
  refine mirrorsFill_self (hself.asksNothing.bind fun _ _ => asksNothing_ok _) fun t ht => ?_
  obtain ⟨columns, hok, ht⟩ := bind_eq_ok ht
  obtain ⟨_, _, hfills⟩ := hself.succeeds columns hok
  have hlist : Sealed (if distinct = true ∧ columns ≠ "*" then "distinct " ++ columns
      else columns).toList := by
    split
    · rw [String.toList_append]
      exact Sealed.append (by decide) hfills.reads
    · exact hfills.reads
  cases ht
  simp only [String.toList_append]
  exact (((Sealed.append (by decide) hfunction.2).append (by decide)).append hlist).append
    (by decide)

theorem ordersSql_mirrors (hg : g.Compiles p) {orders : List Order} {vss : List (List Value)}
    (h : List.Forall₂ (fun order vs => OrderHolds g vs order) orders vss) :
    MirrorsFill lit (g.ordersSql orders) vss.flatten
      (g.ordersSql (List.zipWith (fun order vs => order.inlined lit vs) orders vss)) := by
  unfold Grammar.ordersSql
  refine Mirrors.bind
    (P := fun ts us => Each (ValueFills lit) ts (List.zipWith (fun _ vs => vs) orders vss) us)
    (mirrors_mapM h fun order _ vs hvs => ?_) fun ts us hts => ?_
  · cases order with
    | raw sql => exact .ok (valueFills_filledText hvs.2)
    | byColumn column direction =>
      refine (wrapped_mirrors hg hvs).bind fun t u htu => .ok ⟨?_, _, rfl⟩
      refine (htu.append_sealed (by decide)).append_sealed ?_
      cases direction <;> decide
  rw [zipWith_notes h] at hts
  refine (joinTexts_mirrors (by decide) hts).bind fun t u htu => .ok ?_
  exact htu.sealed_append (by decide)

/-- A number of rows. -/
private theorem countText_self (lit : Literals) (n : Nat) :
    MirrorsFill lit (Grammar.countText n) [] (Grammar.countText n) := by
  unfold Grammar.countText
  split
  · exact .ok (fills_sealed (natText_sealed n))
  · exact .error (value_ne_unanswered _) _

theorem limitSql_self (lit : Literals) (n : Nat) :
    MirrorsFill lit (Grammar.limitSql n) [] (Grammar.limitSql n) :=
  (countText_self lit n).bind fun _ _ h => .ok (h.sealed_append (by decide))

theorem offsetSql_self (lit : Literals) (n : Nat) :
    MirrorsFill lit (Grammar.offsetSql n) [] (Grammar.offsetSql n) :=
  (countText_self lit n).bind fun _ _ h => .ok (h.sealed_append (by decide))

/-- A clause that may be absent. -/
private theorem elim_self {α : Type} {sql : α → Except Failure String}
    (h : ∀ x, MirrorsFill lit (sql x) [] (sql x)) (clause : Option α) :
    MirrorsFill lit (clause.elim (.ok "") sql) [] (clause.elim (.ok "") sql) := by
  cases clause with
  | none => exact .ok (fills_sealed reads_nil)
  | some x => exact h x

/-- A clause after a space that may be absent. -/
theorem trailing_self {α : Type} {sql : α → Except Failure String}
    (h : ∀ x, MirrorsFill lit (sql x) [] (sql x)) (clause : Option α) :
    MirrorsFill lit (Grammar.trailing clause sql) [] (Grammar.trailing clause sql) := by
  cases clause with
  | none => exact .ok (fills_sealed reads_nil)
  | some x => exact (h x).map fun _ _ h => h.sealed_append (by decide)

/-- The clause of a list that is there only if the list is not empty. -/
private theorem ifAny_mirrors {α β : Type} {items : List α} {items' : List β}
    {sql sql' : Except Failure String} {vs : List Value} (hlength : items'.length = items.length)
    (hempty : items = [] → vs = []) (h : MirrorsFill lit sql vs sql') :
    MirrorsFill lit (Grammar.ifAny items sql) vs (Grammar.ifAny items' sql') := by
  unfold Grammar.ifAny
  cases items with
  | nil =>
    rw [List.length_eq_zero_iff.1 hlength, hempty rfl]
    exact .ok (fills_sealed reads_nil)
  | cons x items =>
    cases items' with
    | nil => exact nomatch hlength
    | cons y items' => exact h

/-- The same for a clause after a space. -/
theorem trailingOf_mirrors {α : Type} {items items' : List α}
    {sql : List α → Except Failure String} {vs : List Value}
    (hlength : items'.length = items.length) (hempty : items = [] → vs = [])
    (h : MirrorsFill lit (sql items) vs (sql items')) :
    MirrorsFill lit (Grammar.trailingOf items sql) vs (Grammar.trailingOf items' sql) := by
  have hspaced : MirrorsFill lit ((sql items).map (" " ++ ·)) vs
      ((sql items').map (" " ++ ·)) := h.map fun _ _ h => h.sealed_append (by decide)
  exact ifAny_mirrors hlength hempty hspaced

/-- Clauses with their values are as many as the clauses. -/
theorem length_zipWith_notes {α β ν : Type} {holds : α → ν → Prop} {f : α → ν → β}
    {xs : List α} {notes : List ν} (h : List.Forall₂ holds xs notes) :
    (List.zipWith f xs notes).length = xs.length := by
  rw [List.length_zipWith, h.length_eq, Nat.min_self]

/-- No clauses have no values. -/
theorem flatten_of_nil {α ν : Type} {holds : α → List ν → Prop} {xs : List α}
    {notes : List (List ν)} (h : List.Forall₂ holds xs notes) (hnil : xs = []) :
    notes.flatten = [] := by
  rw [hnil, List.forall₂_nil_left_iff] at h
  rw [h, List.flatten_nil]

/-- The joins of a query. -/
theorem joinsSql_mirrors (ha : MirrorsAttached lit s notes attached attached') {q : Query}
    {n : Notes} (h : q.Noted g s notes n) :
    MirrorsFill lit (Grammar.joinsSql attached q.joins) q.bindings.join
      (Grammar.joinsSql attached' q.joins) := by
  have hall : Mirrors (fun ts us => FillsAll lit ts
      (q.joins.map fun id => (notes id).table ++ (s.query id).bindings.flatten) us)
      (q.joins.mapM attached.join) (q.joins.mapM attached'.join) :=
    mirrors_mapM_same fun id hid =>
      ha.join id (h.attached id (Query.mem_attachments_join hid)).1 (h.joins id hid)
  rw [h.join, List.flatMap_def]
  exact hall.bind fun ts us hts => .ok (fills_joinWith (by decide) hts)

/-- The text of a table with the joins that share its parentheses. -/
private def tableWithJoins (attached : Attached) (joins : List QueryId) (table : String) :
    Except Failure String :=
  if joins.isEmpty then .ok table
  else do
    let joins ← Grammar.joinsSql attached joins
    return "(" ++ table ++ " " ++ joins ++ ")"

private theorem joinSql_of_join (g : Grammar) (attached : Attached) {q : Query} {type table : Value}
    (h : q.kind = .join type table) :
    g.joinSql attached q = (do
      let table ← g.wrappedTable table
      let table ← tableWithJoins attached q.joins table
      let condition ← g.wheresSql attached q
      return Text.trim (type.display ++ " join " ++ table ++ " " ++ condition)) := by
  unfold Grammar.joinSql tableWithJoins
  rw [h]
  cases q.joins with
  | nil => rfl
  | cons id joins => simp only [List.isEmpty_cons, Bool.false_eq_true, if_false, bind_assoc]; rfl

private theorem tableWithJoins_mirrors (ha : MirrorsAttached lit s notes attached attached')
    {q : Query} {n : Notes} (h : q.Noted g s notes n) {t u : String} {vs : List Value}
    (htu : Fills lit t vs u) :
    MirrorsFill lit (tableWithJoins attached q.joins t) (vs ++ q.bindings.join)
      (tableWithJoins attached' q.joins u) := by
  unfold tableWithJoins
  split
  · rename_i hnone
    rw [List.isEmpty_iff] at hnone
    rw [h.join, hnone, List.flatMap_nil, List.append_nil]
    exact .ok htu
  · refine (joinsSql_mirrors ha h).bind fun t' u' h' => .ok ?_
    have hhead := (htu.sealed_append (a := "(") (by decide)).append_sealed (b := " ") (by decide)
    exact (hhead.append h').append_sealed (by decide)

/-- A join condition as a join clause. -/
theorem joinSql_mirrors (hg : g.Compiles p) (ha : MirrorsAttached lit s notes attached attached')
    {q : Query} {n : Notes} (h : q.Noted g s notes n) (honly : q.OnlyConditions) :
    MirrorsFill lit (g.joinSql attached q) (n.table ++ q.bindings.flatten)
      (g.joinSql attached' (q.inlined lit n)) := by
  have hflat : q.bindings.flatten = q.bindings.join ++ q.bindings.condition := by
    rw [honly]
    simp only [Bindings.flatten, Bindings.flattenGroups, BindingGroup.all, List.flatMap_cons,
      Bindings.get, List.flatMap_nil, List.nil_append, List.append_nil]
  have hkind := h.kind
  cases hq : q.kind with
  | statement =>
    unfold Grammar.joinSql
    rw [hq]
    exact .error (value_ne_unanswered _) _
  | join type table =>
    rw [hq] at hkind
    obtain ⟨htype, htable⟩ := hkind
    have hinlined : (q.inlined lit n).kind = .join type (table.filled lit n.table) := by
      unfold Query.inlined
      rw [hq]
      rfl
    rw [hflat, ← List.append_assoc, joinSql_of_join g attached hq,
      joinSql_of_join g attached' hinlined]
    refine (wrappedTable_mirrors hg htable).bind fun t u htu => ?_
    refine (tableWithJoins_mirrors ha h htu).bind fun t u htu => ?_
    refine (wheresSql_mirrors hg ha h).bind fun t' u' h' => .ok ?_
    have hjoin : Sealed (type.display ++ " join ").toList := by
      rw [String.toList_append]
      exact htype.2.append (by decide)
    exact (((htu.sealed_append hjoin).append_sealed (by decide)).append h').trim

/-- A member of a union. -/
private theorem unionSql_mirrors (ha : MirrorsAttached lit s notes attached attached') {q : Query}
    {n : Notes} (h : q.Noted g s notes n) {union : Union} (hunion : union ∈ q.unions) :
    MirrorsFill lit (g.unionSql attached union)
      (union.member.elim [] fun id => (s.query id).bindings.flatten)
      (g.unionSql attached' union) := by
  have hsub : ∀ id, id ∈ union.member → id ∈ q.subQueries := fun _ hid =>
    Query.mem_subQueries_union hunion hid
  obtain ⟨hsome, _⟩ := h.unions union hunion
  unfold Grammar.unionSql
  cases hmember : union.member with
  | none =>
    rw [hmember] at hsome
    exact absurd hsome (by decide)
  | some id =>
    have hid := hsub id hmember
    refine (ha.select id (h.attached id (Query.mem_attachments_sub hid)).1
      (h.subQueries id hid)).bind fun t u htu => .ok ?_
    refine Fills.sealed_append ?_ ?_
    · split <;> decide
    · split
      · exact (htu.sealed_append (by decide)).append_sealed (by decide)
      · exact htu

/-- The members of a union with its ordering and paging. -/
theorem unionsSql_mirrors (hg : g.Compiles p) (ha : MirrorsAttached lit s notes attached attached')
    {q : Query} {n : Notes} (h : q.Noted g s notes n) :
    MirrorsFill lit (g.unionsSql attached q) (q.bindings.union ++ q.bindings.unionOrder)
      (g.unionsSql attached' (q.inlined lit n)) := by
  have hmembers : Mirrors (fun ts us => FillsAll lit ts
      (q.unions.map fun union => union.member.elim [] fun id => (s.query id).bindings.flatten) us)
      (q.unions.mapM (g.unionSql attached)) (q.unions.mapM (g.unionSql attached')) :=
    mirrors_mapM_same fun union hunion => unionSql_mirrors ha h hunion
  have hunion : q.bindings.union = (q.unions.map fun union =>
      union.member.elim [] fun id => (s.query id).bindings.flatten).flatten := by
    rw [h.union]
    generalize q.unions = unions
    induction unions with
    | nil => rfl
    | cons union unions ih =>
      rw [List.map_cons, List.flatten_cons, ← ih]
      cases hmember : union.member with
      | none => rw [List.filterMap_cons_none hmember]; rfl
      | some id => rw [List.filterMap_cons_some hmember, List.flatMap_cons]; rfl
  have horders : MirrorsFill lit (Grammar.trailingOf q.unionOrders g.ordersSql)
      q.bindings.unionOrder
      (Grammar.trailingOf (q.inlined lit n).unionOrders g.ordersSql) := by
    rw [h.unionOrder]
    exact trailingOf_mirrors (length_zipWith_notes h.unionOrders) (flatten_of_nil h.unionOrders)
      (ordersSql_mirrors hg h.unionOrders)
  rw [hunion]
  refine hmembers.bind fun ts us hts => ?_
  refine horders.bind fun t u htu => ?_
  refine (trailing_self (limitSql_self lit) q.unionLimit).bind fun t' u' h' => ?_
  refine (trailing_self (offsetSql_self lit) q.unionOffset).bind fun t'' u'' h'' => .ok ?_
  have hall := (((fills_join hts).append htu).append h').append h''
  rw [List.append_nil, List.append_nil] at hall
  exact hall.trimLeft

/-! ## Components -/

/-- The asterisk stands for all columns and has no placeholders. -/
private theorem star_holds (g : Grammar) : ColumnHolds g (.text "*") [] :=
  ⟨rfl, rfl, nameFree_of_word g (by decide) (by decide)⟩

/-- The select list. -/
private theorem columnsSql_mirrors (hg : g.Compiles p) {q : Query} {n : Notes}
    (h : q.Noted g s notes n) :
    MirrorsFill lit (g.columnsSql q.distinct (q.columns.getD [.text "*"])) q.bindings.select
      (g.columnsSql q.distinct ((q.inlined lit n).columns.getD [.text "*"])) := by
  have hcolumns := h.columns
  have hselect := h.select
  have hlist : MirrorsFill lit (g.columnize (q.columns.getD [.text "*"])) q.bindings.select
      (g.columnize ((q.inlined lit n).columns.getD [.text "*"])) := by
    unfold Query.inlined
    cases hq : q.columns with
    | none =>
      rw [hq] at hcolumns
      rw [hselect, List.forall₂_nil_left_iff.1 hcolumns]
      exact columnize_self lit hg fun c hc => List.mem_singleton.1 hc ▸ star_holds g
    | some columns =>
      rw [hq] at hcolumns
      rw [hselect]
      exact columnize_mirrors hg hcolumns
  refine hlist.bind fun t u htu => .ok (htu.sealed_append ?_)
  cases q.distinct <;> decide

private theorem sourceSql_mirrors (hg : g.Compiles p) {source : Value} {vs : List Value}
    (h : TableHolds g source vs) :
    MirrorsFill lit (g.sourceSql source) vs (g.sourceSql (source.filled lit vs)) := by
  have hpresent : (source.filled lit vs).isPresent = source.isPresent := by
    cases source <;> rfl
  unfold Grammar.sourceSql
  rw [hpresent]
  split
  · refine (wrapTable_mirrors hg h).bind fun v w hvw => ?_
    exact hvw.asText.bind fun t u htu => .ok (htu.sealed_append (by decide))
  · rename_i habsent
    obtain ⟨_, h⟩ := h
    cases source with
    | raw w => exact absurd rfl habsent
    | _ =>
      obtain ⟨rfl, _⟩ := h
      exact .ok (fills_sealed reads_nil)

private theorem lockSql_sealed (g : Grammar) {lock : Value}
    (h : ∀ sql, lock = .text sql → Sealed sql.toList) : Sealed (g.lockSql lock).toList := by
  unfold Grammar.lockSql
  split
  · exact reads_nil
  · exact h _ rfl
  · exact reads_nil
  · split <;> decide
  · split <;> decide

/-- The groups of values in the order of the components. -/
private def componentValues (g : Grammar) (b : Bindings) : List (List Value) :=
  [[], b.select, b.source, b.join, b.condition, b.grouping, b.having, b.order, [], [],
    if g.dialect = .mysql then [] else b.union ++ b.unionOrder, []]

private theorem selectList_mirrors (hg : g.Compiles p) {q : Query} {n : Notes}
    (h : q.Noted g s notes n) (hplain : q.aggregate.isSome = true → q.bindings.select = []) :
    MirrorsFill lit (g.selectList q) q.bindings.select (g.selectList (q.inlined lit n)) := by
  have hlength : ((q.inlined lit n).columns.getD [.text "*"]).length =
      (q.columns.getD [.text "*"]).length := by
    have hcolumns := h.columns
    unfold Query.inlined
    cases hq : q.columns with
    | none => rfl
    | some columns =>
      rw [hq] at hcolumns
      exact length_zipWith_notes hcolumns
  have hempty : q.columns.getD [.text "*"] = [] → q.bindings.select = [] := by
    intro hnone
    have hcolumns := h.columns
    have hselect := h.select
    cases hq : q.columns with
    | none => rw [hq] at hnone; exact nomatch hnone
    | some columns =>
      rw [hq] at hnone hcolumns
      rw [hselect]
      exact flatten_of_nil hcolumns hnone
  refine ifAny_mirrors hlength hempty ?_
  show MirrorsFill lit (if q.aggregate.isSome = true then _ else _) _
    (if q.aggregate.isSome = true then _ else _)
  split
  · rename_i hsome
    rw [hplain hsome]
    exact .ok (fills_sealed reads_nil)
  · exact columnsSql_mirrors hg h

private theorem unionComponent_mirrors (hg : g.Compiles p)
    (ha : MirrorsAttached lit s notes attached attached') {q : Query} {n : Notes}
    (h : q.Noted g s notes n) :
    MirrorsFill lit (g.unionComponent attached q)
      (if g.dialect = .mysql then [] else q.bindings.union ++ q.bindings.unionOrder)
      (g.unionComponent attached' (q.inlined lit n)) := by
  unfold Grammar.unionComponent
  split
  · exact .ok (fills_sealed reads_nil)
  · refine ifAny_mirrors rfl (fun hnone => ?_) (unionsSql_mirrors hg ha h)
    obtain ⟨hunion, horder⟩ := h.union_nil hnone
    rw [hunion, horder, List.append_nil]

theorem components_mirrors (hg : g.Compiles p)
    (ha : MirrorsAttached lit s notes attached attached') {q : Query} {n : Notes}
    (h : q.Noted g s notes n) (hwhole : n.whole = true)
    (hplain : q.aggregate.isSome = true → q.bindings.select = []) :
    Mirrors (fun ts us => FillsAll lit ts (componentValues g q.bindings) us)
      (g.components attached q) (g.components attached' (q.inlined lit n)) := by
  obtain ⟨htable, hsource⟩ := h.source hwhole
  have haggregate : MirrorsFill lit (q.aggregate.elim (.ok "") (g.aggregateSql q.distinct)) []
      (q.aggregate.elim (.ok "") (g.aggregateSql q.distinct)) := by
    cases hq : q.aggregate with
    | none => exact .ok (fills_sealed reads_nil)
    | some a => exact aggregateSql_self lit hg (h.aggregate a hq) q.distinct
  have hfrom : MirrorsFill lit (g.sourceSql q.source) q.bindings.source
      (g.sourceSql (q.inlined lit n).source) := by
    rw [hsource]
    exact sourceSql_mirrors hg htable
  have hjoins : MirrorsFill lit (Grammar.ifAny q.joins (Grammar.joinsSql attached q.joins))
      q.bindings.join (Grammar.ifAny q.joins (Grammar.joinsSql attached' q.joins)) := by
    refine ifAny_mirrors rfl (fun hnone => ?_) (joinsSql_mirrors ha h)
    rw [h.join, hnone, List.flatMap_nil]
  have hgroups : MirrorsFill lit
      (Grammar.ifAny q.groups ((g.columnize q.groups).map ("group by " ++ ·)))
      q.bindings.grouping
      (Grammar.ifAny (q.inlined lit n).groups
        ((g.columnize (q.inlined lit n).groups).map ("group by " ++ ·))) := by
    rw [h.grouping]
    refine ifAny_mirrors (length_zipWith_notes h.groups) (flatten_of_nil h.groups) ?_
    exact (columnize_mirrors hg h.groups).map fun _ _ h => h.sealed_append (by decide)
  have hhavings : MirrorsFill lit (Grammar.ifAny q.havings (g.havingsSql q.havings))
      q.bindings.having
      (Grammar.ifAny (q.inlined lit n).havings (g.havingsSql (q.inlined lit n).havings)) := by
    rw [h.having]
    refine ifAny_mirrors (length_zipWith_notes h.havings) (fun hnone => ?_)
      (havingsSql_mirrors hg h.havings)
    have hnotes := h.havings
    rw [hnone, List.forall₂_nil_left_iff] at hnotes
    rw [hnotes]
    rfl
  have horders : MirrorsFill lit (Grammar.ifAny q.orders (g.ordersSql q.orders)) q.bindings.order
      (Grammar.ifAny (q.inlined lit n).orders (g.ordersSql (q.inlined lit n).orders)) := by
    rw [h.order]
    exact ifAny_mirrors (length_zipWith_notes h.orders) (flatten_of_nil h.orders)
      (ordersSql_mirrors hg h.orders)
  rw [Grammar.components_eq, Grammar.components_eq]
  refine haggregate.bind fun t1 u1 h1 => ?_
  refine (selectList_mirrors hg h hplain).bind fun t2 u2 h2 => ?_
  refine hfrom.bind fun t3 u3 h3 => ?_
  refine hjoins.bind fun t4 u4 h4 => ?_
  refine (wheresSql_mirrors hg ha h).bind fun t5 u5 h5 => ?_
  refine hgroups.bind fun t6 u6 h6 => ?_
  refine hhavings.bind fun t7 u7 h7 => ?_
  refine horders.bind fun t8 u8 h8 => ?_
  refine (elim_self (limitSql_self lit) q.limit).bind fun t9 u9 h9 => ?_
  refine (elim_self (offsetSql_self lit) q.offset).bind fun t10 u10 h10 => ?_
  refine (unionComponent_mirrors hg ha h).bind fun t11 u11 h11 => .ok ?_
  have hlock : Fills lit (if q.lock.isPresent = true then g.lockSql q.lock else "") []
      (if q.lock.isPresent = true then g.lockSql q.lock else "") := by
    refine fills_sealed ?_
    split
    · exact lockSql_sealed g h.lock.2
    · exact reads_nil
  exact .cons h1 (.cons h2 (.cons h3 (.cons h4 (.cons h5 (.cons h6 (.cons h7 (.cons h8 (.cons h9
    (.cons h10 (.cons h11 (.cons hlock .nil)))))))))))

/-! ## Statements -/

/-- The values of a query are those of its components, and those of its union if that is none. -/
private theorem componentValues_flatten (g : Grammar) (b : Bindings) :
    (componentValues g b).flatten ++
      (if g.dialect = .mysql then b.union ++ b.unionOrder else []) = b.flatten := by
  unfold componentValues
  split <;>
    simp only [Bindings.flatten, Bindings.flattenGroups, BindingGroup.all, List.flatMap_cons,
      Bindings.get, List.flatMap_nil, List.flatten_cons, List.flatten_nil, List.nil_append,
      List.append_nil, List.append_assoc]

theorem plainSelectSql_mirrors (hg : g.Compiles p)
    (ha : MirrorsAttached lit s notes attached attached') {q : Query} {n : Notes}
    (h : q.Noted g s notes n) (hwhole : n.whole = true)
    (hplain : q.aggregate.isSome = true → q.bindings.select = []) :
    MirrorsFill lit (g.plainSelectSql attached q) q.bindings.flatten
      (g.plainSelectSql attached' (q.inlined lit n)) := by
  unfold Grammar.plainSelectSql
  refine (components_mirrors hg ha h hwhole hplain).bind fun ts us hts => ?_
  have hselect := (fills_spaced hts).trim
  have hunion : (q.inlined lit n).isUnion = q.isUnion := rfl
  rw [← componentValues_flatten g, hunion]
  by_cases hmysql : g.dialect = .mysql
  · cases hq : q.isUnion with
    | true =>
      simp only [hmysql, and_self, if_true]
      refine (unionsSql_mirrors hg ha h).bind fun t u htu => .ok ?_
      exact ((hselect.sealed_append (by decide)).append_sealed (by decide)).append htu
    | false =>
      have hnone : q.unions = [] := by
        rwa [Query.isUnion, Bool.not_eq_false', List.isEmpty_iff] at hq
      obtain ⟨hvalues, horder⟩ := h.union_nil hnone
      rw [hvalues, horder, List.append_nil]
      simp only [hmysql, Bool.false_eq_true, and_false, if_false, if_true, List.append_nil]
      exact .ok hselect
  · simp only [hmysql, false_and, if_false, List.append_nil]
    exact .ok hselect

theorem selectSql_mirrors (hg : g.Compiles p)
    (ha : MirrorsAttached lit s notes attached attached') {q : Query} {n : Notes}
    (h : q.Noted g s notes n) (hwhole : n.whole = true) :
    MirrorsFill lit (g.selectSql attached q) q.bindings.flatten
      (g.selectSql attached' (q.inlined lit n)) := by
  have hunion : (q.inlined lit n).isUnion = q.isUnion := rfl
  have haggregate : (q.inlined lit n).aggregate = q.aggregate := rfl
  unfold Grammar.selectSql
  rw [hunion, haggregate]
  cases hq : q.aggregate with
  | none => exact plainSelectSql_mirrors hg ha h hwhole (by rw [hq]; exact fun hsome => nomatch hsome)
  | some a =>
    have hold := h.aggregate a hq
    cases hmembers : q.isUnion with
    | true =>
      -- The union is selected from as if there were no aggregate.
      have hinner : ({ q with aggregate := none } : Query).Noted g s notes n :=
        { h with aggregate := fun _ hnone => nomatch hnone }
      refine (aggregateSql_self lit hg hold q.distinct).bind fun t u htu => ?_
      refine (plainSelectSql_mirrors hg ha hinner hwhole fun hsome => nomatch hsome).bind
        fun t' u' h' => ?_
      refine (wrappedTable_self lit hg hg.unionName).bind fun t'' u'' h'' => .ok ?_
      have hhead := (htu.append_sealed (b := " from (") (by decide)).append h'
      have hall := (hhead.append_sealed (b := ") as ") (by decide)).append h''
      rwa [List.append_nil] at hall
    | false =>
      have hselect : q.bindings.select = [] := by
        rcases hold.2.2 with hyes | hnone
        · rw [hmembers] at hyes
          exact absurd hyes (by decide)
        · exact hnone
      exact plainSelectSql_mirrors hg ha h hwhole fun _ => hselect

/-- The queries of a noted store compile to texts that fit their values, at every depth. -/
theorem attachedBy_mirrors (hg : g.Compiles p) (lit : Literals) (h : s.Noted g notes)
    (oracle oracle' : Oracle) (depth : Nat) :
    MirrorsAttached lit s notes (attachedBy s g oracle depth)
      (attachedBy (s.inlined lit notes) g oracle' depth) := by
  induction depth with
  | zero =>
    exact ⟨fun _ _ _ => .error (value_ne_unanswered _) _, fun _ _ => .error (value_ne_unanswered _) _,
      fun _ _ _ => .error (value_ne_unanswered _) _⟩
  | succ depth ih =>
    refine ⟨fun id hid hwhole => ?_, fun id hid => ?_, fun id hid honly => ?_⟩
    · show MirrorsFill lit (g.selectSql _ (s.query id)) _
        (g.selectSql _ ((s.inlined lit notes).query id))
      rw [Store.inlined_query lit hid.1]
      exact selectSql_mirrors hg ih (h.queries id hid) hwhole
    · show MirrorsFill lit (g.conditionsSql _ (s.query id).wheres) _
        (g.conditionsSql _ ((s.inlined lit notes).query id).wheres)
      rw [Store.inlined_query lit hid.1]
      exact (h.queries id hid).conditionsSql_mirrors hg ih
    · show MirrorsFill lit (g.joinSql _ (s.query id)) _
        (g.joinSql _ ((s.inlined lit notes).query id))
      rw [Store.inlined_query lit hid.1]
      exact joinSql_mirrors hg ih (h.queries id hid) honly

/-! ## Statements of a store -/

/-- A noted query is compiled by its grammar. -/
theorem Query.Noted.grammarFor (hg : g.Compiles p) {q : Query} {n : Notes}
    (h : q.Noted g s notes n) (method : String) : s.grammarFor q.grammar method = .ok g := by
  obtain ⟨gid, hgrammar, _, hgid⟩ := h.grammar
  rw [hgrammar, Store.grammarFor, hgid, hg.full]
  rfl

theorem Store.compiled_eq {α : Type} (hg : g.Compiles p) {id : QueryId} {n : Notes}
    (h : (s.query id).Noted g s notes n) (known : KnownAnswers) (method : String)
    (compile : Grammar → Attached → Query → Except Failure α) :
    s.compiled known id method compile = compile g (s.attached g known) (s.query id) := by
  rw [Store.compiled, h.grammarFor hg]
  rfl

/-- A statement of a noted store mirrors that of the store with its values written in, if its
compilation does so for queries.  The second compilation may be another one, and it can rely on what
the store with the values says can be copied. -/
theorem Store.compiled_mirrors (hg : g.Compiles p) (h : s.Noted g notes) {id : QueryId}
    (hid : s.Stands notes id) {vs : List Value} (method : String)
    {compile compile' : Grammar → Attached → Query → Except Failure String}
    (hcompile : ∀ attached attached', MirrorsAttached lit s notes attached attached' →
      attached'.canCopy = (s.inlined lit notes).canCopy →
      MirrorsFill lit (compile g attached (s.query id)) vs
        (compile' g attached' ((s.query id).inlined lit (notes id))))
    (known known' : KnownAnswers) :
    MirrorsFill lit (s.compiled known id method compile) vs
      ((s.inlined lit notes).compiled known' id method compile') := by
  have hinlined : (s.inlined lit notes).grammarFor ((s.inlined lit notes).query id).grammar method =
      .ok g := by
    rw [Store.inlined_query lit hid.1]
    obtain ⟨gid, hgrammar, hsize, hgid⟩ := (h.queries id hid).grammar
    have hsame : (s.inlined lit notes).grammar gid = g := hgid
    rw [Query.inlined, hgrammar, Store.grammarFor, hsame, hg.full]
    rfl
  have hdepth : (s.inlined lit notes).attachedDepth = s.attachedDepth :=
    congrArg (3 * · + 1) Array.size_mapIdx
  rw [Store.compiled_eq hg (h.queries id hid), Store.compiled, hinlined]
  show MirrorsFill lit _ vs (compile' g ((s.inlined lit notes).attached g known')
    ((s.inlined lit notes).query id))
  rw [Store.inlined_query lit hid.1, Store.attached, Store.attached, hdepth]
  exact hcompile _ _ (attachedBy_mirrors hg lit h _ _ _) rfl

end FluentSql
