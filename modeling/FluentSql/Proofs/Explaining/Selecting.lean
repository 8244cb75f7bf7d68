import FluentSql.Proofs.Explaining.Clauses

/-!
# Why select statements fail

A select statement fails only for the reasons of what it comes upon, in attached
queries too, at any depth.

* `Grammar.whereSql_explained` to `Grammar.selectSql_explained` are about one
  query, given its attached queries.
* `Store.Fails` are the reasons of a part: those of everything that it comes
  upon, and that it is too deep.
* `Store.attachedBy_explained` is about attached queries, by induction on the
  depth; `Store.fails_of_compiled` and `Store.not_fails_of_compiled` are what it
  says of a query of a store.
-/

namespace FluentSql

namespace Grammar

/-! ## Attached queries -/

section

variable {g : Grammar} {p : String} {inner : Part → Reason → Prop} {attached : Attached}
variable (hp : g.tablePrefix = .text p) (hdot : '.' ∉ p.toList)
variable (hinner : ∀ part, Explained (g.Blames p inner) [.part part] (attached.part part))
variable (ho : attached.oracle.Mild)

include hinner

theorem selectOf_explained (query : Option QueryId) :
    Explained (g.Blames p inner) [.selectOf query] (attached.selectOf query) := by
  cases query with
  | none => exact explained_error (List.mem_singleton_self _) (.own id)
  | some id => exact hinner (.select id)

theorem joinsSql_explained (joins : List QueryId) :
    Explained (g.Blames p inner) (joins.map (.part <| .join ·)) (joinsSql attached joins) :=
  (Explained.mapM_single fun id _ => hinner (.join id)).bind_ok _

include hp hdot

include ho in
theorem whereSql_explained (body : Where) :
    Explained (g.Blames p inner) body.items (g.whereSql attached body) := by
  cases body with
  | raw sql => exact explained_ok _
  | basic column operator value => exact basicSql_explained hp hdot column operator value
  | among column values negated =>
    exact amongSql_explained hp hdot (parameterize_explained values) column _ negated
  | amongIntegers column values negated =>
    refine (integersSql_explained values).bind fun integers _ => ?_
    exact amongSql_explained hp hdot (explained_ok integers) column _ negated
  | null column negated => exact nullSql_explained hp hdot column negated
  | between column values negated => exact betweenSql_explained hp hdot column values negated
  | datePart part column operator value =>
    exact datePartSql_explained hp hdot part column operator value
  | columnPair first operator second =>
    exact (wrapped_explained hp hdot first).bind fun _ _ =>
      (wrapped_explained hp hdot second).bind_ok _
  | nested query => exact (hinner (.conditions query)).bind_ok _
  | sub column operator query =>
    exact (hinner (.select query)).bind fun _ _ => (wrapped_explained hp hdot column).bind_ok _
  | «exists» query negated => exact (selectOf_explained hinner query).bind_ok _
  | rowValues columns operator values =>
    exact (columnize_explained hp hdot columns).bind fun _ _ =>
      (parameterize_explained values).bind_ok _
  | jsonContains column value negated =>
    exact (jsonContainsSql_explained hp hdot ho column _).bind_ok _
  | jsonLength column operator value =>
    exact jsonLengthSql_explained hp hdot ho column operator _

include ho in
theorem conditionsSql_explained (conditions : List Condition) :
    Explained (g.Blames p inner) (conditions.flatMap (·.body.items))
      (g.conditionsSql attached conditions) :=
  (Explained.mapM fun condition _ =>
    (whereSql_explained hp hdot hinner ho condition.body).bind_ok _).bind_ok _

include ho in
theorem wheresSql_explained (q : Query) :
    Explained (g.Blames p inner) q.conditionItems (g.wheresSql attached q) := by
  unfold wheresSql Query.conditionItems
  cases q.wheres with
  | nil => exact explained_ok _
  | cons first rest => exact (conditionsSql_explained hp hdot hinner ho (first :: rest)).bind_ok _

include ho in
theorem joinSql_explained (q : Query) :
    Explained (g.Blames p inner) q.joinItems (g.joinSql attached q) := by
  unfold joinSql Query.joinItems
  cases q.kind with
  | statement => exact explained_error List.mem_cons_self (.own id)
  | join type table =>
    have hwheres := wheresSql_explained hp hdot hinner ho q
    refine (wrappedTable_explained hp hdot table).bind fun text _ => ?_
    cases q.joins with
    | nil => exact hwheres.bind_ok _
    | cons first rest =>
      exact (joinsSql_explained hinner (first :: rest)).bind fun _ _ => hwheres.bind_ok _

/-! ## Unions and statements -/

omit hinner hp hdot in
theorem unionItems_eq_nil {q : Query} (h : q.isUnion = false) : q.unionItems = [] := by
  have hunions : q.unions = [] := by simpa [Query.isUnion] using h
  unfold Query.unionItems
  rw [hunions, h]
  rfl

theorem unionsSql_explained {q : Query} (hunion : q.isUnion = true) :
    Explained (g.Blames p inner) q.unionItems (g.unionsSql attached q) := by
  have hmember : ∀ union ∈ q.unions, Explained (g.Blames p inner) [.selectOf union.member]
      (g.unionSql attached union) := fun union _ =>
    (selectOf_explained hinner union.member).bind_ok _
  have horders : Explained (g.Blames p inner) (orderItems q.unionOrders)
      (trailingOf q.unionOrders g.ordersSql) := trailingOrders_explained hp hdot _
  have hlimit : Explained (g.Blames p inner) (countItems q.unionLimit)
      (trailing q.unionLimit limitSql) :=
    count_explained (fun n => (limitSql_explained n).map _) _
  have hoffset : Explained (g.Blames p inner) (countItems q.unionOffset)
      (trailing q.unionOffset offsetSql) :=
    count_explained (fun n => (offsetSql_explained n).map _) _
  unfold unionsSql Query.unionItems
  rw [if_pos hunion, List.append_assoc]
  refine (Explained.mapM_single hmember).bind fun _ _ => ?_
  exact horders.bind fun _ _ => hlimit.bind fun _ _ => hoffset.bind_ok _

include ho

/-- The components of a select statement.  In MySQL the union is none of them. -/
theorem components_explained (q : Query) :
    Explained (g.Blames p inner)
      (q.clauseItems ++ if g.dialect = .mysql then [] else q.unionItems)
      (g.components attached q) := by
  have haggregate : Explained (g.Blames p inner) (q.aggregate.elim [] (·.columns.map .column))
      (q.aggregate.elim (.ok "") (g.aggregateSql q.distinct)) := by
    cases q.aggregate with
    | none => exact explained_ok _
    | some aggregate => exact aggregateSql_explained hp hdot q.distinct aggregate
  have hjoins : Explained (g.Blames p inner) (q.joins.map (.part <| .join ·))
      (ifAny q.joins (joinsSql attached q.joins)) :=
    .ifAny _ (joinsSql_explained hinner q.joins) fun h => by rw [h]; rfl
  have hgroups : Explained (g.Blames p inner) (q.groups.map .column)
      (ifAny q.groups ((g.columnize q.groups).map ("group by " ++ ·))) :=
    .ifAny _ ((columnize_explained hp hdot q.groups).map _) fun h => by rw [h]; rfl
  have hhavings : Explained (g.Blames p inner) (q.havings.flatMap (·.body.items))
      (ifAny q.havings (g.havingsSql q.havings)) :=
    .ifAny _ (havingsSql_explained hp hdot q.havings) fun h => by rw [h]; rfl
  have horders : Explained (g.Blames p inner) (orderItems q.orders)
      (ifAny q.orders (g.ordersSql q.orders)) :=
    .ifAny _ (ordersSql_explained hp hdot q.orders) fun h => by rw [h]; rfl
  have hunions : Explained (g.Blames p inner) (if g.dialect = .mysql then [] else q.unionItems)
      (g.unionComponent attached q) := by
    unfold unionComponent
    split
    · exact explained_ok _
    · cases hq : q.isUnion with
      | false =>
        have hunions : q.unions = [] := by simpa [Query.isUnion] using hq
        rw [unionItems_eq_nil hq, hunions]
        exact explained_ok _
      | true =>
        have hany : ifAny q.unions (g.unionsSql attached q) = g.unionsSql attached q :=
          if_neg (by simpa [Query.isUnion] using hq)
        rw [hany]
        exact unionsSql_explained hp hdot hinner hq
  have hitems : q.clauseItems ++ (if g.dialect = .mysql then [] else q.unionItems) =
      q.aggregate.elim [] (·.columns.map .column) ++
        ((if q.aggregate.isSome then [] else (q.columns.getD [.text "*"]).map .column) ++
        ((if q.source.isPresent then [.table q.source] else []) ++ (q.joins.map (.part <| .join ·) ++
        (q.conditionItems ++ (q.groups.map .column ++ (q.havings.flatMap (·.body.items) ++
        (orderItems q.orders ++ (countItems q.limit ++ (countItems q.offset ++
        if g.dialect = .mysql then [] else q.unionItems))))))))) := by
    simp only [Query.clauseItems, listItems_eq, List.append_assoc]
  rw [components_eq, hitems]
  exact haggregate.bind fun _ _ => (selectList_explained hp hdot q).bind fun _ _ =>
    (sourceSql_explained hp hdot q.source).bind fun _ _ => hjoins.bind fun _ _ =>
    (wheresSql_explained hp hdot hinner ho q).bind fun _ _ => hgroups.bind fun _ _ =>
    hhavings.bind fun _ _ => horders.bind fun _ _ =>
    (count_explained limitSql_explained q.limit).bind fun _ _ =>
    (count_explained offsetSql_explained q.offset).bind fun _ _ => hunions.bind_ok _

theorem plainSelectSql_explained (q : Query) :
    Explained (g.Blames p inner) q.plainItems (g.plainSelectSql attached q) := by
  have hcomponents := components_explained hp hdot hinner ho q
  unfold plainSelectSql Query.plainItems
  by_cases hmysql : g.dialect = .mysql ∧ q.isUnion = true
  · rw [if_pos hmysql.1, List.append_nil] at hcomponents
    refine hcomponents.bind fun _ _ => ?_
    rw [if_pos hmysql]
    exact (unionsSql_explained hp hdot hinner hmysql.2).bind_ok _
  · have hitems : (if g.dialect = .mysql then [] else q.unionItems) = q.unionItems := by
      split
      · rename_i hd
        exact (unionItems_eq_nil (Bool.eq_false_iff.2 fun hq => hmysql ⟨hd, hq⟩)).symm
      · rfl
    rw [hitems] at hcomponents
    simp only [if_neg hmysql]
    exact hcomponents.bind_ok _

theorem selectSql_explained (q : Query) :
    Explained (g.Blames p inner) q.statementItems (g.selectSql attached q) := by
  unfold selectSql Query.statementItems
  cases q.aggregate with
  | none => exact plainSelectSql_explained hp hdot hinner ho q
  | some aggregate =>
    dsimp only
    split
    · rw [List.append_assoc]
      exact (aggregateSql_explained hp hdot q.distinct aggregate).bind fun _ _ =>
        (plainSelectSql_explained hp hdot hinner ho { q with aggregate := none }).bind fun _ _ =>
          (wrappedTable_explained hp hdot _).bind_ok _
    · exact plainSelectSql_explained hp hdot hinner ho q

end

end Grammar

/-! ## All attached queries -/

namespace Store

section

variable {s : Store} {g : Grammar} {p : String} {depth : Nat} {root part : Part} {reason : Reason}

/-- For which reasons compiling a part down to a depth fails. -/
def Fails (s : Store) (g : Grammar) (p : String) (depth : Nat) (part : Part) (reason : Reason) :
    Prop :=
  reason = .endless ∧ ¬s.Within depth part ∨
    ∃ inner, s.Visits part inner ∧ ∃ item ∈ s.items inner, g.Gives p item reason

/-- The reasons of a part are those of its items. -/
theorem fails_succ : s.Fails g p (depth + 1) part reason ↔
    ∃ item ∈ s.items part, g.Blames p (s.Fails g p depth) item reason := by
  constructor
  · rintro (⟨rfl, hdeep⟩ | ⟨inner, hinner, item, hitem, hgives⟩)
    · obtain ⟨inner, hinner, hwithin⟩ : ∃ inner ∈ s.parts part, ¬s.Within depth inner := by
        simpa only [Within, not_forall, exists_prop] using hdeep
      exact ⟨_, mem_parts.1 hinner, .part (.inl ⟨rfl, hwithin⟩)⟩
    · rcases hinner.cases_head with rfl | ⟨next, hnext, hinner⟩
      · exact ⟨item, hitem, .own hgives⟩
      · exact ⟨_, mem_parts.1 hnext, .part (.inr ⟨inner, hinner, item, hitem, hgives⟩)⟩
  · rintro ⟨item, hitem, hblames⟩
    cases hblames with
    | own hgives => exact .inr ⟨part, .refl, item, hitem, hgives⟩
    | part hfails =>
      have hencloses := mem_parts.2 hitem
      rcases hfails with ⟨rfl, hdeep⟩ | ⟨inner, hinner, item, hitem, hgives⟩
      · exact .inl ⟨rfl, fun hwithin => hdeep (hwithin _ hencloses)⟩
      · exact .inr ⟨inner, .head hencloses hinner, item, hitem, hgives⟩

theorem not_gives_part : ¬g.Gives p (.part part) reason := by
  cases reason with
  | fault => exact fun h => h trivial
  | _ => exact id

theorem blames_part {fails : Part → Reason → Prop} :
    g.Blames p fails (.part part) reason ↔ fails part reason := by
  refine ⟨fun h => ?_, .part⟩
  cases h with
  | own h => exact absurd h not_gives_part
  | part h => exact h

section

variable (hp : g.tablePrefix = .text p) (hdot : '.' ∉ p.toList)

include hp hdot

/-- An attached part is compiled unless it fails, down to the depth. -/
theorem attachedBy_explained {oracle : Oracle} (ho : oracle.Mild) (depth : Nat) (part : Part) :
    Explained (g.Blames p (s.Fails g p depth)) [.part part]
      ((attachedBy s g oracle depth).part part) := by
  induction depth generalizing part with
  | zero =>
    have hendless : (attachedBy s g oracle 0).part part = .error (.value .endless) := by
      cases part <;> rfl
    rw [hendless]
    exact explained_error (List.mem_singleton_self _) (.part (.inl ⟨rfl, id⟩))
  | succ depth ih =>
    have ho : (attachedBy s g oracle depth).oracle.Mild := by
      rw [oracle_attachedBy]
      exact ho
    have hitems : Explained (g.Blames p (s.Fails g p depth)) (s.items part)
        ((attachedBy s g oracle (depth + 1)).part part) := by
      cases part with
      | select id => exact Grammar.selectSql_explained hp hdot ih ho _
      | conditions id => exact Grammar.conditionsSql_explained hp hdot ih ho _
      | join id => exact Grammar.joinSql_explained hp hdot ih ho _
    refine ⟨fun a ha item hitem => ?_, fun e he => ?_⟩
    · cases List.mem_singleton.1 hitem
      have hnone : ∀ reason, (∀ item ∈ s.items part,
          ¬g.Blames p (s.Fails g p depth) item reason) →
          ¬g.Blames p (s.Fails g p (depth + 1)) (.part part) reason := by
        intro reason hnot hblames
        obtain ⟨item, hitem, h⟩ := fails_succ.1 (blames_part.1 hblames)
        exact hnot item hitem h
      exact ⟨hnone _ fun item hitem => (hitems.done a ha item hitem).1,
        hnone _ fun item hitem => (hitems.done a ha item hitem).2⟩
    · exact ⟨_, List.mem_singleton_self _, .part (fails_succ.2 (hitems.failed e he))⟩

end

/-! ## A query of the store -/

variable {id : QueryId} (hg : s.grammarFor (s.query id).grammar "compile_select" = .ok g)
variable (hp : g.tablePrefix = .text p) (hdot : '.' ∉ p.toList) (known : KnownAnswers)

include hg hp hdot

theorem compiled_explained : Explained (g.Blames p (s.Fails g p (s.attachedDepth + 1)))
    [.part (.select id)] (s.compiled known id "compile_select" Grammar.selectSql) := by
  have hcompiled : s.compiled known id "compile_select" Grammar.selectSql =
      (attachedBy s g (s.oracle known) (s.attachedDepth + 1)).part (.select id) := by
    rw [compiled, hg]
    rfl
  rw [hcompiled]
  exact attachedBy_explained hp hdot (s.oracle_mild known) _ _

/-- What failed has a reason. -/
theorem fails_of_compiled {e : Failure}
    (h : s.compiled known id "compile_select" Grammar.selectSql = .error e) :
    s.Fails g p (s.attachedDepth + 1) (.select id) e.reason := by
  obtain ⟨item, hitem, hblames⟩ := (compiled_explained hg hp hdot known).failed e h
  cases List.mem_singleton.1 hitem
  exact blames_part.1 hblames

/-- What is compiled is not refused, and does not go on for ever. -/
theorem not_fails_of_compiled {sql : String}
    (h : s.compiled known id "compile_select" Grammar.selectSql = .ok sql) :
    ¬s.Fails g p (s.attachedDepth + 1) (.select id) .unsupported ∧
      ¬s.Fails g p (s.attachedDepth + 1) (.select id) .endless := by
  have hdone := (compiled_explained hg hp hdot known).done sql h _ (List.mem_singleton_self _)
  rwa [blames_part, blames_part] at hdone

end

end Store

end FluentSql