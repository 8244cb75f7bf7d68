import FluentSql.Fluent.Having
import FluentSql.Fluent.Join
import FluentSql.Fluent.Order
import FluentSql.Proofs.Edits.Basic

/-!
# The edits of fluent calls

Every fluent call makes edits that fit, whatever its arguments are and
whether it succeeds or fails, as long as its callbacks do.

* Reading values edits nothing: `edits_now` and the lemmas beside it.
* Compiling edits nothing but what extensions edit: `edits_compile`.
* The calls in families, as in the modules under `FluentSql.Fluent`.  Where a
  call looks at the query first, the edits after it still fit: a query that
  had unions or conditions keeps them.
-/

namespace FluentSql

variable {p : Policy} {run : Runner} {q : QueryId}

/-! ## Reading -/

theorem edits_read (q : QueryId) : q.read.Edits p := fun _ _ => .refl

theorem edits_now (v : Value) : v.now.Edits p := by
  unfold Value.now
  split
  · exact (edits_read _).next fun _ => edits_pure _
  · exact edits_pure _

theorem edits_shown (v : Value) : v.shown.Edits p := fun _ _ => .refl

theorem edits_displayNow (v : Value) : v.displayNow.Edits p := fun _ _ => .refl

theorem edits_itemsNow (v : Value) : v.itemsNow.Edits p :=
  (edits_now v).next fun _ => edits_ofExcept _

theorem edits_itemsOrNone (v : Value) : v.itemsOrNone.Edits p := by
  unfold Value.itemsOrNone
  split
  · exact edits_itemsNow v
  · exact edits_pure _

theorem edits_bindings (q : QueryId) : q.bindings.Edits p := fun _ _ => .refl

theorem edits_needQuery (v : Value) : v.needQuery.Edits p := by
  unfold Value.needQuery
  cases v.query? with
  | none => exact edits_throw _
  | some id => exact edits_pure _

theorem edits_grammarFor (q : QueryId) (method : String) : (q.grammarFor method).Edits p :=
  fun _ _ => .refl

theorem edits_wrapped (q : QueryId) (v : Value) : (q.wrapped v).Edits p :=
  (edits_grammarFor q _).next fun _ => (edits_shown v).next fun _ => edits_ofExcept _

theorem edits_wrappedTable (q : QueryId) (v : Value) : (q.wrappedTable v).Edits p :=
  (edits_grammarFor q _).next fun _ => (edits_shown v).next fun _ => edits_ofExcept _

theorem edits_addedOperators (q : QueryId) : q.addedOperators.Edits p := fun _ _ => .refl

theorem edits_comparison (q : QueryId) (operator value : Option Value) :
    (q.comparison operator value).Edits p := by
  unfold QueryId.comparison
  split
  · exact ((edits_shown _).map _).next fun _ => (edits_addedOperators q).next fun _ =>
      edits_ofExcept _
  · exact (edits_pure _).next fun _ => (edits_addedOperators q).next fun _ => edits_ofExcept _

/-! ## Compiling -/

theorem edits_call (hrun : p.Runs run) (callback : Value) (q : QueryId) (extra : List Value) :
    (callback.call run q extra).Edits p := by
  unfold Value.call
  split
  · exact hrun _ q extra
  · exact edits_throw _

theorem edits_extension (hrun : p.Runs run) (q : QueryId) (name : String)
    (arguments : List Value) : (Extensions.call run q name arguments).Edits p := by
  refine edits_get.next fun s => ?_
  split
  · exact hrun _ q arguments
  · exact edits_throw _

section

variable {α : Type}

private theorem edits_consultFrom (hrun : p.Runs run)
    (compile : Store → KnownAnswers → Except Failure α) (fuel : Nat) (known : KnownAnswers) :
    (consultFrom run compile fuel known).Edits p := by
  induction fuel generalizing known with
  | zero => exact edits_throw _
  | succ fuel ih =>
    refine edits_get.next fun s => ?_
    split
    · exact (edits_extension hrun _ _ _).next fun _ => (edits_shown _).next fun _ => ih _
    · exact edits_ofExcept _

theorem edits_consult (hrun : p.Runs run) (compile : Store → KnownAnswers → Except Failure α) :
    (consult run compile).Edits p :=
  edits_consultFrom hrun compile _ _

theorem edits_compile (hrun : p.Runs run) (q : QueryId) (method : String)
    (f : Grammar → Attached → Query → Except Failure α) : (q.compile run method f).Edits p :=
  edits_consult hrun _

end

theorem edits_toSql (hrun : p.Runs run) (q : QueryId) : (q.toSql run).Edits p :=
  edits_compile hrun q _ _

/-! ## Sub-queries -/

theorem edits_newStatement (q : QueryId) : q.newStatement.Edits p :=
  (edits_read q).next fun _ => edits_create ⟨_, _, _, rfl⟩

theorem edits_newQuery (q : QueryId) : q.newQuery.Edits p :=
  (edits_read q).next fun _ => edits_create ⟨_, _, _, rfl⟩

theorem edits_newJoin (q : QueryId) (type table : Value) : (q.newJoin type table).Edits p :=
  (edits_read q).next fun _ => edits_create ⟨_, _, _, rfl⟩

theorem edits_asSub (hrun : p.Runs run) (q : QueryId) : (q.asSub run).Edits p :=
  (edits_toSql hrun q).next fun _ => (edits_bindings q).next fun _ => edits_pure _

theorem edits_createSub (hrun : p.Runs run) (q : QueryId) (query : Value) :
    (q.createSub run query).Edits p := by
  unfold QueryId.createSub
  split
  · exact edits_asSub hrun _
  · exact (edits_newStatement q).next fun sub => (hrun _ sub []).next fun _ => edits_asSub hrun sub
  · exact (edits_displayNow _).next fun _ => edits_pure _
  · exact (edits_displayNow _).next fun _ => edits_pure _
  · exact edits_throw _

theorem edits_resolveSub (hrun : p.Runs run) (q : QueryId) (query : Value) :
    (q.resolveSub run query).Edits p := by
  unfold QueryId.resolveSub
  split
  · exact edits_pure _
  · exact (edits_newStatement q).next fun sub => (hrun _ sub []).next fun _ => edits_pure _
  · exact edits_throw _

/-! ## Bindings -/

/-- Binding values in a group that belongs to no union. -/
theorem edits_bind (q : QueryId) {group : BindingGroup} (hgroup : group ∉ BindingGroup.ofUnion)
    (values : List Value) : (q.bind group values).Edits p :=
  edits_edit (.bind group values) fun _ hmem => absurd hmem hgroup

/-- Binding values in a query that is a union if the group belongs to one. -/
theorem edited_bind_of_isUnion {s : Store} {group : BindingGroup}
    (h : group ∈ BindingGroup.ofUnion → (s.query q).isUnion = true) (values : List Value) :
    p.Edited s ((q.bind group values).runOn s).2 :=
  .edit .refl q (.bind group values) fun hmem hnot => absurd ((h hmem).symm.trans hnot) nofun

theorem edits_bindValue (q : QueryId) {group : BindingGroup}
    (hgroup : group ∉ BindingGroup.ofUnion) (value : Value) :
    (q.bindValue group value).Edits p := by
  unfold QueryId.bindValue
  split
  · exact edits_pure _
  · exact edits_bind q hgroup _

theorem edits_bindValues (q : QueryId) {group : BindingGroup}
    (hgroup : group ∉ BindingGroup.ofUnion) (values : List Value) :
    (q.bindValues group values).Edits p :=
  edits_bind q hgroup _

/-! ## Select list and source -/

theorem edits_addColumns (q : QueryId) (columns : List Value) : (q.addColumns columns).Edits p :=
  edits_edit (.addColumns columns) fun _ => trivial

theorem edits_selectRaw (q : QueryId) (sql bindings : Value) :
    (q.selectRaw sql bindings).Edits p := by
  refine (edits_addColumns q _).next fun _ => ?_
  split
  · exact (edits_itemsNow _).next fun _ => edits_bind q (by decide) _
  · exact edits_pure _

theorem edits_selectSub (hrun : p.Runs run) (q : QueryId) (query name : Value) :
    (q.selectSub run query name).Edits p :=
  (edits_createSub hrun q query).next fun _ => (edits_wrapped q name).next fun _ =>
    edits_selectRaw q _ _

theorem edits_selectAs (hrun : p.Runs run) (q : QueryId) (name value : Value) :
    (q.selectAs run name value).Edits p := by
  unfold QueryId.selectAs
  split
  · exact edits_selectSub hrun q _ _
  · exact (edits_displayNow _).next fun _ => (edits_displayNow _).next fun _ =>
      edits_addColumns q _

theorem edits_selectEntry (hrun : p.Runs run) (q : QueryId) (column : Value) :
    (q.selectEntry run column).Edits p := by
  refine (edits_now column).next fun v => ?_
  split
  · exact edits_forM fun _ _ => edits_selectAs hrun q _ _
  · exact edits_addColumns q _

theorem edits_addSelect (hrun : p.Runs run) (q : QueryId) (columns : List Value) :
    (q.addSelect run columns).Edits p :=
  (edits_addColumns q _).next fun _ => edits_forM fun _ _ => edits_selectEntry hrun q _

theorem edits_select (hrun : p.Runs run) (q : QueryId) (columns : List Value) :
    (q.select run columns).Edits p := by
  have hclear : Action.Edits p
      (q.modify fun query => { query.rebind .select [] with columns := some [] }) := by
    intro s _
    have hfits : (Edit.rebind .select []).Fits p s q := fun hmem => absurd hmem (by decide)
    have hstep := (Policy.Edited.refl.edit q _ hfits).edit q (.setColumns (some [])) trivial
    rwa [Store.edit_edit] at hstep
  exact hclear.next fun _ => edits_addSelect hrun q _

theorem edits_distinct (q : QueryId) : q.distinct.Edits p :=
  edits_edit .distinct fun _ => trivial

theorem edits_setTable (q : QueryId) (source : Value) :
    Action.Edits p (q.modify fun query => { query with source }) :=
  edits_edit (.source source) fun _ => trivial

theorem edits_fromRaw (q : QueryId) (sql bindings : Value) : (q.fromRaw sql bindings).Edits p :=
  (edits_setTable q _).next fun _ => (edits_itemsOrNone _).next fun _ =>
    edits_bind q (by decide) _

theorem edits_fromSub (hrun : p.Runs run) (q : QueryId) (query name : Value) :
    (q.fromSub run query name).Edits p :=
  (edits_createSub hrun q query).next fun _ => (edits_wrappedTable q name).next fun _ =>
    edits_fromRaw q _ _

theorem edits_setSource (hrun : p.Runs run) (q : QueryId) (table name : Value) :
    (q.setSource run table name).Edits p := by
  unfold QueryId.setSource
  split
  · split
    · exact edits_throw _
    · exact edits_fromSub hrun q table name
  · split
    · exact (edits_displayNow _).next fun _ => (edits_displayNow _).next fun _ =>
        edits_setTable q _
    · exact edits_setTable q _

/-! ## Conditions -/

/-- Adding a condition that is sound in every store. -/
theorem edits_addWhere (q : QueryId) (boolean : Value) {body : Where}
    (h : ∀ s, body.Sound s) : (q.addWhere boolean body).Edits p :=
  edits_edit (.condition boolean body) h

theorem edits_forNestedWhere (hrun : p.Runs run) (q : QueryId) :
    (q.forNestedWhere run).Edits p :=
  (edits_newQuery q).next fun nested => (edits_read q).next fun _ =>
    (edits_setSource hrun nested _ _).next fun _ => edits_pure _

/-- A group is attached only if it has conditions. -/
theorem edits_addNested (q nested : QueryId) (boolean : Value) :
    (q.addNested nested boolean).Edits p := by
  refine fun s _ => edited_bind .refl fun group s' hran _ => ?_
  cases hran
  split
  · exact .refl
  · rename_i hsome
    have hfits : (Edit.condition boolean (.nested nested)).Fits p s q :=
      fun hnone => hsome (List.isEmpty_iff.2 hnone)
    exact edited_bind (.edit .refl q _ hfits) fun _ s' _ _ =>
      edited_bind_of_isUnion (fun hmem => absurd hmem (by decide)) _

theorem edits_groupBuiltBy (hrun : p.Runs run) (q : QueryId) (boolean : Value)
    {build : QueryId → Action Unit} (hbuild : ∀ nested, (build nested).Edits p) :
    (q.groupBuiltBy run boolean build).Edits p :=
  (edits_forNestedWhere hrun q).next fun nested => (hbuild nested).next fun _ =>
    edits_addNested q nested boolean

theorem edits_whereNested (hrun : p.Runs run) (q : QueryId) (callback boolean : Value) :
    (q.whereNested run callback boolean).Edits p :=
  edits_groupBuiltBy hrun q boolean fun nested => (edits_call hrun callback nested []).discard

theorem edits_whereNull (q : QueryId) (columns boolean : Value) (negated : Bool) :
    (q.whereNull columns boolean negated).Edits p :=
  edits_forM fun _ _ => edits_addWhere q boolean fun _ => by trivial

theorem edits_whereSub (hrun : p.Runs run) (q : QueryId) (column operator query boolean : Value) :
    (q.whereSub run column operator query boolean).Edits p :=
  (edits_resolveSub hrun q query).next fun _ =>
    (edits_addWhere q _ fun _ => by trivial).next fun _ =>
      (edits_bindings _).next fun _ => edits_bind q (by decide) _

theorem edits_whereSingle (hrun : p.Runs run) (q : QueryId) (column : Value)
    (operator value : Option Value) (boolean : Value) :
    (q.whereSingle run column operator value boolean).Edits p := by
  have hadd : ∀ (comparison : Comparison) (column : Value), Action.Edits p
      (if comparison.value.isQueryable then
        q.whereSub run column (.text comparison.operator) comparison.value boolean
      else if comparison.value.isNull then
        q.whereNull column boolean (comparison.operator != "=")
      else do
        let value := QueryId.jsonWord column comparison.value
        q.addWhere boolean (.basic column comparison.operator value)
        q.bindValue .condition value) := by
    intro comparison column
    split
    · exact edits_whereSub hrun q _ _ _ _
    · split
      · exact edits_whereNull q _ _ _
      · exact (edits_addWhere q _ fun _ => by trivial).next fun _ =>
          edits_bindValue q (by decide) _
  unfold QueryId.whereSingle
  split
  · exact edits_whereNested hrun q _ _
  · refine (edits_comparison q _ _).next fun comparison => ?_
    dsimp only
    split
    · exact (edits_createSub hrun q _).next fun sub => (edits_bind q (by decide) _).next fun _ =>
        hadd comparison _
    · exact hadd comparison _

theorem edits_whereColumnSingle (q : QueryId) (first operator second boolean : Value) :
    (q.whereColumnSingle first operator second boolean).Edits p := by
  have hadd : ∀ compared : String × Value, Action.Edits p (do
      if compared.2.isNull then throw (.argument .secondColumnMissing)
      q.addWhere boolean (.columnPair first compared.1 compared.2)) := by
    intro compared
    dsimp only
    split
    · exact edits_throw _
    · exact edits_addWhere q _ fun _ => by trivial
  unfold QueryId.whereColumnSingle
  refine (edits_addedOperators q).next fun added => ?_
  dsimp only
  split
  · exact (edits_ofExcept _).next fun known => hadd _
  · exact (edits_pure _).next fun known => hadd _

theorem edits_compareSingle (hrun : p.Runs run) (q : QueryId) (kind : QueryId.ComparisonKind)
    (arguments : List Value) : (q.compareSingle run kind arguments).Edits p := by
  unfold QueryId.compareSingle
  split
  · exact edits_throw _
  · split
    · exact edits_throw _
    · cases kind with
      | values => exact edits_whereSingle hrun q _ _ _ _
      | columns => exact edits_whereColumnSingle q _ _ _ _

theorem edits_whereGroup (hrun : p.Runs run) (kind : QueryId.ComparisonKind) (fuel : Nat)
    (q : QueryId) (conditions boolean : Value) :
    (QueryId.whereGroup run kind fuel q conditions boolean).Edits p := by
  induction fuel generalizing q conditions boolean with
  | zero => exact edits_throw _
  | succ fuel ih =>
    refine edits_groupBuiltBy hrun q boolean fun nested => edits_forM fun arguments _ => ?_
    refine (edits_ofExcept arguments).next fun arguments => ?_
    split
    · refine (edits_now _).next fun column => ?_
      split
      · exact ih _ _ _
      · exact edits_compareSingle hrun nested kind _
    · exact edits_throw _

theorem edits_where (hrun : p.Runs run) (q : QueryId) (column : Value)
    (operator value : Option Value) (boolean : Value) :
    (q.where run column operator value boolean).Edits p := by
  refine (edits_now column).next fun column => ?_
  split
  · exact edits_whereGroup hrun _ _ q _ _
  · exact edits_whereSingle hrun q _ _ _ _

theorem edits_whereColumn (hrun : p.Runs run) (q : QueryId)
    (first operator second boolean : Value) :
    (q.whereColumn run first operator second boolean).Edits p := by
  refine (edits_now first).next fun first => ?_
  split
  · exact edits_whereGroup hrun _ _ q _ _
  · exact edits_whereColumnSingle q _ _ _ _

theorem edits_whereNot (hrun : p.Runs run) (q : QueryId) (column : Value)
    (operator value : Option Value) (boolean : Value) :
    (q.whereNot run column operator value boolean).Edits p := by
  refine (edits_ofExcept _).next fun word => ?_
  split
  · exact edits_whereNested hrun q _ _
  · exact edits_groupBuiltBy hrun q _ fun nested => edits_where hrun nested _ _ _ _

theorem edits_whereRaw (q : QueryId) (sql bindings boolean : Value) :
    (q.whereRaw sql bindings boolean).Edits p :=
  (edits_addWhere q _ fun _ => by trivial).next fun _ => (edits_itemsOrNone _).next fun _ =>
    edits_bind q (by decide) _

theorem edits_whereIn (hrun : p.Runs run) (q : QueryId) (column values boolean : Value)
    (negated : Bool) : (q.whereIn run column values boolean negated).Edits p := by
  have hadd : ∀ vs : List Value, Action.Edits p (do
      q.addWhere boolean (.among column vs negated)
      q.bindValues .condition vs) := fun vs =>
    (edits_addWhere q _ fun _ => by trivial).next fun _ => edits_bindValues q (by decide) _
  unfold QueryId.whereIn
  dsimp only
  split
  · exact (edits_createSub hrun q _).next fun _ => (edits_bind q (by decide) _).next fun _ =>
      hadd _
  · exact (edits_itemsNow _).next hadd

theorem edits_rawInteger (v : Value) : (QueryId.rawInteger v).Edits p := by
  unfold QueryId.rawInteger
  split
  · exact (edits_shown v).next fun _ => edits_throw _
  · exact (edits_shown v).next fun _ => edits_throw _
  · exact edits_ofExcept _

theorem edits_whereIntegerIn (q : QueryId) (column values boolean : Value) (negated : Bool) :
    (q.whereIntegerIn column values boolean negated).Edits p :=
  (edits_itemsNow values).next fun _ => (edits_mapM edits_rawInteger).next fun _ =>
    edits_addWhere q _ fun _ => by trivial

/-- Values with a first and a last one are not none. -/
theorem QueryId.ne_nil_of_betweenEnds {values ends : List Value}
    (h : QueryId.betweenEnds values = .ok ends) : values ≠ [] := by
  rintro rfl
  exact nomatch h

theorem edits_whereBetween (q : QueryId) (column values boolean : Value) (negated : Bool) :
    (q.whereBetween column values boolean negated).Edits p := by
  refine (edits_itemsNow values).next fun vs => edits_ofExcept_bind fun ends hends => ?_
  refine (edits_addWhere q _ fun _ => ?_).next fun _ => edits_bindValues q (by decide) _
  exact QueryId.ne_nil_of_betweenEnds hends

theorem edits_writtenDatePart (hrun : p.Runs run) (part : DatePart) (value : Value) :
    (QueryId.writtenDatePart run part value).Edits p := by
  unfold QueryId.writtenDatePart
  split
  · refine edits_get.next fun s => ?_
    split
    · exact edits_extension hrun _ _ _
    · exact edits_pure _
  · split
    · exact (edits_shown _).next fun _ => edits_pure _
    · exact edits_pure _

theorem edits_whereDatePart (hrun : p.Runs run) (q : QueryId) (part : DatePart)
    (column operator : Value) (value : Option Value) (boolean : Value) :
    (q.whereDatePart run part column operator value boolean).Edits p :=
  (edits_comparison q _ _).next fun _ => (edits_writtenDatePart hrun part _).next fun _ =>
    (edits_addWhere q _ fun _ => by trivial).next fun _ => edits_bindValue q (by decide) _

theorem edits_addWhereExists (q : QueryId) (query boolean : Value) (negated : Bool) :
    (q.addWhereExists query boolean negated).Edits p :=
  (edits_addWhere q _ fun _ => by trivial).next fun _ => (edits_needQuery _).next fun _ =>
    (edits_bindings _).next fun _ => edits_bind q (by decide) _

theorem edits_whereExists (hrun : p.Runs run) (q : QueryId) (query boolean : Value)
    (negated : Bool) : (q.whereExists run query boolean negated).Edits p :=
  (edits_resolveSub hrun q query).next fun _ => edits_addWhereExists q _ _ _

theorem edits_whereRowValues (q : QueryId) (columns operator values boolean : Value) :
    (q.whereRowValues columns operator values boolean).Edits p := by
  refine (edits_itemsNow columns).next fun cs => (edits_itemsNow values).next fun vs => ?_
  dsimp only
  split
  · exact edits_throw _
  · rename_i hne
    have hlengths : cs.length = vs.length := Decidable.not_not.1 hne
    have hsound : ∀ s, (Where.rowValues cs operator vs).Sound s := fun _ => hlengths
    exact (edits_addWhere q _ hsound).next fun _ => edits_bindValues q (by decide) _

theorem edits_whereJsonContains (q : QueryId) (column value boolean : Value) (negated : Bool) :
    (q.whereJsonContains column value boolean negated).Edits p := by
  refine (edits_addWhere q _ fun _ => by trivial).next fun _ => ?_
  split
  · exact edits_pure _
  · exact (edits_grammarFor q _).next fun _ => (edits_shown _).next fun _ =>
      (edits_ofExcept _).next fun _ => edits_bind q (by decide) _

theorem edits_whereJsonLength (q : QueryId) (column operator : Value) (value : Option Value)
    (boolean : Value) : (q.whereJsonLength column operator value boolean).Edits p := by
  refine (edits_comparison q _ _).next fun comparison =>
    (edits_addWhere q _ fun _ => by trivial).next fun _ => ?_
  split
  · exact edits_pure _
  · exact (edits_ofExcept _).next fun _ => edits_bind q (by decide) _

/-! ## Joins -/

theorem edits_on (hrun : p.Runs run) (q : QueryId) (first operator second boolean : Value) :
    (q.on run first operator second boolean).Edits p := by
  unfold QueryId.on
  split
  · exact edits_whereNested hrun q _ _
  · exact edits_whereColumn hrun q _ _ _ _

theorem edits_addJoin (q join : QueryId) :
    Action.Edits p (q.modify fun query => { query with joins := query.joins ++ [join] }) :=
  edits_edit (.join join) fun _ => trivial

theorem edits_attachJoin (q join : QueryId) : (q.attachJoin join).Edits p :=
  (edits_addJoin q join).next fun _ => (edits_bindings join).next fun _ =>
    edits_bind q (by decide) _

theorem edits_join (hrun : p.Runs run) (q : QueryId) (table first operator second type : Value)
    (byValue : Bool) : (q.join run table first operator second type byValue).Edits p := by
  refine (edits_newJoin q type table).next fun join => ?_
  dsimp only
  split
  · exact (edits_call hrun first join []).discard.next fun _ => edits_attachJoin q join
  · split
    · exact (edits_where hrun join _ _ _ _).next fun _ => edits_attachJoin q join
    · exact (edits_on hrun join _ _ _ _).next fun _ => edits_attachJoin q join

theorem edits_joinSub (hrun : p.Runs run) (q : QueryId)
    (query name first operator second type : Value) (byValue : Bool) :
    (q.joinSub run query name first operator second type byValue).Edits p :=
  (edits_createSub hrun q query).next fun _ => (edits_wrappedTable q name).next fun _ =>
    (edits_bind q (by decide) _).next fun _ => edits_join hrun q _ _ _ _ _ _

theorem edits_crossJoin (hrun : p.Runs run) (q : QueryId) (table first operator second : Value) :
    (q.crossJoin run table first operator second).Edits p := by
  unfold QueryId.crossJoin
  split
  · exact (edits_newJoin q _ _).next fun join => edits_addJoin q join
  · exact edits_join hrun q _ _ _ _ _ _

/-! ## Grouping -/

theorem edits_addGroups (q : QueryId) (columns : List Value) :
    Action.Edits p (q.modify fun query => { query with groups := query.groups ++ columns }) :=
  edits_edit (.groups columns) fun _ => trivial

theorem edits_groupByRaw (q : QueryId) (sql bindings : Value) :
    (q.groupByRaw sql bindings).Edits p :=
  (edits_addGroups q _).next fun _ => (edits_itemsOrNone _).next fun _ =>
    edits_bind q (by decide) _

theorem edits_addHaving (q : QueryId) (boolean : Value) {body : Having}
    (h : body.Sound) : (q.addHaving boolean body).Edits p :=
  edits_edit (.groupCondition boolean body) fun _ => h

theorem edits_having (q : QueryId) (column : Value) (operator value : Option Value)
    (boolean : Value) : (q.having column operator value boolean).Edits p :=
  (edits_comparison q _ _).next fun _ => (edits_addHaving q _ (by trivial)).next fun _ =>
    edits_bindValue q (by decide) _

theorem edits_havingRaw (q : QueryId) (sql bindings boolean : Value) :
    (q.havingRaw sql bindings boolean).Edits p :=
  (edits_addHaving q _ (by trivial)).next fun _ => (edits_itemsOrNone _).next fun _ =>
    edits_bind q (by decide) _

theorem edits_havingBetween (q : QueryId) (column values boolean : Value) (negated : Bool) :
    (q.havingBetween column values boolean negated).Edits p := by
  refine (edits_itemsNow values).next fun vs => edits_ofExcept_bind fun ends hends => ?_
  refine (edits_addHaving q _ ?_).next fun _ => edits_bindValues q (by decide) _
  exact QueryId.ne_nil_of_betweenEnds hends

theorem edits_havingNull (q : QueryId) (columns boolean : Value) (negated : Bool) :
    (q.havingNull columns boolean negated).Edits p :=
  edits_forM fun _ _ => edits_addHaving q _ trivial

/-! ## Ordering -/

/-- The group of the ordering belongs to a union only if there is one. -/
theorem Query.isUnion_of_orderGroup {q : Query} (h : q.orderGroup ∈ BindingGroup.ofUnion) :
    q.isUnion = true := by
  unfold orderGroup at h
  split at h
  · assumption
  · exact absurd h (by decide)

theorem edits_direction (hrun : p.Runs run) (word : Value) :
    (QueryId.direction run word).Edits p := by
  have hread : ∀ v : Value, Action.Edits p
      ((v.text?.bind Direction.ofWord?).elim (throw (.argument .direction)) pure) := by
    intro v
    cases v.text?.bind Direction.ofWord? with
    | none => exact edits_throw _
    | some direction => exact edits_pure _
  unfold QueryId.direction
  dsimp only
  split
  · exact (edits_pure _).next hread
  · exact (edits_pure _).next hread
  · exact (edits_extension hrun _ _ _).next hread
  · exact edits_throw _

theorem edits_addOrder (q : QueryId) (order : Order) :
    Action.Edits p (q.modify (·.addOrder order)) :=
  edits_edit (.order order) fun _ => trivial

/-- The group of the ordering is chosen before a callback runs.  If it is that of a union, the query
is still one afterwards. -/
theorem edits_orderBy (hrun : p.Runs run) (q : QueryId) (column word : Value) :
    (q.orderBy run column word).Edits p := by
  have hadd : ∀ column, Action.Edits p (do
      let direction ← QueryId.direction run word
      q.modify (·.addOrder (.byColumn column direction))) := fun column =>
    (edits_direction hrun word).next fun direction => edits_addOrder q _
  refine fun s hs => edited_bind .refl fun query s' hran _ => ?_
  cases hran
  dsimp only
  split
  · refine edited_bind (edits_createSub hrun q column s hs) fun sub s1 _ hsub => ?_
    have hunion : (s.query q).orderGroup ∈ BindingGroup.ofUnion → (s1.query q).isUnion = true :=
      fun hmem => hsub.isUnion (Query.isUnion_of_orderGroup hmem)
    have hstart := Nat.le_trans hs hsub.size_le
    exact edited_bind (edited_bind_of_isUnion hunion _) fun _ s2 _ hbound =>
      hadd _ s2 (Nat.le_trans hstart hbound.size_le)
  · exact hadd column s hs

theorem edits_orderByRaw (q : QueryId) (sql bindings : Value) :
    (q.orderByRaw sql bindings).Edits p := by
  refine (edits_addOrder q _).next fun _ => (edits_itemsOrNone bindings).next fun vs => ?_
  refine fun s _ => edited_bind .refl fun query s' hran _ => ?_
  cases hran
  exact edited_bind_of_isUnion Query.isUnion_of_orderGroup vs

theorem edits_inRandomOrder (q : QueryId) (seed : Value) : (q.inRandomOrder seed).Edits p :=
  (edits_grammarFor q _).next fun _ => (edits_shown seed).next fun _ => edits_orderByRaw q _ _

theorem edits_reorder (hrun : p.Runs run) (hreorders : p.reorders) (q : QueryId)
    (column word : Value) : (q.reorder run column word).Edits p := by
  refine (edits_edit .dropOrders fun _ => hreorders).next fun _ => ?_
  split
  · exact edits_pure _
  · exact edits_orderBy hrun q _ _

/-! ## Paging -/

theorem edits_offset (q : QueryId) (value : Value) : (q.offset value).Edits p :=
  (edits_ofExcept _).next fun n => edits_edit (.offset n.toNat) fun _ => trivial

theorem edits_limit (q : QueryId) (value : Value) : (q.limit value).Edits p := by
  unfold QueryId.limit
  split
  · exact edits_pure _
  · refine (edits_ofExcept _).next fun n => ?_
    split
    · exact edits_edit (.limit n.toNat) fun _ => trivial
    · exact edits_pure _

theorem edits_forPage (q : QueryId) (page perPage : Value) : (q.forPage page perPage).Edits p :=
  (edits_ofExcept _).next fun _ => (edits_ofExcept _).next fun _ => (edits_offset q _).next fun _ =>
    edits_limit q _

/-! ## Unions, locks and choices -/

/-- A member is attached before its values are bound, so there is a union that they belong to. -/
theorem edits_union (hrun : p.Runs run) (q : QueryId) (query keepsAll : Value) :
    (q.union run query keepsAll).Edits p := by
  have hattach : ∀ query : Value, Action.Edits p (do
      q.modify fun current =>
        { current with unions := current.unions ++ [⟨query.query?, keepsAll⟩] }
      let member ← query.needQuery
      q.bind .union (← member.bindings)) := by
    intro query s _
    unfold Value.needQuery
    generalize query.query? = member
    have hunite : p.Edited s (s.edit q (Edit.unite ⟨member, keepsAll⟩).apply) :=
      .edit .refl q _ trivial
    cases member with
    | none => exact hunite
    | some member =>
      by_cases hlt : q.index < s.queries.size
      · refine hunite.edit q (.bind .union _) fun _ hnot => ?_
        rw [Store.query_edit_self hlt] at hnot
        simp [Edit.apply, Query.isUnion] at hnot
      · have hle := Nat.le_of_not_lt hlt
        show p.Edited s ((s.edit q _).edit q _)
        rw [Store.edit_of_le hle, Store.edit_of_le hle]
        exact .refl
  unfold QueryId.union
  dsimp only
  split
  · exact (edits_newQuery q).next fun member => (edits_call hrun query member []).next fun _ =>
      (edits_pure _).next hattach
  · exact (edits_pure _).next hattach

theorem edits_lock (q : QueryId) (value : Value) : (q.lock value).Edits p :=
  edits_edit (.lock value) fun _ => trivial

theorem edits_whenever (hrun : p.Runs run) (q : QueryId) (value callback otherwise : Value) :
    (q.whenever run value callback otherwise).Edits p := by
  unfold QueryId.whenever
  dsimp only
  split
  · exact edits_pure _
  · exact (edits_call hrun _ q _).next fun _ => edits_pure _

end FluentSql
