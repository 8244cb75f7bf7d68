import FluentSql.Fluent.Having
import FluentSql.Fluent.Join
import FluentSql.Fluent.Order
import FluentSql.Proofs.Accounting.Statements

/-!
# Building and the ledger

A fluent call runs no statement itself.  It changes queries, which the ledger
does not hold, so it accounts for the ledger as soon as its callbacks and the
extensions it consults do.

* Reading values leaves the ledger as it is: `accounts_now` and the lemmas
  beside it.
* Compiling may run an extension: `accounts_compile`.
* The calls in families, as in the modules under `FluentSql.Fluent`.
-/

namespace FluentSql

variable {calls : String → Prop} {run : Runner} {q : QueryId}

/-! ## Reading -/

theorem accounts_read (q : QueryId) :
    q.read.Accounts calls := accounts_quiet (fun _ => rfl) fun _ => rfl

theorem accounts_now (v : Value) : v.now.Accounts calls := by
  unfold Value.now
  split
  · exact (accounts_read _).next fun _ => accounts_pure _
  · exact accounts_pure _

theorem accounts_shown (v : Value) :
    v.shown.Accounts calls := accounts_quiet (fun _ => rfl) fun _ => rfl

theorem accounts_displayNow (v : Value) :
    v.displayNow.Accounts calls := accounts_quiet (fun _ => rfl) fun _ => rfl

theorem accounts_itemsNow (v : Value) : v.itemsNow.Accounts calls :=
  (accounts_now v).next fun _ => accounts_ofExcept _

theorem accounts_itemsOrNone (v : Value) : v.itemsOrNone.Accounts calls := by
  unfold Value.itemsOrNone
  split
  · exact accounts_itemsNow v
  · exact accounts_pure _

theorem accounts_bindings (q : QueryId) :
    q.bindings.Accounts calls := accounts_quiet (fun _ => rfl) fun _ => rfl

theorem accounts_needQuery (v : Value) : v.needQuery.Accounts calls := by
  unfold Value.needQuery
  cases v.query? with
  | none => exact accounts_throw _
  | some id => exact accounts_pure _

theorem accounts_grammarFor (q : QueryId) (method : String) :
    (q.grammarFor method).Accounts calls :=
  accounts_quiet (fun _ => rfl) fun _ => rfl

theorem accounts_wrapped (q : QueryId) (v : Value) : (q.wrapped v).Accounts calls :=
  (accounts_grammarFor q _).next fun _ => (accounts_shown v).next fun _ => accounts_ofExcept _

theorem accounts_wrappedTable (q : QueryId) (v : Value) : (q.wrappedTable v).Accounts calls :=
  (accounts_grammarFor q _).next fun _ => (accounts_shown v).next fun _ => accounts_ofExcept _

theorem accounts_addedOperators (q : QueryId) :
    q.addedOperators.Accounts calls := accounts_quiet (fun _ => rfl) fun _ => rfl

theorem accounts_comparison (q : QueryId) (operator value : Option Value) :
    (q.comparison operator value).Accounts calls := by
  unfold QueryId.comparison
  split
  · exact ((accounts_shown _).map _).next fun _ => (accounts_addedOperators q).next fun _ =>
      accounts_ofExcept _
  · exact (accounts_pure _).next fun _ => (accounts_addedOperators q).next fun _ =>
      accounts_ofExcept _

/-! ## Compiling -/

theorem accounts_call (hrun : run.Accounts calls) (callback : Value) (q : QueryId)
    (extra : List Value) :
    (callback.call run q extra).Accounts calls := by
  unfold Value.call
  split
  · exact hrun _ q extra
  · exact accounts_throw _

theorem accounts_extension (hrun : run.Accounts calls) (q : QueryId) (name : String)
    (arguments : List Value) : (Extensions.call run q name arguments).Accounts calls := by
  refine accounts_get.next fun s => ?_
  split
  · exact hrun _ q arguments
  · exact accounts_throw _

section

variable {α : Type}

private theorem accounts_consultFrom (hrun : run.Accounts calls)
    (compile : Store → KnownAnswers → Except Failure α) (fuel : Nat) (known : KnownAnswers) :
    (consultFrom run compile fuel known).Accounts calls := by
  induction fuel generalizing known with
  | zero => exact accounts_throw _
  | succ fuel ih =>
    refine accounts_get.next fun s => ?_
    split
    · exact (accounts_extension hrun _ _ _).next fun _ => (accounts_shown _).next fun _ => ih _
    · exact accounts_ofExcept _

theorem accounts_consult (hrun : run.Accounts calls)
    (compile : Store → KnownAnswers → Except Failure α) :
    (consult run compile).Accounts calls :=
  accounts_consultFrom hrun compile _ _

theorem accounts_compile (hrun : run.Accounts calls) (q : QueryId) (method : String)
    (f : Grammar → Attached → Query → Except Failure α) : (q.compile run method f).Accounts calls :=
  accounts_consult hrun _

end

theorem accounts_toSql (hrun : run.Accounts calls) (q : QueryId) : (q.toSql run).Accounts calls :=
  accounts_compile hrun q _ _

/-! ## Sub-queries -/

theorem accounts_newStatement (q : QueryId) : q.newStatement.Accounts calls :=
  (accounts_read q).next fun _ => accounts_create _

theorem accounts_newQuery (q : QueryId) : q.newQuery.Accounts calls :=
  (accounts_read q).next fun _ => accounts_create _

theorem accounts_newJoin (q : QueryId) (type table : Value) :
    (q.newJoin type table).Accounts calls :=
  (accounts_read q).next fun _ => accounts_create _

theorem accounts_asSub (hrun : run.Accounts calls) (q : QueryId) : (q.asSub run).Accounts calls :=
  (accounts_toSql hrun q).next fun _ => (accounts_bindings q).next fun _ => accounts_pure _

theorem accounts_createSub (hrun : run.Accounts calls) (q : QueryId) (query : Value) :
    (q.createSub run query).Accounts calls := by
  unfold QueryId.createSub
  split
  · exact accounts_asSub hrun _
  · exact (accounts_newStatement q).next fun sub => (hrun _ sub []).next fun _ =>
      accounts_asSub hrun sub
  · exact (accounts_displayNow _).next fun _ => accounts_pure _
  · exact (accounts_displayNow _).next fun _ => accounts_pure _
  · exact accounts_throw _

theorem accounts_resolveSub (hrun : run.Accounts calls) (q : QueryId) (query : Value) :
    (q.resolveSub run query).Accounts calls := by
  unfold QueryId.resolveSub
  split
  · exact accounts_pure _
  · exact (accounts_newStatement q).next fun sub => (hrun _ sub []).next fun _ => accounts_pure _
  · exact accounts_throw _

/-! ## Bindings -/

theorem accounts_bind (q : QueryId) (group : BindingGroup) (values : List Value) :
    (q.bind group values).Accounts calls :=
  accounts_edit q _

theorem accounts_bindValue (q : QueryId) (group : BindingGroup) (value : Value) :
    (q.bindValue group value).Accounts calls := by
  unfold QueryId.bindValue
  split
  · exact accounts_pure _
  · exact accounts_bind q _ _

theorem accounts_bindValues (q : QueryId) (group : BindingGroup) (values : List Value) :
    (q.bindValues group values).Accounts calls :=
  accounts_bind q _ _

/-! ## Select list and source -/

theorem accounts_addColumns (q : QueryId) (columns : List Value) :
    (q.addColumns columns).Accounts calls :=
  accounts_edit q _

theorem accounts_selectRaw (q : QueryId) (sql bindings : Value) :
    (q.selectRaw sql bindings).Accounts calls := by
  refine (accounts_addColumns q _).next fun _ => ?_
  split
  · exact (accounts_itemsNow _).next fun _ => accounts_bind q _ _
  · exact accounts_pure _

theorem accounts_selectSub (hrun : run.Accounts calls) (q : QueryId) (query name : Value) :
    (q.selectSub run query name).Accounts calls :=
  (accounts_createSub hrun q query).next fun _ => (accounts_wrapped q name).next fun _ =>
    accounts_selectRaw q _ _

theorem accounts_selectAs (hrun : run.Accounts calls) (q : QueryId) (name value : Value) :
    (q.selectAs run name value).Accounts calls := by
  unfold QueryId.selectAs
  split
  · exact accounts_selectSub hrun q _ _
  · exact (accounts_displayNow _).next fun _ => (accounts_displayNow _).next fun _ =>
      accounts_addColumns q _

theorem accounts_selectEntry (hrun : run.Accounts calls) (q : QueryId) (column : Value) :
    (q.selectEntry run column).Accounts calls := by
  refine (accounts_now column).next fun v => ?_
  split
  · exact accounts_forM fun _ _ => accounts_selectAs hrun q _ _
  · exact accounts_addColumns q _

theorem accounts_addSelect (hrun : run.Accounts calls) (q : QueryId) (columns : List Value) :
    (q.addSelect run columns).Accounts calls :=
  (accounts_addColumns q _).next fun _ => accounts_forM fun _ _ => accounts_selectEntry hrun q _

theorem accounts_select (hrun : run.Accounts calls) (q : QueryId) (columns : List Value) :
    (q.select run columns).Accounts calls :=
  (accounts_edit q _).next fun _ => accounts_addSelect hrun q _

theorem accounts_distinct (q : QueryId) : q.distinct.Accounts calls :=
  accounts_edit q _

theorem accounts_setTable (q : QueryId) (source : Value) :
    Action.Accounts calls (q.modify fun query => { query with source }) :=
  accounts_edit q _

theorem accounts_fromRaw (q : QueryId) (sql bindings : Value) :
    (q.fromRaw sql bindings).Accounts calls :=
  (accounts_setTable q _).next fun _ => (accounts_itemsOrNone _).next fun _ =>
    accounts_bind q _ _

theorem accounts_fromSub (hrun : run.Accounts calls) (q : QueryId) (query name : Value) :
    (q.fromSub run query name).Accounts calls :=
  (accounts_createSub hrun q query).next fun _ => (accounts_wrappedTable q name).next fun _ =>
    accounts_fromRaw q _ _

theorem accounts_setSource (hrun : run.Accounts calls) (q : QueryId) (table name : Value) :
    (q.setSource run table name).Accounts calls := by
  unfold QueryId.setSource
  split
  · split
    · exact accounts_throw _
    · exact accounts_fromSub hrun q table name
  · split
    · exact (accounts_displayNow _).next fun _ => (accounts_displayNow _).next fun _ =>
        accounts_setTable q _
    · exact accounts_setTable q _

/-! ## Conditions -/

theorem accounts_addWhere (q : QueryId) (boolean : Value) (body : Where) :
    (q.addWhere boolean body).Accounts calls :=
  accounts_edit q _

theorem accounts_forNestedWhere (hrun : run.Accounts calls) (q : QueryId) :
    (q.forNestedWhere run).Accounts calls :=
  (accounts_newQuery q).next fun nested => (accounts_read q).next fun _ =>
    (accounts_setSource hrun nested _ _).next fun _ => accounts_pure _

theorem accounts_addNested (q nested : QueryId) (boolean : Value) :
    (q.addNested nested boolean).Accounts calls := by
  refine (accounts_read nested).next fun group => ?_
  split
  · exact accounts_pure _
  · exact (accounts_addWhere q _ _).next fun _ => accounts_bind q _ _

theorem accounts_groupBuiltBy (hrun : run.Accounts calls) (q : QueryId) (boolean : Value)
    {build : QueryId → Action Unit} (hbuild : ∀ nested, (build nested).Accounts calls) :
    (q.groupBuiltBy run boolean build).Accounts calls :=
  (accounts_forNestedWhere hrun q).next fun nested => (hbuild nested).next fun _ =>
    accounts_addNested q nested boolean

theorem accounts_whereNested (hrun : run.Accounts calls) (q : QueryId) (callback boolean : Value) :
    (q.whereNested run callback boolean).Accounts calls :=
  accounts_groupBuiltBy hrun q boolean fun nested => (accounts_call hrun callback nested []).discard

theorem accounts_whereNull (q : QueryId) (columns boolean : Value) (negated : Bool) :
    (q.whereNull columns boolean negated).Accounts calls :=
  accounts_forM fun _ _ => accounts_addWhere q _ _

theorem accounts_whereSub (hrun : run.Accounts calls) (q : QueryId)
    (column operator query boolean : Value) :
    (q.whereSub run column operator query boolean).Accounts calls :=
  (accounts_resolveSub hrun q query).next fun _ =>
    (accounts_addWhere q _ _).next fun _ =>
      (accounts_bindings _).next fun _ => accounts_bind q _ _

theorem accounts_whereSingle (hrun : run.Accounts calls) (q : QueryId) (column : Value)
    (operator value : Option Value) (boolean : Value) :
    (q.whereSingle run column operator value boolean).Accounts calls := by
  have hadd : ∀ (comparison : Comparison) (column : Value), Action.Accounts calls
      (if comparison.value.isQueryable then
        q.whereSub run column (.text comparison.operator) comparison.value boolean
      else if comparison.value.isNull then
        q.whereNull column boolean (comparison.operator != "=")
      else do
        let value := QueryId.jsonWord column comparison.value
        q.addWhere boolean (.basic column comparison.operator value)
        q.bindValue .condition value) := by
    intro comparison column
    split
    · exact accounts_whereSub hrun q _ _ _ _
    · split
      · exact accounts_whereNull q _ _ _
      · exact (accounts_addWhere q _ _).next fun _ =>
          accounts_bindValue q _ _
  unfold QueryId.whereSingle
  split
  · exact accounts_whereNested hrun q _ _
  · refine (accounts_comparison q _ _).next fun comparison => ?_
    dsimp only
    split
    · exact (accounts_createSub hrun q _).next fun sub => (accounts_bind q _ _).next fun _ =>
        hadd comparison _
    · exact hadd comparison _

theorem accounts_whereColumnSingle (q : QueryId) (first operator second boolean : Value) :
    (q.whereColumnSingle first operator second boolean).Accounts calls := by
  have hadd : ∀ compared : String × Value, Action.Accounts calls (do
      if compared.2.isNull then throw (.argument .secondColumnMissing)
      q.addWhere boolean (.columnPair first compared.1 compared.2)) := by
    intro compared
    dsimp only
    split
    · exact accounts_throw _
    · exact accounts_addWhere q _ _
  unfold QueryId.whereColumnSingle
  refine (accounts_addedOperators q).next fun added => ?_
  dsimp only
  split
  · exact (accounts_ofExcept _).next fun known => hadd _
  · exact (accounts_pure _).next fun known => hadd _

theorem accounts_compareSingle (hrun : run.Accounts calls) (q : QueryId)
    (kind : QueryId.ComparisonKind)
    (arguments : List Value) : (q.compareSingle run kind arguments).Accounts calls := by
  unfold QueryId.compareSingle
  split
  · exact accounts_throw _
  · split
    · exact accounts_throw _
    · cases kind with
      | values => exact accounts_whereSingle hrun q _ _ _ _
      | columns => exact accounts_whereColumnSingle q _ _ _ _

theorem accounts_whereGroup (hrun : run.Accounts calls) (kind : QueryId.ComparisonKind) (fuel : Nat)
    (q : QueryId) (conditions boolean : Value) :
    (QueryId.whereGroup run kind fuel q conditions boolean).Accounts calls := by
  induction fuel generalizing q conditions boolean with
  | zero => exact accounts_throw _
  | succ fuel ih =>
    refine accounts_groupBuiltBy hrun q boolean fun nested => accounts_forM fun arguments _ => ?_
    refine (accounts_ofExcept arguments).next fun arguments => ?_
    split
    · refine (accounts_now _).next fun column => ?_
      split
      · exact ih _ _ _
      · exact accounts_compareSingle hrun nested kind _
    · exact accounts_throw _

theorem accounts_where (hrun : run.Accounts calls) (q : QueryId) (column : Value)
    (operator value : Option Value) (boolean : Value) :
    (q.where run column operator value boolean).Accounts calls := by
  refine (accounts_now column).next fun column => ?_
  split
  · exact accounts_whereGroup hrun _ _ q _ _
  · exact accounts_whereSingle hrun q _ _ _ _

theorem accounts_whereColumn (hrun : run.Accounts calls) (q : QueryId)
    (first operator second boolean : Value) :
    (q.whereColumn run first operator second boolean).Accounts calls := by
  refine (accounts_now first).next fun first => ?_
  split
  · exact accounts_whereGroup hrun _ _ q _ _
  · exact accounts_whereColumnSingle q _ _ _ _

theorem accounts_whereNot (hrun : run.Accounts calls) (q : QueryId) (column : Value)
    (operator value : Option Value) (boolean : Value) :
    (q.whereNot run column operator value boolean).Accounts calls := by
  refine (accounts_ofExcept _).next fun word => ?_
  split
  · exact accounts_whereNested hrun q _ _
  · exact accounts_groupBuiltBy hrun q _ fun nested => accounts_where hrun nested _ _ _ _

theorem accounts_whereRaw (q : QueryId) (sql bindings boolean : Value) :
    (q.whereRaw sql bindings boolean).Accounts calls :=
  (accounts_addWhere q _ _).next fun _ => (accounts_itemsOrNone _).next fun _ =>
    accounts_bind q _ _

theorem accounts_whereIn (hrun : run.Accounts calls) (q : QueryId) (column values boolean : Value)
    (negated : Bool) : (q.whereIn run column values boolean negated).Accounts calls := by
  have hadd : ∀ vs : List Value, Action.Accounts calls (do
      q.addWhere boolean (.among column vs negated)
      q.bindValues .condition vs) := fun vs =>
    (accounts_addWhere q _ _).next fun _ => accounts_bindValues q _ _
  unfold QueryId.whereIn
  dsimp only
  split
  · exact (accounts_createSub hrun q _).next fun _ => (accounts_bind q _ _).next fun _ =>
      hadd _
  · exact (accounts_itemsNow _).next hadd

theorem accounts_rawInteger (v : Value) : (QueryId.rawInteger v).Accounts calls := by
  unfold QueryId.rawInteger
  split
  · exact (accounts_shown v).next fun _ => accounts_throw _
  · exact (accounts_shown v).next fun _ => accounts_throw _
  · exact accounts_ofExcept _

theorem accounts_whereIntegerIn (q : QueryId) (column values boolean : Value) (negated : Bool) :
    (q.whereIntegerIn column values boolean negated).Accounts calls :=
  (accounts_itemsNow values).next fun _ =>
    (accounts_mapM fun _ _ => accounts_rawInteger _).next fun _ => accounts_addWhere q _ _

theorem accounts_whereBetween (q : QueryId) (column values boolean : Value) (negated : Bool) :
    (q.whereBetween column values boolean negated).Accounts calls :=
  (accounts_itemsNow values).next fun _ => (accounts_ofExcept _).next fun _ =>
    (accounts_addWhere q _ _).next fun _ => accounts_bindValues q _ _

theorem accounts_writtenDatePart (hrun : run.Accounts calls) (part : DatePart) (value : Value) :
    (QueryId.writtenDatePart run part value).Accounts calls := by
  unfold QueryId.writtenDatePart
  split
  · refine accounts_get.next fun s => ?_
    split
    · exact accounts_extension hrun _ _ _
    · exact accounts_pure _
  · split
    · exact (accounts_shown _).next fun _ => accounts_pure _
    · exact accounts_pure _

theorem accounts_whereDatePart (hrun : run.Accounts calls) (q : QueryId) (part : DatePart)
    (column operator : Value) (value : Option Value) (boolean : Value) :
    (q.whereDatePart run part column operator value boolean).Accounts calls :=
  (accounts_comparison q _ _).next fun _ => (accounts_writtenDatePart hrun part _).next fun _ =>
    (accounts_addWhere q _ _).next fun _ => accounts_bindValue q _ _

theorem accounts_addWhereExists (q : QueryId) (query boolean : Value) (negated : Bool) :
    (q.addWhereExists query boolean negated).Accounts calls :=
  (accounts_addWhere q _ _).next fun _ => (accounts_needQuery _).next fun _ =>
    (accounts_bindings _).next fun _ => accounts_bind q _ _

theorem accounts_whereExists (hrun : run.Accounts calls) (q : QueryId) (query boolean : Value)
    (negated : Bool) : (q.whereExists run query boolean negated).Accounts calls :=
  (accounts_resolveSub hrun q query).next fun _ => accounts_addWhereExists q _ _ _

theorem accounts_whereRowValues (q : QueryId) (columns operator values boolean : Value) :
    (q.whereRowValues columns operator values boolean).Accounts calls := by
  refine (accounts_itemsNow columns).next fun cs => (accounts_itemsNow values).next fun vs => ?_
  dsimp only
  split
  · exact accounts_throw _
  · exact (accounts_addWhere q _ _).next fun _ => accounts_bindValues q _ _

theorem accounts_whereJsonContains (q : QueryId) (column value boolean : Value) (negated : Bool) :
    (q.whereJsonContains column value boolean negated).Accounts calls := by
  refine (accounts_addWhere q _ _).next fun _ => ?_
  split
  · exact accounts_pure _
  · exact (accounts_grammarFor q _).next fun _ => (accounts_shown _).next fun _ =>
      (accounts_ofExcept _).next fun _ => accounts_bind q _ _

theorem accounts_whereJsonLength (q : QueryId) (column operator : Value) (value : Option Value)
    (boolean : Value) : (q.whereJsonLength column operator value boolean).Accounts calls := by
  refine (accounts_comparison q _ _).next fun comparison =>
    (accounts_addWhere q _ _).next fun _ => ?_
  split
  · exact accounts_pure _
  · exact (accounts_ofExcept _).next fun _ => accounts_bind q _ _

/-! ## Joins -/

theorem accounts_on (hrun : run.Accounts calls) (q : QueryId)
    (first operator second boolean : Value) :
    (q.on run first operator second boolean).Accounts calls := by
  unfold QueryId.on
  split
  · exact accounts_whereNested hrun q _ _
  · exact accounts_whereColumn hrun q _ _ _ _

theorem accounts_addJoin (q join : QueryId) :
    Action.Accounts calls (q.modify fun query => { query with joins := query.joins ++ [join] }) :=
  accounts_edit q _

theorem accounts_attachJoin (q join : QueryId) : (q.attachJoin join).Accounts calls :=
  (accounts_addJoin q join).next fun _ => (accounts_bindings join).next fun _ =>
    accounts_bind q _ _

theorem accounts_join (hrun : run.Accounts calls) (q : QueryId)
    (table first operator second type : Value)
    (byValue : Bool) : (q.join run table first operator second type byValue).Accounts calls := by
  refine (accounts_newJoin q type table).next fun join => ?_
  dsimp only
  split
  · exact (accounts_call hrun first join []).discard.next fun _ => accounts_attachJoin q join
  · split
    · exact (accounts_where hrun join _ _ _ _).next fun _ => accounts_attachJoin q join
    · exact (accounts_on hrun join _ _ _ _).next fun _ => accounts_attachJoin q join

theorem accounts_joinSub (hrun : run.Accounts calls) (q : QueryId)
    (query name first operator second type : Value) (byValue : Bool) :
    (q.joinSub run query name first operator second type byValue).Accounts calls :=
  (accounts_createSub hrun q query).next fun _ => (accounts_wrappedTable q name).next fun _ =>
    (accounts_bind q _ _).next fun _ => accounts_join hrun q _ _ _ _ _ _

theorem accounts_crossJoin (hrun : run.Accounts calls) (q : QueryId)
    (table first operator second : Value) :
    (q.crossJoin run table first operator second).Accounts calls := by
  unfold QueryId.crossJoin
  split
  · exact (accounts_newJoin q _ _).next fun join => accounts_addJoin q join
  · exact accounts_join hrun q _ _ _ _ _ _

/-! ## Grouping -/

theorem accounts_addGroups (q : QueryId) (columns : List Value) :
    Action.Accounts calls (q.modify fun query =>
      { query with groups := query.groups ++ columns }) :=
  accounts_edit q _

theorem accounts_groupByRaw (q : QueryId) (sql bindings : Value) :
    (q.groupByRaw sql bindings).Accounts calls :=
  (accounts_addGroups q _).next fun _ => (accounts_itemsOrNone _).next fun _ =>
    accounts_bind q _ _

theorem accounts_addHaving (q : QueryId) (boolean : Value) (body : Having) :
    (q.addHaving boolean body).Accounts calls :=
  accounts_edit q _

theorem accounts_having (q : QueryId) (column : Value) (operator value : Option Value)
    (boolean : Value) : (q.having column operator value boolean).Accounts calls :=
  (accounts_comparison q _ _).next fun _ => (accounts_addHaving q _ _).next fun _ =>
    accounts_bindValue q _ _

theorem accounts_havingRaw (q : QueryId) (sql bindings boolean : Value) :
    (q.havingRaw sql bindings boolean).Accounts calls :=
  (accounts_addHaving q _ _).next fun _ => (accounts_itemsOrNone _).next fun _ =>
    accounts_bind q _ _

theorem accounts_havingBetween (q : QueryId) (column values boolean : Value) (negated : Bool) :
    (q.havingBetween column values boolean negated).Accounts calls :=
  (accounts_itemsNow values).next fun _ => (accounts_ofExcept _).next fun _ =>
    (accounts_addHaving q _ _).next fun _ => accounts_bindValues q _ _

theorem accounts_havingNull (q : QueryId) (columns boolean : Value) (negated : Bool) :
    (q.havingNull columns boolean negated).Accounts calls :=
  accounts_forM fun _ _ => accounts_addHaving q _ _

/-! ## Ordering -/

theorem accounts_direction (hrun : run.Accounts calls) (word : Value) :
    (QueryId.direction run word).Accounts calls := by
  have hread : ∀ v : Value, Action.Accounts calls
      ((v.text?.bind Direction.ofWord?).elim (throw (.argument .direction)) pure) := by
    intro v
    cases v.text?.bind Direction.ofWord? with
    | none => exact accounts_throw _
    | some direction => exact accounts_pure _
  unfold QueryId.direction
  dsimp only
  split
  · exact (accounts_pure _).next hread
  · exact (accounts_pure _).next hread
  · exact (accounts_extension hrun _ _ _).next hread
  · exact accounts_throw _

theorem accounts_addOrder (q : QueryId) (order : Order) :
    Action.Accounts calls (q.modify (·.addOrder order)) :=
  accounts_edit q _

theorem accounts_orderBy (hrun : run.Accounts calls) (q : QueryId) (column word : Value) :
    (q.orderBy run column word).Accounts calls := by
  have hadd : ∀ column, Action.Accounts calls (do
      let direction ← QueryId.direction run word
      q.modify (·.addOrder (.byColumn column direction))) := fun column =>
    (accounts_direction hrun word).next fun direction => accounts_addOrder q _
  refine (accounts_read q).next fun query => ?_
  dsimp only
  split
  · exact (accounts_createSub hrun q column).next fun _ => (accounts_bind q _ _).next fun _ =>
      hadd _
  · exact hadd column

theorem accounts_orderByRaw (q : QueryId) (sql bindings : Value) :
    (q.orderByRaw sql bindings).Accounts calls :=
  (accounts_addOrder q _).next fun _ => (accounts_itemsOrNone bindings).next fun _ =>
    (accounts_read q).next fun _ => accounts_bind q _ _

theorem accounts_inRandomOrder (q : QueryId) (seed : Value) :
    (q.inRandomOrder seed).Accounts calls :=
  (accounts_grammarFor q _).next fun _ => (accounts_shown seed).next fun _ =>
    accounts_orderByRaw q _ _

theorem accounts_reorder (hrun : run.Accounts calls) (q : QueryId) (column word : Value) :
    (q.reorder run column word).Accounts calls := by
  refine (accounts_edit q _).next fun _ => ?_
  split
  · exact accounts_pure _
  · exact accounts_orderBy hrun q _ _

/-! ## Paging -/

theorem accounts_offset (q : QueryId) (value : Value) : (q.offset value).Accounts calls :=
  (accounts_ofExcept _).next fun _ => accounts_edit q _

theorem accounts_limit (q : QueryId) (value : Value) : (q.limit value).Accounts calls := by
  unfold QueryId.limit
  split
  · exact accounts_pure _
  · refine (accounts_ofExcept _).next fun n => ?_
    split
    · exact accounts_edit q _
    · exact accounts_pure _

theorem accounts_forPage (q : QueryId) (page perPage : Value) :
    (q.forPage page perPage).Accounts calls :=
  (accounts_ofExcept _).next fun _ => (accounts_ofExcept _).next fun _ =>
    (accounts_offset q _).next fun _ => accounts_limit q _

/-! ## Unions, locks and choices -/

theorem accounts_union (hrun : run.Accounts calls) (q : QueryId) (query keepsAll : Value) :
    (q.union run query keepsAll).Accounts calls := by
  have hattach : ∀ query : Value, Action.Accounts calls (do
      q.modify fun current =>
        { current with unions := current.unions ++ [⟨query.query?, keepsAll⟩] }
      let member ← query.needQuery
      q.bind .union (← member.bindings)) := fun query =>
    (accounts_edit q _).next fun _ => (accounts_needQuery query).next fun member =>
      (accounts_bindings member).next fun _ => accounts_bind q _ _
  unfold QueryId.union
  dsimp only
  split
  · exact (accounts_newQuery q).next fun member => (accounts_call hrun query member []).next
      fun _ => (accounts_pure _).next hattach
  · exact (accounts_pure _).next hattach

theorem accounts_lock (q : QueryId) (value : Value) : (q.lock value).Accounts calls :=
  accounts_edit q _

theorem accounts_whenever (hrun : run.Accounts calls) (q : QueryId)
    (value callback otherwise : Value) :
    (q.whenever run value callback otherwise).Accounts calls := by
  unfold QueryId.whenever
  dsimp only
  split
  · exact accounts_pure _
  · exact (accounts_call hrun _ q _).next fun _ => accounts_pure _

end FluentSql
