import FluentSql.Proofs.Boundary.Building

/-!
# Conditions within a boundary

The conditions that a fluent call adds are made of its arguments, and groups
are collected on new queries.

* `keeps_groupBuiltBy` is a group that some action builds; `keeps_whereGroup`
  goes through lists of conditions, and `keeps_where` takes any form.
* The other lemmas are about one kind of condition each.
* `keeps_writtenDatePart` calls an extension on an argument, so it asks that
  every kept query is hidden.
-/

namespace FluentSql

variable {b : Boundary} {run : Runner} {q : QueryId}

/-! ## Groups -/

theorem within_forNestedWhere (hrun : b.Runs run) (h : ¬b.hidden q) :
    (q.forNestedWhere run).Within b fun nested => ¬b.kept nested := by
  refine (within_newQuery h).bind fun nested hnested => ?_
  refine (within_read h).bind fun parent hparent => ?_
  exact (keeps_setSource hrun hnested hparent.source _).next fun _ => within_pure hnested

theorem keeps_addNested (h : ¬b.kept q) {nested : QueryId} (hnested : ¬b.hidden nested)
    {boolean : Value} (hboolean : b.Admits boolean) : (q.addNested nested boolean).Keeps b := by
  refine (within_read hnested).bind fun group hgroup => ?_
  split
  · exact within_pure trivial
  · have hbody : b.Allows (Where.nested nested).handles := Boundary.allows_singleton.2 hnested
    exact (keeps_addWhere h hboolean hbody).next fun _ =>
      keeps_bind h _ (hgroup.bindings .condition)

theorem keeps_groupBuiltBy (hrun : b.Runs run) (h : ¬b.kept q) {boolean : Value}
    (hboolean : b.Admits boolean) {build : QueryId → Action Unit}
    (hbuild : ∀ nested, ¬b.kept nested → (build nested).Keeps b) :
    (q.groupBuiltBy run boolean build).Keeps b := by
  refine (within_forNestedWhere hrun (Boundary.not_hidden_of_not_kept h)).bind
    fun nested hnested => (hbuild nested hnested).next fun _ => ?_
  exact keeps_addNested h (Boundary.not_hidden_of_not_kept hnested) hboolean

theorem keeps_whereNested (hrun : b.Runs run) (h : ¬b.kept q) (callback : Value)
    {boolean : Value} (hboolean : b.Admits boolean) :
    (q.whereNested run callback boolean).Keeps b :=
  keeps_groupBuiltBy hrun h hboolean fun _ hnested =>
    (within_call hrun hnested callback Boundary.admitsAll_nil).discard

/-! ## Single comparisons -/

theorem keeps_whereNull (h : ¬b.kept q) {columns boolean : Value} (hcolumns : b.Admits columns)
    (hboolean : b.Admits boolean) (negated : Bool) :
    (q.whereNull columns boolean negated).Keeps b :=
  keeps_forM fun column hcolumn =>
    keeps_addWhere h hboolean (Value.admitsAll_listed hcolumns column hcolumn)

theorem keeps_whereSub (hrun : b.Runs run) (h : ¬b.kept q) {column operator query boolean : Value}
    (hcolumn : b.Admits column) (hoperator : b.Admits operator) (hquery : b.Admits query)
    (hboolean : b.Admits boolean) : (q.whereSub run column operator query boolean).Keeps b := by
  refine (within_resolveSub hrun (Boundary.not_hidden_of_not_kept h) hquery).bind
    fun sub hsub => ?_
  refine (keeps_addWhere h hboolean ?_).next fun _ => ?_
  · exact Boundary.allows_append.2
      ⟨Boundary.allows_append.2 ⟨hcolumn, hoperator⟩, Boundary.allows_singleton.2 hsub⟩
  · exact (within_bindings hsub).bind fun _ hvs => keeps_bind h _ hvs

theorem admits_jsonWord (column : Value) {value : Value} (hvalue : b.Admits value) :
    b.Admits (QueryId.jsonWord column value) := by
  unfold QueryId.jsonWord
  split
  · split
    · exact Boundary.allows_nil
    · exact hvalue
  · exact hvalue

/-- A comparison of a column with a value of any kind. -/
private theorem keeps_compared (hrun : b.Runs run) (h : ¬b.kept q) {column boolean : Value}
    {comparison : Comparison} (hcolumn : b.Admits column) (hvalue : b.Admits comparison.value)
    (hboolean : b.Admits boolean) :
    Action.Keeps b (
      if comparison.value.isQueryable then
        q.whereSub run column (.text comparison.operator) comparison.value boolean
      else if comparison.value.isNull then
        q.whereNull column boolean (comparison.operator != "=")
      else do
        let value := QueryId.jsonWord column comparison.value
        q.addWhere boolean (.basic column comparison.operator value)
        q.bindValue .condition value) := by
  split
  · exact keeps_whereSub hrun h hcolumn (Boundary.admits_text _) hvalue hboolean
  · split
    · exact keeps_whereNull h hcolumn hboolean _
    · have hword := admits_jsonWord column hvalue
      have hbody : b.Allows
          (Where.basic column comparison.operator (QueryId.jsonWord column comparison.value)).handles :=
        Boundary.allows_append.2 ⟨hcolumn, hword⟩
      exact (keeps_addWhere h hboolean hbody).next fun _ => keeps_bindValue h _ hword

theorem keeps_whereSingle (hrun : b.Runs run) (h : ¬b.kept q) {column boolean : Value}
    {operator value : Option Value} (hcolumn : b.Admits column)
    (hoperator : ∀ v ∈ operator, b.Admits v) (hvalue : ∀ v ∈ value, b.Admits v)
    (hboolean : b.Admits boolean) : (q.whereSingle run column operator value boolean).Keeps b := by
  unfold QueryId.whereSingle
  split
  · exact keeps_whereNested hrun h column hboolean
  · refine (within_comparison hoperator hvalue).bind fun comparison hcomparison => ?_
    dsimp only
    split
    · refine (within_createSub hrun (Boundary.not_hidden_of_not_kept h) hcolumn).bind
        fun sub hsub => (keeps_bind h .condition hsub).next fun _ => ?_
      refine (within_pure (P := b.Admits)
        (Boundary.admits_raw.2 (Boundary.admits_text _))).bind fun column hcolumn => ?_
      exact keeps_compared hrun h hcolumn hcomparison hboolean
    · refine (within_pure hcolumn).bind fun column hcolumn => ?_
      exact keeps_compared hrun h hcolumn hcomparison hboolean

/-- The operator and the second column of a comparison of columns are among its arguments. -/
theorem keeps_whereColumnSingle (h : ¬b.kept q) {first operator second boolean : Value}
    (hfirst : b.Admits first) (hoperator : b.Admits operator) (hsecond : b.Admits second)
    (hboolean : b.Admits boolean) :
    (q.whereColumnSingle first operator second boolean).Keeps b := by
  have hadd : ∀ compared : String × Value, b.Admits compared.2 → Action.Keeps b (do
      if compared.2.isNull then throw (.argument .secondColumnMissing)
      q.addWhere boolean (.columnPair first compared.1 compared.2)) := by
    intro compared hcompared
    dsimp only
    split
    · exact within_throw _
    · have hbody : b.Allows (Where.columnPair first compared.1 compared.2).handles :=
        Boundary.allows_append.2 ⟨hfirst, hcompared⟩
      exact keeps_addWhere h hboolean hbody
  unfold QueryId.whereColumnSingle
  refine (keeps_addedOperators q).next fun added => ?_
  dsimp only
  split
  · refine (keeps_ofExcept _).next fun known => hadd _ ?_
    split
    · exact hsecond
    · exact hoperator
  · refine (within_pure (P := fun _ => True) trivial).bind fun known _ => hadd _ ?_
    split
    · exact hsecond
    · exact hoperator

/-! ## Lists and maps of conditions -/

theorem admits_conditionArguments {conditions boolean : Value} (hconditions : b.Admits conditions)
    (hboolean : b.Admits boolean) :
    ∀ arguments ∈ QueryId.conditionArguments conditions boolean, ∀ vs, arguments = .ok vs →
      b.AdmitsAll vs := by
  have hitems : ∀ items, b.AdmitsAll items → ∀ arguments ∈ items.map Value.items, ∀ vs,
      arguments = .ok vs → b.AdmitsAll vs := by
    intro items h arguments hmem vs hvs
    obtain ⟨item, hitem, rfl⟩ := List.mem_map.1 hmem
    exact Value.admits_items (h item hitem) hvs
  intro arguments hmem vs hvs
  cases conditions with
  | map entries =>
    obtain ⟨entry, hentry, rfl⟩ := List.mem_map.1 hmem
    cases hvs
    obtain ⟨hkey, hvalue⟩ := Boundary.admits_map.1 hconditions entry hentry
    simp only [Boundary.admitsAll_cons, Boundary.admitsAll_nil, Boundary.admits_text]
    exact ⟨hkey, trivial, hvalue, hboolean, trivial⟩
  | list items => exact hitems items (Boundary.admits_list.1 hconditions) arguments hmem vs hvs
  | tuple items => exact hitems items (Boundary.admits_tuple.1 hconditions) arguments hmem vs hvs
  | _ => cases hmem

theorem admits_getElem? {vs : List Value} (h : b.AdmitsAll vs) (i : Nat) :
    ∀ v ∈ vs[i]?, b.Admits v := fun v hv => h v (List.mem_of_getElem? hv)

theorem admits_getD {v? : Option Value} {default : Value} (h : ∀ v ∈ v?, b.Admits v)
    (hdefault : b.Admits default) : b.Admits (v?.getD default) := by
  cases v? with
  | none => exact hdefault
  | some v => exact h v rfl

theorem keeps_compareSingle (hrun : b.Runs run) (h : ¬b.kept q)
    (kind : QueryId.ComparisonKind) {arguments : List Value} (harguments : b.AdmitsAll arguments) :
    (q.compareSingle run kind arguments).Keeps b := by
  cases arguments with
  | nil => exact within_throw _
  | cons column rest =>
    obtain ⟨hcolumn, hrest⟩ := Boundary.admitsAll_cons.1 harguments
    have hboolean := admits_getD (admits_getElem? hrest 2) (Boundary.admits_text "and")
    unfold QueryId.compareSingle
    dsimp only
    split
    · exact within_throw _
    · cases kind with
      | values =>
        exact keeps_whereSingle hrun h hcolumn (admits_getElem? hrest 0) (admits_getElem? hrest 1)
          hboolean
      | columns =>
        exact keeps_whereColumnSingle h hcolumn
          (admits_getD (admits_getElem? hrest 0) Boundary.admits_null)
          (admits_getD (admits_getElem? hrest 1) Boundary.admits_null) hboolean

theorem keeps_whereGroup (hrun : b.Runs run) (kind : QueryId.ComparisonKind) (fuel : Nat)
    (h : ¬b.kept q) {conditions boolean : Value} (hconditions : b.Admits conditions)
    (hboolean : b.Admits boolean) :
    (QueryId.whereGroup run kind fuel q conditions boolean).Keeps b := by
  induction fuel generalizing q conditions boolean with
  | zero => exact within_throw _
  | succ fuel ih =>
    refine keeps_groupBuiltBy hrun h hboolean fun nested hnested => ?_
    refine keeps_forM fun arguments hmem => ?_
    refine (within_ofExcept (admits_conditionArguments hconditions hboolean arguments hmem)).bind
      fun vs hvs => ?_
    cases vs with
    | nil => exact within_throw _
    | cons column rest =>
      obtain ⟨hcolumn, hrest⟩ := Boundary.admitsAll_cons.1 hvs
      refine (within_now hcolumn).bind fun column hcolumn => ?_
      split
      · exact ih hnested hcolumn
          (admits_getD (admits_getElem? hrest 2) (Boundary.admits_text _))
      · exact keeps_compareSingle hrun hnested kind (Boundary.admitsAll_cons.2 ⟨hcolumn, hrest⟩)

theorem keeps_where (hrun : b.Runs run) (h : ¬b.kept q) {column boolean : Value}
    {operator value : Option Value} (hcolumn : b.Admits column)
    (hoperator : ∀ v ∈ operator, b.Admits v) (hvalue : ∀ v ∈ value, b.Admits v)
    (hboolean : b.Admits boolean) : (q.where run column operator value boolean).Keeps b := by
  refine (within_now hcolumn).bind fun column hcolumn => ?_
  split
  · exact keeps_whereGroup hrun _ _ h hcolumn hboolean
  · exact keeps_whereSingle hrun h hcolumn hoperator hvalue hboolean

theorem keeps_whereColumn (hrun : b.Runs run) (h : ¬b.kept q)
    {first operator second boolean : Value} (hfirst : b.Admits first)
    (hoperator : b.Admits operator) (hsecond : b.Admits second) (hboolean : b.Admits boolean) :
    (q.whereColumn run first operator second boolean).Keeps b := by
  refine (within_now hfirst).bind fun first hfirst => ?_
  split
  · exact keeps_whereGroup hrun _ _ h hfirst hboolean
  · exact keeps_whereColumnSingle h hfirst hoperator hsecond hboolean

theorem keeps_whereNot (hrun : b.Runs run) (h : ¬b.kept q) {column : Value}
    {operator value : Option Value} (hcolumn : b.Admits column)
    (hoperator : ∀ v ∈ operator, b.Admits v) (hvalue : ∀ v ∈ value, b.Admits v)
    (boolean : Value) : (q.whereNot run column operator value boolean).Keeps b := by
  refine (keeps_ofExcept _).next fun word => ?_
  split
  · exact keeps_whereNested hrun h column (Boundary.admits_text _)
  · exact keeps_groupBuiltBy hrun h (Boundary.admits_text _) fun nested hnested =>
      keeps_where hrun hnested hcolumn hoperator hvalue (Boundary.admits_text _)

/-! ## Other conditions -/

theorem keeps_whereRaw (h : ¬b.kept q) {sql bindings boolean : Value} (hsql : b.Admits sql)
    (hbindings : b.Admits bindings) (hboolean : b.Admits boolean) :
    (q.whereRaw sql bindings boolean).Keeps b := by
  have hbody : b.Allows (Where.raw sql).handles := hsql
  refine (keeps_addWhere h hboolean hbody).next fun _ => ?_
  exact (within_itemsOrNone hbindings).bind fun _ hvs => keeps_bind h _ hvs

theorem keeps_whereIn (hrun : b.Runs run) (h : ¬b.kept q) {column values boolean : Value}
    (hcolumn : b.Admits column) (hvalues : b.Admits values) (hboolean : b.Admits boolean)
    (negated : Bool) : (q.whereIn run column values boolean negated).Keeps b := by
  have hadd : ∀ vs, b.AdmitsAll vs → Action.Keeps b (do
      q.addWhere boolean (.among column vs negated)
      q.bindValues .condition vs) := by
    intro vs hvs
    have hbody : b.Allows (Where.among column vs negated).handles :=
      Boundary.allows_append.2 ⟨hcolumn, Boundary.allows_all.2 hvs⟩
    exact (keeps_addWhere h hboolean hbody).next fun _ => keeps_bindValues h _ hvs
  unfold QueryId.whereIn
  dsimp only
  split
  · refine (within_createSub hrun (Boundary.not_hidden_of_not_kept h) hvalues).bind
      fun sub hsub => (keeps_bind h .condition hsub).next fun _ => ?_
    exact hadd _ (Boundary.admitsAll_cons.2 ⟨Boundary.allows_nil, Boundary.admitsAll_nil⟩)
  · exact (within_itemsNow hvalues).bind hadd

theorem keeps_rawInteger (v : Value) : (QueryId.rawInteger v).Keeps b := by
  unfold QueryId.rawInteger
  split
  · exact within_get.bind fun _ _ => within_throw _
  · exact within_get.bind fun _ _ => within_throw _
  · exact keeps_ofExcept _

theorem keeps_whereIntegerIn (h : ¬b.kept q) {column values boolean : Value}
    (hcolumn : b.Admits column) (hvalues : b.Admits values) (hboolean : b.Admits boolean)
    (negated : Bool) : (q.whereIntegerIn column values boolean negated).Keeps b := by
  refine (within_itemsNow hvalues).bind fun vs _ => ?_
  refine (within_mapM fun v _ => keeps_rawInteger v).bind fun integers _ => ?_
  have hbody : b.Allows (Where.amongIntegers column integers negated).handles := hcolumn
  exact keeps_addWhere h hboolean hbody

theorem admits_betweenEnds {values ends : List Value} (hvalues : b.AdmitsAll values)
    (hends : QueryId.betweenEnds values = .ok ends) : b.AdmitsAll ends := by
  unfold QueryId.betweenEnds at hends
  split at hends
  · rename_i first last hfirst hlast
    cases hends
    simp only [Boundary.admitsAll_cons, Boundary.admitsAll_nil]
    exact ⟨hvalues first (List.mem_of_head? hfirst), hvalues last (List.mem_of_getLast? hlast),
      trivial⟩
  · cases hends

theorem keeps_whereBetween (h : ¬b.kept q) {column values boolean : Value}
    (hcolumn : b.Admits column) (hvalues : b.Admits values) (hboolean : b.Admits boolean)
    (negated : Bool) : (q.whereBetween column values boolean negated).Keeps b := by
  refine (within_itemsNow hvalues).bind fun vs hvs => ?_
  refine (within_ofExcept fun _ hends => admits_betweenEnds hvs hends).bind fun ends hends => ?_
  have hbody : b.Allows (Where.between column vs negated).handles :=
    Boundary.allows_append.2 ⟨hcolumn, Boundary.allows_all.2 hvs⟩
  exact (keeps_addWhere h hboolean hbody).next fun _ => keeps_bindValues h _ hends

theorem admits_datePartValue (part : DatePart) {value : Value} (hvalue : b.Admits value) :
    b.Admits (QueryId.datePartValue part value) := by
  unfold QueryId.datePartValue
  split
  · exact Boundary.admits_text _
  · exact Boundary.admits_text _
  · exact Boundary.admits_text _
  · exact hvalue
  · split
    · exact Boundary.admits_text _
    · exact hvalue

theorem within_writtenDatePart (hrun : b.Runs run) (hsealed : ∀ id, b.kept id → b.hidden id)
    (part : DatePart) {value : Value} (hvalue : b.Admits value) :
    (QueryId.writtenDatePart run part value).Within b b.Admits := by
  unfold QueryId.writtenDatePart
  split
  · rename_i sub
    refine within_get.bind fun s _ => ?_
    split
    · refine within_extension hrun (fun hkept => ?_) _ (by simp)
      exact Boundary.admits_ofQuery.1 hvalue (hsealed sub hkept)
    · exact within_pure (admits_datePartValue part hvalue)
  · split
    · exact (within_shown hvalue).bind fun _ hshown =>
        within_pure (admits_datePartValue part hshown)
    · exact within_pure (admits_datePartValue part hvalue)

theorem keeps_whereDatePart (hrun : b.Runs run) (hsealed : ∀ id, b.kept id → b.hidden id)
    (h : ¬b.kept q) (part : DatePart) {column operator boolean : Value} {value : Option Value}
    (hcolumn : b.Admits column) (hoperator : b.Admits operator) (hvalue : ∀ v ∈ value, b.Admits v)
    (hboolean : b.Admits boolean) :
    (q.whereDatePart run part column operator value boolean).Keeps b := by
  have hoperator' : ∀ v ∈ some operator, b.Admits v := fun v hv => Option.some.inj hv ▸ hoperator
  refine (within_comparison hoperator' hvalue).bind fun comparison hcomparison => ?_
  refine (within_writtenDatePart hrun hsealed part hcomparison).bind fun written hwritten => ?_
  have hbody : b.Allows (Where.datePart part column comparison.operator written).handles :=
    Boundary.allows_append.2 ⟨hcolumn, hwritten⟩
  exact (keeps_addWhere h hboolean hbody).next fun _ => keeps_bindValue h _ hwritten

theorem keeps_addWhereExists (h : ¬b.kept q) {query boolean : Value} (hquery : b.Admits query)
    (hboolean : b.Admits boolean) (negated : Bool) :
    (q.addWhereExists query boolean negated).Keeps b := by
  have hbody : b.Allows (Where.exists query.query? negated).handles := by
    intro handle hmem
    obtain ⟨id, hid, rfl⟩ := List.mem_map.1 hmem
    exact Value.not_hidden_of_query? hquery (Option.mem_toList.1 hid)
  refine (keeps_addWhere h hboolean hbody).next fun _ => ?_
  refine (within_needQuery hquery).bind fun sub hsub => ?_
  exact (within_bindings hsub).bind fun _ hvs => keeps_bind h _ hvs

theorem keeps_whereExists (hrun : b.Runs run) (h : ¬b.kept q) {query boolean : Value}
    (hquery : b.Admits query) (hboolean : b.Admits boolean) (negated : Bool) :
    (q.whereExists run query boolean negated).Keeps b :=
  (within_resolveSub hrun (Boundary.not_hidden_of_not_kept h) hquery).bind fun _ hsub =>
    keeps_addWhereExists h (Boundary.admits_ofQuery.2 hsub) hboolean negated

theorem keeps_whereRowValues (h : ¬b.kept q) {columns operator values boolean : Value}
    (hcolumns : b.Admits columns) (hoperator : b.Admits operator) (hvalues : b.Admits values)
    (hboolean : b.Admits boolean) :
    (q.whereRowValues columns operator values boolean).Keeps b := by
  refine (within_itemsNow hcolumns).bind fun cs hcs => ?_
  refine (within_itemsNow hvalues).bind fun vs hvs => ?_
  dsimp only
  split
  · exact within_throw _
  · have hbody : b.Allows (Where.rowValues cs operator vs).handles :=
      Boundary.allows_append.2 ⟨Boundary.allows_append.2 ⟨Boundary.allows_all.2 hcs, hoperator⟩,
        Boundary.allows_all.2 hvs⟩
    exact (keeps_addWhere h hboolean hbody).next fun _ => keeps_bindValues h _ hvs

theorem keeps_whereJsonContains (h : ¬b.kept q) {column value boolean : Value}
    (hcolumn : b.Admits column) (hvalue : b.Admits value) (hboolean : b.Admits boolean)
    (negated : Bool) : (q.whereJsonContains column value boolean negated).Keeps b := by
  have hbody : b.Allows (Where.jsonContains column value negated).handles :=
    Boundary.allows_append.2 ⟨hcolumn, hvalue⟩
  refine (keeps_addWhere h hboolean hbody).next fun _ => ?_
  split
  · exact within_pure trivial
  · refine (keeps_grammarFor q _).next fun _ => within_get.bind fun s _ => ?_
    refine (keeps_ofExcept _).next fun json => ?_
    exact keeps_bind h _ (by simp)

theorem keeps_whereJsonLength (h : ¬b.kept q) {column operator boolean : Value}
    {value : Option Value} (hcolumn : b.Admits column) (hoperator : b.Admits operator)
    (hvalue : ∀ v ∈ value, b.Admits v) (hboolean : b.Admits boolean) :
    (q.whereJsonLength column operator value boolean).Keeps b := by
  have hoperator' : ∀ v ∈ some operator, b.Admits v := fun v hv => Option.some.inj hv ▸ hoperator
  refine (within_comparison hoperator' hvalue).bind fun comparison hcomparison => ?_
  have hbody : b.Allows
      (Where.jsonLength column comparison.operator comparison.value).handles :=
    Boundary.allows_append.2 ⟨hcolumn, hcomparison⟩
  refine (keeps_addWhere h hboolean hbody).next fun _ => ?_
  split
  · exact within_pure trivial
  · exact (keeps_ofExcept _).next fun n => keeps_bind h _ (by simp)

end FluentSql
