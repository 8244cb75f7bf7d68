import FluentSql.Proofs.References
import FluentSql.Proofs.Rejecting.Basic
import FluentSql.Script.QueryMethods

/-!
# Rejected conditions

A call that adds a condition looks at all of its arguments before it changes
its query.  A list of conditions is collected on a query of its own, so that a
condition that is rejected takes the earlier ones of its list with it.

* `Value.isInert` are the values that hold no query and no callback.
* The lemmas below say for each kind of condition that it is added last.  A
  list of conditions is taken apart by `changesLast_whereGroup`, by induction
  on how deeply lists are nested.
-/

namespace FluentSql

/-! ## Values without queries and callbacks -/

namespace Value

mutual

/-- Whether there is no query and no callback in a value, at any depth of lists and maps. -/
def isInert : Value → Bool
  | list items => allInert items
  | tuple items => allInert items
  | map entries => entriesInert entries
  | object (.query _) => false
  | object (.callback _) => false
  | _ => true

/-- Whether there is no query and no callback in the elements of a list. -/
def allInert : List Value → Bool
  | [] => true
  | v :: rest => isInert v && allInert rest

/-- Whether there is no query and no callback in the keys and values of a map. -/
def entriesInert : List (Value × Value) → Bool
  | [] => true
  | (k, v) :: rest => isInert k && isInert v && entriesInert rest

end

theorem allInert_iff {vs : List Value} : allInert vs ↔ ∀ v ∈ vs, v.isInert := by
  induction vs with
  | nil => simp [allInert]
  | cons v vs ih => simp [allInert, ih]

theorem entriesInert_iff {entries : List (Value × Value)} :
    entriesInert entries ↔ ∀ e ∈ entries, e.1.isInert ∧ e.2.isInert := by
  induction entries with
  | nil => simp [entriesInert]
  | cons e entries ih => simp [entriesInert, ih]

theorem isQueryable_of_isInert {v : Value} (h : v.isInert) : v.isQueryable = false := by
  cases v with
  | object handle =>
    cases handle with
    | query _ => exact nomatch h
    | callback _ => exact nomatch h
    | _ => rfl
  | _ => rfl

/-- A value that is neither a query nor a callback can be asked for neither. -/
theorem isQueryable_eq_false {v : Value} :
    v.isQueryable = false ↔ v.isQuery = false ∧ v.isCallable = false :=
  Bool.or_eq_false_iff

theorem isInert_items {v : Value} (h : v.isInert) {vs : List Value} (hvs : v.items = .ok vs) :
    ∀ w ∈ vs, w.isInert := by
  cases v with
  | text s =>
    cases hvs
    intro w hw
    obtain ⟨c, _, rfl⟩ := List.mem_map.1 hw
    rfl
  | bytes bs =>
    cases hvs
    intro w hw
    obtain ⟨b, _, rfl⟩ := List.mem_map.1 hw
    rfl
  | list items =>
    cases hvs
    exact allInert_iff.1 h
  | tuple items =>
    cases hvs
    exact allInert_iff.1 h
  | map entries =>
    cases hvs
    intro w hw
    obtain ⟨entry, hentry, rfl⟩ := List.mem_map.1 hw
    exact (entriesInert_iff.1 h entry hentry).1
  | _ => exact nomatch hvs

/-- A value without queries and callbacks, or the bindings of a query read as a map.  The latter may
hold anything, but only as elements of what their names are compared with. -/
def IsGiven (v : Value) : Prop :=
  v.isInert ∨ ∃ b : Bindings, v = .map b.toEntries

theorem IsGiven.isQueryable {v : Value} (h : v.IsGiven) : v.isQueryable = false := by
  obtain h | ⟨b, rfl⟩ := h
  · exact isQueryable_of_isInert h
  · rfl

end Value

open Value

variable {n : Nat} {run : Runner} {q : QueryId} {column operator value boolean : Value}

/-! ## What is looked at -/

theorem aside_now (h : value.isInert) : value.now.Aside n Value.IsGiven := by
  unfold Value.now
  split
  · rename_i id
    exact aside_get.bind fun s _ => aside_pure (.inr ⟨_, rfl⟩)
  · exact aside_pure (.inl h)

theorem aside_read (q : QueryId) : q.read.Aside n fun _ => True :=
  aside_get.bind fun _ _ => aside_pure trivial

theorem aside_shown (v : Value) : v.shown.Aside n fun _ => True :=
  aside_get.bind fun _ _ => aside_pure trivial

theorem aside_itemsNow (v : Value) : v.itemsNow.Aside n fun _ => True := by
  have hitems : ∀ w : Value, (Action.ofExcept w.items).Aside n fun _ => True := fun w =>
    aside_ofExcept fun _ _ => trivial
  unfold Value.itemsNow Value.now
  split
  · exact (aside_get.bind (Q := fun _ => True) fun _ _ => aside_pure trivial).bind
      fun _ _ => hitems _
  · exact (aside_pure (P := fun _ => True) trivial).bind fun _ _ => hitems _

theorem aside_addedOperators (q : QueryId) : q.addedOperators.Aside n fun _ => True :=
  aside_get.bind fun _ _ => aside_pure trivial

theorem Comparison.check_value {added : Except Failure (List String)} {c : Comparison}
    (h : Comparison.check added operator value = .ok c) : c.value = value := by
  unfold Comparison.check at h
  split at h
  · obtain ⟨known, _, h⟩ := Name.bind_eq_ok h
    split at h
    · exact nomatch h
    · split at h
      · exact nomatch h
      · cases h
        rfl
  · exact nomatch h

/-- The value of a comparison is its second argument, or the first if that stands alone. -/
theorem Comparison.ofArguments_value {added : Except Failure (List String)} {c : Comparison}
    {operator value : Option Value} (h : Comparison.ofArguments added operator value = .ok c) :
    c.value = value.getD (operator.getD .null) := by
  cases value with
  | some value =>
    have hcheck : Comparison.check added (operator.getD (.text "=")) value = .ok c := h
    exact Comparison.check_value hcheck
  | none =>
    have hcheck : Comparison.check added (.text "=") (operator.getD .null) = .ok c := h
    exact Comparison.check_value hcheck

theorem aside_comparison (q : QueryId) (operator value : Option Value) :
    (q.comparison operator value).Aside n fun c => c.value = value.getD (operator.getD .null) := by
  have hread : ∀ read : Option Value,
      value.getD (read.getD .null) = value.getD (operator.getD .null) →
      Action.Aside n (do Action.ofExcept (Comparison.ofArguments (← q.addedOperators) read value))
        fun c => c.value = value.getD (operator.getD .null) := fun _ heq =>
    (aside_addedOperators q).bind fun _ _ =>
      aside_ofExcept fun _ hc => (Comparison.ofArguments_value hc).trans heq
  unfold QueryId.comparison
  split
  · refine Action.Aside.bind (P := fun _ => True) ?_ fun read _ => hread read rfl
    exact (aside_shown _).bind fun _ _ => aside_pure trivial
  · exact (aside_pure (P := (· = operator)) rfl).bind fun read heq => hread read (by rw [heq])

/-! ## What is changed -/

theorem finishes_addWhere (boolean : Value) (body : Where) : (q.addWhere boolean body).Finishes q :=
  finishes_modify _

theorem finishes_bind (group : BindingGroup) (values : List Value) :
    (q.bind group values).Finishes q :=
  finishes_modify _

theorem finishes_bindValue (group : BindingGroup) (value : Value) :
    (q.bindValue group value).Finishes q := by
  unfold QueryId.bindValue
  split
  · exact finishes_pure
  · exact finishes_bind _ _

theorem finishes_whereNull (q : QueryId) (columns boolean : Value) (negated : Bool) :
    (q.whereNull columns boolean negated).Finishes q :=
  finishes_forM fun _ => finishes_addWhere _ _

/-! ## Groups -/

/-- A source that is no query is set last. -/
theorem changesLast_setSource (run : Runner) (table : Value) :
    (q.setSource run table .null).ChangesLast n q := by
  unfold QueryId.setSource
  split
  · exact changesLast_throw _
  · exact (aside_pure (P := fun _ => True) trivial).changesLast fun _ _ =>
      (finishes_modify _).changesLast

theorem aside_forNestedWhere (run : Runner) (q : QueryId) :
    (q.forNestedWhere run).Aside n fun nested => n ≤ nested.index := by
  refine Action.Aside.bind ((aside_read q).bind fun parent _ => aside_create _) ?_
  intro nested hnested
  exact (aside_read q).bind fun _ _ =>
    ((changesLast_setSource run _).aside hnested).bind fun _ _ => aside_pure hnested

theorem changesLast_addNested (q nested : QueryId) (boolean : Value) :
    (q.addNested nested boolean).ChangesLast n q := by
  refine (aside_read nested).changesLast fun group _ => ?_
  split
  · exact finishes_pure.changesLast
  · exact ((finishes_addWhere _ _).next (finishes_bind _ _)).changesLast

/-- A group is collected on a query of its own, and added last. -/
theorem changesLast_groupBuiltBy {build : QueryId → Action Unit}
    (hbuild : ∀ nested, n ≤ nested.index → (build nested).Aside n fun _ => True) :
    (q.groupBuiltBy run boolean build).ChangesLast n q :=
  (aside_forNestedWhere run q).changesLast fun nested hnested =>
    (hbuild nested hnested).changesLast fun _ _ => changesLast_addNested q nested boolean

/-! ## Comparisons -/

theorem changesLast_whereSingle (hcolumn : column.IsGiven) {operator value : Option Value}
    (hoperator : ∀ v ∈ operator, v.isQueryable = false)
    (hvalue : ∀ v ∈ value, v.isQueryable = false) :
    (q.whereSingle run column operator value boolean).ChangesLast n q := by
  obtain ⟨hquery, hcallable⟩ := isQueryable_eq_false.1 hcolumn.isQueryable
  have hcompared : (value.getD (operator.getD .null)).isQueryable = false := by
    cases value with
    | some v => exact hvalue v rfl
    | none =>
      cases operator with
      | some v => exact hoperator v rfl
      | none => rfl
  unfold QueryId.whereSingle
  rw [hcallable, Bool.false_and, if_neg Bool.false_ne_true]
  refine (aside_comparison q operator value).changesLast fun comparison hcomparison => ?_
  dsimp only
  rw [hquery, if_neg Bool.false_ne_true]
  refine (aside_pure (P := (· = column)) rfl).changesLast fun column _ => ?_
  rw [hcomparison, hcompared, if_neg Bool.false_ne_true]
  split
  · exact (finishes_whereNull q _ _ _).changesLast
  · exact ((finishes_addWhere _ _).next (finishes_bindValue _ _)).changesLast

/-- A comparison of columns is added once its second column is known to be there. -/
theorem changesLast_whereColumnSingle (q : QueryId) (first operator second boolean : Value) :
    (q.whereColumnSingle first operator second boolean).ChangesLast n q := by
  have hadd : ∀ compared : String × Value, Action.ChangesLast n q (do
      if compared.2.isNull then throw (.argument .secondColumnMissing)
      q.addWhere boolean (.columnPair first compared.1 compared.2)) := by
    intro compared
    dsimp only
    split
    · exact changesLast_throw _
    · exact (finishes_addWhere _ _).changesLast
  unfold QueryId.whereColumnSingle
  refine (aside_addedOperators q).changesLast fun added _ => ?_
  dsimp only
  split
  · exact (aside_ofExcept (P := fun _ => True) fun _ _ => trivial).changesLast fun _ _ => hadd _
  · exact (aside_pure (P := fun _ => True) trivial).changesLast fun _ _ => hadd _

/-! ## Lists and maps of conditions -/

/-- The first argument of each condition of a list is again without queries and callbacks, and the
next two are neither themselves. -/
theorem isGiven_conditionArguments {conditions : Value} (h : conditions.IsGiven)
    {arguments : Except Failure (List Value)}
    (hmem : arguments ∈ QueryId.conditionArguments conditions boolean) {rest : List Value}
    (heq : arguments = .ok (column :: rest)) :
    column.isInert ∧ ∀ i < 2, ∀ v ∈ rest[i]?, v.isQueryable = false := by
  have hitems : ∀ items : List Value, (∀ item ∈ items, item.isInert) →
      arguments ∈ items.map Value.items →
      column.isInert ∧ ∀ i < 2, ∀ v ∈ rest[i]?, v.isQueryable = false := by
    intro items hinert hmem
    obtain ⟨item, hitem, rfl⟩ := List.mem_map.1 hmem
    obtain ⟨hcolumn, hrest⟩ := List.forall_mem_cons.1 (isInert_items (hinert item hitem) heq)
    exact ⟨hcolumn, fun i _ v hv => isQueryable_of_isInert (hrest v (List.mem_of_getElem? hv))⟩
  have hentry : ∀ key value, key.isInert → value.isQueryable = false →
      arguments = .ok [key, .text "=", value, boolean] →
      column.isInert ∧ ∀ i < 2, ∀ v ∈ rest[i]?, v.isQueryable = false := by
    intro key value hkey hvalue harguments
    rw [harguments] at heq
    cases heq
    refine ⟨hkey, fun i hi v hv => ?_⟩
    match i, hi with
    | 0, _ =>
      cases hv
      rfl
    | 1, _ =>
      cases hv
      exact hvalue
  obtain h | ⟨b, rfl⟩ := h
  · cases conditions with
    | map entries =>
      obtain ⟨entry, hentry', harguments⟩ := List.mem_map.1 hmem
      obtain ⟨hkey, hvalue⟩ := entriesInert_iff.1 h entry hentry'
      exact hentry _ _ hkey (isQueryable_of_isInert hvalue) harguments.symm
    | list items => exact hitems items (allInert_iff.1 h) hmem
    | tuple items => exact hitems items (allInert_iff.1 h) hmem
    | _ => exact nomatch hmem
  · obtain ⟨entry, hentry', harguments⟩ := List.mem_map.1 hmem
    obtain ⟨group, _, rfl⟩ := List.mem_map.1 hentry'
    exact hentry _ _ rfl rfl harguments.symm

theorem changesLast_compareSingle (kind : QueryId.ComparisonKind) {rest : List Value}
    (hcolumn : column.IsGiven) (hrest : ∀ i < 2, ∀ v ∈ rest[i]?, v.isQueryable = false) :
    (q.compareSingle run kind (column :: rest)).ChangesLast n q := by
  unfold QueryId.compareSingle
  dsimp only
  split
  · exact changesLast_throw _
  · cases kind with
    | values =>
      exact changesLast_whereSingle hcolumn (hrest 0 (by decide)) (hrest 1 (by decide))
    | columns => exact changesLast_whereColumnSingle _ _ _ _ _

/-- A list of conditions is added last.  All that is done before is done on the query on which the
group is collected, whose own lists are added to it in the same way. -/
theorem changesLast_whereGroup (kind : QueryId.ComparisonKind) (fuel : Nat) {conditions : Value}
    (h : conditions.IsGiven) :
    (QueryId.whereGroup run kind fuel q conditions boolean).ChangesLast n q := by
  induction fuel generalizing q conditions boolean with
  | zero => exact changesLast_throw _
  | succ fuel ih =>
    refine changesLast_groupBuiltBy fun nested hnested => aside_forM fun arguments hmem => ?_
    refine (aside_ofExcept (P := fun vs => arguments = .ok vs) fun _ hvs => hvs).bind
      fun vs hvs => ?_
    cases vs with
    | nil => exact aside_throw _
    | cons column rest =>
      obtain ⟨hcolumn, hrest⟩ := isGiven_conditionArguments h hmem hvs
      refine (aside_now hcolumn).bind fun column hcolumn => ?_
      split
      · exact (ih hcolumn).aside hnested
      · exact (changesLast_compareSingle kind hcolumn hrest).aside hnested

theorem changesLast_where (hcolumn : column.isInert) {operator value : Option Value}
    (hoperator : ∀ v ∈ operator, v.isInert) (hvalue : ∀ v ∈ value, v.isInert) :
    (q.where run column operator value boolean).ChangesLast n q := by
  refine (aside_now hcolumn).changesLast fun column hcolumn => ?_
  split
  · exact changesLast_whereGroup _ _ hcolumn
  · exact changesLast_whereSingle hcolumn (fun v hv => isQueryable_of_isInert (hoperator v hv))
      fun v hv => isQueryable_of_isInert (hvalue v hv)

theorem changesLast_whereColumn {first second : Value} (hfirst : first.isInert) :
    (q.whereColumn run first operator second boolean).ChangesLast n q := by
  refine (aside_now hfirst).changesLast fun first hfirst => ?_
  split
  · exact changesLast_whereGroup _ _ hfirst
  · exact changesLast_whereColumnSingle _ _ _ _ _

theorem changesLast_whereNot (hcolumn : column.isInert) {operator value : Option Value}
    (hoperator : ∀ v ∈ operator, v.isInert) (hvalue : ∀ v ∈ value, v.isInert) :
    (q.whereNot run column operator value boolean).ChangesLast n q := by
  refine (aside_ofExcept (P := fun _ => True) fun _ _ => trivial).changesLast fun word _ => ?_
  rw [(isQueryable_eq_false.1 (isQueryable_of_isInert hcolumn)).2, if_neg Bool.false_ne_true]
  exact changesLast_groupBuiltBy fun nested hnested =>
    (changesLast_where hcolumn hoperator hvalue).aside hnested

/-! ## Other conditions -/

theorem changesLast_whereIn {values : Value} (hvalues : values.isInert) (negated : Bool) :
    (q.whereIn run column values boolean negated).ChangesLast n q := by
  unfold QueryId.whereIn
  rw [isQueryable_of_isInert hvalues, if_neg Bool.false_ne_true]
  exact (aside_itemsNow values).changesLast fun _ _ =>
    ((finishes_addWhere _ _).next (finishes_bind _ _)).changesLast

theorem aside_rawInteger (v : Value) : (QueryId.rawInteger v).Aside n fun _ => True := by
  unfold QueryId.rawInteger
  split
  · exact (aside_shown v).bind fun _ _ => aside_throw _
  · exact (aside_shown v).bind fun _ _ => aside_throw _
  · exact aside_ofExcept fun _ _ => trivial

theorem changesLast_whereIntegerIn (q : QueryId) (column values boolean : Value) (negated : Bool) :
    (q.whereIntegerIn column values boolean negated).ChangesLast n q :=
  (aside_itemsNow values).changesLast fun _ _ => (aside_mapM aside_rawInteger).changesLast
    fun _ _ => (finishes_addWhere _ _).changesLast

theorem changesLast_whereBetween (q : QueryId) (column values boolean : Value) (negated : Bool) :
    (q.whereBetween column values boolean negated).ChangesLast n q :=
  (aside_itemsNow values).changesLast fun _ _ =>
    (aside_ofExcept (P := fun _ => True) fun _ _ => trivial).changesLast fun _ _ =>
      ((finishes_addWhere _ _).next (finishes_bind _ _)).changesLast

/-- Only a query is asked how a part of a date is written. -/
theorem aside_writtenDatePart (part : DatePart) (h : value.isQueryable = false) :
    (QueryId.writtenDatePart run part value).Aside n fun _ => True := by
  unfold QueryId.writtenDatePart
  split
  · exact nomatch h
  · split
    · exact (aside_shown _).bind fun _ _ => aside_pure trivial
    · exact aside_pure trivial

theorem changesLast_whereDatePart (part : DatePart) {value : Option Value}
    (hoperator : operator.isInert) (hvalue : ∀ v ∈ value, v.isInert) :
    (q.whereDatePart run part column operator value boolean).ChangesLast n q := by
  refine (aside_comparison q (some operator) value).changesLast fun comparison hcomparison => ?_
  have hcompared : comparison.value.isQueryable = false := by
    rw [hcomparison]
    cases value with
    | some v => exact isQueryable_of_isInert (hvalue v rfl)
    | none => exact isQueryable_of_isInert hoperator
  exact (aside_writtenDatePart part hcompared).changesLast fun _ _ =>
    ((finishes_addWhere _ _).next (finishes_bindValue _ _)).changesLast

theorem changesLast_whereRowValues (q : QueryId) (columns operator values boolean : Value) :
    (q.whereRowValues columns operator values boolean).ChangesLast n q := by
  refine (aside_itemsNow columns).changesLast fun _ _ =>
    (aside_itemsNow values).changesLast fun _ _ => ?_
  dsimp only
  split
  · exact changesLast_throw _
  · exact ((finishes_addWhere _ _).next (finishes_bind _ _)).changesLast

theorem changesLast_having (q : QueryId) (column : Value) (operator value : Option Value)
    (boolean : Value) : (q.having column operator value boolean).ChangesLast n q :=
  (aside_comparison q operator value).changesLast fun _ _ =>
    ((finishes_modify _).next (finishes_bindValue _ _)).changesLast

theorem changesLast_havingBetween (q : QueryId) (column values boolean : Value) (negated : Bool) :
    (q.havingBetween column values boolean negated).ChangesLast n q :=
  (aside_itemsNow values).changesLast fun _ _ =>
    (aside_ofExcept (P := fun _ => True) fun _ _ => trivial).changesLast fun _ _ =>
      ((finishes_modify _).next (finishes_bind _ _)).changesLast

end FluentSql
