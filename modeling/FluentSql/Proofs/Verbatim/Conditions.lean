import FluentSql.Proofs.Building.Call
import FluentSql.Proofs.Operators.Columns
import FluentSql.Proofs.Verbatim.Statements

/-!
# Fragments in conditions

A call that adds a condition looks at its arguments one by one.  A fragment of SQL
among them is neither compared nor bound: it is left in the condition as it was
given, and only the other arguments are bound.

* `ConditionGap.call` is the call that puts a value into a gap of a condition.
* `ConditionGap.Fits` is what the other arguments must be, and
  `ConditionGap.Accepted` says that the call is not rejected.
* `ConditionGap.ran_call` is all that the call does with a fragment.
* `GroupGap.ran_call` is the same for conditions on groups.
-/

namespace FluentSql

/-! ## Conditions -/

namespace ConditionGap

/-- The call that adds a condition, with an argument in the place of the missing one. -/
def call (v boolean : Value) : ConditionGap → FluentCall
  | comparedColumn operator value => .where v (some (.text operator)) (some value) boolean
  | comparedValue column operator => .where column (some (.text operator)) (some v) boolean
  | amongColumn first others negated => .whereIn v (.list (first :: others)) boolean negated
  | amongValue column before after negated =>
    .whereIn column (.list (before ++ v :: after)) boolean negated
  | integersColumn first others negated =>
    .whereIntegerIn v (.list ((first :: others).map .int)) boolean negated
  | nullColumn negated => .whereNull v boolean negated
  | betweenColumn values negated => .whereBetween v (.list values) boolean negated
  | lowValue column others high negated =>
    .whereBetween column (.list (v :: others ++ [high])) boolean negated
  | highValue column low others negated =>
    .whereBetween column (.list (low :: others ++ [v])) boolean negated
  | dateColumn part operator value =>
    .whereDatePart part v (.text operator) (some value) boolean
  | dateValue part column operator =>
    .whereDatePart part column (.text operator) (some v) boolean
  | firstColumn operator second => .whereColumn v (.text operator) second boolean
  | secondColumn first operator => .whereColumn first (.text operator) v boolean
  | subColumn operator query => .whereSub v operator (.ofQuery query) boolean
  | rowColumn before after operator values =>
    .whereRowValues (.list (before ++ v :: after)) operator (.list values) boolean
  | rowValue columns operator before after =>
    .whereRowValues (.list columns) operator (.list (before ++ v :: after)) boolean
  | documentValue column negated => .whereJsonContains column v boolean negated
  | lengthValue column operator => .whereJsonLength column (.text operator) (some v) boolean

/-- The condition with its operator in lower case. -/
def lowered : ConditionGap → ConditionGap
  | comparedColumn operator value => comparedColumn (Text.lower operator) value
  | comparedValue column operator => comparedValue column (Text.lower operator)
  | dateColumn part operator value =>
    dateColumn part (Text.lower operator) (QueryId.datePartValue part value)
  | dateValue part column operator => dateValue part column (Text.lower operator)
  | firstColumn operator second => firstColumn (Text.lower operator) second
  | secondColumn first operator => secondColumn first (Text.lower operator)
  | lengthValue column operator => lengthValue column (Text.lower operator)
  | gap => gap

/-- The values that the call binds for its other arguments. -/
def bound (s : Store) : ConditionGap → List Value
  | comparedColumn _ value => Grammar.boundValues [value]
  | amongColumn first others _ => Grammar.boundValues (first :: others)
  | amongValue _ before after _ | rowValue _ _ before after => Grammar.boundValues (before ++ after)
  | betweenColumn values _ =>
    Grammar.boundValues (values.head?.toList ++ values.getLast?.toList)
  | lowValue _ _ high _ => Grammar.boundValues [high]
  | highValue _ low _ _ => Grammar.boundValues [low]
  | dateColumn part _ value => Grammar.boundValues [QueryId.datePartValue part value]
  | subColumn _ query => (s.query query).bindings.flatten
  | rowColumn _ _ _ values => Grammar.boundValues values
  | _ => []

/-- The other arguments of the call are data, one by one, and an operator between two columns is one
that the query knows. -/
def Fits (s : Store) (t : QueryId) : ConditionGap → Prop
  | comparedColumn _ value => value.handles = [] ∧ value.isNull = false
  | comparedValue column _ => column.handles = [] ∧ QueryId.isConditionList column = false
  | amongColumn first others _ => ∀ v ∈ first :: others, v.handles = []
  | amongValue _ before after _ => ∀ v ∈ before ++ after, v.handles = []
  | betweenColumn values _ => values ≠ [] ∧ ∀ v ∈ values, v.handles = []
  | lowValue _ others high _ => ∀ v ∈ high :: others, v.handles = []
  | highValue _ low others _ => ∀ v ∈ low :: others, v.handles = []
  | dateColumn _ _ value => value.handles = [] ∧ value.isNull = false
  | firstColumn operator second => s.isOperator t operator = .ok true ∧ second.isNull = false
  | secondColumn first operator => s.isOperator t operator = .ok true ∧ first.isColumn = true
  | rowColumn before after _ values => ∀ v ∈ before ++ after ++ values, v.handles = []
  | rowValue columns _ before after => ∀ v ∈ columns ++ before ++ after, v.handles = []
  | _ => True

/-- The call is not rejected: the query knows the operator, and rows are equally long. -/
def Accepted (s : Store) (t : QueryId) : ConditionGap → Prop
  | comparedColumn operator _ | comparedValue _ operator | dateColumn _ operator _
  | dateValue _ _ operator | lengthValue _ operator => s.isOperator t operator = .ok true
  | rowColumn before after _ values => (before ++ after).length + 1 = values.length
  | rowValue columns _ before after => columns.length = (before ++ after).length + 1
  | _ => True

end ConditionGap

section

variable {run : Runner} {t : QueryId} {s s' : Store} {text operator : String} {boolean v : Value}

/-! ## What the calls do -/

/-- A comparison with a value that is not absent keeps the value, if the query knows the
operator. -/
theorem ran_comparison {c : Comparison} (hnull : v.isNull = false) :
    Ran (t.comparison (some (.text operator)) (some v)) s c s' ↔
      s.isOperator t operator = .ok true ∧ c = ⟨Text.lower operator, v⟩ ∧ s' = s := by
  have hcheck : Comparison.check (s.operatorsOf (s.query t).grammar) (.text operator) v = .ok c ↔
      s.isOperator t operator = .ok true ∧ c = ⟨Text.lower operator, v⟩ := by
    unfold Comparison.check
    show (s.isOperator t operator >>= _) = _ ↔ _
    cases s.isOperator t operator with
    | error e => exact ⟨fun h => (nomatch h), fun h => (nomatch h.1)⟩
    | ok known =>
      cases known with
      | false => exact ⟨fun h => (nomatch h), fun h => (nomatch h.1)⟩
      | true =>
        simp only [hnull, bind, Except.bind]
        exact ⟨fun h => ⟨trivial, (Except.ok.inj h).symm⟩, fun h => congrArg Except.ok h.2.symm⟩
  have hshown : s.shown (.text operator) = .text operator := Store.shown_data s rfl
  unfold QueryId.comparison QueryId.addedOperators Comparison.ofArguments
  simp only [ran_bind, ran_map, ran_shown, ran_get, ran_pure, ran_ofExcept, hshown, and_assoc,
    exists_and_left, exists_eq_left, Option.getD_some, hcheck]

/-- A query is changed and gets values. -/
theorem ran_modifyBound {f : Query → Query} {group : BindingGroup} {vs : List Value} {u : Unit} :
    Ran (t.modify f >>= fun _ => t.bindValues group vs) s u s' ↔
      s' = s.edit t fun q => (f q).bind group (Grammar.boundValues vs) := by
  unfold QueryId.bindValues QueryId.bind
  simp only [ran_bind, ran_modify, exists_const, exists_eq_left, Store.edit_edit]
  rfl

/-- A query is changed and gets a value. -/
theorem ran_modifyBoundOne {f : Query → Query} {group : BindingGroup} {u : Unit} :
    Ran (t.modify f >>= fun _ => t.bindValue group v) s u s' ↔
      s' = s.edit t fun q => (f q).bind group (Grammar.boundValues [v]) := by
  have hone : ∀ s1, Ran (t.bindValue group v) s1 u s' ↔ Ran (t.bindValues group [v]) s1 u s' := by
    intro s1
    rw [ran_bindValue, ran_bindValues, List.map_singleton, List.flatten_singleton]
  rw [← ran_modifyBound (u := u)]
  simp only [ran_bind, hone]

/-- A query is changed and gets no value. -/
theorem ran_modifyAlone {f : Query → Query} {group : BindingGroup} {u : Unit} :
    Ran (t.modify f) s u s' ↔ s' = s.edit t fun q => (f q).bind group [] := by
  have hsame : (fun q : Query => (f q).bind group []) = f := funext fun q => Query.bind_nil _ _
  rw [hsame]
  exact ran_modify

theorem boundValues_around (before after : List Value) :
    Grammar.boundValues (before ++ fragment text :: after) =
      Grammar.boundValues (before ++ after) := by
  unfold Grammar.boundValues
  rw [List.filter_append, List.filter_append]
  rfl

theorem boundValues_last (low : Value) :
    Grammar.boundValues [low, fragment text] = Grammar.boundValues [low] :=
  boundValues_around [low] []

theorem ran_itemsNow_list {vs ws : List Value} (h : ∀ v ∈ vs, v.handles = []) :
    Ran (Value.list vs).itemsNow s ws s' ↔ ws = vs ∧ s' = s := by
  have hdata : (Value.list vs).handles = [] := Value.handlesOfAll_eq_nil.2 h
  rw [ran_itemsNow hdata]
  exact and_congr_left'
    ⟨fun heq => (Except.ok.inj heq).symm, fun heq => congrArg Except.ok heq.symm⟩

theorem data_around {before after : List Value} (h : ∀ v ∈ before ++ after, v.handles = []) :
    ∀ v ∈ before ++ fragment text :: after, v.handles = [] := by
  intro v hv
  rcases List.mem_append.1 hv with hv | hv
  · exact h v (List.mem_append_left _ hv)
  · rcases List.mem_cons.1 hv with rfl | hv
    · rfl
    · exact h v (List.mem_append_right _ hv)

/-- Values are read before the condition is added. -/
theorem ran_readBound {vs : List Value} (hdata : ∀ v ∈ vs, v.handles = [])
    {k : List Value → Action Unit} {u : Unit} :
    Ran ((Value.list vs).itemsNow >>= k) s u s' ↔ Ran (k vs) s u s' := by
  simp only [ran_bind, ran_itemsNow_list hdata, and_assoc, exists_and_left, exists_eq_left]

/-- What stands at the two ends of some values. -/
theorem exists_ends {values : List Value} (hne : values ≠ []) :
    ∃ first last, values.head? = some first ∧ values.getLast? = some last ∧
      Grammar.boundValues (values.head?.toList ++ values.getLast?.toList) =
        Grammar.boundValues [first, last] := by
  obtain ⟨first, rest, rfl⟩ := List.exists_cons_of_ne_nil hne
  have hlast := List.getLast?_eq_some_getLast (List.cons_ne_nil first rest)
  exact ⟨first, _, rfl, hlast, by rw [hlast]; rfl⟩

theorem data_low {others : List Value} {high : Value} (h : ∀ v ∈ high :: others, v.handles = []) :
    ∀ v ∈ fragment text :: others ++ [high], v.handles = [] := by
  simp only [List.mem_append, List.mem_cons, List.not_mem_nil, or_false]
  rintro v ((rfl | hv) | rfl)
  · rfl
  · exact h v (List.mem_cons_of_mem _ hv)
  · exact h v List.mem_cons_self

theorem data_high {low : Value} {others : List Value} (h : ∀ v ∈ low :: others, v.handles = []) :
    ∀ v ∈ low :: others ++ [fragment text], v.handles = [] := by
  intro v hv
  rcases List.mem_append.1 hv with hv | hv
  · exact h v hv
  · rw [List.mem_singleton.1 hv]
    rfl

theorem ran_where {column value : Value} (hcolumn : column.handles = [])
    (hlist : QueryId.isConditionList column = false) (hvalue : value.handles = [])
    (hnull : value.isNull = false) {u : Unit} :
    Ran (t.where run column (some (.text operator)) (some value) boolean) s u s' ↔
      s.isOperator t operator = .ok true ∧ s' = s.edit t fun q =>
        (q.addWhere boolean
          (.basic column (Text.lower operator) (QueryId.jsonWord column value))).bind .condition
          (Grammar.boundValues [QueryId.jsonWord column value]) := by
  have hquery : column.isQuery = false := by
    cases column <;> first | rfl | exact nomatch hcolumn
  have hqueryable : ∀ operator, (⟨operator, value⟩ : Comparison).value.isQueryable = false :=
    fun _ => Value.isQueryable_data hvalue
  have hcompare : Ran (t.compareWith run column ⟨Text.lower operator, value⟩ boolean) s u s' ↔
      s' = s.edit t fun q =>
        (q.addWhere boolean
          (.basic column (Text.lower operator) (QueryId.jsonWord column value))).bind .condition
          (Grammar.boundValues [QueryId.jsonWord column value]) := by
    unfold QueryId.compareWith
    rw [if_neg (by rw [hqueryable]; exact Bool.false_ne_true),
      if_neg (show ¬value.isNull = true by rw [hnull]; exact Bool.false_ne_true)]
    exact ran_modifyBoundOne
  have hcall : t.where run column (some (.text operator)) (some value) boolean =
      t.whereSingle run column (some (.text operator)) (some value) boolean := by
    have hnow : column.now = pure column := by
      cases column with
      | object handle => exact nomatch hcolumn
      | _ => rfl
    unfold QueryId.where
    rw [hnow, pure_bind, if_neg (by rw [hlist]; exact Bool.false_ne_true)]
  have hsingle : t.whereSingle run column (some (.text operator)) (some value) boolean =
      (t.comparison (some (.text operator)) (some value) >>= fun c =>
        t.compareWith run column c boolean) := by
    unfold QueryId.whereSingle
    rw [Value.isCallable_data hcolumn, hquery]
    rfl
  rw [hcall, hsingle]
  simp only [ran_bind, ran_comparison hnull, and_assoc, exists_and_left, exists_eq_left, hcompare]

theorem ran_between {column : Value} {values : List Value} {negated : Bool} {first last : Value}
    (hdata : ∀ v ∈ values, v.handles = []) (hfirst : values.head? = some first)
    (hlast : values.getLast? = some last) {u : Unit} :
    Ran (t.whereBetween column (.list values) boolean negated) s u s' ↔ s' = s.edit t fun q =>
      (q.addWhere boolean (.between column values negated)).bind .condition
        (Grammar.boundValues [first, last]) := by
  have hends : QueryId.betweenEnds values = .ok [first, last] := by
    unfold QueryId.betweenEnds
    rw [hfirst, hlast]
  unfold QueryId.whereBetween
  rw [ran_readBound hdata, hends]
  exact ran_modifyBound

theorem ran_datePart {part : DatePart} {column value : Value} (hvalue : value.handles = [])
    (hnull : value.isNull = false) {u : Unit} :
    Ran (t.whereDatePart run part column (.text operator) (some value) boolean) s u s' ↔
      s.isOperator t operator = .ok true ∧ s' = s.edit t fun q =>
        (q.addWhere boolean (.datePart part column (Text.lower operator)
          (QueryId.datePartValue part value))).bind .condition
            (Grammar.boundValues [QueryId.datePartValue part value]) := by
  have hwritten : ∀ w s1, Ran (QueryId.writtenDatePart run part value) s w s1 ↔
      w = QueryId.datePartValue part value ∧ s1 = s := by
    intro w s1
    refine ⟨writtenDatePart_ran hvalue, ?_⟩
    rintro ⟨rfl, rfl⟩
    have hsplit : QueryId.writtenDatePart run part value = if part = .day ∨ part = .month then
        do return QueryId.datePartValue part (← value.shown)
        else return QueryId.datePartValue part value := by
      cases value with
      | object handle => exact nomatch hvalue
      | _ => rfl
    rw [hsplit]
    split
    · simp only [ran_bind, ran_shown, ran_pure, and_assoc, exists_and_left, exists_eq_left]
      rw [Store.shown_data _ hvalue]
      exact ⟨rfl, trivial⟩
    · exact ran_pure.2 ⟨rfl, rfl⟩
  unfold QueryId.whereDatePart
  simp only [ran_bind, ran_comparison hnull, and_assoc, exists_and_left, exists_eq_left, hwritten]
  refine and_congr_right fun _ => ?_
  rw [← ran_modifyBoundOne (u := u)]
  simp only [ran_bind]
  rfl

theorem ran_whereColumn {first second : Value} (hfirst : first.isColumn = true)
    (hknown : s.isOperator t operator = .ok true) (hsecond : second.isNull = false) {u : Unit} :
    Ran (t.whereColumn run first (.text operator) second boolean) s u s' ↔ s' = s.edit t fun q =>
      (q.addWhere boolean (.columnPair first (Text.lower operator) second)).bind .condition [] := by
  have hrun : (t.whereColumn run first (.text operator) second boolean).runOn s = _ :=
    ColumnCall.whereColumn_runOn hfirst t (.text operator) second boolean s
  rw [Store.columnPair_known hknown hsecond] at hrun
  rw [← ran_modifyAlone (u := u)]
  show (t.whereColumn run first (.text operator) second boolean).runOn s = (.ok u, s') ↔ _
  rw [hrun]
  rfl

theorem ran_rowValues {columns values : List Value} {word : Value}
    (hcolumns : ∀ v ∈ columns, v.handles = []) (hvalues : ∀ v ∈ values, v.handles = []) {u : Unit} :
    Ran (t.whereRowValues (.list columns) word (.list values) boolean) s u s' ↔
      columns.length = values.length ∧ s' = s.edit t fun q =>
        (q.addWhere boolean (.rowValues columns word values)).bind .condition
          (Grammar.boundValues values) := by
  unfold QueryId.whereRowValues
  rw [ran_readBound hcolumns, ran_readBound hvalues]
  by_cases hlength : columns.length = values.length
  · rw [if_neg (not_not_intro hlength)]
    exact ran_modifyBound.trans (and_iff_right hlength).symm
  · rw [if_pos hlength]
    exact ⟨fun h => absurd h ran_throw, fun h => absurd h.1 hlength⟩

/-- A new condition changes the bindings of no query. -/
theorem bindings_addWhere (id : QueryId) (body : Where) :
    ((s.edit t (·.addWhere boolean body)).query id).bindings = (s.query id).bindings := by
  by_cases hsame : id = t
  · subst hsame
    by_cases hlt : id.index < s.queries.size
    · rw [Store.query_edit_self hlt]
      rfl
    · rw [Store.query_of_le (Nat.le_of_not_lt hlt),
        Store.query_of_le (Nat.le_of_not_lt (by rwa [Store.size_edit]))]
  · rw [Store.query_edit_of_ne hsame]

namespace ConditionGap

/-- A call with a fragment adds the condition with the fragment in its place, and binds the values
of its other arguments. -/
theorem ran_call (gap : ConditionGap) (hfits : gap.Fits s t) {u : Unit} :
    Ran ((gap.call (fragment text) boolean).perform run t) s u s' ↔
      gap.Accepted s t ∧ s' = s.edit t fun q =>
        (q.addWhere boolean (gap.lowered.fill (fragment text))).bind .condition (gap.bound s) := by
  cases gap with
  | comparedColumn operator value => exact ran_where rfl rfl hfits.1 hfits.2
  | comparedValue column operator =>
    have hword : QueryId.jsonWord column (fragment text) = fragment text := by
      cases column <;> rfl
    refine (ran_where hfits.1 hfits.2 rfl rfl).trans ?_
    rw [hword]
    rfl
  | amongColumn first others negated =>
    refine (ran_readBound hfits).trans ?_
    exact ran_modifyBound.trans (and_iff_right trivial).symm
  | amongValue column before after negated =>
    refine (ran_readBound (data_around hfits)).trans ?_
    refine ran_modifyBound.trans ?_
    rw [boundValues_around]
    exact (and_iff_right trivial).symm
  | integersColumn first others negated =>
    have hintegers : ∀ (is integers : List Int) (s1 : Store),
        Ran ((is.map Value.int).mapM QueryId.rawInteger) s integers s1 ↔
          integers = is ∧ s1 = s := by
      intro is
      induction is with
      | nil => exact fun _ _ => ran_pure
      | cons i is ih =>
        intro integers s1
        have hone : QueryId.rawInteger (.int i) = pure i := rfl
        simp only [List.map_cons, List.mapM_cons, hone, pure_bind, ran_bind, ih, ran_pure,
          and_assoc, exists_and_left, exists_eq_left]
    have hread : Ran (t.whereIntegerIn (fragment text) (.list ((first :: others).map .int)) boolean
        negated) s u s' ↔ Ran (t.addWhere boolean
          (.amongIntegers (fragment text) (first :: others) negated)) s u s' := by
      unfold QueryId.whereIntegerIn
      rw [ran_readBound fun v hv => by obtain ⟨i, _, rfl⟩ := List.mem_map.1 hv; rfl, ran_bind]
      simp only [hintegers, and_assoc, exists_and_left, exists_eq_left]
    exact hread.trans (ran_modifyAlone.trans (and_iff_right trivial).symm)
  | nullColumn negated =>
    have hcall : t.whereNull (fragment text) boolean negated =
        (t.addWhere boolean (.null (fragment text) negated) >>= fun _ => pure ()) := rfl
    show Ran (t.whereNull (fragment text) boolean negated) s u s' ↔ _
    rw [hcall, bind_pure_unit]
    exact ran_modifyAlone.trans (and_iff_right trivial).symm
  | betweenColumn values negated =>
    obtain ⟨first, last, hfirst, hlast, hbound⟩ := exists_ends hfits.1
    have hvalues : (betweenColumn values negated).bound s = Grammar.boundValues [first, last] :=
      hbound
    rw [hvalues]
    exact (ran_between hfits.2 hfirst hlast).trans (and_iff_right trivial).symm
  | lowValue column others high negated =>
    exact (ran_between (data_low hfits) rfl List.getLast?_concat).trans (and_iff_right trivial).symm
  | highValue column low others negated =>
    refine (ran_between (data_high hfits) rfl List.getLast?_concat).trans ?_
    rw [boundValues_last]
    exact (and_iff_right trivial).symm
  | dateColumn part operator value => exact ran_datePart hfits.1 hfits.2
  | dateValue part column operator => exact ran_datePart rfl rfl
  | firstColumn operator second =>
    exact (ran_whereColumn rfl hfits.1 hfits.2).trans (and_iff_right trivial).symm
  | secondColumn first operator =>
    exact (ran_whereColumn hfits.2 hfits.1 rfl).trans (and_iff_right trivial).symm
  | subColumn operator query =>
    have hcall : t.whereSub run (fragment text) operator (.ofQuery query) boolean =
        (t.addWhere boolean (.sub (fragment text) operator query) >>= fun _ =>
          query.bindings >>= fun values => t.bind .condition values) := rfl
    refine Iff.trans ?_ (and_iff_right trivial).symm
    show Ran (t.whereSub run (fragment text) operator (.ofQuery query) boolean) s u s' ↔ _
    rw [hcall]
    unfold QueryId.addWhere QueryId.bindings QueryId.bind
    simp only [ran_bind, ran_modify, ran_read, ran_pure, and_assoc, exists_and_left, exists_eq_left,
      exists_const, bindings_addWhere, Store.edit_edit]
    rfl
  | rowColumn before after operator values =>
    have hlength : (before ++ fragment text :: after).length = (before ++ after).length + 1 := by
      simp only [List.length_append, List.length_cons]
      omega
    refine (ran_rowValues (data_around fun v hv => hfits v (List.mem_append_left _ hv))
      fun v hv => hfits v (List.mem_append_right _ hv)).trans ?_
    rw [hlength]
    rfl
  | rowValue columns operator before after =>
    have hlength : (before ++ fragment text :: after).length = (before ++ after).length + 1 := by
      simp only [List.length_append, List.length_cons]
      omega
    have hvalues : ∀ v ∈ before ++ after, v.handles = [] := fun v hv =>
      hfits v (by rw [List.append_assoc]; exact List.mem_append_right _ hv)
    refine (ran_rowValues (fun v hv => hfits v (List.mem_append_left _ (List.mem_append_left _ hv)))
      (data_around hvalues)).trans ?_
    rw [hlength, boundValues_around]
    rfl
  | documentValue column negated =>
    have hcall : t.whereJsonContains column (fragment text) boolean negated =
        (t.addWhere boolean (.jsonContains column (fragment text) negated) >>= fun _ =>
          pure ()) := rfl
    show Ran (t.whereJsonContains column (fragment text) boolean negated) s u s' ↔ _
    rw [hcall, bind_pure_unit]
    exact ran_modifyAlone.trans (and_iff_right trivial).symm
  | lengthValue column operator =>
    have hcall : t.whereJsonLength column (.text operator) (some (fragment text)) boolean =
        (t.comparison (some (.text operator)) (some (fragment text)) >>= fun c =>
          t.addWhere boolean (.jsonLength column c.operator c.value) >>= fun _ =>
            if c.value.isRaw then pure ()
            else Action.ofExcept c.value.toInt >>= fun n => t.bind .condition [.int n]) := rfl
    show Ran (t.whereJsonLength column (.text operator) (some (fragment text)) boolean) s u s' ↔ _
    rw [hcall, ran_bind]
    simp only [ran_comparison (v := fragment text) rfl, and_assoc, exists_and_left, exists_eq_left]
    refine and_congr_right fun _ => ?_
    show Ran (t.addWhere boolean _ >>= fun _ => pure ()) s u s' ↔ _
    rw [bind_pure_unit]
    exact ran_modifyAlone

end ConditionGap

/-! ## Conditions on groups -/

theorem ran_having {column value : Value} (hnull : value.isNull = false) {u : Unit} :
    Ran (t.having column (some (.text operator)) (some value) boolean) s u s' ↔
      s.isOperator t operator = .ok true ∧ s' = s.edit t fun q =>
        (q.addHaving boolean (.basic column (Text.lower operator) value)).bind .having
          (Grammar.boundValues [value]) := by
  unfold QueryId.having
  simp only [ran_bind, ran_comparison hnull, and_assoc, exists_and_left, exists_eq_left]
  refine and_congr_right fun _ => ?_
  rw [← ran_modifyBoundOne (u := u)]
  simp only [ran_bind]
  rfl

theorem ran_havingBetween {column : Value} {values : List Value} {negated : Bool}
    {first last : Value} (hdata : ∀ v ∈ values, v.handles = []) (hfirst : values.head? = some first)
    (hlast : values.getLast? = some last) {u : Unit} :
    Ran (t.havingBetween column (.list values) boolean negated) s u s' ↔ s' = s.edit t fun q =>
      (q.addHaving boolean (.between column values negated)).bind .having
        (Grammar.boundValues [first, last]) := by
  have hends : QueryId.betweenEnds values = .ok [first, last] := by
    unfold QueryId.betweenEnds
    rw [hfirst, hlast]
  unfold QueryId.havingBetween
  rw [ran_readBound hdata, hends]
  exact ran_modifyBound

namespace GroupGap

/-- The call that adds a condition, with an argument in the place of the missing one. -/
def call (v boolean : Value) : GroupGap → FluentCall
  | comparedColumn operator value => .having v (some (.text operator)) (some value) boolean
  | comparedValue column operator => .having column (some (.text operator)) (some v) boolean
  | betweenColumn values negated => .havingBetween v (.list values) boolean negated
  | lowValue column others high negated =>
    .havingBetween column (.list (v :: others ++ [high])) boolean negated
  | highValue column low others negated =>
    .havingBetween column (.list (low :: others ++ [v])) boolean negated
  | nullColumn negated => .havingNull v boolean negated

/-- The condition with its operator in lower case. -/
def lowered : GroupGap → GroupGap
  | comparedColumn operator value => comparedColumn (Text.lower operator) value
  | comparedValue column operator => comparedValue column (Text.lower operator)
  | gap => gap

/-- The values that the call binds for its other arguments. -/
def bound : GroupGap → List Value
  | comparedColumn _ value => Grammar.boundValues [value]
  | betweenColumn values _ =>
    Grammar.boundValues (values.head?.toList ++ values.getLast?.toList)
  | lowValue _ _ high _ => Grammar.boundValues [high]
  | highValue _ low _ _ => Grammar.boundValues [low]
  | comparedValue .. | nullColumn _ => []

/-- The other arguments of the call are data, one by one. -/
def Fits : GroupGap → Prop
  | comparedColumn _ value => value.isNull = false
  | betweenColumn values _ => values ≠ [] ∧ ∀ v ∈ values, v.handles = []
  | lowValue _ others high _ => ∀ v ∈ high :: others, v.handles = []
  | highValue _ low others _ => ∀ v ∈ low :: others, v.handles = []
  | comparedValue .. | nullColumn _ => True

/-- The query knows the operator. -/
def Accepted (s : Store) (t : QueryId) : GroupGap → Prop
  | comparedColumn operator _ | comparedValue _ operator => s.isOperator t operator = .ok true
  | _ => True

/-- A call with a fragment adds the condition with the fragment in its place, and binds the values
of its other arguments. -/
theorem ran_call (gap : GroupGap) (hfits : gap.Fits) {u : Unit} :
    Ran ((gap.call (fragment text) boolean).perform run t) s u s' ↔
      gap.Accepted s t ∧ s' = s.edit t fun q =>
        (q.addHaving boolean (gap.lowered.fill (fragment text))).bind .having gap.bound := by
  cases gap with
  | comparedColumn operator value => exact ran_having hfits
  | comparedValue column operator => exact ran_having rfl
  | betweenColumn values negated =>
    obtain ⟨first, last, hfirst, hlast, hbound⟩ := exists_ends hfits.1
    have hvalues : (betweenColumn values negated).bound = Grammar.boundValues [first, last] :=
      hbound
    rw [hvalues]
    exact (ran_havingBetween hfits.2 hfirst hlast).trans (and_iff_right trivial).symm
  | lowValue column others high negated =>
    exact (ran_havingBetween (data_low hfits) rfl List.getLast?_concat).trans
      (and_iff_right trivial).symm
  | highValue column low others negated =>
    refine (ran_havingBetween (data_high hfits) rfl List.getLast?_concat).trans ?_
    rw [boundValues_last]
    exact (and_iff_right trivial).symm
  | nullColumn negated =>
    have hcall : t.havingNull (fragment text) boolean negated =
        (t.addHaving boolean (.null (fragment text) negated) >>= fun _ => pure ()) := rfl
    show Ran (t.havingNull (fragment text) boolean negated) s u s' ↔ _
    rw [hcall, bind_pure_unit]
    exact ran_modifyAlone.trans (and_iff_right trivial).symm

end GroupGap

end

end FluentSql
