import FluentSql.Proofs.Accounting.Statements
import FluentSql.Proofs.Boundary.Scripts
import FluentSql.Proofs.Operators.Membership
import FluentSql.Proofs.Rejecting.Conditions
import FluentSql.Proofs.Rejecting.Documents

/-!
# Comparisons on groups beside comparisons on rows

A condition on groups takes the arguments of a condition on rows, but only
reads them as a comparison.  Lists of conditions, callbacks, sub-queries, the
absent value and truth values in JSON columns have a meaning for rows only; for
groups they are values to compare with.

* `Where.onGroups?` is a condition on rows as one on groups.
* `Store.Corresponds` says that two calls do the same, one of them to rows and
  the other to groups.
* `QueryId.having_runOn` and `QueryId.whereDatePart_null` are what becomes of
  a comparison.
* `QueryId.addCompared` is a comparison on rows once its column is known, and
  `whereSingle_adds` is what it adds.
* `having_corresponds_iff` says for which arguments the two calls correspond.
-/

namespace FluentSql

open QueryId

/-! ## Conditions on rows and on groups -/

/-- A condition on rows as one on groups, if there is one of its kind. -/
def Where.onGroups? : Where → Option Having
  | raw sql => some (.raw sql)
  | basic column operator value => some (.basic column operator value)
  | between column values negated => some (.between column values negated)
  | null column negated => some (.null column negated)
  | _ => none

/-- The store after a condition on groups was added to a query, with its values. -/
def Store.withGroupCondition (s : Store) (q : QueryId) (boolean : Value) (body : Having)
    (values : List Value) : Store :=
  s.edit q fun query => (query.addHaving boolean body).bind .having values

/-- Two calls do the same, one of them to rows and the other to groups: both are refused alike and
change nothing, or both add one condition, with the same values. -/
def Store.Corresponds (s : Store) (q : QueryId) (boolean : Value)
    (onRows onGroups : Except Failure Unit × Store) : Prop :=
  (∃ e, onRows = (.error e, s) ∧ onGroups = (.error e, s)) ∨
    ∃ body group values, Where.onGroups? body = some group ∧
      onRows = (.ok (), s.withCondition q boolean body values) ∧
      onGroups = (.ok (), s.withGroupCondition q boolean group values)

/-- A value stands for one column: it is no list and no map of conditions. -/
def Value.IsSingle (v : Value) : Prop :=
  isConditionList v = false ∧ ∀ id, v ≠ .object (.bindings id)

/-- The arguments of a condition are those of one comparison: the column is single, and no callback
stands alone. -/
structure ComparesOne (column : Value) (operator : Option Value) : Prop where
  single : column.IsSingle
  compared : (column.isCallable && operator.isNone) = false

/-- What a part of a date is compared with if there is no value.  Days and months are written as
texts, and so is the absent value. -/
def DatePart.absent (part : DatePart) : Value :=
  if part = .day ∨ part = .month then .text "None" else .null

/-- A comparison of a column compares the column as it is with the value as it is. -/
structure Comparison.IsPlain (column : Value) (c : Comparison) : Prop where
  noQuery : column.isQuery = false
  noSub : c.value.isQueryable = false
  present : c.value.isNull = false
  word : jsonWord column c.value = c.value

section

variable {s s' : Store} {q : QueryId} {column boolean : Value} {operator value : Option Value}
variable {c : Comparison} {body body' : Where} {group group' : Having} {values values' : List Value}

theorem Where.onGroups?_basic {word : String} {v : Value}
    (h : body.onGroups? = some (.basic column word v)) : body = .basic column word v := by
  cases body with
  | basic _ _ _ =>
    cases h
    rfl
  | _ => cases h

/-- The condition that was added last tells which one it was. -/
theorem body_of_withCondition_eq (hq : q.index < s.queries.size) (hq' : q.index < s'.queries.size)
    (h : s.withCondition q boolean body values = s'.withCondition q boolean body' values') :
    body = body' := by
  have hlast : ∀ (t : Store) (body : Where) (values : List Value), q.index < t.queries.size →
      ((t.withCondition q boolean body values).query q).wheres.getLast? = some ⟨boolean, body⟩ := by
    intro t body values ht
    rw [Store.query_withCondition_self ht]
    exact List.getLast?_concat
  have hsame := hlast s body values hq
  rw [h, hlast s' body' values' hq'] at hsame
  exact (congrArg Condition.body (Option.some.inj hsame)).symm

theorem body_of_withGroupCondition_eq (hq : q.index < s.queries.size)
    (h : s.withGroupCondition q boolean group values =
      s.withGroupCondition q boolean group' values') : group = group' := by
  have hlast : ∀ (group : Having) (values : List Value),
      ((s.withGroupCondition q boolean group values).query q).havings.getLast? =
        some ⟨boolean, group⟩ := by
    intro group values
    unfold Store.withGroupCondition
    rw [Store.query_edit_self hq]
    exact List.getLast?_concat
  have hsame := hlast group values
  rw [h, hlast group' values'] at hsame
  exact (congrArg GroupCondition.body (Option.some.inj hsame)).symm

/-! ## Reading the arguments -/

theorem comparison_store (q : QueryId) (operator value : Option Value) (s : Store) :
    (q.comparison operator value).runOn s = (((q.comparison operator value).runOn s).1, s) := by
  obtain ⟨read, hrun⟩ := comparison_runOn q operator value s
  rw [hrun]

theorem comparison_ok (h : ((q.comparison operator value).runOn s).1 = .ok c) :
    (q.comparison operator value).runOn s = (.ok c, s) := by
  rw [comparison_store, h]

/-- Only equality and its negations are compared with the absent value. -/
theorem Comparison.operator_of_null {added : Except Failure (List String)}
    (h : Comparison.ofArguments added operator value = .ok c) (hnull : c.value.isNull = true) :
    c.operator ∈ Comparison.nullOperators := by
  have hcheck : ∀ {word v : Value}, Comparison.check added word v = .ok c →
      c.operator ∈ Comparison.nullOperators := by
    intro word v hcheck
    have hvalue := Comparison.check_value hcheck
    rw [hvalue] at hnull
    cases word with
    | text t =>
      obtain ⟨known, _, hcheck⟩ := Name.bind_eq_ok hcheck
      cases known with
      | false => cases hcheck
      | true =>
        rw [hnull] at hcheck
        cases hnone : Comparison.nullOperators.contains (Text.lower t) with
        | true =>
          rw [hnone] at hcheck
          cases hcheck
          exact List.contains_iff_mem.1 hnone
        | false =>
          rw [hnone] at hcheck
          cases hcheck
    | _ => cases hcheck
  cases value with
  | none => exact @hcheck (.text "=") _ h
  | some v => exact @hcheck (operator.getD (.text "=")) v h

theorem Value.IsSingle.now_runOn {v : Value} (h : v.IsSingle) (s : Store) :
    v.now.runOn s = (.ok v, s) := by
  cases v with
  | object handle =>
    cases handle with
    | bindings id => exact absurd rfl (h.2 id)
    | _ => rfl
  | _ => rfl

/-- What stands for no single column is a list or a map of conditions now. -/
theorem Value.now_runOn_of_not_single {v : Value} (h : ¬v.IsSingle) (s : Store) :
    ∃ w, v.now.runOn s = (.ok w, s) ∧ isConditionList w = true := by
  cases v with
  | object handle =>
    cases handle with
    | bindings id => exact ⟨_, rfl, rfl⟩
    | _ => exact absurd ⟨rfl, by simp⟩ h
  | list _ => exact ⟨_, rfl, rfl⟩
  | tuple _ => exact ⟨_, rfl, rfl⟩
  | map _ => exact ⟨_, rfl, rfl⟩
  | _ => exact absurd ⟨rfl, by simp⟩ h

theorem Value.listed_of_single {v : Value} (h : isConditionList v = false) : v.listed = [v] := by
  cases v with
  | list _ => cases h
  | tuple _ => cases h
  | _ => rfl

theorem bindValue_runOn (q : QueryId) (binding : BindingGroup) (v : Value) (s : Store) :
    (q.bindValue binding v).runOn s = (.ok (), s.edit q (·.bind binding v.bound)) := by
  unfold QueryId.bindValue Value.bound
  cases v.isRaw with
  | true =>
    refine congrArg (Prod.mk _) (Store.edit_same fun query => ?_).symm
    exact Query.bind_nil query binding
  | false => rfl

/-- A condition on groups is added as it was read. -/
theorem QueryId.having_runOn (q : QueryId) (column boolean : Value)
    (operator value : Option Value) (s : Store) :
    (q.having column operator value boolean).runOn s =
      match ((q.comparison operator value).runOn s).1 with
      | .error e => (.error e, s)
      | .ok c => (.ok (), s.withGroupCondition q boolean (.basic column c.operator c.value)
          c.value.bound) := by
  unfold QueryId.having
  rw [Action.runOn_bind, comparison_store]
  cases ((q.comparison operator value).runOn s).1 with
  | error e => rfl
  | ok c =>
    dsimp only
    rw [Action.runOn_bind_ok (show
      (q.addHaving boolean (.basic column c.operator c.value)).runOn s =
        (.ok (), s.edit q (·.addHaving boolean (.basic column c.operator c.value))) from rfl),
      bindValue_runOn, Store.edit_edit]
    rfl

/-! ## What a comparison on rows adds -/

/-- What a comparison on rows does once it knows its column. -/
def QueryId.addCompared (run : Runner) (q : QueryId) (boolean column : Value) (c : Comparison) :
    Action Unit :=
  if c.value.isQueryable then q.whereSub run column (.text c.operator) c.value boolean
  else if c.value.isNull then q.whereNull column boolean (c.operator != "=")
  else do
    let value := jsonWord column c.value
    q.addWhere boolean (.basic column c.operator value)
    q.bindValue .condition value

/-- An action fails, or adds one condition of some kind to a query, in a store that has lost no
query on the way. -/
def Store.Adds (s : Store) (q : QueryId) (boolean : Value) (kind : Where → Prop)
    (outcome : Except Failure Unit × Store) : Prop :=
  (∃ e, outcome.1 = .error e) ∨
    ∃ (s' : Store) (body : Where) (values : List Value),
      s.queries.size ≤ s'.queries.size ∧ kind body ∧
      outcome = (.ok (), s'.withCondition q boolean body values)

variable {run : Runner}

/-- An action that keeps the kinds of queries loses none. -/
theorem size_le_of_keeps {α : Type} {a : Action α} (h : a.Keeps .kinds) (s : Store) :
    s.queries.size ≤ (a.runOn s).2.queries.size :=
  (h s (Boundary.kinds.guards s)).2.1.size_le

theorem not_hidden_kinds (id : QueryId) : ¬Boundary.kinds.hidden id :=
  fun h => h

/-- A condition on rows is added with its value. -/
theorem addBasic_runOn (q : QueryId) (boolean column v : Value) (word : String) (s : Store) :
    Action.runOn (do
      q.addWhere boolean (.basic column word v)
      q.bindValue .condition v) s =
        (.ok (), s.withCondition q boolean (.basic column word v) v.bound) := by
  rw [Action.runOn_bind_ok (show (q.addWhere boolean (.basic column word v)).runOn s =
    (.ok (), s.edit q (·.addWhere boolean (.basic column word v))) from rfl),
    bindValue_runOn, Store.edit_edit]
  rfl

/-- The absent value makes a condition of its own. -/
theorem whereNull_runOn (q : QueryId) (boolean : Value) (hcolumn : isConditionList column = false)
    (negated : Bool) (s : Store) : (q.whereNull column boolean negated).runOn s =
      (.ok (), s.withCondition q boolean (.null column negated) []) := by
  unfold QueryId.whereNull
  rw [Value.listed_of_single hcolumn, Store.withCondition_nil]
  rfl

/-- A column that is no sub-query is compared as it is. -/
theorem whereSingle_of_column (run : Runner) (q : QueryId) (boolean : Value)
    (hgroup : (column.isCallable && operator.isNone) = false) (hquery : column.isQuery = false)
    (hc : ((q.comparison operator value).runOn s).1 = .ok c) :
    (q.whereSingle run column operator value boolean).runOn s =
      (q.addCompared run boolean column c).runOn s := by
  unfold QueryId.whereSingle
  rw [hgroup, if_neg Bool.false_ne_true, Action.runOn_bind_ok (comparison_ok hc)]
  dsimp only
  rw [hquery, if_neg Bool.false_ne_true, Action.runOn_bind_ok (show
    (pure column : Action Value).runOn s = (.ok column, s) from rfl)]
  rfl

/-- What is added compares the column with a value that is there and is no sub-query. -/
theorem addCompared_adds (hrun : Boundary.kinds.Runs run) (q : QueryId) (boolean : Value)
    (hcolumn : isConditionList column = false) (s : Store) :
    s.Adds q boolean (fun body => ∀ other word v, body = .basic other word v →
        other = column ∧ v = jsonWord column c.value ∧ c.value.isQueryable = false ∧
          c.value.isNull = false)
      ((q.addCompared run boolean column c).runOn s) := by
  unfold QueryId.addCompared
  cases hqueryable : c.value.isQueryable with
  | true =>
    have hsize := size_le_of_keeps
      (within_resolveSub hrun (not_hidden_kinds q) (Boundary.kinds.admits c.value)).keeps s
    rw [if_pos rfl]
    cases hr : ((q.resolveSub run c.value).runOn s).1 with
    | error e =>
      unfold QueryId.whereSub
      rw [Action.runOn_bind, hr]
      exact Or.inl ⟨e, rfl⟩
    | ok sub =>
      have hran : Ran (q.resolveSub run c.value) s sub ((q.resolveSub run c.value).runOn s).2 :=
        Prod.ext hr rfl
      refine Or.inr ⟨_, .sub column (.text c.operator) sub, _, hsize, ?_, whereSub_ran hran _ _ _⟩
      intro other word v hbasic
      cases hbasic
  | false =>
    rw [if_neg Bool.false_ne_true]
    cases hnull : c.value.isNull with
    | true =>
      rw [if_pos rfl, whereNull_runOn q boolean hcolumn]
      refine Or.inr ⟨s, .null column (c.operator != "="), [], Nat.le_refl _, ?_, rfl⟩
      intro other word v hbasic
      cases hbasic
    | false =>
      rw [if_neg Bool.false_ne_true]
      refine Or.inr ⟨s, _, _, Nat.le_refl _, ?_, addBasic_runOn q boolean column _ c.operator s⟩
      intro other word v hbasic
      cases hbasic
      exact ⟨rfl, rfl, rfl, rfl⟩

/-- A comparison on rows adds the column and the value as they are only if it is plain. -/
theorem whereSingle_adds (hrun : Boundary.kinds.Runs run) (q : QueryId) (boolean : Value)
    (hgroup : (column.isCallable && operator.isNone) = false)
    (hcolumn : isConditionList column = false)
    (hc : ((q.comparison operator value).runOn s).1 = .ok c) :
    s.Adds q boolean (fun body => body = .basic column c.operator c.value → c.IsPlain column)
      ((q.whereSingle run column operator value boolean).runOn s) := by
  cases hquery : column.isQuery with
  | false =>
    rw [whereSingle_of_column run q boolean hgroup hquery hc]
    obtain hfails | ⟨s', body, values, hsize, hkind, houtcome⟩ :=
      addCompared_adds (c := c) hrun q boolean hcolumn s
    · exact Or.inl hfails
    · refine Or.inr ⟨s', body, values, hsize, fun hbasic => ?_, houtcome⟩
      obtain ⟨_, hword, hqueryable, hnull⟩ := hkind _ _ _ hbasic
      exact ⟨hquery, hqueryable, hnull, hword.symm⟩
  | true =>
    unfold QueryId.whereSingle
    rw [hgroup, if_neg Bool.false_ne_true, Action.runOn_bind_ok (comparison_ok hc)]
    dsimp only
    rw [hquery, if_pos rfl]
    have hcreated := size_le_of_keeps
      (within_createSub hrun (not_hidden_kinds q) (Boundary.kinds.admits column)).keeps s
    cases hr : ((q.createSub run column).runOn s).1 with
    | error e =>
      rw [Action.runOn_bind, hr]
      exact Or.inl ⟨e, rfl⟩
    | ok sub =>
      generalize hs1 : ((q.createSub run column).runOn s).2 = s1 at hcreated
      have hbind : (q.bind .condition sub.bindings).runOn s1 =
          (.ok (), s1.edit q (·.bind .condition sub.bindings)) := rfl
      rw [Action.runOn_bind_ok (Prod.ext hr hs1), Action.runOn_bind_ok hbind,
        Action.runOn_bind_ok (show (pure (Value.raw (.text ("(" ++ sub.sql ++ ")"))) :
          Action Value).runOn _ = (.ok _, _) from rfl)]
      obtain hfails | ⟨s', body, values, hsize, hkind, houtcome⟩ :=
        addCompared_adds (c := c) hrun q boolean
          (show isConditionList (.raw (.text ("(" ++ sub.sql ++ ")"))) = false from rfl)
          (s1.edit q (·.bind .condition sub.bindings))
      · exact Or.inl hfails
      · rw [Store.size_edit] at hsize
        refine Or.inr ⟨s', body, values, Nat.le_trans hcreated hsize, fun hbasic => ?_, houtcome⟩
        -- The text of the sub-query stands for the column, which is therefore not as it was.
        obtain ⟨hraw, _⟩ := hkind _ _ _ hbasic
        rw [hraw] at hquery
        cases hquery

/-- A plain comparison on rows adds the column and the value as they are. -/
theorem whereSingle_plain (run : Runner) (q : QueryId) (boolean : Value)
    (hgroup : (column.isCallable && operator.isNone) = false)
    (hc : ((q.comparison operator value).runOn s).1 = .ok c) (hplain : c.IsPlain column) :
    (q.whereSingle run column operator value boolean).runOn s =
      (.ok (), s.withCondition q boolean (.basic column c.operator c.value) c.value.bound) := by
  rw [whereSingle_of_column run q boolean hgroup hplain.noQuery hc]
  unfold QueryId.addCompared
  rw [hplain.noSub, if_neg Bool.false_ne_true, hplain.present, if_neg Bool.false_ne_true,
    hplain.word]
  exact addBasic_runOn q boolean column c.value c.operator s

/-- A group of conditions is collected in a query that was not there before. -/
theorem size_groupBuiltBy (hrun : Boundary.kinds.Runs run) (q : QueryId) (boolean : Value)
    {build : QueryId → Action Unit} (hbuild : ∀ nested, (build nested).Keeps .kinds) (s : Store) :
    s.queries.size < ((q.groupBuiltBy run boolean build).runOn s).2.queries.size := by
  have hnested : s.queries.size < ((q.forNestedWhere run).runOn s).2.queries.size := by
    obtain ⟨query, hnew⟩ : ∃ query, q.newQuery.runOn s = (.ok s.next, s.add query) := ⟨_, rfl⟩
    unfold QueryId.forNestedWhere
    rw [Action.runOn_bind_ok hnew]
    have hadded : s.queries.size < (s.add query).queries.size := by
      rw [Store.size_add]
      exact Nat.lt_succ_self _
    refine Nat.lt_of_lt_of_le hadded (size_le_of_keeps ?_ _)
    refine (within_read (not_hidden_kinds q)).bind fun parent _ => Action.Keeps.next ?_ fun _ =>
      within_pure trivial
    exact keeps_setSource hrun (fun h => h) (Boundary.kinds.admits _) .null
  unfold QueryId.groupBuiltBy
  rw [Action.runOn_bind]
  cases ((q.forNestedWhere run).runOn s).1 with
  | error e => exact hnested
  | ok nested =>
    refine Nat.lt_of_lt_of_le hnested (size_le_of_keeps ?_ _)
    exact (hbuild nested).next fun _ =>
      keeps_addNested (fun h => h) (not_hidden_kinds nested) (Boundary.kinds.admits boolean)

theorem size_whereGroup (hrun : Boundary.kinds.Runs run) (kind : ComparisonKind) (fuel : Nat)
    (q : QueryId) (conditions boolean : Value) (s : Store) :
    s.queries.size <
      ((whereGroup run kind (fuel + 1) q conditions boolean).runOn s).2.queries.size := by
  refine size_groupBuiltBy hrun q boolean (fun nested => ?_) s
  refine keeps_forM fun arguments _ => (keeps_ofExcept arguments).next fun vs => ?_
  cases vs with
  | nil => exact within_throw _
  | cons column rest =>
    refine (within_now (Boundary.kinds.admits column)).keeps.next fun column => ?_
    split
    · exact keeps_whereGroup hrun kind fuel (fun h => h) (Boundary.kinds.admits _)
        (Boundary.kinds.admits _)
    · exact keeps_compareSingle hrun (fun h => h) kind (Boundary.kinds.admitsAll _)

/-! ## Both calls -/

theorem where_of_single (run : Runner) (q : QueryId) (boolean : Value) (h : column.IsSingle) :
    (q.where run column operator value boolean).runOn s =
      (q.whereSingle run column operator value boolean).runOn s := by
  unfold QueryId.where
  rw [Action.runOn_bind_ok (h.now_runOn s), h.1, if_neg Bool.false_ne_true]

/-- Any other condition is a group. -/
theorem size_where (hrun : Boundary.kinds.Runs run) (q : QueryId) (boolean : Value)
    (h : ¬ComparesOne column operator) (s : Store) :
    s.queries.size < ((q.where run column operator value boolean).runOn s).2.queries.size := by
  by_cases hsingle : column.IsSingle
  · have halone : (column.isCallable && operator.isNone) = true := by
      rw [← Bool.not_eq_false]
      exact fun hcompared => h ⟨hsingle, hcompared⟩
    rw [where_of_single run q boolean hsingle]
    unfold QueryId.whereSingle
    rw [if_pos halone]
    exact size_groupBuiltBy hrun q boolean (fun nested =>
      (within_call hrun (fun h => h) column (Boundary.kinds.admitsAll [])).discard) s
  · obtain ⟨conditions, hnow, hlist⟩ := Value.now_runOn_of_not_single hsingle s
    unfold QueryId.where
    rw [Action.runOn_bind_ok hnow, if_pos hlist]
    exact size_whereGroup hrun .values _ q conditions boolean s

/-- A comparison of a column with the absent value asks whether there is a value. -/
theorem where_null (run : Runner) (q : QueryId) (boolean : Value) (h : ComparesOne column operator)
    (hquery : column.isQuery = false) (hc : ((q.comparison operator value).runOn s).1 = .ok c)
    (hnull : c.value.isNull = true) : (q.where run column operator value boolean).runOn s =
      (.ok (), s.withCondition q boolean (.null column (c.operator != "=")) []) := by
  have hqueryable : c.value.isQueryable = false := by
    cases hv : c.value with
    | null => rfl
    | _ =>
      rw [hv] at hnull
      cases hnull
  rw [where_of_single run q boolean h.single,
    whereSingle_of_column run q boolean h.compared hquery hc]
  unfold QueryId.addCompared
  rw [hqueryable, if_neg Bool.false_ne_true, hnull, if_pos rfl]
  exact whereNull_runOn q boolean h.single.1 _ s

/-- A part of a date is compared with the absent value, or with its name. -/
theorem QueryId.whereDatePart_null (run : Runner) (q : QueryId) (part : DatePart)
    (column word boolean : Value)
    (hc : ((q.comparison (some word) value).runOn s).1 = .ok c) (hnull : c.value = .null) :
    (q.whereDatePart run part column word value boolean).runOn s =
      (.ok (), s.withCondition q boolean (.datePart part column c.operator part.absent)
        [part.absent]) := by
  have hwritten : (writtenDatePart run part .null).runOn s = (.ok part.absent, s) := by
    have hshown : Value.null.shown.runOn s = (.ok .null, s) := by
      rw [Value.shown_runOn, Store.shown_data s rfl]
    cases part with
    | day => exact Action.runOn_bind_ok hshown
    | month => exact Action.runOn_bind_ok hshown
    | _ => rfl
  unfold QueryId.whereDatePart
  rw [Action.runOn_bind_ok (comparison_ok hc), hnull, Action.runOn_bind_ok hwritten,
    Action.runOn_bind_ok (show
      (q.addWhere boolean (.datePart part column c.operator part.absent)).runOn s =
        (.ok (), s.edit q (·.addWhere boolean (.datePart part column c.operator part.absent)))
      from rfl), bindValue_runOn, Store.edit_edit]
  cases part <;> rfl

/-- A refused comparison is refused for rows and for groups, and a plain one is added to both. -/
theorem corresponds_of_plain (run : Runner) (boolean : Value) (h : ComparesOne column operator)
    (hplain : ∀ c, ((q.comparison operator value).runOn s).1 = .ok c → c.IsPlain column) :
    s.Corresponds q boolean ((q.where run column operator value boolean).runOn s)
      ((q.having column operator value boolean).runOn s) := by
  rw [where_of_single run q boolean h.single, QueryId.having_runOn]
  cases hc : ((q.comparison operator value).runOn s).1 with
  | error e =>
    have hrefused : (q.comparison operator value).runOn s = (.error e, s) := by
      rw [comparison_store, hc]
    refine Or.inl ⟨e, ?_, rfl⟩
    unfold QueryId.whereSingle
    rw [h.compared, if_neg Bool.false_ne_true]
    exact Action.runOn_bind_error hrefused
  | ok c =>
    exact Or.inr ⟨_, _, _, rfl, whereSingle_plain run q boolean h.compared hc (hplain c hc), rfl⟩

/-- Conditions that correspond are refused or plain. -/
theorem plain_of_corresponds (hrun : Boundary.kinds.Runs run) (hq : q.index < s.queries.size)
    (h : s.Corresponds q boolean ((q.where run column operator value boolean).runOn s)
      ((q.having column operator value boolean).runOn s)) :
    ComparesOne column operator ∧
      ∀ c, ((q.comparison operator value).runOn s).1 = .ok c → c.IsPlain column := by
  have hone : ComparesOne column operator := by
    by_contra hgroup
    have hgrows : s.queries.size <
        ((q.where run column operator value boolean).runOn s).2.queries.size :=
      size_where hrun q boolean hgroup s
    obtain ⟨e, hrows, _⟩ | ⟨body, group, values, _, hrows, _⟩ := h
    · rw [hrows] at hgrows
      exact Nat.lt_irrefl _ hgrows
    · rw [hrows, Store.size_withCondition] at hgrows
      exact Nat.lt_irrefl _ hgrows
  refine ⟨hone, fun c hc => ?_⟩
  rw [where_of_single run q boolean hone.single, QueryId.having_runOn, hc] at h
  obtain ⟨e, _, hgroups⟩ | ⟨body, group, values, hkind, hrows, hgroups⟩ := h
  · cases hgroups
  · have hgroup : Having.basic column c.operator c.value = group :=
      body_of_withGroupCondition_eq hq (congrArg Prod.snd hgroups)
    have hbody : body = .basic column c.operator c.value :=
      Where.onGroups?_basic (hgroup ▸ hkind)
    obtain ⟨e, hfails⟩ | ⟨s', body', values', hsize, hplain, hadded⟩ :=
      whereSingle_adds hrun q boolean hone.compared hone.single.1 hc
    · rw [hrows] at hfails
      cases hfails
    · have hsame : body = body' := body_of_withCondition_eq hq (Nat.lt_of_lt_of_le hq hsize)
        (congrArg Prod.snd (hrows.symm.trans hadded))
      exact hplain (hsame ▸ hbody)

/-- A condition on groups does what the same condition on rows does exactly if that is one
comparison that is refused, or that compares a column as it is with a value as it is.  In every
other case it adds a comparison with what it is given.  The absent value is compared with and
bound, and so it is for a part of a date, where a condition on rows asks whether there is a
value.  The hypothesis on callbacks holds of every interpreter, by `keepsKinds_ofDepth`. -/
theorem having_corresponds_iff (hrun : Boundary.kinds.Runs run) (hq : q.index < s.queries.size)
    (column : Value) (operator value : Option Value) (boolean : Value) :
    (s.Corresponds q boolean ((q.where run column operator value boolean).runOn s)
        ((q.having column operator value boolean).runOn s) ↔
      ComparesOne column operator ∧
        ∀ c, ((q.comparison operator value).runOn s).1 = .ok c → c.IsPlain column) ∧
    (∀ e, ((q.comparison operator value).runOn s).1 = .error e →
      (q.having column operator value boolean).runOn s = (.error e, s)) ∧
    (∀ c, ((q.comparison operator value).runOn s).1 = .ok c →
      (q.having column operator value boolean).runOn s =
        (.ok (), s.withGroupCondition q boolean (.basic column c.operator c.value) c.value.bound)) ∧
    (∀ c, ((q.comparison operator value).runOn s).1 = .ok c → c.value.isNull = true →
      c.operator ∈ Comparison.nullOperators ∧ c.value.bound = [.null] ∧
        (ComparesOne column operator → column.isQuery = false →
          (q.where run column operator value boolean).runOn s =
            (.ok (), s.withCondition q boolean (.null column (c.operator != "=")) []))) ∧
    ∀ part word given c, ((q.comparison (some word) given).runOn s).1 = .ok c → c.value = .null →
      (q.whereDatePart run part column word given boolean).runOn s =
        (.ok (), s.withCondition q boolean (.datePart part column c.operator part.absent)
          [part.absent]) := by
  refine ⟨⟨plain_of_corresponds hrun hq, fun ⟨hone, hplain⟩ =>
    corresponds_of_plain run boolean hone hplain⟩, fun e he => ?_, fun c hc => ?_,
    fun c hc hnull => ⟨?_, ?_, fun hone hquery => where_null run q boolean hone hquery hc hnull⟩,
    fun part word given c hc hnull => q.whereDatePart_null run part column word boolean hc hnull⟩
  · rw [QueryId.having_runOn, he]
  · rw [QueryId.having_runOn, hc]
  · obtain ⟨read, hread⟩ := comparison_runOn q operator value s
    rw [hread] at hc
    exact Comparison.operator_of_null hc hnull
  · cases hv : c.value with
    | null => rfl
    | _ =>
      rw [hv] at hnull
      cases hnull

/-- A total that is compared with a number. -/
theorem having_corresponds_iff_total :
    (Store.ofTable "orders").Corresponds ⟨0⟩ (.text "and")
      ((QueryId.where Runner.idle ⟨0⟩ (.text "total") (some (.text ">")) (some (.int 5))
        (.text "and")).runOn (Store.ofTable "orders"))
      ((QueryId.having ⟨0⟩ (.text "total") (some (.text ">")) (some (.int 5))
        (.text "and")).runOn (Store.ofTable "orders")) := by
  have hidle : Boundary.kinds.Runs Runner.idle := fun _ _ _ _ _ =>
    within_pure (Boundary.kinds.admits .null)
  have hcomparison : ((QueryId.comparison ⟨0⟩ (some (.text ">")) (some (.int 5))).runOn
      (Store.ofTable "orders")).1 = .ok ⟨">", .int 5⟩ := rfl
  refine (having_corresponds_iff hidle (by decide) _ _ _ _).1.2
    ⟨⟨⟨rfl, by simp⟩, rfl⟩, fun c hc => ?_⟩
  cases hcomparison.symm.trans hc
  exact ⟨rfl, rfl, rfl, rfl⟩

end

/-- What comes of comparing a total with nothing: for groups, for rows, and for the day. -/
def totalIsNull : List (Except Failure Unit × Store) :=
  [(QueryId.having ⟨0⟩ (.text "total") (some .null) none (.text "and")).runOn
      (Store.ofTable "orders"),
    (QueryId.where Runner.idle ⟨0⟩ (.text "total") (some .null) none (.text "and")).runOn
      (Store.ofTable "orders"),
    (QueryId.whereDatePart Runner.idle ⟨0⟩ .day (.text "total") .null none (.text "and")).runOn
      (Store.ofTable "orders")]

/-- For groups and for a day nothing is a value that is bound, for rows it is a condition of its
own. -/
theorem having_binds_null :
    totalIsNull.map (fun outcome => (outcome.2.query ⟨0⟩).havings) =
        [[⟨.text "and", .basic (.text "total") "=" .null⟩], [], []] ∧
      totalIsNull.map (fun outcome => (outcome.2.query ⟨0⟩).wheres) =
        [[], [⟨.text "and", .null (.text "total") false⟩],
          [⟨.text "and", .datePart .day (.text "total") "=" (.text "None")⟩]] ∧
      totalIsNull.map (fun outcome => (outcome.2.query ⟨0⟩).bindings.flatten) =
        [[.null], [], [.text "None"]] := by
  exact ⟨rfl, rfl, rfl⟩

end FluentSql
