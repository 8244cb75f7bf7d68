import FluentSql.Proofs.Building.Call
import FluentSql.Proofs.Operators.Keeping
import FluentSql.Proofs.Regular

/-!
# Unknown operators

A call that is given an operator that its query does not know is refused, or
takes it for the value or the column that the first column is compared with.
Only comparisons of rows write it into the SQL.

* `FluentCall.operator?` is the operator of a call, and `FluentCall.written?`
  the one that it writes without a look at it.
* `FluentCall.operators_perform` says that calls keep operators known, and
  `Performs.operatorsKept` that sequences of calls do.
* `perform_beside_unknown` and `perform_alone_unknown` say what becomes of an
  unknown operator, with a value beside it and without.
* `unknownOperator_written_iff` is the result.
-/

namespace FluentSql

namespace FluentCall

/-! ## The operator of a call -/

/-- The operator that a call is given. -/
def operator? : FluentCall → Option Value
  | «where» _ operator _ _ | whereNot _ operator _ _ | having _ operator _ _ => operator
  | join _ _ operator _ _ _ | joinSub _ _ _ operator _ _ _ | crossJoin _ _ operator _
  | on _ operator _ _ | whereColumn _ operator _ _ | whereSub _ operator _ _
  | whereDatePart _ _ operator _ _ | whereRowValues _ operator _ _
  | whereJsonLength _ operator _ _ => some operator
  | _ => none

/-- The operator that a call writes as it is given. -/
def written? : FluentCall → Option Value
  | whereSub _ operator _ _ | whereRowValues _ operator _ _ => some operator
  | _ => none

theorem operator_of_written {operator : Value} (call : FluentCall)
    (h : call.written? = some operator) : call.operator? = some operator := by
  cases call <;> first | exact h | exact nomatch h

/-- Whether a call is given a value beside its operator. -/
def comparesValue : FluentCall → Bool
  | «where» _ _ value _ | whereNot _ _ value _ | having _ _ value _ | whereDatePart _ _ _ value _
  | whereJsonLength _ _ value _ => value.isSome
  | join _ _ _ _ _ byValue | joinSub _ _ _ _ _ _ byValue => byValue
  | _ => false

/-- The call with another operator. -/
def withOperator (other : Value) : FluentCall → FluentCall
  | «where» column _ value boolean => «where» column (some other) value boolean
  | whereNot column _ value boolean => whereNot column (some other) value boolean
  | having column _ value boolean => having column (some other) value boolean
  | whereDatePart part column _ value boolean => whereDatePart part column other value boolean
  | whereJsonLength column _ value boolean => whereJsonLength column other value boolean
  | whereColumn first _ second boolean => whereColumn first other second boolean
  | whereSub column _ query boolean => whereSub column other query boolean
  | whereRowValues columns _ values boolean => whereRowValues columns other values boolean
  | on first _ second boolean => on first other second boolean
  | join table first _ second type byValue => join table first other second type byValue
  | joinSub query name first _ second type byValue =>
    joinSub query name first other second type byValue
  | crossJoin table first _ second => crossJoin table first other second
  | call => call

/-- The call that asks whether the first column equals something. -/
def equating (compared : Value) : FluentCall → FluentCall
  | «where» column _ _ boolean => «where» column (some (.text "=")) (some compared) boolean
  | whereNot column _ _ boolean => whereNot column (some (.text "=")) (some compared) boolean
  | having column _ _ boolean => having column (some (.text "=")) (some compared) boolean
  | whereDatePart part column _ _ boolean =>
    whereDatePart part column (.text "=") (some compared) boolean
  | whereJsonLength column _ _ boolean =>
    whereJsonLength column (.text "=") (some compared) boolean
  | whereColumn first _ _ boolean => whereColumn first (.text "=") compared boolean
  | on first _ _ boolean => on first (.text "=") compared boolean
  | join table first _ _ type byValue => join table first (.text "=") compared type byValue
  | joinSub query name first _ _ type byValue =>
    joinSub query name first (.text "=") compared type byValue
  | crossJoin table first _ _ => crossJoin table first (.text "=") compared
  | call => call

/-! ## Calls keep operators known -/

section

variable {run : Runner} {t : QueryId}

/-- A call keeps operators known, if its query knows the one that it writes. -/
theorem operators_perform (hrun : run.KeepsOperators) (call : FluentCall) {operators : List Value}
    (h : ∀ operator ∈ call.written?, operator ∈ operators) :
    (call.perform run t).KeepsOperators t operators := by
  cases call with
  | select columns => exact operators_select hrun t _
  | addSelect columns => exact operators_addSelect hrun t _
  | selectRaw sql bindings => exact operators_selectRaw t _ _
  | selectSub query name => exact operators_selectSub hrun t _ _
  | distinct => exact operators_modify (fun _ => rfl) fun _ => rfl
  | setSource table name => exact operators_setSource hrun t _ _
  | fromSub query name => exact operators_fromSub hrun t _ _
  | fromRaw sql bindings => exact operators_fromRaw t _ _
  | join table first operator second type byValue => exact operators_join hrun t _ _ _ _ _ _
  | joinSub query name first operator second type byValue =>
    exact operators_joinSub hrun t _ _ _ _ _ _ _
  | crossJoin table first operator second => exact operators_crossJoin hrun t _ _ _ _
  | on first operator second boolean => exact operators_on hrun _ _ _ _
  | «where» column operator value boolean => exact operators_where hrun _ _ _ _
  | whereNot column operator value boolean => exact operators_whereNot hrun t _ _ _ _
  | whereColumn first operator second boolean => exact operators_whereColumn hrun _ _ _ _
  | whereRaw sql bindings boolean => exact operators_whereRaw t _ _ _
  | whereNested callback boolean => exact operators_whereNested hrun t _ _
  | addNested query boolean =>
    exact (operators_needQuery query).next fun nested => operators_addNested t nested _
  | whereSub column operator query boolean => exact operators_whereSub hrun (h _ rfl) _ _ _
  | whereIn column values boolean negated => exact operators_whereIn hrun t _ _ _ _
  | whereIntegerIn column values boolean negated => exact operators_whereIntegerIn t _ _ _ _
  | whereNull columns boolean negated => exact operators_whereNull t _ _ _
  | whereBetween column values boolean negated => exact operators_whereBetween t _ _ _ _
  | whereDatePart part column operator value boolean =>
    exact operators_whereDatePart hrun _ _ _ _ _
  | whereExists query boolean negated => exact operators_whereExists hrun t _ _ _
  | addWhereExists query boolean negated => exact operators_addWhereExists t _ _ _
  | whereRowValues columns operator values boolean =>
    exact operators_whereRowValues (h _ rfl) _ _ _
  | whereJsonContains column value boolean negated => exact operators_whereJsonContains t _ _ _ _
  | whereJsonLength column operator value boolean => exact operators_whereJsonLength _ _ _ _
  | groupBy columns => exact operators_addGroups t _
  | groupByRaw sql bindings => exact operators_groupByRaw t _ _
  | having column operator value boolean => exact operators_having _ _ _ _
  | havingRaw sql bindings boolean => exact operators_havingRaw t _ _ _
  | havingBetween column values boolean negated => exact operators_havingBetween t _ _ _ _
  | havingNull columns boolean negated => exact operators_havingNull t _ _ _
  | orderBy column word => exact operators_orderBy hrun t _ _
  | inRandomOrder seed => exact operators_inRandomOrder t _
  | orderByRaw sql bindings => exact operators_orderByRaw t _ _
  | reorder column word => exact operators_reorder hrun t _ _
  | offset value => exact operators_offset t _
  | limit value => exact operators_limit t _
  | forPage page perPage => exact operators_forPage t _ _
  | union query keepsAll => exact operators_union hrun t _ _
  | lock value => exact operators_modify (fun _ => rfl) fun _ => rfl

end

end FluentCall

/-- Some calls are made on queries that are there, one after another, each of which writes only an
operator that its query knows.  A call may fail. -/
inductive Performs (run : Runner) (s : Store) : Store → Prop where
  /-- No call is made. -/
  | refl : Performs run s s
  /-- One more call is made. -/
  | call {s1 : Store} (before : Performs run s s1) (q : QueryId) (hq : q.index < s1.queries.size)
    (call : FluentCall) (hwritten : ∀ operator ∈ call.written?, s1.Knows q operator) :
    Performs run s ((call.perform run q).runOn s1).2

/-- All operators of conditions stay known, whatever calls are made. -/
theorem Performs.operatorsKept {run : Runner} {s s' : Store} (hrun : run.KeepsOperators)
    (h : Performs run s s') : s.OperatorsKept s' := by
  induction h with
  | refl => exact .refl s
  | @call s1 before q hq call hwritten ih =>
    have hkeeps : Action.KeepsOperators q call.written?.toList (call.perform run q) :=
      call.operators_perform hrun fun _ hmem => Option.mem_toList.2 hmem
    exact ih.trans (hkeeps s1 hq fun operator hmem => hwritten operator (Option.mem_toList.1 hmem))

/-! ## Refused actions -/

/-- The action fails for a reason, or another one does the same. -/
def Action.RefusedOr {α : Type} (refuses : Failure → Prop) (s : Store) (a b : Action α) : Prop :=
  (∃ e, refuses e ∧ (a.runOn s).1 = .error e) ∨ b.runOn s = a.runOn s

section

variable {α β : Type} {refuses refuses' : Failure → Prop} {s : Store} {a b : Action α}

theorem refusedOr_refl (a : Action α) : a.RefusedOr refuses s a := .inr rfl

theorem Action.RefusedOr.imp (h : a.RefusedOr refuses s b)
    (himp : ∀ e, refuses e → refuses' e) : a.RefusedOr refuses' s b :=
  h.imp_left fun ⟨e, he, hfail⟩ => ⟨e, himp e he, hfail⟩

/-- What is done before does not depend on what may be refused. -/
theorem refusedOr_bind (c : Action α) {f g : α → Action β}
    (h : ∀ v s', c.runOn s = (.ok v, s') → (f v).RefusedOr refuses s' (g v)) :
    (c >>= f).RefusedOr refuses s (c >>= g) := by
  unfold Action.RefusedOr
  rw [Action.runOn_bind, Action.runOn_bind]
  cases hr : (c.runOn s).1 with
  | error e => exact .inr rfl
  | ok v => exact h v _ (Prod.ext hr rfl)

/-- Nor does what is done afterwards. -/
theorem Action.RefusedOr.next (h : a.RefusedOr refuses s b) (f : α → Action β) :
    (a >>= f).RefusedOr refuses s (b >>= f) := by
  unfold Action.RefusedOr
  rw [Action.runOn_bind, Action.runOn_bind]
  obtain ⟨e, he, hfail⟩ | hsame := h
  · rw [hfail]
    exact .inl ⟨e, he, rfl⟩
  · rw [hsame]
    exact .inr rfl

end

section

variable {run : Runner} {s s' : Store} {q id : QueryId} {operator value : Value}

/-- What a query knows, and why it refuses an operator, depends on what its grammar adds. -/
theorem Store.knows_congr (h : s'.operatorsOf (s'.query id).grammar =
    s.operatorsOf (s.query q).grammar) : s'.Knows id operator ↔ s.Knows q operator := by
  unfold Store.Knows Store.isOperator
  rw [h]

theorem Store.refuses_congr (h : s'.operatorsOf (s'.query id).grammar =
    s.operatorsOf (s.query q).grammar) {e : Failure} (he : s'.Refuses id operator e) :
    s.Refuses q operator e := by
  unfold Store.Refuses at he ⊢
  rwa [← h]

/-! ## Unknown operators beside a value -/

theorem refusedOr_comparison (hunknown : ¬s.Knows q operator) {α : Type} (f : Comparison → Action α)
    (b : Action α) : Action.RefusedOr (s.Refuses q operator) s
      (q.comparison (some operator) (some value) >>= f) b := by
  obtain ⟨e, he, hrun⟩ := comparison_unknown hunknown value
  refine .inl ⟨e, he, ?_⟩
  rw [Action.runOn_bind, hrun]

/-- What a value is read as is no change. -/
theorem Value.now_store {v w : Value} (h : v.now.runOn s = (.ok w, s')) : s' = s := by
  have hstore : (v.now.runOn s).2 = s := by
    unfold Value.now
    split <;> rfl
  rw [h] at hstore
  exact hstore

theorem refusedOr_where (hunknown : ¬s.Knows q operator) (column boolean other : Value) :
    (q.where run column (some operator) (some value) boolean).RefusedOr (s.Refuses q operator) s
      (q.where run column (some other) (some value) boolean) := by
  refine refusedOr_bind _ fun column s' hnow => ?_
  obtain rfl := Value.now_store hnow
  split
  · exact refusedOr_refl _
  · -- A callback is a group only if it stands alone.
    have hgiven : ∀ given : Value, ¬(column.isCallable && (some given).isNone) = true := by simp
    unfold QueryId.whereSingle
    rw [if_neg (hgiven operator), if_neg (hgiven other)]
    exact refusedOr_comparison hunknown _ _

/-- The query of a group is asked for its operators as the one that it is for. -/
theorem operatorsOf_forNestedWhere (hrun : run.KeepsOperators) {nested : QueryId}
    (h : (q.forNestedWhere run).runOn s = (.ok nested, s')) :
    s'.operatorsOf (s'.query nested).grammar = s.operatorsOf (s.query q).grammar := by
  have hran : Ran (q.forNestedWhere run) s nested s' := h
  unfold QueryId.forNestedWhere QueryId.newQuery at hran
  simp only [ran_bind, ran_read, ran_create, ran_pure] at hran
  obtain ⟨_, _, ⟨_, s, ⟨rfl, rfl⟩, rfl, rfl⟩, _, _, ⟨rfl, rfl⟩, u, s1, hset, rfl, rfl⟩ := hran
  have hkept := (operators_setSource hrun s.next _ _).of_ran hset (s.next_lt_add _)
  rw [hkept.added s.next (s.next_lt_add _), Store.query_add_next]
  rfl

theorem refusedOr_whereNot (hrun : run.KeepsOperators) (hunknown : ¬s.Knows q operator)
    (column boolean other : Value) :
    (q.whereNot run column (some operator) (some value) boolean).RefusedOr (s.Refuses q operator) s
      (q.whereNot run column (some other) (some value) boolean) := by
  refine refusedOr_bind _ fun word s' hword => ?_
  obtain rfl : s = s' := congrArg Prod.snd hword
  split
  · exact refusedOr_refl _
  · refine refusedOr_bind _ fun nested s' hnested => ?_
    have hsame := operatorsOf_forNestedWhere hrun hnested
    exact ((refusedOr_where ((Store.knows_congr hsame).not.2 hunknown) _ _ _).imp fun _ =>
      Store.refuses_congr hsame).next _

/-! ## Joins -/

/-- A comparison of columns takes an operator that is not known for the second column. -/
theorem Store.columnPair_shift (hunknown : ¬s.Knows q operator) (first second : Value) :
    (∃ e, s.Refuses q operator e ∧ s.columnPair q first operator second = .error e) ∨
      s.columnPair q first (.text "=") operator = s.columnPair q first operator second := by
  have hequality : s.isOperator q "=" = .ok true := Store.isOperator_common (by decide +kernel)
  have hlower : Text.lower "=" = "=" := by decide +kernel
  cases operator with
  | text word =>
    cases hknown : s.isOperator q word with
    | error e => exact .inl ⟨e, .inl (operatorsOf_of_isOperator hknown), columnPair_error hknown⟩
    | ok known =>
      cases known with
      | true => exact absurd ⟨word, rfl, hknown⟩ hunknown
      | false =>
        refine .inr ?_
        rw [columnPair_unknown hknown, columnPair_known hequality rfl, hlower]
  | _ =>
    refine .inr ?_
    unfold columnPair
    simp only [hequality]
    rfl

theorem refusedOr_whereColumn (hunknown : ¬s.Knows q operator) (first second boolean : Value) :
    (q.whereColumn run first operator second boolean).RefusedOr (s.Refuses q operator) s
      (q.whereColumn run first (.text "=") operator boolean) := by
  refine refusedOr_bind _ fun first s' hnow => ?_
  obtain rfl := Value.now_store hnow
  split
  · exact refusedOr_refl _
  · unfold Action.RefusedOr
    rw [whereColumnSingle_runOn, whereColumnSingle_runOn]
    obtain ⟨e, he, hpair⟩ | hsame := Store.columnPair_shift hunknown first second
    · rw [hpair]
      exact .inl ⟨e, he, rfl⟩
    · rw [hsame]
      exact .inr rfl

theorem refusedOr_on (hunknown : ¬s.Knows q operator) (first second boolean : Value) :
    (q.on run first operator second boolean).RefusedOr (s.Refuses q operator) s
      (q.on run first (.text "=") operator boolean) := by
  unfold QueryId.on
  split
  · exact refusedOr_refl _
  · exact refusedOr_whereColumn hunknown first second boolean

/-- The join condition that a join makes is asked for its operators as the query. -/
theorem operatorsOf_newJoin {type table : Value} {join : QueryId}
    (h : (q.newJoin type table).runOn s = (.ok join, s')) :
    s'.operatorsOf (s'.query join).grammar = s.operatorsOf (s.query q).grammar := by
  cases h
  show (s.add _).operatorsOf ((s.add _).query s.next).grammar = _
  rw [Store.query_add_next]
  rfl

/-- A join that compares with a value. -/
theorem refusedOr_joinValue (hunknown : ¬s.Knows q operator)
    (table first other second type : Value) :
    (q.join run table first operator second type true).RefusedOr (s.Refuses q operator) s
      (q.join run table first other second type true) := by
  refine refusedOr_bind _ fun join s' hjoin => ?_
  have hsame := operatorsOf_newJoin hjoin
  dsimp only
  split
  · exact refusedOr_refl _
  · exact ((refusedOr_where ((Store.knows_congr hsame).not.2 hunknown) _ _ _).imp fun _ =>
      Store.refuses_congr hsame).next _

/-- A join that compares columns. -/
theorem refusedOr_joinColumns (hunknown : ¬s.Knows q operator)
    (table first second type : Value) :
    (q.join run table first operator second type false).RefusedOr (s.Refuses q operator) s
      (q.join run table first (.text "=") operator type false) := by
  refine refusedOr_bind _ fun join s' hjoin => ?_
  have hsame := operatorsOf_newJoin hjoin
  dsimp only
  split
  · exact refusedOr_refl _
  · exact ((refusedOr_on ((Store.knows_congr hsame).not.2 hunknown) _ _ _).imp fun _ =>
      Store.refuses_congr hsame).next _

/-- A join of a sub-query is a join once the sub-query is compiled. -/
theorem refusedOr_joinSub (hrun : run.KeepsOperators) (hq : q.index < s.queries.size)
    (hunknown : ¬s.Knows q operator) {byValue : Bool} {first other second compared type : Value}
    (h : ∀ (s : Store) table, ¬s.Knows q operator →
      (q.join run table first operator second type byValue).RefusedOr (s.Refuses q operator) s
        (q.join run table first other compared type byValue)) (query name : Value) :
    (q.joinSub run query name first operator second type byValue).RefusedOr (s.Refuses q operator) s
      (q.joinSub run query name first other compared type byValue) := by
  refine refusedOr_bind _ fun sub s1 hsub => ?_
  refine refusedOr_bind _ fun name s2 hname => ?_
  refine refusedOr_bind _ fun u s3 hbind => ?_
  have hsub' := (operators_createSub hrun q query).of_ran hsub hq
  have hname' := (operators_wrappedTable q _).of_ran hname (hsub'.lt hq)
  have hbind' := (operators_bind q _ _).of_ran hbind (hname'.lt (hsub'.lt hq))
  have hkept := hsub'.trans (hname'.trans hbind')
  exact (h s3 _ ((hkept.knows_iff hq operator).not.2 hunknown)).imp fun _ =>
    Store.refuses_congr (hkept.added q hq)

/-! ## Unknown operators -/

variable {call : FluentCall}

/-- With a value beside it, an operator that is not known is refused, or not looked at. -/
theorem perform_beside_unknown (hrun : run.KeepsOperators) (hq : q.index < s.queries.size)
    (hoperator : call.operator? = some operator) (hvalue : call.comparesValue = true)
    (hunknown : ¬s.Knows q operator) (other : Value) :
    (call.perform run q).RefusedOr (s.Refuses q operator) s
      ((call.withOperator other).perform run q) := by
  cases call with
  | «where» column given value boolean =>
    cases hoperator
    cases value with
    | none => exact nomatch hvalue
    | some value => exact refusedOr_where hunknown column boolean other
  | whereNot column given value boolean =>
    cases hoperator
    cases value with
    | none => exact nomatch hvalue
    | some value => exact refusedOr_whereNot hrun hunknown column boolean other
  | having column given value boolean =>
    cases hoperator
    cases value with
    | none => exact nomatch hvalue
    | some value => exact refusedOr_comparison hunknown _ _
  | whereDatePart part column given value boolean =>
    cases hoperator
    cases value with
    | none => exact nomatch hvalue
    | some value => exact refusedOr_comparison hunknown _ _
  | whereJsonLength column given value boolean =>
    cases hoperator
    cases value with
    | none => exact nomatch hvalue
    | some value => exact refusedOr_comparison hunknown _ _
  | join table first given second type byValue =>
    cases hoperator
    cases hvalue
    exact refusedOr_joinValue hunknown table first other second type
  | joinSub query name first given second type byValue =>
    cases hoperator
    cases hvalue
    exact refusedOr_joinSub hrun hq hunknown
      (fun _ table h => refusedOr_joinValue h table first other second type) query name
  | _ => exact nomatch hvalue

/-- Without a value beside it, an operator that is not known is what the first column is compared
with, if the grammar can be asked for those that it adds. -/
theorem perform_alone_unknown (hrun : run.KeepsOperators) (hq : q.index < s.queries.size)
    (hoperator : call.operator? = some operator) (hvalue : call.comparesValue = false)
    (hwritten : call.written? = none) (hunknown : ¬s.Knows q operator) :
    (call.perform run q).RefusedOr (s.Refuses q operator) s
      ((call.equating operator).perform run q) := by
  cases call with
  | «where» column given value boolean =>
    cases hoperator
    cases value with
    | none => exact .inr rfl
    | some value => exact nomatch hvalue
  | whereNot column given value boolean =>
    cases hoperator
    cases value with
    | none => exact .inr rfl
    | some value => exact nomatch hvalue
  | having column given value boolean =>
    cases hoperator
    cases value with
    | none => exact .inr rfl
    | some value => exact nomatch hvalue
  | whereDatePart part column given value boolean =>
    cases hoperator
    cases value with
    | none => exact .inr rfl
    | some value => exact nomatch hvalue
  | whereJsonLength column given value boolean =>
    cases hoperator
    cases value with
    | none => exact .inr rfl
    | some value => exact nomatch hvalue
  | whereColumn first given second boolean =>
    cases hoperator
    exact refusedOr_whereColumn hunknown first second boolean
  | on first given second boolean =>
    cases hoperator
    exact refusedOr_on hunknown first second boolean
  | join table first given second type byValue =>
    cases hoperator
    cases hvalue
    exact refusedOr_joinColumns hunknown table first second type
  | joinSub query name first given second type byValue =>
    cases hoperator
    cases hvalue
    exact refusedOr_joinSub hrun hq hunknown
      (fun _ table h => refusedOr_joinColumns h table first second type) query name
  | crossJoin table first given second =>
    cases hoperator
    unfold FluentCall.equating FluentCall.perform QueryId.crossJoin
    dsimp only
    split
    · exact refusedOr_refl _
    · exact refusedOr_joinColumns hunknown table first second (.text "cross")
  | whereSub column given query boolean => exact nomatch hwritten
  | whereRowValues columns given values boolean => exact nomatch hwritten
  | _ => exact nomatch hoperator

/-! ## Operators that are written -/

theorem Value.itemsNow_store {v : Value} : (v.itemsNow.runOn s).2 = s := by
  unfold Value.itemsNow Value.now
  split <;> rfl

/-- The action fails before it adds a condition to a query, or adds one with an operator. -/
def Action.WritesLast (q : QueryId) (operator : Value) (s : Store) (a : Action Unit) : Prop :=
  (∃ e, (a.runOn s).1 = .error e ∧ s.OperatorsKept (a.runOn s).2) ∨
    ∃ s1 boolean body values, s.OperatorsKept s1 ∧ operator ∈ Where.operators body ∧
      a.runOn s = (.ok (), (s1.edit q (·.addWhere boolean body)).edit q (·.bind .condition values))

theorem writesLast_whereSub (hrun : run.KeepsOperators) (hq : q.index < s.queries.size)
    (column operator query boolean : Value) :
    (q.whereSub run column operator query boolean).WritesLast q operator s := by
  have hresolve : s.OperatorsKept ((q.resolveSub run query).runOn s).2 :=
    (operators_resolveSub hrun q query).kept hq
  unfold Action.WritesLast QueryId.whereSub
  rw [Action.runOn_bind]
  cases hr : ((q.resolveSub run query).runOn s).1 with
  | error e => exact .inl ⟨e, rfl, hresolve⟩
  | ok sub =>
    exact .inr ⟨_, boolean, .sub column operator sub, _, hresolve, List.mem_singleton_self _, rfl⟩

theorem writesLast_whereRowValues (columns operator values boolean : Value) :
    (q.whereRowValues columns operator values boolean).WritesLast q operator s := by
  unfold Action.WritesLast QueryId.whereRowValues
  rw [Action.runOn_bind, Value.itemsNow_store]
  cases (columns.itemsNow.runOn s).1 with
  | error e => exact .inl ⟨e, rfl, .refl s⟩
  | ok cs =>
    dsimp only
    rw [Action.runOn_bind, Value.itemsNow_store]
    cases (values.itemsNow.runOn s).1 with
    | error e => exact .inl ⟨e, rfl, .refl s⟩
    | ok vs =>
      dsimp only
      split
      · exact .inl ⟨_, rfl, .refl s⟩
      · exact .inr ⟨s, boolean, .rowValues cs operator vs, _, .refl s, List.mem_singleton_self _, rfl⟩

theorem writesLast_perform (hrun : run.KeepsOperators) (hq : q.index < s.queries.size)
    (hwritten : call.written? = some operator) :
    (call.perform run q).WritesLast q operator s := by
  cases call with
  | whereSub column given query boolean =>
    cases hwritten
    exact writesLast_whereSub hrun hq column operator query boolean
  | whereRowValues columns given values boolean =>
    cases hwritten
    exact writesLast_whereRowValues columns operator values boolean
  | _ => exact nomatch hwritten

/-- A condition with an operator that its query does not know. -/
theorem Store.not_operatorsKnown_of_written (hq : q.index < s.queries.size)
    (hunknown : ¬s.Knows q operator) {boolean : Value} {body : Where}
    (hbody : operator ∈ body.operators) (values : List Value) :
    ¬((s.edit q (·.addWhere boolean body)).edit q (·.bind .condition values)).OperatorsKnown := by
  intro hall
  have hmem : operator ∈
      (((s.edit q (·.addWhere boolean body)).edit q (·.bind .condition values)).query q).operators := by
    rw [query_edit_self (by rwa [size_edit]), query_edit_self hq]
    exact (Query.operators_addWhere _ _ _ _).2 (.inr hbody)
  have hadd := @knows_edit_iff s q (·.addWhere boolean body) (fun _ => rfl) q operator
  have hbind := @knows_edit_iff (s.edit q (·.addWhere boolean body)) q
    (·.bind .condition values) (fun _ => rfl) q operator
  exact hunknown (hadd.1 (hbind.1 (hall q operator hmem)))

/-! ## The result -/

/-- An operator that its query does not know gets into a condition only by the calls that write their
operator, and by them whenever they succeed.  Any other call is refused if it has a value beside the
operator, or does not look at the operator; without a value it does what it does with equality, and
the operator is the value or the column that the first one is compared with. -/
theorem unknownOperator_written_iff (hrun : run.KeepsOperators) (hq : q.index < s.queries.size)
    (hknown : s.OperatorsKnown) (hoperator : call.operator? = some operator)
    (hunknown : ¬s.Knows q operator) :
    (((call.perform run q).runOn s).2.OperatorsKnown ↔
        ¬(call.written? = some operator ∧ ((call.perform run q).runOn s).1 = .ok ())) ∧
      (call.written? = none → call.comparesValue = true →
        (∃ e, s.Refuses q operator e ∧ ((call.perform run q).runOn s).1 = .error e) ∨
          ∀ other, ((call.withOperator other).perform run q).runOn s =
            (call.perform run q).runOn s) ∧
      (call.written? = none → call.comparesValue = false →
        (∃ e, s.Refuses q operator e ∧ ((call.perform run q).runOn s).1 = .error e) ∨
          ((call.equating operator).perform run q).runOn s = (call.perform run q).runOn s) := by
  refine ⟨⟨?_, fun h => ?_⟩, fun _ hvalue => ?_, fun hwritten hvalue =>
    perform_alone_unknown hrun hq hoperator hvalue hwritten hunknown⟩
  · rintro hall ⟨hwritten, hok⟩
    obtain ⟨e, hfail, _⟩ | ⟨s1, boolean, body, values, hkept, hbody, houtcome⟩ :=
      writesLast_perform (s := s) hrun hq hwritten
    · exact nomatch hok.symm.trans hfail
    · rw [houtcome] at hall
      exact Store.not_operatorsKnown_of_written (hkept.lt hq)
        ((hkept.knows_iff hq operator).not.2 hunknown) hbody values hall
  · cases hwritten : call.written? with
    | none =>
      have hkeeps : Action.KeepsOperators q [] (call.perform run q) :=
        call.operators_perform hrun (by rw [hwritten]; exact nofun)
      exact (hkeeps.kept hq).known hknown
    | some written =>
      obtain rfl := Option.some.inj ((call.operator_of_written hwritten).symm.trans hoperator)
      obtain ⟨e, _, hkept⟩ | ⟨s1, boolean, body, values, _, _, houtcome⟩ :=
        writesLast_perform (s := s) hrun hq hwritten
      · exact hkept.known hknown
      · exact absurd ⟨hwritten, congrArg Prod.fst houtcome⟩ h
  · by_cases hrefused :
      ∃ e, s.Refuses q operator e ∧ ((call.perform run q).runOn s).1 = .error e
    · exact .inl hrefused
    · exact .inr fun other =>
        (perform_beside_unknown hrun hq hoperator hvalue hunknown other).resolve_left hrefused

end

/-! ## Examples of unknown operators -/

theorem Runner.keepsOperators_idle : Runner.idle.KeepsOperators :=
  ⟨fun _ _ _ => operators_pure _, fun s _ _ _ _ _ => .refl s⟩

/-- A store whose only query has no conditions. -/
theorem Store.operatorsKnown_ofTable (table : String) : (Store.ofTable table).OperatorsKnown := by
  intro id operator hmem
  have hnone : ((Store.ofTable table).query id).operators = [] := by
    rcases id with ⟨_ | n⟩ <;> rfl
  rw [hnone] at hmem
  exact nomatch hmem

theorem Store.not_knows_of_isOperator {s : Store} {q : QueryId} {word : String}
    (h : s.isOperator q word = .ok false) : ¬s.Knows q (.text word) := by
  rintro ⟨_, heq, hknown⟩
  cases heq
  exact nomatch h.symm.trans hknown

/-- A word that is no operator is refused before a value. -/
theorem unknownOperator_written_iff_refused :
    (((FluentCall.where (.text "id") (some (.text "sideways")) (some (.int 5)) (.text "and")).perform
      Runner.idle ⟨0⟩).runOn (Store.ofTable "users")).2.OperatorsKnown :=
  have hunknown : ¬(Store.ofTable "users").Knows ⟨0⟩ (.text "sideways") :=
    Store.not_knows_of_isOperator rfl
  (unknownOperator_written_iff Runner.keepsOperators_idle (by decide)
    (Store.operatorsKnown_ofTable "users") rfl hunknown).1.2 fun h => nomatch h.1

/-- Any text between a row of columns and a row of values gets into the SQL. -/
theorem rowValues_write_operator :
    ¬(Store.ofTable "users").Knows ⟨0⟩ (.text "or 1=1 --") ∧
      (((FluentCall.whereRowValues (.list [.text "a", .text "b"]) (.text "or 1=1 --")
        (.list [.int 1, .int 2]) (.text "and")).perform Runner.idle ⟨0⟩).runOn
          (Store.ofTable "users")).2.selectSql ⟨0⟩ =
        .ok "select * from \"users\" where (\"a\", \"b\") or 1=1 -- (?, ?)" :=
  ⟨Store.not_knows_of_isOperator rfl, rfl⟩

end FluentSql
