import FluentSql.Proofs.Building.Call
import FluentSql.Proofs.Owing.Basic

/-!
# Comparisons that owe values

A call that compares columns with values owes as much as the values do.  The
same call is read twice: in the store as it is, where it binds what is no
fragment, and in the store that is also bound to what is owed, where it keeps
its query noted.

* `QueryId.operands` and `FluentCall.operands` are the values that a call
  compares with, and `FluentCall.Compares` is what else it must be given.
* `Owing.inner` is about a query that a call makes for a group or a join.
* `Owing.whereSingle`, `Owing.whereGroup` and `Owing.perform` are the calls.
* `Comparisons` are runs of such calls, and `Comparisons.owe` what they owe.
-/

namespace FluentSql

/-! ## What a call compares with -/

namespace QueryId

/-- The values that the conditions of a list or a map compare with.  A condition may itself be a list;
`fuel` bounds how deeply they are nested. -/
def groupOperands : (fuel : Nat) → (conditions boolean : Value) → List Value
  | 0, _, _ => []
  | fuel + 1, conditions, boolean => (conditionArguments conditions boolean).flatMap fun
    | .ok (column :: rest) =>
      if isConditionList column then groupOperands fuel column (rest[2]?.getD (.text "and"))
      else [comparand rest[0]? rest[1]?]
    | _ => []

/-- The values that a comparison, or a list or a map of them, compares with. -/
def operands (column : Value) (operator value : Option Value) (boolean : Value) : List Value :=
  if isConditionList column then groupOperands (depth column + 1) column boolean
  else [comparand operator value]

end QueryId

open QueryId in
/-- The columns of a comparison, or of a list or a map of them. -/
inductive ConditionColumns (g : Grammar) : (column boolean : Value) → Prop
  /-- A single comparison. -/
  | single {column boolean} (hlist : isConditionList column = false)
      (hcolumn : ColumnHolds g column []) (hboolean : WordHolds boolean) :
      ConditionColumns g column boolean
  /-- A list or a map. -/
  | group {column boolean} (hlist : isConditionList column = true) (hboolean : WordHolds boolean)
      (hparts : ∀ first rest, .ok (first :: rest) ∈ conditionArguments column boolean →
        rest.length ≤ 3 → ConditionColumns g first (rest[2]?.getD (.text "and"))) :
      ConditionColumns g column boolean

/-- What stands for a comparison is read as it is. -/
theorem ConditionColumns.now {g : Grammar} {column boolean v : Value} {s s' : Store}
    (h : ConditionColumns g column boolean) (hran : Ran column.now s v s') :
    v = column ∧ s' = s := by
  refine Value.now_ran (fun id hid => ?_) hran
  subst hid
  cases h with
  | group hlist _ _ => exact nomatch hlist
  | single _ hcolumn _ => exact nomatch hcolumn.data

/-- What stands for a comparison is no callback. -/
theorem ConditionColumns.not_callable {g : Grammar} {column boolean : Value}
    (h : ConditionColumns g column boolean) : column.isCallable = false := by
  cases h with
  | group hlist _ _ =>
    cases column with
    | object handle => exact nomatch hlist
    | _ => rfl
  | single _ hcolumn _ => exact Value.isCallable_data hcolumn.data

namespace FluentCall

/-- The values that a call compares columns with. -/
def operands : FluentCall → List Value
  | join _ first operator second _ true =>
    QueryId.operands first (some operator) (some second) (.text "and")
  | «where» column operator value boolean => QueryId.operands column operator value boolean
  | whereNot column operator value _ => QueryId.operands column operator value (.text "and")
  | whereIn _ values _ _ | whereRowValues _ _ values _ => values.items.toOption.getD []
  | whereBetween _ values _ _ | havingBetween _ values _ _ =>
    (values.items >>= QueryId.betweenEnds).toOption.getD []
  | whereDatePart _ _ operator value _ | whereJsonLength _ operator value _ =>
    [comparand (some operator) value]
  | whereJsonContains _ value _ _ => [value]
  | having _ operator value _ => [comparand operator value]
  | _ => []

/-- The group of values of a call that compares columns with values. -/
def operandGroup : FluentCall → BindingGroup
  | join .. => .join
  | having .. | havingBetween .. => .having
  | _ => .condition

/-- A call that compares columns with values.  References hold no single quotes in their JSON keys, in
PostgreSQL; words hold no placeholders. -/
def Compares (g : Grammar) : FluentCall → Prop
  | join table first _ _ type byValue =>
    byValue = true ∧ WordHolds type ∧ TableHolds g table [] ∧
      ConditionColumns g first (.text "and")
  | «where» column _ _ boolean => ConditionColumns g column boolean
  | whereNot column _ _ boolean => WordHolds boolean ∧ ConditionColumns g column (.text "and")
  | whereIn column values boolean _ | whereBetween column values boolean _
  | havingBetween column values boolean _ =>
    ColumnHolds g column [] ∧ values.handles = [] ∧ WordHolds boolean
  | whereRowValues columns operator values boolean =>
    columns.handles = [] ∧ (∀ cs, columns.items = .ok cs → ∀ c ∈ cs, ColumnHolds g c []) ∧
      WordHolds operator ∧ values.handles = [] ∧ WordHolds boolean
  | whereDatePart _ column _ _ boolean | whereJsonContains column _ boolean _
  | whereJsonLength column _ _ boolean | having column _ _ boolean =>
    ColumnHolds g column [] ∧ WordHolds boolean
  | _ => False

end FluentCall

section

variable {g : Grammar} {p : String} {run : Runner} {group : BindingGroup} {n : Nat}
variable {s s' s1 : Store} {b : QueryId → Bindings} {notes : QueryId → Notes} {note : Notes}
variable {t : QueryId}

/-! ## Queries that a call makes -/

/-- A new query and what its conditions owe, once some calls have built it.  Nothing else has
changed. -/
structure OwesInner (g : Grammar) (n : Nat) (s : Store) (b : QueryId → Bindings)
    (notes : QueryId → Notes) (note : Notes) (s1 : Store) (b1 : QueryId → Bindings)
    (notes1 : QueryId → Notes) (vs ws : List Value) : Prop where
  later : Later g ∅ ∅ (s.paid b) notes (s1.paid b1) notes1
  stands : (s1.paid b1).Stands notes1 s.next
  same : ∀ id : QueryId, id.index < s.queries.size → s1.query id = s.query id ∧ b1 id = b id
  bound : (s1.query s.next).bindings = Bindings.extend {} .condition vs
  paid : b1 s.next = Bindings.extend {} .condition ws
  count : ws.length = vs.length + n
  table : (notes1 s.next).table = note.table

theorem Bindings.flatten_conditions (vs : List Value) :
    (Bindings.extend {} .condition vs).flatten = vs := by
  simp [flatten, flattenGroups, BindingGroup.all, extend, set, get]

namespace Owing

variable (h : Owing g p run s b notes t)
include h

/-- A query that a call makes, and on which it makes calls that owe values. -/
theorem inner {kind : QueryKind} {connection : Option ConnectionId} {source : Value}
    (hq : ({ kind, connection, grammar := (s.query t).grammar, source } : Query).Noted g (s.paid b)
      notes note) (hclosed : note.closed = true)
    (hbuild : ∀ b1 notes1,
      Owing g p run (s.add { kind, connection, grammar := (s.query t).grammar, source }) b1 notes1
        s.next →
      Owes g .condition n (s.add { kind, connection, grammar := (s.query t).grammar, source }) b1
        notes1 s.next s1) :
    ∃ b1 notes1 vs ws, OwesInner g n s b notes note s1 b1 notes1 vs ws := by
  have hgrammar : ((s.paid b).query t).grammar = (s.query t).grammar := by
    rw [Store.query_paid h.there]
  have hnext : (s.paid b).next = s.next := congrArg QueryId.mk Store.size_paid
  rw [← hgrammar] at hq hbuild
  have hlater := @Later.add g (s.paid b) notes ∅ ∅ _ _ h.ready.noted hq rfl
  obtain ⟨hready, hstands⟩ := h.ready.new hq hclosed
  generalize hquery : ({ kind, connection, grammar := ((s.paid b).query t).grammar, source } : Query)
    = q at hlater hready hstands hbuild
  have hbare : q.bindings = {} := by
    rw [← hquery]
  rw [← s.paid_add b q, hnext] at hlater hready hstands
  obtain ⟨b1, notes1, vs, ws, hlater1, hstands1, hothers, hbound, hpaid, hcount⟩ :=
    hbuild _ _ ⟨hready, hstands⟩
  have hthere : s.next.index < (s.add q).queries.size := by
    rw [s.size_add]
    exact Nat.lt_succ_self _
  have hall : Later g ∅ ∅ (s.paid b) notes (s1.paid b1) notes1 := hlater.trans hlater1 (by
    rintro id rfl hid
    rw [Store.size_paid] at hid
    exact absurd hid (Nat.lt_irrefl _)) fun id hid _ => hid
  refine ⟨b1, notes1, vs, ws, hall, hstands1, fun id hid => ⟨?_, ?_⟩, ?_, ?_, hcount, ?_⟩
  · have hne : id ≠ s.next := by
      rintro rfl
      exact absurd hid (Nat.lt_irrefl _)
    rw [hothers id (Nat.lt_of_lt_of_le hid (by rw [s.size_add]; exact Nat.le_succ _)) hne,
      Store.query_add_of_lt hid]
  · have hid' : id.index < (s.paid b).queries.size := by rwa [Store.size_paid]
    have hsame := (hall.others id hid' (Set.notMem_empty id)).1
    have hid1 := Nat.lt_of_lt_of_le hid' hall.size
    rw [Store.size_paid] at hid1
    rw [Store.query_paid hid1, Store.query_paid hid] at hsame
    exact congrArg Query.bindings hsame
  · rw [hbound, s.query_add_next, hbare]
  · rw [hpaid, Function.update_self, hbare]
  · have hkept := (hlater1.kept s.next (by rwa [Store.size_paid])).table
    rwa [Function.update_self] at hkept

/-- A group owes what the query of the group owes.  Without conditions that owes nothing. -/
theorem addInner {b1 : QueryId → Bindings} {notes1 : QueryId → Notes} {vs ws : List Value}
    (hinner : OwesInner g n s b notes note s1 b1 notes1 vs ws) {boolean : Value}
    (hboolean : WordHolds boolean) {u : Unit} (hran : Ran (t.addNested s.next boolean) s1 u s') :
    Owes g .condition n s b notes t s' := by
  obtain rfl := ran_addNested.1 hran
  have hne : s.next ≠ t := by
    rintro rfl
    exact absurd h.there (Nat.lt_irrefl _)
  have hpaid : (s1.paid b1).query s.next =
      { s1.query s.next with bindings := Bindings.extend {} .condition ws } := by
    have hthere := hinner.stands.1
    rw [Store.size_paid] at hthere
    rw [Store.query_paid hthere, hinner.paid]
  have hkept := (h.ready.addNested h.stands hinner.later hinner.stands hne
    (.inr (Nat.le_of_eq Store.size_paid)) hboolean (ran_addNested (u := ()).2 rfl)).1
  have hsame := fun id hid => (hinner.same id hid).1
  have hb := (hinner.same t h.there).2
  rw [hpaid] at hkept
  rw [hinner.bound]
  cases hempty : (s1.query s.next).wheres.isEmpty with
  | false =>
    rw [hempty] at hkept
    exact .edit h hsame hb hkept (fun _ => rfl) (fun _ => rfl) hinner.count
  | true =>
    rw [hempty] at hkept
    obtain ⟨notes2, hlater, hstands⟩ := hkept
    have hnone : ws = [] := by
      have hcondition := (hinner.later.noted.queries s.next hinner.stands).condition
      rw [hpaid, List.isEmpty_iff.1 hempty] at hcondition
      exact hcondition
    have hcount := hinner.count
    rw [hnone, List.length_nil] at hcount
    refine ⟨b1, notes2, [], [], hlater, hstands, fun id hid _ => hsame id hid, ?_, ?_, ?_⟩
    · rw [Bindings.extend_nil]
      exact congrArg Query.bindings (hsame t h.there)
    · rw [Bindings.extend_nil, hb]
    · rw [List.length_nil]
      omega

/-- A group of conditions owes what its conditions owe. -/
theorem groupBuiltBy {boolean : Value} (hboolean : WordHolds boolean)
    {build : QueryId → Action Unit}
    (hbuild : ∀ s1 b1 notes1 nested s2 u, Owing g p run s1 b1 notes1 nested →
      Ran (build nested) s1 u s2 → Owes g .condition n s1 b1 notes1 nested s2)
    {u : Unit} (hran : Ran (t.groupBuiltBy run boolean build) s u s') :
    Owes g .condition n s b notes t s' := by
  unfold QueryId.groupBuiltBy at hran
  simp only [ran_bind] at hran
  obtain ⟨nested, s1, hnew, _, s2, hrun, hadd⟩ := hran
  have hsource := (h.ready.noted.queries t h.stands).sourceData
  have hgroup := h.ready.group_noted h.stands
  rw [Store.query_paid h.there] at hsource hgroup
  obtain ⟨rfl, rfl⟩ := forNestedWhere_ran h.there hsource hnew
  obtain ⟨b2, notes2, vs, ws, hinner⟩ :=
    h.inner hgroup rfl fun b1 notes1 h1 => hbuild _ _ _ _ _ _ h1 hrun
  exact h.addInner hinner hboolean hadd

/-- The same call for each element of a list, if the values of each are known. -/
theorem each {α : Type} {f : α → Action PUnit} {xs : List α} (values : α → List Value)
    (hf : ∀ x ∈ xs, ∀ s b notes s' u, Owing g p run s b notes t → Ran (f x) s u s' →
      Owes g group ((values x).map Value.owed).sum s b notes t s')
    {u : PUnit} (hran : Ran (xs.forM f) s u s') :
    Owes g group ((xs.flatMap values).map Value.owed).sum s b notes t s' := by
  induction xs generalizing s b notes with
  | nil =>
    obtain ⟨_, rfl⟩ := ran_pure.1 hran
    exact .refl h
  | cons x xs ih =>
    have hbind : Ran (f x >>= fun _ => xs.forM f) s u s' := hran
    obtain ⟨_, s1, hx, hxs⟩ := ran_bind.1 hbind
    rw [List.flatMap_cons, List.map_append, List.sum_append]
    refine .trans h (hf x List.mem_cons_self s b notes s1 _ h hx) fun b1 notes1 h1 => ?_
    exact ih h1 (fun y hy => hf y (List.mem_cons_of_mem _ hy)) hxs

/-! ## Comparisons -/

/-- A comparison owes what the value owes. -/
theorem whereSingle {column boolean : Value} {operator value : Option Value}
    (hcolumn : ColumnHolds g column []) (hlist : QueryId.isConditionList column = false)
    (hboolean : WordHolds boolean) (hvalue : (comparand operator value).Closes) {u : Unit}
    (hran : Ran (t.whereSingle run column operator value boolean) s u s') :
    Owes g .condition (comparand operator value).owed s b notes t s' := by
  obtain ⟨c, s1, hcomparison, hcompare⟩ := whereSingle_ran hcolumn.data hran
  obtain ⟨rfl, hoperator, hc⟩ := h.comparison hcomparison
  rw [← hc] at hvalue ⊢
  rcases compareWith_ran hvalue.1 (listed_of_single hlist) hcompare with ⟨hnull, rfl⟩ | ⟨_, rfl⟩
  · have howed : c.value.owed = 0 := by
      cases hv : c.value with
      | raw w =>
        rw [hv] at hnull
        exact nomatch hnull
      | _ => rfl
    rw [howed]
    have hbody : WhereHolds g {} (.null column (c.operator != "=")) := ⟨hcolumn, rfl⟩
    exact h.addBareWhere hboolean hbody rfl (fun v hv => nomatch hv) rfl rfl
  · have hword : (QueryId.jsonWord column c.value).Closes := hvalue.jsonWord
    rw [← Value.owed_jsonWord column]
    generalize QueryId.jsonWord column c.value = v at hword
    have hbody : WhereHolds g { values := [v.paid] } (.basic column c.operator v) :=
      ⟨hcolumn, hoperator, _, rfl, hword.param⟩
    exact h.addWhere hboolean hbody (List.append_nil _) hword.paid_data rfl rfl v.length_paid

/-- A list or a map of conditions owes what all of their values owe. -/
theorem whereGroup {fuel : Nat} {conditions boolean : Value} (hboolean : WordHolds boolean)
    (hparts : ∀ first rest, .ok (first :: rest) ∈ QueryId.conditionArguments conditions boolean →
      rest.length ≤ 3 → ConditionColumns g first (rest[2]?.getD (.text "and")))
    (hvalues : ∀ v ∈ QueryId.groupOperands fuel conditions boolean, v.Closes) {u : Unit}
    (hran : Ran (QueryId.whereGroup run .values fuel t conditions boolean) s u s') :
    Owes g .condition ((QueryId.groupOperands fuel conditions boolean).map Value.owed).sum s b notes
      t s' := by
  induction fuel generalizing s b notes t conditions boolean s' u with
  | zero => exact absurd hran ran_throw
  | succ fuel ih =>
    unfold QueryId.whereGroup at hran
    refine h.groupBuiltBy hboolean ?_ hran
    intro s1 b1 notes1 nested s2 u1 h1 hrun
    unfold QueryId.groupOperands at hvalues ⊢
    refine h1.each _ ?_ hrun
    intro arguments harguments s3 b3 notes3 s4 u3 h3 hstep
    have hvalues3 := fun v hv => hvalues v (List.mem_flatMap.2 ⟨arguments, harguments, hv⟩)
    simp only [ran_bind, ran_ofExcept] at hstep
    obtain ⟨values, _, ⟨rfl, rfl⟩, hstep⟩ := hstep
    cases values with
    | nil => exact absurd hstep ran_throw
    | cons first rest =>
      simp only [ran_bind] at hstep
      obtain ⟨v, s5, hnow, hstep⟩ := hstep
      by_cases hlength : rest.length ≤ 3
      · have hpart := hparts first rest harguments hlength
        obtain ⟨rfl, rfl⟩ := hpart.now hnow
        dsimp only at hvalues3 ⊢
        cases hpart with
        | group hlist hword hinner =>
          rw [if_pos (by rw [hlist, decide_eq_true hlength]; rfl)] at hstep
          rw [if_pos hlist] at hvalues3 ⊢
          exact ih h3 hword hinner hvalues3 hstep
        | single hlist hcolumn hword =>
          rw [if_neg (by rw [hlist]; rintro ⟨⟩)] at hstep
          rw [if_neg (by rw [hlist]; exact Bool.false_ne_true)] at hvalues3 ⊢
          unfold QueryId.compareSingle at hstep
          dsimp only at hstep
          rw [if_neg (Nat.not_lt.2 hlength)] at hstep
          have howes := h3.whereSingle hcolumn hlist hword (hvalues3 _ (List.mem_singleton.2 rfl)) hstep
          rwa [List.map_singleton, List.sum_singleton]
      · rw [if_neg (by rw [decide_eq_false hlength, Bool.and_false]; rintro ⟨⟩)]
          at hstep
        unfold QueryId.compareSingle at hstep
        dsimp only at hstep
        rw [if_pos (Nat.lt_of_not_le hlength)] at hstep
        exact absurd hstep ran_throw

/-- A comparison, or a list or a map of them. -/
theorem «where» {column boolean : Value} {operator value : Option Value}
    (hcolumns : ConditionColumns g column boolean)
    (hvalues : ∀ v ∈ QueryId.operands column operator value boolean, v.Closes) {u : Unit}
    (hran : Ran (t.where run column operator value boolean) s u s') :
    Owes g .condition ((QueryId.operands column operator value boolean).map Value.owed).sum s b notes
      t s' := by
  unfold QueryId.where at hran
  simp only [ran_bind] at hran
  obtain ⟨v, s1, hnow, hran⟩ := hran
  obtain ⟨rfl, rfl⟩ := hcolumns.now hnow
  unfold QueryId.operands at hvalues ⊢
  cases hcolumns with
  | group hlist hboolean hparts =>
    rw [if_pos hlist] at hran hvalues ⊢
    exact h.whereGroup hboolean hparts hvalues hran
  | single hlist hcolumn hboolean =>
    have hone : ¬QueryId.isConditionList v = true := by rw [hlist]; exact Bool.false_ne_true
    rw [if_neg hone] at hran hvalues ⊢
    rw [List.map_singleton, List.sum_singleton]
    exact h.whereSingle hcolumn hlist hboolean (hvalues _ (List.mem_singleton.2 rfl)) hran

/-- A negated comparison. -/
theorem whereNot {column boolean : Value} {operator value : Option Value}
    (hboolean : WordHolds boolean) (hcolumns : ConditionColumns g column (.text "and"))
    (hvalues : ∀ v ∈ QueryId.operands column operator value (.text "and"), v.Closes) {u : Unit}
    (hran : Ran (t.whereNot run column operator value boolean) s u s') :
    Owes g .condition ((QueryId.operands column operator value (.text "and")).map Value.owed).sum s b
      notes t s' := by
  obtain ⟨word, hword, hran⟩ := whereNot_ran hboolean hran
  rw [if_neg (by rw [hcolumns.not_callable]; exact Bool.false_ne_true)] at hran
  exact h.groupBuiltBy hword (fun _ _ _ _ _ _ h1 hrun => h1.where hcolumns hvalues hrun) hran

/-- A join owes what its condition owes. -/
theorem join {table first operator second type : Value} (htype : WordHolds type)
    (htable : TableHolds g table []) (hcolumns : ConditionColumns g first (.text "and"))
    (hvalues : ∀ v ∈ QueryId.operands first (some operator) (some second) (.text "and"), v.Closes)
    {u : Unit} (hran : Ran (t.join run table first operator second type true) s u s') :
    Owes g .join
      ((QueryId.operands first (some operator) (some second) (.text "and")).map Value.owed).sum s b
      notes t s' := by
  obtain ⟨condition, s1, s2, hnew, hbuild, hattach⟩ := ran_join hran
  rw [if_neg (by rw [hcolumns.not_callable]; exact Bool.false_ne_true), if_pos rfl] at hbuild
  unfold QueryId.newJoin at hnew
  simp only [ran_bind, ran_read, ran_create] at hnew
  obtain ⟨_, s, ⟨rfl, rfl⟩, rfl, rfl⟩ := hnew
  have hblank : ({ kind := .join type table, connection := (s.query t).connection,
                   grammar := (s.query t).grammar } : Query).Noted g (s.paid b) notes {} := by
    have hgrammar := h.ready.grammar
    rw [Store.query_paid h.there] at hgrammar
    exact Query.blank_noted hgrammar ⟨htype, htable⟩ rfl fun _ => h.ready.compiles.noSource
  obtain ⟨b2, notes2, vs, ws, hinner⟩ :=
    h.inner hblank rfl fun b1 notes1 h1 => h1.where hcolumns hvalues hbuild
  have hne : s.next ≠ t := by
    rintro rfl
    exact absurd h.there (Nat.lt_irrefl _)
  obtain rfl := attachJoin_ran hne hattach
  have hpaid : ((s2.paid b2).query s.next).bindings = Bindings.extend {} .condition ws := by
    have hthere := hinner.stands.1
    rw [Store.size_paid] at hthere
    rw [Store.query_paid hthere, hinner.paid]
  have honly : ((s2.paid b2).query s.next).OnlyConditions := by
    unfold Query.OnlyConditions
    rw [hpaid]
    rfl
  have hkept := (h.ready.attachJoin ((Pending.none h.ready h.stands .join).after h.ready hinner.later)
    hinner.stands hne (Nat.le_of_eq Store.size_paid) hinner.table honly).1
  rw [hpaid, Bindings.flatten_conditions] at hkept
  rw [hinner.bound, Bindings.flatten_conditions]
  exact .edit h (fun id hid => (hinner.same id hid).1) (hinner.same t h.there).2 hkept
    (fun _ => rfl) (fun _ => rfl) hinner.count

/-- A condition with one parameter owes what its value owes, whatever is bound for other values than
fragments. -/
theorem addParameter {v boolean : Value} (hv : v.Closes) (hboolean : WordHolds boolean)
    {bound : Value → Except Failure Value} {body : Where}
    (hran : v.isRaw = true ∧ s' = s.edit t (·.addWhere boolean body) ∨
      ¬v.isRaw = true ∧ ∃ w, bound v = .ok w ∧ w.handles = [] ∧
        s' = s.edit t fun q => (q.addWhere boolean body).bind .condition [w])
    (hbody : ∀ vs, ParamHolds bound v vs → WhereHolds g { values := [vs] } body)
    (hvalues : ∀ vs, body.valuesIn (s.paid b) { values := [vs] } = vs) (hgroup : body.group? = none)
    (hsub : body.sub? = none) :
    Owes g .condition v.owed s b notes t s' := by
  rcases hran with ⟨hraw, rfl⟩ | ⟨hraw, w, hbound, hdata, rfl⟩
  · have howed : v.owed = v.paid.length := by
      cases v with
      | raw w => exact List.length_replicate.symm
      | _ => exact nomatch hraw
    rw [howed]
    exact h.addBareWhere hboolean (hbody _ (hv.raw_param hraw bound)) (hvalues _) hv.paid_data hgroup
      hsub
  · rw [Value.owed_of_not_raw hraw]
    exact h.addWhere hboolean (hbody _ (hv.other_param hraw hbound)) (hvalues _)
      (List.forall_mem_singleton.2 hdata) hgroup hsub rfl

/-! ## Calls -/

/-- A call that compares columns with values owes what the values owe. -/
theorem perform {call : FluentCall} (hcall : call.Compares g)
    (hvalues : ∀ v ∈ call.operands, v.Closes) {u : Unit} (hran : Ran (call.perform run t) s u s') :
    Owes g call.operandGroup (call.operands.map Value.owed).sum s b notes t s' := by
  cases call
  case «where» column operator value boolean => exact h.where hcall hvalues hran
  case whereNot column operator value boolean => exact h.whereNot hcall.1 hcall.2 hvalues hran
  case join table first operator second type byValue =>
    obtain ⟨rfl, htype, htable, hcolumns⟩ := hcall
    exact h.join htype htable hcolumns hvalues hran
  case whereIn column values boolean negated =>
    obtain ⟨hcolumn, hdata, hboolean⟩ := hcall
    obtain ⟨vs, hvs, rfl⟩ := whereIn_ran hdata hran
    unfold FluentCall.operands at hvalues ⊢
    dsimp only at hvalues ⊢
    rw [hvs] at hvalues ⊢
    have hbody : WhereHolds g { values := vs.map Value.paid } (.among column vs negated) :=
      ⟨hcolumn, rfl, Value.Closes.params hvalues⟩
    exact h.addWhere hboolean hbody rfl (Value.Closes.paids_data hvalues) rfl rfl
      (Value.length_paid_flatten vs)
  case whereBetween column values boolean negated =>
    obtain ⟨hcolumn, hdata, hboolean⟩ := hcall
    obtain ⟨vs, ends, hvs, hends, rfl⟩ := whereBetween_ran hdata hran
    have hall : (values.items >>= QueryId.betweenEnds) = .ok ends := by rw [hvs]; exact hends
    unfold FluentCall.operands at hvalues ⊢
    dsimp only at hvalues ⊢
    rw [hall] at hvalues ⊢
    have hbody : WhereHolds g { values := ends.map Value.paid } (.between column vs negated) :=
      ⟨hcolumn, endsHold (Value.items_data hdata hvs) hends fun v hv => (hvalues v hv).param⟩
    exact h.addWhere hboolean hbody rfl (Value.Closes.paids_data hvalues) rfl rfl
      (Value.length_paid_flatten ends)
  case whereRowValues columns operator values boolean =>
    obtain ⟨hcolumnsData, hcolumns, hoperator, hdata, hboolean⟩ := hcall
    obtain ⟨cs, vs, hcs, hvs, rfl⟩ := whereRowValues_ran hcolumnsData hdata hran
    unfold FluentCall.operands at hvalues ⊢
    dsimp only at hvalues ⊢
    rw [hvs] at hvalues ⊢
    have hbody : WhereHolds g { values := vs.map Value.paid } (.rowValues cs operator vs) :=
      ⟨hcolumns cs hcs, hoperator, rfl, Value.Closes.params hvalues⟩
    exact h.addWhere hboolean hbody rfl (Value.Closes.paids_data hvalues) rfl rfl
      (Value.length_paid_flatten vs)
  case whereDatePart part column operator value boolean =>
    obtain ⟨hcolumn, hboolean⟩ := hcall
    have hvalue := hvalues _ (List.mem_singleton.2 rfl)
    obtain ⟨word, hword, rfl⟩ :=
      whereDatePart_ran h.ready.compiles h.grammar hvalue.1 hran
    have hwritten := hvalue.datePart part
    unfold FluentCall.operands
    rw [List.map_singleton, List.sum_singleton, ← Value.owed_datePartValue part]
    generalize QueryId.datePartValue part (comparand (some operator) value) = v at hwritten
    have hbody : WhereHolds g { values := [v.paid] } (.datePart part column word v) :=
      ⟨hcolumn, hword, _, rfl, hwritten.param⟩
    exact h.addWhere hboolean hbody (List.append_nil _) hwritten.paid_data rfl rfl v.length_paid
  case whereJsonContains column value boolean negated =>
    obtain ⟨hcolumn, hboolean⟩ := hcall
    have hvalue := hvalues _ (List.mem_singleton.2 rfl)
    unfold FluentCall.operands
    rw [List.map_singleton, List.sum_singleton]
    exact h.addParameter hvalue hboolean (whereJsonContains_ran hvalue.1 hran)
      (fun vs hvs => ⟨hcolumn, rfl, _, rfl, hvs⟩) (fun vs => List.append_nil vs) rfl rfl
  case whereJsonLength column operator value boolean =>
    obtain ⟨hcolumn, hboolean⟩ := hcall
    have hvalue := hvalues _ (List.mem_singleton.2 rfl)
    obtain ⟨word, hword, hran⟩ := whereJsonLength_ran h.ready.compiles h.grammar hran
    unfold FluentCall.operands
    rw [List.map_singleton, List.sum_singleton]
    exact h.addParameter hvalue hboolean hran
      (fun vs hvs => ⟨hcolumn, hword, rfl, _, rfl, hvs⟩) (fun vs => List.append_nil vs) rfl rfl
  case having column operator value boolean =>
    obtain ⟨hcolumn, hboolean⟩ := hcall
    have hvalue := hvalues _ (List.mem_singleton.2 rfl)
    obtain ⟨word, hword, rfl⟩ := having_ran h.ready.compiles h.grammar hran
    unfold FluentCall.operands
    rw [List.map_singleton, List.sum_singleton]
    generalize comparand operator value = v at hvalue
    have hbody : HavingHolds g { values := [v.paid] } (.basic column word v) :=
      ⟨hcolumn, hword, _, rfl, hvalue.param⟩
    exact h.addHaving hboolean hbody (List.append_nil _) hvalue.paid_data v.length_paid
  case havingBetween column values boolean negated =>
    obtain ⟨hcolumn, hdata, hboolean⟩ := hcall
    obtain ⟨vs, ends, hvs, hends, rfl⟩ := havingBetween_ran hdata hran
    have hall : (values.items >>= QueryId.betweenEnds) = .ok ends := by rw [hvs]; exact hends
    unfold FluentCall.operands at hvalues ⊢
    dsimp only at hvalues ⊢
    rw [hall] at hvalues ⊢
    have hbody : HavingHolds g { values := ends.map Value.paid } (.between column vs negated) :=
      ⟨hcolumn, endsHold (Value.items_data hdata hvs) hends fun v hv => (hvalues v hv).param⟩
    exact h.addHaving hboolean hbody rfl (Value.Closes.paids_data hvalues)
      (Value.length_paid_flatten ends)
  all_goals exact hcall.elim

end Owing

/-! ## Runs -/

/-- The runs of calls on a query that compare columns with values, with these values and the group of
each: whether it is that of a join, a condition or a condition on groups. -/
inductive Comparisons (g : Grammar) (run : Runner) (t : QueryId) (s : Store) :
    List (BindingGroup × Value) → Store → Prop where
  /-- Nothing has been done. -/
  | start : Comparisons g run t s [] s
  /-- A call is made. -/
  | call {operands s1 u s2} {call : FluentCall} (before : Comparisons g run t s operands s1)
      (hcall : call.Compares g) (hran : Ran (call.perform run t) s1 u s2) :
      Comparisons g run t s (operands ++ call.operands.map (call.operandGroup, ·)) s2

/-- The number of values that are owed in a group. -/
def owedIn (group : BindingGroup) (operands : List (BindingGroup × Value)) : Nat :=
  (operands.map fun operand => if operand.1 = group then operand.2.owed else 0).sum

theorem owedIn_append (group : BindingGroup) (xs ys : List (BindingGroup × Value)) :
    owedIn group (xs ++ ys) = owedIn group xs + owedIn group ys := by
  unfold owedIn
  rw [List.map_append, List.sum_append]

/-- The values of one call are all of one group. -/
theorem owedIn_call (group group' : BindingGroup) (vs : List Value) :
    owedIn group (vs.map (group', ·)) = if group' = group then (vs.map Value.owed).sum else 0 := by
  unfold owedIn
  rw [List.map_map]
  split
  · rename_i hsame
    simp [Function.comp_def, hsame]
  · rename_i hother
    simp [Function.comp_def, hother]

/-- What is owed in all groups. -/
theorem sum_owedIn (operands : List (BindingGroup × Value)) :
    (BindingGroup.all.map (owedIn · operands)).sum = (operands.map (·.2.owed)).sum := by
  induction operands with
  | nil => rfl
  | cons operand operands ih =>
    obtain ⟨group, v⟩ := operand
    have hone : ∀ other, owedIn other ((group, v) :: operands) =
        (if group = other then v.owed else 0) + owedIn other operands := fun _ => rfl
    have hgroup : (BindingGroup.all.map fun other => if group = other then v.owed else 0).sum =
        v.owed := by
      cases group <;> simp [BindingGroup.all]
    simp only [hone, List.sum_map_add, List.map_cons, List.sum_cons, hgroup, ih]

/-- A query is bound to as many values more as its store owes, if every group is. -/
theorem Bindings.length_flatten_of_owed {b b' : Bindings} {operands : List (BindingGroup × Value)}
    (h : ∀ group, (b'.get group).length = (b.get group).length + owedIn group operands) :
    b'.flatten.length = b.flatten.length + (operands.map (·.2.owed)).sum := by
  have hlength : ∀ b : Bindings,
      b.flatten.length = (BindingGroup.all.map fun group => (b.get group).length).sum :=
    fun b => List.length_flatMap
  rw [hlength, hlength, ← sum_owedIn, ← List.sum_map_add]
  exact congrArg List.sum (List.map_congr_left fun group _ => h group)

/-- A query that owes the values of some comparisons: its store is noted once the query is bound to
that many values more. -/
structure Owed (g : Grammar) (s : Store) (t : QueryId) (operands : List (BindingGroup × Value))
    (b : QueryId → Bindings) (notes : QueryId → Notes) : Prop where
  noted : (s.paid b).Noted g notes
  stands : (s.paid b).Stands notes t
  counts : ∀ group,
    ((b t).get group).length = ((s.query t).bindings.get group).length + owedIn group operands

/-- What a call owes is added to what is owed before it. -/
theorem Owes.counts {vs : List Value} {operands : List (BindingGroup × Value)}
    (h : Owes g group (vs.map Value.owed).sum s b notes t s')
    (hbefore : ∀ group,
      ((b t).get group).length = ((s.query t).bindings.get group).length + owedIn group operands) :
    ∃ b' notes', Later g {t} ∅ (s.paid b) notes (s'.paid b') notes' ∧
      Owed g s' t (operands ++ vs.map (group, ·)) b' notes' := by
  obtain ⟨b', notes', bound, paid, hlater, hstands, _, hbound, hpaid, hcount⟩ := h
  refine ⟨b', notes', hlater, hlater.noted, hstands, fun other => ?_⟩
  rw [hbound, hpaid, owedIn_append, owedIn_call]
  unfold Bindings.extend
  split
  · rename_i hsame
    subst hsame
    rw [Bindings.get_set_self, Bindings.get_set_self, List.length_append, List.length_append,
      hbefore, hcount]
    omega
  · rename_i hother
    rw [Bindings.get_set_of_ne _ _ (Ne.symm hother), Bindings.get_set_of_ne _ _ (Ne.symm hother),
      hbefore]
    omega

/-- Comparisons owe what their values owe. -/
theorem Comparisons.owe (h : Ready g p run ⟨∅, ∅⟩ s notes t) (hstands : s.Stands notes t)
    {operands : List (BindingGroup × Value)} (hrun : Comparisons g run t s operands s')
    (hoperands : ∀ operand ∈ operands, operand.2.Closes) :
    ∃ b notes', Later g {t} ∅ s notes (s'.paid b) notes' ∧ Owed g s' t operands b notes' := by
  induction hrun with
  | start =>
    have hsame := s.paid_same
    refine ⟨fun id => (s.query id).bindings, notes, ?_, ?_, ?_, fun group => rfl⟩
    · rw [hsame]
      exact .refl h.noted
    · rw [hsame]
      exact h.noted
    · rw [hsame]
      exact hstands
  | call before hcall hran ih =>
    obtain ⟨b, notes1, hlater, howed⟩ :=
      ih fun operand hin => hoperands operand (List.mem_append_left _ hin)
    have hready : Owing g p run _ b notes1 t := ⟨h.later hlater, howed.stands⟩
    have hvalues : ∀ v ∈ FluentCall.operands _, v.Closes := fun v hv =>
      hoperands _ (List.mem_append_right _ (List.mem_map_of_mem hv))
    obtain ⟨b', notes', hlater', howed'⟩ := (hready.perform hcall hvalues hran).counts howed.counts
    exact ⟨b', notes', hlater.trans_same hlater', howed'⟩

end

end FluentSql
