import FluentSql.Proofs.Building.Adding

/-!
# Calls for comparisons

Every call that adds comparisons keeps its query noted.

* `comparison_ran` is the comparison that a call reads from its arguments:
  its operator is one of the known ones, which hold no placeholders.
* `ran_addNested` is what is added for a group of conditions, and
  `Ready.whereNested` and `Ready.groupBuiltBy` build one.
* `Ready.whereSingle` and `Ready.whereColumnSingle` are single comparisons.
* `ConditionAllowed` is what a list or a map of conditions must be made of, and
  `Ready.whereGroup` goes through it.  `Ready.where`, `Ready.whereColumn` and
  `Ready.whereNot` take either form.
-/

namespace FluentSql

section

variable {g : Grammar} {p : String} {run : Runner} {avail : Offers}
variable {s s' s1 s2 : Store} {notes notes' notes1 notes2 : QueryId → Notes} {n : Notes}
variable {t nested : QueryId}

/-! ## Comparisons -/

/-- The operators of every dialect hold no placeholders. -/
theorem Dialect.operators_sealed (d : Dialect) :
    ∀ op ∈ Dialect.commonOperators ++ d.operators, Sealed op.toList := by
  cases d <;> decide

theorem isOperator_sealed {d : Dialect} {added : Except Failure (List String)} {word : String}
    (hadded : ∀ ops, added = .ok ops → ops = d.operators) (h : isOperator added word = .ok true) :
    Sealed word.toList := by
  refine d.operators_sealed word (List.mem_append.2 ?_)
  unfold isOperator at h
  split at h
  · rename_i hcommon
    exact .inl (List.contains_iff_mem.1 hcommon)
  · cases hops : added with
    | error e =>
      rw [hops] at h
      exact nomatch h
    | ok ops =>
      rw [hops] at h
      have hword : ops.contains word = true := Except.ok.inj h
      rw [hadded ops hops] at hword
      exact .inr (List.contains_iff_mem.1 hword)

/-- A comparison that passes has a known operator and the value that it was given. -/
theorem Comparison.check_sealed {d : Dialect} {added : Except Failure (List String)}
    (hadded : ∀ ops, added = .ok ops → ops = d.operators) {operator value : Value}
    {c : Comparison} (h : Comparison.check added operator value = .ok c) :
    Sealed c.operator.toList ∧ c.value = value := by
  cases operator with
  | text word =>
    obtain ⟨known, hknown, h⟩ := Name.bind_eq_ok h
    cases known with
    | false => exact nomatch h
    | true =>
      simp only [Bool.not_true, Bool.false_eq_true, if_false] at h
      split at h
      · exact nomatch h
      · cases h
        exact ⟨isOperator_sealed hadded hknown, rfl⟩
  | _ => exact nomatch h

theorem Comparison.ofArguments_sealed {d : Dialect} {added : Except Failure (List String)}
    (hadded : ∀ ops, added = .ok ops → ops = d.operators) {operator value : Option Value}
    {c : Comparison} (h : Comparison.ofArguments added operator value = .ok c) :
    Sealed c.operator.toList ∧ c.value = comparand operator value := by
  cases value with
  | none =>
    have hcheck : Comparison.check added (.text "=") (operator.getD .null) = .ok c := h
    exact Comparison.check_sealed hadded hcheck
  | some v =>
    have hcheck : Comparison.check added (operator.getD (.text "=")) v = .ok c := h
    exact Comparison.check_sealed hadded hcheck

section

variable (hg : g.Compiles p) (hgrammar : ∃ id, (s.query t).grammar = .grammar id ∧
  id.index < s.grammars.size ∧ s.grammar id = g)
include hg hgrammar

/-- The operators that the grammar of a query adds are those of its dialect. -/
theorem addedOperators_ran {added : Except Failure (List String)}
    (hran : Ran t.addedOperators s added s') :
    s' = s ∧ ∀ ops, added = .ok ops → ops = g.dialect.operators := by
  obtain ⟨id, hid, _, hgid⟩ := hgrammar
  unfold QueryId.addedOperators at hran
  simp only [ran_bind, ran_get, ran_pure] at hran
  obtain ⟨_, _, ⟨rfl, rfl⟩, rfl, rfl⟩ := hran
  refine ⟨rfl, fun ops hops => ?_⟩
  have hfor : s'.grammarFor (.grammar id) "operators" = .ok g := by
    unfold Store.grammarFor
    dsimp only
    rw [hgid, if_neg fun hand => by simp only [hg.full] at hand; cases hand.1]
  rw [hid] at hops
  unfold Store.operatorsOf at hops
  dsimp only at hops
  rw [hfor] at hops
  exact (Except.ok.inj hops).symm

theorem comparison_ran {operator value : Option Value} {c : Comparison}
    (hran : Ran (t.comparison operator value) s c s') :
    s' = s ∧ Sealed c.operator.toList ∧ c.value = comparand operator value := by
  unfold QueryId.comparison at hran
  cases value with
  | none =>
    have hrest : Ran (do Action.ofExcept (Comparison.ofArguments (← t.addedOperators) operator none))
        s c s' := by
      cases operator <;> exact hran
    simp only [ran_bind, ran_ofExcept] at hrest
    obtain ⟨added, _, hadded, hok, rfl⟩ := hrest
    obtain ⟨rfl, hops⟩ := addedOperators_ran hg hgrammar hadded
    exact ⟨rfl, Comparison.ofArguments_sealed hops hok⟩
  | some v =>
    cases operator with
    | none =>
      simp only [ran_bind, ran_pure, ran_ofExcept] at hran
      obtain ⟨_, _, ⟨rfl, rfl⟩, added, _, hadded, hok, rfl⟩ := hran
      obtain ⟨rfl, hops⟩ := addedOperators_ran hg hgrammar hadded
      exact ⟨rfl, Comparison.ofArguments_sealed hops hok⟩
    | some w =>
      simp only [ran_bind, ran_map, ran_shown, ran_ofExcept] at hran
      obtain ⟨_, _, ⟨_, ⟨rfl, rfl⟩, rfl⟩, added, _, hadded, hok, rfl⟩ := hran
      obtain ⟨rfl, hops⟩ := addedOperators_ran hg hgrammar hadded
      obtain ⟨hsealed, hvalue⟩ := Comparison.ofArguments_sealed hops hok
      exact ⟨rfl, hsealed, hvalue⟩

end

theorem Ready.addedOperators (h : Ready g p run avail s notes t) {added : Except Failure (List String)}
    (hran : Ran t.addedOperators s added s') :
    s' = s ∧ ∀ ops, added = .ok ops → ops = g.dialect.operators :=
  addedOperators_ran h.compiles h.grammar hran

theorem Ready.comparison (h : Ready g p run avail s notes t) {operator value : Option Value}
    {c : Comparison} (hran : Ran (t.comparison operator value) s c s') :
    s' = s ∧ Sealed c.operator.toList ∧ c.value = comparand operator value :=
  comparison_ran h.compiles h.grammar hran

/-! ## Groups -/

/-- Data is neither a query nor a callback. -/
theorem Value.isQueryable_data {v : Value} (h : v.handles = []) : v.isQueryable = false := by
  cases v with
  | object handle => exact nomatch h
  | _ => rfl

theorem Value.isCallable_data {v : Value} (h : v.handles = []) : v.isCallable = false := by
  cases v with
  | object handle => exact nomatch h
  | _ => rfl

/-- The query of a group has the source of its parent, if that is data. -/
theorem forNestedWhere_ran (hthere : t.index < s.queries.size)
    (hsource : (s.query t).source.handles = [])
    (hran : Ran (t.forNestedWhere run) s nested s') :
    nested = s.next ∧ s' = s.add
      { kind := (s.query t).kind, connection := (s.query t).connection,
        grammar := (s.query t).grammar, source := (s.query t).source } := by
  unfold QueryId.forNestedWhere QueryId.newQuery at hran
  simp only [ran_bind, ran_read, ran_create, ran_pure] at hran
  obtain ⟨_, _, ⟨_, _, ⟨rfl, rfl⟩, rfl, rfl⟩, _, _, ⟨rfl, rfl⟩, _, _, hset, rfl, rfl⟩ := hran
  refine ⟨rfl, ?_⟩
  rw [Store.query_add_of_lt hthere] at hset
  unfold QueryId.setSource at hset
  rw [Value.isQueryable_data hsource] at hset
  simp only [Bool.false_eq_true, if_false, Value.truthy, ran_bind, ran_pure, ran_modify] at hset
  obtain ⟨_, _, ⟨rfl, rfl⟩, rfl⟩ := hset
  exact Store.edit_add _ _ _

/-- The conditions of a query are added as one group, with their values, if there are any. -/
theorem ran_addNested {boolean : Value} {u : Unit} :
    Ran (t.addNested nested boolean) s u s' ↔
      s' = if (s.query nested).wheres.isEmpty then s
        else s.edit t fun q => (q.addWhere boolean (.nested nested)).bind .condition
          (s.query nested).bindings.condition := by
  have hgroup : Ran (t.addNested nested boolean) s u s' ↔
      Ran (if (s.query nested).wheres.isEmpty then return ()
        else do
          t.addWhere boolean (.nested nested)
          t.bind .condition (s.query nested).bindings.condition) s u s' := by
    unfold QueryId.addNested
    rw [ran_bind]
    refine ⟨?_, fun hran => ⟨_, s, ran_read.2 ⟨rfl, rfl⟩, hran⟩⟩
    rintro ⟨_, _, hread, hran⟩
    obtain ⟨rfl, rfl⟩ := ran_read.1 hread
    exact hran
  rw [hgroup]
  split
  · exact ran_pure.trans (and_iff_right rfl)
  · unfold QueryId.addWhere QueryId.bind
    simp only [ran_bind, ran_modify, exists_const, exists_eq_left, Store.edit_edit]

namespace Ready

/-- A new query is ready for the calls that build it. -/
theorem new (h : Ready g p run avail s notes t) {kind : QueryKind}
    {connection : Option ConnectionId} {source : Value}
    (hq : ({ kind, connection, grammar := (s.query t).grammar, source } : Query).Noted g s notes n)
    (hclosed : n.closed = true) :
    Ready g p run avail (s.add { kind, connection, grammar := (s.query t).grammar, source })
      (Function.update notes s.next n) s.next ∧
    (s.add { kind, connection, grammar := (s.query t).grammar, source }).Stands
      (Function.update notes s.next n) s.next := by
  generalize hquery : ({ kind, connection, grammar := (s.query t).grammar, source } : Query) = q
    at hq
  have hnone : q.attachments = [] := by
    subst hquery
    rfl
  have hadd := h.add hq hnone
  have hself : (s.add q).query s.next = q := s.query_add_next q
  have hthere : s.next.index < (s.add q).queries.size := by
    rw [s.size_add]
    exact Nat.lt_succ_self _
  have hgrammar : ((s.add q).query s.next).grammar = (s.query t).grammar := by
    rw [hself, ← hquery]
  refine ⟨⟨h.compiles, hadd.noted, hthere, (h.noted.unattached_next hnone).loose, ?_, ?_, ?_, ?_⟩,
    hthere, ?_⟩
  · rw [hself, ← hquery]
  · obtain ⟨id, hid, hlt, hg⟩ := h.grammar
    exact ⟨id, hgrammar.trans hid, hlt, hg⟩
  · intro id hid
    obtain ⟨_, hold, hwhole⟩ := h.offered id hid
    refine ⟨?_, hadd.stands hold (Set.notMem_empty id), (hadd.kept id hold.1).whole.trans hwhole⟩
    rintro rfl
    exact absurd hold.1 (Nat.lt_irrefl _)
  · refine fun callback hin => (h.callbacks callback hin).mono fun s2 sub hsub => ?_
    exact
      { size := Nat.le_trans hadd.size hsub.size
        others := by
          intro id hid hne
          have hlt : id.index < (s.add q).queries.size := Nat.lt_of_lt_of_le hid hadd.size
          refine (hsub.others id hlt ?_).trans (Store.query_add_of_lt hid q)
          rintro rfl
          exact absurd hid (Nat.lt_irrefl _)
        grammars := hadd.grammars.trans hsub.grammars
        callbacks := hadd.callbacks.trans hsub.callbacks
        new := Nat.le_trans hadd.size hsub.new
        there := hsub.there
        unattached := hsub.unattached
        blank := by
          obtain ⟨kind, connection, source, hblank⟩ := hsub.blank
          exact ⟨kind, connection, source, by rw [hblank, hgrammar]⟩ }
  · rw [Function.update_self]
    exact hclosed

/-- The query of a group is as its parent, with the source of the parent. -/
theorem ran_forNestedWhere (h : Ready g p run avail s notes t) (hstands : s.Stands notes t)
    (hran : Ran (t.forNestedWhere run) s nested s') :
    nested = s.next ∧ s' = s.add
      { kind := (s.query t).kind, connection := (s.query t).connection,
        grammar := (s.query t).grammar, source := (s.query t).source } :=
  forNestedWhere_ran h.there (h.noted.queries t hstands).sourceData hran

/-- The query of a group starts noted, but for its source. -/
theorem group_noted (h : Ready g p run avail s notes t) (hstands : s.Stands notes t) :
    ({ kind := (s.query t).kind, connection := (s.query t).connection,
       grammar := (s.query t).grammar, source := (s.query t).source } : Query).Noted g s notes
      { table := (notes t).table, whole := false } := by
  have hnoted := h.noted.queries t hstands
  exact Query.blank_noted h.grammar hnoted.kind hnoted.sourceData fun hwhole => nomatch hwhole

/-- The conditions of a query as one group. -/
theorem addNested (h : Ready g p run avail s notes t) (hstands : s.Stands notes t)
    (hlater : Later g ∅ avail.queries s notes s1 notes1) (hnested : s1.Stands notes1 nested)
    (hne : nested ≠ t) (hfrom : nested ∈ avail.queries ∨ s.queries.size ≤ nested.index) {boolean : Value}
    (hboolean : WordHolds boolean) {u : Unit} (hran : Ran (t.addNested nested boolean) s1 u s') :
    KeptIn .condition g avail s notes t s' := by
  obtain rfl := ran_addNested.1 hran
  split
  · have hrefl := Kept.refl (h.after hlater) (hlater.stands hstands (Set.notMem_empty t))
    exact ⟨.after hlater hrefl, by rw [(h.unchanged hlater).1]; rfl⟩
  · have hp := (Pending.none h hstands .condition).after h hlater
    have hdata : ∀ v ∈ (s1.query nested).bindings.get .condition, v.handles = [] :=
      fun v hv => (hlater.noted.queries nested hnested).data v (Bindings.mem_flatten hv)
    have hbody : WhereHolds g {} (.nested nested) := rfl
    refine hp.addWhere h hboolean hbody rfl hdata ?_ fun id hid => nomatch hid
    rintro id hid
    cases hid
    exact ⟨hnested, hne, hfrom⟩

end Ready

namespace Ready

/-- A group of conditions that some action builds on a new query. -/
theorem groupBuiltBy (h : Ready g p run avail s notes t) (hstands : s.Stands notes t)
    {boolean : Value} (hboolean : WordHolds boolean) {build : QueryId → Action Unit}
    (hbuild : ∀ s1 notes1 nested s2 u, Ready g p run avail s1 notes1 nested →
      s1.Stands notes1 nested → Ran (build nested) s1 u s2 → Kept g avail s1 notes1 nested s2)
    {u : Unit} (hran : Ran (t.groupBuiltBy run boolean build) s u s') :
    KeptIn .condition g avail s notes t s' := by
  unfold QueryId.groupBuiltBy at hran
  simp only [ran_bind] at hran
  obtain ⟨nested, s1, hnew, _, s2, hrun, hadd⟩ := hran
  obtain ⟨rfl, rfl⟩ := h.ran_forNestedWhere hstands hnew
  have hgroup := h.group_noted hstands
  obtain ⟨hready, hnested⟩ := h.new hgroup rfl
  obtain ⟨notes2, hlater, hnested2⟩ := hbuild _ _ _ _ _ hready hnested hrun
  have hall : Later g ∅ avail.queries s notes s2 notes2 := by
    refine (h.add hgroup rfl).trans hlater ?_ fun id hid _ => hid
    rintro id rfl hid
    exact absurd hid (Nat.lt_irrefl _)
  have hne : s.next ≠ t := by
    rintro rfl
    exact absurd h.there (Nat.lt_irrefl _)
  exact h.addNested hstands hall hnested2 hne (.inr (Nat.le_refl _)) hboolean hadd

/-- A group of conditions that a callback builds. -/
theorem whereNested (h : Ready g p run avail s notes t) (hstands : s.Stands notes t)
    {callback boolean : Value} (hcallback : CallableAllowed avail callback)
    (hboolean : WordHolds boolean) {u : Unit}
    (hran : Ran (t.whereNested run callback boolean) s u s') : KeptIn .condition g avail s notes t s' := by
  unfold QueryId.whereNested QueryId.groupBuiltBy at hran
  simp only [ran_bind, ran_discard] at hran
  obtain ⟨nested, s1, hnew, _, s2, ⟨v, hrun⟩, hadd⟩ := hran
  obtain ⟨rfl, rfl⟩ := h.ran_forNestedWhere hstands hnew
  obtain ⟨id, hid, rfl⟩ := hcallback
  obtain ⟨notes2, hlater, hnested, _⟩ := h.run_new (h.group_noted hstands) rfl hid hrun
  have hne : s.next ≠ t := by
    rintro rfl
    exact absurd h.there (Nat.lt_irrefl _)
  exact h.addNested hstands hlater hnested hne (.inr (Nat.le_refl _)) hboolean hadd

end Ready

/-! ## Single comparisons -/

/-- What a column is compared with: a value or a sub-query. -/
def OperandAllowed (avail : Offers) (v : Value) : Prop :=
  SubAllowed avail v ∨ ValueAllowed v

/-- A single comparison, or a callback that builds a group. -/
def SingleAllowed (g : Grammar) (avail : Offers) (column : Value)
    (operator value : Option Value) (boolean : Value) : Prop :=
  WordHolds boolean ∧ (CallableAllowed avail column ∧ operator = none ∨
    ((∃ id ∈ avail.queries, column = .ofQuery id) ∨ ColumnHolds g column []) ∧
      OperandAllowed avail (comparand operator value))

theorem CallableAllowed.isCallable {v : Value} (h : CallableAllowed avail v) :
    v.isCallable = true := by
  obtain ⟨callback, _, rfl⟩ := h
  rfl

/-- A column that can be called is a callback that may be run. -/
theorem SingleAllowed.callable {column boolean : Value} {operator value : Option Value}
    (h : SingleAllowed g avail column operator value boolean) (hcallable : column.isCallable = true) :
    CallableAllowed avail column := by
  rcases h.2 with ⟨hallowed, _⟩ | ⟨⟨_, _, rfl⟩ | hcolumn, _⟩
  · exact hallowed
  · exact nomatch hcallable
  · rw [Value.isCallable_data hcolumn.data] at hcallable
    exact nomatch hcallable

theorem SubAllowed.isQueryable {v : Value} (h : SubAllowed avail v) : v.isQueryable = true := by
  rcases h with ⟨id, _, rfl⟩ | ⟨callback, _, rfl⟩ <;> rfl

theorem Ready.createsText_sub (h : Ready g p run avail s notes t) {query : Value}
    (hsub : SubAllowed avail query) :
    query.isQueryable = true ∧ CreatesText g run avail s notes t query :=
  ⟨hsub.isQueryable, h.createsText (.inl hsub)⟩

/-- A truth value becomes a fragment without placeholders. -/
theorem ValueAllowed.jsonWord {column v : Value} (h : ValueAllowed v) :
    ValueAllowed (QueryId.jsonWord column v) := by
  unfold QueryId.jsonWord
  split
  · rename_i b
    split
    · refine ⟨rfl, fun w hw => ?_⟩
      cases hw
      cases b <;> decide
    · exact h
  · exact h

/-- The comparison of a column with what it was given to be compared with. -/
def QueryId.compareWith (run : Runner) (q : QueryId) (column : Value) (c : Comparison)
    (boolean : Value) : Action Unit :=
  if c.value.isQueryable then q.whereSub run column (.text c.operator) c.value boolean
  else if c.value.isNull then q.whereNull column boolean (c.operator != "=")
  else do
    q.addWhere boolean (.basic column c.operator (jsonWord column c.value))
    q.bindValue .condition (jsonWord column c.value)

/-- A column that is compared with data gets one condition. -/
theorem compareWith_ran {column boolean : Value} {c : Comparison} (hdata : c.value.handles = [])
    (hone : column.listed = [column]) {u : Unit}
    (hran : Ran (t.compareWith run column c boolean) s u s') :
    c.value.isNull = true ∧ s' = s.edit t (·.addWhere boolean (.null column (c.operator != "="))) ∨
      c.value.isNull = false ∧ s' = s.edit t fun q =>
        (q.addWhere boolean (.basic column c.operator (QueryId.jsonWord column c.value))).bind
          .condition (QueryId.jsonWord column c.value).bound := by
  unfold QueryId.compareWith at hran
  rw [if_neg (by rw [Value.isQueryable_data hdata]; exact Bool.false_ne_true)] at hran
  split at hran
  · rename_i hnull
    unfold QueryId.whereNull at hran
    rw [hone] at hran
    have hadd : Ran (t.addWhere boolean (.null column (c.operator != "=")) >>= fun _ => pure ())
        s u s' := hran
    unfold QueryId.addWhere at hadd
    simp only [ran_bind, ran_modify, ran_pure] at hadd
    obtain ⟨_, _, rfl, _, rfl⟩ := hadd
    exact .inl ⟨hnull, rfl⟩
  · rename_i hnull
    unfold QueryId.addWhere at hran
    simp only [ran_bind, ran_modify, ran_bindValue] at hran
    obtain ⟨_, _, rfl, rfl⟩ := hran
    rw [Store.edit_edit]
    exact .inr ⟨Bool.eq_false_iff.2 hnull, rfl⟩

namespace Pending

variable {ahead : List Value}

/-- A comparison with a sub-query. -/
theorem whereSub (h : Ready g p run avail s notes t)
    (hp : Pending g avail s notes t .condition ahead s1 notes1)
    {column operator query boolean : Value} (hcolumn : ColumnHolds g column ahead)
    (hoperator : WordHolds operator) (hquery : SubAllowed avail query)
    (hboolean : WordHolds boolean) {u : Unit}
    (hran : Ran (t.whereSub run column operator query boolean) s1 u s') :
    KeptIn .condition g avail s notes t s' := by
  unfold QueryId.whereSub QueryId.addWhere QueryId.bindings QueryId.bind at hran
  simp only [ran_bind, ran_modify, ran_read, ran_pure] at hran
  obtain ⟨sub, s2, hsub, _, _, rfl, _, _, ⟨_, _, ⟨rfl, rfl⟩, rfl, rfl⟩, rfl⟩ := hran
  obtain ⟨notes2, hlater, hgiven⟩ := (h.later hp.later).resolveSub hquery hsub
  have hp2 := hp.after h hlater
  have hsize := hp.later.size
  rw [Store.edit_edit, Store.query_edit_of_ne hgiven.other]
  have hbody : WhereHolds g { column := ahead } (.sub column operator sub) :=
    ⟨hcolumn, hoperator, rfl⟩
  refine hp2.addWhere h hboolean hbody rfl (hlater.noted.queries sub hgiven.stands).data
    (fun id hid => by cases hid) ?_
  rintro id hid
  cases hid
  exact ⟨hgiven.stands, hgiven.whole, hgiven.other, hgiven.source.imp_right (Nat.le_trans hsize)⟩

/-- The comparison that follows once the column is read. -/
theorem compare (h : Ready g p run avail s notes t)
    (hp : Pending g avail s notes t .condition ahead s1 notes1)
    {column : Value} (hcolumn : ColumnHolds g column ahead) (hone : column.listed = [column])
    {c : Comparison} (hoperator : Sealed c.operator.toList)
    (hvalue : OperandAllowed avail c.value) {boolean : Value} (hboolean : WordHolds boolean)
    {u : Unit} (hran : Ran (t.compareWith run column c boolean) s1 u s') :
    KeptIn .condition g avail s notes t s' := by
  by_cases hqueryable : c.value.isQueryable = true
  · have hsub : SubAllowed avail c.value := by
      refine hvalue.resolve_right fun hallowed => ?_
      rw [Value.isQueryable_data hallowed.1] at hqueryable
      exact nomatch hqueryable
    have hword : WordHolds (.text c.operator) := ⟨rfl, hoperator⟩
    unfold QueryId.compareWith at hran
    rw [if_pos hqueryable] at hran
    exact hp.whereSub h hcolumn hword hsub hboolean hran
  · have hallowed : ValueAllowed c.value :=
      hvalue.resolve_left fun hsub => hqueryable hsub.isQueryable
    rcases compareWith_ran hallowed.1 hone hran with ⟨_, rfl⟩ | ⟨_, rfl⟩
    · have hbody : WhereHolds g { column := ahead } (.null column (c.operator != "=")) :=
        ⟨hcolumn, rfl⟩
      have hkept := hp.addWhere h hboolean hbody rfl (fun v hv => nomatch hv)
        (fun id hid => nomatch hid) (fun id hid => nomatch hid)
      have hsame : (fun q : Query =>
          (q.addWhere boolean (.null column (c.operator != "="))).bind .condition []) =
          (·.addWhere boolean (.null column (c.operator != "="))) :=
        funext fun q => Query.bind_nil _ _
      exact hsame ▸ hkept
    · have hword := @ValueAllowed.jsonWord column _ hallowed
      have hbody : WhereHolds g
          { column := ahead, values := [(QueryId.jsonWord column c.value).bound] }
          (.basic column c.operator (QueryId.jsonWord column c.value)) :=
        ⟨hcolumn, hoperator, _, rfl, hword.param⟩
      refine hp.addWhere h hboolean hbody ?_ hword.bound_data (fun id hid => nomatch hid)
        fun id hid => nomatch hid
      exact congrArg _ (List.append_nil _)

end Pending

/-- A sub-query in brackets has as many placeholders as the sub-query. -/
theorem reads_bracketed {sql : String} {vs : List Value} (hsql : Reads sql.toList vs.length) :
    Reads ("(" ++ sql ++ ")").toList vs.length := by
  have hopen : Reads "(".toList 0 := by decide
  have hclose : Reads ")".toList 0 := by decide
  have hall := (hopen.append hsql).append hclose
  rw [← String.toList_append, ← String.toList_append] at hall
  rwa [Nat.zero_add] at hall

/-- A sub-query in brackets stands for a column. -/
theorem columnHolds_sub {sql : String} {vs : List Value} (hsql : Reads sql.toList vs.length) :
    ColumnHolds g (.raw (.text ("(" ++ sql ++ ")"))) vs :=
  ⟨rfl, reads_bracketed hsql⟩

/-- A value that is no list stands for itself alone. -/
theorem listed_of_single {column : Value} (h : QueryId.isConditionList column = false) :
    column.listed = [column] := by
  cases column with
  | list items => exact nomatch h
  | tuple items => exact nomatch h
  | _ => rfl

/-- A column that is data is compared as it is. -/
theorem whereSingle_ran {column boolean : Value} {operator value : Option Value}
    (hcolumn : column.handles = []) {u : Unit}
    (hran : Ran (t.whereSingle run column operator value boolean) s u s') :
    ∃ c s1, Ran (t.comparison operator value) s c s1 ∧
      Ran (t.compareWith run column c boolean) s1 u s' := by
  have hquery : column.isQuery = false := by
    have hno := Value.isQueryable_data hcolumn
    unfold Value.isQueryable at hno
    exact (Bool.or_eq_false_iff.1 hno).1
  unfold QueryId.whereSingle at hran
  rw [if_neg (by rw [Value.isCallable_data hcolumn]; exact Bool.false_ne_true), ran_bind] at hran
  obtain ⟨c, s1, hcomparison, hran⟩ := hran
  rw [if_neg (by rw [hquery]; exact Bool.false_ne_true)] at hran
  exact ⟨c, s1, hcomparison, hran⟩

namespace Ready

/-- A single comparison. -/
theorem whereSingle (h : Ready g p run avail s notes t) (hstands : s.Stands notes t)
    {column boolean : Value} {operator value : Option Value}
    (hlist : QueryId.isConditionList column = false)
    (hallowed : SingleAllowed g avail column operator value boolean) {u : Unit}
    (hran : Ran (t.whereSingle run column operator value boolean) s u s') :
    KeptIn .condition g avail s notes t s' := by
  obtain ⟨hboolean, ⟨hcallable, rfl⟩ | ⟨⟨id, hid, rfl⟩ | hcolumn, hoperand⟩⟩ := hallowed
  · unfold QueryId.whereSingle at hran
    rw [if_pos (by rw [hcallable.isCallable]; rfl)] at hran
    exact h.whereNested hstands hcallable hboolean hran
  · -- The column is a query, whose values are bound before the other side is read.
    have hquery : (Value.ofQuery id).isQuery = true := rfl
    unfold QueryId.whereSingle QueryId.bind at hran
    rw [if_neg (show ¬((Value.ofQuery id).isCallable && operator.isNone) = true from
      fun hcall => nomatch hcall), ran_bind] at hran
    obtain ⟨c, s1, hcomparison, hran⟩ := hran
    obtain ⟨rfl, hoperator, hvalue⟩ := h.comparison hcomparison
    rw [if_pos hquery] at hran
    simp only [ran_bind, ran_modify, ran_pure] at hran
    obtain ⟨sub, s2, hsub, _, _, rfl, _, _, ⟨rfl, rfl⟩, hran⟩ := hran
    obtain ⟨notes2, hlater, hreads, hdata⟩ := h.createsText (.inl (.inl ⟨id, hid, rfl⟩)) _ _ hsub
    have hp := Pending.start h hstands hlater .condition hdata
    exact hp.compare h (columnHolds_sub hreads) rfl hoperator (hvalue ▸ hoperand) hboolean hran
  · obtain ⟨c, s1, hcomparison, hcompare⟩ := whereSingle_ran hcolumn.data hran
    obtain ⟨rfl, hoperator, hvalue⟩ := h.comparison hcomparison
    exact (Pending.none h hstands .condition).compare h hcolumn (listed_of_single hlist) hoperator
      (hvalue ▸ hoperand) hboolean hcompare

/-- A comparison of two columns, the second of which may stand in the place of the operator. -/
theorem whereColumnSingle (h : Ready g p run avail s notes t) (hstands : s.Stands notes t)
    {first operator second boolean : Value} (hboolean : WordHolds boolean)
    (hfirst : ColumnHolds g first []) (hoperator : ColumnHolds g operator [])
    (hsecond : ColumnHolds g second []) {u : Unit}
    (hran : Ran (t.whereColumnSingle first operator second boolean) s u s') :
    KeptIn .condition g avail s notes t s' := by
  have hadd : ∀ word other, Sealed word.toList → ColumnHolds g other [] →
      Ran (if other.isNull then throw (.argument .secondColumnMissing)
        else t.addWhere boolean (.columnPair first word other)) s u s' →
      KeptIn .condition g avail s notes t s' := by
    intro word other hword hother hran
    split at hran
    · exact absurd hran ran_throw
    · obtain rfl := ran_modify.1 hran
      have hbody : WhereHolds g {} (.columnPair first word other) := ⟨hfirst, hword, hother, rfl⟩
      exact h.addBareWhere hstands hboolean hbody rfl rfl rfl
  unfold QueryId.whereColumnSingle at hran
  rw [ran_bind] at hran
  obtain ⟨added, s1, hadded, hran⟩ := hran
  obtain ⟨rfl, hops⟩ := h.addedOperators hadded
  cases operator with
  | text word =>
    simp only [ran_bind, ran_ofExcept] at hran
    obtain ⟨known, _, ⟨hknown, rfl⟩, hran⟩ := hran
    cases known with
    | true => exact hadd _ second (isOperator_sealed hops hknown) hsecond hran
    | false => exact hadd "=" _ (by decide) hoperator hran
  | _ =>
    simp only [ran_bind, ran_pure] at hran
    obtain ⟨known, _, ⟨rfl, rfl⟩, hran⟩ := hran
    exact hadd "=" _ (by decide) hoperator hran

end Ready

/-! ## Lists and maps of conditions -/

open QueryId in
/-- One comparison of a kind, given by its arguments. -/
def ComparisonAllowed (g : Grammar) (avail : Offers) (kind : ComparisonKind) (column : Value)
    (operator value : Option Value) (boolean : Value) : Prop :=
  match kind with
  | .values => SingleAllowed g avail column operator value boolean
  | .columns => WordHolds boolean ∧ ColumnHolds g column [] ∧
      ColumnHolds g (operator.getD .null) [] ∧ ColumnHolds g (value.getD .null) []

open QueryId in
/-- A comparison, or a list or a map of them.  A condition of a list may itself be a list. -/
inductive ConditionAllowed (g : Grammar) (avail : Offers) (kind : ComparisonKind) :
    (column : Value) → (operator value : Option Value) → (boolean : Value) → Prop
  /-- A single comparison. -/
  | single {column operator value boolean} (hlist : isConditionList column = false)
      (hallowed : ComparisonAllowed g avail kind column operator value boolean) :
      ConditionAllowed g avail kind column operator value boolean
  /-- A list or a map. -/
  | group {column operator value boolean} (hlist : isConditionList column = true)
      (hboolean : WordHolds boolean)
      (hparts : ∀ first rest, .ok (first :: rest) ∈ conditionArguments column boolean →
        rest.length ≤ 3 →
        ConditionAllowed g avail kind first rest[0]? rest[1]? (rest[2]?.getD (.text "and"))) :
      ConditionAllowed g avail kind column operator value boolean

/-- A value that follows no query is read as it is. -/
theorem Value.now_ran {v w : Value} (h : ∀ id, v ≠ .object (.bindings id))
    (hran : Ran v.now s w s') : w = v ∧ s' = s := by
  cases v with
  | object handle =>
    cases handle with
    | bindings id => exact absurd rfl (h id)
    | _ => exact ran_pure.1 hran
  | _ => exact ran_pure.1 hran

/-- What stands for a comparison follows no query. -/
theorem ConditionAllowed.now {kind : QueryId.ComparisonKind} {column boolean v : Value}
    {operator value : Option Value}
    (h : ConditionAllowed g avail kind column operator value boolean)
    (hran : Ran column.now s v s') : v = column ∧ s' = s := by
  refine Value.now_ran (fun id hid => ?_) hran
  subst hid
  cases h with
  | group hlist _ _ => exact nomatch hlist
  | single _ hallowed =>
    cases kind with
    | columns => exact nomatch hallowed.2.1.data
    | values =>
      rcases hallowed.2 with ⟨hcallable, _⟩ | ⟨⟨_, _, hquery⟩ | hcolumn, _⟩
      · exact nomatch hcallable.isCallable
      · exact nomatch hquery
      · exact nomatch hcolumn.data

/-- A callback that stands for a comparison may be run. -/
theorem ConditionAllowed.callable {kind : QueryId.ComparisonKind} {column boolean : Value}
    {operator value : Option Value}
    (h : ConditionAllowed g avail kind column operator value boolean)
    (hcallable : column.isCallable = true) : CallableAllowed avail column := by
  cases h with
  | group hlist _ _ =>
    cases column with
    | object handle => exact nomatch hlist
    | _ => exact nomatch hcallable
  | single _ hallowed =>
    cases kind with
    | values => exact hallowed.callable hcallable
    | columns =>
      rw [Value.isCallable_data hallowed.2.1.data] at hcallable
      exact nomatch hcallable

/-- A negated group is joined by another word. -/
theorem whereNot_ran {column boolean : Value} {operator value : Option Value}
    (hboolean : WordHolds boolean) {u : Unit}
    (hran : Ran (t.whereNot run column operator value boolean) s u s') :
    ∃ word, WordHolds word ∧ Ran (if column.isCallable then t.whereNested run column word
      else t.groupBuiltBy run word fun nested =>
        nested.where run column operator value (.text "and")) s u s' := by
  unfold QueryId.whereNot at hran
  simp only [ran_bind, ran_ofExcept] at hran
  obtain ⟨word, _, ⟨hword, rfl⟩, hran⟩ := hran
  refine ⟨.text (word ++ " not"), ?_, hran⟩
  cases boolean with
  | text joined =>
    cases hword
    refine ⟨rfl, ?_⟩
    show Sealed (word ++ " not").toList
    rw [String.toList_append]
    exact hboolean.2.append (by decide)
  | _ => cases hword

namespace Ready

/-- One comparison, given by one to four arguments. -/
theorem compareSingle (h : Ready g p run avail s notes t) (hstands : s.Stands notes t)
    {kind : QueryId.ComparisonKind} {column : Value} {rest : List Value}
    (hlist : QueryId.isConditionList column = false)
    (hallowed : ComparisonAllowed g avail kind column rest[0]? rest[1]?
      (rest[2]?.getD (.text "and")))
    {u : Unit} (hran : Ran (t.compareSingle run kind (column :: rest)) s u s') :
    Kept g avail s notes t s' := by
  unfold QueryId.compareSingle at hran
  dsimp only at hran
  split at hran
  · exact absurd hran ran_throw
  · cases kind with
    | values => exact (h.whereSingle hstands hlist hallowed hran).1
    | columns =>
      obtain ⟨hboolean, hfirst, hoperator, hsecond⟩ := hallowed
      exact (h.whereColumnSingle hstands hboolean hfirst hoperator hsecond hran).1

/-- A list or a map of conditions as one group. -/
theorem whereGroup {kind : QueryId.ComparisonKind} {fuel : Nat} {conditions boolean : Value}
    (h : Ready g p run avail s notes t) (hstands : s.Stands notes t) (hboolean : WordHolds boolean)
    (hparts : ∀ first rest, .ok (first :: rest) ∈ QueryId.conditionArguments conditions boolean →
      rest.length ≤ 3 →
      ConditionAllowed g avail kind first rest[0]? rest[1]? (rest[2]?.getD (.text "and")))
    {u : Unit} (hran : Ran (QueryId.whereGroup run kind fuel t conditions boolean) s u s') :
    KeptIn .condition g avail s notes t s' := by
  induction fuel generalizing s notes t conditions boolean s' u with
  | zero => exact absurd hran ran_throw
  | succ fuel ih =>
    unfold QueryId.whereGroup at hran
    refine h.groupBuiltBy hstands hboolean ?_ hran
    intro s1 notes1 nested s2 u1 h1 hnested hrun
    refine h1.each hnested ?_ hrun
    intro arguments harguments s3 notes3 s4 u3 h3 hnested3 hstep
    simp only [ran_bind, ran_ofExcept] at hstep
    obtain ⟨values, _, ⟨rfl, rfl⟩, hstep⟩ := hstep
    cases values with
    | nil => exact absurd hstep ran_throw
    | cons first rest =>
      simp only [ran_bind] at hstep
      obtain ⟨v, s5, hnow, hstep⟩ := hstep
      by_cases hlength : rest.length ≤ 3
      · have hpart := hparts first rest harguments hlength
        obtain ⟨rfl, rfl⟩ := hpart.now hnow
        cases hpart with
        | group hlist hword hinner =>
          rw [if_pos (by rw [hlist, decide_eq_true hlength]; rfl)] at hstep
          exact (ih h3 hnested3 hword hinner hstep).1
        | single hlist hallowed =>
          rw [if_neg (by rw [hlist]; rintro ⟨⟩)] at hstep
          exact h3.compareSingle hnested3 hlist hallowed hstep
      · rw [if_neg (by rw [decide_eq_false hlength, Bool.and_false]; rintro ⟨⟩)]
          at hstep
        unfold QueryId.compareSingle at hstep
        dsimp only at hstep
        rw [if_pos (Nat.lt_of_not_le hlength)] at hstep
        exact absurd hstep ran_throw

/-- A comparison with a value, or a list or a map of them. -/
theorem «where» (h : Ready g p run avail s notes t) (hstands : s.Stands notes t)
    {column boolean : Value} {operator value : Option Value}
    (hallowed : ConditionAllowed g avail .values column operator value boolean) {u : Unit}
    (hran : Ran (t.where run column operator value boolean) s u s') :
    KeptIn .condition g avail s notes t s' := by
  unfold QueryId.where at hran
  simp only [ran_bind] at hran
  obtain ⟨v, s1, hnow, hran⟩ := hran
  obtain ⟨rfl, rfl⟩ := hallowed.now hnow
  cases hallowed with
  | group hlist hboolean hparts =>
    rw [if_pos hlist] at hran
    exact h.whereGroup hstands hboolean hparts hran
  | single hlist hallowed =>
    rw [if_neg (by rw [hlist]; exact Bool.false_ne_true)] at hran
    exact h.whereSingle hstands hlist hallowed hran

/-- A comparison of columns, or a list or a map of them. -/
theorem whereColumn (h : Ready g p run avail s notes t) (hstands : s.Stands notes t)
    {first operator second boolean : Value}
    (hallowed : ConditionAllowed g avail .columns first (some operator) (some second) boolean)
    {u : Unit} (hran : Ran (t.whereColumn run first operator second boolean) s u s') :
    KeptIn .condition g avail s notes t s' := by
  unfold QueryId.whereColumn at hran
  simp only [ran_bind] at hran
  obtain ⟨v, s1, hnow, hran⟩ := hran
  obtain ⟨rfl, rfl⟩ := hallowed.now hnow
  cases hallowed with
  | group hlist hboolean hparts =>
    rw [if_pos hlist] at hran
    exact h.whereGroup hstands hboolean hparts hran
  | single hlist hallowed =>
    rw [if_neg (by rw [hlist]; exact Bool.false_ne_true)] at hran
    obtain ⟨hboolean, hfirst, hoperator, hsecond⟩ := hallowed
    exact h.whereColumnSingle hstands hboolean hfirst hoperator hsecond hran

/-- A negated group: what a callback builds, or one comparison. -/
theorem whereNot (h : Ready g p run avail s notes t) (hstands : s.Stands notes t)
    {column boolean : Value} {operator value : Option Value} (hboolean : WordHolds boolean)
    (hallowed : CallableAllowed avail column ∨
      ConditionAllowed g avail .values column operator value (.text "and")) {u : Unit}
    (hran : Ran (t.whereNot run column operator value boolean) s u s') :
    KeptIn .condition g avail s notes t s' := by
  obtain ⟨word, hnot, hran⟩ := whereNot_ran hboolean hran
  split at hran
  · rename_i hcallable
    have hcallback := hallowed.elim id fun hcondition => hcondition.callable hcallable
    exact h.whereNested hstands hcallback hnot hran
  · rename_i hcallable
    have hcondition := hallowed.resolve_left fun hcallback => hcallable hcallback.isCallable
    refine h.groupBuiltBy hstands hnot ?_ hran
    exact fun s1 notes1 nested s2 u h1 hnested hrun => (h1.where hnested hcondition hrun).1

end Ready

end

end FluentSql
