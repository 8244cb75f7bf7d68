import FluentSql.Proofs.Building.Comparing

/-!
# Calls for further conditions

The conditions that are no plain comparisons: sub-queries, lists of values,
parts of dates, rows and JSON columns.  Each keeps its query noted.

* `ValuesAllowed` are values to compare with that are given as one.
* `whereIn_ran` and the lemmas after it say what a call with data does: it adds
  one condition and binds values.
* `Ready.whereIn` and the lemmas beside it are the calls.
-/

namespace FluentSql

section

variable {g : Grammar} {p : String} {run : Runner} {avail : Offers}
variable {s s' s1 : Store} {notes notes' notes1 : QueryId → Notes} {t : QueryId}

/-- Values to compare with, given as one value. -/
def ValuesAllowed (values : Value) : Prop :=
  values.handles = [] ∧ ∀ vs, values.items = .ok vs → ∀ v ∈ vs, ValueAllowed v

theorem mem_of_betweenEnds {vs ends : List Value} (hends : QueryId.betweenEnds vs = .ok ends) :
    ∀ v ∈ ends, v ∈ vs := by
  unfold QueryId.betweenEnds at hends
  split at hends
  · rename_i first last hfirst hlast
    cases hends
    intro v hv
    rcases List.mem_cons.1 hv with rfl | hv
    · exact List.mem_of_mem_head? hfirst
    · exact List.mem_singleton.1 hv ▸ List.mem_of_mem_getLast? hlast
  · exact nomatch hends

/-- The first and the last of some values have the values of a between clause, given the values of
the placeholders in each. -/
theorem endsHold {vs ends : List Value} {f : Value → List Value}
    (hdata : ∀ v ∈ vs, v.handles = []) (hends : QueryId.betweenEnds vs = .ok ends)
    (hvs : ∀ v ∈ ends, ParamHolds .ok v (f v)) : EndsHold vs { values := ends.map f } := by
  unfold QueryId.betweenEnds at hends
  split at hends
  · rename_i first last hfirst hlast
    cases hends
    exact ⟨first, last, _, _, hfirst, hlast, rfl, hvs first List.mem_cons_self,
      hvs last (List.mem_cons_of_mem _ List.mem_cons_self), hdata⟩
  · exact nomatch hends

/-- The value that a part of a date is compared with is as good as the one that was given. -/
theorem ValueAllowed.datePart {v : Value} (h : ValueAllowed v) (part : DatePart) :
    ValueAllowed (QueryId.datePartValue part v) := by
  unfold QueryId.datePartValue
  split
  · exact ⟨rfl, fun w hw => nomatch hw⟩
  · exact ⟨rfl, fun w hw => nomatch hw⟩
  · exact ⟨rfl, fun w hw => nomatch hw⟩
  · exact h
  · split
    · exact ⟨rfl, fun w hw => nomatch hw⟩
    · exact h

/-- Reading integers changes nothing. -/
theorem rawIntegers_ran {vs : List Value} {integers : List Int}
    (hran : Ran (vs.mapM QueryId.rawInteger) s integers s') : s' = s := by
  induction vs generalizing s integers with
  | nil =>
    rw [List.mapM_nil, ran_pure] at hran
    exact hran.2
  | cons v vs ih =>
    rw [List.mapM_cons] at hran
    simp only [ran_bind, ran_pure] at hran
    obtain ⟨_, s1, hone, _, _, hrest, rfl, rfl⟩ := hran
    obtain rfl := ih hrest
    unfold QueryId.rawInteger at hone
    split at hone
    · simp only [ran_bind, ran_throw, and_false, exists_false] at hone
    · simp only [ran_bind, ran_throw, and_false, exists_false] at hone
    · exact (ran_ofExcept.1 hone).2

/-- Looking up the grammar changes nothing. -/
theorem grammarFor_ran {method : String} {v : Grammar} (hran : Ran (t.grammarFor method) s v s') :
    s' = s := by
  unfold QueryId.grammarFor at hran
  simp only [ran_bind, ran_get, ran_ofExcept] at hran
  obtain ⟨_, _, ⟨rfl, rfl⟩, _, rfl⟩ := hran
  rfl

/-- Data is written by the pattern of the part alone. -/
theorem writtenDatePart_ran {part : DatePart} {v w : Value} (hdata : v.handles = [])
    (hran : Ran (QueryId.writtenDatePart run part v) s w s') :
    w = QueryId.datePartValue part v ∧ s' = s := by
  have hshown : Ran (if part = .day ∨ part = .month then
      do return QueryId.datePartValue part (← v.shown)
      else return QueryId.datePartValue part v) s w s' := by
    cases v with
    | object handle => exact nomatch hdata
    | _ => exact hran
  split at hshown
  · simp only [ran_bind, ran_shown, ran_pure] at hshown
    obtain ⟨_, _, ⟨rfl, rfl⟩, rfl, rfl⟩ := hshown
    rw [Store.shown_data _ hdata]
    exact ⟨rfl, rfl⟩
  · exact ran_pure.1 hshown

/-! ## What the calls do -/

section

variable {column boolean : Value} {negated : Bool} {u : Unit}

theorem whereIn_ran {values : Value} (hdata : values.handles = [])
    (hran : Ran (t.whereIn run column values boolean negated) s u s') :
    ∃ vs, values.items = .ok vs ∧ s' = s.edit t fun q =>
      (q.addWhere boolean (.among column vs negated)).bind .condition
        (vs.map Value.bound).flatten := by
  unfold QueryId.whereIn QueryId.addWhere at hran
  rw [if_neg (by rw [Value.isQueryable_data hdata]; exact Bool.false_ne_true)] at hran
  simp only [ran_bind, ran_itemsNow hdata, ran_modify, ran_bindValues] at hran
  obtain ⟨vs, _, ⟨hvs, rfl⟩, _, _, rfl, rfl⟩ := hran
  exact ⟨vs, hvs, Store.edit_edit ..⟩

theorem whereBetween_ran {values : Value} (hdata : values.handles = [])
    (hran : Ran (t.whereBetween column values boolean negated) s u s') :
    ∃ vs ends, values.items = .ok vs ∧ QueryId.betweenEnds vs = .ok ends ∧
      s' = s.edit t fun q => (q.addWhere boolean (.between column vs negated)).bind .condition
        (ends.map Value.bound).flatten := by
  unfold QueryId.whereBetween QueryId.addWhere at hran
  simp only [ran_bind, ran_itemsNow hdata, ran_ofExcept, ran_modify, ran_bindValues] at hran
  obtain ⟨vs, _, ⟨hvs, rfl⟩, ends, _, ⟨hends, rfl⟩, _, _, rfl, rfl⟩ := hran
  exact ⟨vs, ends, hvs, hends, Store.edit_edit ..⟩

theorem whereRowValues_ran {columns operator values : Value} (hdata : columns.handles = [])
    (hdata' : values.handles = [])
    (hran : Ran (t.whereRowValues columns operator values boolean) s u s') :
    ∃ cs vs, columns.items = .ok cs ∧ values.items = .ok vs ∧ s' = s.edit t fun q =>
      (q.addWhere boolean (.rowValues cs operator vs)).bind .condition
        (vs.map Value.bound).flatten := by
  unfold QueryId.whereRowValues QueryId.addWhere at hran
  simp only [ran_bind, ran_itemsNow hdata, ran_itemsNow hdata'] at hran
  obtain ⟨cs, _, ⟨hcs, rfl⟩, vs, _, ⟨hvs, rfl⟩, hran⟩ := hran
  split at hran
  · exact absurd hran ran_throw
  · simp only [ran_bind, ran_modify, ran_bindValues] at hran
    obtain ⟨_, _, rfl, rfl⟩ := hran
    exact ⟨cs, vs, hcs, hvs, Store.edit_edit ..⟩

theorem whereJsonContains_ran {value : Value} (hdata : value.handles = [])
    (hran : Ran (t.whereJsonContains column value boolean negated) s u s') :
    value.isRaw = true ∧ s' = s.edit t (·.addWhere boolean (.jsonContains column value negated)) ∨
      ¬value.isRaw = true ∧ ∃ w, boundJson value = .ok w ∧ w.handles = [] ∧ s' = s.edit t fun q =>
        (q.addWhere boolean (.jsonContains column value negated)).bind .condition [w] := by
  unfold QueryId.whereJsonContains QueryId.addWhere QueryId.bind at hran
  simp only [ran_bind, ran_modify] at hran
  obtain ⟨_, _, rfl, hran⟩ := hran
  split at hran
  · rename_i hraw
    obtain ⟨_, rfl⟩ := ran_pure.1 hran
    exact .inl ⟨hraw, rfl⟩
  · rename_i hraw
    simp only [ran_bind, ran_shown, ran_ofExcept, ran_modify] at hran
    obtain ⟨_, _, hgrammar, _, _, ⟨rfl, rfl⟩, json, _, ⟨hjson, rfl⟩, rfl⟩ := hran
    obtain rfl := grammarFor_ran hgrammar
    rw [Store.shown_data _ hdata] at hjson
    refine .inr ⟨hraw, .text json, ?_, rfl, Store.edit_edit ..⟩
    unfold boundJson
    rw [hjson]
    rfl

variable (hg : g.Compiles p) (hgrammar : ∃ id, (s.query t).grammar = .grammar id ∧
  id.index < s.grammars.size ∧ s.grammar id = g)
include hg hgrammar

variable {operator : Value} {value : Option Value}
variable (hdata : (comparand (some operator) value).handles = [])
include hdata

theorem whereDatePart_ran {part : DatePart}
    (hran : Ran (t.whereDatePart run part column operator value boolean) s u s') :
    ∃ word : String, Sealed word.toList ∧ s' = s.edit t fun q =>
      (q.addWhere boolean (.datePart part column word
        (QueryId.datePartValue part (comparand (some operator) value)))).bind .condition
          (QueryId.datePartValue part (comparand (some operator) value)).bound := by
  unfold QueryId.whereDatePart QueryId.addWhere at hran
  simp only [ran_bind, ran_modify, ran_bindValue] at hran
  obtain ⟨c, s1, hcomparison, written, s2, hwritten, _, _, rfl, rfl⟩ := hran
  obtain ⟨rfl, hoperator, hc⟩ := comparison_ran hg hgrammar hcomparison
  rw [← hc] at hdata ⊢
  obtain ⟨rfl, rfl⟩ := writtenDatePart_ran hdata hwritten
  exact ⟨c.operator, hoperator, Store.edit_edit ..⟩

omit hdata in
theorem whereJsonLength_ran
    (hran : Ran (t.whereJsonLength column operator value boolean) s u s') :
    ∃ word : String, Sealed word.toList ∧
      ((comparand (some operator) value).isRaw = true ∧ s' = s.edit t
          (·.addWhere boolean (.jsonLength column word (comparand (some operator) value))) ∨
        ¬(comparand (some operator) value).isRaw = true ∧ ∃ w,
          boundLength (comparand (some operator) value) = .ok w ∧ w.handles = [] ∧
          s' = s.edit t fun q => (q.addWhere boolean
            (.jsonLength column word (comparand (some operator) value))).bind .condition [w]) := by
  unfold QueryId.whereJsonLength QueryId.addWhere QueryId.bind at hran
  simp only [ran_bind, ran_modify] at hran
  obtain ⟨c, s1, hcomparison, _, _, rfl, hran⟩ := hran
  obtain ⟨rfl, hoperator, hc⟩ := comparison_ran hg hgrammar hcomparison
  rw [← hc]
  refine ⟨c.operator, hoperator, ?_⟩
  split at hran
  · rename_i hraw
    obtain ⟨_, rfl⟩ := ran_pure.1 hran
    exact .inl ⟨hraw, rfl⟩
  · rename_i hraw
    simp only [ran_bind, ran_ofExcept, ran_modify] at hran
    obtain ⟨length, _, ⟨hlength, rfl⟩, rfl⟩ := hran
    refine .inr ⟨hraw, .int length, ?_, rfl, Store.edit_edit ..⟩
    unfold boundLength
    rw [hlength]
    rfl

end

namespace Ready

variable (h : Ready g p run avail s notes t) (hstands : s.Stands notes t)
include h hstands

theorem whereSub {column operator query boolean : Value} (hcolumn : ColumnHolds g column [])
    (hoperator : WordHolds operator) (hquery : SubAllowed avail query)
    (hboolean : WordHolds boolean) {u : Unit}
    (hran : Ran (t.whereSub run column operator query boolean) s u s') :
    KeptIn .condition g avail s notes t s' :=
  (Pending.none h hstands .condition).whereSub h hcolumn hoperator hquery hboolean hran

theorem whereNull {columns boolean : Value} {negated : Bool}
    (hcolumns : ∀ c ∈ columns.listed, ColumnHolds g c []) (hboolean : WordHolds boolean) {u : Unit}
    (hran : Ran (t.whereNull columns boolean negated) s u s') :
    KeptIn .condition g avail s notes t s' := by
  refine h.eachIn hstands (fun c hc s notes s' u h hstands hadd => ?_) hran
  obtain rfl := ran_modify.1 hadd
  have hbody : WhereHolds g {} (.null c negated) := ⟨hcolumns c hc, rfl⟩
  exact h.addBareWhere hstands hboolean hbody rfl rfl rfl

theorem whereRaw {sql bindings boolean : Value} (hsql : FragmentAllowed sql bindings)
    (hboolean : WordHolds boolean) {u : Unit}
    (hran : Ran (t.whereRaw sql bindings boolean) s u s') : KeptIn .condition g avail s notes t s' := by
  unfold QueryId.whereRaw QueryId.addWhere QueryId.bind at hran
  simp only [ran_bind, ran_modify, ran_itemsOrNone hsql.bindingsData] at hran
  obtain ⟨_, _, rfl, vs, _, ⟨hvs, rfl⟩, rfl⟩ := hran
  rw [s.edit_edit]
  have hbody : WhereHolds g { values := [vs] } (.raw sql) :=
    ⟨hsql.sqlData, rfl, vs, rfl, hsql.reads vs hvs⟩
  exact h.addWhere hstands hboolean hbody (List.append_nil vs)
    (Value.given_data hsql.bindingsData hvs) rfl rfl

/-- A condition that a column is among the rows of a sub-query, or among values. -/
theorem whereIn {column values boolean : Value} {negated : Bool} (hcolumn : ColumnHolds g column [])
    (hvalues : values.isQueryable = true ∧ CreatesText g run avail s notes t values ∨
      ValuesAllowed values) (hboolean : WordHolds boolean)
    {u : Unit} (hran : Ran (t.whereIn run column values boolean negated) s u s') :
    KeptIn .condition g avail s notes t s' := by
  by_cases hqueryable : values.isQueryable = true
  · have hsub : CreatesText g run avail s notes t values := by
      refine (hvalues.resolve_right fun hallowed => ?_).2
      rw [Value.isQueryable_data hallowed.1] at hqueryable
      cases hqueryable
    unfold QueryId.whereIn QueryId.addWhere QueryId.bind at hran
    rw [if_pos hqueryable] at hran
    simp only [ran_bind, ran_modify, ran_bindValues, ran_pure] at hran
    obtain ⟨sub, s1, hcreate, _, _, rfl, _, _, ⟨rfl, rfl⟩, _, _, rfl, rfl⟩ := hran
    obtain ⟨notes1, hlater, hreads, hdata⟩ := hsub sub s1 hcreate
    rw [Store.edit_edit]
    have hbody : WhereHolds g { values := [sub.bindings] }
        (.among column [.raw (.text sub.sql)] negated) := by
      have hparam : ParamHolds .ok (.raw (.text sub.sql)) sub.bindings := ⟨rfl, hreads⟩
      exact ⟨hcolumn, rfl, .cons hparam .nil⟩
    exact (Pending.start h hstands hlater .condition hdata).addWhere h hboolean hbody rfl
      (fun v hv => by cases hv) (fun id hid => by cases hid) (fun id hid => by cases hid)
  · have hallowed : ValuesAllowed values := hvalues.resolve_left fun hsub => hqueryable hsub.1
    obtain ⟨vs, hvs, rfl⟩ := whereIn_ran hallowed.1 hran
    have hall := hallowed.2 vs hvs
    have hbody : WhereHolds g { values := vs.map Value.bound } (.among column vs negated) :=
      ⟨hcolumn, rfl, ValueAllowed.params hall⟩
    exact h.addWhere hstands hboolean hbody rfl (ValueAllowed.bounds_data hall) rfl rfl

theorem whereIntegerIn {column values boolean : Value} {negated : Bool}
    (hcolumn : ColumnHolds g column []) (hvalues : values.handles = []) (hboolean : WordHolds boolean)
    {u : Unit} (hran : Ran (t.whereIntegerIn column values boolean negated) s u s') :
    KeptIn .condition g avail s notes t s' := by
  unfold QueryId.whereIntegerIn QueryId.addWhere at hran
  simp only [ran_bind, ran_itemsNow hvalues, ran_modify] at hran
  obtain ⟨vs, _, ⟨_, rfl⟩, integers, s1, hintegers, rfl⟩ := hran
  obtain rfl := rawIntegers_ran hintegers
  have hbody : WhereHolds g {} (.amongIntegers column integers negated) := ⟨hcolumn, rfl⟩
  exact h.addBareWhere hstands hboolean hbody rfl rfl rfl

theorem whereBetween {column values boolean : Value} {negated : Bool}
    (hcolumn : ColumnHolds g column []) (hvalues : ValuesAllowed values)
    (hboolean : WordHolds boolean) {u : Unit}
    (hran : Ran (t.whereBetween column values boolean negated) s u s') :
    KeptIn .condition g avail s notes t s' := by
  obtain ⟨vs, ends, hvs, hends, rfl⟩ := whereBetween_ran hvalues.1 hran
  have hall : ∀ v ∈ ends, ValueAllowed v := fun v hv =>
    hvalues.2 vs hvs v (mem_of_betweenEnds hends v hv)
  have hbody : WhereHolds g { values := ends.map Value.bound } (.between column vs negated) :=
    ⟨hcolumn, endsHold (Value.items_data hvalues.1 hvs) hends fun v hv => (hall v hv).param⟩
  exact h.addWhere hstands hboolean hbody rfl (ValueAllowed.bounds_data hall) rfl rfl

theorem whereDatePart {part : DatePart} {column operator boolean : Value} {value : Option Value}
    (hcolumn : ColumnHolds g column []) (hvalue : ValueAllowed (comparand (some operator) value))
    (hboolean : WordHolds boolean) {u : Unit}
    (hran : Ran (t.whereDatePart run part column operator value boolean) s u s') :
    KeptIn .condition g avail s notes t s' := by
  obtain ⟨word, hword, rfl⟩ := whereDatePart_ran h.compiles h.grammar hvalue.1 hran
  have hallowed := hvalue.datePart part
  generalize QueryId.datePartValue part (comparand (some operator) value) = v at hallowed
  have hbody : WhereHolds g { values := [v.bound] } (.datePart part column word v) :=
    ⟨hcolumn, hword, _, rfl, hallowed.param⟩
  exact h.addWhere hstands hboolean hbody (List.append_nil _) hallowed.bound_data rfl rfl

/-- A condition that a query has rows, once that query is read. -/
theorem existsGiven (hlater : Later g ∅ avail.queries s notes s1 notes1) {sub : QueryId}
    (hgiven : Given avail s t s1 notes1 sub) {boolean : Value} {negated : Bool}
    (hboolean : WordHolds boolean) {u : Unit}
    (hran : Ran (t.addWhereExists (.ofQuery sub) boolean negated) s1 u s') :
    KeptIn .condition g avail s notes t s' := by
  unfold QueryId.addWhereExists QueryId.addWhere Value.needQuery QueryId.bindings QueryId.bind
    at hran
  simp only [Value.ofQuery, Value.query?, Option.elim, ran_bind, ran_modify, ran_pure, ran_read]
    at hran
  obtain ⟨_, _, rfl, sub, _, ⟨rfl, rfl⟩, _, _, ⟨_, _, ⟨rfl, rfl⟩, rfl, rfl⟩, rfl⟩ := hran
  rw [Store.edit_edit, Store.query_edit_of_ne hgiven.other]
  have hp := (Pending.none h hstands .condition).after h hlater
  have hbody : WhereHolds g {} (.exists (some sub) negated) := ⟨rfl, rfl⟩
  refine hp.addWhere h hboolean hbody rfl (hlater.noted.queries sub hgiven.stands).data
    (fun id hid => by cases hid) ?_
  rintro id hid
  cases hid
  exact hgiven

theorem whereExists {query boolean : Value} {negated : Bool} (hquery : SubAllowed avail query)
    (hboolean : WordHolds boolean) {u : Unit}
    (hran : Ran (t.whereExists run query boolean negated) s u s') : KeptIn .condition g avail s notes t s' := by
  unfold QueryId.whereExists at hran
  simp only [ran_bind] at hran
  obtain ⟨sub, s1, hsub, hran⟩ := hran
  obtain ⟨notes1, hlater, hgiven⟩ := h.resolveSub hquery hsub
  exact h.existsGiven hstands hlater hgiven hboolean hran

theorem addWhereExists {sub : QueryId} {boolean : Value} {negated : Bool} (hsub : sub ∈ avail.queries)
    (hboolean : WordHolds boolean) {u : Unit}
    (hran : Ran (t.addWhereExists (.ofQuery sub) boolean negated) s u s') :
    KeptIn .condition g avail s notes t s' := by
  obtain ⟨hne, hsubStands, hwhole⟩ := h.offered sub hsub
  exact h.existsGiven hstands (.refl h.noted) ⟨hsubStands, hwhole, hne, .inl hsub⟩ hboolean hran

theorem whereRowValues {columns operator values boolean : Value} (hdata : columns.handles = [])
    (hcolumns : ∀ cs, columns.items = .ok cs → ∀ c ∈ cs, ColumnHolds g c [])
    (hoperator : WordHolds operator) (hvalues : ValuesAllowed values) (hboolean : WordHolds boolean)
    {u : Unit} (hran : Ran (t.whereRowValues columns operator values boolean) s u s') :
    KeptIn .condition g avail s notes t s' := by
  obtain ⟨cs, vs, hcs, hvs, rfl⟩ := whereRowValues_ran hdata hvalues.1 hran
  have hall := hvalues.2 vs hvs
  have hbody : WhereHolds g { values := vs.map Value.bound } (.rowValues cs operator vs) :=
    ⟨hcolumns cs hcs, hoperator, rfl, ValueAllowed.params hall⟩
  exact h.addWhere hstands hboolean hbody rfl (ValueAllowed.bounds_data hall) rfl rfl

theorem whereJsonContains {column value boolean : Value} {negated : Bool}
    (hcolumn : ColumnHolds g column []) (hvalue : ValueAllowed value) (hboolean : WordHolds boolean)
    {u : Unit} (hran : Ran (t.whereJsonContains column value boolean negated) s u s') :
    KeptIn .condition g avail s notes t s' := by
  rcases whereJsonContains_ran hvalue.1 hran with ⟨hraw, rfl⟩ | ⟨hraw, w, hbound, hdata, rfl⟩
  · have hbody : WhereHolds g { values := [[]] } (.jsonContains column value negated) :=
      ⟨hcolumn, rfl, [], rfl, hvalue.raw_param hraw _⟩
    exact h.addBareWhere hstands hboolean hbody rfl rfl rfl
  · have hbody : WhereHolds g { values := [[w]] } (.jsonContains column value negated) :=
      ⟨hcolumn, rfl, _, rfl, hvalue.other_param hraw hbound⟩
    exact h.addWhere hstands hboolean hbody rfl (List.forall_mem_singleton.2 hdata) rfl rfl

theorem whereJsonLength {column operator boolean : Value} {value : Option Value}
    (hcolumn : ColumnHolds g column []) (hvalue : ValueAllowed (comparand (some operator) value))
    (hboolean : WordHolds boolean) {u : Unit}
    (hran : Ran (t.whereJsonLength column operator value boolean) s u s') :
    KeptIn .condition g avail s notes t s' := by
  obtain ⟨word, hword, hran⟩ := whereJsonLength_ran h.compiles h.grammar hran
  generalize comparand (some operator) value = v at hvalue hran
  rcases hran with ⟨hraw, rfl⟩ | ⟨hraw, w, hbound, hdata, rfl⟩
  · have hbody : WhereHolds g { values := [[]] } (.jsonLength column word v) :=
      ⟨hcolumn, hword, rfl, [], rfl, hvalue.raw_param hraw _⟩
    exact h.addBareWhere hstands hboolean hbody rfl rfl rfl
  · have hbody : WhereHolds g { values := [[w]] } (.jsonLength column word v) :=
      ⟨hcolumn, hword, rfl, _, rfl, hvalue.other_param hraw hbound⟩
    exact h.addWhere hstands hboolean hbody rfl (List.forall_mem_singleton.2 hdata) rfl rfl

end Ready

end

end FluentSql
