import FluentSql.Proofs.Building.Inner

/-!
# Calls for the select list and the source

Each call of the two families keeps its query noted.  What it must be given is
said next to it: names whose keys are free of single quotes, fragments with as
many values as placeholders, and sub-queries on offer.

* `FragmentAllowed` is a fragment of SQL with its values.
* `EntryAllowed` is an entry of the select list, and `SourceAllowed` a source.
* `Ready.select` and the lemmas after it are the calls.
-/

namespace FluentSql

/-- A fragment of SQL comes with as many values as it has placeholders. -/
structure FragmentAllowed (sql bindings : Value) : Prop where
  sqlData : sql.handles = []
  bindingsData : bindings.handles = []
  reads : ∀ vs, bindings.given = .ok vs → Reads sql.display.toList vs.length

/-- The value of a map entry, selected under its key. -/
def NamedAllowed (g : Grammar) (avail : Offers) (name value : Value) : Prop :=
  if value.isQueryable then SubAllowed avail value ∧ ColumnHolds g name []
  else value.handles = [] ∧ name.handles = [] ∧
    ColumnHolds g (.text (value.display ++ " as " ++ name.display)) []

/-- An entry of the select list. -/
def EntryAllowed (g : Grammar) (avail : Offers) : Value → Prop
  | .map entries => ∀ e ∈ entries, NamedAllowed g avail e.1 e.2
  | v => ColumnHolds g v []

/-- A source, with its name if it has one. -/
def SourceAllowed (g : Grammar) (avail : Offers) (table name : Value) : Prop :=
  if table.isQueryable then SubAllowed avail table ∧ TableHolds g name []
  else table.handles = [] ∧ name.handles = [] ∧
    TableHolds g (if name.truthy then .text (table.display ++ " as " ++ name.display) else table) []

section

variable {g : Grammar} {p : String} {run : Runner} {avail : Offers}
variable {s s' s1 s2 : Store} {notes notes' notes1 : QueryId → Notes} {t : QueryId}

theorem Query.bind_nil (q : Query) (group : BindingGroup) : q.bind group [] = q := by
  cases q with
  | mk kind connection grammar bindings =>
    cases bindings
    cases group <;> simp only [Query.bind, Bindings.extend, Bindings.set, Bindings.get,
      List.append_nil]

/-- The values that are listed are those of the list. -/
theorem Value.given_list (vs : List Value) : (Value.list vs).given = .ok vs := by
  cases vs <;> rfl

/-- A call that first makes and compiles other queries. -/
theorem Kept.after (hlater : Later g ∅ avail.queries s notes s1 notes1)
    (h : Kept g avail s1 notes1 t s2) : Kept g avail s notes t s2 := by
  obtain ⟨notes2, hlater2, hstands⟩ := h
  exact ⟨notes2, (hlater.mono (Set.empty_subset _) (Set.Subset.refl _)).trans_same hlater2, hstands⟩

namespace Ready

/-- A query stays ready while other queries are made. -/
theorem after (h : Ready g p run avail s notes t) (hlater : Later g ∅ avail.queries s notes s' notes') :
    Ready g p run avail s' notes' t :=
  h.later (hlater.mono (Set.empty_subset _) (Set.Subset.refl _))

/-- A query is as it was when other queries were made. -/
theorem unchanged (h : Ready g p run avail s notes t) (hlater : Later g ∅ avail.queries s notes s' notes') :
    s'.query t = s.query t ∧ notes' t = notes t :=
  hlater.others t h.there (Set.notMem_empty t)

/-- The grammar that a method of the query is asked of. -/
theorem grammarFor (h : Ready g p run avail s notes t) (method : String) {v : Grammar} :
    Ran (t.grammarFor method) s v s' ↔ v = g ∧ s' = s := by
  obtain ⟨id, hid, _, hg⟩ := h.grammar
  have hfor : s.grammarFor (s.query t).grammar method = .ok g := by
    rw [hid]
    unfold Store.grammarFor
    dsimp only
    rw [hg, if_neg fun hand => by simp only [h.compiles.full] at hand; exact nomatch hand.1]
  unfold QueryId.grammarFor
  simp only [ran_bind, ran_get, ran_ofExcept]
  refine ⟨?_, ?_⟩
  · rintro ⟨_, _, ⟨rfl, rfl⟩, hok, rfl⟩
    rw [hfor] at hok
    cases hok
    exact ⟨rfl, rfl⟩
  · rintro ⟨rfl, rfl⟩
    exact ⟨s', s', ⟨rfl, rfl⟩, hfor, rfl⟩

/-- A quoted column has no placeholders. -/
theorem wrapped (h : Ready g p run avail s notes t) {v : Value} (hv : ColumnHolds g v [])
    {sql : String} (hran : Ran (t.wrapped v) s sql s') : s' = s ∧ Sealed sql.toList := by
  unfold QueryId.wrapped at hran
  simp only [ran_bind, h.grammarFor, ran_shown, ran_ofExcept] at hran
  obtain ⟨_, _, ⟨rfl, rfl⟩, _, _, ⟨rfl, rfl⟩, hok, rfl⟩ := hran
  rw [s'.shown_data hv.data] at hok
  obtain ⟨_, _, hfills⟩ := (wrapped_self default h.compiles hv).succeeds sql hok
  exact ⟨rfl, hfills.reads⟩

/-- A quoted table has no placeholders. -/
theorem wrappedTable (h : Ready g p run avail s notes t) {v : Value} (hv : TableHolds g v [])
    {sql : String} (hran : Ran (t.wrappedTable v) s sql s') : s' = s ∧ Sealed sql.toList := by
  unfold QueryId.wrappedTable at hran
  simp only [ran_bind, h.grammarFor, ran_shown, ran_ofExcept] at hran
  obtain ⟨_, _, ⟨rfl, rfl⟩, _, _, ⟨rfl, rfl⟩, hok, rfl⟩ := hran
  rw [s'.shown_data hv.data] at hok
  obtain ⟨_, _, hfills⟩ := (wrappedTable_self default h.compiles hv).succeeds sql hok
  exact ⟨rfl, hfills.reads⟩

end Ready

/-- A sub-query with a name has as many placeholders as the sub-query. -/
theorem reads_named {sql name : String} {vs : List Value} (hsql : Reads sql.toList vs.length)
    (hname : Sealed name.toList) : Reads ("(" ++ sql ++ ") as " ++ name).toList vs.length := by
  have hopen : Reads "(".toList 0 := by decide
  have hclose : Reads ") as ".toList 0 := by decide
  have hall := ((hopen.append hsql).append hclose).append hname
  rw [← String.toList_append, ← String.toList_append, ← String.toList_append] at hall
  rwa [Nat.zero_add] at hall

/-- Columns without values. -/
theorem plainColumns {columns : List Value} (hcolumns : ∀ c ∈ columns, ColumnHolds g c []) :
    List.Forall₂ (ColumnHolds g) columns (columns.map fun _ => []) := by
  induction columns with
  | nil => exact .nil
  | cons c columns ih =>
    exact .cons (hcolumns c List.mem_cons_self)
      (ih fun c hc => hcolumns c (List.mem_cons_of_mem _ hc))

theorem flatten_plain (columns : List Value) :
    (columns.map fun _ => ([] : List Value)).flatten = [] := by
  rw [List.flatten_eq_nil_iff]
  intro vs hvs
  obtain ⟨_, _, rfl⟩ := List.mem_map.1 hvs
  rfl

/-! ## Select list -/

namespace Ready

variable (h : Ready g p run avail s notes t) (hstands : s.Stands notes t)
include h hstands

/-- Entries of the select list with their values. -/
theorem addColumns {columns : List Value} {vss : List (List Value)}
    (hcolumns : List.Forall₂ (ColumnHolds g) columns vss)
    (hdata : ∀ v ∈ vss.flatten, v.handles = []) :
    Kept g avail s notes t
      (s.edit t fun q => (q.addColumns columns).bind .select vss.flatten) :=
  h.change ((h.noted.queries t hstands).addColumns h.plain hcolumns hdata) hstands.2 rfl
    ⟨rfl, rfl, rfl, rfl⟩

/-- Entries without values. -/
theorem addPlainColumns {columns : List Value} (hcolumns : ∀ c ∈ columns, ColumnHolds g c []) :
    Kept g avail s notes t (s.edit t (·.addColumns columns)) := by
  have hkept := h.addColumns hstands (plainColumns hcolumns) fun v hv => by
    rw [flatten_plain] at hv
    exact nomatch hv
  rw [flatten_plain] at hkept
  have hsame : (fun q : Query => (q.addColumns columns).bind .select []) = (·.addColumns columns) :=
    funext fun q => Query.bind_nil _ _
  rwa [hsame] at hkept

theorem selectRaw {sql bindings : Value} (hsql : FragmentAllowed sql bindings) {u : Unit}
    (hran : Ran (t.selectRaw sql bindings) s u s') : Kept g avail s notes t s' := by
  have hgiven : ∃ vs, bindings.given = .ok vs ∧
      s' = s.edit t fun q => (q.addColumns [.raw sql]).bind .select vs := by
    unfold QueryId.selectRaw QueryId.addColumns QueryId.bind at hran
    unfold Value.given
    simp only [ran_bind, ran_modify] at hran
    obtain ⟨_, _, rfl, hrest⟩ := hran
    split at hrest
    · rename_i htruthy
      simp only [ran_bind, ran_itemsNow hsql.bindingsData, ran_modify] at hrest
      obtain ⟨vs, _, ⟨hitems, rfl⟩, rfl⟩ := hrest
      exact ⟨vs, by rw [if_pos htruthy, hitems], s.edit_edit t _ _⟩
    · rename_i htruthy
      obtain ⟨_, rfl⟩ := ran_pure.1 hrest
      refine ⟨[], if_neg htruthy, ?_⟩
      exact congrArg _ (funext fun q => (Query.bind_nil _ _).symm)
  obtain ⟨vs, hvs, rfl⟩ := hgiven
  have hdata := Value.given_data hsql.bindingsData hvs
  have hcolumn : ColumnHolds g (.raw sql) vs := ⟨hsql.sqlData, hsql.reads vs hvs⟩
  have hkept := h.addColumns hstands (.cons hcolumn .nil) fun v hv => by
    rw [List.flatten_cons, List.flatten_nil, List.append_nil] at hv
    exact hdata v hv
  rwa [List.flatten_cons, List.flatten_nil, List.append_nil] at hkept

theorem selectSub {query name : Value} (hquery : CreatesText g run avail s notes t query)
    (hname : ColumnHolds g name []) {u : Unit} (hran : Ran (t.selectSub run query name) s u s') :
    Kept g avail s notes t s' := by
  unfold QueryId.selectSub at hran
  simp only [ran_bind] at hran
  obtain ⟨sub, s1, hsub, sql, s2, hwrapped, hran⟩ := hran
  obtain ⟨notes1, hlater, hreads, hdata⟩ := hquery sub _ hsub
  have h1 := h.after hlater
  obtain ⟨rfl, hsealed⟩ := h1.wrapped hname hwrapped
  refine .after hlater (h1.selectRaw (hlater.stands hstands (Set.notMem_empty t)) ?_ hran)
  refine ⟨rfl, Value.handlesOfAll_eq_nil.2 hdata, fun vs hvs => ?_⟩
  rw [Value.given_list] at hvs
  cases hvs
  exact reads_named hreads hsealed

theorem selectAs {name value : Value} (hvalue : NamedAllowed g avail name value) {u : Unit}
    (hran : Ran (t.selectAs run name value) s u s') : Kept g avail s notes t s' := by
  unfold QueryId.selectAs at hran
  unfold NamedAllowed at hvalue
  split at hran
  · rename_i hquery
    rw [if_pos hquery] at hvalue
    exact h.selectSub hstands (h.createsText (.inl hvalue.1)) hvalue.2 hran
  · rename_i hquery
    rw [if_neg hquery] at hvalue
    obtain ⟨hdata, hname, hcolumn⟩ := hvalue
    unfold QueryId.addColumns at hran
    simp only [ran_bind, ran_displayNow hdata, ran_displayNow hname, ran_modify] at hran
    obtain ⟨_, _, ⟨rfl, rfl⟩, _, _, ⟨rfl, rfl⟩, rfl⟩ := hran
    refine h.addPlainColumns hstands fun c hc => ?_
    rw [List.mem_singleton.1 hc]
    exact hcolumn

theorem selectEntry {column : Value} (hcolumn : EntryAllowed g avail column) {u : Unit}
    (hran : Ran (t.selectEntry run column) s u s') : Kept g avail s notes t s' := by
  unfold QueryId.selectEntry at hran
  simp only [ran_bind] at hran
  obtain ⟨v, s1, hnow, hran⟩ := hran
  by_cases hmap : ∃ entries, column = .map entries
  · obtain ⟨entries, rfl⟩ := hmap
    obtain ⟨rfl, rfl⟩ := ran_pure.1 hnow
    refine h.each hstands (fun e he s notes s' u h hstands hran => ?_) hran
    exact h.selectAs hstands (hcolumn e he) hran
  · have hplain : ColumnHolds g column [] := by
      cases column with
      | map entries => exact absurd ⟨entries, rfl⟩ hmap
      | _ => exact hcolumn
    obtain ⟨rfl, rfl⟩ := (ran_now hplain.data).1 hnow
    have hadd : Ran (t.addColumns [v]) s1 u s' := by
      cases v with
      | map entries => exact absurd ⟨entries, rfl⟩ hmap
      | _ => exact hran
    obtain rfl := ran_modify.1 hadd
    refine h.addPlainColumns hstands fun c hc => ?_
    rw [List.mem_singleton.1 hc]
    exact hplain

theorem addSelect {columns : List Value} (hcolumns : ∀ c ∈ flatten columns, EntryAllowed g avail c)
    {u : Unit} (hran : Ran (t.addSelect run columns) s u s') : Kept g avail s notes t s' := by
  unfold QueryId.addSelect QueryId.addColumns at hran
  simp only [ran_bind, ran_modify] at hran
  obtain ⟨_, _, rfl, hran⟩ := hran
  have hnone : ∀ c ∈ ([] : List Value), ColumnHolds g c [] := fun c hc => by cases hc
  refine .trans h (h.addPlainColumns hstands hnone) fun notes1 h1 hstands1 => ?_
  refine h1.each hstands1 (fun c hc s notes s' u h hstands hran => ?_) hran
  exact h.selectEntry hstands (hcolumns c hc) hran

theorem select {columns : List Value}
    (hcolumns : ∀ c ∈ flatten (flatten columns), EntryAllowed g avail c) {u : Unit}
    (hran : Ran (t.select run columns) s u s') : Kept g avail s notes t s' := by
  unfold QueryId.select at hran
  simp only [ran_bind, ran_modify] at hran
  obtain ⟨_, _, rfl, hran⟩ := hran
  have hclear : Kept g avail s notes t
      (s.edit t fun query => { query.rebind .select [] with columns := some [] }) :=
    h.change ((h.noted.queries t hstands).clearColumns h.plain rfl) hstands.2 rfl
      ⟨rfl, rfl, rfl, rfl⟩
  refine .trans h hclear fun notes1 h1 hstands1 => h1.addSelect hstands1 ?_ hran
  intro c hc
  split at hc
  · rw [List.mem_singleton.1 hc]
    exact ⟨rfl, rfl, nameFree_of_word g (by decide) (by decide)⟩
  · exact hcolumns c hc

theorem distinct {u : Unit} (hran : Ran t.distinct s u s') : Kept g avail s notes t s' := by
  obtain rfl := ran_modify.1 hran
  exact h.change (h.noted.queries t hstands).setDistinct hstands.2 rfl ⟨rfl, rfl, rfl, rfl⟩

/-! ## Source -/

/-- A source with its values, in the place of one without values. -/
theorem putSource (hnone : (s.query t).bindings.source = []) {source : Value} {vs : List Value}
    (hsource : TableHolds g source vs) (hdata : ∀ v ∈ vs, v.handles = []) :
    Kept g avail s notes t
      (s.edit t fun q => ({ q with source := source } : Query).bind .source vs) :=
  h.change ((h.noted.queries t hstands).setSource hnone hsource hdata) hstands.2 rfl
    ⟨rfl, rfl, rfl, rfl⟩

/-- A source without values. -/
theorem putPlainSource (hnone : (s.query t).bindings.source = []) {source : Value}
    (hsource : TableHolds g source []) :
    Kept g avail s notes t (s.edit t fun q => { q with source := source }) := by
  have hput := h.putSource hstands hnone hsource fun v hv => nomatch hv
  have hsame : (fun q : Query => ({ q with source := source } : Query).bind .source []) =
      fun q => { q with source := source } := funext fun q => Query.bind_nil _ _
  rwa [hsame] at hput

theorem fromRaw (hnone : (s.query t).bindings.source = []) {sql bindings : Value}
    (hsql : FragmentAllowed sql bindings) {u : Unit}
    (hran : Ran (t.fromRaw sql bindings) s u s') : Kept g avail s notes t s' := by
  unfold QueryId.fromRaw QueryId.bind at hran
  simp only [ran_bind, ran_modify, ran_itemsOrNone hsql.bindingsData] at hran
  obtain ⟨_, _, rfl, vs, _, ⟨hvs, rfl⟩, rfl⟩ := hran
  rw [s.edit_edit]
  have hsource : TableHolds g (.raw sql) vs := ⟨hsql.sqlData, hsql.reads vs hvs⟩
  exact h.putSource hstands hnone hsource (Value.given_data hsql.bindingsData hvs)

theorem fromSub (hnone : (s.query t).bindings.source = []) {query name : Value}
    (hquery : CreatesText g run avail s notes t query) (hname : TableHolds g name []) {u : Unit}
    (hran : Ran (t.fromSub run query name) s u s') : Kept g avail s notes t s' := by
  unfold QueryId.fromSub at hran
  simp only [ran_bind] at hran
  obtain ⟨sub, s1, hsub, sql, s2, hwrapped, hran⟩ := hran
  obtain ⟨notes1, hlater, hreads, hdata⟩ := hquery sub _ hsub
  have h1 := h.after hlater
  obtain ⟨rfl, hsealed⟩ := h1.wrappedTable hname hwrapped
  have hnone1 : (s2.query t).bindings.source = [] := by rwa [(h.unchanged hlater).1]
  refine .after hlater
    (h1.fromRaw (hlater.stands hstands (Set.notMem_empty t)) hnone1 ?_ hran)
  refine ⟨rfl, Value.handlesOfAll_eq_nil.2 hdata, fun vs hvs => ?_⟩
  rw [Value.given_list] at hvs
  cases hvs
  exact reads_named hreads hsealed

theorem setSource (hnone : (s.query t).bindings.source = []) {table name : Value}
    (htable : SourceAllowed g avail table name) {u : Unit}
    (hran : Ran (t.setSource run table name) s u s') : Kept g avail s notes t s' := by
  unfold QueryId.setSource at hran
  unfold SourceAllowed at htable
  split at hran
  · rename_i hquery
    rw [if_pos hquery] at htable
    split at hran
    · exact absurd hran ran_throw
    · exact h.fromSub hstands hnone (h.createsText (.inl htable.1)) htable.2 hran
  · rename_i hquery
    rw [if_neg hquery] at htable
    obtain ⟨hdata, hname, hsource⟩ := htable
    have hput := h.putPlainSource hstands hnone hsource
    split at hran
    · rename_i htruthy
      simp only [ran_bind, ran_displayNow hdata, ran_displayNow hname, ran_pure, ran_modify] at hran
      obtain ⟨_, _, ⟨rfl, rfl⟩, _, _, ⟨rfl, rfl⟩, _, _, ⟨rfl, rfl⟩, rfl⟩ := hran
      rwa [if_pos htruthy] at hput
    · rename_i htruthy
      simp only [ran_bind, ran_pure, ran_modify] at hran
      obtain ⟨_, _, ⟨rfl, rfl⟩, rfl⟩ := hran
      rwa [if_neg htruthy] at hput

end Ready

end

end FluentSql
