import FluentSql.Proofs.Alignment.Notes
import FluentSql.Proofs.Building.Running
import FluentSql.Proofs.Renaming

/-!
# Data

A value without references to objects is data.  Reading it gives the same
value whatever the store holds, and a query whose values are data is compiled
as it is.

* `Value.substitute_data` and `Store.shown_data` say so for values.
* `Query.Noted.still` and `Store.Noted.settled` say so for noted queries.
* `ran_now`, `ran_shown` and the lemmas after them are the runs that read
  data.
-/

namespace FluentSql

/-! ## References in lists -/

namespace Value

theorem handlesOfAll_eq_nil {vs : List Value} :
    handlesOfAll vs = [] ↔ ∀ v ∈ vs, v.handles = [] := by
  induction vs with
  | nil => exact ⟨fun _ v hv => (nomatch hv), fun _ => rfl⟩
  | cons v vs ih =>
    rw [handlesOfAll, List.append_eq_nil_iff, ih, List.forall_mem_cons]

theorem handlesOfEntries_eq_nil {entries : List (Value × Value)} :
    handlesOfEntries entries = [] ↔ ∀ e ∈ entries, e.1.handles = [] ∧ e.2.handles = [] := by
  induction entries with
  | nil => exact ⟨fun _ e he => (nomatch he), fun _ => rfl⟩
  | cons e entries ih =>
    rw [handlesOfEntries, List.append_eq_nil_iff, List.append_eq_nil_iff, ih, List.forall_mem_cons]

/-- There is nothing to replace in data. -/
theorem substitute_data (f : Handle → Value) {v : Value} (h : v.handles = []) :
    v.substitute f = v := by
  refine (substitute_congr v fun x hx => ?_).trans v.substitute_object
  rw [h] at hx
  exact nomatch hx

end Value

/-- A renaming changes no data. -/
theorem Renaming.value_data (r : Renaming) {v : Value} (h : v.handles = []) : r.value v = v :=
  Value.substitute_data r.handle h

theorem Renaming.values_data (r : Renaming) {vs : List Value} (h : ∀ v ∈ vs, v.handles = []) :
    vs.map r.value = vs :=
  (List.map_congr_left fun v hv => r.value_data (h v hv)).trans (List.map_id vs)

theorem Store.shown_data (s : Store) {v : Value} (h : v.handles = []) : s.shown v = v :=
  Value.substitute_data _ h

/-! ## Queries whose values are data -/

/-- Puts other queries in the place of the one that a condition refers to. -/
def Where.moved (f : QueryId → QueryId) : Where → Where
  | nested query => nested (f query)
  | sub column operator query => sub column operator (f query)
  | «exists» query negated => «exists» (query.map f) negated
  | body => body

/-- Puts other objects in the place of those that a query refers to, its values apart. -/
def Query.moved (r : Renaming) (q : Query) : Query :=
  { q with
    connection := q.connection.map r.connection
    grammar := r.compiler q.grammar
    joins := q.joins.map r.query
    wheres := q.wheres.map fun c => ⟨c.boolean, c.body.moved r.query⟩
    unions := q.unions.map fun u => ⟨u.member.map r.query, u.keepsAll⟩ }

/-- Where everything stays in its place. -/
theorem Query.moved_same (q : Query) {r : Renaming} (hquery : r.query = id)
    (hgrammar : r.grammar = id) (hconnection : r.connection = id) : q.moved r = q := by
  have hbody : ∀ body : Where, body.moved id = body := by
    intro body
    cases body with
    | «exists» query negated => rw [Where.moved, Option.map_id_fun, id]
    | _ => rfl
  have hwheres : (q.wheres.map fun c => (⟨c.boolean, c.body.moved id⟩ : Condition)) = q.wheres := by
    refine (List.map_congr_left fun c _ => ?_).trans (List.map_id _)
    rw [hbody]
    rfl
  have hunions : (q.unions.map fun u => (⟨u.member.map id, u.keepsAll⟩ : Union)) = q.unions := by
    refine (List.map_congr_left fun u _ => ?_).trans (List.map_id _)
    rw [Option.map_id_fun]
    rfl
  have hcompiler : r.compiler q.grammar = q.grammar := by
    unfold Renaming.compiler
    rw [hquery, hgrammar, hconnection]
    cases q.grammar <;> rfl
  unfold Query.moved
  rw [hcompiler, hquery, hconnection, hwheres, hunions, Option.map_id_fun, List.map_id]
  rfl

theorem Query.subQueries_moved (r : Renaming) (q : Query) :
    (q.moved r).subQueries = q.subQueries.map r.query := by
  have hbody : ∀ body : Where, (body.moved r.query).sub? = body.sub?.map r.query := by
    intro body
    cases body <;> rfl
  unfold subQueries moved
  simp only [List.map_append, List.filterMap_map, Function.comp_def, hbody, List.map_filterMap]

/-- What is attached to a query moves with it. -/
theorem Query.attachments_moved (r : Renaming) (q : Query) :
    (q.moved r).attachments = q.attachments.map r.query := by
  have hbody : ∀ body : Where, (body.moved r.query).group? = body.group?.map r.query := by
    intro body
    cases body <;> rfl
  have hgroups : (q.moved r).conditionGroups = q.conditionGroups.map r.query := by
    unfold conditionGroups moved
    simp only [List.filterMap_map, Function.comp_def, hbody, List.map_filterMap]
  unfold attachments
  rw [q.subQueries_moved, hgroups, List.map_append, List.map_append]
  rfl

/-- What holds of all pairs holds of the first parts. -/
theorem forall_of_forall₂ {α β : Type} {R : α → β → Prop} {P : α → Prop} {xs : List α}
    {ys : List β} (h : List.Forall₂ R xs ys) (hP : ∀ x y, R x y → P x) : ∀ x ∈ xs, P x := by
  induction h with
  | nil => exact fun x hx => nomatch hx
  | cons first _ ih =>
    intro x hx
    rcases List.mem_cons.1 hx with rfl | hx
    · exact hP _ _ first
    · exact ih x hx

/-- The values after those of a group are replaced. -/
theorem Bindings.set_data {b : Bindings} (h : ∀ v ∈ b.flatten, v.handles = [])
    (group : BindingGroup) {vs : List Value} (hvs : ∀ v ∈ vs, v.handles = []) :
    ∀ v ∈ (b.set group vs).flatten, v.handles = [] := by
  intro v hv
  obtain ⟨other, _, hv⟩ := List.mem_flatMap.1 hv
  by_cases hgroup : other = group
  · subst hgroup
    rw [Bindings.get_set_self] at hv
    exact hvs v hv
  · rw [Bindings.get_set_of_ne _ _ hgroup] at hv
    exact h v (Bindings.mem_flatten hv)

/-- The values after some are added to a group. -/
theorem Bindings.extend_data {b : Bindings} (h : ∀ v ∈ b.flatten, v.handles = [])
    (group : BindingGroup) {vs : List Value} (hvs : ∀ v ∈ vs, v.handles = []) :
    ∀ v ∈ (b.extend group vs).flatten, v.handles = [] :=
  Bindings.set_data h group fun v hv =>
    (List.mem_append.1 hv).elim (fun hv => h v (Bindings.mem_flatten hv)) (hvs v)

theorem Bindings.map_data (r : Renaming) {b : Bindings} (h : ∀ v ∈ b.flatten, v.handles = []) :
    b.map r.value = b := by
  have hgroup : ∀ group, (b.get group).map r.value = b.get group := fun group =>
    r.values_data fun v hv => h v (mem_flatten hv)
  have hsame : b.map r.value =
      BindingGroup.all.foldl (fun kept group => kept.set group (b.get group)) b := by
    simp only [Bindings.map, hgroup]
  rw [hsame]
  cases b
  rfl

theorem Bindings.map_extend (b : Bindings) (group : BindingGroup) (vs : List Value)
    (f : Value → Value) : (b.extend group vs).map f = (b.map f).extend group (vs.map f) := by
  cases b
  cases group <;>
    simp only [Bindings.extend, Bindings.map, BindingGroup.all, List.foldl_cons, List.foldl_nil,
      Bindings.set, Bindings.get, List.map_append]

section

variable {g : Grammar} {s : Store} {notes : QueryId → Notes}

theorem ColumnHolds.data {v : Value} {vs : List Value} (h : ColumnHolds g v vs) :
    v.handles = [] :=
  h.1

theorem TableHolds.data {v : Value} {vs : List Value} (h : TableHolds g v vs) : v.handles = [] :=
  h.1

theorem ParamHolds.data {bound : Value → Except Failure Value} {v : Value} {vs : List Value}
    (h : ParamHolds bound v vs) : v.handles = [] :=
  h.1

/-- A renaming only moves the queries that a noted condition refers to. -/
theorem WhereHolds.rename_eq {note : Note} {body : Where} (h : WhereHolds g note body)
    (r : Renaming) : body.rename r = body.moved r.query := by
  cases body with
  | raw sql => rw [Where.rename, r.value_data h.1]; rfl
  | basic column operator value =>
    obtain ⟨hcolumn, _, vs, _, hvalue⟩ := h
    rw [Where.rename, r.value_data hcolumn.data, r.value_data hvalue.data]
    rfl
  | among column values negated =>
    obtain ⟨hcolumn, _, hvalues⟩ := h
    rw [Where.rename, r.value_data hcolumn.data,
      r.values_data (forall_of_forall₂ hvalues fun _ _ hv => hv.data)]
    rfl
  | amongIntegers column values negated => rw [Where.rename, r.value_data h.1.data]; rfl
  | null column negated => rw [Where.rename, r.value_data h.1.data]; rfl
  | between column values negated =>
    obtain ⟨hcolumn, _, _, _, _, _, _, _, _, _, hvalues⟩ := h
    rw [Where.rename, r.value_data hcolumn.data, r.values_data hvalues]
    rfl
  | datePart part column operator value =>
    obtain ⟨hcolumn, _, vs, _, hvalue⟩ := h
    rw [Where.rename, r.value_data hcolumn.data, r.value_data hvalue.data]
    rfl
  | columnPair first operator second =>
    obtain ⟨hfirst, _, hsecond, _⟩ := h
    rw [Where.rename, r.value_data hfirst.data, r.value_data hsecond.data]
    rfl
  | nested query => rfl
  | sub column operator query =>
    obtain ⟨hcolumn, hoperator, _⟩ := h
    rw [Where.rename, r.value_data hcolumn.data, r.value_data hoperator.1]
    rfl
  | «exists» query negated => rfl
  | rowValues columns operator values =>
    obtain ⟨hcolumns, hoperator, _, hvalues⟩ := h
    rw [Where.rename, r.values_data fun c hc => (hcolumns c hc).data, r.value_data hoperator.1,
      r.values_data (forall_of_forall₂ hvalues fun _ _ hv => hv.data)]
    rfl
  | jsonContains column value negated =>
    obtain ⟨hcolumn, _, vs, _, hvalue⟩ := h
    rw [Where.rename, r.value_data hcolumn.data, r.value_data hvalue.data]
    rfl
  | jsonLength column operator value =>
    obtain ⟨hcolumn, _, _, vs, _, hvalue⟩ := h
    rw [Where.rename, r.value_data hcolumn.data, r.value_data hvalue.data]
    rfl

theorem HavingHolds.rename_eq {note : Note} {body : Having} (h : HavingHolds g note body)
    (r : Renaming) : body.rename r = body := by
  cases body with
  | basic column operator value =>
    obtain ⟨hcolumn, _, vs, _, hvalue⟩ := h
    rw [Having.rename, r.value_data hcolumn.data, r.value_data hvalue.data]
  | raw sql => rw [Having.rename, r.value_data h.1]
  | between column values negated =>
    obtain ⟨hcolumn, _, _, _, _, _, _, _, _, _, hvalues⟩ := h
    rw [Having.rename, r.value_data hcolumn.data, r.values_data hvalues]
  | null column negated => rw [Having.rename, r.value_data h.1.data]

theorem OrderHolds.rename_eq {vs : List Value} {order : Order} (h : OrderHolds g vs order)
    (r : Renaming) : order.rename r = order := by
  cases order with
  | byColumn column direction => rw [Order.rename, r.value_data h.data]
  | raw sql => rw [Order.rename, r.value_data h.1]

theorem KindHolds.rename_eq {vs : List Value} {kind : QueryKind} (h : KindHolds g vs kind)
    (r : Renaming) : kind.rename r = kind := by
  cases kind with
  | statement => rfl
  | join type table =>
    obtain ⟨htype, htable⟩ := h
    rw [QueryKind.rename, r.value_data htype.1, r.value_data htable.data]

/-- A renaming only moves the objects that a noted query refers to. -/
theorem Query.Noted.rename_eq {n : Notes} {q : Query} (h : q.Noted g s notes n) (r : Renaming) :
    q.rename r = q.moved r := by
  have haggregate : (q.aggregate.map fun a => (⟨r.value a.function, a.columns.map r.value⟩ :
      Aggregate)) = q.aggregate := by
    cases hq : q.aggregate with
    | none => rfl
    | some a =>
      obtain ⟨hfunction, hcolumns, _⟩ := h.aggregate a hq
      rw [Option.map_some, r.value_data hfunction.1,
        r.values_data fun c hc => (hcolumns c hc).data]
  have hcolumns : q.columns.map (·.map r.value) = q.columns := by
    have hdata := forall_of_forall₂ h.columns fun _ _ hc => hc.data
    cases hq : q.columns with
    | none => rfl
    | some columns =>
      rw [hq] at hdata
      have hentries : ∀ v ∈ columns, v.handles = [] := hdata
      rw [Option.map_some, r.values_data hentries]
  have hwheres : (q.wheres.map fun c => (⟨r.value c.boolean, c.body.rename r⟩ : Condition)) =
      q.wheres.map fun c => ⟨c.boolean, c.body.moved r.query⟩ := by
    refine List.map_congr_left ?_
    refine forall_of_forall₂ h.wheres fun c note hc => ?_
    rw [r.value_data hc.1.1, hc.2.rename_eq r]
  have hhavings : (q.havings.map fun c => (⟨r.value c.boolean, c.body.rename r⟩ :
      GroupCondition)) = q.havings := by
    refine (List.map_congr_left ?_).trans (List.map_id _)
    refine forall_of_forall₂ h.havings fun c note hc => ?_
    rw [r.value_data hc.1.1, hc.2.rename_eq r]
    rfl
  have horders : ∀ {orders : List Order} {vss : List (List Value)},
      List.Forall₂ (fun order vs => OrderHolds g vs order) orders vss →
      orders.map (Order.rename r) = orders := by
    intro orders vss hvss
    refine (List.map_congr_left ?_).trans (List.map_id _)
    exact forall_of_forall₂ hvss fun order vs hvs => hvs.rename_eq r
  have hunions : (q.unions.map fun u => (⟨u.member.map r.query, r.value u.keepsAll⟩ : Union)) =
      q.unions.map fun u => ⟨u.member.map r.query, u.keepsAll⟩ := by
    refine List.map_congr_left fun u hu => ?_
    rw [r.value_data (h.unions u hu).2]
  unfold Query.rename Query.moved
  rw [h.kind.rename_eq r, Bindings.map_data r h.data, haggregate, hcolumns,
    r.value_data h.sourceData, hwheres,
    r.values_data (forall_of_forall₂ h.groups fun _ _ hc => hc.data), hhavings,
    horders h.orders, hunions, horders h.unionOrders, r.value_data h.lock.1]

/-- Reading the bindings of other queries changes nothing in a noted query. -/
theorem Query.Noted.still {n : Notes} {q : Query} (h : q.Noted g s notes n) : q.Still := by
  intro f
  rw [h.rename_eq]
  exact q.moved_same rfl rfl rfl

/-- Adding data to the bindings of a query leaves it still. -/
theorem Query.Still.bind {q : Query} (h : q.Still) (group : BindingGroup) {vs : List Value}
    (hvs : ∀ v ∈ vs, v.handles = []) : (q.bind group vs).Still := by
  intro f
  have hrename : (q.bind group vs).rename { bindings := f } =
      (q.rename { bindings := f }).bind group (vs.map (Renaming.value { bindings := f })) := by
    unfold Query.rename Query.bind
    rw [Bindings.map_extend]
  rw [hrename, h f, Renaming.values_data _ hvs]

end

/-- A store whose queries are still is compiled as it is. -/
theorem Store.settled_eq {s : Store}
    (h : ∀ id : QueryId, id.index < s.queries.size → (s.query id).Still) : s.settled = s := by
  unfold Store.settled
  have hqueries : s.queries.map (·.rename { bindings := fun id => s.shown (.object (.bindings id)) }) =
      s.queries := by
    refine Array.ext (Array.size_map) fun i hi hi' => ?_
    have hquery : s.query ⟨i⟩ = s.queries[i] := by
      unfold Store.query
      rw [Array.getElem?_eq_getElem hi']
      rfl
    rw [Array.getElem_map, ← hquery]
    exact h ⟨i⟩ hi' _
  dsimp only
  rw [hqueries]

/-! ## Runs that read data -/

section

variable {s s' : Store}

/-- The elements of a list of values that may be left out. -/
def Value.given (v : Value) : Except Failure (List Value) :=
  if v.truthy then v.items else .ok []

theorem ran_now {v w : Value} (h : v.handles = []) : Ran v.now s w s' ↔ w = v ∧ s' = s := by
  cases v with
  | object handle => exact nomatch h
  | _ => exact ran_pure

@[simp] theorem ran_shown {v w : Value} : Ran v.shown s w s' ↔ w = s.shown v ∧ s' = s := by
  unfold Value.shown
  simp only [ran_bind, ran_get, ran_pure]
  refine ⟨?_, ?_⟩
  · rintro ⟨_, _, ⟨rfl, rfl⟩, h⟩
    exact h
  · exact fun h => ⟨s, s, ⟨rfl, rfl⟩, h⟩

theorem ran_itemsNow {v : Value} {vs : List Value} (h : v.handles = []) :
    Ran v.itemsNow s vs s' ↔ v.items = .ok vs ∧ s' = s := by
  unfold Value.itemsNow
  simp only [ran_bind, ran_now h, ran_ofExcept]
  refine ⟨?_, ?_⟩
  · rintro ⟨_, _, ⟨rfl, rfl⟩, hitems⟩
    exact hitems
  · exact fun hitems => ⟨v, s, ⟨rfl, rfl⟩, hitems⟩

theorem ran_itemsOrNone {v : Value} {vs : List Value} (h : v.handles = []) :
    Ran v.itemsOrNone s vs s' ↔ v.given = .ok vs ∧ s' = s := by
  unfold Value.itemsOrNone Value.given
  split
  · exact ran_itemsNow h
  · rw [ran_pure, Except.ok.injEq]
    exact and_congr_left' eq_comm

theorem Value.itemsOrNone_list (vs : List Value) : (Value.list vs).itemsOrNone = pure vs := by
  cases vs <;> rfl

theorem ran_displayNow {v : Value} {t : String} (h : v.handles = []) :
    Ran v.displayNow s t s' ↔ t = v.display ∧ s' = s := by
  unfold Value.displayNow
  simp only [ran_bind, ran_shown, ran_pure]
  refine ⟨?_, ?_⟩
  · rintro ⟨_, _, ⟨rfl, rfl⟩, rfl, rfl⟩
    rw [s'.shown_data h]
    exact ⟨rfl, rfl⟩
  · rintro ⟨rfl, rfl⟩
    exact ⟨v, s', ⟨(s'.shown_data h).symm, rfl⟩, rfl, rfl⟩

/-- The elements of data are data. -/
theorem Value.items_data {v : Value} {vs : List Value} (h : v.handles = [])
    (hvs : v.items = .ok vs) : ∀ w ∈ vs, w.handles = [] := by
  cases v with
  | list items =>
    cases hvs
    exact handlesOfAll_eq_nil.1 h
  | tuple items =>
    cases hvs
    exact handlesOfAll_eq_nil.1 h
  | map entries =>
    cases hvs
    intro w hw
    obtain ⟨e, he, rfl⟩ := List.mem_map.1 hw
    exact (handlesOfEntries_eq_nil.1 h e he).1
  | text t =>
    cases hvs
    intro w hw
    obtain ⟨c, _, rfl⟩ := List.mem_map.1 hw
    rfl
  | bytes bs =>
    cases hvs
    intro w hw
    obtain ⟨b, _, rfl⟩ := List.mem_map.1 hw
    rfl
  | _ => exact nomatch hvs

theorem Value.given_data {v : Value} {vs : List Value} (h : v.handles = [])
    (hvs : v.given = .ok vs) : ∀ w ∈ vs, w.handles = [] := by
  unfold Value.given at hvs
  split at hvs
  · exact Value.items_data h hvs
  · cases hvs
    exact fun w hw => nomatch hw

end

end FluentSql
