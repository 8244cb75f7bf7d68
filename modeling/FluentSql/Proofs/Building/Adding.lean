import FluentSql.Proofs.Building.SelectList

/-!
# Adding conditions

A condition is added together with its values.  In the middle of a call a
query may be bound to the first of these values already, while a callback that
builds the rest is still to run.

* `Pending` describes the query in between: some values are bound ahead.
* `Pending.addWhere` adds the condition and its other values, which ends the
  call.
* `ValueAllowed` are the values that a call may be given.
-/

namespace FluentSql

/-- A value to compare with: a fragment of SQL has no placeholders. -/
def ValueAllowed (v : Value) : Prop :=
  v.handles = [] ∧ ∀ w, v = .raw w → Sealed w.display.toList

/-- The value of a comparison with two optional arguments. -/
def comparand (operator value : Option Value) : Value :=
  value.getD (operator.getD .null)

/-- A query that is bound to values of a clause that it does not have yet. -/
structure Pending (g : Grammar) (avail : Offers) (s : Store) (notes : QueryId → Notes)
    (t : QueryId) (group : BindingGroup) (ahead : List Value) (s1 : Store)
    (notes1 : QueryId → Notes) : Prop where
  later : Later g {t} avail.queries s notes s1 notes1
  query : s1.query t = (s.query t).bind group ahead
  noted : (s.query t).Noted g s1 notes1 (notes t)
  closed : (notes t).closed = true
  frame : SameFrame (s1.query t) (notes1 t) (s.query t) (notes t)
  data : ∀ v ∈ ahead, v.handles = []

section

variable {g : Grammar} {p : String} {run : Runner} {avail : Offers}
variable {s s' s1 s2 : Store} {notes notes' notes1 notes2 : QueryId → Notes} {n : Notes}
variable {t : QueryId} {q : Query} {group : BindingGroup} {ahead : List Value}

/-! ## Values -/

theorem ValueAllowed.bound_data {v : Value} (hv : ValueAllowed v) :
    ∀ w ∈ v.bound, w.handles = [] := by
  intro w hw
  unfold Value.bound at hw
  split at hw
  · exact nomatch hw
  · rw [List.mem_singleton.1 hw]
    exact hv.1

/-- A value that is compared with by itself. -/
theorem ValueAllowed.param {v : Value} (hv : ValueAllowed v) : ParamHolds .ok v v.bound := by
  refine ⟨hv.1, ?_⟩
  cases v with
  | raw w => exact hv.2 w rfl
  | _ => exact ⟨_, rfl, rfl⟩

theorem ValueAllowed.params {vs : List Value} (hvs : ∀ v ∈ vs, ValueAllowed v) :
    List.Forall₂ (ParamHolds .ok) vs (vs.map Value.bound) := by
  induction vs with
  | nil => exact .nil
  | cons v vs ih =>
    exact .cons (hvs v List.mem_cons_self).param
      (ih fun w hw => hvs w (List.mem_cons_of_mem _ hw))

theorem ValueAllowed.bounds_data {vs : List Value} (hvs : ∀ v ∈ vs, ValueAllowed v) :
    ∀ w ∈ (vs.map Value.bound).flatten, w.handles = [] := by
  intro w hw
  obtain ⟨_, hbound, hw⟩ := List.mem_flatten.1 hw
  obtain ⟨v, hv, rfl⟩ := List.mem_map.1 hbound
  exact (hvs v hv).bound_data w hw

/-- A fragment without placeholders, whatever is bound for other values. -/
theorem ValueAllowed.raw_param {v : Value} (hv : ValueAllowed v) (hraw : v.isRaw = true)
    (bound : Value → Except Failure Value) : ParamHolds bound v [] := by
  cases v with
  | raw w => exact ⟨hv.1, hv.2 w rfl⟩
  | _ => exact nomatch hraw

/-- A value for which another one is bound. -/
theorem ValueAllowed.other_param {v w : Value} (hv : ValueAllowed v) (hraw : ¬v.isRaw = true)
    {bound : Value → Except Failure Value} (hw : bound v = .ok w) : ParamHolds bound v [w] := by
  refine ⟨hv.1, ?_⟩
  cases v with
  | raw w => exact absurd rfl hraw
  | _ => exact ⟨w, hw, rfl⟩

theorem Query.bind_bind (q : Query) (group : BindingGroup) (vs ws : List Value) :
    (q.bind group vs).bind group ws = q.bind group (vs ++ ws) := by
  cases q with
  | mk kind connection grammar bindings =>
    cases bindings
    cases group <;> simp only [Query.bind, Bindings.extend, Bindings.set, Bindings.get,
      List.append_assoc]

theorem ran_bindValue {v : Value} {u : Unit} :
    Ran (t.bindValue group v) s u s' ↔ s' = s.edit t (·.bind group v.bound) := by
  unfold QueryId.bindValue QueryId.bind Value.bound
  cases v.isRaw with
  | true =>
    have hsame : s.edit t (·.bind group []) = s := Store.edit_same fun q => q.bind_nil group
    simp only [if_true, ran_pure, true_and, hsame]
  | false => exact ran_modify

theorem ran_bindValues {vs : List Value} {u : Unit} :
    Ran (t.bindValues group vs) s u s' ↔
      s' = s.edit t (·.bind group (vs.map Value.bound).flatten) := by
  unfold QueryId.bindValues QueryId.bind
  rw [ran_modify, filter_raw_eq]

/-! ## Values bound ahead -/

namespace Pending

/-- No value is bound ahead when a call begins. -/
theorem none (h : Ready g p run avail s notes t) (hstands : s.Stands notes t)
    (group : BindingGroup) :
    Pending g avail s notes t group [] s notes where
  later := .refl h.noted
  query := (Query.bind_nil _ group).symm
  noted := h.noted.queries t hstands
  closed := hstands.2
  frame := .refl _ _
  data _ hv := nomatch hv

/-- Values are bound ahead. -/
theorem start (h : Ready g p run avail s notes t) (hstands : s.Stands notes t)
    (hlater : Later g ∅ avail.queries s notes s1 notes1) (group : BindingGroup) {vs : List Value}
    (hdata : ∀ v ∈ vs, v.handles = []) :
    Pending g avail s notes t group vs (s1.edit t (·.bind group vs))
      (Function.update notes1 t { notes1 t with closed := false }) := by
  have h1 := h.after hlater
  have hstands1 := hlater.stands hstands (Set.notMem_empty t)
  have hnoted := h1.noted.queries t hstands1
  obtain ⟨hquery, hnotes⟩ := h.unchanged hlater
  have hedit : Later g {t} avail.queries s1 notes1 (s1.edit t (·.bind group vs))
      (Function.update notes1 t { notes1 t with closed := false }) := by
    refine .edit h1.noted h1.there h1.loose h1.not_avail ?_ ?_ ?_ ⟨rfl, rfl, rfl, rfl⟩
    · exact fun hclosed => nomatch hclosed
    · exact hnoted.still.bind group hdata
    · exact fun id hid => .inl hid
  have hself : (s1.edit t (·.bind group vs)).query t = (s1.query t).bind group vs :=
    Store.query_edit_self h1.there _
  refine
    { later := (hlater.mono (Set.empty_subset _) (Set.Subset.refl _)).trans_same hedit
      query := by rw [hself, hquery]
      noted := ?_
      closed := hstands.2
      frame := ?_
      data := hdata }
  · rw [← hquery, ← hnotes]
    refine hnoted.later (.refl _) (Nat.le_of_eq (Store.size_edit _ _ _).symm) fun id hid => ?_
    have hne : id ≠ t := fun he => h1.loose.not_held h1.there (.inl rfl) (he ▸ hid)
    exact hedit.others id (h1.noted.present t h1.there id hid) hne
  · rw [hself, Function.update_self, ← hquery, ← hnotes]
    exact ⟨rfl, rfl, rfl, rfl⟩

/-- Other queries are made in the meantime. -/
theorem after (h : Ready g p run avail s notes t)
    (hp : Pending g avail s notes t group ahead s1 notes1)
    (hlater : Later g ∅ avail.queries s1 notes1 s2 notes2) :
    Pending g avail s notes t group ahead s2 notes2 := by
  have h1 := h.later hp.later
  obtain ⟨hquery, hnotes⟩ := h1.unchanged hlater
  refine
    { later := hp.later.trans_same (hlater.mono (Set.empty_subset _) (Set.Subset.refl _))
      query := hquery.trans hp.query
      noted := ?_
      closed := hp.closed
      frame := by rw [hquery, hnotes]; exact hp.frame
      data := hp.data }
  refine hp.noted.later hlater.grammars hlater.size fun id hid => ?_
  have hlt := (hp.noted.attached id hid).1.1
  exact hlater.others id hlt (Set.notMem_empty id)

end Pending

/-! ## Conditions -/

/-- A query that is attached to one with a new condition was attached before, or the condition
refers to it. -/
theorem Query.mem_attachments_addWhere {boolean : Value} {body : Where} {id : QueryId}
    (h : id ∈ (q.addWhere boolean body).attachments) :
    id ∈ q.attachments ∨ id ∈ body.group? ∨ id ∈ body.sub? := by
  rcases Query.mem_attachments.1 h with hjoin | ⟨c, hc, hid⟩ | hsub
  · exact .inl (Query.mem_attachments.2 (.inl hjoin))
  · rcases List.mem_append.1 hc with hc | hc
    · exact .inl (Query.mem_attachments_group hc hid)
    · rw [List.mem_singleton.1 hc] at hid
      exact .inr (.inl hid)
  · rcases Query.mem_subQueries.1 hsub with ⟨c, hc, hid⟩ | hunion
    · rcases List.mem_append.1 hc with hc | hc
      · exact .inl (Query.mem_attachments_sub (Query.mem_subQueries_where hc hid))
      · rw [List.mem_singleton.1 hc] at hid
        exact .inr (.inr hid)
    · exact .inl (Query.mem_attachments_sub (Query.mem_subQueries.2 (.inr hunion)))

/-- A condition with the rest of its values ends a call. -/
theorem Pending.addWhere (h : Ready g p run avail s notes t)
    (hp : Pending g avail s notes t .condition ahead s1 notes1) {boolean : Value}
    (hboolean : WordHolds boolean) {body : Where} {note : Note} (hbody : WhereHolds g note body)
    {vs : List Value} (hvalues : body.valuesIn s1 note = ahead ++ vs)
    (hdata : ∀ v ∈ vs, v.handles = [])
    (hgroup : ∀ id ∈ body.group?, s1.Stands notes1 id ∧ id ≠ t ∧
      (id ∈ avail.queries ∨ s.queries.size ≤ id.index))
    (hsub : ∀ id ∈ body.sub?, Given avail s t s1 notes1 id) :
    KeptIn .condition g avail s notes t
      (s1.edit t fun q => (q.addWhere boolean body).bind .condition vs) := by
  let rankOf (id? : Option QueryId) : Nat := (id?.map fun id => (notes1 id).rank).getD 0
  have hrank : ∀ {id? : Option QueryId} {id : QueryId}, id ∈ id? →
      (notes1 id).rank = rankOf id? := by
    rintro _ id rfl
    rfl
  have hall : ∀ v ∈ body.valuesIn s1 note, v.handles = [] := by
    intro v hv
    rw [hvalues] at hv
    exact (List.mem_append.1 hv).elim (hp.data v) (hdata v)
  have hnoted := hp.noted.addWhere hboolean hbody hall
    (Nat.le_add_right (notes t).rank (rankOf body.group? + rankOf body.sub? + 1))
    (fun id hid => ⟨(hgroup id hid).1, by rw [hrank hid]; omega⟩)
    (fun id hid => ⟨⟨(hsub id hid).stands, by rw [hrank hid]; omega⟩, (hsub id hid).whole⟩)
  have hquery : ((s1.query t).addWhere boolean body).bind .condition vs =
      ((s.query t).addWhere boolean body).bind .condition (body.valuesIn s1 note) := by
    rw [hp.query, hvalues, ← Query.bind_bind]
    rfl
  have hself : (s1.edit t fun q => (q.addWhere boolean body).bind .condition vs).query t =
      ((s.query t).addWhere boolean body).bind .condition (body.valuesIn s1 note) :=
    (Store.query_edit_self (h.later hp.later).there _).trans hquery
  refine ⟨?_, by rw [hself]; rfl⟩
  rw [← hquery] at hnoted
  refine h.close hp.later hnoted hp.closed ?_ ?_
  · intro id hid
    have hadded : id ∈ ((s1.query t).addWhere boolean body).attachments := hid
    rcases Query.mem_attachments_addWhere hadded with hold | hnew | hnew
    · exact .inl hold
    · obtain ⟨_, hne, hfrom⟩ := hgroup id hnew
      exact .inr (hfrom.imp_right fun hge => ⟨hne, hge⟩)
    · exact .inr ((hsub id hnew).source.imp_right fun hge => ⟨(hsub id hnew).other, hge⟩)
  · rw [hquery]
    exact hp.frame.trans ⟨rfl, rfl, rfl, rfl⟩

namespace Ready

variable (h : Ready g p run avail s notes t) (hstands : s.Stands notes t)
include h hstands

/-- A condition that refers to no query. -/
theorem addWhere {boolean : Value} (hboolean : WordHolds boolean) {body : Where} {note : Note}
    (hbody : WhereHolds g note body) {vs : List Value} (hvalues : body.valuesIn s note = vs)
    (hdata : ∀ v ∈ vs, v.handles = []) (hgroup : body.group? = none) (hsub : body.sub? = none) :
    KeptIn .condition g avail s notes t
      (s.edit t fun q => (q.addWhere boolean body).bind .condition vs) := by
  refine Pending.addWhere h (.none h hstands .condition) hboolean hbody hvalues hdata ?_ ?_
  · rw [hgroup]
    exact fun id hid => nomatch hid
  · rw [hsub]
    exact fun id hid => nomatch hid

/-- A condition without values. -/
theorem addBareWhere {boolean : Value} (hboolean : WordHolds boolean) {body : Where}
    {note : Note} (hbody : WhereHolds g note body) (hvalues : body.valuesIn s note = [])
    (hgroup : body.group? = none) (hsub : body.sub? = none) :
    KeptIn .condition g avail s notes t (s.edit t (·.addWhere boolean body)) := by
  have hadd := h.addWhere hstands hboolean hbody hvalues (fun v hv => nomatch hv) hgroup hsub
  have hsame : (fun q : Query => (q.addWhere boolean body).bind .condition []) =
      (·.addWhere boolean body) := funext fun q => Query.bind_nil _ _
  rwa [hsame] at hadd

end Ready

end

end FluentSql
