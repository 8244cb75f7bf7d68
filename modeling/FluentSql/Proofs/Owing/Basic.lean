import FluentSql.Proofs.Building.Grouping
import FluentSql.Proofs.Building.Refreshing
import FluentSql.Proofs.Reaching
import FluentSql.Proofs.Resembling.Selecting

/-!
# Placeholders without values

A raw fragment can stand in the place of a value.  It is written as it is, and
nothing is bound for it, so a query owes a value for each placeholder in it.
The query is bound to as many values as it has placeholders once it is also
bound to those that it owes; the text does not depend on values.

There are three groups.

* The fragments: `Value.owed` counts the values that one owes, and `Value.paid`
  are values for all of its placeholders.
* The stores: `Store.paid` is a store whose queries are bound to other values,
  and `Owing` says that a call can be made on a query once they are.
* The calls: `Owes` says how many values a call owes, and `Owes.trans` that the
  numbers add up.  `Owing.addWhere` and `Owing.addHaving` are the changes
  that calls are made of.
-/

namespace FluentSql

/-! ## Fragments in the place of values -/

/-- The number of values that are owed for a value: one for each placeholder of a fragment. -/
def Value.owed : Value → Nat
  | raw w => marks none w.display.toList
  | _ => 0

/-- Values for the placeholders of a value, also where it is a fragment. -/
def Value.paid : Value → List Value
  | raw w => List.replicate (marks none w.display.toList) null
  | v => [v]

/-- A value that can stand where values are compared: data, or a fragment that leaves no quote
open. -/
def Value.Closes (v : Value) : Prop :=
  v.handles = [] ∧ ∀ w, v = .raw w → openQuote none w.display.toList = none

namespace Value

variable {v : Value}

theorem length_paid (v : Value) : v.paid.length = v.bound.length + v.owed := by
  cases v with
  | raw w => exact List.length_replicate.trans (Nat.zero_add _).symm
  | _ => rfl

theorem length_paid_flatten (vs : List Value) : (vs.map paid).flatten.length =
    (vs.map bound).flatten.length + (vs.map owed).sum := by
  induction vs with
  | nil => rfl
  | cons v vs ih =>
    simp only [List.map_cons, List.flatten_cons, List.length_append, List.sum_cons, ih,
      v.length_paid]
    omega

theorem Closes.paid_data (h : v.Closes) : ∀ w ∈ v.paid, w.handles = [] := by
  intro w hw
  cases v with
  | raw u => rw [(List.mem_replicate.1 hw).2]; rfl
  | _ => rw [List.mem_singleton.1 hw]; exact h.1

theorem Closes.paids_data {vs : List Value} (h : ∀ v ∈ vs, v.Closes) :
    ∀ w ∈ (vs.map paid).flatten, w.handles = [] := by
  intro w hw
  obtain ⟨_, hpaid, hw⟩ := List.mem_flatten.1 hw
  obtain ⟨v, hv, rfl⟩ := List.mem_map.1 hpaid
  exact (h v hv).paid_data w hw

/-- A value and values for all of its placeholders. -/
theorem Closes.param (h : v.Closes) : ParamHolds .ok v v.paid := by
  refine ⟨h.1, ?_⟩
  cases v with
  | raw w => exact ⟨h.2 w rfl, List.length_replicate.symm⟩
  | _ => exact ⟨_, rfl, rfl⟩

theorem Closes.params {vs : List Value} (h : ∀ v ∈ vs, v.Closes) :
    List.Forall₂ (ParamHolds .ok) vs (vs.map paid) := by
  induction vs with
  | nil => exact .nil
  | cons v vs ih =>
    exact .cons (h v List.mem_cons_self).param (ih fun w hw => h w (List.mem_cons_of_mem _ hw))

/-- A fragment has values for its placeholders, whatever is bound for other values. -/
theorem Closes.raw_param (h : v.Closes) (hraw : v.isRaw = true)
    (bound : Value → Except Failure Value) : ParamHolds bound v v.paid := by
  cases v with
  | raw w => exact ⟨h.1, h.2 w rfl, List.length_replicate.symm⟩
  | _ => exact nomatch hraw

/-- A value for which another one is bound. -/
theorem Closes.other_param (h : v.Closes) (hraw : ¬v.isRaw = true) {w : Value}
    {bound : Value → Except Failure Value} (hw : bound v = .ok w) : ParamHolds bound v [w] := by
  refine ⟨h.1, ?_⟩
  cases v with
  | raw w => exact absurd rfl hraw
  | _ => exact ⟨w, hw, rfl⟩

/-- Nothing is owed for a value that is no fragment. -/
theorem owed_of_not_raw (hraw : ¬v.isRaw = true) : v.owed = 0 := by
  cases v with
  | raw w => exact absurd rfl hraw
  | _ => rfl

/-- A truth value that becomes a JSON word owes no more than before. -/
theorem owed_jsonWord (column v : Value) : (QueryId.jsonWord column v).owed = v.owed := by
  unfold QueryId.jsonWord
  split
  · rename_i b
    split
    · cases b <;> decide
    · rfl
  · rfl

theorem Closes.jsonWord {column : Value} (h : v.Closes) : (QueryId.jsonWord column v).Closes := by
  unfold QueryId.jsonWord
  split
  · rename_i b
    split
    · refine ⟨rfl, fun w hw => ?_⟩
      cases hw
      cases b <;> decide
    · exact h
  · exact h

/-- What is compared with a part of a date owes as much as the value that was given. -/
theorem owed_datePartValue (part : DatePart) (v : Value) :
    (QueryId.datePartValue part v).owed = v.owed := by
  unfold QueryId.datePartValue
  split
  · rfl
  · rfl
  · rfl
  · rfl
  · rename_i hraw
    split
    · rw [owed_of_not_raw (v := v) fun h => ?_]
      · rfl
      · cases v with
        | raw w => exact hraw w rfl
        | _ => exact nomatch h
    · rfl

theorem Closes.datePart (h : v.Closes) (part : DatePart) :
    (QueryId.datePartValue part v).Closes := by
  unfold QueryId.datePartValue
  split
  · exact ⟨rfl, fun w hw => nomatch hw⟩
  · exact ⟨rfl, fun w hw => nomatch hw⟩
  · exact ⟨rfl, fun w hw => nomatch hw⟩
  · exact h
  · split
    · exact ⟨rfl, fun w hw => nomatch hw⟩
    · exact h

end Value

/-! ## Stores with other values -/

namespace Store

/-- A store whose queries are bound to other values. -/
def paid (b : QueryId → Bindings) (s : Store) : Store :=
  { s with queries := s.queries.mapIdx fun i q => { q with bindings := b ⟨i⟩ } }

variable {b : QueryId → Bindings} {s : Store} {t id : QueryId}

@[simp] theorem size_paid : (s.paid b).queries.size = s.queries.size :=
  Array.size_mapIdx

theorem query_paid (h : id.index < s.queries.size) :
    (s.paid b).query id = { s.query id with bindings := b id } := by
  unfold query paid
  rw [Array.getElem?_mapIdx, Array.getElem?_eq_getElem h]
  rfl

/-- A store is bound to the values that it is bound to. -/
theorem paid_same (s : Store) : s.paid (fun id => (s.query id).bindings) = s := by
  have hqueries : (s.queries.mapIdx fun i q => { q with bindings := (s.query ⟨i⟩).bindings }) =
      s.queries := by
    refine Array.ext Array.size_mapIdx fun i hi hi' => ?_
    rw [Array.getElem_mapIdx, query, Array.getElem?_eq_getElem hi']
    rfl
  unfold paid
  rw [hqueries]

/-- A new query is bound to its own values. -/
theorem paid_add (s : Store) (b : QueryId → Bindings) (q : Query) :
    (s.add q).paid (Function.update b s.next q.bindings) = (s.paid b).add q := by
  have hold : (s.queries.mapIdx fun i q' =>
      { q' with bindings := Function.update b s.next q.bindings ⟨i⟩ }) =
        s.queries.mapIdx fun i q' => { q' with bindings := b ⟨i⟩ } := by
    refine Array.ext (by rw [Array.size_mapIdx, Array.size_mapIdx]) fun i hi _ => ?_
    rw [Array.size_mapIdx] at hi
    rw [Array.getElem_mapIdx, Array.getElem_mapIdx, Function.update_of_ne]
    rintro heq
    exact absurd hi (Nat.not_lt.2 (Nat.le_of_eq (congrArg QueryId.index heq).symm))
  unfold paid add
  rw [Array.mapIdx_push, hold]
  have hself : Function.update b s.next q.bindings ⟨s.queries.size⟩ = q.bindings :=
    Function.update_self ..
  rw [hself]

/-- A query that changes is bound to other values, if the change carries them along. -/
theorem paid_edit (s : Store) (b : QueryId → Bindings) (t : QueryId) {f f' : Query → Query}
    {c : Bindings}
    (h : ∀ q, { f q with bindings := c } = f' { q with bindings := b t }) :
    (s.edit t f).paid (Function.update b t c) = (s.paid b).edit t f' := by
  have hqueries : ((s.queries.modify t.index f).mapIdx fun i q =>
      { q with bindings := Function.update b t c ⟨i⟩ }) =
        (s.queries.mapIdx fun i q => { q with bindings := b ⟨i⟩ }).modify t.index f' := by
    refine Array.ext (by simp) fun i hi hi' => ?_
    rw [Array.getElem_mapIdx, Array.getElem_modify, Array.getElem_modify, Array.getElem_mapIdx]
    by_cases hit : t.index = i
    · subst hit
      rw [if_pos rfl, if_pos rfl, Function.update_self]
      exact h _
    · rw [if_neg hit, if_neg hit, Function.update_of_ne]
      rintro rfl
      exact hit rfl
  unfold paid edit
  exact congrArg (fun queries => { s with queries }) hqueries

/-- A store with the values that its queries are bound to has the queries of one with others. -/
theorem revalues_settled (h : ∀ id : QueryId, id.index < s.queries.size →
    ((s.paid b).query id).Still) : (s.paid b).Revalues s.settled where
  query id := by
    rw [query_settled]
    by_cases hid : id.index < s.queries.size
    · have hstill := congrArg (fun q : Query => { q with bindings := ((s.query id).rename
        { bindings := fun id => s.shown (.object (.bindings id)) }).bindings })
        (h id hid fun id => s.shown (.object (.bindings id)))
      rw [query_paid hid] at hstill ⊢
      exact hstill
    · have hle := Nat.le_of_not_lt hid
      rw [query_of_le hle, query_of_le (by rwa [size_paid])]
      rfl
  rest := rfl
  size := by
    rw [settled, size_paid]
    exact Array.size_map

end Store

/-! ## Calls that owe values -/

/-- A query on which a call can be made once the queries of its store are bound to other values. -/
structure Owing (g : Grammar) (p : String) (run : Runner) (s : Store) (b : QueryId → Bindings)
    (notes : QueryId → Notes) (t : QueryId) : Prop where
  ready : Ready g p run ⟨∅, ∅⟩ (s.paid b) notes t
  stands : (s.paid b).Stands notes t

/-- What a call shows that owes values of a group: it has changed no other query that was there, and
its query is noted once it is bound to more values than the call has bound. -/
def Owes (g : Grammar) (group : BindingGroup) (n : Nat) (s : Store) (b : QueryId → Bindings)
    (notes : QueryId → Notes) (t : QueryId) (s' : Store) : Prop :=
  ∃ b' notes' bound paid,
    Later g {t} ∅ (s.paid b) notes (s'.paid b') notes' ∧ (s'.paid b').Stands notes' t ∧
    (∀ id : QueryId, id.index < s.queries.size → id ≠ t → s'.query id = s.query id) ∧
    (s'.query t).bindings = (s.query t).bindings.extend group bound ∧
    b' t = (b t).extend group paid ∧ paid.length = bound.length + n

section

variable {g : Grammar} {p : String} {run : Runner} {group : BindingGroup} {m n : Nat}
variable {s s' s1 : Store} {b : QueryId → Bindings} {notes : QueryId → Notes} {t : QueryId}

theorem Bindings.extend_nil (b : Bindings) (group : BindingGroup) : b.extend group [] = b := by
  cases b with
  | mk => cases group <;> simp only [extend, set, get, List.append_nil]

theorem Bindings.extend_extend (b : Bindings) (group : BindingGroup) (vs ws : List Value) :
    (b.extend group vs).extend group ws = b.extend group (vs ++ ws) := by
  cases b with
  | mk => cases group <;> simp only [extend, set, get, List.append_assoc]

namespace Owing

theorem there (h : Owing g p run s b notes t) : t.index < s.queries.size := by
  have hthere := h.ready.there
  rwa [Store.size_paid] at hthere

theorem grammar (h : Owing g p run s b notes t) : ∃ id, (s.query t).grammar = .grammar id ∧
    id.index < s.grammars.size ∧ s.grammar id = g := by
  have hgrammar := h.ready.grammar
  rwa [Store.query_paid h.there] at hgrammar

/-- The comparison that a call reads from its arguments. -/
theorem comparison (h : Owing g p run s b notes t) {operator value : Option Value} {c : Comparison}
    (hran : Ran (t.comparison operator value) s c s') :
    s' = s ∧ Sealed c.operator.toList ∧ c.value = comparand operator value :=
  comparison_ran h.ready.compiles h.grammar hran

end Owing

namespace Owes

/-- Doing nothing owes nothing. -/
theorem refl (h : Owing g p run s b notes t) : Owes g group 0 s b notes t s :=
  ⟨b, notes, [], [], .refl h.ready.noted, h.stands, fun _ _ _ => rfl,
    (Bindings.extend_nil _ _).symm, (Bindings.extend_nil _ _).symm, rfl⟩

/-- Of two calls, one after the other, each owes its own values. -/
theorem trans (hr : Owing g p run s b notes t) (h : Owes g group m s b notes t s1)
    (h1 : ∀ b1 notes1, Owing g p run s1 b1 notes1 t → Owes g group n s1 b1 notes1 t s') :
    Owes g group (m + n) s b notes t s' := by
  obtain ⟨b1, notes1, bound, paid, hlater, hstands, hothers, hbound, hpaid, hcount⟩ := h
  obtain ⟨b', notes', bound', paid', hlater', hstands', hothers', hbound', hpaid', hcount'⟩ :=
    h1 b1 notes1 ⟨hr.ready.later hlater, hstands⟩
  have hsize : s.queries.size ≤ s1.queries.size := by
    have hsize := hlater.size
    rwa [Store.size_paid, Store.size_paid] at hsize
  refine ⟨b', notes', bound ++ bound', paid ++ paid', hlater.trans_same hlater', hstands',
    fun id hid hne => ?_, ?_, ?_, ?_⟩
  · rw [hothers' id (Nat.lt_of_lt_of_le hid hsize) hne, hothers id hid hne]
  · rw [hbound', hbound, Bindings.extend_extend]
  · rw [hpaid', hpaid, Bindings.extend_extend]
  · rw [List.length_append, List.length_append]
    omega

/-- A change of one query owes the values that it does not bind. -/
theorem edit (hr : Owing g p run s b notes t) {b1 : QueryId → Bindings}
    (hsame : ∀ id : QueryId, id.index < s.queries.size → s1.query id = s.query id)
    (hb : b1 t = b t) {f f' : Query → Query} {bound paid : List Value}
    (hkept : Kept g ⟨∅, ∅⟩ (s.paid b) notes t ((s1.paid b1).edit t f'))
    (hf : ∀ q, (f q).bindings = q.bindings.extend group bound)
    (hf' : ∀ q, { f q with bindings := (b1 t).extend group paid } =
      f' { q with bindings := b1 t })
    (hcount : paid.length = bound.length + n) : Owes g group n s b notes t (s1.edit t f) := by
  obtain ⟨notes', hlater, hstands⟩ := hkept
  have hsize := hlater.size
  rw [Store.size_paid, Store.size_edit, Store.size_paid] at hsize
  rw [← s1.paid_edit b1 t hf'] at hlater hstands
  refine ⟨_, notes', bound, paid, hlater, hstands, fun id hid hne => ?_, ?_, ?_, hcount⟩
  · rw [Store.query_edit_of_ne hne, hsame id hid]
  · rw [Store.query_edit_self (Nat.lt_of_lt_of_le hr.there hsize), hf, hsame t hr.there]
  · rw [Function.update_self, hb]

end Owes

namespace Owing

variable (h : Owing g p run s b notes t)
include h

/-- A condition that refers to no query owes the values of its note that are not bound. -/
theorem addWhere {boolean : Value} (hboolean : WordHolds boolean) {body : Where} {note : Note}
    (hbody : WhereHolds g note body) {bound paid : List Value}
    (hvalues : body.valuesIn (s.paid b) note = paid) (hdata : ∀ v ∈ paid, v.handles = [])
    (hgroup : body.group? = none) (hsub : body.sub? = none)
    (hcount : paid.length = bound.length + n) :
    Owes g .condition n s b notes t
      (s.edit t fun q => (q.addWhere boolean body).bind .condition bound) :=
  .edit h (fun _ _ => rfl) rfl
    (h.ready.addWhere h.stands hboolean hbody hvalues hdata hgroup hsub).1
    (fun _ => rfl) (fun _ => rfl) hcount

/-- A condition without values. -/
theorem addBareWhere {boolean : Value} (hboolean : WordHolds boolean) {body : Where}
    {note : Note} (hbody : WhereHolds g note body) {paid : List Value}
    (hvalues : body.valuesIn (s.paid b) note = paid) (hdata : ∀ v ∈ paid, v.handles = [])
    (hgroup : body.group? = none) (hsub : body.sub? = none) :
    Owes g .condition paid.length s b notes t (s.edit t (·.addWhere boolean body)) := by
  have hcount : paid.length = ([] : List Value).length + paid.length := (Nat.zero_add _).symm
  have hadd := h.addWhere hboolean hbody hvalues hdata hgroup hsub hcount
  have hsame : (fun q : Query => (q.addWhere boolean body).bind .condition []) =
      (·.addWhere boolean body) := funext fun q => Query.bind_nil _ _
  rwa [hsame] at hadd

/-- A condition on groups owes the values of its note that are not bound. -/
theorem addHaving {boolean : Value} (hboolean : WordHolds boolean) {body : Having} {note : Note}
    (hbody : HavingHolds g note body) {bound paid : List Value}
    (hvalues : note.column ++ note.values.flatten = paid) (hdata : ∀ v ∈ paid, v.handles = [])
    (hcount : paid.length = bound.length + n) :
    Owes g .having n s b notes t
      (s.edit t fun q => (q.addHaving boolean body).bind .having bound) :=
  .edit h (fun _ _ => rfl) rfl (h.ready.addHaving h.stands hboolean hbody hvalues hdata)
    (fun _ => rfl) (fun _ => rfl) hcount

end Owing

end

end FluentSql
