import FluentSql.Proofs.Building.Running
import FluentSql.Proofs.Reaching
import FluentSql.Script.Session

/-!
# Edits

Whatever calls do to the queries of a store is made of a few edits of one
query each, of new queries and of copies.  Calls are taken apart into these
once, so that what all queries have in common is checked once for each edit.

There are four groups.

* `Edit` are the edits of a query and `Edit.apply` carries one out.
* `Policy` says what else is asked of the edits, and `Edit.Fits` where an edit
  may be made.
* `Policy.Edited` relates the stores before and after some edits.
* `Action.Edits` says that an action makes such edits only, also when it
  fails.  It is kept by the ways in which actions are put together.
-/

namespace FluentSql

/-! ## Edits of one query -/

/-- An edit of one query. -/
inductive Edit where
  /-- Sets the select list, or takes it away. -/
  | setColumns (columns : Option (List Value))
  /-- Adds columns to the select list. -/
  | addColumns (columns : List Value)
  /-- Drops duplicate rows. -/
  | distinct
  /-- Sets the source. -/
  | source (source : Value)
  /-- Attaches a join condition. -/
  | join (id : QueryId)
  /-- Adds a condition. -/
  | condition (boolean : Value) (body : Where)
  /-- Adds columns to group by. -/
  | groups (columns : List Value)
  /-- Adds a condition on groups. -/
  | groupCondition (boolean : Value) (body : Having)
  /-- Adds an ordering. -/
  | order (order : Order)
  /-- Removes every ordering. -/
  | dropOrders
  /-- Removes the orderings that do not belong to a union. -/
  | unorder
  /-- Sets the number of rows passed over. -/
  | offset (n : Nat)
  /-- Sets the greatest number of rows. -/
  | limit (n : Nat)
  /-- Unites the query with another. -/
  | unite (member : Union)
  /-- Sets the row lock. -/
  | lock (value : Value)
  /-- Sets the function over the rows. -/
  | aggregate (function : Aggregate)
  /-- Adds values to a binding group. -/
  | bind (group : BindingGroup) (values : List Value)
  /-- Replaces a binding group. -/
  | rebind (group : BindingGroup) (values : List Value)
  /-- Adds values to every binding group. -/
  | merge (added : Bindings)

/-- Carries out an edit. -/
def Edit.apply : Edit → Query → Query
  | .setColumns columns, q => { q with columns }
  | .addColumns columns, q => q.addColumns columns
  | .distinct, q => { q with distinct := true }
  | .source v, q => { q with source := v }
  | .join id, q => { q with joins := q.joins ++ [id] }
  | .condition boolean body, q => q.addWhere boolean body
  | .groups columns, q => { q with groups := q.groups ++ columns }
  | .groupCondition boolean body, q => q.addHaving boolean body
  | .order o, q => q.addOrder o
  | .dropOrders, q => q.dropOrders
  | .unorder, q => q.unordered
  | .offset n, q => q.setOffset n
  | .limit n, q => q.setLimit n
  | .unite member, q => { q with unions := q.unions ++ [member] }
  | .lock value, q => { q with lock := value }
  | .aggregate function, q => { q with aggregate := some function }
  | .bind group values, q => q.bind group values
  | .rebind group values, q => q.rebind group values
  | .merge added, q => { q with bindings := q.bindings.merge added }

/-! ## Where edits fit -/

/-- What is asked of edits. -/
structure Policy where
  /-- Queries from this number on were made later. -/
  start : Nat
  /-- The values that may stand among the bindings of a union that there is not. -/
  puts : Value → Prop
  /-- Whether orderings may be removed. -/
  reorders : Prop

/-- A condition is sound: a group has conditions, and the values of other conditions are as many as
their kind wants. -/
def Where.Sound (s : Store) : Where → Prop
  | .nested query => (s.query query).wheres ≠ []
  | .between _ values _ => values ≠ []
  | .rowValues columns _ values => columns.length = values.length
  | _ => True

/-- A condition on groups has the values that its kind wants. -/
def Having.Sound : Having → Prop
  | .between _ values _ => values ≠ []
  | _ => True

/-- The binding groups of the unions. -/
def BindingGroup.ofUnion : List BindingGroup := [.union, .unionOrder]

namespace Policy

variable (p : Policy)

/-- Values may be bound in a group of a query.  Those of a union that there is not must be values
that may stand there, or stand there already. -/
def Permits (q : Query) (group : BindingGroup) (values : List Value) : Prop :=
  group ∈ BindingGroup.ofUnion → q.isUnion = false →
    ∀ v ∈ values, p.puts v ∨ v ∈ q.bindings.get group

end Policy

/-- An edit may be made on a query of a store. -/
def Edit.Fits (p : Policy) (s : Store) (t : QueryId) : Edit → Prop
  | .condition _ body => body.Sound s
  | .groupCondition _ body => body.Sound
  | .dropOrders => p.reorders
  | .unorder => p.start ≤ t.index
  | .bind group values | .rebind group values => p.Permits (s.query t) group values
  | .merge added => ∀ group, p.Permits (s.query t) group (added.get group)
  | _ => True

/-- A query has only its kind, its connection and its grammar. -/
def Query.IsNew (q : Query) : Prop :=
  ∃ kind connection grammar, q = { kind, connection, grammar }

/-! ## Edited stores -/

/-- A store after some edits, with new queries and copies. -/
inductive Policy.Edited (p : Policy) (s : Store) : Store → Prop where
  /-- Nothing has been done. -/
  | refl : p.Edited s s
  /-- A query is edited. -/
  | edit {s1} (before : p.Edited s s1) (t : QueryId) (e : Edit) (hfits : e.Fits p s1 t) :
      p.Edited s (s1.edit t e.apply)
  /-- A query is made. -/
  | add {s1} (before : p.Edited s s1) (q : Query) (hnew : q.IsNew) : p.Edited s (s1.add q)
  /-- Some objects are copied. -/
  | copy {s1} (before : p.Edited s s1) (handles : List Handle) : p.Edited s (s1.addCopies handles)
  /-- No query has changed. -/
  | beside {s1 s2} (before : p.Edited s s1) (hqueries : s2.queries = s1.queries) : p.Edited s s2

namespace Store

theorem query_of_queries {s s' : Store} (h : s'.queries = s.queries) (id : QueryId) :
    s'.query id = s.query id := by
  unfold query
  rw [h]

/-- A query that a change does not tell apart from another change is changed alike. -/
theorem edit_congr {s : Store} {t : QueryId} {f f' : Query → Query}
    (h : f (s.query t) = f' (s.query t)) : s.edit t f = s.edit t f' := by
  unfold edit
  congr 1
  refine Array.ext (by simp only [Array.size_modify]) fun i hi hi' => ?_
  rw [Array.getElem_modify, Array.getElem_modify]
  split
  · rename_i hindex
    subst hindex
    have hlt : t.index < s.queries.size := by rwa [Array.size_modify] at hi
    unfold query at h
    rwa [Array.getElem?_eq_getElem hlt] at h
  · rfl

/-- A change that looks at the query first. -/
theorem edit_ite (s : Store) (t : QueryId) (c : Query → Prop) [DecidablePred c]
    (f f' : Query → Query) :
    (s.edit t fun q => if c q then f q else f' q) =
      if c (s.query t) then s.edit t f else s.edit t f' := by
  split
  · exact edit_congr (if_pos ‹_›)
  · exact edit_congr (if_neg ‹_›)

/-- Beyond the last query there is nothing to change. -/
theorem edit_of_le {s : Store} {t : QueryId} (h : s.queries.size ≤ t.index) (f : Query → Query) :
    s.edit t f = s := by
  unfold edit
  congr 1
  refine Array.ext (by simp only [Array.size_modify]) fun i hi hi' => ?_
  rw [Array.getElem_modify, if_neg (by omega)]

/-- An edited query is one of the store, changed if it is the one that was edited. -/
theorem query_edit_cases (s : Store) (t : QueryId) (f : Query → Query) (id : QueryId) :
    (s.edit t f).query id = s.query id ∨
      id = t ∧ id.index < s.queries.size ∧ (s.edit t f).query id = f (s.query id) := by
  by_cases hid : id = t
  · subst hid
    by_cases hlt : id.index < s.queries.size
    · exact .inr ⟨rfl, hlt, query_edit_self hlt f⟩
    · have hle := Nat.le_of_not_lt hlt
      rw [query_of_le hle, query_of_le (by rwa [size_edit])]
      exact .inl rfl
  · exact .inl (query_edit_of_ne hid f)

/-- A query of a store to which one is added was there or is the one that is added. -/
theorem query_add_cases (s : Store) (q : Query) (id : QueryId) :
    (s.add q).query id = s.query id ∨ (s.add q).query id = q := by
  by_cases hlt : id.index < s.queries.size
  · exact .inl (query_add_of_lt hlt q)
  · by_cases hnext : id = s.next
    · exact .inr (hnext ▸ query_add_next s q)
    · have hne : id.index ≠ s.queries.size := fun he => hnext (by cases id; cases he; rfl)
      rw [query_of_le (Nat.le_of_not_lt hlt), query_of_le (by rw [size_add]; omega)]
      exact .inl rfl

/-- A query of a store with copies was there or is a copy. -/
theorem query_addCopies_cases (s : Store) (handles : List Handle) (id : QueryId) :
    (s.addCopies handles).query id = s.query id ∨
      s.queries.size ≤ id.index ∧ ∃ source,
        (s.addCopies handles).query id = (s.query source).rename (s.copyRenaming handles) := by
  by_cases hlt : id.index < (s.addCopies handles).queries.size
  · rcases old_or_copy hlt with hold | ⟨k, source, hk, rfl⟩
    · exact .inl (query_addCopies_of_lt hold)
    · exact .inr ⟨Nat.le_add_right _ _, source, query_addCopies_copy hk⟩
  · have hle := Nat.le_of_not_lt hlt
    have hsize := s.size_addCopies handles
    rw [query_of_le hle, query_of_le (by omega)]
    exact .inl rfl

end Store

namespace Policy.Edited

variable {p : Policy} {s s' s'' : Store}

theorem trans (h : p.Edited s s') (h' : p.Edited s' s'') : p.Edited s s'' := by
  induction h' with
  | refl => exact h
  | edit _ t e hfits ih => exact ih.edit t e hfits
  | add _ q hnew ih => exact ih.add q hnew
  | copy _ handles ih => exact ih.copy handles
  | beside _ hqueries ih => exact ih.beside hqueries

theorem size_le (h : p.Edited s s') : s.queries.size ≤ s'.queries.size := by
  induction h with
  | refl => exact Nat.le_refl _
  | edit _ t e _ ih => rwa [Store.size_edit]
  | add _ q _ ih => exact Nat.le_trans ih (by rw [Store.size_add]; omega)
  | copy _ handles ih => exact Nat.le_trans ih (by rw [Store.size_addCopies]; omega)
  | beside _ hqueries ih => rwa [hqueries]

/-- What every edit keeps of a query holds after some edits. -/
theorem keeps {P : Query → Prop} (hedit : ∀ (e : Edit) q, P q → P (e.apply q)) (id : QueryId)
    (hid : id.index < s.queries.size) (h : p.Edited s s') (hP : P (s.query id)) :
    P (s'.query id) := by
  induction h with
  | refl => exact hP
  | @edit s1 before t e hfits ih =>
    rcases s1.query_edit_cases t e.apply id with heq | ⟨_, _, heq⟩
    · rwa [heq]
    · rw [heq]
      exact hedit e _ ih
  | add before q hnew ih => rwa [Store.query_add_of_lt (Nat.lt_of_lt_of_le hid before.size_le)]
  | copy before handles ih =>
    rwa [Store.query_addCopies_of_lt (Nat.lt_of_lt_of_le hid before.size_le)]
  | beside _ hqueries ih => rwa [Store.query_of_queries hqueries]

end Policy.Edited

/-! ## What edits never take away -/

theorem Query.isUnion_setOffset (q : Query) (n : Nat) : (q.setOffset n).isUnion = q.isUnion := by
  unfold setOffset
  split <;> rfl

theorem Query.isUnion_setLimit (q : Query) (n : Nat) : (q.setLimit n).isUnion = q.isUnion := by
  unfold setLimit
  split <;> rfl

/-- An edit leaves a union a union. -/
theorem Edit.isUnion_apply (e : Edit) {q : Query} (h : q.isUnion = true) :
    (e.apply q).isUnion = true := by
  cases e with
  | order o => exact (q.isUnion_addOrder o).trans h
  | offset n => exact (q.isUnion_setOffset n).trans h
  | limit n => exact (q.isUnion_setLimit n).trans h
  | unite member => simp [Edit.apply, Query.isUnion]
  | _ => exact h

theorem Query.wheres_addOrder (q : Query) (o : Order) : (q.addOrder o).wheres = q.wheres := by
  unfold addOrder
  split <;> rfl

theorem Query.wheres_setOffset (q : Query) (n : Nat) : (q.setOffset n).wheres = q.wheres := by
  unfold setOffset
  split <;> rfl

theorem Query.wheres_setLimit (q : Query) (n : Nat) : (q.setLimit n).wheres = q.wheres := by
  unfold setLimit
  split <;> rfl

/-- An edit removes no condition. -/
theorem Edit.wheres_apply (e : Edit) {q : Query} (h : q.wheres ≠ []) : (e.apply q).wheres ≠ [] := by
  cases e with
  | condition boolean body => simp [Edit.apply, Query.addWhere]
  | order o => rwa [Edit.apply, Query.wheres_addOrder]
  | offset n => rwa [Edit.apply, Query.wheres_setOffset]
  | limit n => rwa [Edit.apply, Query.wheres_setLimit]
  | _ => exact h

/-- A query with unions is one of the store. -/
theorem Store.lt_of_isUnion {s : Store} {id : QueryId} (h : (s.query id).isUnion = true) :
    id.index < s.queries.size := by
  refine Nat.lt_of_not_le fun hle => ?_
  rw [Store.query_of_le hle] at h
  exact nomatch h

theorem Policy.Edited.isUnion {p : Policy} {s s' : Store} (h : p.Edited s s') {id : QueryId}
    (hunion : (s.query id).isUnion = true) : (s'.query id).isUnion = true :=
  h.keeps (P := (·.isUnion = true)) (fun e _ => e.isUnion_apply) id (Store.lt_of_isUnion hunion)
    hunion

/-! ## Actions that edit -/

/-- The action makes edits only, whether it succeeds or fails. -/
def Action.Edits {α : Type} (p : Policy) (a : Action α) : Prop :=
  ∀ s, p.start ≤ s.queries.size → p.Edited s (a.runOn s).2

/-- Callbacks make edits only. -/
def Policy.Runs (p : Policy) (run : Runner) : Prop :=
  ∀ callback q extra, (run callback q extra).Edits p

section Combinators

variable {p : Policy} {α β : Type} {a : Action α} {f : α → Action β}

/-- An action after another is not run if the first one fails. -/
theorem Action.runOn_bind (a : Action α) (f : α → Action β) (s : Store) :
    (a >>= f).runOn s = match (a.runOn s).1 with
      | .error e => (.error e, (a.runOn s).2)
      | .ok v => (f v).runOn (a.runOn s).2 := by
  have hbind : (a >>= f).runOn s = (ExceptT.bindCont f (a.runOn s).1).run (a.runOn s).2 := rfl
  rw [hbind]
  cases (a.runOn s).1 <;> rfl

/-- An action after another, in one store. -/
theorem edited_bind {s : Store} (ha : p.Edited s (a.runOn s).2)
    (hf : ∀ v s', a.runOn s = (.ok v, s') → p.Edited s s' → p.Edited s' ((f v).runOn s').2) :
    p.Edited s ((a >>= f).runOn s).2 := by
  rw [Action.runOn_bind]
  cases hr : (a.runOn s).1 with
  | error e => exact ha
  | ok v => exact ha.trans (hf v _ (Prod.ext hr rfl) ha)

theorem Action.Edits.next (ha : a.Edits p) (hf : ∀ v, (f v).Edits p) : (a >>= f).Edits p :=
  fun s hs => edited_bind (ha s hs) fun v s' _ h => hf v s' (Nat.le_trans hs h.size_le)

theorem edits_pure (v : α) : (pure v : Action α).Edits p := fun _ _ => .refl

theorem edits_throw (e : Failure) : (throw e : Action α).Edits p := fun _ _ => .refl

theorem edits_ofExcept (r : Except Failure α) : (Action.ofExcept r).Edits p := fun _ _ => .refl

/-- An action on a result that did not depend on the store. -/
theorem edits_ofExcept_bind {r : Except Failure α} (h : ∀ v, r = .ok v → (f v).Edits p) :
    (Action.ofExcept r >>= f).Edits p := by
  refine fun s hs => edited_bind .refl fun v s' hran _ => ?_
  cases hran
  exact h v rfl s hs

theorem Action.Edits.map (ha : a.Edits p) (g : α → β) : (g <$> a).Edits p := by
  rw [map_eq_pure_bind]
  exact ha.next fun v => edits_pure (g v)

theorem Action.Edits.discard (ha : a.Edits p) : (discard a).Edits p :=
  ha.map _

theorem edits_get : (get : Action Store).Edits p := fun _ _ => .refl

theorem edits_forM {xs : List α} {f : α → Action PUnit} (h : ∀ x ∈ xs, (f x).Edits p) :
    (xs.forM f).Edits p := by
  induction xs with
  | nil => exact edits_pure _
  | cons x xs ih =>
    show Action.Edits p (f x >>= fun _ => xs.forM f)
    exact (h x List.mem_cons_self).next fun _ => ih fun y hy => h y (List.mem_cons_of_mem x hy)

theorem edits_mapM {xs : List α} {f : α → Action β} (h : ∀ x, (f x).Edits p) :
    (xs.mapM f).Edits p := by
  induction xs with
  | nil => exact edits_pure _
  | cons x xs ih =>
    rw [List.mapM_cons]
    exact (h x).next fun _ => ih.next fun _ => edits_pure _

theorem edits_forIn {xs : List α} {f : α → Action (ForInStep PUnit)} (h : ∀ x, (f x).Edits p) :
    Action.Edits p (forIn xs PUnit.unit fun x _ => f x) := by
  induction xs with
  | nil => exact edits_pure _
  | cons x xs ih =>
    rw [List.forIn_cons]
    refine (h x).next fun step => ?_
    cases step with
    | done => exact edits_pure _
    | yield => exact ih

end Combinators

/-! ## Primitive actions -/

section Primitives

variable {p : Policy} {t : QueryId}

/-- An edit that fits wherever it is made. -/
theorem edits_edit (e : Edit) (h : ∀ s, e.Fits p s t) : (t.modify e.apply).Edits p :=
  fun s _ => .edit .refl t e (h s)

theorem edits_create {q : Query} (h : q.IsNew) : q.create.Edits p := fun _ _ => .add .refl q h

/-- A change of the store beside its queries. -/
theorem edits_modifyStore {f : Store → Store} (h : ∀ s, (f s).queries = s.queries) :
    Action.Edits p (modifyThe Store f) := fun s _ => .beside .refl (h s)

end Primitives

end FluentSql
