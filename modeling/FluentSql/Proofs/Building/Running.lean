import FluentSql.Fluent.Execute
import FluentSql.Fluent.Having
import FluentSql.Fluent.Join

/-!
# Running actions

What an action that succeeds has done.  A fluent call changes few things, so
its runs are taken apart once here and the later modules speak of stores.

* `Ran a s v s'` says that the action `a` succeeds on the store `s`, gives `v`
  and leaves `s'`.  There is one equivalence for each way to build an action.
* `Store.edit` changes one query, and `Store.add` adds one.
-/

namespace FluentSql

/-! ## Actions that succeed -/

/-- The action succeeds on a store, with a result and the store afterwards. -/
def Ran {α : Type} (a : Action α) (s : Store) (v : α) (s' : Store) : Prop :=
  a.run.run s = (.ok v, s')

section

variable {α β : Type} {s s' : Store}

@[simp] theorem ran_pure {v w : α} : Ran (pure v) s w s' ↔ w = v ∧ s' = s := by
  refine ⟨fun h => ?_, ?_⟩
  · cases h
    exact ⟨rfl, rfl⟩
  · rintro ⟨rfl, rfl⟩
    rfl

@[simp] theorem ran_bind {a : Action α} {f : α → Action β} {v : β} :
    Ran (a >>= f) s v s' ↔ ∃ w s1, Ran a s w s1 ∧ Ran (f w) s1 v s' := by
  have hbind : (a >>= f).run.run s =
      (ExceptT.bindCont f (a.run.run s).1).run (a.run.run s).2 := rfl
  unfold Ran
  rw [hbind]
  cases ha : a.run.run s with
  | mk r s1 =>
    cases r with
    | error e =>
      refine ⟨fun h => (nomatch congrArg Prod.fst h), ?_⟩
      rintro ⟨w, s2, h, _⟩
      exact nomatch congrArg Prod.fst h
    | ok w =>
      refine ⟨fun h => ⟨w, s1, rfl, h⟩, ?_⟩
      rintro ⟨_, _, h, hrest⟩
      cases h
      exact hrest

@[simp] theorem ran_throw {e : Failure} {v : α} : ¬Ran (throw e) s v s' :=
  fun h => nomatch congrArg Prod.fst h

@[simp] theorem ran_get {v : Store} : Ran get s v s' ↔ v = s ∧ s' = s := by
  refine ⟨fun h => ?_, ?_⟩
  · cases h
    exact ⟨rfl, rfl⟩
  · rintro ⟨rfl, rfl⟩
    rfl

@[simp] theorem ran_set {s1 : Store} {v : PUnit} : Ran (set s1) s v s' ↔ s' = s1 := by
  refine ⟨fun h => ?_, ?_⟩
  · cases h
    rfl
  · rintro rfl
    rfl

@[simp] theorem ran_map {a : Action α} {f : α → β} {v : β} :
    Ran (f <$> a) s v s' ↔ ∃ w, Ran a s w s' ∧ v = f w := by
  rw [map_eq_pure_bind, ran_bind]
  refine ⟨?_, ?_⟩
  · rintro ⟨w, s1, ha, h⟩
    obtain ⟨rfl, rfl⟩ := ran_pure.1 h
    exact ⟨w, ha, rfl⟩
  · rintro ⟨w, ha, rfl⟩
    exact ⟨w, s', ha, ran_pure.2 ⟨rfl, rfl⟩⟩

@[simp] theorem ran_discard {a : Action α} {v : PUnit} :
    Ran (discard a) s v s' ↔ ∃ w, Ran a s w s' := by
  refine ran_map.trans ⟨?_, ?_⟩
  · rintro ⟨w, h, _⟩
    exact ⟨w, h⟩
  · rintro ⟨w, h⟩
    exact ⟨w, h, rfl⟩

@[simp] theorem ran_ofExcept {r : Except Failure α} {v : α} :
    Ran (Action.ofExcept r) s v s' ↔ r = .ok v ∧ s' = s := by
  refine ⟨fun h => ?_, ?_⟩
  · cases h
    exact ⟨rfl, rfl⟩
  · rintro ⟨rfl, rfl⟩
    rfl

/-! ## Changes of one query -/

namespace Store

/-- Changes a query. -/
def edit (s : Store) (t : QueryId) (f : Query → Query) : Store :=
  { s with queries := s.queries.modify t.index f }

/-- Adds a query. -/
def add (s : Store) (q : Query) : Store :=
  { s with queries := s.queries.push q }

/-- The number that the next query gets. -/
def next (s : Store) : QueryId := ⟨s.queries.size⟩

@[simp] theorem size_edit (s : Store) (t : QueryId) (f : Query → Query) :
    (s.edit t f).queries.size = s.queries.size :=
  Array.size_modify

@[simp] theorem size_add (s : Store) (q : Query) :
    (s.add q).queries.size = s.queries.size + 1 :=
  Array.size_push q

theorem query_edit_self {t : QueryId} (h : t.index < s.queries.size) (f : Query → Query) :
    (s.edit t f).query t = f (s.query t) := by
  unfold query edit
  rw [Array.getElem?_modify, if_pos rfl, Array.getElem?_eq_getElem h]
  rfl

theorem query_edit_of_ne {t id : QueryId} (h : id ≠ t) (f : Query → Query) :
    (s.edit t f).query id = s.query id := by
  have hindex : t.index ≠ id.index := fun he => h (by cases t; cases id; cases he; rfl)
  unfold query edit
  rw [Array.getElem?_modify, if_neg hindex]

theorem query_add_of_lt {id : QueryId} (h : id.index < s.queries.size) (q : Query) :
    (s.add q).query id = s.query id := by
  unfold query add
  rw [Array.getElem?_push, if_neg (Nat.ne_of_lt h)]

theorem query_add_next (s : Store) (q : Query) : (s.add q).query s.next = q := by
  unfold query add next
  rw [Array.getElem?_push, if_pos rfl]
  rfl

/-- A change that does nothing. -/
theorem edit_same {t : QueryId} {f : Query → Query} (hf : ∀ q, f q = q) : s.edit t f = s := by
  have hid : f = id := funext hf
  unfold edit
  rw [hid]
  congr 1
  refine Array.ext Array.size_modify fun i hi hi' => ?_
  rw [Array.getElem_modify]
  split <;> rfl

theorem edit_edit (s : Store) (t : QueryId) (f f' : Query → Query) :
    (s.edit t f).edit t f' = s.edit t fun q => f' (f q) := by
  unfold edit
  congr 1
  refine Array.ext ?_ fun i hi hi' => ?_
  · simp only [Array.size_modify]
  · simp only [Array.getElem_modify]
    split <;> rfl

/-- A change of the query that was added last. -/
theorem edit_add (s : Store) (q : Query) (f : Query → Query) :
    (s.add q).edit s.next f = s.add (f q) := by
  unfold edit add next
  congr 1
  refine Array.ext ?_ fun i hi hi' => ?_
  · rw [Array.size_modify, Array.size_push, Array.size_push]
  · rw [Array.getElem_modify, Array.getElem_push, Array.getElem_push]
    rw [Array.size_push] at hi'
    by_cases hlt : i < s.queries.size
    · rw [dif_pos hlt, dif_pos hlt, if_neg (by dsimp only; omega)]
    · rw [dif_neg hlt, dif_neg hlt, if_pos (by dsimp only; omega)]

end Store

/-- An ordering does not change whether a query is a union. -/
theorem Query.isUnion_addOrder (q : Query) (order : Order) :
    (q.addOrder order).isUnion = q.isUnion := by
  unfold Query.addOrder
  split <;> rfl

@[simp] theorem ran_read {t : QueryId} {v : Query} :
    Ran t.read s v s' ↔ v = s.query t ∧ s' = s := by
  refine ⟨fun h => ?_, ?_⟩
  · cases h
    exact ⟨rfl, rfl⟩
  · rintro ⟨rfl, rfl⟩
    rfl

@[simp] theorem ran_modify {t : QueryId} {f : Query → Query} {v : Unit} :
    Ran (t.modify f) s v s' ↔ s' = s.edit t f := by
  refine ⟨fun h => ?_, ?_⟩
  · cases h
    rfl
  · rintro rfl
    rfl

@[simp] theorem ran_create {q : Query} {v : QueryId} :
    Ran q.create s v s' ↔ v = s.next ∧ s' = s.add q := by
  refine ⟨fun h => ?_, ?_⟩
  · cases h
    exact ⟨rfl, rfl⟩
  · rintro ⟨rfl, rfl⟩
    rfl

end

end FluentSql
