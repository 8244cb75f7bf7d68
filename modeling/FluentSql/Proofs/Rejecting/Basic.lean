import FluentSql.Proofs.Edits.Basic

/-!
# Actions that change a query last

A call that may be rejected should change its query only after everything that
can be wrong with its arguments has been looked at.  Until then it may make
queries of its own, on which it collects conditions.

There are three kinds of actions.

* `Action.Aside`: what there is stays as it is, and only later queries are made
  and changed, whether the action succeeds or fails.
* `Action.Finishes`: the action cannot fail and changes one query.
* `Action.ChangesLast`: an action aside, and then one that finishes.  It leaves
  no trace if it fails, and is itself an action aside if its query is a later
  one, so that it may be a part of another such action.
-/

namespace FluentSql

/-- Nothing of a store has changed but queries from a number on, which may also be new. -/
structure Store.SameBelow (n : Nat) (s s' : Store) : Prop where
  size_le : s.queries.size ≤ s'.queries.size
  query : ∀ id : QueryId, id.index < n → s'.query id = s.query id
  beside : { s' with queries := s.queries } = s

namespace Store.SameBelow

variable {n : Nat} {s s' s'' : Store}

theorem refl (s : Store) : s.SameBelow n s := ⟨Nat.le_refl _, fun _ _ => rfl, rfl⟩

theorem trans (h : s.SameBelow n s') (h' : s'.SameBelow n s'') : s.SameBelow n s'' where
  size_le := Nat.le_trans h.size_le h'.size_le
  query id hid := (h'.query id hid).trans (h.query id hid)
  beside :=
    calc { s'' with queries := s.queries }
      _ = { { s'' with queries := s'.queries } with queries := s.queries } := rfl
      _ = { s' with queries := s.queries } := by rw [h'.beside]
      _ = s := h.beside

theorem edit {q : QueryId} (hq : n ≤ q.index) (f : Query → Query) : s.SameBelow n (s.edit q f) where
  size_le := Nat.le_of_eq (Store.size_edit s q f).symm
  query id hid := Store.query_edit_of_ne (fun heq => by subst heq; omega) f
  beside := rfl

theorem add (hn : n ≤ s.queries.size) (q : Query) : s.SameBelow n (s.add q) where
  size_le := by
    rw [Store.size_add]
    omega
  query _ hid := Store.query_add_of_lt (Nat.lt_of_lt_of_le hid hn) q
  beside := rfl

end Store.SameBelow

namespace Action

/-- The action changes only queries from a number on, whether it succeeds or fails; a result has a
property. -/
def Aside {α : Type} (n : Nat) (a : Action α) (P : α → Prop) : Prop :=
  ∀ s, n ≤ s.queries.size → s.SameBelow n (a.runOn s).2 ∧ ∀ v, (a.runOn s).1 = .ok v → P v

/-- The action succeeds and changes one query. -/
def Finishes (q : QueryId) (a : Action Unit) : Prop :=
  ∀ s, ∃ f, a.runOn s = (.ok (), s.edit q f)

/-- If the action fails, it has changed only queries from a number on.  If it succeeds, it has
changed one other query, in the end. -/
def ChangesLast (n : Nat) (q : QueryId) (a : Action Unit) : Prop :=
  ∀ s, n ≤ s.queries.size →
    (∀ e, (a.runOn s).1 = .error e → s.SameBelow n (a.runOn s).2) ∧
      ((a.runOn s).1 = .ok () → ∃ s1 f, s.SameBelow n s1 ∧ (a.runOn s).2 = s1.edit q f)

end Action

section

variable {n : Nat} {q : QueryId} {α β : Type} {P : α → Prop} {Q : β → Prop}

/-! ## Actions aside -/

theorem aside_pure {v : α} (h : P v) : (pure v : Action α).Aside n P := fun s _ =>
  ⟨.refl s, fun w hw => by cases hw; exact h⟩

theorem aside_throw (e : Failure) : (throw e : Action α).Aside n P := fun s _ =>
  ⟨.refl s, fun _ hw => nomatch hw⟩

theorem aside_ofExcept {r : Except Failure α} (h : ∀ v, r = .ok v → P v) :
    (Action.ofExcept r).Aside n P := fun s _ => ⟨.refl s, h⟩

theorem aside_get : (get : Action Store).Aside n fun _ => True := fun s _ =>
  ⟨.refl s, fun _ _ => trivial⟩

theorem Action.Aside.bind {a : Action α} {f : α → Action β} (ha : a.Aside n P)
    (hf : ∀ v, P v → (f v).Aside n Q) : (a >>= f).Aside n Q := by
  intro s hs
  obtain ⟨hsame, hresult⟩ := ha s hs
  rw [Action.runOn_bind]
  cases hr : (a.runOn s).1 with
  | error e => exact ⟨hsame, fun _ hw => nomatch hw⟩
  | ok v =>
    obtain ⟨hsame', hresult'⟩ := hf v (hresult v hr) _ (Nat.le_trans hs hsame.size_le)
    exact ⟨hsame.trans hsame', hresult'⟩

theorem aside_forM {xs : List α} {f : α → Action PUnit}
    (h : ∀ x ∈ xs, (f x).Aside n fun _ => True) : (xs.forM f).Aside n fun _ => True := by
  induction xs with
  | nil => exact aside_pure trivial
  | cons x xs ih =>
    show Action.Aside n (f x >>= fun _ => xs.forM f) _
    exact (h x List.mem_cons_self).bind fun _ _ => ih fun y hy => h y (List.mem_cons_of_mem x hy)

theorem aside_mapM {xs : List α} {f : α → Action β} (h : ∀ x, (f x).Aside n fun _ => True) :
    (xs.mapM f).Aside n fun _ => True := by
  induction xs with
  | nil => exact aside_pure trivial
  | cons x xs ih =>
    rw [List.mapM_cons]
    exact (h x).bind fun _ _ => ih.bind fun _ _ => aside_pure trivial

theorem aside_create (query : Query) : query.create.Aside n fun id => n ≤ id.index := by
  refine fun s hs => ⟨.add hs query, fun id hid => ?_⟩
  cases hid
  exact hs

/-! ## Actions that finish -/

theorem finishes_modify (f : Query → Query) : (q.modify f).Finishes q := fun _ => ⟨f, rfl⟩

theorem finishes_pure : Action.Finishes q (pure ()) := fun s =>
  ⟨fun query => query, by rw [Store.edit_same fun _ => rfl]; rfl⟩

theorem Action.Finishes.next {a : Action Unit} {f : Unit → Action Unit} (ha : a.Finishes q)
    (hf : (f ()).Finishes q) : (a >>= f).Finishes q := by
  intro s
  obtain ⟨f1, h1⟩ := ha s
  obtain ⟨f2, h2⟩ := hf (s.edit q f1)
  refine ⟨fun query => f2 (f1 query), ?_⟩
  rw [Action.runOn_bind, h1]
  exact h2.trans (by rw [Store.edit_edit])

theorem finishes_forM {xs : List α} {f : α → Action PUnit} (h : ∀ x, (f x).Finishes q) :
    (xs.forM f).Finishes q := by
  induction xs with
  | nil => exact finishes_pure
  | cons x xs ih =>
    show Action.Finishes q (f x >>= fun _ => xs.forM f)
    exact (h x).next ih

/-! ## Actions that change a query last -/

theorem Action.Finishes.changesLast {a : Action Unit} (h : a.Finishes q) : a.ChangesLast n q := by
  intro s _
  obtain ⟨f, hf⟩ := h s
  rw [hf]
  exact ⟨fun _ he => (nomatch he), fun _ => ⟨s, f, .refl s, rfl⟩⟩

/-- What is done aside may come before. -/
theorem Action.Aside.changesLast {a : Action α} {f : α → Action Unit} (ha : a.Aside n P)
    (hf : ∀ v, P v → (f v).ChangesLast n q) : (a >>= f).ChangesLast n q := by
  intro s hs
  obtain ⟨hsame, hresult⟩ := ha s hs
  rw [Action.runOn_bind]
  cases hr : (a.runOn s).1 with
  | error e => exact ⟨fun _ _ => hsame, fun h => nomatch h⟩
  | ok v =>
    obtain ⟨hfail, hdone⟩ := hf v (hresult v hr) _ (Nat.le_trans hs hsame.size_le)
    refine ⟨fun e he => hsame.trans (hfail e he), fun h => ?_⟩
    obtain ⟨s1, g, hsame', heq⟩ := hdone h
    exact ⟨s1, g, hsame.trans hsame', heq⟩

theorem changesLast_throw (e : Failure) : Action.ChangesLast n q (throw e) := fun s _ =>
  ⟨fun _ _ => .refl s, fun h => nomatch h⟩

/-- An action whose query is a later one leaves what there is as it is. -/
theorem Action.ChangesLast.aside {a : Action Unit} (h : a.ChangesLast n q) (hq : n ≤ q.index) :
    a.Aside n fun _ => True := by
  refine fun s hs => ⟨?_, fun _ _ => trivial⟩
  obtain ⟨hfail, hdone⟩ := h s hs
  cases hr : (a.runOn s).1 with
  | error e => exact hfail e hr
  | ok v =>
    obtain ⟨s1, f, hsame, heq⟩ := hdone hr
    rw [heq]
    exact hsame.trans (.edit hq f)

/-- An action that changes a query last leaves every query as it was if it fails. -/
theorem Action.ChangesLast.of_error {a : Action Unit} {s : Store}
    (h : a.ChangesLast s.queries.size q) {e : Failure} (he : (a.runOn s).1 = .error e) :
    s.SameBelow s.queries.size (a.runOn s).2 :=
  (h s (Nat.le_refl _)).1 e he

end

end FluentSql
