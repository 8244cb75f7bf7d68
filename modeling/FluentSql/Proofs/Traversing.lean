import Mathlib.Data.List.Forall2
import FluentSql.Proofs.References

/-!
# Traversals that may fail

* `exists_of_forall₂` is about members of related lists.
* `mapM_eq_ok_iff` is about traversals that are done.
* `mapM_eq_error` is about traversals of which all failing steps fail alike.
-/

namespace FluentSql

open Name

section

variable {α β : Type} {xs : List α} {ys : List β}

/-- What is in the first of two related lists is related to something in the second. -/
theorem exists_of_forall₂ {R : α → β → Prop} (h : List.Forall₂ R xs ys) {x : α} (hx : x ∈ xs) :
    ∃ y ∈ ys, R x y := by
  induction h with
  | nil => exact nomatch hx
  | cons first _ ih =>
    rcases List.mem_cons.1 hx with rfl | hx
    · exact ⟨_, List.mem_cons_self, first⟩
    · obtain ⟨y, hy, hxy⟩ := ih hx
      exact ⟨y, List.mem_cons_of_mem _ hy, hxy⟩

variable {f : α → Except Failure β}

/-- A traversal is done if every step is. -/
theorem mapM_eq_ok_iff :
    xs.mapM f = .ok ys ↔ List.Forall₂ (fun x y => f x = .ok y) xs ys := by
  constructor
  · intro h
    induction xs generalizing ys with
    | nil =>
      cases h
      exact .nil
    | cons x xs ih =>
      rw [List.mapM_cons] at h
      obtain ⟨y, hy, h⟩ := bind_eq_ok h
      obtain ⟨rest, hrest, h⟩ := bind_eq_ok h
      cases h
      exact .cons hy (ih hrest)
  · intro h
    induction h with
    | nil => rfl
    | cons hx _ ih =>
      rw [List.mapM_cons, hx, ih]
      rfl

theorem mapM_isOk (h : ∀ x ∈ xs, ∃ y, f x = .ok y) : ∃ ys, xs.mapM f = .ok ys := by
  induction xs with
  | nil => exact ⟨[], rfl⟩
  | cons x xs ih =>
    obtain ⟨y, hy⟩ := h x List.mem_cons_self
    obtain ⟨ys, hys⟩ := ih fun z hz => h z (List.mem_cons_of_mem _ hz)
    exact ⟨y :: ys, by rw [List.mapM_cons, hy, hys]; rfl⟩

/-- A traversal fails as the steps do that fail, if they all fail alike. -/
theorem mapM_eq_error {e : Failure}
    (hsteps : ∀ x ∈ xs, (∃ y, f x = .ok y) ∨ f x = .error e) (h : ∃ x ∈ xs, f x = .error e) :
    xs.mapM f = .error e := by
  induction xs with
  | nil => simp at h
  | cons x xs ih =>
    rw [List.mapM_cons]
    rcases hsteps x List.mem_cons_self with ⟨y, hy⟩ | hx
    · have hrest : ∃ x ∈ xs, f x = .error e := by
        obtain ⟨z, hz, he⟩ := h
        rcases List.mem_cons.1 hz with rfl | hz
        · rw [hy] at he
          exact nomatch he
        · exact ⟨z, hz, he⟩
      rw [hy, ih (fun z hz => hsteps z (List.mem_cons_of_mem _ hz)) hrest]
      rfl
    · rw [hx]
      rfl

end

end FluentSql
