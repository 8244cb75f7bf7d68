import FluentSql.Compile.Select
import FluentSql.Proofs.Filling
import FluentSql.Proofs.Traversing
import Mathlib.Data.List.Forall2

/-!
# Compilations in parallel

Two compilations run in parallel, of other clauses or by another grammar.
They fail alike, and the texts that they make are related, if the texts that
they start from are.

* `Alike` relates two computations by a relation between their results.
* `Carried` says what a relation between texts has to be kept by: putting
  texts together, in parentheses too, trimming them, and dropping the first
  joining word.  Texts without quotes and parentheses are related to
  themselves.
* `Written` relates two values by their texts.
* `joinWith_carried`, `spaced_carried` and `joinTexts_alike` are the ways in
  which the compilers join texts.
-/

namespace FluentSql

/-! ## Results -/

/-- Two computations fail alike, or give related results.  If the first is `lax`, it may have given up
before it came to an end. -/
inductive Alike {α β : Type} (lax : Prop) (R : α → β → Prop) :
    Except Failure α → Except Failure β → Prop where
  /-- Both give a result. -/
  | ok {a : α} {b : β} (h : R a b) : Alike lax R (.ok a) (.ok b)
  /-- Both fail. -/
  | error (e : Failure) : Alike lax R (.error e) (.error e)
  /-- The first has given up. -/
  | endless (h : lax) (y : Except Failure β) : Alike lax R (.error (.value .endless)) y

namespace Alike

variable {α β γ δ : Type} {lax : Prop} {R : α → β → Prop} {Q : γ → δ → Prop}

theorem bind {x : Except Failure α} {y : Except Failure β} {f : α → Except Failure γ}
    {f' : β → Except Failure δ} (h : Alike lax R x y) (hf : ∀ a b, R a b → Alike lax Q (f a) (f' b)) :
    Alike lax Q (x >>= f) (y >>= f') := by
  cases h with
  | ok h => exact hf _ _ h
  | error e => exact .error e
  | endless h y => exact .endless h _

theorem map {x : Except Failure α} {y : Except Failure β} {f : α → γ} {f' : β → δ}
    (h : Alike lax R x y) (hf : ∀ a b, R a b → Q (f a) (f' b)) :
    Alike lax Q (x.map f) (y.map f') := by
  cases h with
  | ok h => exact .ok (hf _ _ h)
  | error e => exact .error e
  | endless h y => exact .endless h _

/-- A computation is like itself if its results are related to themselves. -/
theorem same {R : α → α → Prop} {x : Except Failure α} (h : ∀ a, x = .ok a → R a a) :
    Alike lax R x x := by
  cases x with
  | ok a => exact .ok (h a rfl)
  | error e => exact .error e

theorem relax {x : Except Failure α} {y : Except Failure β} (h : Alike False R x y) :
    Alike lax R x y := by
  cases h with
  | ok h => exact .ok h
  | error e => exact .error e
  | endless h y => exact h.elim

/-- If the first gives a result, so does the second. -/
theorem of_ok {a : α} {y : Except Failure β} (h : Alike lax R (.ok a) y) : ∃ b, y = .ok b ∧ R a b := by
  cases h with
  | ok h => exact ⟨_, rfl, h⟩

theorem mapM {f : α → Except Failure γ} {f' : β → Except Failure δ} {xs : List α} {ys : List β}
    (h : List.Forall₂ R xs ys) (hf : ∀ x y, R x y → Alike lax Q (f x) (f' y)) :
    Alike lax (List.Forall₂ Q) (xs.mapM f) (ys.mapM f') := by
  induction h with
  | nil => exact .ok .nil
  | cons first _ ih =>
    rw [List.mapM_cons, List.mapM_cons]
    exact (hf _ _ first).bind fun _ _ hfirst => ih.bind fun _ _ hrest => .ok (.cons hfirst hrest)

/-- What may be left out is left out of both. -/
theorem elim {f : α → Except Failure γ} {f' : β → Except Failure γ} {Q : γ → γ → Prop} {c : γ}
    {x : Option α} {y : Option β} (h : Option.Rel R x y) (hc : Q c c)
    (hf : ∀ a b, R a b → Alike lax Q (f a) (f' b)) :
    Alike lax Q (x.elim (.ok c) f) (y.elim (.ok c) f') := by
  cases h with
  | none => exact .ok hc
  | some h => exact hf _ _ h

end Alike

/-! ## Options and lists that are related -/

section

variable {α β : Type} {R : α → β → Prop} {xs : List α} {ys : List β}

theorem isSome_eq_of_rel {x : Option α} {y : Option β} (h : Option.Rel R x y) :
    x.isSome = y.isSome := by
  cases h with
  | none => rfl
  | some _ => rfl

theorem optionRel_same (x : Option α) : Option.Rel Eq x x := by
  cases x with
  | none => exact .none
  | some a => exact .some rfl

theorem isEmpty_eq_of_forall₂ (h : List.Forall₂ R xs ys) : xs.isEmpty = ys.isEmpty := by
  cases h with
  | nil => rfl
  | cons _ _ => rfl

theorem head?_of_forall₂ (h : List.Forall₂ R xs ys) : Option.Rel R xs.head? ys.head? := by
  cases h with
  | nil => exact .none
  | cons first _ => exact .some first

theorem getLast?_of_forall₂ (h : List.Forall₂ R xs ys) : Option.Rel R xs.getLast? ys.getLast? := by
  rw [← List.head?_reverse, ← List.head?_reverse]
  exact head?_of_forall₂ (List.forall₂_reverse_iff.2 h)

end

/-! ## Texts -/

/-- A text without quotes and parentheses. -/
def Plain (s : String) : Prop :=
  ∀ c ∈ s.toList, isQuote c = false ∧ c ≠ '(' ∧ c ≠ ')'

instance (s : String) : Decidable (Plain s) :=
  List.decidableBAll (fun c => isQuote c = false ∧ c ≠ '(' ∧ c ≠ ')') s.toList

/-- A relation between texts that is kept by what the compilers do to them. -/
structure Carried (R : String → String → Prop) : Prop where
  append {a b c d : String} (h : R a b) (h' : R c d) : R (a ++ c) (b ++ d)
  plain {s : String} (h : Plain s) : R s s
  enclosed {a b : String} (h : R a b) : R ("(" ++ a ++ ")") ("(" ++ b ++ ")")
  isEmpty {a b : String} (h : R a b) : a.isEmpty = b.isEmpty
  isStar {a b : String} (h : R a b) : a = "*" ↔ b = "*"
  trimLeft {a b : String} (h : R a b) : R (Text.trimLeft a) (Text.trimLeft b)
  trimRight {a b : String} (h : R a b) : R (Text.trimRight a) (Text.trimRight b)
  dropConjunction {v w a b : String} (hword : R v w) (h : R a b) :
    R (dropConjunction (v ++ " " ++ a)) (dropConjunction (w ++ " " ++ b))

/-- Two texts that both begin with a word and a space. -/
def WithWord (R : String → String → Prop) (t u : String) : Prop :=
  ∃ v w a b, R v w ∧ R a b ∧ t = v ++ " " ++ a ∧ u = w ++ " " ++ b

namespace Carried

variable {R : String → String → Prop} (hR : Carried R)

include hR

theorem empty : R "" "" :=
  hR.plain (by decide)

theorem trim {a b : String} (h : R a b) : R (Text.trim a) (Text.trim b) := by
  rw [trim_eq, trim_eq]
  exact hR.trimRight (hR.trimLeft h)

/-- A word before a text. -/
theorem before {s : String} (hs : Plain s) {a b : String} (h : R a b) : R (s ++ a) (s ++ b) :=
  hR.append (hR.plain hs) h

/-- A word after a text. -/
theorem after {s : String} (hs : Plain s) {a b : String} (h : R a b) : R (a ++ s) (b ++ s) :=
  hR.append h (hR.plain hs)

/-- Two texts with a space between them. -/
theorem space {a b c d : String} (h : R a b) (h' : R c d) : R (a ++ " " ++ c) (b ++ " " ++ d) :=
  hR.append (hR.after (by decide) h) h'

theorem withWord {t u : String} (h : WithWord R t u) : R t u := by
  obtain ⟨v, w, a, b, hword, htext, rfl, rfl⟩ := h
  exact hR.space hword htext

/-- A text, a space, and parentheses with another text. -/
theorem spaceEnclosed {a b c d : String} (h : R a b) (h' : R c d) :
    R (a ++ " (" ++ c ++ ")") (b ++ " (" ++ d ++ ")") := by
  have hsplit : ∀ s t : String, s ++ " (" ++ t ++ ")" = s ++ " " ++ ("(" ++ t ++ ")") := by
    intro s t
    simp only [String.append_assoc]
    rfl
  rw [hsplit, hsplit]
  exact hR.space h (hR.enclosed h')

/-- Parentheses with a text, a space, and another text. -/
theorem enclosedSpace {a b c d : String} (h : R a b) (h' : R c d) :
    R ("(" ++ a ++ ") " ++ c) ("(" ++ b ++ ") " ++ d) := by
  have hsplit : ∀ s t : String, "(" ++ s ++ ") " ++ t = "(" ++ s ++ ")" ++ " " ++ t := by
    intro s t
    simp only [String.append_assoc]
    rfl
  rw [hsplit, hsplit]
  exact hR.space (hR.enclosed h) h'

theorem joinWith {separator : String} (hsep : Plain separator) {ts us : List String}
    (h : List.Forall₂ R ts us) : R (joinWith separator ts) (FluentSql.joinWith separator us) := by
  induction h with
  | nil => exact hR.empty
  | cons first rest ih =>
    cases rest with
    | nil => exact first
    | cons second rest => exact hR.append (hR.after hsep first) ih

theorem join {ts us : List String} (h : List.Forall₂ R ts us) : R (String.join ts) (String.join us) := by
  induction h with
  | nil => exact hR.empty
  | cons first _ ih =>
    rw [String.join_cons, String.join_cons]
    exact hR.append first ih

/-- The same fragments are left out of both. -/
theorem spaced {ts us : List String} (h : List.Forall₂ R ts us) :
    R (spaced ts) (FluentSql.spaced us) := by
  refine hR.joinWith (by decide) ?_
  induction h with
  | nil => exact .nil
  | cons first _ ih =>
    rw [List.filter_cons, List.filter_cons, hR.isEmpty first]
    split
    · exact .cons first ih
    · exact ih

/-- Conditions with their joining words, of which the first is dropped. -/
theorem dropFirst {ts us : List String} (h : List.Forall₂ (WithWord R) ts us) :
    R (FluentSql.dropConjunction (FluentSql.joinWith " " ts))
      (FluentSql.dropConjunction (FluentSql.joinWith " " us)) := by
  cases h with
  | nil => exact hR.empty
  | cons first rest =>
    obtain ⟨v, w, a, b, hword, htext, rfl, rfl⟩ := first
    cases rest with
    | nil => exact hR.dropConjunction hword htext
    | @cons t u ts us second rest =>
      have hjoined : R (FluentSql.joinWith " " (t :: ts)) (FluentSql.joinWith " " (u :: us)) :=
        hR.joinWith (by decide) ((List.Forall₂.cons second rest).imp fun _ _ h => hR.withWord h)
      have hall := hR.dropConjunction hword (hR.space htext hjoined)
      simpa only [FluentSql.joinWith, String.append_assoc] using hall

end Carried

/-! ## Values by their texts -/

/-- The texts of two values are related, and both are texts or neither is. -/
structure Written (R : String → String → Prop) (v w : Value) : Prop where
  display : R v.display w.display
  asText : Alike False R v.asText w.asText

variable {R : String → String → Prop} {lax : Prop}

theorem written_text {a b : String} (h : R a b) : Written R (.text a) (.text b) :=
  ⟨h, .ok h⟩

theorem Written.text {v w : Value} (h : Written R v w) : Alike lax R v.asText w.asText :=
  h.asText.relax

theorem joinTexts_alike (hR : Carried R) {separator : String} (hsep : Plain separator)
    {vs ws : List Value} (h : List.Forall₂ (Written R) vs ws) :
    Alike lax R (joinTexts separator vs) (joinTexts separator ws) :=
  (Alike.mapM h fun _ _ h => h.text).bind fun _ _ h => .ok (hR.joinWith hsep h)

end FluentSql
