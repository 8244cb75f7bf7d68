import FluentSql.Execution.Placeholder

/-!
# How a statement is read

An engine and `convertFrom` read a statement from the left.  They keep track
of the quote that is open, and they take a question mark for a placeholder
only while none is.  This module says what a piece of a statement does to such
a reader, so that statements can be put together from pieces.

There are three groups.

* The reader.  `quoteAfter` is one step, `openQuote` is the quote that is open
  after a text, and `marks` counts the placeholders of a text.
* Texts that can be put anywhere.  A text that is `Reads cs n` leaves no quote
  open and has `n` placeholders; one that is `Sealed` has none.  Both are
  closed under `++`.
* The tie to the conversion.  `convertFrom_append` says that the conversion of
  a text is split by the same reader, and `convertFrom_sealed` that a sealed
  text passes through it as it is.
-/

namespace FluentSql

/-! ## The reader -/

/-- The quote that is open after a character, given the one that was open
before it. -/
def quoteAfter (quote : Option Char) (c : Char) : Option Char :=
  match quote with
  | some open_ => if c = open_ then none else some open_
  | none => if isQuote c then some c else none

/-- The quote that is open after a text. -/
def openQuote (quote : Option Char) (cs : List Char) : Option Char :=
  cs.foldl quoteAfter quote

/-- The number of placeholders in a text: the question marks outside
quotes. -/
def marks (quote : Option Char) : List Char → Nat
  | [] => 0
  | c :: rest =>
    (if quote = none ∧ c = '?' then 1 else 0) + marks (quoteAfter quote c) rest

@[simp] theorem openQuote_nil (quote : Option Char) : openQuote quote [] = quote := rfl

@[simp] theorem openQuote_cons (quote : Option Char) (c : Char) (cs : List Char) :
    openQuote quote (c :: cs) = openQuote (quoteAfter quote c) cs := rfl

theorem openQuote_append (quote : Option Char) (a b : List Char) :
    openQuote quote (a ++ b) = openQuote (openQuote quote a) b := by
  rw [openQuote, openQuote, openQuote, List.foldl_append]

@[simp] theorem marks_nil (quote : Option Char) : marks quote [] = 0 := rfl

theorem marks_cons (quote : Option Char) (c : Char) (cs : List Char) :
    marks quote (c :: cs) =
      (if quote = none ∧ c = '?' then 1 else 0) + marks (quoteAfter quote c) cs := rfl

/-- The placeholders of two texts in a row: the second is read with the quote
that the first leaves open. -/
theorem marks_append (quote : Option Char) (a b : List Char) :
    marks quote (a ++ b) = marks quote a + marks (openQuote quote a) b := by
  induction a generalizing quote with
  | nil => rw [List.nil_append, marks_nil, openQuote_nil, Nat.zero_add]
  | cons c a ih =>
    rw [List.cons_append, marks_cons, marks_cons, ih, openQuote_cons]
    omega

/-- A character that is no quote changes nothing. -/
theorem quoteAfter_of_not_quote {c : Char} (hc : isQuote c = false) (quote : Option Char)
    (hq : ∀ q, quote = some q → isQuote q = true) : quoteAfter quote c = quote := by
  cases quote with
  | none => rw [quoteAfter, hc]; rfl
  | some q =>
    have hne : c ≠ q := by
      rintro rfl
      rw [hq c rfl] at hc
      exact absurd hc (by decide)
    rw [quoteAfter, if_neg hne]

/-- A text without quotes leaves the quote that was open. -/
theorem openQuote_plain {cs : List Char} (h : ∀ c ∈ cs, isQuote c = false)
    (quote : Option Char) (hq : ∀ q, quote = some q → isQuote q = true) :
    openQuote quote cs = quote := by
  induction cs with
  | nil => rfl
  | cons c cs ih =>
    rw [openQuote_cons, quoteAfter_of_not_quote (h c List.mem_cons_self) quote hq]
    exact ih fun d hd => h d (List.mem_cons_of_mem c hd)

/-- What is open after a character is a quote, if what was open before it is. -/
theorem isQuote_quoteAfter {before : Option Char} (hbefore : ∀ q, before = some q → isQuote q = true)
    {c q : Char} (h : quoteAfter before c = some q) : isQuote q = true := by
  cases before with
  | none =>
    rw [quoteAfter] at h
    split at h
    · rename_i hc
      exact Option.some.inj h ▸ hc
    · exact nomatch h
  | some open_ =>
    rw [quoteAfter] at h
    split at h
    · exact nomatch h
    · exact hbefore q h

/-- What a text leaves open is a quote. -/
theorem isQuote_of_openQuote {cs : List Char} {q : Char} (h : openQuote none cs = some q) :
    isQuote q = true := by
  have hall : ∀ {before : Option Char}, (∀ d, before = some d → isQuote d = true) →
      openQuote before cs = some q → isQuote q = true := by
    clear h
    induction cs with
    | nil => exact fun hbefore h => hbefore q h
    | cons c cs ih => exact fun hbefore h => ih (fun d hd => isQuote_quoteAfter hbefore hd) h
  refine hall (fun d hd => ?_) h
  exact nomatch hd

/-! ## Texts that can be put anywhere -/

/-- A text that leaves no quote open and has `n` placeholders. -/
structure Reads (cs : List Char) (n : Nat) : Prop where
  /-- Every quote is closed. -/
  closed : openQuote none cs = none
  /-- The placeholders. -/
  marks_eq : marks none cs = n

/-- A text that leaves no quote open and has no placeholder. -/
abbrev Sealed (cs : List Char) : Prop := Reads cs 0

instance (cs : List Char) (n : Nat) : Decidable (Reads cs n) :=
  decidable_of_iff (openQuote none cs = none ∧ marks none cs = n)
    ⟨fun h => ⟨h.1, h.2⟩, fun h => ⟨h.closed, h.marks_eq⟩⟩

theorem reads_nil : Sealed [] := ⟨rfl, rfl⟩

/-- Two texts in a row have the placeholders of both. -/
theorem Reads.append {a b : List Char} {m n : Nat} (ha : Reads a m) (hb : Reads b n) :
    Reads (a ++ b) (m + n) := by
  refine ⟨?_, ?_⟩
  · rw [openQuote_append, ha.closed, hb.closed]
  · rw [marks_append, ha.closed, ha.marks_eq, hb.marks_eq]

theorem Sealed.append {a b : List Char} (ha : Sealed a) (hb : Sealed b) : Sealed (a ++ b) :=
  Reads.append ha hb

/-- A sealed text in front does not change how the rest is read. -/
theorem Sealed.append_reads_iff {a : List Char} (ha : Sealed a) (b : List Char) (n : Nat) :
    Reads (a ++ b) n ↔ Reads b n := by
  have hopen : openQuote none (a ++ b) = openQuote none b := by
    rw [openQuote_append, ha.closed]
  have hmarks : marks none (a ++ b) = marks none b := by
    rw [marks_append, ha.closed, ha.marks_eq, Nat.zero_add]
  refine ⟨fun h => ⟨?_, ?_⟩, fun h => ⟨?_, ?_⟩⟩
  · rw [← hopen, h.closed]
  · rw [← hmarks, h.marks_eq]
  · rw [hopen, h.closed]
  · rw [hmarks, h.marks_eq]

/-- A text without quotes and question marks is sealed. -/
theorem sealed_of_plain {cs : List Char} (h : ∀ c ∈ cs, isQuote c = false ∧ c ≠ '?') :
    Sealed cs := by
  induction cs with
  | nil => exact reads_nil
  | cons c cs ih =>
    obtain ⟨hquote, hmark⟩ := h c List.mem_cons_self
    have hrest := ih fun d hd => h d (List.mem_cons_of_mem c hd)
    have hnone : quoteAfter none c = none := by rw [quoteAfter, hquote]; rfl
    refine ⟨?_, ?_⟩
    · rw [openQuote_cons, hnone, hrest.closed]
    · rw [marks_cons, hnone, hrest.marks_eq, if_neg fun hc => hmark hc.2]

/-! ## The tie to the conversion -/

section Conversion

variable {escapes : Bool} {placeholder : Nat → Except Failure (List Char)}

/-- One step of a conversion that writes no percent sign twice. -/
theorem convertFrom_cons (quote : Option Char) (index : Nat) (c : Char) (cs : List Char) :
    convertFrom some id false placeholder quote index (c :: cs) =
      if quote = none ∧ c = '?' then do
        let mark ← placeholder index
        return mark ++ (← convertFrom some id false placeholder none (index + 1) cs)
      else do
        return c :: (← convertFrom some id false placeholder (quoteAfter quote c) index cs) := by
  cases quote with
  | some q =>
    have hsome : ¬(some q = none ∧ c = '?') := fun h => nomatch h.1
    rw [if_neg hsome, convertFrom, if_neg (by simp)]
    simp only [quoteAfter, Option.some.injEq]
  | none =>
    by_cases hc : c = '?'
    · subst hc
      rw [if_pos ⟨rfl, rfl⟩]
      rfl
    · rw [if_neg fun h => hc h.2, convertFrom.eq_def]
      split
      · contradiction
      · rename_i heq
        cases heq
        simp only [Bool.false_and, Bool.false_eq_true, if_false]
        rfl

/-- The conversion of two texts in a row.  The second begins with the quote that
the first leaves open, and after as many placeholders as the first has. -/
theorem convertFrom_append (quote : Option Char) (index : Nat) (a b : List Char) :
    convertFrom some id false placeholder quote index (a ++ b) = do
      let first ← convertFrom some id false placeholder quote index a
      let second ←
        convertFrom some id false placeholder (openQuote quote a) (index + marks quote a) b
      return first ++ second := by
  induction a generalizing quote index with
  | nil =>
    simp only [convertFrom, List.nil_append, openQuote_nil, marks_nil, Nat.add_zero, bind,
      Except.bind]
    cases convertFrom some id false placeholder quote index b <;> rfl
  | cons c a ih =>
    rw [List.cons_append, convertFrom_cons, convertFrom_cons, marks_cons, openQuote_cons]
    by_cases hc : quote = none ∧ c = '?'
    · obtain ⟨rfl, rfl⟩ := hc
      have hstep : quoteAfter none '?' = none := rfl
      rw [if_pos ⟨rfl, rfl⟩, if_pos ⟨rfl, rfl⟩, if_pos ⟨rfl, rfl⟩, ih, hstep, ← Nat.add_assoc]
      simp only [bind_assoc, pure_bind, List.append_assoc]
    · rw [if_neg hc, if_neg hc, if_neg hc, ih, Nat.zero_add]
      simp only [bind_assoc, pure_bind, List.cons_append]

/-- A text without placeholders passes through the conversion as it is. -/
theorem convertFrom_unmarked (quote : Option Char) (index : Nat) (cs : List Char)
    (h : marks quote cs = 0) :
    convertFrom some id false placeholder quote index cs = .ok cs := by
  induction cs generalizing quote with
  | nil => rfl
  | cons c cs ih =>
    rw [marks_cons] at h
    have hc : ¬(quote = none ∧ c = '?') := by
      intro hc
      rw [if_pos hc] at h
      omega
    rw [if_neg hc, Nat.zero_add] at h
    rw [convertFrom_cons, if_neg hc, ih _ h]
    rfl

/-- A sealed text in front of a statement passes through the conversion as it
is, and the rest is converted as if it stood alone. -/
theorem convertFrom_sealed {a : List Char} (ha : Sealed a) (index : Nat) (b : List Char) :
    convertFrom some id false placeholder none index (a ++ b) =
      (convertFrom some id false placeholder none index b).map (a ++ ·) := by
  rw [convertFrom_append, convertFrom_unmarked none index a ha.marks_eq, ha.closed, ha.marks_eq,
    Nat.add_zero]
  cases convertFrom some id false placeholder none index b <;> rfl

end Conversion

end FluentSql
