import FluentSql.Compile.Conjunction
import FluentSql.Proofs.Reading

/-!
# Filling placeholders

What the placeholders of a statement stand for shows when they are filled:
every question mark outside quotes is replaced by a text for its value.  A
statement fits its values if filling it gives the statement that has the
values written in place.  This module says how filled texts are put together.

There are four groups.

* `fill` replaces the placeholders of a text, from left to right.
  `fill_append` splits it at any place.
* `Literals` are the texts that are put in the place of values.  They are
  solid: not empty, and without blanks at the ends.
* `Fills lit t vs u`: the text `t` leaves no quote open, has one placeholder
  for each of the values `vs`, and becomes `u` when they are filled.
* What the compilers do to texts keeps this: `Fills.append`, `fills_joinWith`,
  `Fills.trim`, `fills_spaced` and `Fills.dropConjunction`.
-/

namespace FluentSql

open Text

/-! ## Replacing placeholders -/

/-- Replaces the placeholders of a text by other texts, from left to right. -/
def fill (quote : Option Char) (texts : List (List Char)) : List Char → List Char
  | [] => []
  | c :: rest =>
    if quote = none ∧ c = '?' then
      texts.headD ['?'] ++ fill (quoteAfter quote c) texts.tail rest
    else c :: fill (quoteAfter quote c) texts rest

@[simp] theorem fill_nil (quote : Option Char) (texts : List (List Char)) :
    fill quote texts [] = [] := rfl

theorem fill_cons (quote : Option Char) (texts : List (List Char)) (c : Char) (cs : List Char) :
    fill quote texts (c :: cs) =
      if quote = none ∧ c = '?' then
        texts.headD ['?'] ++ fill (quoteAfter quote c) texts.tail cs
      else c :: fill (quoteAfter quote c) texts cs := rfl

/-- A text in two parts: the second part begins with the quote that the first
leaves open, and with the texts that the first leaves over. -/
theorem fill_append (quote : Option Char) (texts : List (List Char)) (a b : List Char) :
    fill quote texts (a ++ b) =
      fill quote texts a ++ fill (openQuote quote a) (texts.drop (marks quote a)) b := by
  induction a generalizing quote texts with
  | nil => rfl
  | cons c a ih =>
    rw [List.cons_append, fill_cons, fill_cons, marks_cons, openQuote_cons]
    by_cases hc : quote = none ∧ c = '?'
    · rw [if_pos hc, if_pos hc, if_pos hc, ih, List.append_assoc, List.drop_tail, Nat.add_comm]
    · rw [if_neg hc, if_neg hc, if_neg hc, ih, Nat.zero_add, List.cons_append]

/-- A text without placeholders stays as it is. -/
theorem fill_unmarked {quote : Option Char} {cs : List Char} (h : marks quote cs = 0)
    (texts : List (List Char)) : fill quote texts cs = cs := by
  induction cs generalizing quote with
  | nil => rfl
  | cons c cs ih =>
    rw [marks_cons] at h
    have hc : ¬(quote = none ∧ c = '?') := by
      intro hc
      rw [if_pos hc] at h
      omega
    rw [if_neg hc, Nat.zero_add] at h
    rw [fill_cons, if_neg hc, ih h]

/-- Texts beyond the placeholders are not used. -/
theorem fill_append_texts {quote : Option Char} {texts : List (List Char)} {cs : List Char}
    (h : marks quote cs ≤ texts.length) (more : List (List Char)) :
    fill quote (texts ++ more) cs = fill quote texts cs := by
  induction cs generalizing quote texts with
  | nil => rfl
  | cons c cs ih =>
    rw [marks_cons] at h
    rw [fill_cons, fill_cons]
    by_cases hc : quote = none ∧ c = '?'
    · rw [if_pos hc] at h
      rw [if_pos hc, if_pos hc]
      cases texts with
      | nil =>
        rw [List.length_nil] at h
        omega
      | cons text texts =>
        rw [List.length_cons] at h
        rw [List.cons_append, List.tail_cons, List.tail_cons, ih (by omega)]
        rfl
    · rw [if_neg hc, Nat.zero_add] at h
      rw [if_neg hc, if_neg hc, ih h]

/-! ## The texts for values -/

/-- A text that is not empty and has no blanks at its ends. -/
structure Solid (cs : List Char) : Prop where
  /-- It begins with a character that is no blank. -/
  first : ∃ c rest, cs = c :: rest ∧ isBlank c = false
  /-- It ends with a character that is no blank. -/
  last : ∃ rest c, cs = rest ++ [c] ∧ isBlank c = false

/-- A text for every value. -/
structure Literals where
  /-- The text for a value. -/
  text : Value → String
  /-- The texts are not empty and have no blanks at their ends. -/
  solid : ∀ v, Solid (text v).toList

instance : Inhabited Literals where
  default :=
    { text := fun _ => "?"
      solid := fun _ => ⟨⟨'?', [], rfl, by decide⟩, ⟨[], '?', rfl, by decide⟩⟩ }

/-- The texts for some values. -/
def Literals.texts (lit : Literals) (values : List Value) : List (List Char) :=
  values.map fun v => (lit.text v).toList

theorem Literals.texts_append (lit : Literals) (vs ws : List Value) :
    lit.texts (vs ++ ws) = lit.texts vs ++ lit.texts ws :=
  List.map_append

theorem Literals.solid_of_mem {lit : Literals} {vs : List Value} {cs : List Char}
    (h : cs ∈ lit.texts vs) : Solid cs := by
  obtain ⟨v, _, rfl⟩ := List.mem_map.1 h
  exact lit.solid v

/-! ## Texts that fit their values -/

/-- A text with a placeholder for each of some values, and what it becomes when
the values are written in place. -/
structure Fills (lit : Literals) (t : String) (vs : List Value) (u : String) : Prop where
  /-- The text leaves no quote open and has as many placeholders as there are values. -/
  reads : Reads t.toList vs.length
  /-- The filled text. -/
  filled : fill none (lit.texts vs) t.toList = u.toList

variable {lit : Literals}

theorem Literals.length_texts (vs : List Value) : (lit.texts vs).length = vs.length :=
  List.length_map _

/-- A text without placeholders stands for no values. -/
theorem fills_sealed {t : String} (h : Sealed t.toList) : Fills lit t [] t :=
  ⟨h, fill_unmarked h.marks_eq []⟩

theorem Fills.append {a b c d : String} {vs ws : List Value} (ha : Fills lit a vs c)
    (hb : Fills lit b ws d) : Fills lit (a ++ b) (vs ++ ws) (c ++ d) := by
  refine ⟨?_, ?_⟩
  · rw [String.toList_append, List.length_append]
    exact ha.reads.append hb.reads
  · rw [String.toList_append, String.toList_append, fill_append, ha.reads.closed,
      ha.reads.marks_eq, lit.texts_append, fill_append_texts, ha.filled, ← hb.filled]
    · rw [List.drop_left' (Literals.length_texts vs)]
    · exact Nat.le_of_eq (by rw [ha.reads.marks_eq, Literals.length_texts])

/-- A sealed text after a text. -/
theorem Fills.append_sealed {a b c : String} {vs : List Value} (ha : Fills lit a vs c)
    (hb : Sealed b.toList) : Fills lit (a ++ b) vs (c ++ b) := by
  have h := ha.append (fills_sealed hb)
  rwa [List.append_nil] at h

/-- A sealed text before a text. -/
theorem Fills.sealed_append {a b d : String} {vs : List Value} (ha : Sealed a.toList)
    (hb : Fills lit b vs d) : Fills lit (a ++ b) vs (a ++ d) :=
  (fills_sealed ha).append hb

/-- Filling makes no text empty, and none that is not. -/
theorem Fills.isEmpty_eq {t u : String} {vs : List Value} (h : Fills lit t vs u) :
    t.isEmpty = u.isEmpty := by
  have hfill : ∀ texts : List (List Char), (∀ cs ∈ texts, Solid cs) →
      (fill none texts t.toList = [] ↔ t.toList = []) := by
    intro texts htexts
    cases t.toList with
    | nil => exact Iff.rfl
    | cons c rest =>
      refine ⟨fun h => ?_, fun h => nomatch h⟩
      rw [fill_cons] at h
      split at h
      · cases texts with
        | nil => exact nomatch h
        | cons text texts =>
          obtain ⟨d, tail, hd, _⟩ := (htexts text List.mem_cons_self).first
          rw [List.headD_cons, hd] at h
          exact nomatch h
      · exact nomatch h
  have hiff := hfill (lit.texts vs) fun cs hcs => Literals.solid_of_mem hcs
  rw [h.filled, String.toList_eq_nil_iff, String.toList_eq_nil_iff] at hiff
  rw [Bool.eq_iff_iff, String.isEmpty_iff, String.isEmpty_iff]
  exact hiff.symm

/-! ## Blanks -/

/-- Blanks are neither quotes nor placeholders. -/
theorem blank_plain {c : Char} (h : isBlank c = true) : isQuote c = false ∧ c ≠ '?' := by
  refine ⟨?_, ?_⟩
  · rw [Bool.eq_false_iff]
    intro hq
    simp only [isQuote, Bool.or_eq_true, beq_iff_eq] at hq
    rcases hq with (rfl | rfl) | rfl <;> exact absurd h (by decide)
  · rintro rfl
    exact absurd h (by decide)

theorem sealed_of_blanks {cs : List Char} (h : ∀ c ∈ cs, isBlank c = true) : Sealed cs :=
  sealed_of_plain fun c hc => blank_plain (h c hc)

/-- A text whose first character is no blank is filled into one of that kind. -/
private theorem dropBlanks_fill {texts : List (List Char)} (htexts : ∀ cs ∈ texts, Solid cs)
    {cs : List Char} (hcs : ∀ c rest, cs = c :: rest → isBlank c = false) :
    dropBlanks (fill none texts cs) = fill none texts cs := by
  cases cs with
  | nil => rfl
  | cons c rest =>
    have hc := hcs c rest rfl
    have hmark : isBlank '?' = false := by decide
    rw [fill_cons, dropBlanks]
    split
    · cases texts with
      | nil => rw [List.headD_nil, List.cons_append, List.dropWhile_cons, hmark]; rfl
      | cons text texts =>
        obtain ⟨d, tail, hd, hblank⟩ := (htexts text List.mem_cons_self).first
        rw [List.headD_cons, hd, List.cons_append, List.dropWhile_cons, hblank]
        rfl
    · rw [List.dropWhile_cons, hc]
      rfl

/-- The last character of a filled text is no blank if that of the text is none. -/
private theorem fill_last {texts : List (List Char)} (htexts : ∀ cs ∈ texts, Solid cs)
    (cs : List Char) {c : Char} (hc : isBlank c = false) :
    ∃ rest d, fill none texts (cs ++ [c]) = rest ++ [d] ∧ isBlank d = false := by
  rw [fill_append, fill_cons, fill_nil]
  split
  · cases htail : texts.drop (marks none cs) with
    | nil => exact ⟨fill none texts cs, '?', rfl, by decide⟩
    | cons text others =>
      have hmem : text ∈ texts := List.mem_of_mem_drop (htail ▸ List.mem_cons_self)
      obtain ⟨rest, d, hd, hblank⟩ := (htexts text hmem).last
      refine ⟨fill none texts cs ++ rest, d, ?_, hblank⟩
      rw [List.headD_cons, List.append_nil, hd, List.append_assoc]
  · exact ⟨fill none texts cs, c, rfl, hc⟩

/-- A list of characters is blanks and then what is left without them. -/
theorem dropBlanks_spec (cs : List Char) :
    (∃ blanks, (∀ c ∈ blanks, isBlank c = true) ∧ cs = blanks ++ dropBlanks cs) ∧
      ∀ c rest, dropBlanks cs = c :: rest → isBlank c = false := by
  have hall := List.all_eq_true.1 (List.all_takeWhile (p := isBlank) (l := cs))
  refine ⟨⟨cs.takeWhile isBlank, hall, ?_⟩, ?_⟩
  · exact List.takeWhile_append_dropWhile.symm
  · intro c rest h
    have hdrop : cs.dropWhile isBlank = c :: rest := h
    have hne : cs.dropWhile isBlank ≠ [] := hdrop ▸ List.cons_ne_nil c rest
    have hhead := List.head_dropWhile_not isBlank hne
    simp only [hdrop, List.head_cons] at hhead
    exact hhead

/-- Trimming at the front keeps the placeholders, and it trims the filled text. -/
private theorem reads_dropBlanks {cs : List Char} {n : Nat} (h : Reads cs n)
    {texts : List (List Char)} (htexts : ∀ cs ∈ texts, Solid cs) :
    Reads (dropBlanks cs) n ∧
      fill none texts (dropBlanks cs) = dropBlanks (fill none texts cs) := by
  obtain ⟨⟨blanks, hblanks, hcs⟩, hfirst⟩ := dropBlanks_spec cs
  have hsealed := sealed_of_blanks hblanks
  refine ⟨?_, ?_⟩
  · rw [hcs] at h
    exact (hsealed.append_reads_iff _ n).1 h
  · have hfill : fill none texts cs = blanks ++ fill none texts (dropBlanks cs) :=
      calc fill none texts cs
          = fill none texts (blanks ++ dropBlanks cs) := congrArg _ hcs
        _ = blanks ++ fill none texts (dropBlanks cs) := by
            rw [fill_append, fill_unmarked hsealed.marks_eq, hsealed.closed, hsealed.marks_eq,
              List.drop_zero]
    have hdrop : dropBlanks (blanks ++ fill none texts (dropBlanks cs)) =
        dropBlanks (fill none texts (dropBlanks cs)) :=
      List.dropWhile_append_of_pos hblanks
    rw [hfill, hdrop, dropBlanks_fill htexts hfirst]

/-- Trimming at the end keeps the placeholders, and it trims the filled text. -/
private theorem reads_dropBlanks_reverse {cs : List Char} {n : Nat} (h : Reads cs n)
    {texts : List (List Char)} (htexts : ∀ cs ∈ texts, Solid cs) :
    Reads (dropBlanks cs.reverse).reverse n ∧
      fill none texts (dropBlanks cs.reverse).reverse =
        (dropBlanks (fill none texts cs).reverse).reverse := by
  obtain ⟨⟨blanks, hblanks, hrev⟩, hfirst⟩ := dropBlanks_spec cs.reverse
  generalize hkept : (dropBlanks cs.reverse).reverse = kept
  have hcs : cs = kept ++ blanks.reverse := by
    rw [← hkept, ← List.reverse_append, ← hrev, List.reverse_reverse]
  have hplain : ∀ c ∈ blanks.reverse, isBlank c = true := fun c hc =>
    hblanks c (List.mem_reverse.1 hc)
  have hclosed : openQuote none kept = none := by
    cases hopen : openQuote none kept with
    | none => rfl
    | some q =>
      have hq := isQuote_of_openQuote hopen
      have hafter := openQuote_plain (fun c hc => (blank_plain (hplain c hc)).1) (some q)
        fun d hd => Option.some.inj hd ▸ hq
      have hall := h.closed
      rw [hcs, openQuote_append, hopen, hafter] at hall
      exact nomatch hall
  have hsealed := sealed_of_blanks hplain
  have hmarks := h.marks_eq
  rw [hcs, marks_append, hclosed, hsealed.marks_eq, Nat.add_zero] at hmarks
  refine ⟨⟨hclosed, hmarks⟩, ?_⟩
  have hfill : fill none texts cs = fill none texts kept ++ blanks.reverse := by
    rw [hcs, fill_append, hclosed, fill_unmarked hsealed.marks_eq]
  have hdrop : dropBlanks (fill none texts cs).reverse =
      dropBlanks (fill none texts kept).reverse := by
    rw [hfill, List.reverse_append, List.reverse_reverse]
    exact List.dropWhile_append_of_pos hblanks
  rw [hdrop]
  -- What is kept is empty or ends with a character that is no blank.
  cases hend : dropBlanks cs.reverse with
  | nil =>
    rw [hend] at hkept
    rw [← hkept]
    rfl
  | cons c rest =>
    rw [hend, List.reverse_cons] at hkept
    obtain ⟨front, d, hd, hblank⟩ := fill_last htexts rest.reverse (hfirst c rest hend)
    rw [← hkept, hd, List.reverse_append, List.reverse_singleton, List.singleton_append, dropBlanks,
      List.dropWhile_cons, hblank]
    simp

theorem Fills.trimLeft {t u : String} {vs : List Value} (h : Fills lit t vs u) :
    Fills lit (Text.trimLeft t) vs (Text.trimLeft u) := by
  obtain ⟨hreads, hfill⟩ := reads_dropBlanks h.reads fun cs hcs => Literals.solid_of_mem hcs
  refine ⟨?_, ?_⟩
  · rw [Text.trimLeft, String.toList_ofList]
    exact hreads
  · rw [Text.trimLeft, Text.trimLeft, String.toList_ofList, String.toList_ofList, hfill, h.filled]

theorem Fills.trimRight {t u : String} {vs : List Value} (h : Fills lit t vs u) :
    Fills lit (Text.trimRight t) vs (Text.trimRight u) := by
  obtain ⟨hreads, hfill⟩ :=
    reads_dropBlanks_reverse h.reads fun cs hcs => Literals.solid_of_mem hcs
  refine ⟨?_, ?_⟩
  · rw [Text.trimRight, String.toList_ofList]
    exact hreads
  · rw [Text.trimRight, Text.trimRight, String.toList_ofList, String.toList_ofList, hfill, h.filled]

theorem trim_eq (t : String) : Text.trim t = Text.trimRight (Text.trimLeft t) := by
  rw [Text.trim, Text.trimRight, Text.trimLeft, String.toList_ofList]

theorem Fills.trim {t u : String} {vs : List Value} (h : Fills lit t vs u) :
    Fills lit (Text.trim t) vs (Text.trim u) := by
  rw [trim_eq, trim_eq]
  exact h.trimLeft.trimRight

/-! ## Lists of fragments -/

/-- Three lists of one length, related place by place. -/
inductive Each {α β γ : Type} (R : α → β → γ → Prop) : List α → List β → List γ → Prop where
  /-- Empty lists. -/
  | nil : Each R [] [] []
  /-- One more place. -/
  | cons {a : α} {b : β} {c : γ} {as : List α} {bs : List β} {cs : List γ} (first : R a b c)
      (rest : Each R as bs cs) : Each R (a :: as) (b :: bs) (c :: cs)

/-- Fragments that fit their values, one by one. -/
abbrev FillsAll (lit : Literals) : List String → List (List Value) → List String → Prop :=
  Each (Fills lit)

/-- Fragments with a sealed separator between them. -/
theorem fills_joinWith {separator : String} (hsep : Sealed separator.toList) {ts us : List String}
    {vss : List (List Value)} (h : FillsAll lit ts vss us) :
    Fills lit (joinWith separator ts) vss.flatten (joinWith separator us) := by
  induction h with
  | nil => exact fills_sealed reads_nil
  | @cons t vs u ts vss us first rest ih =>
    cases rest with
    | nil =>
      rw [List.flatten_cons, List.flatten_nil, List.append_nil]
      exact first
    | cons second rest => exact (first.append_sealed hsep).append ih

/-- Fragments one after another. -/
theorem fills_join {ts us : List String} {vss : List (List Value)} (h : FillsAll lit ts vss us) :
    Fills lit (String.join ts) vss.flatten (String.join us) := by
  induction h with
  | nil => exact fills_sealed reads_nil
  | cons first rest ih =>
    rw [String.join_cons, String.join_cons, List.flatten_cons]
    exact first.append ih

/-- Leaving out the empty fragments leaves out no values. -/
private theorem fillsAll_filter {ts us : List String} {vss : List (List Value)}
    (h : FillsAll lit ts vss us) :
    ∃ wss, wss.flatten = vss.flatten ∧
      FillsAll lit (ts.filter fun t => !t.isEmpty) wss (us.filter fun u => !u.isEmpty) := by
  induction h with
  | nil => exact ⟨[], rfl, .nil⟩
  | @cons t vs u ts vss us first rest ih =>
    obtain ⟨wss, hflat, hfills⟩ := ih
    have hempty := first.isEmpty_eq
    cases ht : t.isEmpty with
    | true =>
      have hnil : t.toList = [] := String.toList_eq_nil_iff.2 (String.isEmpty_iff.1 ht)
      have hvs : vs = [] := by
        have hmarks := first.reads.marks_eq
        rw [hnil, marks_nil] at hmarks
        exact List.length_eq_zero_iff.1 hmarks.symm
      refine ⟨wss, ?_, ?_⟩
      · rw [hflat, hvs, List.flatten_cons, List.nil_append]
      · rw [List.filter_cons, List.filter_cons, ← hempty, ht]
        exact hfills
    | false =>
      refine ⟨vs :: wss, ?_, ?_⟩
      · rw [List.flatten_cons, List.flatten_cons, hflat]
      · rw [List.filter_cons, List.filter_cons, ← hempty, ht]
        exact .cons first hfills

/-- Fragments with spaces between those that are not empty. -/
theorem fills_spaced {ts us : List String} {vss : List (List Value)} (h : FillsAll lit ts vss us) :
    Fills lit (spaced ts) vss.flatten (spaced us) := by
  obtain ⟨wss, hflat, hfills⟩ := fillsAll_filter h
  have hspace : Sealed " ".toList := by decide
  rw [← hflat]
  exact fills_joinWith hspace hfills

/-! ## The first joining word -/

theorem dropConjunctionChars_and {a n d : Char} (rest : List Char) (hd : d ≠ ' ') :
    dropConjunctionChars (a :: n :: d :: ' ' :: rest) =
      if a.toLower = 'a' ∧ n.toLower = 'n' ∧ d.toLower = 'd' then rest
      else a :: n :: d :: ' ' :: rest := by
  rw [dropConjunctionChars]
  exact hd

private theorem dropConjunctionChars_other {a b c d : Char} (rest : List Char) (hc : c ≠ ' ')
    (hd : d ≠ ' ') :
    dropConjunctionChars (a :: b :: c :: d :: rest) = a :: b :: c :: d :: rest := by
  rw [dropConjunctionChars]
  · exact fun _ _ _ h => hc (List.cons.inj (List.cons.inj (List.cons.inj h).2).2).1
  · exact fun _ _ _ _ h =>
      hd (List.cons.inj (List.cons.inj (List.cons.inj (List.cons.inj h).2).2).2).1

/-- A word of less than two letters is not dropped. -/
private theorem dropConjunctionChars_short {cs : List Char}
    (h : cs.head? = some ' ' ∨ cs.tail.head? = some ' ') : dropConjunctionChars cs = cs := by
  have hspace : ' '.toLower ≠ 'r' ∧ ' '.toLower ≠ 'n' ∧ ' '.toLower ≠ 'o' ∧ ' '.toLower ≠ 'a' := by
    decide
  unfold dropConjunctionChars
  split
  · rename_i o r rest
    have hne : ¬(o.toLower = 'o' ∧ r.toLower = 'r') := by
      rintro ⟨ho, hr⟩
      rcases h with h | h
      · cases h
        exact hspace.2.2.1 ho
      · cases h
        exact hspace.1 hr
    rw [if_neg hne]
  · rename_i a n d rest _
    have hne : ¬(a.toLower = 'a' ∧ n.toLower = 'n' ∧ d.toLower = 'd') := by
      rintro ⟨ha, hn, _⟩
      rcases h with h | h
      · cases h
        exact hspace.2.2.2 ha
      · cases h
        exact hspace.2.1 hn
    rw [if_neg hne]
  · rfl

/-- Whether a joining word is dropped depends on the word up to its first space. -/
theorem dropConjunctionChars_word (word rest : List Char) :
    dropConjunctionChars (word ++ ' ' :: rest) = dropConjunctionChars (word ++ [' ']) ++ rest := by
  rcases word with _ | ⟨a, _ | ⟨b, _ | ⟨c, _ | ⟨d, word⟩⟩⟩⟩
  · rw [dropConjunctionChars_short (Or.inl rfl), dropConjunctionChars_short (Or.inl rfl)]
    rfl
  · rw [dropConjunctionChars_short (Or.inr rfl), dropConjunctionChars_short (Or.inr rfl)]
    rfl
  · show dropConjunctionChars (a :: b :: ' ' :: rest) = dropConjunctionChars [a, b, ' '] ++ rest
    simp only [dropConjunctionChars]
    split <;> rfl
  · show dropConjunctionChars (a :: b :: c :: ' ' :: rest) =
      dropConjunctionChars [a, b, c, ' '] ++ rest
    by_cases hc : c = ' '
    · subst hc
      simp only [dropConjunctionChars]
      split <;> rfl
    · rw [dropConjunctionChars_and rest hc, dropConjunctionChars_and [] hc]
      split <;> rfl
  · show dropConjunctionChars (a :: b :: c :: d :: (word ++ ' ' :: rest)) =
      dropConjunctionChars (a :: b :: c :: d :: (word ++ [' '])) ++ rest
    have hrest : word ++ ' ' :: rest = word ++ [' '] ++ rest := by
      rw [List.append_assoc, List.singleton_append]
    by_cases hc : c = ' '
    · subst hc
      simp only [dropConjunctionChars, hrest]
      split <;> rfl
    · by_cases hd : d = ' '
      · subst hd
        rw [dropConjunctionChars_and _ hc, dropConjunctionChars_and _ hc, hrest]
        split <;> rfl
      · rw [dropConjunctionChars_other _ hc hd, dropConjunctionChars_other _ hc hd, hrest]
        rfl

/-- What is dropped is a letter in either case or a space, and so none of these. -/
private theorem dropped_ne {c mark : Char} (hmark : mark ∈ ['\'', '"', '\x60', '?', '(', ')'])
    (h : c.toLower ∈ ['o', 'r', 'a', 'n', 'd', ' ']) : c ≠ mark := by
  rintro rfl
  have hmarks : ∀ d ∈ ['\'', '"', '\x60', '?', '(', ')'],
      d.toLower ∉ ['o', 'r', 'a', 'n', 'd', ' '] := by
    simp only [List.forall_mem_cons, List.not_mem_nil, false_implies, implies_true]
    decide
  exact hmarks c hmark h

/-- Only the letters of a joining word and a space are dropped: no quotes, no placeholders and no
parentheses. -/
theorem dropConjunctionChars_spec (cs : List Char) :
    ∃ front, cs = front ++ dropConjunctionChars cs ∧
      ∀ c ∈ front, (isQuote c = false ∧ c ≠ '?') ∧ c ≠ '(' ∧ c ≠ ')' := by
  have hletters : ∃ front, cs = front ++ dropConjunctionChars cs ∧
      ∀ c ∈ front, c.toLower ∈ ['o', 'r', 'a', 'n', 'd', ' '] := by
    unfold dropConjunctionChars
    split
    · rename_i o r rest
      split
      · rename_i hword
        exact ⟨[o, r, ' '], rfl, by simp [hword]⟩
      · exact ⟨[], rfl, nofun⟩
    · rename_i a n d rest _
      split
      · rename_i hword
        exact ⟨[a, n, d, ' '], rfl, by simp [hword]⟩
      · exact ⟨[], rfl, nofun⟩
    · exact ⟨[], rfl, nofun⟩
  obtain ⟨front, hcs, hfront⟩ := hletters
  refine ⟨front, hcs, fun c hc => ?_⟩
  have hne : ∀ mark ∈ ['\'', '"', '\x60', '?', '(', ')'], c ≠ mark := fun mark hmark =>
    dropped_ne hmark (hfront c hc)
  refine ⟨⟨?_, hne '?' (by simp)⟩, hne '(' (by simp), hne ')' (by simp)⟩
  rw [Bool.eq_false_iff]
  intro hq
  simp only [isQuote, Bool.or_eq_true, beq_iff_eq] at hq
  rcases hq with (rfl | rfl) | rfl
  · exact hne '\'' (by simp) rfl
  · exact hne '"' (by simp) rfl
  · exact hne '\x60' (by simp) rfl

/-- Dropping the joining word keeps a sealed word sealed. -/
theorem dropConjunctionChars_sealed {word : List Char} (h : Sealed word) :
    Sealed (dropConjunctionChars (word ++ [' '])) := by
  obtain ⟨front, hword, hfront⟩ := dropConjunctionChars_spec (word ++ [' '])
  have hall : Sealed (word ++ [' ']) := h.append (by decide)
  rw [hword] at hall
  exact ((sealed_of_plain fun c hc => (hfront c hc).1).append_reads_iff _ 0).1 hall

/-- A joining word before a text is dropped, if it is, from the word alone. -/
theorem dropConjunction_append (word t : String) : dropConjunction (word ++ " " ++ t) =
    String.ofList (dropConjunctionChars (word.toList ++ [' '])) ++ t := by
  have hchars : (word ++ " " ++ t).toList = word.toList ++ ' ' :: t.toList := by
    rw [String.toList_append, String.toList_append, List.append_assoc]
    rfl
  rw [dropConjunction, hchars, dropConjunctionChars_word]
  apply String.toList_injective
  rw [String.toList_append, String.toList_ofList, String.toList_ofList]

/-- A joining word before a text, and then dropped if it is one of the two that are. -/
theorem Fills.dropConjunction {word t u : String} {vs : List Value} (hword : Sealed word.toList)
    (h : Fills lit t vs u) :
    Fills lit (dropConjunction (word ++ " " ++ t)) vs (FluentSql.dropConjunction (word ++ " " ++ u)) := by
  rw [dropConjunction_append, dropConjunction_append]
  refine h.sealed_append ?_
  rw [String.toList_ofList]
  exact dropConjunctionChars_sealed hword

end FluentSql
