import FluentSql.Name.Wrapping
import FluentSql.Proofs.Reading

/-!
# Quoted names and paths

What a grammar puts between quotes, a reader takes back out: a name in double
quotes or backticks, a path literal in single quotes, and the keys of a path
in single quotes.  The first two double the quotes inside them.  The last does
not, so its keys must be free of single quotes.

There are four groups.

* Text with doubled quotes.  Inside a quote such a text leaves the quote open
  and has no placeholder (`Doubled.openQuote_self`, `Doubled.marks_self`).
* Names.  `quoteName_sealed` says that a quoted name can be put anywhere.
  `quoteName_keeps_open` says that it never closes a quote that was open
  before it, whatever it holds.
* Path literals.  `pathLiteral_sealed` is the same for a path.
* Keys after arrows.  `arrowKeys_sealed` needs keys without single quotes.
-/

namespace FluentSql

open Name

/-! ## Text with doubled quotes -/

/-- A text in which a quote only stands next to another of its kind. -/
inductive Doubled (quote : Char) : List Char → Prop where
  /-- The empty text. -/
  | nil : Doubled quote []
  /-- A character that is not the quote. -/
  | other {c : Char} {cs : List Char} (hc : c ≠ quote) (h : Doubled quote cs) :
      Doubled quote (c :: cs)
  /-- A doubled quote. -/
  | pair {cs : List Char} (h : Doubled quote cs) : Doubled quote (quote :: quote :: cs)

namespace Doubled

variable {quote : Char}

theorem append {a b : List Char} (ha : Doubled quote a) (hb : Doubled quote b) :
    Doubled quote (a ++ b) := by
  induction ha with
  | nil => exact hb
  | other hc _ ih => exact .other hc ih
  | pair _ ih => exact .pair ih

/-- A text without the quote. -/
theorem of_not_mem {cs : List Char} (h : quote ∉ cs) : Doubled quote cs := by
  induction cs with
  | nil => exact .nil
  | cons c cs ih =>
    have hne : c ≠ quote := fun heq => h (heq ▸ List.mem_cons_self)
    exact .other hne (ih fun hmem => h (List.mem_cons_of_mem c hmem))

private theorem quoteAfter_twice (hq : isQuote quote = true) :
    quoteAfter (quoteAfter (some quote) quote) quote = some quote := by
  rw [quoteAfter, if_pos rfl, quoteAfter, if_pos hq]

private theorem quoteAfter_other {c : Char} (hc : c ≠ quote) :
    quoteAfter (some quote) c = some quote := by
  rw [quoteAfter, if_neg hc]

/-- Inside its quote the text leaves the quote open. -/
theorem openQuote_self (hq : isQuote quote = true) {cs : List Char} (h : Doubled quote cs) :
    openQuote (some quote) cs = some quote := by
  induction h with
  | nil => rfl
  | other hc _ ih => rw [openQuote_cons, quoteAfter_other hc, ih]
  | pair _ ih => rw [openQuote_cons, openQuote_cons, quoteAfter_twice hq, ih]

/-- Inside its quote the text has no placeholder.  Between the two quotes of a
pair no quote is open, but no question mark stands there either. -/
theorem marks_self (hq : isQuote quote = true) {cs : List Char} (h : Doubled quote cs) :
    marks (some quote) cs = 0 := by
  have hmark : quote ≠ '?' := by
    rintro rfl
    exact absurd hq (by decide)
  induction h with
  | nil => rfl
  | other hc _ ih => rw [marks_cons, quoteAfter_other hc, ih, if_neg (by simp)]
  | pair _ ih =>
    rw [marks_cons, marks_cons, quoteAfter_twice hq, ih, if_neg (by simp),
      if_neg fun hand => hmark hand.2]

/-- Where the quote is not open, it is not open after the text either. -/
theorem openQuote_ne {cs : List Char} (h : Doubled quote cs) {before : Option Char}
    (hbefore : before ≠ some quote) : openQuote before cs ≠ some quote := by
  induction h generalizing before with
  | nil => exact hbefore
  | @other c cs hc _ ih =>
    rw [openQuote_cons]
    refine ih ?_
    cases before with
    | none =>
      rw [quoteAfter]
      split
      · exact fun heq => hc (Option.some.inj heq)
      · rintro ⟨⟩
    | some q =>
      rw [quoteAfter]
      split
      · rintro ⟨⟩
      · exact hbefore
  | @pair cs _ ih =>
    rw [openQuote_cons, openQuote_cons]
    refine ih ?_
    cases before with
    | none =>
      rw [quoteAfter]
      split
      · rw [quoteAfter, if_pos rfl]
        rintro ⟨⟩
      · rename_i hq
        rw [quoteAfter, if_neg hq]
        rintro ⟨⟩
    | some q =>
      have hne : quote ≠ q := fun heq => hbefore (congrArg some heq.symm)
      rw [quoteAfter, if_neg hne, quoteAfter, if_neg hne]
      exact hbefore

/-- The text between two of its quotes can be put anywhere. -/
theorem sealed_between (hq : isQuote quote = true) {cs : List Char} (h : Doubled quote cs) :
    Sealed (quote :: cs ++ [quote]) := by
  have hmark : quote ≠ '?' := by
    rintro rfl
    exact absurd hq (by decide)
  have hfirst : quoteAfter none quote = some quote := by rw [quoteAfter, if_pos hq]
  have hlast : quoteAfter (some quote) quote = none := by rw [quoteAfter, if_pos rfl]
  refine ⟨?_, ?_⟩
  · rw [List.cons_append, openQuote_cons, hfirst, openQuote_append, h.openQuote_self hq,
      openQuote_cons, hlast, openQuote_nil]
  · rw [List.cons_append, marks_cons, hfirst, marks_append, h.marks_self hq,
      h.openQuote_self hq, marks_cons, hlast, marks_nil, if_neg fun hand => hmark hand.2,
      if_neg (by simp)]

end Doubled

/-! ## Names -/

theorem isQuote_quote (dialect : Dialect) : isQuote dialect.quote = true := by
  cases dialect <;> rfl

theorem doubled_doubleChar (quote : Char) (cs : List Char) :
    Doubled quote (doubleChar quote cs) := by
  induction cs with
  | nil => exact .nil
  | cons c cs ih =>
    rw [doubleChar, List.flatMap_cons, ← doubleChar]
    by_cases hc : c = quote
    · rw [if_pos hc, hc]
      exact .pair ih
    · rw [if_neg hc]
      exact .other hc ih

/-- A quoted name can be put anywhere. -/
theorem quoteName_sealed (dialect : Dialect) (cs : List Char) :
    Sealed (quoteName dialect cs) := by
  unfold quoteName
  split
  · rename_i hstar
    rw [hstar]
    decide
  · exact (doubled_doubleChar dialect.quote cs).sealed_between (isQuote_quote dialect)

/-- A quote closes no quote of another kind. -/
theorem quoteAfter_quote_ne_none {quote : Char} (hq : isQuote quote = true) {before : Option Char}
    (hbefore : before ≠ some quote) : quoteAfter before quote ≠ none := by
  cases before with
  | none =>
    rw [quoteAfter, if_pos hq]
    rintro ⟨⟩
  | some q =>
    rw [quoteAfter, if_neg fun heq => hbefore (congrArg some heq.symm)]
    rintro ⟨⟩

/-- A quoted name closes no quote that was open before it: it may close one in
its middle, but then its last quote opens another. -/
theorem quoteName_keeps_open (dialect : Dialect) (cs : List Char) {q : Char}
    (hq : isQuote q = true) : openQuote (some q) (quoteName dialect cs) ≠ none := by
  unfold quoteName
  have hquote := isQuote_quote dialect
  generalize dialect.quote = quote at hquote ⊢
  split
  · rename_i hstar
    have hne : '*' ≠ q := by
      rintro rfl
      exact absurd hq (by decide)
    rw [hstar, openQuote_cons, quoteAfter, if_neg hne]
    rintro ⟨⟩
  · have hfirst : quoteAfter (some q) quote ≠ some quote := by
      rw [quoteAfter]
      split
      · rintro ⟨⟩
      · rename_i hne
        exact fun heq => hne (Option.some.inj heq).symm
    have hbody := (doubled_doubleChar quote cs).openQuote_ne hfirst
    rw [List.cons_append, openQuote_cons, openQuote_append]
    exact quoteAfter_quote_ne_none hquote hbody

/-! ## Path literals -/

private theorem doubled_replicate_backslash (n : Nat) :
    Doubled '\'' (List.replicate n '\\') :=
  .of_not_mem fun h => absurd (List.eq_of_mem_replicate h) (by decide)

private theorem doubled_doubleQuotesFrom (held : Nat) (cs : List Char) :
    Doubled '\'' (doubleQuotesFrom held cs) := by
  induction cs generalizing held with
  | nil => exact doubled_replicate_backslash held
  | cons c cs ih =>
    rw [doubleQuotesFrom]
    split
    · exact ih (held + 1)
    · split
      · exact .pair (ih 0)
      · rename_i hc
        exact (doubled_replicate_backslash held).append (.other hc (ih 0))

theorem doubled_doubleQuotes (cs : List Char) : Doubled '\'' (doubleQuotes cs) :=
  doubled_doubleQuotesFrom 0 cs

/-- Replacing the arrows keeps single quotes doubled: no arrow reaches into a
pair of them.  While the second character of an arrow is passed over, that
character comes next. -/
private theorem doubled_replaceFrom {new : List Char} (hnew : Doubled '\'' new) {skip : Nat}
    {cs : List Char} (h : Doubled '\'' cs)
    (hskip : skip = 0 ∨ skip = 1 ∧ cs.head? = some '>') :
    Doubled '\'' (replaceFrom arrow new skip cs) := by
  induction h generalizing skip with
  | nil => exact .nil
  | @other c cs hc _ ih =>
    rcases hskip with rfl | ⟨rfl, _⟩
    · rw [replaceFrom]
      split
      · rename_i hprefix
        have hnext : cs.head? = some '>' := by
          cases cs with
          | nil =>
            simp only [arrow, List.isPrefixOf, Bool.and_false] at hprefix
            exact absurd hprefix (by decide)
          | cons d cs =>
            simp only [arrow, List.isPrefixOf, Bool.and_eq_true, beq_iff_eq] at hprefix
            rw [List.head?_cons, hprefix.2.1]
        exact hnew.append (ih (Or.inr ⟨rfl, hnext⟩))
      · exact .other hc (ih (Or.inl rfl))
    · rw [replaceFrom]
      exact ih (Or.inl rfl)
  | @pair cs _ ih =>
    rcases hskip with rfl | ⟨_, hhead⟩
    · have hfirst : arrow.isPrefixOf ('\'' :: '\'' :: cs) = false := rfl
      have hsecond : arrow.isPrefixOf ('\'' :: cs) = false := rfl
      rw [replaceFrom, hfirst, if_neg (by simp), replaceFrom, hsecond, if_neg (by simp)]
      exact .pair (ih (Or.inl rfl))
    · exact absurd (Option.some.inj hhead) (by decide)

/-- A path literal stands between single quotes, and those inside it are doubled. -/
theorem pathLiteral_between (path : List Char) :
    ∃ cs, pathLiteral arrow path = '\'' :: cs ++ ['\''] ∧ Doubled '\'' cs := by
  have hnew : Doubled '\'' ['"', '.', '"'] := .of_not_mem (by decide)
  have hkeys : Doubled '\'' (replaceAll arrow ['"', '.', '"'] (doubleQuotes path)) := by
    rw [replaceAll, if_neg (by decide)]
    exact doubled_replaceFrom hnew (doubled_doubleQuotes path) (Or.inl rfl)
  have hopen : Doubled '\'' ['$', '.', '"'] := .of_not_mem (by decide)
  have hclose : Doubled '\'' ['"'] := .of_not_mem (by decide)
  refine ⟨_, ?_, (hopen.append hkeys).append hclose⟩
  unfold pathLiteral
  simp

/-- A path literal can be put anywhere. -/
theorem pathLiteral_sealed (path : List Char) : Sealed (pathLiteral arrow path) := by
  obtain ⟨cs, hcs, hdoubled⟩ := pathLiteral_between path
  rw [hcs]
  exact hdoubled.sealed_between (by decide)

/-- A path argument can be put anywhere. -/
theorem pathArgument_sealed (path : List Char) : Sealed (pathArgument path) :=
  Sealed.append (show Sealed ", ".toList by decide) (pathLiteral_sealed path)

/-! ## Keys after arrows -/

-- The tables are read line by line.  Each line is first turned into its characters by a lemma,
-- because evaluating that is what would be slow.
private theorem decimalRanges_above : ∀ span ∈ Text.decimalRanges.spans, 0xb2 ≤ span.1 := by
  unfold Text.decimalRanges Text.Ranges.ofLines
  simp only [List.flatMap_cons, List.flatMap_nil, Text.words]
  repeat rw [String.toList_ofList]
  decide +kernel

private theorem otherDigitRanges_above : ∀ span ∈ Text.otherDigitRanges.spans, 0xb2 ≤ span.1 := by
  unfold Text.otherDigitRanges Text.Ranges.ofLines
  simp only [List.flatMap_cons, List.flatMap_nil, Text.words]
  repeat rw [String.toList_ofList]
  decide +kernel

/-- The digits below the superscripts are those of ASCII. -/
theorem digit_cases {c : Char} (h : Text.isDigit c = true) :
    ('0' ≤ c ∧ c ≤ '9') ∨ 0xb2 ≤ c.toNat := by
  by_cases hascii : '0' ≤ c ∧ c ≤ '9'
  · exact Or.inl hascii
  · refine Or.inr ?_
    rw [Text.isDigit, Bool.or_eq_true, Text.decimalDigit?, if_neg hascii] at h
    rcases h with h | h
    · rw [Option.isSome_map] at h
      obtain ⟨span, hspan⟩ := Option.isSome_iff_exists.1 h
      have habove := decimalRanges_above span (List.mem_of_find?_eq_some hspan)
      have hbounds := List.find?_some hspan
      simp only [Bool.and_eq_true, decide_eq_true_eq] at hbounds
      omega
    · obtain ⟨span, hspan, hbounds⟩ := List.any_eq_true.1 h
      have habove := otherDigitRanges_above span hspan
      simp only [Bool.and_eq_true, decide_eq_true_eq] at hbounds
      omega

/-- Digits are neither quotes nor placeholders. -/
theorem digit_plain {c : Char} (h : Text.isDigit c = true) : isQuote c = false ∧ c ≠ '?' := by
  have hnone : ∀ d ∈ ['\'', '"', '\x60', '?'], Text.isDigit d ≠ true := by
    intro d hd hdigit
    have hcases := digit_cases hdigit
    simp only [List.mem_cons, List.not_mem_nil, or_false] at hd
    rcases hd with rfl | rfl | rfl | rfl <;> exact absurd hcases (by decide)
  refine ⟨?_, ?_⟩
  · rw [Bool.eq_false_iff]
    intro hq
    have hmem : c ∈ ['\'', '"', '\x60', '?'] := by
      simp only [isQuote, Bool.or_eq_true, beq_iff_eq] at hq
      rcases hq with (rfl | rfl) | rfl <;> simp
    exact hnone c hmem h
  · rintro rfl
    exact hnone '?' (by simp) h

/-- A key with a character that is no digit is quoted. -/
theorem pathKey_quoted {key : List Char} {c : Char} (hmem : c ∈ key)
    (hc : Text.isDigit c = false) : pathKey key = '\'' :: key ++ ['\''] := by
  have hall : key.all Text.isDigit = false := by
    rw [List.all_eq_false]
    exact ⟨c, hmem, by rw [hc]; decide⟩
  rw [pathKey, Text.allDigits, String.toList_ofList, hall, Bool.and_false]
  rfl

/-- A key without single quotes can be put anywhere. -/
theorem pathKey_sealed {key : List Char} (h : '\'' ∉ key) : Sealed (pathKey key) := by
  unfold pathKey
  split
  · rename_i hdigits
    simp only [Text.allDigits, Bool.and_eq_true, String.toList_ofList, List.all_eq_true] at hdigits
    exact sealed_of_plain fun c hc => digit_plain (hdigits.2 c hc)
  · exact (Doubled.of_not_mem h).sealed_between (by decide)

/-- Keys without single quotes can be put anywhere with their arrows. -/
theorem arrowKeys_sealed {keys : List (List Char)} (h : ∀ key ∈ keys, '\'' ∉ key) :
    Sealed (arrowKeys keys) := by
  induction keys with
  | nil => exact reads_nil
  | cons key keys ih =>
    have hkey := pathKey_sealed (h key List.mem_cons_self)
    cases keys with
    | nil => exact Sealed.append (show Sealed ['-', '>', '>'] by decide) hkey
    | cons next keys =>
      have hrest := ih fun key hmem => h key (List.mem_cons_of_mem _ hmem)
      exact ((show Sealed ['-', '>'] by decide).append hkey).append hrest

end FluentSql
