import FluentSql.Proofs.Balance

/-!
# The words of a text

A text is read word by word.  Blanks in quotes and in parentheses do not part
words, so a text in parentheses is one word.

* `wordsFrom` is the scan, and `words` the words of a whole text.
* `words_append` and `words_enclosed` are the words of balanced texts that are
  put together and of those in parentheses.
* `words_trim` says that blanks around a text do not matter.
-/

namespace FluentSql

/-! ## The scan -/

/-- The number of parentheses that are open after a character. -/
def depthNext (quote : Option Char) (depth : Nat) (c : Char) : Nat :=
  if quote = none ∧ c = '(' then depth + 1
  else if quote = none ∧ c = ')' then depth - 1
  else depth

/-- The words of a text, given the quote and the number of parentheses that are open before it and
what was read of the first word. -/
def wordsFrom (quote : Option Char) (depth : Nat) (word : List Char) :
    List Char → List (List Char)
  | [] => if word = [] then [] else [word]
  | c :: rest =>
    if quote = none ∧ depth = 0 ∧ Text.isBlank c = true then
      if word = [] then wordsFrom none 0 [] rest else word :: wordsFrom none 0 [] rest
    else wordsFrom (quoteAfter quote c) (depthNext quote depth c) (word ++ [c]) rest

/-- The words of a text. -/
def words (cs : List Char) : List (List Char) :=
  wordsFrom none 0 [] cs

/-- A text that does not go on with the word before it. -/
def BeginsBlank (cs : List Char) : Prop :=
  cs = [] ∨ ∃ c rest, cs = c :: rest ∧ Text.isBlank c = true

/-- Counting the parentheses goes on after a character. -/
theorem depthAfter_next {quote : Option Char} {depth after : Nat} {c : Char} {cs : List Char}
    (h : depthAfter quote depth (c :: cs) = some after) :
    depthAfter (quoteAfter quote c) (depthNext quote depth c) cs = some after ∧
      depthNext quote (depth + 1) c = depthNext quote depth c + 1 := by
  unfold depthNext
  by_cases hopen : quote = none ∧ c = '('
  · obtain ⟨rfl, rfl⟩ := hopen
    exact ⟨h, rfl⟩
  · by_cases hclose : quote = none ∧ c = ')'
    · obtain ⟨rfl, rfl⟩ := hclose
      cases depth with
      | zero => exact nomatch h
      | succ depth => exact ⟨h, rfl⟩
    · rw [depthAfter_other fun hq => ⟨fun hc => hopen ⟨hq, hc⟩, fun hc => hclose ⟨hq, hc⟩⟩] at h
      simp only [if_neg hopen, if_neg hclose, and_true]
      exact h

/-! ## Texts one after the other -/

/-- The words of a text are read before those of what follows. -/
theorem wordsFrom_append {quote : Option Char} {depth : Nat} {a b : List Char}
    (hquote : openQuote quote a = none) (hdepth : depthAfter quote depth a = some 0)
    (hb : BeginsBlank b) (word : List Char) :
    wordsFrom quote depth word (a ++ b) = wordsFrom quote depth word a ++ words b := by
  induction a generalizing quote depth word with
  | nil =>
    obtain rfl : quote = none := hquote
    obtain rfl : depth = 0 := Option.some.inj hdepth
    obtain rfl | ⟨c, rest, rfl, hc⟩ := hb
    · exact (List.append_nil _).symm
    · have hblank : none = (none : Option Char) ∧ 0 = 0 ∧ Text.isBlank c = true := ⟨rfl, rfl, hc⟩
      rw [List.nil_append, words, wordsFrom, wordsFrom, wordsFrom, if_pos hblank, if_pos hblank,
        if_pos rfl]
      split <;> rfl
  | cons c a ih =>
    obtain ⟨hnext, _⟩ := depthAfter_next hdepth
    rw [List.cons_append, wordsFrom, wordsFrom]
    split
    · rename_i hblank
      have hplain := isPlain_of_isBlank hblank.2.2
      obtain ⟨rfl, rfl, _⟩ := hblank
      have hquoted : quoteAfter none c = none := by rw [quoteAfter, hplain.1]; rfl
      rw [openQuote_cons, hquoted] at hquote
      rw [hquoted, show depthNext none 0 c = 0 by
        rw [depthNext, if_neg fun h => hplain.2.1 h.2, if_neg fun h => hplain.2.2 h.2]] at hnext
      rw [ih hquote hnext]
      split <;> rfl
    · exact ih hquote hnext _

theorem words_append {a b : List Char} (ha : Balanced a) (hb : BeginsBlank b) :
    words (a ++ b) = words a ++ words b :=
  wordsFrom_append ha.closed ha.level hb []

/-! ## Texts in parentheses -/

/-- A text in parentheses belongs to one word. -/
theorem wordsFrom_inside {quote : Option Char} {depth after : Nat} {cs : List Char}
    (h : depthAfter quote depth cs = some after) (word rest : List Char) :
    wordsFrom quote (depth + 1) word (cs ++ rest) =
      wordsFrom (openQuote quote cs) (after + 1) (word ++ cs) rest := by
  induction cs generalizing quote depth word with
  | nil =>
    obtain rfl : depth = after := Option.some.inj h
    rw [List.append_nil]
    rfl
  | cons c cs ih =>
    obtain ⟨hnext, hdepth⟩ := depthAfter_next h
    rw [List.cons_append, wordsFrom, if_neg (fun hblank => nomatch hblank.2.1), hdepth, ih hnext,
      openQuote_cons, List.append_assoc]
    rfl

theorem words_enclosed {cs rest : List Char} (h : Balanced cs) (hrest : BeginsBlank rest) :
    words ('(' :: cs ++ ')' :: rest) = ('(' :: cs ++ [')']) :: words rest := by
  have hone : words ('(' :: cs ++ [')']) = [('(' :: cs ++ [')'])] := by
    show wordsFrom none (0 + 1) ['('] (cs ++ [')']) = _
    rw [wordsFrom_inside h.level, h.closed]
    rfl
  have hall := words_append h.enclosed hrest
  rw [hone, List.append_assoc] at hall
  exact hall

/-! ## Blanks -/

theorem words_blank_cons {c : Char} (hc : Text.isBlank c = true) (cs : List Char) :
    words (c :: cs) = words cs :=
  (if_pos ⟨rfl, rfl, hc⟩).trans (if_pos rfl)

theorem words_blanks_append {blanks : List Char} (h : ∀ c ∈ blanks, Text.isBlank c = true)
    (cs : List Char) : words (blanks ++ cs) = words cs := by
  induction blanks with
  | nil => rfl
  | cons c blanks ih =>
    rw [List.cons_append, words_blank_cons (h c List.mem_cons_self),
      ih fun d hd => h d (List.mem_cons_of_mem c hd)]

theorem beginsBlank_of_blanks {blanks : List Char} (h : ∀ c ∈ blanks, Text.isBlank c = true) :
    BeginsBlank blanks := by
  cases blanks with
  | nil => exact .inl rfl
  | cons c blanks => exact .inr ⟨c, blanks, rfl, h c List.mem_cons_self⟩

/-- What is trimmed off are blanks. -/
theorem trim_between (s : String) : ∃ front back,
    (∀ c ∈ front, Text.isBlank c = true) ∧ (∀ c ∈ back, Text.isBlank c = true) ∧
      s.toList = front ++ (Text.trim s).toList ++ back := by
  obtain ⟨⟨front, hfront, hcs⟩, _⟩ := dropBlanks_spec s.toList
  obtain ⟨⟨back, hback, hrev⟩, _⟩ := dropBlanks_spec (Text.dropBlanks s.toList).reverse
  refine ⟨front, back.reverse, hfront, fun c hc => hback c (List.mem_reverse.1 hc), ?_⟩
  have hinner := congrArg List.reverse hrev
  rw [List.reverse_reverse, List.reverse_append] at hinner
  rw [Text.trim, String.toList_ofList, List.append_assoc, ← hinner]
  exact hcs

/-- The blanks around a balanced text do not matter. -/
theorem words_of_trim {s : String} (h : Balanced (Text.trim s).toList) :
    Balanced s.toList ∧ words s.toList = words (Text.trim s).toList := by
  obtain ⟨front, back, hfront, hback, hs⟩ := trim_between s
  have hplain : ∀ {blanks : List Char}, (∀ c ∈ blanks, Text.isBlank c = true) → Balanced blanks :=
    fun hblanks => balanced_of_plain fun c hc => isPlain_of_isBlank (hblanks c hc)
  have hnone : words back = [] := by
    have hblanks := words_blanks_append hback []
    rwa [List.append_nil] at hblanks
  rw [hs]
  refine ⟨((hplain hfront).append h).append (hplain hback), ?_⟩
  rw [List.append_assoc, words_blanks_append hfront, words_append h (beginsBlank_of_blanks hback),
    hnone, List.append_nil]

theorem words_trimLeft {s : String} (h : Balanced s.toList) :
    Balanced (Text.trimLeft s).toList ∧ words (Text.trimLeft s).toList = words s.toList := by
  obtain ⟨⟨front, hfront, hs⟩, _⟩ := dropBlanks_spec s.toList
  rw [Text.trimLeft, String.toList_ofList]
  refine ⟨h.dropBlanks, ?_⟩
  rw [hs, words_blanks_append hfront, ← hs]

theorem Balanced.trim {s : String} (h : Balanced s.toList) : Balanced (Text.trim s).toList := by
  rw [Text.trim, String.toList_ofList]
  exact h.dropBlanks.dropBlanks_reverse

/-! ## Fragments with spaces between them -/

theorem joinWith_concat (separator last : String) {fragments : List String} (h : fragments ≠ []) :
    joinWith separator (fragments ++ [last]) = joinWith separator fragments ++ separator ++ last := by
  induction fragments with
  | nil => exact absurd rfl h
  | cons first rest ih =>
    cases rest with
    | nil => rfl
    | cons second rest =>
      have hrest := ih (List.cons_ne_nil second rest)
      simp only [List.cons_append, joinWith] at hrest ⊢
      rw [hrest]
      simp only [String.append_assoc]

/-- A fragment more is left out, or stands alone, or follows a space. -/
theorem spaced_concat (fragments : List String) (last : String) :
    (spaced (fragments ++ [last]) = spaced fragments ∧ last = "") ∨
      (spaced (fragments ++ [last]) = last ∧ spaced fragments = "") ∨
        spaced (fragments ++ [last]) = spaced fragments ++ " " ++ last := by
  unfold spaced
  rw [List.filter_append]
  cases hempty : last.isEmpty with
  | true =>
    refine .inl ⟨?_, String.isEmpty_iff.1 hempty⟩
    rw [List.filter_cons_of_neg (by rw [hempty]; decide), List.filter_nil, List.append_nil]
  | false =>
    rw [List.filter_cons_of_pos (by rw [hempty]; rfl), List.filter_nil]
    generalize fragments.filter _ = shown
    cases shown with
    | nil => exact .inr (.inl ⟨rfl, rfl⟩)
    | cons first rest => exact .inr (.inr (joinWith_concat " " last (List.cons_ne_nil first rest)))

theorem words_spaced_concat {fragments : List String} {last : String}
    (h : Balanced (spaced fragments).toList) (hlast : Balanced last.toList) :
    Balanced (spaced (fragments ++ [last])).toList ∧
      words (spaced (fragments ++ [last])).toList =
        words (spaced fragments).toList ++ words last.toList := by
  rcases spaced_concat fragments last with ⟨heq, rfl⟩ | ⟨heq, hnone⟩ | heq
  · rw [heq]
    exact ⟨h, (List.append_nil _).symm⟩
  · rw [heq, hnone]
    exact ⟨hlast, rfl⟩
  · have hblank : Text.isBlank ' ' = true := by decide
    rw [heq, String.toList_append, String.toList_append, List.append_assoc]
    refine ⟨h.append (Balanced.append (by decide) hlast), ?_⟩
    refine (words_append h (.inr ⟨' ', last.toList, rfl, hblank⟩)).trans ?_
    exact congrArg _ (words_blank_cons hblank last.toList)

end FluentSql
