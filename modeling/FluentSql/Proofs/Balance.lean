import FluentSql.Proofs.Filling
import FluentSql.Proofs.References

/-!
# Balanced texts

A text is balanced if it closes its quotes, and if outside quotes every
parenthesis that it opens is closed and none is closed before it was opened.
Such texts can be put anywhere, and a text in parentheses can be told from
what follows it.

* `depthAfter` counts the parentheses that are open after a text.
* `Balanced` is kept by putting texts together, by parentheses around them,
  and by what the compilers cut off.
* `quoteName_balanced`, `pathArgument_balanced` and `wrapFrom_balanced` are
  names and paths, which may hold any parentheses inside their quotes.
-/

namespace FluentSql

open Name

/-! ## Counting parentheses -/

/-- The number of parentheses that are open after a text, given the quote and the number of
parentheses that were open before it.  There is none if more are closed than are open. -/
def depthAfter (quote : Option Char) (depth : Nat) : List Char → Option Nat
  | [] => some depth
  | c :: rest =>
    if quote = none ∧ c = '(' then depthAfter none (depth + 1) rest
    else if quote = none ∧ c = ')' then
      match depth with
      | 0 => none
      | depth + 1 => depthAfter none depth rest
    else depthAfter (quoteAfter quote c) depth rest

@[simp] theorem depthAfter_nil (quote : Option Char) (depth : Nat) :
    depthAfter quote depth [] = some depth := rfl

theorem depthAfter_open (depth : Nat) (cs : List Char) :
    depthAfter none depth ('(' :: cs) = depthAfter none (depth + 1) cs := rfl

theorem depthAfter_close (depth : Nat) (cs : List Char) :
    depthAfter none (depth + 1) (')' :: cs) = depthAfter none depth cs := rfl

/-- Any other character only opens and closes quotes. -/
theorem depthAfter_other {quote : Option Char} {c : Char}
    (h : quote = none → c ≠ '(' ∧ c ≠ ')') (depth : Nat) (cs : List Char) :
    depthAfter quote depth (c :: cs) = depthAfter (quoteAfter quote c) depth cs := by
  rw [depthAfter.eq_def]
  dsimp only
  rw [if_neg fun hc => (h hc.1).1 hc.2, if_neg fun hc => (h hc.1).2 hc.2]

theorem depthAfter_quoted (quote c : Char) (depth : Nat) (cs : List Char) :
    depthAfter (some quote) depth (c :: cs) = depthAfter (quoteAfter (some quote) c) depth cs :=
  depthAfter_other (fun h : some quote = none => nomatch h) depth cs

/-- The text before is counted first. -/
theorem depthAfter_append (quote : Option Char) (depth : Nat) (a b : List Char) :
    depthAfter quote depth (a ++ b) =
      (depthAfter quote depth a).bind fun depth => depthAfter (openQuote quote a) depth b := by
  induction a generalizing quote depth with
  | nil => rfl
  | cons c a ih =>
    rw [List.cons_append, openQuote_cons]
    by_cases hopen : quote = none ∧ c = '('
    · obtain ⟨rfl, rfl⟩ := hopen
      exact ih none (depth + 1)
    · by_cases hclose : quote = none ∧ c = ')'
      · obtain ⟨rfl, rfl⟩ := hclose
        cases depth with
        | zero => rfl
        | succ depth => exact ih none depth
      · have hother : quote = none → c ≠ '(' ∧ c ≠ ')' := fun hq =>
          ⟨fun hc => hopen ⟨hq, hc⟩, fun hc => hclose ⟨hq, hc⟩⟩
        rw [depthAfter_other hother, depthAfter_other hother, ih]

/-- What is counted does not depend on the parentheses around the text. -/
theorem depthAfter_add {quote : Option Char} {depth after : Nat} {cs : List Char}
    (h : depthAfter quote depth cs = some after) (more : Nat) :
    depthAfter quote (depth + more) cs = some (after + more) := by
  induction cs generalizing quote depth with
  | nil => rw [depthAfter_nil] at h ⊢; rw [Option.some.inj h]
  | cons c cs ih =>
    by_cases hopen : quote = none ∧ c = '('
    · obtain ⟨rfl, rfl⟩ := hopen
      rw [depthAfter_open] at h ⊢
      rw [Nat.add_right_comm]
      exact ih h
    · by_cases hclose : quote = none ∧ c = ')'
      · obtain ⟨rfl, rfl⟩ := hclose
        cases depth with
        | zero => exact nomatch h
        | succ depth =>
          rw [Nat.add_right_comm]
          exact ih h
      · have hother : quote = none → c ≠ '(' ∧ c ≠ ')' := fun hq =>
          ⟨fun hc => hopen ⟨hq, hc⟩, fun hc => hclose ⟨hq, hc⟩⟩
        rw [depthAfter_other hother] at h ⊢
        exact ih h

/-! ## Balanced texts -/

/-- A text that closes its quotes and, outside them, its parentheses. -/
structure Balanced (cs : List Char) : Prop where
  /-- Every quote is closed. -/
  closed : openQuote none cs = none
  /-- Every parenthesis is closed, and none too early. -/
  level : depthAfter none 0 cs = some 0

instance (cs : List Char) : Decidable (Balanced cs) :=
  decidable_of_iff (openQuote none cs = none ∧ depthAfter none 0 cs = some 0)
    ⟨fun h => ⟨h.1, h.2⟩, fun h => ⟨h.closed, h.level⟩⟩

/-- A character that is no quote and no parenthesis. -/
def IsPlain (c : Char) : Prop :=
  isQuote c = false ∧ c ≠ '(' ∧ c ≠ ')'

/-- A reader passes over a text without quotes and parentheses. -/
theorem depthAfter_plain {cs : List Char} (h : ∀ c ∈ cs, IsPlain c) (depth : Nat) :
    depthAfter none depth cs = some depth := by
  induction cs with
  | nil => rfl
  | cons c cs ih =>
    obtain ⟨hquote, hparens⟩ := h c List.mem_cons_self
    have hnone : quoteAfter none c = none := by rw [quoteAfter, hquote]; rfl
    rw [depthAfter_other fun _ => hparens, hnone]
    exact ih fun d hd => h d (List.mem_cons_of_mem c hd)

theorem openQuote_of_plain {cs : List Char} (h : ∀ c ∈ cs, IsPlain c) : openQuote none cs = none :=
  openQuote_plain (fun c hc => (h c hc).1) none nofun

theorem balanced_of_plain {cs : List Char} (h : ∀ c ∈ cs, IsPlain c) : Balanced cs :=
  ⟨openQuote_of_plain h, depthAfter_plain h 0⟩

namespace Balanced

variable {a b cs : List Char}

theorem append (ha : Balanced a) (hb : Balanced b) : Balanced (a ++ b) := by
  refine ⟨?_, ?_⟩
  · rw [openQuote_append, ha.closed, hb.closed]
  · rw [depthAfter_append, ha.level, ha.closed]
    exact hb.level

/-- A balanced text inside parentheses leaves as many open as there were. -/
theorem depthAfter (h : Balanced cs) (depth : Nat) : depthAfter none depth cs = some depth := by
  have hmore := depthAfter_add h.level depth
  rwa [Nat.zero_add] at hmore

theorem enclosed (h : Balanced cs) : Balanced ('(' :: cs ++ [')']) := by
  refine ⟨?_, ?_⟩
  · rw [List.cons_append, openQuote_cons]
    show openQuote none (cs ++ [')']) = none
    rw [openQuote_append, h.closed]
    rfl
  · rw [List.cons_append, depthAfter_open, depthAfter_append, h.depthAfter, h.closed]
    rfl

/-- What follows a text without quotes and parentheses. -/
theorem of_plain_append (ha : ∀ c ∈ a, IsPlain c) (h : Balanced (a ++ b)) : Balanced b := by
  refine ⟨?_, ?_⟩
  · have hclosed := h.closed
    rwa [openQuote_append, openQuote_of_plain ha] at hclosed
  · have hlevel := h.level
    rwa [depthAfter_append, depthAfter_plain ha, openQuote_of_plain ha] at hlevel

/-- What stands before a text without quotes and parentheses. -/
theorem of_append_plain (hb : ∀ c ∈ b, IsPlain c) (h : Balanced (a ++ b)) : Balanced a := by
  have hclosed : openQuote none a = none := by
    cases hopen : openQuote none a with
    | none => rfl
    | some q =>
      have hafter := openQuote_plain (fun c hc => (hb c hc).1) (some q) fun d hd =>
        Option.some.inj hd ▸ isQuote_of_openQuote hopen
      have hall := h.closed
      rw [openQuote_append, hopen, hafter] at hall
      exact nomatch hall
  refine ⟨hclosed, ?_⟩
  have hlevel := h.level
  rw [depthAfter_append, hclosed] at hlevel
  cases hdepth : FluentSql.depthAfter none 0 a with
  | none => rw [hdepth] at hlevel; exact nomatch hlevel
  | some depth =>
    rw [hdepth] at hlevel
    rwa [Option.bind_some, depthAfter_plain hb] at hlevel

end Balanced

/-! ## What is cut off -/

theorem isPlain_of_isBlank {c : Char} (h : Text.isBlank c = true) : IsPlain c := by
  refine ⟨(blank_plain h).1, ?_, ?_⟩
  · rintro rfl
    exact absurd h (by decide)
  · rintro rfl
    exact absurd h (by decide)

theorem Balanced.dropBlanks {cs : List Char} (h : Balanced cs) : Balanced (Text.dropBlanks cs) := by
  obtain ⟨⟨blanks, hblanks, hcs⟩, _⟩ := dropBlanks_spec cs
  rw [hcs] at h
  exact h.of_plain_append fun c hc => isPlain_of_isBlank (hblanks c hc)

theorem Balanced.dropBlanks_reverse {cs : List Char} (h : Balanced cs) :
    Balanced (Text.dropBlanks cs.reverse).reverse := by
  obtain ⟨⟨blanks, hblanks, hrev⟩, _⟩ := dropBlanks_spec cs.reverse
  have hcs : cs = (Text.dropBlanks cs.reverse).reverse ++ blanks.reverse := by
    rw [← List.reverse_append, ← hrev, List.reverse_reverse]
  rw [hcs] at h
  exact h.of_append_plain fun c hc => isPlain_of_isBlank (hblanks c (List.mem_reverse.1 hc))

theorem Balanced.dropConjunctionChars {word : List Char} (h : Balanced word) :
    Balanced (dropConjunctionChars (word ++ [' '])) := by
  obtain ⟨front, hword, hfront⟩ := dropConjunctionChars_spec (word ++ [' '])
  have hall : Balanced (word ++ [' ']) := h.append (by decide)
  rw [hword] at hall
  exact hall.of_plain_append fun c hc => ⟨(hfront c hc).1.1, (hfront c hc).2⟩

/-! ## Names and paths -/

/-- Inside its quote a text with doubled quotes opens and closes no parentheses. -/
theorem Doubled.depthAfter_self {quote : Char} (hq : isQuote quote = true) {cs : List Char}
    (h : Doubled quote cs) (depth : Nat) : depthAfter (some quote) depth cs = some depth := by
  induction h with
  | nil => rfl
  | @other c cs hc _ ih =>
    rw [depthAfter_quoted, quoteAfter, if_neg hc, ih]
  | @pair cs _ ih =>
    have hparens : quote ≠ '(' ∧ quote ≠ ')' := by
      constructor <;> (rintro rfl; exact absurd hq (by decide))
    rw [depthAfter_quoted, quoteAfter, if_pos rfl, depthAfter_other fun _ => hparens, quoteAfter,
      if_pos hq, ih]

theorem Doubled.balanced_between {quote : Char} (hq : isQuote quote = true) {cs : List Char}
    (h : Doubled quote cs) : Balanced (quote :: cs ++ [quote]) := by
  have hparens : quote ≠ '(' ∧ quote ≠ ')' := by
    constructor <;> (rintro rfl; exact absurd hq (by decide))
  refine ⟨(h.sealed_between hq).closed, ?_⟩
  rw [List.cons_append, depthAfter_other fun _ => hparens, quoteAfter, if_pos hq, depthAfter_append,
    h.depthAfter_self hq, h.openQuote_self hq, Option.bind_some, depthAfter_quoted, depthAfter_nil]

/-- A quoted name. -/
theorem quoteName_balanced (dialect : Dialect) (cs : List Char) :
    Balanced (quoteName dialect cs) := by
  unfold quoteName
  split
  · rename_i hstar
    rw [hstar]
    decide
  · exact (doubled_doubleChar dialect.quote cs).balanced_between (isQuote_quote dialect)

theorem pathArgument_balanced (path : List Char) : Balanced (pathArgument path) := by
  obtain ⟨cs, hcs, hdoubled⟩ := pathLiteral_between path
  unfold pathArgument
  rw [hcs]
  exact .append (show Balanced ", ".toList by decide) (hdoubled.balanced_between (by decide))

theorem joinPoints_balanced {segments : List (List Char)} (h : ∀ cs ∈ segments, Balanced cs) :
    Balanced (joinPoints segments) := by
  induction segments with
  | nil => decide
  | cons segment rest ih =>
    have hfirst := h segment List.mem_cons_self
    cases rest with
    | nil => exact hfirst
    | cons second rest =>
      have hrest := ih fun cs hcs => h cs (List.mem_cons_of_mem segment hcs)
      exact hfirst.append (Balanced.append (a := ['.']) (by decide) hrest)

/-- A computation of characters makes none but balanced ones. -/
abbrev MakesBalanced (r : Except Failure (List Char)) : Prop :=
  ∀ cs, r = .ok cs → Balanced cs

theorem wrapSegments_balanced {dialect : Dialect}
    {wrapTable : List Char → Except Failure (List Char)} (htable : ∀ cs, MakesBalanced (wrapTable cs))
    (segments : List (List Char)) : MakesBalanced (wrapSegments dialect wrapTable segments) := by
  intro out hout
  unfold wrapSegments at hout
  split at hout
  · obtain ⟨table, hmade, hout⟩ := bind_eq_ok hout
    cases hout
    refine joinPoints_balanced (List.forall_mem_cons.2 ⟨htable _ table hmade, fun cs hcs => ?_⟩)
    obtain ⟨segment, _, rfl⟩ := List.mem_map.1 hcs
    exact quoteName_balanced dialect segment
  · cases hout
    refine joinPoints_balanced fun cs hcs => ?_
    obtain ⟨segment, _, rfl⟩ := List.mem_map.1 hcs
    exact quoteName_balanced dialect segment

theorem fieldAndPath_balanced {wrap : List Char → Except Failure (List Char)}
    (hwrap : ∀ cs, MakesBalanced (wrap cs)) {cs : List Char} {r : List Char × List Char}
    (h : fieldAndPath wrap cs = .ok r) : Balanced r.1 ∧ Balanced r.2 := by
  unfold fieldAndPath at h
  split at h
  · obtain ⟨field, hfield, h⟩ := bind_eq_ok h
    cases h
    exact ⟨hwrap _ field hfield, pathArgument_balanced _⟩
  · obtain ⟨field, hfield, h⟩ := bind_eq_ok h
    cases h
    exact ⟨hwrap _ field hfield, show Balanced [] by decide⟩

/-- A call of a function on a balanced text. -/
theorem Balanced.call {name cs : List Char} (hname : Balanced name) (h : Balanced cs) :
    Balanced (name ++ '(' :: cs ++ [')']) := by
  have hcall := hname.append h.enclosed
  simpa only [List.append_assoc] using hcall

/-- A path into a JSON column, in a dialect that calls a function for it. -/
theorem wrapSelector_balanced {dialect : Dialect} (hd : dialect ≠ .postgres)
    {wrap wrapTable : List Char → Except Failure (List Char)}
    (hwrap : ∀ cs, MakesBalanced (wrap cs)) (cs : List Char) :
    MakesBalanced (wrapSelector dialect wrap wrapTable cs) := by
  have hextract : ∀ {field path : List Char}, Balanced field ∧ Balanced path →
      Balanced ("json_extract(".toList ++ field ++ path ++ ")".toList) := fun {field path} h => by
    have hcall := Balanced.call (show Balanced "json_extract".toList by decide)
      (h.1.append h.2)
    simpa using hcall
  intro out hout
  unfold wrapSelector at hout
  cases dialect with
  | ansi => exact nomatch hout
  | postgres => exact absurd rfl hd
  | mysql =>
    obtain ⟨⟨field, path⟩, hmade, hout⟩ := bind_eq_ok hout
    cases hout
    have hcall := Balanced.call (show Balanced "json_unquote".toList by decide)
      (hextract (fieldAndPath_balanced hwrap hmade))
    simpa using hcall
  | sqlite =>
    obtain ⟨⟨field, path⟩, hmade, hout⟩ := bind_eq_ok hout
    cases hout
    exact hextract (fieldAndPath_balanced hwrap hmade)

/-- A quoted reference is balanced, whatever it holds, but for a path in PostgreSQL.  By induction on
the steps. -/
theorem wrapFrom_balanced {dialect : Dialect} (hd : dialect ≠ .postgres)
    (tablePrefix : TablePrefix) (fuel : Nat) (aliasToo : Bool) (cs : List Char) :
    MakesBalanced (wrapFrom dialect tablePrefix fuel aliasToo cs) := by
  induction fuel generalizing aliasToo cs with
  | zero => exact nofun
  | succ fuel ih =>
    have htable : ∀ table, MakesBalanced (do
        wrapFrom dialect tablePrefix fuel true (← tablePrefix.before table)) := by
      intro table out hout
      obtain ⟨prefixed, _, hout⟩ := bind_eq_ok hout
      exact ih true prefixed out hout
    intro out hout
    rw [wrapFrom_succ] at hout
    split at hout
    · rename_i name given _
      have halias : ∀ given, MakesBalanced (do
          return (← wrapFrom dialect tablePrefix fuel false name) ++ " as ".toList ++
            quoteName dialect given) := by
        intro given out hout
        obtain ⟨name, hname, hout⟩ := bind_eq_ok hout
        cases hout
        exact ((ih false _ name hname).append (by decide)).append (quoteName_balanced dialect given)
      dsimp only at hout
      split at hout
      · obtain ⟨given, _, hout⟩ := bind_eq_ok hout
        exact halias given out hout
      · exact halias given out hout
    · split at hout
      · exact wrapSelector_balanced hd (ih false) cs out hout
      · exact wrapSegments_balanced htable _ out hout

end FluentSql
