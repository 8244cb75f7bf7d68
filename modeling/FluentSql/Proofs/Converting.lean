import FluentSql.Proofs.Reading

/-!
# Converted statements

A statement is converted for an engine that takes another style of
placeholders.  The conversion goes through the statement once, with the open
quote and the number of placeholders so far.  Here it is described by places
instead: what a character becomes depends on the text before it and on nothing
else.

There are three groups.

* What is written.  `Style.markText` is the text of a placeholder,
  `Style.writtenChar` what one character becomes, and `Style.convert` the whole
  statement.
* The conversion.  `convertFrom_step` is one step of it, and `convertFrom_eq`
  the run over the rest of a statement of which a part was read.
* Reading back.  `unescape` reads pairs that begin with a percent sign, and
  `unescape_convert` says that it undoes a conversion that doubles them.
-/

namespace FluentSql

/-! ## What is written -/

namespace Style

/-- The name of a style. -/
def name : Style → String
  | format => "format"
  | pyformat => "pyformat"
  | numeric => "numeric"
  | named => "named"

/-- The text of the `k`-th placeholder, the first being 1. -/
def markText (style : Style) (k : Nat) : String :=
  match style with
  | format | pyformat => "%s"
  | numeric => ":" ++ toString k
  | named => ":p" ++ toString (k - 1)

/-- What a character becomes that stands after `index` placeholders, with a quote open or not. -/
def writtenChar (style : Style) (quote : Option Char) (index : Nat) (c : Char) : List Char :=
  if quote = none ∧ c = '?' then (style.markText (index + 1)).toList
  else if style.doublesPercent ∧ c = '%' then ['%', '%']
  else [c]

/-- What a character becomes that stands at a place of a statement. -/
def writtenAt (style : Style) (cs : List Char) (c : Char) (place : Nat) : List Char :=
  style.writtenChar (openQuote none (cs.take place)) (marks none (cs.take place)) c

/-- A statement in the style: every character by what stands before it. -/
def convert (style : Style) (cs : List Char) : List Char :=
  cs.zipIdx.flatMap fun entry => style.writtenAt cs entry.1 entry.2

/-- The values of a statement in the style. -/
def arrange (style : Style) (values : List Value) : Parameters :=
  match style with
  | named => .named (values.mapIdx fun i value => ("p" ++ toString i, value))
  | _ => .positional values

theorem ofName?_name (style : Style) : ofName? style.name = some style := by
  cases style <;> rfl

theorem name_ne_qmark (style : Style) : style.name ≠ "qmark" := by
  cases style <;> decide

theorem toList_toString (n : Nat) : (toString n).toList = Number.natDigits n :=
  String.toList_ofList

theorem placeholder_eq (style : Style) (index : Nat) :
    style.placeholder index = (style.markText (index + 1)).toList := by
  cases style with
  | format => exact String.toList_ofList.symm
  | pyformat => exact String.toList_ofList.symm
  | numeric =>
    rw [markText, String.toList_append, toList_toString]
    rfl
  | named =>
    rw [markText, String.toList_append, toList_toString]
    rfl

theorem arrangeValues_eq (style : Style) (values : List Value) :
    arrangeValues (.text style.name) values = style.arrange values := by
  cases style with
  | format => rfl
  | pyformat => rfl
  | numeric => rfl
  | named =>
    have hname : ∀ i, String.ofList (valueName i) = "p" ++ toString i := fun i => by
      rw [← String.toList_inj, String.toList_append, toList_toString, String.toList_ofList]
      rfl
    show Parameters.named _ = Parameters.named _
    simp only [hname]

end Style

/-! ## The conversion -/

section Conversion

variable (style : Style)

/-- The conversion of a text by the placeholders of a style. -/
private abbrev convertRest (quote : Option Char) (index : Nat) (cs : List Char) :
    Except Failure (List Char) :=
  convertFrom some id style.doublesPercent (fun k => .ok (style.placeholder k)) quote index cs

private theorem prepend_eq (written : List Char) (rest : Except Failure (List Char)) :
    (do return written ++ (← rest)) = rest.map (written ++ ·) := by
  cases rest <;> rfl

/-- One step: the character is written, and the rest is read with the quote that is open after
it. -/
private theorem convertFrom_step {quote : Option Char}
    (hquote : ∀ q, quote = some q → isQuote q = true) (index : Nat) (c : Char) (cs : List Char) :
    convertRest style quote index (c :: cs) =
      (convertRest style (quoteAfter quote c) (index + marks quote [c]) cs).map
        (style.writtenChar quote index c ++ ·) := by
  have hmarks : marks quote [c] = if quote = none ∧ c = '?' then 1 else 0 := rfl
  rw [hmarks, ← prepend_eq, Style.writtenChar]
  by_cases hpercent : style.doublesPercent = true ∧ c = '%'
  · -- A percent sign is no quote, so the open quote stays.
    obtain ⟨hdoubles, rfl⟩ := hpercent
    have hopen : quoteAfter quote '%' = quote := quoteAfter_of_not_quote rfl quote hquote
    have hmark : ¬(quote = none ∧ '%' = '?') := fun h => absurd h.2 (by decide)
    rw [if_neg hmark, if_neg hmark, if_pos ⟨hdoubles, rfl⟩, hopen]
    unfold convertRest
    rw [convertFrom.eq_def]
    simp only [hdoubles, BEq.rfl, Bool.and_self, if_true]
    rfl
  · have hescapes : (style.doublesPercent && some c == some '%') = false := by
      simpa using hpercent
    rw [if_neg hpercent, convertRest, convertFrom.eq_def]
    simp only [hescapes, Bool.false_eq_true, if_false]
    cases quote with
    | some q =>
      have hmark : ¬(some q = none ∧ c = '?') := fun h => by cases h.1
      rw [if_neg hmark, if_neg hmark, Nat.add_zero, quoteAfter]
      simp only [Option.some.injEq]
      rfl
    | none =>
      by_cases hc : c = '?'
      · subst hc
        rw [if_pos ⟨rfl, rfl⟩, if_pos ⟨rfl, rfl⟩, ← Style.placeholder_eq]
        rfl
      · have hmark : ¬(none = (none : Option Char) ∧ c = '?') := fun h => hc h.2
        rw [if_neg hmark, if_neg hmark, Nat.add_zero, quoteAfter]
        split
        · rename_i heq
          cases heq
        · rename_i heq
          exact absurd (Option.some.inj heq) hc
        · rename_i heq
          cases heq
          rfl
        · rename_i heq
          cases heq

/-- The conversion of what follows a text that was read: every character is written by the place
where it stands. -/
private theorem convertFrom_eq (before cs : List Char) :
    convertRest style (openQuote none before) (marks none before) cs =
      .ok ((cs.zipIdx before.length).flatMap fun entry =>
        style.writtenAt (before ++ cs) entry.1 entry.2) := by
  induction cs generalizing before with
  | nil => rfl
  | cons c cs ih =>
    have hopen : quoteAfter (openQuote none before) c = openQuote none (before ++ [c]) := by
      rw [openQuote_append]
      rfl
    have hmarks : marks none before + marks (openQuote none before) [c] =
        marks none (before ++ [c]) := (marks_append none before [c]).symm
    have hhead : style.writtenAt (before ++ c :: cs) c before.length =
        style.writtenChar (openQuote none before) (marks none before) c := by
      rw [Style.writtenAt, List.take_left' rfl]
    have hsplit : before ++ [c] ++ cs = before ++ c :: cs := by simp
    rw [convertFrom_step style (fun q hq => isQuote_of_openQuote hq), hopen, hmarks, ih, hsplit,
      List.zipIdx_cons, List.flatMap_cons, hhead, List.length_append]
    rfl

end Conversion

/-! ## Reading back -/

/-- Reads a text in which a percent sign begins a pair: two of them are one percent sign, and one
before an `s` is a placeholder.  A percent sign that begins no such pair cannot be read. -/
def unescape : List Char → Option (List Char)
  | [] => some []
  | '%' :: '%' :: rest => (unescape rest).map ('%' :: ·)
  | '%' :: 's' :: rest => (unescape rest).map ('?' :: ·)
  | '%' :: _ => none
  | c :: rest => (unescape rest).map (c :: ·)

theorem unescape_cons {c : Char} (hc : c ≠ '%') (rest : List Char) :
    unescape (c :: rest) = (unescape rest).map (c :: ·) := by
  rw [unescape.eq_def]
  split <;> simp_all

section Reading

variable {style : Style}

theorem unescape_writtenChar (hdoubles : style.doublesPercent = true) (quote : Option Char)
    (index : Nat) (c : Char) (rest : List Char) :
    unescape (style.writtenChar quote index c ++ rest) = (unescape rest).map (c :: ·) := by
  have hmarkText : ∀ k, (style.markText k).toList = ['%', 's'] := by
    intro k
    cases style with
    | format => exact String.toList_ofList
    | pyformat => exact String.toList_ofList
    | numeric => exact absurd hdoubles (by decide)
    | named => exact absurd hdoubles (by decide)
  rw [Style.writtenChar]
  split
  · rename_i hmark
    rw [hmarkText, hmark.2]
    rfl
  · by_cases hpercent : c = '%'
    · rw [if_pos ⟨hdoubles, hpercent⟩, hpercent]
      rfl
    · rw [if_neg fun h => hpercent h.2]
      exact unescape_cons hpercent rest

/-- A conversion that doubles percent signs can be read back. -/
theorem unescape_convert (hdoubles : style.doublesPercent = true) (cs : List Char) :
    unescape (style.convert cs) = some cs := by
  have hplaces : ∀ (rest : List Char) (start : Nat),
      unescape ((rest.zipIdx start).flatMap fun entry => style.writtenAt cs entry.1 entry.2) =
        some rest := by
    intro rest
    induction rest with
    | nil => exact fun _ => rfl
    | cons c rest ih =>
      intro start
      rw [List.zipIdx_cons, List.flatMap_cons, Style.writtenAt, unescape_writtenChar hdoubles, ih]
      rfl
  exact hplaces cs 0

end Reading

/-! ## Statements with values -/

/-- A statement with values is converted to the style of its engine: every character is written by
what stands before it, so that exactly the question marks outside quotes become placeholders with
running numbers.  Where percent signs are doubled, the statement can be read back. -/
theorem convertPlaceholders_lossless (style : Style) (s : String) (first : Value)
    (rest : List Value) :
    convertPlaceholders (.text s) (.text style.name) (.list (first :: rest)) =
        .ok ⟨.text (String.ofList (style.convert s.toList)), style.arrange (first :: rest)⟩ ∧
      (style.doublesPercent = true → unescape (style.convert s.toList) = some s.toList) := by
  refine ⟨?_, fun hdoubles => unescape_convert hdoubles s.toList⟩
  have hstyle : (Value.text style.name).text?.bind Style.ofName? = some style :=
    Style.ofName?_name style
  have hqmark : (Value.text style.name).text? ≠ some "qmark" := fun h =>
    Style.name_ne_qmark style (Option.some.inj h)
  have hescapes : escapesPercent (.text style.name) = style.doublesPercent := by
    rw [escapesPercent, hstyle]
    rfl
  have hplaceholder : placeholderOf (.text style.name) = fun k => .ok (style.placeholder k) := by
    funext k
    rw [placeholderOf, hstyle]
  have hconvert : convertText (.text style.name) (.text s) =
      .ok (String.ofList (style.convert s.toList)) := by
    rw [convertText, hescapes, hplaceholder]
    show (do return String.ofList (← convertRest style (openQuote none []) (marks none []) s.toList)) = _
    rw [convertFrom_eq style [] s.toList]
    rfl
  rw [convertPlaceholders]
  simp only [Value.truthy, List.isEmpty_cons, Bool.not_false, Bool.not_true, Bool.false_eq_true,
    if_false, if_neg hqmark, hconvert, Style.arrangeValues_eq, Value.items]
  rfl

/-- The question mark and the percent sign inside the quotes are no placeholders, but the percent
sign is doubled all the same. -/
theorem convertPlaceholders_lossless_format :
    convertPlaceholders (.text "a like '?%' or b = ?") (.text "format") (.list [.int 1]) =
        .ok ⟨.text "a like '?%%' or b = %s", .positional [.int 1]⟩ ∧
      unescape "a like '?%%' or b = %s".toList = some "a like '?%' or b = ?".toList := by
  have h := convertPlaceholders_lossless .format "a like '?%' or b = ?" (.int 1) []
  have hconvert : Style.format.convert "a like '?%' or b = ?".toList =
      "a like '?%%' or b = %s".toList := by decide
  rw [hconvert, String.ofList_toList] at h
  exact ⟨h.1, h.2 rfl⟩

end FluentSql
