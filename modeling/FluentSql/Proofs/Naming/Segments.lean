import FluentSql.Grammar.Piece
import FluentSql.Proofs.Naming.Prefixing

/-!
# Reading quoted names back

A name is quoted by doubling the quotes in it and putting quotes around it.
Nothing is lost on the way: whoever takes the outer quotes off and undoubles
the inner ones has the name back, and a text of several quoted names is cut
into them at the points outside quotes.

* `undoubled` and `unquotedName` read one quoted name.
* `cutPoints` cuts a text at the points outside quotes, and
  `cutPoints_joinPoints` says that it finds the names.  The points in a name
  are passed over, because a doubled quote leaves the quote open.
* `PlainName` are the names that stand for themselves in a dotted reference.
* `Grammar.wrap_names` is about names and dotted references of a grammar.
-/

namespace FluentSql

namespace Name

/-! ## One name -/

section

variable {quote : Char} {dialect : Dialect}

/-- A text without the quote, or with doubled quotes only, after each pair of them is made one. -/
def undoubled (quote : Char) : List Char → Option (List Char)
  | [] => some []
  | [c] => if c = quote then none else some [c]
  | c :: d :: rest =>
    if c = quote then
      if d = quote then (undoubled quote rest).map (quote :: ·) else none
    else (undoubled quote (d :: rest)).map (c :: ·)

/-- The name that a text between quotes stands for. -/
def unquotedName (quote : Char) : List Char → Option (List Char)
  | [] => none
  | first :: rest =>
    if first = quote ∧ rest.getLast? = some quote then undoubled quote rest.dropLast else none

theorem undoubled_cons_of_ne {c : Char} (hc : c ≠ quote) (cs : List Char) :
    undoubled quote (c :: cs) = (undoubled quote cs).map (c :: ·) := by
  cases cs with
  | nil => exact if_neg hc
  | cons d cs => exact if_neg hc

theorem undoubled_pair (cs : List Char) :
    undoubled quote (quote :: quote :: cs) = (undoubled quote cs).map (quote :: ·) := by
  rw [undoubled, if_pos rfl, if_pos rfl]

theorem undoubled_doubleChar (quote : Char) (cs : List Char) :
    undoubled quote (doubleChar quote cs) = some cs := by
  induction cs with
  | nil => rfl
  | cons c cs ih =>
    rw [doubleChar_cons]
    by_cases hc : c = quote
    · rw [if_pos hc, hc]
      show undoubled quote (quote :: quote :: doubleChar quote cs) = _
      rw [undoubled_pair, ih]
      rfl
    · rw [if_neg hc]
      show undoubled quote (c :: doubleChar quote cs) = _
      rw [undoubled_cons_of_ne hc, ih]
      rfl

/-- A quoted name is read back. -/
theorem unquotedName_quoteName {cs : List Char} (h : cs ≠ ['*']) :
    unquotedName dialect.quote (quoteName dialect cs) = some cs := by
  rw [quoteName_of_ne h]
  show unquotedName dialect.quote (dialect.quote ::
    (doubleChar dialect.quote cs ++ [dialect.quote])) = _
  rw [unquotedName, if_pos ⟨rfl, List.getLast?_concat⟩, List.dropLast_concat]
  exact undoubled_doubleChar dialect.quote cs

/-- Different names are quoted differently. -/
theorem quoteName_injective {xs ys : List Char}
    (h : quoteName dialect xs = quoteName dialect ys) : xs = ys := by
  have hend : ([] : List Char).head? ≠ some dialect.quote := nofun
  have hsame : quoteName dialect xs ++ [] = quoteName dialect ys ++ [] := by rw [h]
  exact (quoteName_append_inj hend hend hsame).1

end

/-! ## Names with points between them -/

/-- Cuts at the points outside quotes.  `quote` is the quote that is open, and `current` holds the
piece so far, last character first. -/
def cutPointsFrom (quote : Option Char) (current : List Char) : List Char → List (List Char)
  | [] => [current.reverse]
  | c :: rest =>
    if quote = none ∧ c = '.' then current.reverse :: cutPointsFrom none [] rest
    else cutPointsFrom (quoteAfter quote c) (c :: current) rest

/-- The pieces of a text between the points outside quotes. -/
def cutPoints (cs : List Char) : List (List Char) :=
  cutPointsFrom none [] cs

section

variable {quote : Char} {dialect : Dialect}

/-- A character that is no point belongs to the piece that is being read. -/
theorem cutPointsFrom_cons {c : Char} (hc : c ≠ '.') (before : Option Char)
    (current rest : List Char) :
    cutPointsFrom before current (c :: rest) =
      cutPointsFrom (quoteAfter before c) (c :: current) rest := by
  rw [cutPointsFrom, if_neg fun h => hc h.2]

/-- Between quotes nothing is cut, and a text with doubled quotes ends between them as well. -/
theorem cutPointsFrom_doubled (hquote : isQuote quote = true) {inner : List Char}
    (h : Doubled quote inner) (current rest : List Char) :
    cutPointsFrom (some quote) current (inner ++ rest) =
      cutPointsFrom (some quote) (inner.reverse ++ current) rest := by
  have hpoint : quote ≠ '.' := by
    rintro rfl
    exact absurd hquote (by decide)
  induction h generalizing current with
  | nil => rfl
  | @other c inner hc _ ih =>
    have hopen : quoteAfter (some quote) c = some quote := by rw [quoteAfter, if_neg hc]
    rw [List.cons_append, cutPointsFrom, if_neg (fun h => Option.some_ne_none _ h.1), hopen, ih,
      List.reverse_cons, List.append_assoc]
    rfl
  | @pair inner _ ih =>
    -- The first quote of a pair closes and the second opens again.
    have hclosed : quoteAfter (some quote) quote = none := by rw [quoteAfter, if_pos rfl]
    have hopen : quoteAfter none quote = some quote := by rw [quoteAfter, if_pos hquote]
    rw [List.cons_append, List.cons_append, cutPointsFrom_cons hpoint, hclosed,
      cutPointsFrom_cons hpoint, hopen, ih, List.reverse_cons, List.reverse_cons, List.append_assoc,
      List.append_assoc]
    rfl

/-- A quoted name is read as a whole. -/
theorem cutPointsFrom_quoteName (cs current rest : List Char) :
    cutPointsFrom none current (quoteName dialect cs ++ rest) =
      cutPointsFrom none ((quoteName dialect cs).reverse ++ current) rest := by
  by_cases hstar : cs = ['*']
  · rw [hstar]
    exact cutPointsFrom_cons (by decide) none current rest
  · have hquote := isQuote_quote dialect
    have hpoint := quote_ne_point dialect
    have hdoubled := doubled_doubleChar dialect.quote cs
    rw [quoteName_of_ne hstar]
    generalize dialect.quote = quote at hquote hpoint hdoubled
    have hclosed : quoteAfter (some quote) quote = none := by rw [quoteAfter, if_pos rfl]
    have hopen : quoteAfter none quote = some quote := by rw [quoteAfter, if_pos hquote]
    rw [List.cons_append, List.cons_append, List.append_assoc, cutPointsFrom_cons hpoint, hopen,
      cutPointsFrom_doubled hquote hdoubled, List.singleton_append, cutPointsFrom_cons hpoint,
      hclosed]
    simp

/-- A text of quoted names with points between them is cut into these names. -/
theorem cutPoints_joinPoints {names : List (List Char)} (hsome : names ≠ []) :
    cutPoints (joinPoints (names.map (quoteName dialect))) = names.map (quoteName dialect) := by
  have hend : ∀ name, cutPoints (quoteName dialect name) = [quoteName dialect name] := by
    intro name
    have hread := @cutPointsFrom_quoteName dialect name [] []
    rw [List.append_nil, List.append_nil] at hread
    rw [cutPoints, hread, cutPointsFrom, List.reverse_reverse]
  induction names with
  | nil => exact absurd rfl hsome
  | cons first rest ih =>
    cases rest with
    | nil => exact hend first
    | cons second rest =>
      show cutPointsFrom none [] (quoteName dialect first ++
        '.' :: joinPoints ((second :: rest).map (quoteName dialect))) = _
      rw [cutPointsFrom_quoteName, cutPointsFrom, if_pos ⟨rfl, rfl⟩, List.append_nil,
        List.reverse_reverse, ← cutPoints, ih (List.cons_ne_nil _ _)]
      rfl

end

/-! ## Dotted references -/

/-- A name that stands for itself in a dotted reference: it has no point, no alias and no arrow, and
it is not the asterisk. -/
structure PlainName (name : List Char) : Prop where
  pointless : '.' ∉ name
  unmarked : Unmarked name
  ne_star : name ≠ ['*']

section

variable {dialect : Dialect} {names : List (List Char)}

/-- The names are read back from their text. -/
theorem names_of_cutPoints (hsome : names ≠ []) (hplain : ∀ name ∈ names, PlainName name) :
    (cutPoints (joinPoints (names.map (quoteName dialect)))).mapM (unquotedName dialect.quote) =
      some names := by
  rw [cutPoints_joinPoints hsome]
  clear hsome
  induction names with
  | nil => rfl
  | cons first rest ih =>
    obtain ⟨hfirst, hrest⟩ := List.forall_mem_cons.1 hplain
    rw [List.map_cons, List.mapM_cons, unquotedName_quoteName hfirst.ne_star, ih hrest]
    rfl

/-- Without a prefix every name of a dotted reference is quoted on its own. -/
theorem wrap_names_plain (hsome : names ≠ []) (hplain : ∀ name ∈ names, PlainName name) :
    wrap dialect (some []) false (joinPoints names) =
      .ok (joinPoints (names.map (quoteName dialect))) := by
  have hpoints : ∀ name ∈ names, '.' ∉ name := fun name hname => (hplain name hname).pointless
  have hunmarked := unmarked_joinPoints fun name hname => (hplain name hname).unmarked
  match names with
  | [] => exact absurd rfl hsome
  | [name] => exact wrapFrom_single hunmarked (hpoints name List.mem_cons_self)
  | table :: second :: rest =>
    have htable := hplain table List.mem_cons_self
    rw [wrap_segments List.not_mem_nil hpoints hunmarked, List.nil_append,
      wrap, wrapFuel, wrapFrom_single htable.unmarked htable.pointless]
    rfl

end

end Name

namespace Grammar

open Name

variable {g : Grammar}

theorem segment_text (oracle : Oracle) (name : List Char) :
    g.segment oracle (quotedText name) = .ok (quotedText (quoteName g.dialect name)) := by
  show Except.ok (Value.text (String.ofList (quoteName g.dialect (String.ofList name).toList))) = _
  rw [String.toList_ofList]
  rfl

/-- A reference of one segment is that segment, whatever the prefix is. -/
theorem wrap_single {name : List Char} (hpoint : '.' ∉ name) (h : Unmarked name) :
    g.wrap (quotedText name) = .ok (quotedText (quoteName g.dialect name)) := by
  show (g.wrapText false (String.ofList name)).map Value.text = _
  rw [wrapText, String.toList_ofList, Name.wrap, wrapFuel, wrapFrom_single h hpoint]
  rfl

theorem quotedText_injective {xs ys : List Char} (h : quotedText xs = quotedText ys) : xs = ys :=
  String.ofList_inj.1 (Value.text.inj h)

/-- A name is quoted by doubling its quotes and putting quotes around it, and read back by
undoubling them, so that different names are quoted differently.  Without a prefix the same goes for
the names of a dotted reference: its text is cut at the points outside quotes into the quoted names,
and other names give another text. -/
theorem wrap_names (g : Grammar) :
    (∀ oracle name, name ≠ ['*'] → ∃ inner,
      g.segment oracle (quotedText name) =
        .ok (quotedText (g.dialect.quote :: inner ++ [g.dialect.quote])) ∧
      Doubled g.dialect.quote inner ∧ undoubled g.dialect.quote inner = some name ∧
      ('.' ∉ name → Unmarked name →
        g.wrap (quotedText name) = g.segment oracle (quotedText name))) ∧
    (∀ oracle name name',
      g.segment oracle (quotedText name) = g.segment oracle (quotedText name') → name = name') ∧
    (g.tablePrefix = .text "" → ∀ names, names ≠ [] → (∀ name ∈ names, PlainName name) →
      ∃ text, g.wrap (quotedText (joinPoints names)) = .ok (quotedText text) ∧
        cutPoints text = names.map (quoteName g.dialect) ∧
        (cutPoints text).mapM (unquotedName g.dialect.quote) = some names ∧
        ∀ names', names' ≠ [] → (∀ name ∈ names', PlainName name) →
          g.wrap (quotedText (joinPoints names')) = .ok (quotedText text) → names' = names) := by
  refine ⟨fun oracle name hname => ?_, fun oracle name name' h => ?_,
    fun hprefix names hsome hplain => ?_⟩
  · refine ⟨doubleChar g.dialect.quote name, ?_, doubled_doubleChar _ name,
      undoubled_doubleChar _ name, fun hpoint hunmarked => ?_⟩
    · rw [segment_text, quoteName_of_ne hname]
    · rw [wrap_single hpoint hunmarked, segment_text]
  · rw [segment_text, segment_text, Except.ok.injEq] at h
    exact quoteName_injective (quotedText_injective h)
  · have hwrapped : ∀ names, names ≠ [] → (∀ name ∈ names, PlainName name) →
        g.wrap (quotedText (joinPoints names)) =
          .ok (quotedText (joinPoints (names.map (quoteName g.dialect)))) := by
      intro names hsome hplain
      rw [wrap_text hprefix, show "".toList = [] from rfl, wrap_names_plain hsome hplain]
      rfl
    refine ⟨_, hwrapped names hsome hplain, cutPoints_joinPoints hsome,
      names_of_cutPoints hsome hplain, fun names' hsome' hplain' h => ?_⟩
    rw [hwrapped names' hsome' hplain', Except.ok.injEq] at h
    refine Option.some.inj ?_
    rw [← names_of_cutPoints hsome' hplain', quotedText_injective h,
      names_of_cutPoints hsome hplain]

/-- Quotes, also next to a point, and an empty name are read back. -/
theorem wrap_names_backticks :
    ∃ text, wrap { dialect := .mysql } (quotedText "a\x60.\x60\x60..b\" c".toList) =
        .ok (quotedText text) ∧
      (cutPoints text).mapM (unquotedName '\x60') =
        some ["a\x60".toList, "\x60\x60".toList, [], "b\" c".toList] := by
  have hplain : ∀ name ∈ ["a\x60".toList, "\x60\x60".toList, [], "b\" c".toList], PlainName name := by
    simp only [List.forall_mem_cons]
    exact ⟨⟨by decide, ⟨by decide, by decide⟩, by decide⟩,
      ⟨by decide, ⟨by decide, by decide⟩, by decide⟩,
      ⟨by decide, ⟨by decide, by decide⟩, by decide⟩,
      ⟨by decide, ⟨by decide, by decide⟩, by decide⟩, nofun⟩
  obtain ⟨text, hwrapped, _, hread, _⟩ :=
    (wrap_names { dialect := .mysql }).2.2 rfl _ (List.cons_ne_nil _ _) hplain
  exact ⟨text, hwrapped, hread⟩

end Grammar

end FluentSql
