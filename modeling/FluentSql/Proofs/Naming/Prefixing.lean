import FluentSql.Proofs.Naming.Circling

/-!
# The prefix of dotted tables

A table is quoted as a reference with the prefix before it, and the first
segment of a reference with several segments is quoted as a table.  So a table
of one segment gets the prefix once, a table of several segments gets it twice,
and the table of a column gets it once.

* `TableName` are the names of tables, as lists of segments.
* `PrefixedOnce` says that a text is the quoted segments with the prefix before
  one of them.
* `quoteName_append_inj` says that the first quoted segment of a text can be
  read off, and `Interrupted` are the texts that are no quoted segments.
* `Grammar.wrapTable_prefixes_once_iff` says when the prefix is there once.
-/

namespace FluentSql

namespace Name

open Text

/-! ## Segments -/

/-- The segments of the name of a table: none is empty, and none holds a point, a blank or an
arrow. -/
structure TableName (segments : List (List Char)) : Prop where
  segmented : segments ≠ []
  nonempty : ∀ segment ∈ segments, segment ≠ []
  pointless : ∀ segment ∈ segments, '.' ∉ segment
  solid : ∀ segment ∈ segments, ∀ c ∈ segment, isBlank c = false
  arrowless : ∀ segment ∈ segments, hasArrow segment = false

instance (segments : List (List Char)) : Decidable (TableName segments) :=
  have (segment : List Char) : Decidable (∀ c ∈ segment, isBlank c = false) :=
    List.decidableBAll (fun c => isBlank c = false) segment
  decidable_of_iff
    (segments ≠ [] ∧ (∀ segment ∈ segments, segment ≠ []) ∧ (∀ segment ∈ segments, '.' ∉ segment) ∧
      (∀ segment ∈ segments, ∀ c ∈ segment, isBlank c = false) ∧
      ∀ segment ∈ segments, hasArrow segment = false)
    ⟨fun ⟨h, h1, h2, h3, h4⟩ => ⟨h, h1, h2, h3, h4⟩, fun ⟨h, h1, h2, h3, h4⟩ => ⟨h, h1, h2, h3, h4⟩⟩

section

variable {segments : List (List Char)} {first second : List Char} {rest : List (List Char)}

theorem TableName.unmarked (h : TableName segments) {segment : List Char}
    (hsegment : segment ∈ segments) : Unmarked segment :=
  ⟨hasAlias_of_no_blank (h.solid segment hsegment), h.arrowless segment hsegment⟩

/-- A prefix without points leaves the first segment without points. -/
theorem TableName.not_mem_prefixed {p : List Char} (hp : '.' ∉ p) (h : TableName (first :: rest)) :
    '.' ∉ p ++ first := by
  rw [List.mem_append]
  exact fun hmem => hmem.elim hp (h.pointless first List.mem_cons_self)

theorem unmarked_joinPoints (h : ∀ segment ∈ segments, Unmarked segment) :
    Unmarked (joinPoints segments) := by
  induction segments with
  | nil => exact ⟨rfl, rfl⟩
  | cons first rest ih =>
    obtain ⟨hfirst, hrest⟩ := List.forall_mem_cons.1 h
    cases rest with
    | nil => exact hfirst
    | cons second rest => exact (unmarked_point first _).2 ⟨hfirst, ih hrest⟩

/-- The points between segments are where their text is cut. -/
theorem splitOn_joinPoints (hsome : segments ≠ []) (h : ∀ segment ∈ segments, '.' ∉ segment) :
    (joinPoints segments).splitOn '.' = segments := by
  induction segments with
  | nil => exact absurd rfl hsome
  | cons first rest ih =>
    obtain ⟨hfirst, hrest⟩ := List.forall_mem_cons.1 h
    cases rest with
    | nil => exact List.splitOn_eq_singleton hfirst
    | cons second rest =>
      show (first ++ '.' :: joinPoints (second :: rest)).splitOn '.' = _
      rw [List.splitOn_append_cons_self_of_not_mem hfirst, ih (List.cons_ne_nil _ _) hrest]

theorem joinPoints_concat (hsome : segments ≠ []) (last : List Char) :
    joinPoints (segments ++ [last]) = joinPoints segments ++ '.' :: last := by
  induction segments with
  | nil => exact absurd rfl hsome
  | cons first rest ih =>
    cases rest with
    | nil => rfl
    | cons second rest =>
      show first ++ '.' :: joinPoints (second :: rest ++ [last]) =
        first ++ '.' :: joinPoints (second :: rest) ++ '.' :: last
      rw [ih (List.cons_ne_nil _ _), List.append_assoc, List.cons_append]

end

/-! ## Quoting segments -/

section

variable {dialect : Dialect} {p cs table : List Char} {fuel : Nat} {aliasToo : Bool}

theorem wrapFrom_unmarked {tablePrefix : TablePrefix} (h : Unmarked cs) :
    wrapFrom dialect tablePrefix (fuel + 1) aliasToo cs =
      wrapSegments dialect
        (fun table => do wrapFrom dialect tablePrefix fuel true (← tablePrefix.before table))
        (cs.splitOn '.') := by
  rw [wrapFrom_succ, h.noAlias, h.arrow]
  rfl

/-- A single segment is quoted. -/
theorem wrapFrom_single {tablePrefix : TablePrefix} (h : Unmarked cs) (hpoint : '.' ∉ cs) :
    wrapFrom dialect tablePrefix (fuel + 1) aliasToo cs = .ok (quoteName dialect cs) := by
  rw [wrapFrom_unmarked h, List.splitOn_eq_singleton hpoint]
  rfl

/-- Under a prefix without points a table without points is quoted in any number of steps from some
on as it is in all that there are. -/
theorem wrapFrom_eq_wrap (hpoint : '.' ∉ cs) (hfuel : 2 < fuel) :
    wrapFrom dialect (some p) fuel aliasToo cs = wrap dialect (some p) aliasToo cs := by
  obtain ⟨result, hsteps, _⟩ : EndsAfter dialect p 2 aliasToo cs :=
    .of_tableless (tableOf?_of_dotless hpoint)
  rw [wrap, hsteps fuel hfuel, hsteps wrapFuel (by decide)]

/-- Several segments are quoted, the first of them as a table. -/
theorem wrap_segments {second : List Char} {rest : List (List Char)} (hp : '.' ∉ p)
    (hpoints : ∀ segment ∈ table :: second :: rest, '.' ∉ segment)
    (h : Unmarked (joinPoints (table :: second :: rest))) :
    wrap dialect (some p) aliasToo (joinPoints (table :: second :: rest)) =
      (wrap dialect (some p) true (p ++ table)).map fun quoted =>
        joinPoints (quoted :: (second :: rest).map (quoteName dialect)) := by
  have hprefixed : '.' ∉ p ++ table := by
    rw [List.mem_append]
    exact fun hmem => hmem.elim hp (hpoints table List.mem_cons_self)
  rw [wrap, wrapFuel, wrapFrom_unmarked h, splitOn_joinPoints (List.cons_ne_nil _ _) hpoints]
  show (wrapFrom dialect (some p) 11 true (p ++ table) >>= _) = _
  rw [wrapFrom_eq_wrap hprefixed (by omega)]
  rfl

end

/-! ## Reading quoted segments off a text -/

section

variable {quote : Char} {dialect : Dialect} {p xs ys rest rest' : List Char}

theorem doubleChar_cons (c : Char) (cs : List Char) :
    doubleChar quote (c :: cs) = (if c = quote then [c, c] else [c]) ++ doubleChar quote cs := by
  rw [doubleChar, List.flatMap_cons, ← doubleChar]

/-- What stands between quotes ends at the first quote that is not doubled. -/
theorem doubleChar_append_inj (hrest : rest.head? ≠ some quote) (hrest' : rest'.head? ≠ some quote)
    (h : doubleChar quote xs ++ quote :: rest = doubleChar quote ys ++ quote :: rest') :
    xs = ys ∧ rest = rest' := by
  induction xs generalizing ys with
  | nil =>
    cases ys with
    | nil => exact ⟨rfl, (List.cons.inj h).2⟩
    | cons y ys =>
      rw [doubleChar_cons] at h
      split at h
      · rename_i hy
        refine absurd ?_ hrest
        rw [(List.cons.inj h).2, hy]
        rfl
      · exact absurd (List.cons.inj h).1.symm ‹_›
  | cons x xs ih =>
    cases ys with
    | nil =>
      rw [doubleChar_cons] at h
      split at h
      · rename_i hx
        refine absurd ?_ hrest'
        rw [← (List.cons.inj h).2, hx]
        rfl
      · exact absurd (List.cons.inj h).1 ‹_›
    | cons y ys =>
      have hhead : x = y := by
        rw [doubleChar_cons, doubleChar_cons] at h
        split at h <;> split at h <;> exact (List.cons.inj h).1
      subst hhead
      rw [doubleChar_cons, doubleChar_cons, List.append_assoc, List.append_assoc] at h
      obtain ⟨rfl, hsame⟩ := ih (List.append_cancel_left h)
      exact ⟨rfl, hsame⟩

theorem quoteName_of_ne (h : xs ≠ ['*']) :
    quoteName dialect xs = dialect.quote :: doubleChar dialect.quote xs ++ [dialect.quote] :=
  if_neg h

theorem quote_ne_star (dialect : Dialect) : dialect.quote ≠ '*' := by
  cases dialect <;> decide

/-- The first quoted segment of a text can be read off, unless a quote follows it. -/
theorem quoteName_append_inj (hrest : rest.head? ≠ some dialect.quote)
    (hrest' : rest'.head? ≠ some dialect.quote)
    (h : quoteName dialect xs ++ rest = quoteName dialect ys ++ rest') :
    xs = ys ∧ rest = rest' := by
  by_cases hx : xs = ['*'] <;> by_cases hy : ys = ['*']
  · subst hx hy
    exact ⟨rfl, List.append_cancel_left h⟩
  · rw [quoteName_of_ne hy, hx] at h
    exact absurd (List.cons.inj h).1.symm (quote_ne_star dialect)
  · rw [quoteName_of_ne hx, hy] at h
    exact absurd (List.cons.inj h).1 (quote_ne_star dialect)
  · rw [quoteName_of_ne hx, quoteName_of_ne hy] at h
    have hinner : doubleChar dialect.quote xs ++ [dialect.quote] ++ rest =
        doubleChar dialect.quote ys ++ [dialect.quote] ++ rest' := (List.cons.inj h).2
    rw [List.append_assoc, List.append_assoc] at hinner
    exact doubleChar_append_inj hrest hrest' hinner

/-- A text that is not made of quoted segments with points between them: a blank or a dash follows
the first segment, or it begins with the name of a function. -/
def Interrupted (dialect : Dialect) (text : List Char) : Prop :=
  (∃ name c rest, text = quoteName dialect name ++ c :: rest ∧ (c = ' ' ∨ c = '-')) ∨
    ∃ rest, text = 'j' :: rest

theorem Interrupted.append {text : List Char} (h : Interrupted dialect text) (more : List Char) :
    Interrupted dialect (text ++ more) := by
  rcases h with ⟨name, c, rest, rfl, hc⟩ | ⟨rest, rfl⟩
  · exact .inl ⟨name, c, rest ++ more, by rw [List.append_assoc, List.cons_append], hc⟩
  · exact .inr ⟨rest ++ more, rfl⟩

/-- Quoted segments with points between them begin with the first one, and a point or nothing
follows it. -/
theorem joinPoints_head (dialect : Dialect) (segment : List Char) (segments : List (List Char)) :
    ∃ rest, joinPoints ((segment :: segments).map (quoteName dialect)) =
        quoteName dialect segment ++ rest ∧ (rest = [] ∨ rest.head? = some '.') := by
  cases segments with
  | nil => exact ⟨[], (List.append_nil _).symm, .inl rfl⟩
  | cons second segments => exact ⟨_, rfl, .inr rfl⟩

theorem quote_ne_point (dialect : Dialect) : dialect.quote ≠ '.' := by
  cases dialect <;> decide

theorem head?_ne_quote {text : List Char} (h : text = [] ∨ text.head? = some '.') :
    text.head? ≠ some dialect.quote := by
  rcases h with rfl | hpoint
  · exact nofun
  · rw [hpoint]
    exact fun heq => quote_ne_point dialect (Option.some.inj heq).symm

theorem Interrupted.ne_joinPoints {text : List Char} (h : Interrupted dialect text)
    (segment : List Char) (segments : List (List Char)) :
    text ≠ joinPoints ((segment :: segments).map (quoteName dialect)) := by
  obtain ⟨rest, heq, hrest⟩ := joinPoints_head dialect segment segments
  rw [heq]
  rcases h with ⟨name, c, rest', rfl, hc⟩ | ⟨rest', rfl⟩
  · intro h
    have hquote : (c :: rest').head? ≠ some dialect.quote := by
      rcases hc with rfl | rfl <;> cases dialect <;> simp [Dialect.quote]
    obtain ⟨_, rfl⟩ := quoteName_append_inj hquote (head?_ne_quote hrest) h
    rcases hc with rfl | rfl <;> rcases hrest with hrest | hrest <;> simp at hrest
  · intro h
    by_cases hstar : segment = ['*']
    · subst hstar
      exact absurd (List.cons.inj h).1 (by decide)
    · rw [quoteName_of_ne hstar] at h
      have hquote := (List.cons.inj h).1
      cases dialect <;> exact absurd hquote (by decide)

end

/-! ## References with an alias or an arrow -/

section

variable {dialect : Dialect} {tablePrefix : TablePrefix} {cs text : List Char} {fuel : Nat}
variable {aliasToo : Bool}

theorem pointless_of_tableless (h : Unmarked cs) (htable : tableOf? cs = none) : '.' ∉ cs := by
  intro hpoint
  obtain ⟨first, rest, rfl, hfirst⟩ := List.eq_append_cons_of_mem hpoint
  rw [tableOf?_eq_some_iff.2 ⟨rest, rfl, hfirst, h.of_append⟩] at htable
  exact nomatch htable

/-- A first segment with an alias or an arrow is no table. -/
theorem tableOf?_of_marked (hpoint : '.' ∉ cs) (hmarked : ¬Unmarked cs) (rest : List Char) :
    tableOf? (cs ++ '.' :: rest) = none := by
  cases htable : tableOf? (cs ++ '.' :: rest) with
  | none => rfl
  | some table => exact absurd ((tableOf?_point hpoint rest).1 htable).2 hmarked

private theorem arrowKeys_head {keys : List (List Char)} (h : keys ≠ []) :
    ∃ rest, arrowKeys keys = '-' :: rest := by
  match keys with
  | [] => exact absurd rfl h
  | [key] => exact ⟨_, rfl⟩
  | key :: second :: keys => exact ⟨_, rfl⟩

private theorem path_interrupted (halias : splitAlias? cs = none) (harrow : hasArrow cs = true)
    (htable : tableOf? cs = none) (h : wrapFrom dialect tablePrefix fuel aliasToo cs = .ok text) :
    Interrupted dialect text := by
  cases fuel with
  | zero => exact nomatch h
  | succ fuel =>
    obtain ⟨⟨field, path⟩, hcut⟩ := Option.isSome_iff_exists.1 harrow
    rw [wrapFrom_succ, halias, harrow] at h
    have hselector : wrapSelector dialect (wrapFrom dialect tablePrefix fuel false)
      (fun table => do wrapFrom dialect tablePrefix fuel true (← tablePrefix.before table)) cs =
        .ok text := h
    unfold wrapSelector at hselector
    cases dialect with
    | ansi => exact nomatch hselector
    | mysql =>
      obtain ⟨found, _, hout⟩ := bind_eq_ok hselector
      cases hout
      exact .inr ⟨_, rfl⟩
    | sqlite =>
      obtain ⟨found, _, hout⟩ := bind_eq_ok hselector
      cases hout
      exact .inr ⟨_, rfl⟩
    | postgres =>
      obtain ⟨hfield, hnone, hsame⟩ := field_plain halias hcut
      have hpoint : '.' ∉ field := pointless_of_tableless
        ⟨hasAlias_eq_false.2 hfield, hasArrow_eq_false.2 hnone⟩ (hsame.trans htable)
      obtain ⟨key, keys, hkeys⟩ := List.exists_cons_of_ne_nil (splitArrows_ne_nil path)
      obtain ⟨rest, hrest⟩ := arrowKeys_head (List.cons_ne_nil key keys)
      dsimp only at hselector
      rw [splitArrows_of_some hcut, hkeys] at hselector
      dsimp only at hselector
      rw [List.splitOn_eq_singleton hpoint, hrest] at hselector
      cases hselector
      exact .inl ⟨field, '-', rest, rfl, .inr rfl⟩

/-- A reference without a table that has an alias or an arrow is not quoted segment by segment. -/
theorem interrupted_of_marked (hmarked : ¬Unmarked cs) (htable : tableOf? cs = none)
    (h : wrapFrom dialect tablePrefix fuel aliasToo cs = .ok text) : Interrupted dialect text := by
  cases halias : splitAlias? cs with
  | none =>
    refine path_interrupted halias ?_ htable h
    cases harrow : hasArrow cs with
    | true => rfl
    | false => exact absurd ⟨hasAlias_eq_false.2 halias, harrow⟩ hmarked
  | some cut =>
    obtain ⟨name, given⟩ := cut
    cases fuel with
    | zero => exact nomatch h
    | succ fuel =>
      obtain ⟨wrapped, given', hwrapped, rfl⟩ := wrapFrom_alias halias h
      have hname := splitAlias?_before halias
      have hnameTable : tableOf? name = none := (parts_of_alias halias).2.2.trans htable
      cases harrow : hasArrow name with
      | true =>
        rw [List.append_assoc]
        exact (path_interrupted hname harrow hnameTable hwrapped).append _
      | false =>
        have hunmarked : Unmarked name := ⟨hasAlias_eq_false.2 hname, harrow⟩
        cases fuel with
        | zero => exact nomatch hwrapped
        | succ fuel =>
          rw [wrapFrom_single hunmarked (pointless_of_tableless hunmarked hnameTable)] at hwrapped
          cases hwrapped
          refine .inl ⟨name, ' ', ['a', 's', ' '] ++ quoteName dialect given', ?_, .inl rfl⟩
          rw [List.append_assoc]
          rfl

end

/-! ## The prefix once, and twice -/

/-- A text is the quoted segments of a table with the prefix before one of them. -/
def PrefixedOnce (dialect : Dialect) (p : List Char) (segments : List (List Char))
    (text : List Char) : Prop :=
  ∃ before table after, segments = before ++ table :: after ∧
    text = joinPoints ((before ++ (p ++ table) :: after).map (quoteName dialect))

section

variable {dialect : Dialect} {p table text : List Char} {rest : List (List Char)}

/-- The first segment has the prefix, or it is there as it was. -/
theorem PrefixedOnce.first (h : PrefixedOnce dialect p (table :: rest) text) :
    ∃ segment segments, text = joinPoints ((segment :: segments).map (quoteName dialect)) ∧
      (segment = p ++ table ∨ segment = table) := by
  obtain ⟨before, prefixed, after, hsegments, rfl⟩ := h
  cases before with
  | nil =>
    cases hsegments
    exact ⟨p ++ table, rest, rfl, .inl rfl⟩
  | cons first before =>
    cases hsegments
    exact ⟨table, before ++ (p ++ prefixed) :: after, rfl, .inr rfl⟩

theorem Interrupted.not_prefixedOnce (h : Interrupted dialect text) :
    ¬PrefixedOnce dialect p (table :: rest) text := by
  intro honce
  obtain ⟨segment, segments, htext, _⟩ := honce.first
  exact h.ne_joinPoints segment segments htext

/-- A first segment with the prefix before it twice does not have it once. -/
theorem not_prefixedOnce_of_twice (hp : p ≠ []) (segments : List (List Char)) :
    ¬PrefixedOnce dialect p (table :: rest)
      (joinPoints (((p ++ (p ++ table)) :: segments).map (quoteName dialect))) := by
  intro honce
  obtain ⟨segment, others, htext, hsegment⟩ := honce.first
  obtain ⟨after, hafter, hend⟩ := joinPoints_head dialect (p ++ (p ++ table)) segments
  obtain ⟨after', hafter', hend'⟩ := joinPoints_head dialect segment others
  rw [hafter, hafter'] at htext
  obtain ⟨hsame, _⟩ := quoteName_append_inj (head?_ne_quote hend) (head?_ne_quote hend') htext
  have hlength := congrArg List.length hsame
  have hpositive := List.length_pos_of_ne_nil hp
  rcases hsegment with rfl | rfl
  · simp only [List.length_append] at hlength
    omega
  · simp only [List.length_append] at hlength
    omega

/-- A prefix before a table of several segments is put before its first segment once more. -/
theorem wrap_dotted {second : List Char} {aliasToo : Bool} (hp : '.' ∉ p)
    (h : TableName (table :: second :: rest)) (hunmarked : Unmarked (p ++ table)) :
    wrap dialect (some p) aliasToo (p ++ joinPoints (table :: second :: rest)) =
      (wrap dialect (some p) true (p ++ (p ++ table))).map fun quoted =>
        joinPoints (quoted :: (second :: rest).map (quoteName dialect)) := by
  have hsegments : ∀ segment ∈ (p ++ table) :: second :: rest, '.' ∉ segment := by
    exact List.forall_mem_cons.2 ⟨h.not_mem_prefixed hp, fun segment hsegment =>
      h.pointless segment (List.mem_cons_of_mem table hsegment)⟩
  have hjoined : p ++ joinPoints (table :: second :: rest) =
      joinPoints ((p ++ table) :: second :: rest) := (List.append_assoc p table _).symm
  rw [hjoined]
  refine wrap_segments hp hsegments (unmarked_joinPoints ?_)
  exact List.forall_mem_cons.2 ⟨hunmarked, fun segment hsegment =>
    h.unmarked (List.mem_cons_of_mem table hsegment)⟩

end

end Name

/-! ## Tables of a grammar -/

namespace Grammar

open Name

variable {g : Grammar} {p : String} {segments : List (List Char)}

/-- The text of some characters. -/
def quotedText (cs : List Char) : Value :=
  .text (String.ofList cs)

/-- A table is quoted with the prefix once, and the same text stands before each of its columns. -/
def PrefixesOnce (g : Grammar) (p : String) (segments : List (List Char)) : Prop :=
  ∃ text, g.wrapTable (quotedText (joinPoints segments)) = .ok (quotedText text) ∧
    PrefixedOnce g.dialect p.toList segments text ∧
    ∀ column, '.' ∉ column → Unmarked column →
      g.wrap (quotedText (joinPoints segments ++ '.' :: column)) =
        .ok (quotedText (text ++ '.' :: quoteName g.dialect column))

theorem wrap_text (hp : g.tablePrefix = .text p) (cs : List Char) :
    g.wrap (quotedText cs) = (Name.wrap g.dialect (some p.toList) false cs).map quotedText := by
  show (g.wrapText false (String.ofList cs)).map Value.text = _
  rw [wrapText, namePrefix_of_text hp, String.toList_ofList]
  cases Name.wrap g.dialect (some p.toList) false cs <;> rfl

/-- A table is quoted as a reference with the prefix before it. -/
theorem wrapTable_text (hp : g.tablePrefix = .text p) (cs : List Char) :
    g.wrapTable (quotedText cs) =
      (Name.wrap g.dialect (some p.toList) true (p.toList ++ cs)).map quotedText := by
  have hprefixed : g.wrapTable (quotedText cs) =
      (g.wrapText true (p ++ String.ofList cs)).map Value.text := by
    show (do g.wrapAs true (← g.tablePrefix.plus _)) = _
    rw [hp]
    rfl
  rw [hprefixed, wrapText, namePrefix_of_text hp, String.toList_append, String.toList_ofList]
  cases Name.wrap g.dialect (some p.toList) true (p.toList ++ cs) <;> rfl

section

variable {table : List Char} {rest : List (List Char)}

/-- Before a column its table has the prefix once, however many segments there are. -/
theorem wrap_column {column : List Char} (hp : g.tablePrefix = .text p) (hdot : '.' ∉ p.toList)
    (h : TableName (table :: rest)) (hplain : Unmarked (p.toList ++ table)) (hcolumn : '.' ∉ column)
    (hunmarked : Unmarked column) :
    g.wrap (quotedText (joinPoints (table :: rest) ++ '.' :: column)) =
      .ok (quotedText (joinPoints (((p.toList ++ table) :: rest).map (quoteName g.dialect)) ++
        '.' :: quoteName g.dialect column)) := by
  obtain ⟨second, others, hothers⟩ : ∃ second others, rest ++ [column] = second :: others :=
    List.exists_cons_of_ne_nil (List.append_ne_nil_of_right_ne_nil rest (List.cons_ne_nil _ _))
  have hall : ∀ segment ∈ table :: second :: others, '.' ∉ segment ∧ Unmarked segment := by
    rw [← hothers, ← List.cons_append]
    refine List.forall_mem_append.2 ⟨fun segment hsegment => ?_, ?_⟩
    · exact ⟨h.pointless segment hsegment, h.unmarked hsegment⟩
    · exact List.forall_mem_singleton.2 ⟨hcolumn, hunmarked⟩
  have hprefixed : '.' ∉ p.toList ++ table := h.not_mem_prefixed hdot
  have htable : Name.wrap g.dialect (some p.toList) true (p.toList ++ table) =
      .ok (quoteName g.dialect (p.toList ++ table)) := wrapFrom_single hplain hprefixed
  rw [wrap_text hp, ← joinPoints_concat (List.cons_ne_nil _ _), List.cons_append, hothers,
    wrap_segments hdot (fun segment hsegment => (hall segment hsegment).1)
      (unmarked_joinPoints fun segment hsegment => (hall segment hsegment).2), htable]
  show Except.ok (quotedText (joinPoints (quoteName g.dialect (p.toList ++ table) ::
    (second :: others).map (quoteName g.dialect)))) = _
  rw [← hothers, List.map_append, List.map_singleton, ← List.cons_append,
    joinPoints_concat (List.cons_ne_nil _ _)]
  rfl

/-- A table of several segments gets the prefix twice. -/
theorem wrapTable_dotted {second : List Char} (hp : g.tablePrefix = .text p) (hdot : '.' ∉ p.toList)
    (h : TableName (table :: second :: rest))
    (htwice : Unmarked (p.toList ++ (p.toList ++ table))) :
    g.wrapTable (quotedText (joinPoints (table :: second :: rest))) =
      .ok (quotedText (joinPoints (((p.toList ++ (p.toList ++ table)) :: second :: rest).map
        (quoteName g.dialect)))) := by
  have hpoint : '.' ∉ p.toList ++ (p.toList ++ table) := by
    rw [List.mem_append]
    exact fun hmem => hmem.elim hdot (h.not_mem_prefixed hdot)
  have hquoted : Name.wrap g.dialect (some p.toList) true (p.toList ++ (p.toList ++ table)) =
      .ok (quoteName g.dialect (p.toList ++ (p.toList ++ table))) := wrapFrom_single htwice hpoint
  rw [wrapTable_text hp, wrap_dotted hdot h htwice.of_append_right, hquoted]
  rfl

/-- The text of a table that is quoted with the prefix once. -/
theorem PrefixesOnce.exists_text (hp : g.tablePrefix = .text p) (h : g.PrefixesOnce p segments) :
    ∃ text, Name.wrap g.dialect (some p.toList) true (p.toList ++ joinPoints segments) = .ok text ∧
      PrefixedOnce g.dialect p.toList segments text := by
  obtain ⟨text, htext, honce, _⟩ := h
  rw [wrapTable_text hp] at htext
  obtain ⟨quoted, hquoted, heq⟩ := map_eq_ok htext
  have hsame : text = quoted := by
    have htexts := congrArg String.toList (Value.text.inj heq)
    rwa [String.toList_ofList, String.toList_ofList] at htexts
  exact ⟨text, hsame ▸ hquoted, honce⟩

/-- With an alias or an arrow in the prefix, or between it and the table, the text is another
one. -/
theorem not_prefixesOnce_of_marked (hp : g.tablePrefix = .text p) (hdot : '.' ∉ p.toList)
    (h : TableName (table :: rest)) (hmarked : ¬Unmarked (p.toList ++ table)) :
    ¬g.PrefixesOnce p (table :: rest) := by
  intro honce
  obtain ⟨text, hquoted, htext⟩ := honce.exists_text hp
  have hpoint : '.' ∉ p.toList ++ table := h.not_mem_prefixed hdot
  obtain ⟨after, hafter⟩ : ∃ after, p.toList ++ joinPoints (table :: rest) =
      p.toList ++ table ++ after ∧ tableOf? (p.toList ++ table ++ after) = none := by
    cases rest with
    | nil => exact ⟨[], (List.append_nil _).symm, by
        rw [List.append_nil, tableOf?_of_dotless hpoint]⟩
    | cons second rest =>
      refine ⟨'.' :: joinPoints (second :: rest), (List.append_assoc _ _ _).symm, ?_⟩
      exact tableOf?_of_marked hpoint hmarked _
  rw [hafter.1] at hquoted
  have hinterrupted := interrupted_of_marked (fun hall => hmarked hall.of_append) hafter.2 hquoted
  exact hinterrupted.not_prefixedOnce htext

/-- A table of several segments does not get a prefix once that is not empty. -/
theorem not_prefixesOnce_of_dotted {second : List Char} (hp : g.tablePrefix = .text p)
    (hdot : '.' ∉ p.toList) (h : TableName (table :: second :: rest)) (hne : p ≠ "") :
    ¬g.PrefixesOnce p (table :: second :: rest) := by
  intro honce
  by_cases hmarked : Unmarked (p.toList ++ table)
  · obtain ⟨text, hquoted, htext⟩ := honce.exists_text hp
    rw [wrap_dotted hdot h hmarked] at hquoted
    obtain ⟨first, hfirst, rfl⟩ := map_eq_ok hquoted
    have hpoint : '.' ∉ p.toList ++ (p.toList ++ table) := by
      rw [List.mem_append]
      exact fun hmem => hmem.elim hdot (h.not_mem_prefixed hdot)
    by_cases htwice : Unmarked (p.toList ++ (p.toList ++ table))
    · have hcons : p.toList ≠ [] := fun hnil => hne (String.toList_eq_nil_iff.1 hnil)
      have hsingle : Name.wrap g.dialect (some p.toList) true (p.toList ++ (p.toList ++ table)) =
          .ok (quoteName g.dialect (p.toList ++ (p.toList ++ table))) :=
        wrapFrom_single htwice hpoint
      cases hsingle.symm.trans hfirst
      exact not_prefixedOnce_of_twice hcons (second :: rest) htext
    · have hinterrupted := interrupted_of_marked htwice (tableOf?_of_dotless hpoint) hfirst
      exact (hinterrupted.append _).not_prefixedOnce htext
  · exact not_prefixesOnce_of_marked hp hdot h hmarked honce

end

/-- Under a prefix without points the prefix is put before a table just once, and the same text
stands before its columns, exactly if the prefix is empty, or if the table is a single segment and
makes no alias and no arrow together with the prefix.  Otherwise a table of several segments gets
the prefix twice, while before a column it has the prefix once. -/
theorem wrapTable_prefixes_once_iff (hp : g.tablePrefix = .text p) (hdot : '.' ∉ p.toList)
    (h : TableName segments) :
    (g.PrefixesOnce p segments ↔
      p = "" ∨ ∃ table, segments = [table] ∧ Unmarked (p.toList ++ table)) ∧
    ∀ table rest, segments = table :: rest →
      (rest ≠ [] → Unmarked (p.toList ++ (p.toList ++ table)) →
        g.wrapTable (quotedText (joinPoints segments)) = .ok (quotedText
          (joinPoints (((p.toList ++ (p.toList ++ table)) :: rest).map (quoteName g.dialect))))) ∧
      (Unmarked (p.toList ++ table) → ∀ column, '.' ∉ column → Unmarked column →
        g.wrap (quotedText (joinPoints segments ++ '.' :: column)) = .ok (quotedText
          (joinPoints (((p.toList ++ table) :: rest).map (quoteName g.dialect)) ++
            '.' :: quoteName g.dialect column))) := by
  obtain ⟨table, rest, rfl⟩ := List.exists_cons_of_ne_nil h.segmented
  refine ⟨⟨fun honce => ?_, fun hcase => ?_⟩, ?_⟩
  · by_cases hne : p = ""
    · exact .inl hne
    · cases rest with
      | nil =>
        refine .inr ⟨table, rfl, ?_⟩
        by_contra hmarked
        exact not_prefixesOnce_of_marked hp hdot h hmarked honce
      | cons second rest => exact absurd honce (not_prefixesOnce_of_dotted hp hdot h hne)
  · have hplain : Unmarked (p.toList ++ table) := by
      rcases hcase with rfl | ⟨_, hsingle, hunmarked⟩
      · exact h.unmarked List.mem_cons_self
      · cases hsingle
        exact hunmarked
    refine ⟨joinPoints (((p.toList ++ table) :: rest).map (quoteName g.dialect)), ?_,
      ⟨[], table, rest, rfl, rfl⟩, fun column hcolumn hunmarked =>
        wrap_column hp hdot h hplain hcolumn hunmarked⟩
    cases rest with
    | nil =>
      have hpoint : '.' ∉ p.toList ++ table := h.not_mem_prefixed hdot
      have hsingle : Name.wrap g.dialect (some p.toList) true (p.toList ++ table) =
          .ok (quoteName g.dialect (p.toList ++ table)) := wrapFrom_single hplain hpoint
      rw [wrapTable_text hp]
      show (Name.wrap g.dialect (some p.toList) true (p.toList ++ table)).map quotedText = _
      rw [hsingle]
      rfl
    | cons second rest =>
      rcases hcase with rfl | ⟨_, hsingle, _⟩
      · exact wrapTable_dotted hp hdot h hplain
      · exact nomatch hsingle
  · rintro _ _ ⟨rfl, rfl⟩
    refine ⟨fun hrest htwice => ?_, fun hplain column hcolumn hunmarked =>
      wrap_column hp hdot h hplain hcolumn hunmarked⟩
    obtain ⟨second, rest, rfl⟩ := List.exists_cons_of_ne_nil hrest
    exact wrapTable_dotted hp hdot h htwice

/-- A table of one segment and a table of two, under a prefix. -/
theorem wrapTable_prefixes_once_iff_users :
    PrefixesOnce { dialect := .mysql, tablePrefix := .text "p_" } "p_" ["users".toList] ∧
      wrapTable { dialect := .mysql, tablePrefix := .text "p_" } (.text "app.users") =
        .ok (.text "\x60p_p_app\x60.\x60users\x60") := by
  have hone : TableName ["users".toList] := by decide
  have htwo : TableName ["app".toList, "users".toList] := by decide
  have hplain : Unmarked ("p_".toList ++ "users".toList) := ⟨by decide +kernel, by decide⟩
  have htwice : Unmarked ("p_".toList ++ ("p_".toList ++ "app".toList)) :=
    ⟨by decide +kernel, by decide⟩
  have hprefix : ({ dialect := .mysql, tablePrefix := .text "p_" } : Grammar).tablePrefix =
      .text "p_" := rfl
  refine ⟨(wrapTable_prefixes_once_iff hprefix (by decide) hone).1.2 (.inr ⟨_, rfl, hplain⟩), ?_⟩
  exact ((wrapTable_prefixes_once_iff hprefix (by decide) htwo).2 _ _ rfl).1 (List.cons_ne_nil _ _)
    htwice

/-- A table of two segments gets the prefix twice, and not once. -/
theorem wrapTable_prefixes_twice :
    wrapTable { dialect := .ansi, tablePrefix := .text "p_" } (.text "a.b") =
        .ok (.text "\"p_p_a\".\"b\"") ∧
      ¬PrefixedOnce .ansi "p_".toList ["a".toList, "b".toList] "\"p_p_a\".\"b\"".toList := by
  have htable : TableName ["a".toList, "b".toList] := by decide
  have htwice : Unmarked ("p_".toList ++ ("p_".toList ++ "a".toList)) :=
    ⟨by decide +kernel, by decide⟩
  refine ⟨wrapTable_dotted rfl (by decide) htable htwice, ?_⟩
  exact not_prefixedOnce_of_twice (by decide) ["b".toList]

end Grammar

end FluentSql
