import FluentSql.Proofs.Naming.Points
import FluentSql.Proofs.Parallel.Basic

/-!
# Prefixes that quoting does not get past

The table of a column is quoted with the prefix before it, and what then stands
there is quoted as a reference again.  If the prefix has a table itself, as
that of a schema has, the new reference has a table again, and it is the same
one each time.

* `wrapFrom_deeper` says that more steps than are needed change nothing, so
  what is quoted in some steps is what is quoted in any larger number.
* `wrapFrom_table_error` passes a failure on from the table of a reference.
* `Circles` are the references for which quoting has no end, and
  `wrapFrom_circles` and `endsAfter_of_not_circles` are the two sides.
* `Grammar.wrap_ends_iff` says so of columns and tables of a grammar.
-/

namespace FluentSql

namespace Name

/-! ## More steps -/

section

variable {lax : Prop} {dialect : Dialect}
  {wrap wrap' table table' : List Char → Except Failure (List Char)}

theorem wrapSegments_alike (h : ∀ cs, Alike lax Eq (table cs) (table' cs))
    (segments : List (List Char)) :
    Alike lax Eq (wrapSegments dialect table segments) (wrapSegments dialect table' segments) := by
  unfold wrapSegments
  split
  · exact (h _).bind fun _ _ heq => heq ▸ .ok rfl
  · exact .ok rfl

theorem fieldAndPath_alike (h : ∀ cs, Alike lax Eq (wrap cs) (wrap' cs)) (cs : List Char) :
    Alike lax Eq (fieldAndPath wrap cs) (fieldAndPath wrap' cs) := by
  unfold fieldAndPath
  split
  · exact (h _).bind fun _ _ heq => heq ▸ .ok rfl
  · exact (h _).bind fun _ _ heq => heq ▸ .ok rfl

theorem wrapSelector_alike (h : ∀ cs, Alike lax Eq (wrap cs) (wrap' cs))
    (htable : ∀ cs, Alike lax Eq (table cs) (table' cs)) (cs : List Char) :
    Alike lax Eq (wrapSelector dialect wrap table cs) (wrapSelector dialect wrap' table' cs) := by
  unfold wrapSelector
  cases dialect with
  | ansi => exact .error _
  | mysql => exact (fieldAndPath_alike h cs).bind fun _ _ heq => heq ▸ .ok rfl
  | sqlite => exact (fieldAndPath_alike h cs).bind fun _ _ heq => heq ▸ .ok rfl
  | postgres =>
    dsimp only
    split
    · exact (wrapSegments_alike htable _).bind fun _ _ heq => heq ▸ .ok rfl
    · exact (wrapSegments_alike htable _).bind fun _ _ _ => .error _

end

section

variable {dialect : Dialect} {p : List Char} {aliasToo : Bool} {cs table : List Char}

/-- With more steps the text is the same, and so is every failure but to run out of steps. -/
theorem wrapFrom_deeper (dialect : Dialect) (tablePrefix : TablePrefix) {fuel fuel' : Nat}
    (hfuel : fuel ≤ fuel') (aliasToo : Bool) (cs : List Char) :
    Alike True Eq (wrapFrom dialect tablePrefix fuel aliasToo cs)
      (wrapFrom dialect tablePrefix fuel' aliasToo cs) := by
  induction fuel generalizing fuel' aliasToo cs with
  | zero => exact .endless trivial _
  | succ fuel ih =>
    obtain ⟨fuel', rfl⟩ : ∃ m, fuel' = m + 1 := ⟨fuel' - 1, by omega⟩
    have hinner : ∀ aliasToo cs, Alike True Eq (wrapFrom dialect tablePrefix fuel aliasToo cs)
        (wrapFrom dialect tablePrefix fuel' aliasToo cs) :=
      fun aliasToo cs => ih (by omega) aliasToo cs
    have htable : ∀ table, Alike True Eq
        (do wrapFrom dialect tablePrefix fuel true (← tablePrefix.before table))
        (do wrapFrom dialect tablePrefix fuel' true (← tablePrefix.before table)) := by
      intro table
      cases tablePrefix.before table with
      | error e => exact .error e
      | ok prefixed => exact hinner true prefixed
    rw [wrapFrom_succ, wrapFrom_succ]
    split
    · rename_i name given _
      have hnamed : ∀ given, Alike True Eq
          (do return (← wrapFrom dialect tablePrefix fuel false name) ++ " as ".toList ++
            quoteName dialect given)
          (do return (← wrapFrom dialect tablePrefix fuel' false name) ++ " as ".toList ++
            quoteName dialect given) :=
        fun _ => (hinner false name).bind fun _ _ heq => heq ▸ .ok rfl
      cases aliasToo with
      | false => exact hnamed given
      | true =>
        show Alike True Eq (tablePrefix.before given >>= _) (tablePrefix.before given >>= _)
        cases tablePrefix.before given with
        | error e => exact .error e
        | ok prefixed => exact hnamed prefixed
    · split
      · exact wrapSelector_alike (hinner false) htable cs
      · exact wrapSegments_alike htable _

/-- What is quoted in some steps is quoted in more of them. -/
theorem wrapFrom_of_ok {tablePrefix : TablePrefix} {fuel fuel' : Nat} {out : List Char}
    (h : wrapFrom dialect tablePrefix fuel aliasToo cs = .ok out) (hfuel : fuel ≤ fuel') :
    wrapFrom dialect tablePrefix fuel' aliasToo cs = .ok out := by
  have hdeeper := wrapFrom_deeper dialect tablePrefix hfuel aliasToo cs
  rw [h] at hdeeper
  obtain ⟨_, hout, rfl⟩ := hdeeper.of_ok
  exact hout

/-! ## Failures of the table -/

private theorem unmarked_error {e : Failure} {fuel : Nat} (h : Unmarked cs)
    (htable : tableOf? cs = some table)
    (herror : wrapFrom dialect (some p) fuel true (p ++ table) = .error e) :
    wrapFrom dialect (some p) (fuel + 1) aliasToo cs = .error e := by
  obtain ⟨rest, rfl, hpoint, _⟩ := tableOf?_eq_some_iff.1 htable
  obtain ⟨second, others, hsplit⟩ := List.exists_cons_of_ne_nil (List.splitOn_ne_nil '.' rest)
  rw [wrapFrom_succ, h.noAlias, h.arrow, List.splitOn_append_cons_self_of_not_mem hpoint, hsplit]
  show (wrapFrom dialect (some p) fuel true (p ++ table) >>= _) = _
  rw [herror]
  rfl

private theorem unaliased_error {e : Failure} {fuel : Nat} (halias : splitAlias? cs = none)
    (hansi : dialect = .ansi → hasArrow cs = false) (htable : tableOf? cs = some table)
    (hsmall : fuel = 0 → e = .value .endless)
    (herror : ∀ m, fuel ≤ m + 1 → m ≤ fuel →
      wrapFrom dialect (some p) m true (p ++ table) = .error e) :
    wrapFrom dialect (some p) (fuel + 1) aliasToo cs = .error e := by
  cases harrow : splitArrow? cs with
  | none =>
    exact unmarked_error ⟨hasAlias_eq_false.2 halias, hasArrow_eq_false.2 harrow⟩ htable
      (herror fuel (by omega) (by omega))
  | some cut =>
    obtain ⟨field, path⟩ := cut
    obtain ⟨hfield, hnone, hsame⟩ := field_plain halias harrow
    have hunmarked : Unmarked field := ⟨hasAlias_eq_false.2 hfield, hasArrow_eq_false.2 hnone⟩
    have hsome : hasArrow cs = true := by rw [hasArrow, harrow]; rfl
    -- The column of the path takes one more step, for which there may be none left.
    have hcolumn : fieldAndPath (wrapFrom dialect (some p) fuel false) cs = .error e := by
      have hwrapped : wrapFrom dialect (some p) fuel false field = .error e := by
        cases fuel with
        | zero => exact congrArg Except.error (hsmall rfl).symm
        | succ fuel =>
          exact unmarked_error hunmarked (hsame.trans htable) (herror fuel (by omega) (by omega))
      rw [fieldAndPath, harrow]
      show (wrapFrom dialect (some p) fuel false field >>= _) = _
      rw [hwrapped]
      rfl
    rw [wrapFrom_succ, halias, hsome]
    show wrapSelector dialect _ _ cs = .error e
    unfold wrapSelector
    cases dialect with
    | ansi => exact absurd hsome (Bool.eq_false_iff.1 (hansi rfl))
    | mysql => dsimp only; rw [hcolumn]; rfl
    | sqlite => dsimp only; rw [hcolumn]; rfl
    | postgres =>
      obtain ⟨rest, hrest, hpoint, _⟩ := tableOf?_eq_some_iff.1 (hsame.trans htable)
      obtain ⟨second, others, hsplit⟩ := List.exists_cons_of_ne_nil (List.splitOn_ne_nil '.' rest)
      obtain ⟨key, keys, hkeys⟩ := List.exists_cons_of_ne_nil (splitArrows_ne_nil path)
      dsimp only
      rw [splitArrows_of_some harrow, hkeys]
      dsimp only
      rw [hrest, List.splitOn_append_cons_self_of_not_mem hpoint, hsplit]
      show (wrapFrom .postgres (some p) fuel true (p ++ table) >>= _) >>= _ = _
      rw [herror fuel (by omega) (by omega)]
      rfl

/-- A failure to quote the table of a reference, with its prefix, is one to quote the reference. -/
theorem wrapFrom_table_error {e : Failure} {fuel : Nat}
    (hansi : dialect = .ansi → hasArrow (baseOf cs) = false) (htable : tableOf? cs = some table)
    (hsmall : fuel < 3 → e = .value .endless)
    (herror : ∀ m, fuel ≤ m + 3 → m < fuel →
      wrapFrom dialect (some p) m true (p ++ table) = .error e) :
    wrapFrom dialect (some p) fuel aliasToo cs = .error e := by
  cases fuel with
  | zero => exact congrArg Except.error (hsmall (by omega)).symm
  | succ fuel =>
    cases halias : splitAlias? cs with
    | none =>
      rw [baseOf_of_none halias] at hansi
      exact unaliased_error halias hansi htable (fun h => hsmall (by omega))
        fun m hm hm' => herror m (by omega) (by omega)
    | some cut =>
      obtain ⟨name, given⟩ := cut
      rw [baseOf_of_some halias] at hansi
      obtain ⟨_, _, hsame⟩ := parts_of_alias halias
      have hname : wrapFrom dialect (some p) fuel false name = .error e := by
        cases fuel with
        | zero => exact congrArg Except.error (hsmall (by omega)).symm
        | succ fuel =>
          exact unaliased_error (splitAlias?_before halias) hansi (hsame.trans htable)
            (fun h => hsmall (by omega)) fun m hm hm' => herror m (by omega) (by omega)
      rw [wrapFrom_succ, halias]
      dsimp only
      rw [hname]
      cases aliasToo <;> rfl

/-! ## References that circle -/

/-- Quoting a reference goes round: it has a table, and so has the prefix.  In a dialect without
paths none is met on the way. -/
def Circles (dialect : Dialect) (p cs : List Char) : Prop :=
  ∃ table schema, tableOf? cs = some table ∧ tableOf? p = some schema ∧
    (dialect = .ansi → hasArrow (baseOf cs) = false ∧ hasArrow (baseOf (p ++ table)) = false ∧
      hasArrow (baseOf (p ++ schema)) = false)

/-- The table of the prefix, with the prefix before it, is quoted for ever. -/
private theorem schema_circles {schema : List Char} (hschema : tableOf? p = some schema)
    (hansi : dialect = .ansi → hasArrow (baseOf (p ++ schema)) = false) (fuel : Nat)
    (aliasToo : Bool) :
    wrapFrom dialect (some p) fuel aliasToo (p ++ schema) = .error (.value .endless) := by
  induction fuel using Nat.strongRecOn generalizing aliasToo with
  | ind fuel ih =>
    have htable : tableOf? (p ++ schema) = some schema :=
      (tableOf?_prefixed p hschema).trans hschema
    exact wrapFrom_table_error hansi htable (fun _ => rfl) fun m _ hm => ih m hm true

/-- A reference that circles is quoted for ever, whatever number of steps there may be. -/
theorem wrapFrom_circles (h : Circles dialect p cs) (fuel : Nat) (aliasToo : Bool) :
    wrapFrom dialect (some p) fuel aliasToo cs = .error (.value .endless) := by
  obtain ⟨table, schema, htable, hschema, hansi⟩ := h
  refine wrapFrom_table_error (fun hd => (hansi hd).1) htable (fun _ => rfl) fun m _ _ => ?_
  refine wrapFrom_table_error (fun hd => (hansi hd).2.1)
    ((tableOf?_prefixed p htable).trans hschema) (fun _ => rfl) fun m' _ _ => ?_
  exact schema_circles hschema (fun hd => (hansi hd).2.2) m' true

/-! ## References that end -/

/-- Quoting a reference ends: more than `n` steps all give the same text, or all say that a dialect
has no paths. -/
def EndsAfter (dialect : Dialect) (p : List Char) (n : Nat) (aliasToo : Bool) (cs : List Char) :
    Prop :=
  ∃ result, (∀ fuel, n < fuel → wrapFrom dialect (some p) fuel aliasToo cs = result) ∧
    ((∃ out, result = .ok out) ∨ dialect = .ansi ∧ result = .error (.unsupported .json))

namespace EndsAfter

variable {n : Nat}

theorem mono {n' : Nat} (h : EndsAfter dialect p n aliasToo cs) (hn : n ≤ n') :
    EndsAfter dialect p n' aliasToo cs := by
  obtain ⟨result, hsteps, hresult⟩ := h
  exact ⟨result, fun fuel hfuel => hsteps fuel (by omega), hresult⟩

theorem of_ok (h : ∀ fuel, n < fuel → ∃ out, wrapFrom dialect (some p) fuel aliasToo cs = .ok out) :
    EndsAfter dialect p n aliasToo cs := by
  obtain ⟨out, hout⟩ := h (n + 1) (by omega)
  exact ⟨.ok out, fun fuel hfuel => wrapFrom_of_ok hout hfuel, .inl ⟨out, rfl⟩⟩

theorem of_path (h : hasArrow (baseOf cs) = true) : EndsAfter .ansi p 1 aliasToo cs :=
  ⟨_, fun fuel hfuel => wrapFrom_path fuel aliasToo h hfuel, .inr ⟨rfl, rfl⟩⟩

/-- A reference takes three steps beyond those of its table. -/
theorem of_table (hansi : dialect = .ansi → hasArrow (baseOf cs) = false)
    (htable : tableOf? cs = some table) (h : EndsAfter dialect p n true (p ++ table)) :
    EndsAfter dialect p (n + 3) aliasToo cs := by
  obtain ⟨result, hsteps, hresult⟩ := h
  rcases hresult with ⟨out, rfl⟩ | ⟨hd, rfl⟩
  · refine of_ok fun fuel hfuel => wrapFrom_isOk (n := n + 1) fuel aliasToo hansi ?_ (by omega)
    intro table' m htable' hm
    cases htable.symm.trans htable'
    exact ⟨out, hsteps m hm⟩
  · refine ⟨_, fun fuel hfuel => ?_, .inr ⟨hd, rfl⟩⟩
    exact wrapFrom_table_error hansi htable (fun h => by omega) fun m hm _ => hsteps m (by omega)

/-- A reference without a table takes three steps. -/
theorem of_tableless (h : tableOf? cs = none) : EndsAfter dialect p 2 aliasToo cs := by
  by_cases hpath : dialect = .ansi ∧ hasArrow (baseOf cs) = true
  · obtain ⟨rfl, harrow⟩ := hpath
    exact (of_path harrow).mono (by omega)
  · have hansi : dialect = .ansi → hasArrow (baseOf cs) = false :=
      fun hd => Bool.eq_false_iff.2 fun harrow => hpath ⟨hd, harrow⟩
    refine of_ok fun fuel hfuel => wrapFrom_isOk (n := 0) fuel aliasToo hansi ?_ (by omega)
    intro table m htable
    rw [h] at htable
    exact nomatch htable

end EndsAfter

/-- A reference that does not circle is quoted in eight steps, or is not supported.  The cases are
where a dialect without paths meets a path: in the reference, in its table or in that of the
prefix. -/
theorem endsAfter_of_not_circles (aliasToo : Bool) (h : ¬Circles dialect p cs) :
    EndsAfter dialect p 7 aliasToo cs := by
  cases htable : tableOf? cs with
  | none => exact (EndsAfter.of_tableless htable).mono (by omega)
  | some table =>
    by_cases hpath : dialect = .ansi ∧ hasArrow (baseOf cs) = true
    · obtain ⟨rfl, harrow⟩ := hpath
      exact (EndsAfter.of_path harrow).mono (by omega)
    have hansi : dialect = .ansi → hasArrow (baseOf cs) = false :=
      fun hd => Bool.eq_false_iff.2 fun harrow => hpath ⟨hd, harrow⟩
    have hprefixed := tableOf?_prefixed p htable
    cases hschema : tableOf? p with
    | none =>
      have hinner : EndsAfter dialect p 2 true (p ++ table) :=
        .of_tableless (hprefixed.trans hschema)
      exact (hinner.of_table hansi htable).mono (by omega)
    | some schema =>
      by_cases htablePath : dialect = .ansi ∧ hasArrow (baseOf (p ++ table)) = true
      · obtain ⟨rfl, harrow⟩ := htablePath
        exact ((EndsAfter.of_path harrow).of_table hansi htable).mono (by omega)
      have htableAnsi : dialect = .ansi → hasArrow (baseOf (p ++ table)) = false :=
        fun hd => Bool.eq_false_iff.2 fun harrow => htablePath ⟨hd, harrow⟩
      by_cases hschemaPath : dialect = .ansi ∧ hasArrow (baseOf (p ++ schema)) = true
      · obtain ⟨rfl, harrow⟩ := hschemaPath
        have hschemaPath : EndsAfter .ansi p 1 true (p ++ schema) := .of_path harrow
        have hinner : EndsAfter .ansi p 4 true (p ++ table) :=
          hschemaPath.of_table htableAnsi (hprefixed.trans hschema)
        exact hinner.of_table hansi htable
      · refine absurd ⟨table, schema, htable, hschema, fun hd => ⟨hansi hd, htableAnsi hd, ?_⟩⟩ h
        exact Bool.eq_false_iff.2 fun harrow => hschemaPath ⟨hd, harrow⟩

end

end Name

/-! ## Columns and tables of a grammar -/

namespace Grammar

open Name

/-- Quoting ended as it is meant to: with a text, or because a dialect lacks a construct. -/
def Quotes (result : Except Failure Value) : Prop :=
  (∃ out, result = .ok (.text out)) ∨ ∃ feature, result = .error (.unsupported feature)

variable {g : Grammar} {p : String}

theorem namePrefix_of_text (hp : g.tablePrefix = .text p) : g.namePrefix = some p.toList := by
  rw [namePrefix, hp]
  rfl

private theorem quotes_iff (hp : g.tablePrefix = .text p) (aliasToo : Bool) (s : String) :
    Quotes ((g.wrapText aliasToo s).map .text) ↔ ¬Circles g.dialect p.toList s.toList := by
  rw [wrapText, namePrefix_of_text hp, Name.wrap]
  by_cases hcircles : Circles g.dialect p.toList s.toList
  · rw [wrapFrom_circles hcircles]
    refine iff_of_false ?_ (not_not_intro hcircles)
    rintro (⟨out, h⟩ | ⟨feature, h⟩)
    · cases h
    · cases h
  · refine iff_of_true ?_ hcircles
    obtain ⟨result, hsteps, hresult⟩ := endsAfter_of_not_circles aliasToo hcircles
    rw [hsteps wrapFuel (by decide)]
    rcases hresult with ⟨out, rfl⟩ | ⟨_, rfl⟩
    · exact .inl ⟨String.ofList out, rfl⟩
    · exact .inr ⟨.json, rfl⟩

/-- Columns and tables are quoted, or not supported, unless they circle.  For those that do, quoting
has no end; for all others the result is that of any larger number of steps. -/
theorem wrap_ends_iff (hp : g.tablePrefix = .text p) (s : String) :
    (Quotes (g.wrap (.text s)) ↔ ¬Circles g.dialect p.toList s.toList) ∧
    (Quotes (g.wrapTable (.text s)) ↔ ¬Circles g.dialect p.toList (p ++ s).toList) ∧
    ∀ cs aliasToo,
      (Circles g.dialect p.toList cs → ∀ steps,
        wrapFrom g.dialect g.namePrefix steps aliasToo cs = .error (.value .endless)) ∧
      (¬Circles g.dialect p.toList cs → ∀ steps, wrapFuel ≤ steps →
        wrapFrom g.dialect g.namePrefix steps aliasToo cs =
          Name.wrap g.dialect g.namePrefix aliasToo cs) := by
  refine ⟨quotes_iff hp false s, ?_, fun cs aliasToo => ?_⟩
  · have htable : g.wrapTable (.text s) = (g.wrapText true (p ++ s)).map .text := by
      show (do g.wrapAs true (← g.tablePrefix.plus (.text s))) = _
      rw [hp]
      rfl
    rw [htable]
    exact quotes_iff hp true (p ++ s)
  · rw [namePrefix_of_text hp]
    refine ⟨fun hcircles steps => wrapFrom_circles hcircles steps aliasToo,
      fun h steps hsteps => ?_⟩
    obtain ⟨result, hresult, _⟩ := endsAfter_of_not_circles aliasToo h
    have hfuel : 7 < wrapFuel := by decide
    rw [Name.wrap, hresult steps (by omega), hresult wrapFuel hfuel]

/-- Under the prefix of a schema a column is quoted on its own, and not with its table. -/
theorem wrap_ends_iff_schema :
    Quotes (wrap { dialect := .sqlite, tablePrefix := .text "app." } (.text "name")) ∧
      ¬Quotes (wrap { dialect := .sqlite, tablePrefix := .text "app." } (.text "users.name")) := by
  have hcolumn : tableOf? "name".toList = none := by decide +kernel
  have htable : tableOf? "users.name".toList = some "users".toList := by decide +kernel
  have hschema : tableOf? "app.".toList = some "app".toList := by decide +kernel
  have hprefix : ({ dialect := .sqlite, tablePrefix := .text "app." } : Grammar).tablePrefix =
      .text "app." := rfl
  refine ⟨(wrap_ends_iff hprefix "name").1.2 ?_, fun h => ?_⟩
  · rintro ⟨table, _, h, _⟩
    exact nomatch hcolumn.symm.trans h
  · exact (wrap_ends_iff hprefix "users.name").1.1 h ⟨_, _, htable, hschema, nofun⟩

/-- No number of steps is enough to quote a table under the prefix of a schema. -/
theorem wrapTable_schema_endless :
    wrapTable { dialect := .ansi, tablePrefix := .text "app." } (.text "users") =
        .error (.value .endless) ∧
      ∀ steps aliasToo, wrapFrom .ansi (some "app.".toList) steps aliasToo "app.users".toList =
        .error (.value .endless) := by
  have hcircles : Circles .ansi "app.".toList "app.users".toList :=
    ⟨"app".toList, "app".toList, by decide +kernel, by decide +kernel, by decide +kernel⟩
  refine ⟨?_, wrapFrom_circles hcircles⟩
  have hwrapped := wrapFrom_circles hcircles wrapFuel true
  show (Except.map String.ofList (wrapFrom .ansi (some "app.".toList) wrapFuel true
    "app.users".toList)).map Value.text = _
  rw [hwrapped]
  rfl

end Grammar

end FluentSql
