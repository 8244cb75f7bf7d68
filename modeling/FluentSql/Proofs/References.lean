import FluentSql.Grammar.Basic
import FluentSql.Proofs.Quoting

/-!
# Wrapped references

A reference is a column or a table with points, perhaps an alias, perhaps a
path into a JSON column.  `Name.wrapFrom` takes it apart and quotes the parts.
This module says which references it quotes without fault.

There are four groups.

* The parts of a reference: `baseOf` is what stands before the alias,
  `fieldOf` the column before the first arrow, `keysOf` the keys after it and
  `tableOf?` the table before the column.
* Cutting.  What stands before the first separator has no separator, and the
  same holds of arrows and points.  These facts make the recursion of
  `wrapFrom` a descent.
* The text.  `wrapFrom_sealed_iff` says that the text of a reference is sealed
  exactly if that of its quoted keys is.  `wrapFrom_dotless_sealed_iff` is the
  case of a table with its prefix, on which the general case rests.
* Success.  `wrap_isOk` says that every reference is wrapped, under a prefix
  without points, in a dialect with paths.  In a dialect without paths
  `needsPath` are the references that are not, and `wrap_unsupported` says so.
-/

namespace FluentSql

namespace Name

/-! ## The parts of a reference -/

/-- What stands before the alias. -/
def baseOf (cs : List Char) : List Char :=
  (splitAlias? cs).elim cs (·.1)

/-- The column that stands before the first arrow. -/
def fieldOf (cs : List Char) : List Char :=
  (splitArrow? (baseOf cs)).elim (baseOf cs) (·.1)

/-- The keys after the arrows. -/
def keysOf (cs : List Char) : List (List Char) :=
  (splitArrow? (baseOf cs)).elim [] fun cut => splitArrows cut.2

/-- The table that stands before the column. -/
def tableOf? (cs : List Char) : Option (List Char) :=
  match (fieldOf cs).splitOn '.' with
  | table :: _ :: _ => some table
  | _ => none

/-- The keys of the table of a reference, once the prefix is before it.  There are none unless the
prefix and the table form an arrow. -/
def tableKeysOf (tablePrefix cs : List Char) : List (List Char) :=
  (tableOf? cs).elim [] fun table => keysOf (tablePrefix ++ table)

/-! ## Cutting at separators -/

/-- A separator is recognised whatever follows it. -/
theorem separator?_append {cs after : List Char} (h : separator? cs = some after)
    (more : List Char) : (separator? (cs ++ more)).isSome := by
  cases cs with
  | nil => exact nomatch h
  | cons c rest =>
    rw [separator?] at h
    rw [List.cons_append, separator?]
    split at h
    · rename_i hblank
      rw [if_pos hblank, ← List.cons_append]
      split at h
      · rename_i a s b tail hdrop
        have hmore : Text.dropBlanks (c :: rest ++ more) = a :: s :: b :: (tail ++ more) := by
          unfold Text.dropBlanks at hdrop ⊢
          rw [List.dropWhile_append, hdrop]
          rfl
        split at h
        · rename_i hword
          rw [hmore]
          simp only [hword, if_true, Option.isSome_some]
        · exact nomatch h
      · exact nomatch h
    · exact nomatch h

theorem splitAlias?_nil : splitAlias? [] = none := rfl

section

-- Comparing the two sides must not unfold the class of blanks.
attribute [local irreducible] separator?

theorem splitAlias?_cons (c : Char) (rest : List Char) :
    splitAlias? (c :: rest) =
      match separator? (c :: rest) with
      | some after => some ([], after)
      | none => (splitAlias? rest).map fun (before, after) => (c :: before, after) := rfl

end

/-- What stands before the first separator is a beginning. -/
theorem splitAlias?_prefix {cs before after : List Char}
    (h : splitAlias? cs = some (before, after)) : ∃ more, cs = before ++ more := by
  induction cs generalizing before with
  | nil =>
    rw [splitAlias?_nil] at h
    exact nomatch h
  | cons c rest ih =>
    rw [splitAlias?_cons] at h
    split at h
    · cases h
      exact ⟨c :: rest, rfl⟩
    · cases hrest : splitAlias? rest with
      | none => rw [hrest] at h; exact nomatch h
      | some cut =>
        rw [hrest] at h
        cases h
        obtain ⟨more, hmore⟩ := ih hrest
        exact ⟨more, by rw [hmore, List.cons_append]⟩

/-- A text without an alias has none in any beginning of it. -/
theorem splitAlias?_eq_none_of_append {cs more : List Char}
    (h : splitAlias? (cs ++ more) = none) : splitAlias? cs = none := by
  induction cs with
  | nil => exact splitAlias?_nil
  | cons c rest ih =>
    rw [List.cons_append, splitAlias?_cons] at h
    rw [splitAlias?_cons]
    split at h
    · exact nomatch h
    · rename_i hsep
      rw [Option.map_eq_none_iff] at h
      rw [ih h]
      cases hhere : separator? (c :: rest) with
      | none => rfl
      | some after =>
        have hmore := separator?_append hhere more
        rw [List.cons_append, hsep] at hmore
        exact absurd hmore (by decide)

/-- What stands before the first separator has none. -/
theorem splitAlias?_before {cs before after : List Char}
    (h : splitAlias? cs = some (before, after)) : splitAlias? before = none := by
  induction cs generalizing before with
  | nil =>
    rw [splitAlias?_nil] at h
    exact nomatch h
  | cons c rest ih =>
    rw [splitAlias?_cons] at h
    split at h
    · cases h
      exact splitAlias?_nil
    · rename_i hsep
      cases hrest : splitAlias? rest with
      | none => rw [hrest] at h; exact nomatch h
      | some cut =>
        rw [hrest] at h
        cases h
        obtain ⟨more, hmore⟩ := splitAlias?_prefix hrest
        have hnone : separator? (c :: cut.1) = none := by
          cases hhere : separator? (c :: cut.1) with
          | none => rfl
          | some found =>
            have hlonger := separator?_append hhere more
            rw [List.cons_append, ← hmore, hsep] at hlonger
            exact absurd hlonger (by decide)
        rw [splitAlias?_cons, hnone, ih hrest]
        rfl

theorem baseOf_of_none {cs : List Char} (h : splitAlias? cs = none) : baseOf cs = cs := by
  rw [baseOf, h]
  rfl

theorem baseOf_of_some {cs name given : List Char} (h : splitAlias? cs = some (name, given)) :
    baseOf cs = name := by
  rw [baseOf, h]
  rfl

/-- The parts of a reference are those of what stands before its alias. -/
theorem parts_of_alias {cs name given : List Char} (h : splitAlias? cs = some (name, given)) :
    fieldOf name = fieldOf cs ∧ keysOf name = keysOf cs ∧ tableOf? name = tableOf? cs := by
  have hbase : baseOf name = baseOf cs := by
    rw [baseOf_of_some h, baseOf_of_none (splitAlias?_before h)]
  have hfield : fieldOf name = fieldOf cs := by rw [fieldOf, fieldOf, hbase]
  refine ⟨hfield, ?_, ?_⟩
  · rw [keysOf, keysOf, hbase]
  · rw [tableOf?, tableOf?, hfield]

/-! ## Cutting at arrows -/

theorem splitArrow?_cons (c : Char) (rest : List Char) :
    splitArrow? (c :: rest) =
      if c = '-' ∧ rest.head? = some '>' then some ([], rest.tail)
      else (splitArrow? rest).map fun cut => (c :: cut.1, cut.2) := by
  split
  · rename_i h
    obtain ⟨rfl, hhead⟩ := h
    cases rest with
    | nil => exact nomatch hhead
    | cons d rest =>
      cases hhead
      rfl
  · rename_i h
    rw [splitArrow?]
    rintro rest' rfl rfl
    exact h ⟨rfl, rfl⟩

theorem splitArrowsFrom_cons (current : List Char) (c : Char) (rest : List Char) :
    splitArrowsFrom current (c :: rest) =
      if c = '-' ∧ rest.head? = some '>' then current.reverse :: splitArrowsFrom [] rest.tail
      else splitArrowsFrom (c :: current) rest := by
  split
  · rename_i h
    obtain ⟨rfl, hhead⟩ := h
    cases rest with
    | nil => exact nomatch hhead
    | cons d rest =>
      cases hhead
      rfl
  · rename_i h
    rw [splitArrowsFrom]
    rintro rest' rfl rfl
    exact h ⟨rfl, rfl⟩

/-- The pieces between the arrows, by the first arrow. -/
private theorem splitArrowsFrom_eq (current cs : List Char) :
    splitArrowsFrom current cs =
      match splitArrow? cs with
      | some (field, path) => (current.reverse ++ field) :: splitArrows path
      | none => [current.reverse ++ cs] := by
  induction cs generalizing current with
  | nil => simp [splitArrowsFrom, splitArrow?]
  | cons c rest ih =>
    rw [splitArrowsFrom_cons, splitArrow?_cons]
    split
    · simp [splitArrows]
    · rw [ih]
      cases splitArrow? rest with
      | none => simp
      | some cut => simp

/-- The pieces between the arrows: the column and the keys. -/
theorem splitArrows_of_some {cs field path : List Char}
    (h : splitArrow? cs = some (field, path)) : splitArrows cs = field :: splitArrows path := by
  rw [splitArrows, splitArrowsFrom_eq, h]
  rfl

theorem splitArrows_of_none {cs : List Char} (h : splitArrow? cs = none) :
    splitArrows cs = [cs] := by
  rw [splitArrows, splitArrowsFrom_eq, h]
  rfl

theorem splitArrows_ne_nil (cs : List Char) : splitArrows cs ≠ [] := by
  rw [splitArrows, splitArrowsFrom_eq]
  split <;> exact List.cons_ne_nil _ _

/-- What stands before the first arrow is a beginning, and has no arrow. -/
theorem splitArrow?_before {cs field path : List Char}
    (h : splitArrow? cs = some (field, path)) :
    splitArrow? field = none ∧ ∃ more, cs = field ++ more := by
  induction cs generalizing field with
  | nil => exact nomatch h
  | cons c rest ih =>
    rw [splitArrow?_cons] at h
    split at h
    · cases h
      exact ⟨rfl, c :: rest, rfl⟩
    · rename_i hhere
      cases hrest : splitArrow? rest with
      | none => rw [hrest] at h; exact nomatch h
      | some cut =>
        rw [hrest] at h
        cases h
        obtain ⟨hnone, more, hmore⟩ := ih hrest
        refine ⟨?_, more, by rw [hmore, List.cons_append]⟩
        rw [splitArrow?_cons, if_neg, hnone]
        · rfl
        · rintro ⟨hdash, hhead⟩
          refine hhere ⟨hdash, ?_⟩
          rw [hmore]
          cases hcut : cut.1 with
          | nil => rw [hcut] at hhead; exact nomatch hhead
          | cons d tail => rw [hcut] at hhead; exact hhead

/-! ## Cutting at points -/

/-- A segment has no points. -/
theorem not_mem_of_mem_splitOn {c : Char} {cs segment : List Char}
    (h : segment ∈ cs.splitOn c) : c ∉ segment := by
  induction cs generalizing segment with
  | nil =>
    rw [List.splitOn_nil, List.mem_singleton] at h
    rw [h]
    exact List.not_mem_nil
  | cons d rest ih =>
    rw [List.splitOn_cons_eq_if_modifyHead] at h
    split at h
    · rcases List.mem_cons.1 h with rfl | h
      · exact List.not_mem_nil
      · exact ih h
    · rename_i hd
      cases hsplit : rest.splitOn c with
      | nil => exact absurd hsplit (List.splitOn_ne_nil c rest)
      | cons first others =>
        rw [hsplit, List.modifyHead_cons] at h
        rcases List.mem_cons.1 h with rfl | h
        · have hfirst := ih (hsplit ▸ List.mem_cons_self)
          rintro hmem
          rcases List.mem_cons.1 hmem with rfl | hmem
          · exact hd (beq_self_eq_true c)
          · exact hfirst hmem
        · exact ih (hsplit ▸ List.mem_cons_of_mem _ h)

/-- A table has no points. -/
theorem not_mem_tableOf? {cs table : List Char} (h : tableOf? cs = some table) :
    '.' ∉ table := by
  unfold tableOf? at h
  split at h
  · rename_i first second others hsplit
    cases h
    exact not_mem_of_mem_splitOn (hsplit ▸ List.mem_cons_self)
  · exact nomatch h

/-- The column of a reference is a beginning of it. -/
theorem fieldOf_prefix (cs : List Char) : ∃ more, cs = fieldOf cs ++ more := by
  have hbase : ∃ more, cs = baseOf cs ++ more := by
    cases h : splitAlias? cs with
    | none => exact ⟨[], by rw [baseOf_of_none h, List.append_nil]⟩
    | some cut =>
      rw [baseOf_of_some h]
      exact splitAlias?_prefix h
  obtain ⟨more, hmore⟩ := hbase
  rw [fieldOf]
  cases h : splitArrow? (baseOf cs) with
  | none => exact ⟨more, hmore⟩
  | some cut =>
    obtain ⟨_, further, hfurther⟩ := splitArrow?_before h
    refine ⟨further ++ more, ?_⟩
    rw [Option.elim_some, ← List.append_assoc, ← hfurther, ← hmore]

/-- A reference without points has no table. -/
theorem tableOf?_of_dotless {cs : List Char} (h : '.' ∉ cs) : tableOf? cs = none := by
  obtain ⟨more, hmore⟩ := fieldOf_prefix cs
  have hfield : '.' ∉ fieldOf cs := by
    intro hmem
    rw [hmore] at h
    exact h (List.mem_append_left more hmem)
  rw [tableOf?, List.splitOn_eq_singleton hfield]

/-- A reference without arrows has no keys. -/
theorem keysOf_of_arrowless {cs : List Char} (h : '-' ∉ cs) : keysOf cs = [] := by
  have hsplit : ∀ base : List Char, '-' ∉ base → splitArrow? base = none := by
    intro base hbase
    induction base with
    | nil => rfl
    | cons c base ih =>
      have hc : '-' ≠ c := List.ne_of_not_mem_cons hbase
      have hrest : '-' ∉ base := List.not_mem_of_not_mem_cons hbase
      rw [splitArrow?_cons, if_neg fun harrow => hc harrow.1.symm, ih hrest]
      rfl
  have hbase : '-' ∉ baseOf cs := by
    cases halias : splitAlias? cs with
    | none => rwa [baseOf_of_none halias]
    | some cut =>
      obtain ⟨more, hmore⟩ := splitAlias?_prefix halias
      rw [baseOf_of_some halias]
      exact fun hmem => h (hmore ▸ List.mem_append_left more hmem)
  rw [keysOf, hsplit _ hbase]
  rfl

/-! ## What wrapping does -/

/-- Takes a successful computation apart. -/
theorem bind_eq_ok {α β : Type} {x : Except Failure α} {f : α → Except Failure β} {b : β}
    (h : x >>= f = .ok b) : ∃ a, x = .ok a ∧ f a = .ok b := by
  cases x with
  | error e => exact nomatch h
  | ok a => exact ⟨a, rfl, h⟩

theorem map_eq_ok {α β : Type} {x : Except Failure α} {f : α → β} {b : β}
    (h : x.map f = .ok b) : ∃ a, x = .ok a ∧ b = f a := by
  cases x with
  | error e => exact nomatch h
  | ok a => exact ⟨a, rfl, (Except.ok.inj h).symm⟩

section

-- Unfolding one step must not unfold the class of blanks.
attribute [local irreducible] splitAlias?

theorem wrapFrom_succ (dialect : Dialect) (tablePrefix : TablePrefix) (fuel : Nat)
    (aliasToo : Bool) (cs : List Char) :
    wrapFrom dialect tablePrefix (fuel + 1) aliasToo cs =
      match splitAlias? cs with
      | some (name, given) => do
        let given ← if aliasToo then tablePrefix.before given else .ok given
        return (← wrapFrom dialect tablePrefix fuel false name) ++ " as ".toList ++
          quoteName dialect given
      | none =>
        if hasArrow cs then
          wrapSelector dialect (wrapFrom dialect tablePrefix fuel false)
            (fun table => do wrapFrom dialect tablePrefix fuel true (← tablePrefix.before table)) cs
        else
          wrapSegments dialect
            (fun table => do wrapFrom dialect tablePrefix fuel true (← tablePrefix.before table))
            (cs.splitOn '.') := rfl

end

/-- Points between sealed texts keep them sealed. -/
theorem joinPoints_sealed {segments : List (List Char)} (h : ∀ cs ∈ segments, Sealed cs) :
    Sealed (joinPoints segments) := by
  induction segments with
  | nil => exact reads_nil
  | cons first others ih =>
    have hfirst := h first List.mem_cons_self
    cases others with
    | nil => exact hfirst
    | cons second others =>
      have hothers := ih fun cs hcs => h cs (List.mem_cons_of_mem first hcs)
      exact hfirst.append (Sealed.append (show Sealed ['.'] by decide) hothers)

/-- The quoted segments of a column can be put anywhere, if its table can. -/
theorem wrapSegments_sealed {dialect : Dialect}
    {wrapTable : List Char → Except Failure (List Char)} {segments : List (List Char)}
    {out : List Char} (h : wrapSegments dialect wrapTable segments = .ok out)
    (htable : ∀ table column rest wrapped, segments = table :: column :: rest →
      wrapTable table = .ok wrapped → Sealed wrapped) : Sealed out := by
  unfold wrapSegments at h
  split at h
  · rename_i table column rest
    obtain ⟨wrapped, hwrapped, hout⟩ := bind_eq_ok h
    cases hout
    refine joinPoints_sealed fun cs hcs => ?_
    rcases List.mem_cons.1 hcs with rfl | hcs
    · exact htable table column rest cs rfl hwrapped
    · obtain ⟨segment, _, rfl⟩ := List.mem_map.1 hcs
      exact quoteName_sealed dialect segment
  · cases h
    refine joinPoints_sealed fun cs hcs => ?_
    obtain ⟨segment, _, rfl⟩ := List.mem_map.1 hcs
    exact quoteName_sealed dialect segment

/-! ## The text of a reference -/

/-- What the keys of a path must be for the text of a reference to be sealed.  Only PostgreSQL
writes them between quotes that it does not double. -/
def KeysSealed (dialect : Dialect) (keys : List (List Char)) : Prop :=
  dialect = .postgres → Sealed (arrowKeys keys)

/-- The table of a reference is wrapped into a sealed text, however many steps that takes. -/
def TableSealed (dialect : Dialect) (tablePrefix : TablePrefix) (cs : List Char) : Prop :=
  ∀ table fuel wrapped, tableOf? cs = some table →
    (do wrapFrom dialect tablePrefix fuel true (← tablePrefix.before table)) = .ok wrapped →
    Sealed wrapped

section

variable {dialect : Dialect} {tablePrefix : TablePrefix} {fuel : Nat} {aliasToo : Bool}
variable {cs out : List Char}

theorem fieldOf_of_plain (hcs : splitAlias? cs = none) (harrow : splitArrow? cs = none) :
    fieldOf cs = cs := by
  rw [fieldOf, baseOf_of_none hcs, harrow]
  rfl

theorem keysOf_of_plain (hcs : splitAlias? cs = none) (harrow : splitArrow? cs = none) :
    keysOf cs = [] := by
  rw [keysOf, baseOf_of_none hcs, harrow]
  rfl

theorem fieldOf_of_path {field path : List Char} (hcs : splitAlias? cs = none)
    (harrow : splitArrow? cs = some (field, path)) : fieldOf cs = field := by
  rw [fieldOf, baseOf_of_none hcs, harrow]
  rfl

theorem keysOf_of_path {field path : List Char} (hcs : splitAlias? cs = none)
    (harrow : splitArrow? cs = some (field, path)) : keysOf cs = splitArrows path := by
  rw [keysOf, baseOf_of_none hcs, harrow]
  rfl

/-- The column before the first arrow is a reference without alias and path, to the same table. -/
theorem field_plain {field path : List Char} (hcs : splitAlias? cs = none)
    (harrow : splitArrow? cs = some (field, path)) :
    splitAlias? field = none ∧ splitArrow? field = none ∧ tableOf? field = tableOf? cs := by
  obtain ⟨hnone, more, hmore⟩ := splitArrow?_before harrow
  have hfield : splitAlias? field = none := splitAlias?_eq_none_of_append (hmore ▸ hcs)
  refine ⟨hfield, hnone, ?_⟩
  rw [tableOf?, tableOf?, fieldOf_of_path hcs harrow, fieldOf_of_plain hfield hnone]

/-- The segments of the column of a reference are sealed if its table is. -/
private theorem column_sealed (htable : TableSealed dialect tablePrefix cs)
    (h : wrapSegments dialect
      (fun table => do wrapFrom dialect tablePrefix fuel true (← tablePrefix.before table))
      ((fieldOf cs).splitOn '.') = .ok out) : Sealed out := by
  refine wrapSegments_sealed h fun table column rest wrapped hsplit hwrapped => ?_
  refine htable table fuel wrapped ?_ hwrapped
  rw [tableOf?, hsplit]

/-- The text of a reference without alias and path is sealed. -/
theorem wrapFrom_plain_sealed (hcs : splitAlias? cs = none) (harrow : splitArrow? cs = none)
    (htable : TableSealed dialect tablePrefix cs)
    (h : wrapFrom dialect tablePrefix fuel aliasToo cs = .ok out) : Sealed out := by
  cases fuel with
  | zero => exact nomatch h
  | succ fuel =>
    have hnone : hasArrow cs = false := by rw [hasArrow, harrow]; rfl
    rw [wrapFrom_succ, hcs, hnone] at h
    rw [if_neg (by decide), ← fieldOf_of_plain hcs harrow] at h
    exact column_sealed htable h

/-- The quoted column and the path argument of a selector are sealed. -/
private theorem fieldAndPath_sealed (hcs : splitAlias? cs = none)
    (htable : TableSealed dialect tablePrefix cs) {found : List Char × List Char}
    (h : fieldAndPath (wrapFrom dialect tablePrefix fuel false) cs = .ok found) :
    Sealed found.1 ∧ Sealed found.2 := by
  unfold fieldAndPath at h
  split at h
  · rename_i field path harrow
    obtain ⟨wrapped, hwrapped, hfound⟩ := bind_eq_ok h
    cases hfound
    obtain ⟨hfield, hnone, hsame⟩ := field_plain hcs harrow
    have htable' : TableSealed dialect tablePrefix field := fun table n t ht =>
      htable table n t (hsame ▸ ht)
    exact ⟨wrapFrom_plain_sealed hfield hnone htable' hwrapped, pathArgument_sealed path⟩
  · rename_i harrow
    obtain ⟨wrapped, hwrapped, hfound⟩ := bind_eq_ok h
    cases hfound
    exact ⟨wrapFrom_plain_sealed hcs harrow htable hwrapped, reads_nil⟩

/-- The text of a selector is sealed exactly if that of its quoted keys is. -/
private theorem wrapSelector_sealed_iff (hcs : splitAlias? cs = none)
    (htable : TableSealed dialect tablePrefix cs)
    (h : wrapSelector dialect (wrapFrom dialect tablePrefix fuel false)
      (fun table => do wrapFrom dialect tablePrefix fuel true (← tablePrefix.before table)) cs =
        .ok out) :
    Sealed out ↔ KeysSealed dialect (keysOf cs) := by
  unfold wrapSelector at h
  cases dialect with
  | ansi => exact nomatch h
  | mysql =>
    obtain ⟨⟨field, path⟩, hfound, hout⟩ := bind_eq_ok h
    cases hout
    obtain ⟨hfield, hpath⟩ := fieldAndPath_sealed hcs htable hfound
    have hhead : Sealed "json_unquote(json_extract(".toList := by decide
    have htail : Sealed "))".toList := by decide
    exact ⟨fun _ hd => (nomatch hd), fun _ => ((hhead.append hfield).append hpath).append htail⟩
  | sqlite =>
    obtain ⟨⟨field, path⟩, hfound, hout⟩ := bind_eq_ok h
    cases hout
    obtain ⟨hfield, hpath⟩ := fieldAndPath_sealed hcs htable hfound
    have hhead : Sealed "json_extract(".toList := by decide
    have htail : Sealed ")".toList := by decide
    exact ⟨fun _ hd => (nomatch hd), fun _ => ((hhead.append hfield).append hpath).append htail⟩
  | postgres =>
    cases harrow : splitArrow? cs with
    | none =>
      rw [splitArrows_of_none harrow] at h
      obtain ⟨_, _, hout⟩ := bind_eq_ok h
      exact nomatch hout
    | some cut =>
      obtain ⟨field, path⟩ := cut
      obtain ⟨key, keys, hkeys⟩ := List.exists_cons_of_ne_nil (splitArrows_ne_nil path)
      rw [splitArrows_of_some harrow, hkeys] at h
      obtain ⟨wrapped, hwrapped, hout⟩ := bind_eq_ok h
      cases hout
      rw [← fieldOf_of_path hcs harrow] at hwrapped
      show Reads _ 0 ↔ _
      rw [(column_sealed htable hwrapped).append_reads_iff, keysOf_of_path hcs harrow, hkeys]
      exact ⟨fun hsealed _ => hsealed, fun hkeys => hkeys rfl⟩

/-- An alias after a text is sealed with it exactly if the text is sealed. -/
theorem alias_sealed_iff (name given : List Char) :
    Sealed (name ++ " as ".toList ++ quoteName dialect given) ↔ Sealed name := by
  have hword : Sealed " as ".toList := by decide
  have hgiven := quoteName_sealed dialect given
  refine ⟨fun h => ?_, fun h => (h.append hword).append hgiven⟩
  have hclosed : openQuote none name = none := by
    cases hopen : openQuote none name with
    | none => rfl
    | some q =>
      have hq := isQuote_of_openQuote hopen
      have hplain : ∀ c ∈ " as ".toList, isQuote c = false := by
        rw [show " as ".toList = [' ', 'a', 's', ' '] from rfl]
        simp only [List.forall_mem_cons, List.not_mem_nil, false_implies, implies_true, and_true]
        decide
      have hafter : openQuote (some q) " as ".toList = some q :=
        openQuote_plain hplain (some q) fun d hd => Option.some.inj hd ▸ hq
      have h := h.closed
      rw [openQuote_append, openQuote_append, hopen, hafter] at h
      exact absurd h (quoteName_keeps_open dialect given hq)
  refine ⟨hclosed, ?_⟩
  have h := h.marks_eq
  rw [List.append_assoc, marks_append] at h
  omega

/-- A reference with an alias is what stands before the alias, wrapped, and a quoted name. -/
theorem wrapFrom_alias {name given : List Char} (hcs : splitAlias? cs = some (name, given))
    (h : wrapFrom dialect tablePrefix (fuel + 1) aliasToo cs = .ok out) :
    ∃ wrapped given', wrapFrom dialect tablePrefix fuel false name = .ok wrapped ∧
      out = wrapped ++ " as ".toList ++ quoteName dialect given' := by
  rw [wrapFrom_succ, hcs] at h
  dsimp only at h
  split at h
  · obtain ⟨given', _, h⟩ := bind_eq_ok h
    obtain ⟨wrapped, hwrapped, h⟩ := bind_eq_ok h
    cases h
    exact ⟨wrapped, given', hwrapped, rfl⟩
  · obtain ⟨given', _, h⟩ := bind_eq_ok h
    obtain ⟨wrapped, hwrapped, h⟩ := bind_eq_ok h
    cases h
    exact ⟨wrapped, given', hwrapped, rfl⟩

/-- The text of a reference is sealed exactly if that of its quoted keys is, given that the table
of the reference is sealed. -/
theorem wrapFrom_sealed_iff (htable : TableSealed dialect tablePrefix cs)
    (h : wrapFrom dialect tablePrefix fuel aliasToo cs = .ok out) :
    Sealed out ↔ KeysSealed dialect (keysOf cs) := by
  have hunaliased : ∀ {fuel aliasToo cs out}, splitAlias? cs = none →
      TableSealed dialect tablePrefix cs →
      wrapFrom dialect tablePrefix fuel aliasToo cs = .ok out →
      (Sealed out ↔ KeysSealed dialect (keysOf cs)) := by
    intro fuel aliasToo cs out hcs htable h
    cases harrow : splitArrow? cs with
    | none =>
      have hsealed := wrapFrom_plain_sealed hcs harrow htable h
      rw [keysOf_of_plain hcs harrow]
      exact ⟨fun _ _ => reads_nil, fun _ => hsealed⟩
    | some cut =>
      cases fuel with
      | zero => exact nomatch h
      | succ fuel =>
        have hsome : hasArrow cs = true := by rw [hasArrow, harrow]; rfl
        rw [wrapFrom_succ, hcs, hsome] at h
        exact wrapSelector_sealed_iff hcs htable h
  cases hcs : splitAlias? cs with
  | none => exact hunaliased hcs htable h
  | some cut =>
    obtain ⟨name, given⟩ := cut
    cases fuel with
    | zero => exact nomatch h
    | succ fuel =>
      obtain ⟨wrapped, given', hwrapped, rfl⟩ := wrapFrom_alias hcs h
      obtain ⟨_, hkeys, hsame⟩ := parts_of_alias hcs
      have htable' : TableSealed dialect tablePrefix name := fun table n t ht =>
        htable table n t (hsame ▸ ht)
      rw [alias_sealed_iff, ← hkeys]
      exact hunaliased (splitAlias?_before hcs) htable' hwrapped

/-- The text of a reference without points: it has no table. -/
theorem wrapFrom_dotless_sealed_iff (hdot : '.' ∉ cs)
    (h : wrapFrom dialect tablePrefix fuel aliasToo cs = .ok out) :
    Sealed out ↔ KeysSealed dialect (keysOf cs) := by
  refine wrapFrom_sealed_iff (fun table n t ht => ?_) h
  rw [tableOf?_of_dotless hdot] at ht
  exact nomatch ht

/-- Under a prefix without points the table of a reference is sealed, if its own keys are. -/
theorem tableSealed_of_dotless {p : List Char} (hp : '.' ∉ p)
    (hkeys : KeysSealed dialect (tableKeysOf p cs)) : TableSealed dialect (some p) cs := by
  intro table n wrapped htable h
  have hdot : '.' ∉ p ++ table := by
    rw [List.mem_append]
    rintro (hmem | hmem)
    · exact hp hmem
    · exact not_mem_tableOf? htable hmem
  rw [tableKeysOf, htable] at hkeys
  exact (wrapFrom_dotless_sealed_iff hdot h).2 hkeys

end

/-! ## Success -/

section

variable {dialect : Dialect} {p : List Char} {n : Nat} {cs : List Char}
variable (fuel : Nat) (aliasToo : Bool)

/-- With `n` steps or more, the table of a reference is wrapped without fault. -/
def TableWraps (dialect : Dialect) (p : List Char) (n : Nat) (cs : List Char) : Prop :=
  ∀ table fuel, tableOf? cs = some table → n ≤ fuel →
    ∃ wrapped, wrapFrom dialect (some p) fuel true (p ++ table) = .ok wrapped

private theorem column_isOk (htable : TableWraps dialect p n cs) (hfuel : n ≤ fuel) :
    ∃ out, wrapSegments dialect
      (fun table => do
        wrapFrom dialect (some p) fuel true (← TablePrefix.before (some p) table))
      ((fieldOf cs).splitOn '.') = .ok out := by
  unfold wrapSegments
  split
  · rename_i table column rest hsplit
    have hcs : tableOf? cs = some table := by rw [tableOf?, hsplit]
    obtain ⟨wrapped, hwrapped⟩ := htable table fuel hcs hfuel
    refine ⟨joinPoints (wrapped :: (column :: rest).map (quoteName dialect)), ?_⟩
    show (wrapFrom dialect (some p) fuel true (p ++ table) >>= _) = _
    rw [hwrapped]
    rfl
  · exact ⟨_, rfl⟩

/-- A reference without alias and path takes one step. -/
private theorem wrapFrom_plain_isOk (hcs : splitAlias? cs = none)
    (harrow : splitArrow? cs = none) (htable : TableWraps dialect p n cs) (hfuel : n < fuel) :
    ∃ out, wrapFrom dialect (some p) fuel aliasToo cs = .ok out := by
  obtain ⟨fuel, rfl⟩ : ∃ m, fuel = m + 1 := ⟨fuel - 1, by omega⟩
  have hnone : hasArrow cs = false := by rw [hasArrow, harrow]; rfl
  obtain ⟨out, hout⟩ := column_isOk fuel htable (by omega)
  rw [fieldOf_of_plain hcs harrow] at hout
  rw [wrapFrom_succ, hcs, hnone]
  exact ⟨out, hout⟩

/-- The column of a path takes two steps. -/
private theorem fieldAndPath_isOk {field path : List Char} (hcs : splitAlias? cs = none)
    (harrow : splitArrow? cs = some (field, path)) (htable : TableWraps dialect p n cs)
    (hfuel : n < fuel) :
    ∃ found, fieldAndPath (wrapFrom dialect (some p) fuel false) cs = .ok found := by
  obtain ⟨hfield, hnone, hsame⟩ := field_plain hcs harrow
  have htable' : TableWraps dialect p n field := fun table m ht => htable table m (hsame ▸ ht)
  obtain ⟨wrapped, hwrapped⟩ :=
    wrapFrom_plain_isOk fuel false hfield hnone htable' hfuel
  refine ⟨(wrapped, pathArgument path), ?_⟩
  rw [fieldAndPath, harrow]
  show (wrapFrom dialect (some p) fuel false field >>= _) = _
  rw [hwrapped]
  rfl

/-- A reference without alias takes two steps. -/
private theorem wrapFrom_unaliased_isOk (hd : dialect = .ansi → hasArrow cs = false)
    (hcs : splitAlias? cs = none) (htable : TableWraps dialect p n cs) (hfuel : n + 1 < fuel) :
    ∃ out, wrapFrom dialect (some p) fuel aliasToo cs = .ok out := by
  cases harrow : splitArrow? cs with
  | none => exact wrapFrom_plain_isOk _ _ hcs harrow htable (by omega)
  | some cut =>
    obtain ⟨field, path⟩ := cut
    obtain ⟨fuel, rfl⟩ : ∃ m, fuel = m + 1 := ⟨fuel - 1, by omega⟩
    have hsome : hasArrow cs = true := by rw [hasArrow, harrow]; rfl
    rw [wrapFrom_succ, hcs, hsome]
    show ∃ out, wrapSelector dialect _ _ cs = .ok out
    unfold wrapSelector
    cases dialect with
    | ansi => exact absurd hsome (Bool.eq_false_iff.1 (hd rfl))
    | mysql =>
      obtain ⟨found, hfound⟩ := fieldAndPath_isOk fuel hcs harrow htable (by omega)
      dsimp only
      rw [hfound]
      exact ⟨_, rfl⟩
    | sqlite =>
      obtain ⟨found, hfound⟩ := fieldAndPath_isOk fuel hcs harrow htable (by omega)
      dsimp only
      rw [hfound]
      exact ⟨_, rfl⟩
    | postgres =>
      obtain ⟨key, keys, hkeys⟩ := List.exists_cons_of_ne_nil (splitArrows_ne_nil path)
      obtain ⟨wrapped, hwrapped⟩ := column_isOk fuel htable (by omega)
      rw [fieldOf_of_path hcs harrow] at hwrapped
      dsimp only
      rw [splitArrows_of_some harrow, hkeys]
      dsimp only
      rw [hwrapped]
      exact ⟨_, rfl⟩

/-- A reference takes three steps beyond those of its table. -/
theorem wrapFrom_isOk (hd : dialect = .ansi → hasArrow (baseOf cs) = false)
    (htable : TableWraps dialect p n cs) (hfuel : n + 2 < fuel) :
    ∃ out, wrapFrom dialect (some p) fuel aliasToo cs = .ok out := by
  cases hcs : splitAlias? cs with
  | none =>
    rw [baseOf_of_none hcs] at hd
    exact wrapFrom_unaliased_isOk _ _ hd hcs htable (by omega)
  | some cut =>
    obtain ⟨name, given⟩ := cut
    obtain ⟨fuel, rfl⟩ : ∃ m, fuel = m + 1 := ⟨fuel - 1, by omega⟩
    obtain ⟨_, _, hsame⟩ := parts_of_alias hcs
    have htable' : TableWraps dialect p n name := fun table m ht => htable table m (hsame ▸ ht)
    rw [baseOf_of_some hcs] at hd
    obtain ⟨wrapped, hwrapped⟩ := wrapFrom_unaliased_isOk fuel false hd
      (splitAlias?_before hcs) htable' (by omega)
    rw [wrapFrom_succ, hcs]
    dsimp only
    rw [hwrapped]
    cases aliasToo <;> exact ⟨_, rfl⟩

/-- A reference without points has no table, so it takes three steps. -/
theorem wrapFrom_dotless_isOk (hd : dialect = .ansi → hasArrow (baseOf cs) = false)
    (hdot : '.' ∉ cs) (hfuel : 2 < fuel) :
    ∃ out, wrapFrom dialect (some p) fuel aliasToo cs = .ok out := by
  refine wrapFrom_isOk (n := 0) _ _ hd (fun table m ht => ?_) (by omega)
  rw [tableOf?_of_dotless hdot] at ht
  exact nomatch ht

/-- Quoting a reference quotes a path into a JSON column: the reference is one, or its table is one
once the prefix is before it. -/
def needsPath (p cs : List Char) : Bool :=
  hasArrow (baseOf cs) || (tableOf? cs).any fun table => hasArrow (baseOf (p ++ table))

theorem needsPath_eq_false : needsPath p cs = false ↔ hasArrow (baseOf cs) = false ∧
    ∀ table, tableOf? cs = some table → hasArrow (baseOf (p ++ table)) = false := by
  rw [needsPath, Bool.or_eq_false_iff]
  cases tableOf? cs <;> simp

/-- Under a prefix without points every reference is wrapped without fault, unless it needs a path in
a dialect without paths. -/
theorem wrap_isOk (cs : List Char) (hd : dialect = .ansi → needsPath p cs = false) (hp : '.' ∉ p) :
    ∃ out, wrap dialect (some p) aliasToo cs = .ok out := by
  refine wrapFrom_isOk (n := 3) _ _ (fun h => (needsPath_eq_false.1 (hd h)).1)
    (fun table m ht hm => ?_) (by decide)
  have hdot : '.' ∉ p ++ table := by
    rw [List.mem_append]
    rintro (hmem | hmem)
    · exact hp hmem
    · exact not_mem_tableOf? ht hmem
  exact wrapFrom_dotless_isOk _ _ (fun h => (needsPath_eq_false.1 (hd h)).2 table ht) hdot (by omega)

/-! ## Paths in a dialect without paths -/

/-- A fault in what stands before an alias is one of the whole reference. -/
private theorem wrapFrom_base_error {e : Failure} (hfuel : 1 < fuel)
    (h : ∀ m, fuel ≤ m + 2 → ∀ aliasToo, splitAlias? (baseOf cs) = none →
      wrapFrom dialect (some p) (m + 1) aliasToo (baseOf cs) = .error e) :
    wrapFrom dialect (some p) fuel aliasToo cs = .error e := by
  obtain ⟨fuel, rfl⟩ : ∃ m, fuel = m + 2 := ⟨fuel - 2, by omega⟩
  cases hcs : splitAlias? cs with
  | none =>
    rw [baseOf_of_none hcs] at h
    exact h (fuel + 1) (by omega) aliasToo hcs
  | some cut =>
    obtain ⟨name, given⟩ := cut
    rw [baseOf_of_some hcs] at h
    rw [wrapFrom_succ, hcs]
    dsimp only
    rw [h fuel (by omega) false (splitAlias?_before hcs)]
    cases aliasToo <;> rfl

theorem wrapFrom_path (harrow : hasArrow (baseOf cs) = true) (hfuel : 1 < fuel) :
    wrapFrom .ansi (some p) fuel aliasToo cs = .error (.unsupported .json) := by
  refine wrapFrom_base_error fuel aliasToo hfuel fun m _ aliasToo hbase => ?_
  rw [wrapFrom_succ, hbase]
  dsimp only
  rw [if_pos harrow]
  rfl

theorem wrapFrom_tablePath {table : List Char} (harrow : hasArrow (baseOf cs) = false)
    (htable : tableOf? cs = some table) (hpath : hasArrow (baseOf (p ++ table)) = true)
    (hfuel : 3 < fuel) :
    wrapFrom .ansi (some p) fuel aliasToo cs = .error (.unsupported .json) := by
  refine wrapFrom_base_error fuel aliasToo (by omega) fun m hm aliasToo hbase => ?_
  have hnone : splitArrow? (baseOf cs) = none := by
    rwa [hasArrow, Option.isSome_eq_false_iff, Option.isNone_iff_eq_none] at harrow
  have hfield : fieldOf cs = baseOf cs := by rw [fieldOf, hnone]; rfl
  obtain ⟨column, rest, hsplit⟩ : ∃ column rest,
      (baseOf cs).splitOn '.' = table :: column :: rest := by
    rw [tableOf?, hfield] at htable
    split at htable
    · rename_i first second others hsplit
      cases htable
      exact ⟨second, others, hsplit⟩
    · exact nomatch htable
  rw [wrapFrom_succ, hbase]
  dsimp only
  rw [if_neg (Bool.eq_false_iff.1 harrow), hsplit]
  show (wrapFrom .ansi (some p) m true (p ++ table) >>= _) = _
  rw [wrapFrom_path m true hpath (by omega)]
  rfl

/-- A reference that needs a path is not supported in a dialect without paths. -/
theorem wrap_unsupported (h : needsPath p cs = true) :
    wrap .ansi (some p) aliasToo cs = .error (.unsupported .json) := by
  cases harrow : hasArrow (baseOf cs) with
  | true => exact wrapFrom_path _ _ harrow (by decide)
  | false =>
    rw [needsPath, harrow, Bool.false_or, Option.any_eq_true] at h
    obtain ⟨table, htable, hpath⟩ := h
    exact wrapFrom_tablePath _ _ harrow htable hpath (by decide)

end

end Name

/-! ## References of a grammar -/

namespace Grammar

open Name

/-- In a dialect with paths, under a prefix without points, every reference is
wrapped.  The text leaves no quote open and has no placeholder if the keys of
a path in PostgreSQL have no single quotes.  Unless the prefix forms a path
with the table, the text is sealed exactly if that of the keys of the
reference is. -/
theorem wrapText_sealed_iff {g : Grammar} (hd : g.dialect ≠ .ansi) {p : String}
    (hp : g.tablePrefix = .text p) (hdot : '.' ∉ p.toList) (aliasToo : Bool) (s : String) :
    ∃ out, g.wrapText aliasToo s = .ok out ∧
      ((g.dialect = .postgres →
          ∀ key ∈ tableKeysOf p.toList s.toList ++ keysOf s.toList, '\'' ∉ key) →
        Sealed out.toList) ∧
      (KeysSealed g.dialect (tableKeysOf p.toList s.toList) →
        (Sealed out.toList ↔ KeysSealed g.dialect (keysOf s.toList))) := by
  obtain ⟨out, hout⟩ := wrap_isOk aliasToo s.toList (fun h => absurd h hd) hdot
  have hprefix : g.namePrefix = some p.toList := by rw [namePrefix, hp]; rfl
  have hiff : KeysSealed g.dialect (tableKeysOf p.toList s.toList) →
      (Sealed out ↔ KeysSealed g.dialect (keysOf s.toList)) := fun hkeys =>
    wrapFrom_sealed_iff (tableSealed_of_dotless hdot hkeys) hout
  refine ⟨String.ofList out, ?_, ?_, ?_⟩
  · rw [wrapText, hprefix, hout]
    rfl
  · rw [String.toList_ofList]
    intro hkeys
    refine (hiff fun hpg => arrowKeys_sealed fun key hkey => ?_).2
      fun hpg => arrowKeys_sealed fun key hkey => ?_
    · exact hkeys hpg key (List.mem_append_left _ hkey)
    · exact hkeys hpg key (List.mem_append_right _ hkey)
  · rw [String.toList_ofList]
    exact hiff

theorem wrapText_sealed_iff_path :
    ∃ out, wrapText { dialect := .postgres, tablePrefix := .text "wp_" } false
        "users.data->it?s->0 as \"x" = .ok out ∧ Sealed out.toList := by
  obtain ⟨out, hout, hsealed, _⟩ :=
    wrapText_sealed_iff (g := { dialect := .postgres, tablePrefix := .text "wp_" }) (by decide)
      rfl (by decide) false "users.data->it?s->0 as \"x"
  exact ⟨out, hout, hsealed fun _ => by decide +kernel⟩

/-- A single quote in a key ends the quotes of the key in PostgreSQL. -/
theorem wrapText_open_key :
    wrapText { dialect := .postgres } false "data->it's" = .ok "\"data\"->>'it's'" ∧
      ¬ Sealed "\"data\"->>'it's'".toList := by
  refine ⟨?_, by decide⟩
  have hbase : splitAlias? "data->it's".toList = none := by decide +kernel
  have harrow : hasArrow "data->it's".toList = true := by decide
  have hcut : splitArrows "data->it's".toList = ["data".toList, "it's".toList] := by decide
  have hsplit : "data".toList.splitOn '.' = ["data".toList] := by decide
  have hdigit : Text.isDigit 'i' = false := by
    rw [Bool.eq_false_iff]
    exact fun h => absurd (digit_cases h) (by decide)
  have hkey : pathKey "it's".toList = '\'' :: "it's".toList ++ ['\''] :=
    pathKey_quoted (c := 'i') (by decide) hdigit
  rw [wrapText, Name.wrap, wrapFuel, wrapFrom_succ, hbase, harrow]
  simp only [if_true, wrapSelector, hcut, hsplit, arrowKeys, hkey]
  rfl

end Grammar

end FluentSql
