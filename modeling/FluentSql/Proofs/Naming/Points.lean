import FluentSql.Proofs.References

/-!
# Points in references

A point ends what stands before it: no alias separator and no arrow goes over
one.  So the alias and the arrows of a reference are found before its first
point and after it, each part on its own.

* `Unmarked` are the references without alias and arrow.
* `hasAlias_point`, `hasArrow_point` and `unmarked_point` cut at a point.
* `tableOf?_eq_some_iff` says which references have a table: those with an
  unmarked first segment before a point.
* `tableOf?_prefixed` is the table of a table with its prefix.  It depends on
  the prefix alone.
-/

namespace FluentSql.Name

open Text

/-! ## Unmarked references -/

/-- A reference without alias and without arrow. -/
structure Unmarked (cs : List Char) : Prop where
  unaliased : hasAlias cs = false
  arrow : hasArrow cs = false

section

variable {cs more : List Char}

theorem hasAlias_eq_false : hasAlias cs = false ↔ splitAlias? cs = none := by
  rw [hasAlias, Option.isSome_eq_false_iff, Option.isNone_iff_eq_none]

theorem hasArrow_eq_false : hasArrow cs = false ↔ splitArrow? cs = none := by
  rw [hasArrow, Option.isSome_eq_false_iff, Option.isNone_iff_eq_none]

theorem Unmarked.noAlias (h : Unmarked cs) : splitAlias? cs = none :=
  hasAlias_eq_false.1 h.unaliased

theorem hasAlias_cons (c : Char) (rest : List Char) :
    hasAlias (c :: rest) = ((separator? (c :: rest)).isSome || hasAlias rest) := by
  rw [hasAlias, splitAlias?_cons, hasAlias]
  cases separator? (c :: rest) with
  | some after => rfl
  | none => cases splitAlias? rest <;> rfl

theorem hasArrow_cons (c : Char) (rest : List Char) :
    hasArrow (c :: rest) = (decide (c = '-' ∧ rest.head? = some '>') || hasArrow rest) := by
  rw [hasArrow, splitArrow?_cons, hasArrow]
  split
  · rename_i h
    rw [decide_eq_true h]
    rfl
  · rename_i h
    rw [decide_eq_false h]
    cases splitArrow? rest <;> rfl

/-- A separator starts with a blank. -/
theorem separator?_of_not_blank {c : Char} (h : isBlank c = false) (rest : List Char) :
    separator? (c :: rest) = none := by
  rw [separator?, h]
  exact if_neg Bool.false_ne_true

theorem hasAlias_of_no_blank (h : ∀ c ∈ cs, isBlank c = false) : hasAlias cs = false := by
  induction cs with
  | nil => rfl
  | cons c rest ih =>
    obtain ⟨hc, hrest⟩ := List.forall_mem_cons.1 h
    rw [hasAlias_cons, separator?_of_not_blank hc, ih hrest]
    rfl

theorem hasArrow_of_not_mem (h : '-' ∉ cs) : hasArrow cs = false := by
  induction cs with
  | nil => rfl
  | cons c rest ih =>
    rw [List.mem_cons, not_or] at h
    rw [hasArrow_cons, ih h.2, decide_eq_false fun harrow => h.1 harrow.1.symm]
    rfl

/-- A beginning of an unmarked reference is unmarked. -/
theorem Unmarked.of_append (h : Unmarked (cs ++ more)) : Unmarked cs := by
  refine ⟨hasAlias_eq_false.2 (splitAlias?_eq_none_of_append h.noAlias), ?_⟩
  have harrow := h.arrow
  clear h
  induction cs with
  | nil => rfl
  | cons c rest ih =>
    rw [List.cons_append, hasArrow_cons, Bool.or_eq_false_iff, decide_eq_false_iff_not] at harrow
    rw [hasArrow_cons, ih harrow.2, Bool.or_false, decide_eq_false_iff_not]
    rintro ⟨hdash, hhead⟩
    refine harrow.1 ⟨hdash, ?_⟩
    rw [List.head?_append, hhead]
    rfl

/-- An end of an unmarked reference is unmarked. -/
theorem Unmarked.of_append_right (h : Unmarked (cs ++ more)) : Unmarked more := by
  induction cs with
  | nil => exact h
  | cons c rest ih =>
    have halias := h.unaliased
    have harrow := h.arrow
    rw [List.cons_append, hasAlias_cons, Bool.or_eq_false_iff] at halias
    rw [List.cons_append, hasArrow_cons, Bool.or_eq_false_iff] at harrow
    exact ih ⟨halias.2, harrow.2⟩

end

/-! ## Cutting at a point -/

section

variable (cs rest : List Char)

theorem dropBlanks_point : dropBlanks (cs ++ '.' :: rest) = dropBlanks cs ++ '.' :: rest := by
  have hpoint : ('.' :: rest).dropWhile isBlank = '.' :: rest :=
    List.dropWhile_cons_of_neg (by decide)
  unfold dropBlanks
  rw [List.dropWhile_append]
  split
  · rename_i hempty
    rw [List.isEmpty_iff.1 hempty, hpoint]
    rfl
  · rfl

/-- A separator does not go over a point. -/
theorem separator?_point : (separator? (cs ++ '.' :: rest)).isSome = (separator? cs).isSome := by
  cases cs with
  | nil => rfl
  | cons c more =>
    rw [List.cons_append, separator?, separator?, ← List.cons_append, dropBlanks_point]
    generalize dropBlanks (c :: more) = word
    split
    · rcases word with _ | ⟨a, _ | ⟨s, _ | ⟨b, tail⟩⟩⟩
      · rcases rest with _ | ⟨s, _ | ⟨b, rest⟩⟩ <;> rfl
      · cases rest with
        | nil => rfl
        | cons b rest => simp [show isLetterS '.' = false from by decide]
      · simp [show isBlank '.' = false from by decide]
      · simp only [List.cons_append]
        split <;> rfl
    · rfl

theorem hasAlias_point : hasAlias (cs ++ '.' :: rest) = (hasAlias cs || hasAlias rest) := by
  induction cs with
  | nil =>
    rw [List.nil_append, hasAlias_cons, separator?_of_not_blank (by decide)]
    rfl
  | cons c more ih =>
    have hhere := separator?_point (c :: more) rest
    rw [List.cons_append] at hhere
    rw [List.cons_append, hasAlias_cons, hhere, ih, hasAlias_cons, Bool.or_assoc]

theorem hasArrow_point : hasArrow (cs ++ '.' :: rest) = (hasArrow cs || hasArrow rest) := by
  induction cs with
  | nil =>
    rw [List.nil_append, hasArrow_cons, decide_eq_false fun h => absurd h.1 (by decide)]
    rfl
  | cons c more ih =>
    have hhere : decide (c = '-' ∧ (more ++ '.' :: rest).head? = some '>') =
        decide (c = '-' ∧ more.head? = some '>') := by
      cases more with
      | nil => simp
      | cons d more => rfl
    rw [List.cons_append, hasArrow_cons, hhere, ih, hasArrow_cons, Bool.or_assoc]

theorem unmarked_point : Unmarked (cs ++ '.' :: rest) ↔ Unmarked cs ∧ Unmarked rest := by
  constructor
  · intro h
    have halias := h.unaliased
    have harrow := h.arrow
    rw [hasAlias_point, Bool.or_eq_false_iff] at halias
    rw [hasArrow_point, Bool.or_eq_false_iff] at harrow
    exact ⟨⟨halias.1, harrow.1⟩, ⟨halias.2, harrow.2⟩⟩
  · rintro ⟨hcs, hrest⟩
    refine ⟨?_, ?_⟩
    · rw [hasAlias_point, hcs.unaliased, hrest.unaliased]
      rfl
    · rw [hasArrow_point, hcs.arrow, hrest.arrow]
      rfl

end

/-! ## The table of a reference -/

section

variable {cs p table : List Char}

theorem baseOf_cons (c : Char) (rest : List Char) :
    baseOf (c :: rest) = if (separator? (c :: rest)).isSome then [] else c :: baseOf rest := by
  rw [baseOf, splitAlias?_cons, baseOf]
  cases separator? (c :: rest) with
  | some after => rfl
  | none => cases splitAlias? rest <;> rfl

/-- What stands before an alias, if there is none before the first point. -/
theorem baseOf_point (h : hasAlias cs = false) (rest : List Char) :
    baseOf (cs ++ '.' :: rest) = cs ++ '.' :: baseOf rest := by
  induction cs with
  | nil =>
    rw [List.nil_append, baseOf_cons, separator?_of_not_blank (by decide)]
    rfl
  | cons c more ih =>
    rw [hasAlias_cons, Bool.or_eq_false_iff] at h
    have hhere := separator?_point (c :: more) rest
    rw [List.cons_append, h.1] at hhere
    rw [List.cons_append, baseOf_cons, hhere, if_neg Bool.false_ne_true, ih h.2, List.cons_append]

/-- What stands before an arrow, if there is none before the first point. -/
theorem splitArrow?_point (h : hasArrow cs = false) (rest : List Char) :
    splitArrow? (cs ++ '.' :: rest) =
      (splitArrow? rest).map fun cut => (cs ++ '.' :: cut.1, cut.2) := by
  induction cs with
  | nil =>
    rw [List.nil_append, splitArrow?_cons, if_neg fun h => absurd h.1 (by decide)]
    rfl
  | cons c more ih =>
    rw [hasArrow_cons, Bool.or_eq_false_iff, decide_eq_false_iff_not] at h
    have hhere : ¬(c = '-' ∧ (more ++ '.' :: rest).head? = some '>') := by
      cases more with
      | nil => exact fun harrow => absurd harrow.2 (by simp)
      | cons d more => exact h.1
    rw [List.cons_append, splitArrow?_cons, if_neg hhere, ih h.2, Option.map_map]
    rfl

/-- The column of a reference with an unmarked first segment. -/
theorem fieldOf_point (h : Unmarked cs) (rest : List Char) :
    ∃ more, fieldOf (cs ++ '.' :: rest) = cs ++ '.' :: more := by
  rw [fieldOf, baseOf_point h.unaliased, splitArrow?_point h.arrow]
  cases splitArrow? (baseOf rest) with
  | none => exact ⟨baseOf rest, rfl⟩
  | some cut => exact ⟨cut.1, rfl⟩

/-- The column of a reference has no alias and no arrow. -/
theorem fieldOf_unmarked (cs : List Char) : Unmarked (fieldOf cs) := by
  have hbase : splitAlias? (baseOf cs) = none := by
    cases h : splitAlias? cs with
    | none => rwa [baseOf_of_none h]
    | some cut => rw [baseOf_of_some h]; exact splitAlias?_before h
  rw [fieldOf]
  cases h : splitArrow? (baseOf cs) with
  | none => exact ⟨hasAlias_eq_false.2 hbase, hasArrow_eq_false.2 h⟩
  | some cut =>
    obtain ⟨hnone, more, hmore⟩ := splitArrow?_before h
    exact ⟨hasAlias_eq_false.2 (splitAlias?_eq_none_of_append (hmore ▸ hbase)),
      hasArrow_eq_false.2 hnone⟩

theorem tableOf?_of_fieldOf {more : List Char} (h : '.' ∉ table)
    (hfield : fieldOf cs = table ++ '.' :: more) : tableOf? cs = some table := by
  obtain ⟨second, others, hsplit⟩ := List.exists_cons_of_ne_nil (List.splitOn_ne_nil '.' more)
  rw [tableOf?, hfield, List.splitOn_append_cons_self_of_not_mem h, hsplit]

/-- A reference has a table exactly if its first segment, before a point, is unmarked. -/
theorem tableOf?_eq_some_iff :
    tableOf? cs = some table ↔
      ∃ rest, cs = table ++ '.' :: rest ∧ '.' ∉ table ∧ Unmarked table := by
  constructor
  · intro h
    by_cases hpoint : '.' ∈ fieldOf cs
    · obtain ⟨first, rest, hfield, hfirst⟩ := List.eq_append_cons_of_mem hpoint
      have htable := tableOf?_of_fieldOf hfirst hfield
      rw [h] at htable
      cases htable
      obtain ⟨more, hmore⟩ := fieldOf_prefix cs
      refine ⟨rest ++ more, ?_, hfirst, ?_⟩
      · rw [← List.cons_append, ← List.append_assoc, ← hfield]
        exact hmore
      · exact (hfield ▸ fieldOf_unmarked cs).of_append
    · rw [tableOf?, List.splitOn_eq_singleton hpoint] at h
      cases h
  · rintro ⟨rest, rfl, hpoint, hunmarked⟩
    obtain ⟨more, hfield⟩ := fieldOf_point hunmarked rest
    exact tableOf?_of_fieldOf hpoint hfield

/-- Whether a reference with a point has a table is told by what stands before the point. -/
theorem tableOf?_point {first : List Char} (hfirst : '.' ∉ first) (rest : List Char) :
    tableOf? (first ++ '.' :: rest) = some table ↔ table = first ∧ Unmarked first := by
  rw [tableOf?_eq_some_iff]
  constructor
  · rintro ⟨rest', heq, hpoint, hunmarked⟩
    have hsame := congrArg (·.splitOn '.') heq
    simp only [List.splitOn_append_cons_self_of_not_mem hfirst,
      List.splitOn_append_cons_self_of_not_mem hpoint, List.cons.injEq] at hsame
    exact ⟨hsame.1.symm, hsame.1 ▸ hunmarked⟩
  · rintro ⟨rfl, hunmarked⟩
    exact ⟨rest, rfl, hfirst, hunmarked⟩

/-- A reference that goes on after a point has the same table as before. -/
theorem tableOf?_append (h : '.' ∈ p) (more : List Char) : tableOf? (p ++ more) = tableOf? p := by
  obtain ⟨first, rest, rfl, hfirst⟩ := List.eq_append_cons_of_mem h
  rw [List.append_assoc, List.cons_append]
  exact Option.ext fun table => (tableOf?_point hfirst _).trans (tableOf?_point hfirst _).symm

/-- The table of a table with its prefix is that of the prefix. -/
theorem tableOf?_prefixed (p : List Char) (h : tableOf? cs = some table) :
    tableOf? (p ++ table) = tableOf? p := by
  by_cases hp : '.' ∈ p
  · exact tableOf?_append hp table
  · have hboth : '.' ∉ p ++ table := by
      rw [List.mem_append]
      exact fun hmem => hmem.elim hp (not_mem_tableOf? h)
    rw [tableOf?_of_dotless hp, tableOf?_of_dotless hboth]

end

end FluentSql.Name
