import FluentSql.Proofs.Limiting
import FluentSql.Proofs.Naming.Prefixing

/-!
# Named sources

A query on a table, perhaps with an alias, finds the name of its source in
several ways: the reference is cut at the alias separator and quoted, the quoted
table is cut at the word before the alias, or the address is put before a
column with a point.  They all come to the same quoted name.

* `PlainText` are the texts that no reference is cut in.
* `NamedTable` is a table with its alias, and `NamedTable.GivenAs` are the
  arguments by which it is given.
* `Grammar.wrapTable_named`, `NamedTable.lastAlias_reference`,
  `Grammar.quotedAlias_named` and `Grammar.wrap_addressed` are the ways.
* `QueryId.setSource_named` sets the source.
-/

namespace FluentSql

namespace Name

open Text

/-! ## The word before an alias -/

section

variable {t a cs current : List Char}

theorem dropBlanks_of_no_blank (h : ∀ c ∈ cs, isBlank c = false) : dropBlanks cs = cs := by
  cases cs with
  | nil => rfl
  | cons c rest =>
    exact List.dropWhile_cons_of_neg (by rw [h c List.mem_cons_self]; exact Bool.false_ne_true)

/-- A name with an alias is cut at the word between them. -/
theorem splitAlias?_word (ht : ∀ c ∈ t, isBlank c = false) (ha : ∀ c ∈ a, isBlank c = false) :
    splitAlias? (t ++ " as ".toList ++ a) = some (t, a) := by
  induction t with
  | nil =>
    have hword : separator? (' ' :: 'a' :: 's' :: ' ' :: a) = some (dropBlanks a) := rfl
    show splitAlias? (' ' :: 'a' :: 's' :: ' ' :: a) = _
    rw [splitAlias?_cons, hword, dropBlanks_of_no_blank ha]
  | cons c rest ih =>
    obtain ⟨hc, hrest⟩ := List.forall_mem_cons.1 ht
    rw [List.cons_append, List.cons_append, splitAlias?_cons, separator?_of_not_blank hc, ih hrest]
    rfl

theorem splitAliasesWith_of_no_blank (ha : ∀ c ∈ a, isBlank c = false) (fuel : Nat) :
    splitAliasesWith fuel a = [a] := by
  cases fuel with
  | zero => rfl
  | succ fuel => rw [splitAliasesWith, hasAlias_eq_false.1 (hasAlias_of_no_blank ha)]

theorem splitAliases_word (ht : ∀ c ∈ t, isBlank c = false) (ha : ∀ c ∈ a, isBlank c = false) :
    splitAliases (t ++ " as ".toList ++ a) = [t, a] := by
  obtain ⟨fuel, hfuel⟩ : ∃ fuel, (t ++ " as ".toList ++ a).length = fuel + 1 :=
    ⟨t.length + 3 + a.length, by
      rw [List.length_append, List.length_append, show " as ".toList.length = 4 from rfl]
      omega⟩
  rw [splitAliases, hfuel, splitAliasesWith, splitAlias?_word ht ha]
  dsimp only
  rw [splitAliasesWith_of_no_blank ha]

/-- A text without spaces is read to its end. -/
theorem afterLastFrom_of_no_space (h : ' ' ∉ cs) :
    Grammar.afterLastFrom " as ".toList current 0 cs = current.reverse ++ cs := by
  induction cs generalizing current with
  | nil => exact (List.append_nil _).symm
  | cons c rest ih =>
    rw [List.mem_cons, not_or] at h
    have hword : (" as ".toList).isPrefixOf (c :: rest) = false := by
      show (' ' == c && _) = false
      rw [beq_eq_false_iff_ne.2 h.1]
      rfl
    rw [Grammar.afterLastFrom, hword, if_neg Bool.false_ne_true, ih h.2]
    simp

theorem afterLastFrom_word (ht : ' ' ∉ t) (ha : ' ' ∉ a) :
    Grammar.afterLastFrom " as ".toList current 0 (t ++ " as ".toList ++ a) = a := by
  induction t generalizing current with
  | nil =>
    have hrest : Grammar.afterLastFrom " as ".toList [] 0 a = [].reverse ++ a :=
      afterLastFrom_of_no_space ha
    exact hrest
  | cons c rest ih =>
    rw [List.mem_cons, not_or] at ht
    have hword : (" as ".toList).isPrefixOf (c :: (rest ++ " as ".toList ++ a)) = false := by
      show (' ' == c && _) = false
      rw [beq_eq_false_iff_ne.2 ht.1]
      rfl
    rw [List.cons_append, List.cons_append, Grammar.afterLastFrom, hword,
      if_neg Bool.false_ne_true, ih ht.2]

/-! ## Quoted names -/

variable {dialect : Dialect} {p : List Char}

/-- Quoting adds no character but the quote. -/
theorem not_mem_quoteName {c : Char} (hquote : c ≠ dialect.quote) (h : c ∉ cs) :
    c ∉ quoteName dialect cs := by
  unfold quoteName
  split
  · exact h
  · intro hmem
    rw [List.cons_append, List.mem_cons, List.mem_append, List.mem_singleton] at hmem
    rcases hmem with hmem | hmem | hmem
    · exact hquote hmem
    · unfold doubleChar at hmem
      obtain ⟨d, hd, hmem⟩ := List.mem_flatMap.1 hmem
      have hsame : c = d := by
        split at hmem
        · simpa using hmem
        · exact List.mem_singleton.1 hmem
      exact h (hsame ▸ hd)
    · exact hquote hmem

/-- A quoted name starts and ends with no blank. -/
theorem quoteName_ends (dialect : Dialect) (cs : List Char) :
    (∃ c rest, quoteName dialect cs = c :: rest ∧ isBlank c = false) ∧
      ∃ front c, quoteName dialect cs = front ++ [c] ∧ isBlank c = false := by
  have hquote : isBlank dialect.quote = false := by cases dialect <;> decide
  unfold quoteName
  split
  · rename_i h
    rw [h]
    exact ⟨⟨'*', [], rfl, by decide⟩, ⟨[], '*', rfl, by decide⟩⟩
  · exact ⟨⟨_, _, rfl, hquote⟩, ⟨dialect.quote :: doubleChar dialect.quote cs, _, rfl, hquote⟩⟩

/-- A table with an alias is quoted with the prefix before both. -/
theorem wrap_aliased (hname : Unmarked (p ++ t)) (hpoint : '.' ∉ p ++ t)
    (hcut : splitAlias? (p ++ t ++ " as ".toList ++ a) = some (p ++ t, a)) :
    wrap dialect (some p) true (p ++ t ++ " as ".toList ++ a) =
      .ok (quoteName dialect (p ++ t) ++ " as ".toList ++ quoteName dialect (p ++ a)) := by
  have htable : wrapFrom dialect (some p) 11 false (p ++ t) = .ok (quoteName dialect (p ++ t)) :=
    wrapFrom_single hname hpoint
  show wrapFrom dialect (some p) (11 + 1) true _ = _
  rw [wrapFrom_succ, hcut]
  dsimp only
  rw [htable]
  rfl

end

end Name

/-! ## Tables with their names -/

/-- A text without blanks, points and the characters of arrows. -/
def PlainText (s : String) : Prop :=
  ∀ c ∈ s.toList, Text.isBlank c = false ∧ c ≠ '.' ∧ c ≠ '-' ∧ c ≠ '>'

instance (s : String) : Decidable (PlainText s) :=
  List.decidableBAll (fun c => Text.isBlank c = false ∧ c ≠ '.' ∧ c ≠ '-' ∧ c ≠ '>') s.toList

/-- A table, perhaps with an alias. -/
structure NamedTable where
  /-- The table. -/
  table : String
  /-- The alias. -/
  given : Option String

namespace NamedTable

/-- The reference as one text. -/
def reference (n : NamedTable) : String :=
  n.given.elim n.table (n.table ++ " as " ++ ·)

/-- The name by which the table is addressed: its alias, or the table itself. -/
def address (n : NamedTable) : String :=
  n.given.getD n.table

/-- The table and its alias are plain texts that are not empty. -/
structure IsPlain (n : NamedTable) : Prop where
  table : PlainText n.table
  given : ∀ a ∈ n.given, PlainText a
  table_ne : n.table ≠ ""
  given_ne : ∀ a ∈ n.given, a ≠ ""

/-- The arguments by which the table is given: the whole reference, or the table and its alias. -/
inductive GivenAs (n : NamedTable) : Value → Value → Prop where
  /-- The reference alone. -/
  | reference {name : Value} (h : name.truthy = false) : n.GivenAs (.text n.reference) name
  /-- The table with its alias. -/
  | apart {a : String} (h : n.given = some a) : n.GivenAs (.text n.table) (.text a)

end NamedTable

/-- A single name in quotes. -/
def Grammar.quoted (g : Grammar) (s : String) : String :=
  String.ofList (Name.quoteName g.dialect s.toList)

/-- The name of a source in quotes, with the prefix before it. -/
def Grammar.sourceName (g : Grammar) (p : String) (n : NamedTable) : String :=
  g.quoted (p ++ n.address)

/-- The quoted table with the name of the source behind it, unless it is that name. -/
def Grammar.sourceTable (g : Grammar) (p : String) (n : NamedTable) : String :=
  n.given.elim (g.sourceName p n) fun _ => g.quoted (p ++ n.table) ++ " as " ++ g.sourceName p n

section

variable {g : Grammar} {p s t : String} {n : NamedTable}

theorem PlainText.no_blank (h : PlainText s) : ∀ c ∈ s.toList, Text.isBlank c = false :=
  fun c hc => (h c hc).1

theorem PlainText.no_point (h : PlainText s) : '.' ∉ s.toList :=
  fun hc => (h _ hc).2.1 rfl

theorem PlainText.unmarked (h : PlainText s) : Name.Unmarked s.toList :=
  ⟨Name.hasAlias_of_no_blank h.no_blank, Name.hasArrow_of_not_mem fun hc => (h _ hc).2.2.1 rfl⟩

theorem PlainText.append (hs : PlainText s) (ht : PlainText t) : PlainText (s ++ t) := by
  unfold PlainText
  rw [String.toList_append]
  exact List.forall_mem_append.2 ⟨hs, ht⟩

theorem NamedTable.IsPlain.address (h : n.IsPlain) : PlainText n.address := by
  unfold NamedTable.address
  cases hgiven : n.given with
  | none => exact h.table
  | some a => exact h.given a hgiven

theorem NamedTable.IsPlain.address_ne (h : n.IsPlain) : n.address ≠ "" := by
  unfold NamedTable.address
  cases hgiven : n.given with
  | none => exact h.table_ne
  | some a => exact h.given_ne a hgiven

/-! ## The ways to the name -/

/-- The table and its alias are quoted, each with the prefix. -/
theorem Grammar.wrapTable_named (hp : g.tablePrefix = .text p) (hplain : PlainText p)
    (h : n.IsPlain) :
    g.wrapTable (.text n.reference) = .ok (.text (g.sourceTable p n)) := by
  have hprefixed := hplain.append h.table
  have hunmarked := hprefixed.unmarked
  have hpoint := hprefixed.no_point
  have hblank := hprefixed.no_blank
  rw [String.toList_append] at hunmarked hpoint hblank
  have htext : (.text n.reference : Value) = Grammar.quotedText n.reference.toList :=
    congrArg Value.text String.ofList_toList.symm
  rw [htext, wrapTable_text hp]
  unfold sourceTable sourceName NamedTable.reference NamedTable.address
  cases hgiven : n.given with
  | none =>
    have hsingle : Name.wrap g.dialect (some p.toList) true (p.toList ++ n.table.toList) =
        .ok (Name.quoteName g.dialect (p.toList ++ n.table.toList)) :=
      Name.wrapFrom_single hunmarked hpoint
    show (Name.wrap g.dialect (some p.toList) true (p.toList ++ n.table.toList)).map _ = _
    rw [hsingle, ← String.toList_append]
    rfl
  | some a =>
    have hreference : p.toList ++ (n.table ++ " as " ++ a).toList =
        p.toList ++ n.table.toList ++ " as ".toList ++ a.toList := by
      simp only [String.toList_append, List.append_assoc]
    have hcut := Name.splitAlias?_word hblank (h.given a hgiven).no_blank
    show (Name.wrap g.dialect (some p.toList) true
      (p.toList ++ (n.table ++ " as " ++ a).toList)).map _ = _
    rw [hreference, Name.wrap_aliased hunmarked hpoint hcut]
    refine congrArg (fun s : String => Except.ok (Value.text s)) (String.toList_inj.1 ?_)
    unfold quoted
    simp only [String.toList_append, String.toList_ofList, Option.elim_some, Option.getD_some]

/-- The reference is cut at the separator, and what stands behind the last one is the address. -/
theorem NamedTable.lastAlias_reference (h : n.IsPlain) :
    Name.lastAlias n.reference = n.address := by
  unfold Name.lastAlias reference address
  cases hgiven : n.given with
  | none =>
    rw [Option.elim_none, Option.getD_none, Name.splitAliases,
      Name.splitAliasesWith_of_no_blank h.table.no_blank]
    exact String.ofList_toList
  | some a =>
    rw [Option.elim_some, Option.getD_some, String.toList_append, String.toList_append,
      Name.splitAliases_word h.table.no_blank (h.given a hgiven).no_blank]
    exact String.ofList_toList

theorem PlainText.no_space_quoted (g : Grammar) (h : PlainText s) : ' ' ∉ (g.quoted s).toList := by
  unfold Grammar.quoted
  rw [String.toList_ofList]
  refine Name.not_mem_quoteName (by cases g.dialect <;> decide) fun hc => ?_
  exact absurd (h.no_blank ' ' hc) (by decide)

/-- The quoted table is cut at the word before the alias. -/
theorem Grammar.quotedAlias_named (hplain : PlainText p) (h : n.IsPlain) (oracle : Oracle) :
    Grammar.quotedAlias oracle (.text (g.sourceTable p n)) = .ok (g.sourceName p n) := by
  have hname : ' ' ∉ (g.sourceName p n).toList := (hplain.append h.address).no_space_quoted g
  unfold quotedAlias sourceTable
  cases n.given with
  | none =>
    rw [Option.elim_none]
    dsimp only
    rw [Name.afterLastFrom_of_no_space hname]
    exact congrArg Except.ok String.ofList_toList
  | some a =>
    have htable := (hplain.append h.table).no_space_quoted g
    rw [Option.elim_some]
    dsimp only
    rw [String.toList_append, String.toList_append, Name.afterLastFrom_word htable hname]
    exact congrArg Except.ok String.ofList_toList

/-- Before a column the address is quoted as a table. -/
theorem Grammar.wrap_addressed (hp : g.tablePrefix = .text p) (hplain : PlainText p) (h : n.IsPlain)
    {column : String} (hcolumn : PlainText column) :
    g.wrap (.text (n.address ++ "." ++ column)) =
      .ok (.text (g.sourceName p n ++ "." ++ g.quoted column)) := by
  have htable : Name.TableName [n.address.toList] :=
    { segmented := List.cons_ne_nil _ _
      nonempty := List.forall_mem_singleton.2 fun hnil =>
        h.address_ne (String.toList_eq_nil_iff.1 hnil)
      pointless := List.forall_mem_singleton.2 h.address.no_point
      solid := List.forall_mem_singleton.2 h.address.no_blank
      arrowless := List.forall_mem_singleton.2 h.address.unmarked.arrow }
  have hprefixed := (hplain.append h.address).unmarked
  rw [String.toList_append] at hprefixed
  have hwrapped := wrap_column hp hplain.no_point htable hprefixed hcolumn.no_point hcolumn.unmarked
  have htext : (.text (n.address ++ "." ++ column) : Value) =
      Grammar.quotedText (Name.joinPoints [n.address.toList] ++ '.' :: column.toList) := by
    refine congrArg Value.text (String.toList_inj.1 ?_)
    rw [String.toList_ofList, String.toList_append, String.toList_append, List.append_assoc]
    rfl
  rw [htext, hwrapped]
  refine congrArg (fun s : String => Except.ok (Value.text s)) (String.toList_inj.1 ?_)
  unfold sourceName quoted
  simp only [String.toList_append, String.toList_ofList, List.append_assoc]
  rfl

theorem Grammar.closes_quoted (g : Grammar) (s : String) : Closes (g.quoted s) := by
  obtain ⟨_, front, c, hquoted, hc⟩ := Name.quoteName_ends g.dialect s.toList
  exact ⟨front, c, by rw [quoted, String.toList_ofList, hquoted], hc⟩

theorem Grammar.closes_sourceTable (g : Grammar) (p : String) (n : NamedTable) :
    Closes (g.sourceTable p n) := by
  unfold sourceTable
  cases n.given with
  | none => exact g.closes_quoted _
  | some a => exact (g.closes_quoted _).after _

end

/-! ## Setting the source -/

/-- A table that is given in either way is the source of the query. -/
theorem QueryId.setSource_named (run : Runner) (id : QueryId) {n : NamedTable} (h : n.IsPlain)
    {table name : Value} (hgiven : n.GivenAs table name) (s : Store) :
    (id.setSource run table name).runOn s =
      (.ok (), s.edit id fun query => { query with source := .text n.reference }) := by
  cases hgiven with
  | reference hname =>
    unfold setSource
    rw [if_neg (by exact Bool.false_ne_true), hname]
    rfl
  | apart hgiven =>
    rename_i a
    have htruthy : (Value.text a).truthy = true := by
      show (!a.isEmpty) = true
      rw [Bool.not_eq_true', Bool.eq_false_iff]
      exact fun hempty => h.given_ne a hgiven (String.isEmpty_iff.1 hempty)
    have hreference : n.reference = n.table ++ " as " ++ a := by
      rw [NamedTable.reference, hgiven]
      rfl
    unfold setSource
    rw [if_neg (by exact Bool.false_ne_true), if_pos htruthy, hreference]
    rfl

end FluentSql
