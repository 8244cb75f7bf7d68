import Mathlib.Data.List.Nodup
import FluentSql.Proofs.Apart
import FluentSql.Proofs.Building.Changing
import FluentSql.Proofs.Regular
import FluentSql.Proofs.Traversing

/-!
# Inserts keep values under their columns

The records of an insert are maps.  The first of them gives the columns and
their order; the others are brought into that order, and a record with other
columns is refused.  The text and the values are then written apart from each
other, row by row.

* `Store.Tabulates` says that records hold the rows of a table, each record in
  an order of its own.
* `alignRecords_tabulated` brings records into the order of the columns, and
  `alignRecords_mismatch` is about records with other columns.
* `insertText` is the text of an insert of some rows.
* `inserts_aligned` is the result, for the three inserts.
-/

namespace FluentSql

open Name

/-! ## Records and rows -/

/-- The entries of a record: of a map, or of the bindings of a query as they are now. -/
def Store.entries? (s : Store) : Value → Option (List (Value × Value))
  | .map entries => some entries
  | .object (.bindings id) => some (s.query id).bindings.toEntries
  | _ => none

/-- A row of values under some columns. -/
def rowEntries (columns : List String) (row : List Value) : List (Value × Value) :=
  (columns.map Value.text).zip row

/-- Records hold the rows of a table: each has one value under each column, in an order of its own.
The first has them in the order of the columns. -/
structure Store.Tabulates (s : Store) (columns : List String) (records : List Value)
    (rows : List (List Value)) : Prop where
  columns_ne : columns ≠ []
  nodup : columns.Nodup
  records_ne : records ≠ []
  first : records.head?.bind s.entries? = rows.head?.map (rowEntries columns)
  rows : List.Forall₂ (fun record row => row.length = columns.length ∧
    ∃ entries, s.entries? record = some entries ∧ entries.Perm (rowEntries columns row)) records rows

section

variable {columns : List String} {row : List Value} {entries : List (Value × Value)}

theorem map_fst_rowEntries (h : row.length = columns.length) :
    (rowEntries columns row).map Prod.fst = columns.map Value.text :=
  List.map_fst_zip (by rw [List.length_map, h])

theorem map_snd_rowEntries (h : row.length = columns.length) :
    (rowEntries columns row).map Prod.snd = row :=
  List.map_snd_zip (by rw [List.length_map, h])

/-! ## Records in the order of the columns -/

/-- A list of keys is one of texts. -/
def AllTexts (keys : List Value) : Prop :=
  ∀ k ∈ keys, ∃ c, k = .text c

theorem any_sameKey_iff {keys : List Value} (hkeys : AllTexts keys) (c : String) :
    keys.any (Value.text c).sameKey = true ↔ .text c ∈ keys := by
  rw [List.any_eq_true]
  constructor
  · rintro ⟨k, hk, hsame⟩
    obtain ⟨d, rfl⟩ := hkeys k hk
    rw [Value.sameKey_text, beq_iff_eq] at hsame
    rwa [hsame]
  · intro hmem
    exact ⟨_, hmem, by rw [Value.sameKey_text, beq_self_eq_true]⟩

/-- Two lists of texts hold the same keys exactly if they have the same members. -/
theorem sameKeys_iff {keys others : List Value} (hkeys : AllTexts keys) (hothers : AllTexts others) :
    sameKeys keys others = true ↔ ∀ k, k ∈ keys ↔ k ∈ others := by
  rw [sameKeys, Bool.and_eq_true, List.all_eq_true, List.all_eq_true]
  constructor
  · rintro ⟨hforth, hback⟩ k
    refine ⟨fun hk => ?_, fun hk => ?_⟩
    · obtain ⟨c, rfl⟩ := hkeys k hk
      exact (any_sameKey_iff hothers c).1 (hforth _ hk)
    · obtain ⟨c, rfl⟩ := hothers k hk
      exact (any_sameKey_iff hkeys c).1 (hback _ hk)
  · intro h
    refine ⟨fun k hk => ?_, fun k hk => ?_⟩
    · obtain ⟨c, rfl⟩ := hkeys k hk
      exact (any_sameKey_iff hothers c).2 ((h _).1 hk)
    · obtain ⟨c, rfl⟩ := hothers k hk
      exact (any_sameKey_iff hkeys c).2 ((h _).2 hk)

theorem allTexts_columns (columns : List String) : AllTexts (columns.map Value.text) := by
  intro k hk
  obtain ⟨c, _, rfl⟩ := List.mem_map.1 hk
  exact ⟨c, rfl⟩

/-- A record has under a column the value of its row, wherever the column stands in it. -/
theorem lookupKey_of_perm (hnodup : columns.Nodup) (hlength : row.length = columns.length)
    (hperm : entries.Perm (rowEntries columns row)) {c : String} {v : Value}
    (hmem : (.text c, v) ∈ rowEntries columns row) : lookupKey (.text c) entries = some v := by
  have hkeys : ((rowEntries columns row).map Prod.fst).Nodup := by
    rw [map_fst_rowEntries hlength]
    exact List.Nodup.map (fun _ _ h => Value.text.inj h) hnodup
  have hfound : (entries.find? fun entry => (Value.text c).sameKey entry.1).isSome := by
    rw [List.find?_isSome]
    exact ⟨_, hperm.mem_iff.2 hmem, by rw [Value.sameKey_text, beq_self_eq_true]⟩
  obtain ⟨entry, hentry⟩ := Option.isSome_iff_exists.1 hfound
  have hin : entry ∈ rowEntries columns row := hperm.mem_iff.1 (List.mem_of_find?_eq_some hentry)
  obtain ⟨d, _, hd⟩ := List.mem_map.1 (List.of_mem_zip hin).1
  have hsame := List.find?_some hentry
  rw [← hd, Value.sameKey_text, beq_iff_eq] at hsame
  have heq : entry = (.text c, v) :=
    List.inj_on_of_nodup_map hkeys hin hmem (by rw [← hd, hsame])
  rw [lookupKey, hentry, heq]
  rfl

/-- A record with the columns of the first one is brought into their order. -/
theorem alignRecord_of_perm (hnodup : columns.Nodup) (hlength : row.length = columns.length)
    (hperm : entries.Perm (rowEntries columns row)) :
    alignRecord (columns.map Value.text) entries = .ok (rowEntries columns row) := by
  have hkeys : (entries.map Prod.fst).Perm (columns.map Value.text) :=
    map_fst_rowEntries hlength ▸ hperm.map Prod.fst
  have hsame : sameKeys (entries.map Prod.fst) (columns.map Value.text) = true :=
    (sameKeys_iff (fun k hk => allTexts_columns columns k (hkeys.mem_iff.1 hk))
      (allTexts_columns columns)).2 fun k => hkeys.mem_iff
  rw [alignRecord, if_pos hsame]
  rw [← map_fst_rowEntries hlength]
  refine mapM_eq_ok_iff.2 (List.forall₂_map_left_iff.2 (List.forall₂_same.2 fun entry hentry => ?_))
  obtain ⟨c, _, hc⟩ := List.mem_map.1 (List.of_mem_zip hentry).1
  obtain ⟨key, v⟩ := entry
  cases hc
  rw [lookupKey_of_perm hnodup hlength hperm hentry]
  rfl

/-- A record with other columns than the first one is refused. -/
theorem alignRecord_mismatch {keys : List Value} (hkeys : AllTexts keys)
    (hentries : AllTexts (entries.map Prod.fst))
    (h : ∃ k, ¬(k ∈ entries.map Prod.fst ↔ k ∈ keys)) :
    alignRecord keys entries = .error (.argument .recordColumns) := by
  obtain ⟨k, hk⟩ := h
  rw [alignRecord, if_neg]
  exact fun hsame => hk ((sameKeys_iff hentries hkeys).1 hsame k)

/-- A record of texts is brought into order or refused. -/
theorem alignRecord_isOk {keys : List Value} (hkeys : AllTexts keys)
    (hentries : AllTexts (entries.map Prod.fst)) (h : ∀ k, k ∈ entries.map Prod.fst ↔ k ∈ keys) :
    ∃ aligned, alignRecord keys entries = .ok aligned := by
  rw [alignRecord, if_pos ((sameKeys_iff hentries hkeys).2 h)]
  refine mapM_isOk fun k hk => ?_
  obtain ⟨c, rfl⟩ := hkeys k hk
  have hany := (any_sameKey_iff hentries c).2 ((h _).2 hk)
  rw [List.any_map] at hany
  obtain ⟨entry, hentry⟩ :=
    Option.isSome_iff_exists.1 (List.find?_isSome.2 (List.any_eq_true.1 hany))
  have hlookup : lookupKey (.text c) entries = some entry.2 := by
    rw [lookupKey]
    exact congrArg (Option.map Prod.snd) hentry
  rw [hlookup]
  exact ⟨_, rfl⟩

end

/-! ## All records of an insert -/

section

variable {s : Store} {columns : List String} {records : List Value} {rows : List (List Value)}

/-- The records of a table, in the order of its columns. -/
def tableRecords (columns : List String) (rows : List (List Value)) : List (List (Value × Value)) :=
  rows.map (rowEntries columns)

theorem mapM_runOn {α β : Type} {f : α → Action β} {xs : List α} {ys : List β}
    (h : List.Forall₂ (fun x y => (f x).runOn s = (.ok y, s)) xs ys) :
    (xs.mapM f).runOn s = (.ok ys, s) := by
  induction h with
  | nil => rfl
  | cons hx _ ih =>
    rw [List.mapM_cons, Action.runOn_bind, hx]
    dsimp only
    rw [Action.runOn_bind, ih]
    rfl

theorem recordOf_runOn (run : Runner) {v : Value} {entries : List (Value × Value)}
    (h : s.entries? v = some entries) : (recordOf run v).runOn s = (.ok entries, s) := by
  unfold Store.entries? at h
  split at h
  · cases h
    rfl
  · cases h
    rfl
  · exact nomatch h

theorem recordsOf_runOn (run : Runner) {entries : List (List (Value × Value))}
    (h : List.Forall₂ (fun v entries => s.entries? v = some entries) records entries) :
    (recordsOf run (.list records)).runOn s = (.ok entries, s) := by
  have hrecords : (recordsOf run (.list records)).runOn s = (records.mapM (recordOf run)).runOn s :=
    rfl
  rw [hrecords]
  exact mapM_runOn (h.imp fun _ _ h => recordOf_runOn run h)

/-- The records of a table are brought into the order of its columns. -/
theorem Store.Tabulates.aligned (h : s.Tabulates columns records rows) :
    ∃ entries, List.Forall₂ (fun v entries => s.entries? v = some entries) records entries ∧
      alignRecords entries = .ok (tableRecords columns rows) := by
  obtain ⟨hcolumns, hnodup, hrecords, hfirst, hrows⟩ := h
  cases hrows with
  | nil => exact absurd rfl hrecords
  | @cons record row records rows hrow hrows =>
    obtain ⟨hlength, entries, hentries, hperm⟩ := hrow
    have hsame : entries = rowEntries columns row := by
      have hfirst' : s.entries? record = some (rowEntries columns row) := hfirst
      rw [hentries] at hfirst'
      exact Option.some.inj hfirst'
    obtain ⟨others, hothers, haligned⟩ : ∃ others,
        List.Forall₂ (fun v entries => s.entries? v = some entries) records others ∧
        others.mapM (alignRecord (columns.map Value.text)) =
          .ok (rows.map (rowEntries columns)) := by
      clear hfirst hrecords
      induction hrows with
      | nil => exact ⟨[], .nil, rfl⟩
      | cons hrow _ ih =>
        obtain ⟨hlength, entries, hentries, hperm⟩ := hrow
        obtain ⟨others, hothers, haligned⟩ := ih
        refine ⟨entries :: others, .cons hentries hothers, ?_⟩
        rw [List.mapM_cons, alignRecord_of_perm hnodup hlength hperm, haligned]
        rfl
    refine ⟨entries :: others, .cons hentries hothers, ?_⟩
    have hkeys : entries.map (·.1) = columns.map Value.text := by
      rw [hsame]
      exact map_fst_rowEntries hlength
    have hsome : (columns.map Value.text).isEmpty = false := by
      rw [List.isEmpty_map, List.isEmpty_eq_false_iff]
      exact hcolumns
    unfold alignRecords
    dsimp only
    rw [hkeys, List.mapM_cons, alignRecord_of_perm hnodup hlength hperm, haligned]
    dsimp only [bind, Except.bind, pure, Except.pure]
    rw [hsome]
    rfl

end

/-! ## The text of an insert -/

/-- What stands in an insert for a value: a raw fragment itself, or a placeholder. -/
def insertedText : Value → String
  | .raw v => v.display
  | _ => "?"

/-- A value can stand in an insert: a raw fragment holds a text. -/
def Value.Inlines (v : Value) : Prop :=
  ∀ w, v = .raw w → ∃ t, w = .text t

/-- The text of an insert of some rows, given its first words and the quoted names. -/
def insertText (words table : String) (columns : List String) (rows : List (List Value)) : String :=
  words ++ " into " ++ table ++ " (" ++ joinWith ", " columns ++ ") values " ++
    joinWith ", " (rows.map fun row => "(" ++ joinWith ", " (row.map insertedText) ++ ")")

/-- An insert of some rows, if its names can be quoted, given its first words and what ends it. -/
def Grammar.insertedSql (g : Grammar) (words : String) (ending : Except Failure String)
    (source : Value) (columns : List String) (rows : List (List Value)) : Except Failure String := do
  let table ← g.wrappedTable source
  let quoted ← columns.mapM (g.wrapText false)
  let ending ← ending
  return insertText words table quoted rows ++ ending

section

variable {g : Grammar} {s : Store} {oracle : Oracle} {q : Query}
variable {columns : List String} {rows : List (List Value)} {row : List Value} {v : Value}

theorem joinTexts_texts (separator : String) (ts : List String) :
    joinTexts separator (ts.map Value.text) = .ok (joinWith separator ts) := by
  have htexts : (ts.map Value.text).mapM Value.asText = .ok ts :=
    mapM_eq_ok_iff.2 (List.forall₂_map_left_iff.2 (List.forall₂_same.2 fun _ _ => rfl))
  rw [joinTexts, htexts]
  rfl

theorem columnize_texts (columns : List String) :
    g.columnize (columns.map Value.text) =
      (columns.mapM (g.wrapText false)).map (joinWith ", ") := by
  have hwrap : (columns.map Value.text).mapM g.wrap =
      (columns.mapM (g.wrapText false)).map (List.map Value.text) := by
    induction columns with
    | nil => rfl
    | cons c columns ih =>
      have hc : g.wrap (.text c) = (g.wrapText false c).map .text := rfl
      rw [List.map_cons, List.mapM_cons, List.mapM_cons, hc, ih]
      cases g.wrapText false c with
      | error e => rfl
      | ok t => cases columns.mapM (g.wrapText false) <;> rfl
  rw [Grammar.columnize, hwrap]
  cases columns.mapM (g.wrapText false) with
  | error e => rfl
  | ok ts => exact joinTexts_texts ", " ts

theorem Value.Inlines.parameter (h : v.Inlines) : Grammar.parameter v = .text (insertedText v) := by
  cases v with
  | raw w =>
    obtain ⟨t, rfl⟩ := h w rfl
    rfl
  | _ => rfl

theorem parameterize_inlined (h : ∀ v ∈ row, v.Inlines) :
    Grammar.parameterize row = .ok (joinWith ", " (row.map insertedText)) := by
  have hrow : row.map Grammar.parameter = (row.map insertedText).map Value.text := by
    rw [List.map_map]
    exact List.map_congr_left fun v hv => (h v hv).parameter
  rw [Grammar.parameterize, hrow, joinTexts_texts]

/-- A row is only written if its raw fragments hold texts. -/
theorem inlines_of_parameterize {t : String} (h : Grammar.parameterize row = .ok t) (hv : v ∈ row) :
    v.Inlines := by
  rintro w rfl
  obtain ⟨ts, hts, _⟩ := bind_eq_ok h
  have hforall := List.forall₂_map_left_iff.1 (mapM_eq_ok_iff.1 hts)
  obtain ⟨t, _, ht⟩ := exists_of_forall₂ hforall hv
  cases w with
  | text t => exact ⟨t, rfl⟩
  | _ => exact nomatch ht

/-! ## Rows as a store shows them -/

theorem Store.shown_raw (s : Store) (v : Value) : s.shown (.raw v) = .raw (s.shown v) := rfl

/-- A reference is shown as no text. -/
theorem Store.shown_eq_text {t : String} (h : s.shown v = .text t) : v = .text t := by
  cases v with
  | object handle => cases handle <;> exact nomatch h
  | text u => exact h
  | _ => exact nomatch h

theorem Store.shown_object_ne_raw (s : Store) (handle : Handle) (w : Value) :
    s.shown (.object handle) ≠ .raw w := by
  cases handle <;> exact fun h => nomatch h

theorem Store.inlines_shown (s : Store) : (s.shown v).Inlines ↔ v.Inlines := by
  cases v with
  | raw w =>
    constructor
    · rintro h _ hw
      cases hw
      obtain ⟨t, ht⟩ := h _ rfl
      exact ⟨t, s.shown_eq_text ht⟩
    · rintro h _ hw
      obtain ⟨t, rfl⟩ := h w rfl
      cases hw
      exact ⟨t, rfl⟩
  | object handle =>
    exact iff_of_true (fun w h => absurd h (s.shown_object_ne_raw handle w)) fun w h => nomatch h
  | _ => exact iff_of_true (fun w h => nomatch h) fun w h => nomatch h

theorem Store.insertedText_shown (s : Store) (h : v.Inlines) :
    insertedText (s.shown v) = insertedText v := by
  cases v with
  | raw w =>
    obtain ⟨t, rfl⟩ := h w rfl
    rfl
  | object handle => cases handle <;> rfl
  | _ => rfl

/-- The records of a table are shown as those of its shown rows. -/
theorem Store.shown_tableRecords (s : Store) (columns : List String) (rows : List (List Value)) :
    s.shown (recordsValue (tableRecords columns rows)) =
      recordsValue (tableRecords columns (rows.map (·.map s.shown))) := by
  have hcolumns : columns.map Value.text = (columns.map Value.text).map s.shown := by
    rw [List.map_map]
    rfl
  have hrow : ∀ row, s.shown (.map (rowEntries columns row)) =
      .map (rowEntries columns (row.map s.shown)) := by
    intro row
    show Value.map (Value.substituteEntries _ _) = Value.map ((columns.map Value.text).zip _)
    rw [substituteEntries_eq, hcolumns, List.zip_map]
    rfl
  show Value.list (Value.substituteAll _ _) = _
  rw [Value.substituteAll_eq_map, recordsValue, tableRecords, tableRecords]
  simp only [List.map_map]
  exact congrArg Value.list (List.map_congr_left fun row _ => hrow row)

/-! ## Compiled inserts -/

/-- The groups of an insert are its rows, each between parentheses. -/
theorem mapM_rows_tableRecords (hlength : ∀ row ∈ rows, row.length = columns.length) :
    ((tableRecords columns rows).map Value.map).mapM (fun record => do
        return "(" ++ (← Grammar.parameterize (← Value.valuesBy oracle record)) ++ ")") =
      (rows.mapM Grammar.parameterize).map (List.map fun group => "(" ++ group ++ ")") := by
  induction rows with
  | nil => rfl
  | cons row rows ih =>
    have hvalues : (Value.map (rowEntries columns row)).valuesBy oracle = .ok row :=
      congrArg Except.ok (map_snd_rowEntries (hlength row List.mem_cons_self))
    rw [tableRecords, List.map_cons, List.map_cons, List.mapM_cons, List.mapM_cons, hvalues,
      ← tableRecords, ih fun row hrow => hlength row (List.mem_cons_of_mem _ hrow)]
    dsimp only [bind, Except.bind]
    cases Grammar.parameterize row with
    | error e => rfl
    | ok group => cases rows.mapM Grammar.parameterize <;> rfl

/-- An insert of the rows of a table: its names are quoted, then every row is written. -/
theorem insertSql_tableRecords (hrows : rows ≠ [])
    (hlength : ∀ row ∈ rows, row.length = columns.length) :
    g.insertSql oracle q (recordsValue (tableRecords columns rows)) = (do
      let table ← g.wrappedTable q.source
      let quoted ← columns.mapM (g.wrapText false)
      let groups ← rows.mapM Grammar.parameterize
      return "insert into " ++ table ++ " (" ++ joinWith ", " quoted ++ ") values " ++
        joinWith ", " (groups.map fun group => "(" ++ group ++ ")")) := by
  obtain ⟨row, rows, rfl⟩ := List.exists_cons_of_ne_nil hrows
  have hkeys : (rowEntries columns row).map Prod.fst = columns.map Value.text :=
    map_fst_rowEntries (hlength row List.mem_cons_self)
  unfold Grammar.insertSql
  cases g.wrappedTable q.source with
  | error e => rfl
  | ok table =>
    show (do
      let columns ← g.columnize ((rowEntries columns row).map Prod.fst)
      let groups ← ((tableRecords _ (row :: rows)).map Value.map).mapM fun record => do
        return "(" ++ (← Grammar.parameterize (← Value.valuesBy oracle record)) ++ ")"
      return "insert into " ++ table ++ " (" ++ columns ++ ") values " ++ joinWith ", " groups) = _
    rw [hkeys, columnize_texts, mapM_rows_tableRecords hlength]
    cases columns.mapM (g.wrapText false) with
    | error e => rfl
    | ok quoted => cases (row :: rows).mapM Grammar.parameterize <;> rfl

/-- The same for rows whose raw fragments hold texts, as a store shows them. -/
theorem insertSql_inlined (s : Store) (hrows : rows ≠ [])
    (hlength : ∀ row ∈ rows, row.length = columns.length)
    (hinlines : ∀ row ∈ rows, ∀ v ∈ row, v.Inlines) :
    g.insertSql oracle q (s.shown (recordsValue (tableRecords columns rows))) =
      g.insertedSql "insert" (.ok "") q.source columns rows := by
  have hgroups : (rows.map (·.map s.shown)).mapM Grammar.parameterize =
      .ok (rows.map fun row => joinWith ", " (row.map insertedText)) := by
    refine mapM_eq_ok_iff.2 (List.forall₂_map_left_iff.2 (List.forall₂_map_right_iff.2
      (List.forall₂_same.2 fun row hrow => ?_)))
    have hshown : ∀ v ∈ row.map s.shown, v.Inlines := by
      intro v hv
      obtain ⟨w, hw, rfl⟩ := List.mem_map.1 hv
      exact s.inlines_shown.2 (hinlines row hrow w hw)
    rw [parameterize_inlined hshown, List.map_map]
    exact congrArg (fun ts => Except.ok (joinWith ", " ts))
      (List.map_congr_left fun v hv => s.insertedText_shown (hinlines row hrow v hv))
  rw [s.shown_tableRecords, insertSql_tableRecords (by simpa using hrows) (by simpa using hlength),
    hgroups]
  have hwords : "insert" ++ " into " = "insert into " := by decide
  have hrows : (rows.map fun row => joinWith ", " (row.map insertedText)).map
      (fun group => "(" ++ group ++ ")") =
        rows.map fun row => "(" ++ joinWith ", " (row.map insertedText) ++ ")" := List.map_map
  have htext : ∀ table quoted, insertText "insert" table quoted rows ++ "" = "insert into " ++ table ++
      " (" ++ joinWith ", " quoted ++ ") values " ++ joinWith ", " ((rows.map fun row =>
        joinWith ", " (row.map insertedText)).map fun group => "(" ++ group ++ ")") := by
    intro table quoted
    rw [insertText, hwords, hrows, String.append_empty]
  unfold Grammar.insertedSql
  cases g.wrappedTable q.source with
  | error e => rfl
  | ok table =>
    cases columns.mapM (g.wrapText false) with
    | error e => rfl
    | ok quoted => exact congrArg Except.ok (htext table quoted).symm

/-- No insert is written if a raw fragment holds another value. -/
theorem insertSql_not_inlined (s : Store) (hrows : rows ≠ [])
    (hlength : ∀ row ∈ rows, row.length = columns.length)
    (hraw : ∃ row ∈ rows, ∃ v ∈ row, ¬v.Inlines) (sql : String) :
    g.insertSql oracle q (s.shown (recordsValue (tableRecords columns rows))) ≠ .ok sql := by
  obtain ⟨row, hrow, v, hv, hnot⟩ := hraw
  rw [s.shown_tableRecords, insertSql_tableRecords (by simpa using hrows) (by simpa using hlength)]
  intro h
  obtain ⟨_, _, h⟩ := bind_eq_ok h
  obtain ⟨_, _, h⟩ := bind_eq_ok h
  obtain ⟨groups, hgroups, _⟩ := bind_eq_ok h
  have hforall := List.forall₂_map_left_iff.1 (mapM_eq_ok_iff.1 hgroups)
  obtain ⟨group, _, hgroup⟩ := exists_of_forall₂ hforall hrow
  exact hnot (s.inlines_shown.1 (inlines_of_parameterize hgroup (List.mem_map_of_mem hv)))

theorem insertSql_asksNothing (hrows : rows ≠ [])
    (hlength : ∀ row ∈ rows, row.length = columns.length) :
    AsksNothing (g.insertSql oracle q (s.shown (recordsValue (tableRecords columns rows)))) := by
  rw [s.shown_tableRecords, insertSql_tableRecords (by simpa using hrows) (by simpa using hlength)]
  exact (g.wrappedTable_asksNothing _).bind fun _ _ =>
    (AsksNothing.mapM fun _ _ => g.wrapText_asksNothing _ _).bind fun _ _ =>
      (AsksNothing.mapM fun _ _ => joinTexts_asksNothing _ _).bind fun _ _ => asksNothing_ok _

theorem insertedSql_asksNothing {ending : Except Failure String} (h : AsksNothing ending)
    (words : String) (source : Value) :
    AsksNothing (g.insertedSql words ending source columns rows) :=
  (g.wrappedTable_asksNothing _).bind fun _ _ =>
    (AsksNothing.mapM fun _ _ => g.wrapText_asksNothing _ _).bind fun _ _ =>
      h.bind fun _ _ => asksNothing_ok _

theorem replaceFirst_append (c : Char) (old new rest : List Char) :
    replaceFirst (c :: old) new (c :: old ++ rest) = new ++ rest := by
  have hfirst : (c :: old).isPrefixOf (c :: (old ++ rest)) = true :=
    List.isPrefixOf_iff_prefix.2 (List.prefix_append (c :: old) rest)
  rw [List.cons_append, replaceFirst, if_pos hfirst, ← List.cons_append, List.drop_left]

/-- The first word of an insert is replaced. -/
theorem replaceInsert_insertText (new table : String) (columns : List String)
    (rows : List (List Value)) : Grammar.replaceInsert new (insertText "insert" table columns rows) =
      insertText new table columns rows := by
  obtain ⟨rest, hrest⟩ : ∃ rest, ∀ words, insertText words table columns rows = words ++ rest :=
    ⟨_, fun words => by simp only [insertText, String.append_assoc]; rfl⟩
  have hword : "insert".toList = 'i' :: "nsert".toList := by decide
  rw [Grammar.replaceInsert, hrest, hrest, String.toList_append, hword, replaceFirst_append,
    String.ofList_append, String.ofList_toList, String.ofList_toList]

end

/-! ## Inserts of a query -/

section

variable {s : Store} {q : QueryId} {id : GrammarId} {columns : List String} {records : List Value}
variable {rows : List (List Value)} {sequence : Value}

/-- An insert with other first words. -/
theorem map_replaceInsert (g : Grammar) (new : String) (source : Value) (columns : List String)
    (rows : List (List Value)) :
    (g.insertedSql "insert" (.ok "") source columns rows).map (Grammar.replaceInsert new) =
      g.insertedSql new (.ok "") source columns rows := by
  unfold Grammar.insertedSql
  cases g.wrappedTable source with
  | error e => rfl
  | ok table =>
    cases columns.mapM (g.wrapText false) with
    | error e => rfl
    | ok quoted =>
      show Except.ok (Grammar.replaceInsert new (insertText "insert" table quoted rows ++ "")) =
        Except.ok (insertText new table quoted rows ++ "")
      rw [String.append_empty, replaceInsert_insertText, String.append_empty]

/-- An insert with something at its end. -/
theorem bind_insertedSql (g : Grammar) (words : String) (ending : Except Failure String)
    (source : Value) (columns : List String) (rows : List (List Value)) :
    (do return (← g.insertedSql words (.ok "") source columns rows) ++ (← ending)) =
      g.insertedSql words ending source columns rows := by
  unfold Grammar.insertedSql
  cases g.wrappedTable source with
  | error e => rfl
  | ok table =>
    cases columns.mapM (g.wrapText false) with
    | error e => rfl
    | ok quoted =>
      show (do return (insertText words table quoted rows ++ "") ++ (← ending)) = _
      rw [String.append_empty]
      rfl

theorem recordBindings_tableRecords (hlength : ∀ row ∈ rows, row.length = columns.length) :
    recordBindings (tableRecords columns rows) = rows.flatten.filter fun v => !v.isRaw := by
  have hvalues : (tableRecords columns rows).map (fun record => record.map Prod.snd) = rows := by
    rw [tableRecords, List.map_map]
    exact (List.map_congr_left fun row hrow => map_snd_rowEntries (hlength row hrow)).trans
      rows.map_id
  unfold recordBindings Grammar.boundValues
  rw [List.flatMap_def, hvalues]

/-- Records are inserted as others that are brought into the same order. -/
theorem QueryId.insertStatement_congr (run : Runner) (q : QueryId) {others : List Value}
    {entries entries' : List (List (Value × Value))}
    (h : List.Forall₂ (fun v entries => s.entries? v = some entries) records entries)
    (h' : List.Forall₂ (fun v entries => s.entries? v = some entries) others entries')
    (halign : alignRecords entries = alignRecords entries') (method : String)
    (sql : Grammar → Oracle → Query → Value → Except Failure String) :
    (q.insertStatement run (.list records) method sql).runOn s =
      (q.insertStatement run (.list others) method sql).runOn s := by
  unfold QueryId.insertStatement
  simp only [Action.runOn_bind, recordsOf_runOn run h, recordsOf_runOn run h', halign]

/-- The records of a table are inserted as those in the order of its columns. -/
theorem QueryId.insertStatement_runOn (run : Runner) (h : s.Tabulates columns records rows)
    (hcompiler : (s.query q).grammar = .grammar id) (hstatements : (s.grammar id).namesOnly = false)
    {sql : Grammar → Oracle → Query → Value → Except Failure String} {r : Except Failure String}
    (hsql : ∀ oracle, sql (s.grammar id) oracle (s.settled.query q)
      (s.shown (recordsValue (tableRecords columns rows))) = r)
    (hasks : AsksNothing r) (method : String) :
    (q.insertStatement run (.list records) method sql).runOn s =
      (r.map fun text => ⟨text, recordBindings (tableRecords columns rows)⟩, s) := by
  obtain ⟨entries, hentries, haligned⟩ := h.aligned
  have hgrammar : s.settled.grammarFor (s.settled.query q).grammar method = .ok (s.grammar id) := by
    rw [Store.grammarFor_settled, hcompiler]
    exact if_neg fun h => absurd h.1 (Bool.eq_false_iff.1 hstatements)
  have hcompiled : ∀ known, s.settled.compiled known q method (fun g attached query =>
      sql g attached.oracle query (s.shown (recordsValue (tableRecords columns rows)))) = r := by
    intro known
    unfold Store.compiled
    rw [hgrammar]
    exact hsql _
  have hcompile : (q.compile run method fun g attached query =>
      sql g attached.oracle query (s.shown (recordsValue (tableRecords columns rows)))).runOn s =
        (r, s) := by
    unfold QueryId.compile
    rw [consult_runOn run (by rw [hcompiled]; exact hasks), hcompiled]
  have hofExcept : (Action.ofExcept (alignRecords entries)).runOn s =
      (.ok (tableRecords columns rows), s) := by
    rw [haligned]
    rfl
  have hshown : ∀ v : Value, v.shown.runOn s = (.ok (s.shown v), s) := fun _ => rfl
  unfold QueryId.insertStatement
  simp only [Action.runOn_bind, recordsOf_runOn run hentries, hofExcept, hshown, hcompile]
  cases r <;> rfl

theorem Store.Tabulates.rows_ne (h : s.Tabulates columns records rows) : rows ≠ [] := by
  have hrecords := h.records_ne
  cases h.rows with
  | nil => exact absurd rfl hrecords
  | cons _ _ => exact List.cons_ne_nil _ _

theorem Store.Tabulates.length (h : s.Tabulates columns records rows) :
    ∀ row ∈ rows, row.length = columns.length := by
  intro row hrow
  obtain ⟨_, _, hlength, _⟩ := exists_of_forall₂ h.rows.flip hrow
  exact hlength

/-- Records with the same entries in another order hold the same rows, if the first one is kept. -/
theorem Store.Tabulates.permuted (h : s.Tabulates columns records rows) {others : List Value}
    (hfirst : others.head? = records.head?)
    (hothers : List.Forall₂ (fun v w => ∃ entries entries', s.entries? v = some entries ∧
      s.entries? w = some entries' ∧ entries'.Perm entries) records others) :
    s.Tabulates columns others rows := by
  refine ⟨h.columns_ne, h.nodup, ?_, hfirst ▸ h.first, ?_⟩
  · rintro rfl
    cases hothers
    exact h.records_ne rfl
  · have hrows := h.rows
    clear hfirst h
    induction hothers generalizing rows with
    | nil =>
      cases hrows
      exact .nil
    | cons hentries _ ih =>
      cases hrows with
      | cons hrow hrows =>
        obtain ⟨entries, entries', hv, hw, hperm⟩ := hentries
        obtain ⟨hlength, found, hfound, hperm'⟩ := hrow
        rw [hv] at hfound
        cases hfound
        exact .cons ⟨hlength, entries', hw, hperm.trans hperm'⟩ (ih hrows)

/-- Records of which one has other columns than the first are refused. -/
theorem alignRecords_mismatch {entries : List (List (Value × Value))}
    {first : List (Value × Value)} (hfirst : entries.head? = some first)
    (htexts : ∀ record ∈ entries, AllTexts (record.map Prod.fst))
    (h : ∃ record ∈ entries, ∃ k, ¬(k ∈ record.map Prod.fst ↔ k ∈ first.map Prod.fst)) :
    alignRecords entries = .error (.argument .recordColumns) := by
  obtain ⟨others, rfl⟩ := List.head?_eq_some_iff.1 hfirst
  have hkeys : AllTexts (first.map Prod.fst) := htexts first List.mem_cons_self
  have hmapM : (first :: others).mapM (alignRecord (first.map Prod.fst)) =
      .error (.argument .recordColumns) := by
    refine mapM_eq_error (fun record hrecord => ?_) ?_
    · by_cases hsame : ∀ k, k ∈ record.map Prod.fst ↔ k ∈ first.map Prod.fst
      · exact .inl (alignRecord_isOk hkeys (htexts record hrecord) hsame)
      · exact .inr (alignRecord_mismatch hkeys (htexts record hrecord) (not_forall.1 hsame))
    · obtain ⟨record, hrecord, hk⟩ := h
      exact ⟨record, hrecord, alignRecord_mismatch hkeys (htexts record hrecord) hk⟩
  unfold alignRecords
  dsimp only
  rw [hmapM]
  rfl

/-! ## The three inserts -/

/-- What ends an insert that gives the id of the new row: PostgreSQL asks for the column that holds
it. -/
def Grammar.returningText (g : Grammar) (sequence : Value) : Except Failure String :=
  if g.dialect = .postgres then
    (g.wrapped (if sequence.truthy then sequence else .text "id")).map (" returning " ++ ·)
  else .ok ""

/-- An insert that passes over rejected rows, in the words of the dialect. -/
def Grammar.insertedIgnoringSql (g : Grammar) (source : Value) (columns : List String)
    (rows : List (List Value)) : Except Failure String :=
  match g.dialect with
  | .ansi => .error (.unsupported .insertIgnoring)
  | .mysql => g.insertedSql "insert ignore" (.ok "") source columns rows
  | .sqlite => g.insertedSql "insert or ignore" (.ok "") source columns rows
  | .postgres => g.insertedSql "insert" (.ok " on conflict do nothing") source columns rows

section

variable {g : Grammar} {oracle : Oracle} {query : Query} {given : Value}

theorem insertIgnoringSql_eq
    (h : g.insertSql oracle query given = g.insertedSql "insert" (.ok "") query.source columns rows) :
    g.insertIgnoringSql oracle query given = g.insertedIgnoringSql query.source columns rows := by
  unfold Grammar.insertIgnoringSql Grammar.insertedIgnoringSql
  rw [h]
  cases g.dialect with
  | ansi => rfl
  | mysql => exact map_replaceInsert _ _ _ _ _
  | sqlite => exact map_replaceInsert _ _ _ _ _
  | postgres =>
    rw [← bind_insertedSql _ _ (.ok " on conflict do nothing")]
    cases g.insertedSql "insert" (.ok "") query.source columns rows <;> rfl

theorem insertReturningSql_eq
    (h : g.insertSql oracle query given = g.insertedSql "insert" (.ok "") query.source columns rows) :
    g.insertReturningSql oracle query given sequence =
      g.insertedSql "insert" (g.returningText sequence) query.source columns rows := by
  have hending := bind_insertedSql g "insert" (g.returningText sequence) query.source columns rows
  rw [← hending]
  unfold Grammar.insertReturningSql Grammar.returningText
  rw [h]
  cases g.insertedSql "insert" (.ok "") query.source columns rows with
  | error e => rfl
  | ok text =>
    dsimp only [bind, Except.bind]
    split
    · cases g.wrapped (if sequence.truthy then sequence else .text "id") with
      | error e => rfl
      | ok column => exact congrArg Except.ok String.append_assoc
    · exact congrArg Except.ok String.append_empty.symm

/-- An insert that passes over rejected rows is made from a plain one. -/
theorem insertIgnoringSql_ok {sql : String} (h : g.insertIgnoringSql oracle query given = .ok sql) :
    ∃ plain, g.insertSql oracle query given = .ok plain := by
  unfold Grammar.insertIgnoringSql at h
  split at h
  · exact nomatch h
  all_goals
    obtain ⟨plain, hplain, _⟩ := map_eq_ok h
    exact ⟨plain, hplain⟩

theorem insertIgnoringSql_asksNothing (h : AsksNothing (g.insertSql oracle query given)) :
    AsksNothing (g.insertIgnoringSql oracle query given) := by
  unfold Grammar.insertIgnoringSql
  split
  · exact asksNothing_unsupported _
  all_goals exact h.map _

theorem insertReturningSql_asksNothing (h : AsksNothing (g.insertSql oracle query given)) :
    AsksNothing (g.insertReturningSql oracle query given sequence) := by
  refine h.bind fun _ _ => ?_
  dsimp only
  split
  · exact (g.wrapped_asksNothing _).bind fun _ _ => asksNothing_ok _
  · exact asksNothing_ok _

theorem insertedIgnoringSql_asksNothing (source : Value) :
    AsksNothing (g.insertedIgnoringSql source columns rows) := by
  unfold Grammar.insertedIgnoringSql
  split
  · exact asksNothing_unsupported _
  all_goals exact insertedSql_asksNothing (asksNothing_ok _) _ _

theorem returningText_asksNothing (sequence : Value) : AsksNothing (g.returningText sequence) := by
  unfold Grammar.returningText
  split
  · exact (g.wrapped_asksNothing _).map _
  · exact asksNothing_ok _

end

/-- The outcomes of the three inserts of some records. -/
def QueryId.inserts (run : Runner) (q : QueryId) (records sequence : Value) (s : Store) :
    List (Except Failure Statement × Store) :=
  [(q.toInsertSql run records).runOn s, (q.toInsertOrIgnoreSql run records).runOn s,
    (q.toInsertGetIdSql run records sequence).runOn s]

/-- The columns of an insert can be quoted under a prefix without points, in a dialect without paths
if they need none. -/
theorem Grammar.columns_quoted {g : Grammar} {p : String} (hp : g.tablePrefix = .text p)
    (hdot : '.' ∉ p.toList)
    (h : g.dialect = .ansi → ∀ c ∈ columns, needsPath p.toList c.toList = false) :
    ∃ quoted, columns.mapM (g.wrapText false) = .ok quoted := by
  refine mapM_isOk fun c hc => ?_
  have hprefix : g.namePrefix = some p.toList := by rw [Grammar.namePrefix, hp]; rfl
  obtain ⟨out, hout⟩ := Name.wrap_isOk false c.toList (fun hd => h hd c hc) hdot
  exact ⟨String.ofList out, by rw [Grammar.wrapText, hprefix, hout]; rfl⟩

theorem QueryId.inserts_refused (run : Runner) (q : QueryId) {entries : List (List (Value × Value))}
    (hentries : List.Forall₂ (fun v entries => s.entries? v = some entries) records entries)
    {e : Failure} (halign : alignRecords entries = .error e) :
    ∀ outcome ∈ q.inserts run (.list records) sequence s, outcome = (.error e, s) := by
  have hrefused : ∀ method sql,
      (q.insertStatement run (.list records) method sql).runOn s = (.error e, s) := by
    intro method sql
    unfold QueryId.insertStatement
    have hofExcept : (Action.ofExcept (alignRecords entries)).runOn s = (.error e, s) := by
      rw [halign]
      rfl
    simp only [Action.runOn_bind, recordsOf_runOn run hentries, hofExcept]
  intro outcome houtcome
  simp only [QueryId.inserts, List.mem_cons, List.not_mem_nil, or_false] at houtcome
  rcases houtcome with rfl | rfl | rfl
  · exact hrefused _ _
  · exact hrefused _ _
  · have hshown : (Value.shown sequence).runOn s = (.ok (s.shown sequence), s) := rfl
    unfold QueryId.toInsertGetIdSql
    rw [Action.runOn_bind, hshown]
    exact hrefused _ _

/-- The inserts of the records of a table are those of its rows, whatever the order of each record. -/
theorem QueryId.inserts_permuted (run : Runner) (q : QueryId) {others : List Value}
    (h : s.Tabulates columns records rows) (h' : s.Tabulates columns others rows) :
    q.inserts run (.list others) sequence s = q.inserts run (.list records) sequence s := by
  obtain ⟨entries, hentries, haligned⟩ := h.aligned
  obtain ⟨entries', hentries', haligned'⟩ := h'.aligned
  have hsame : ∀ method sql, (q.insertStatement run (.list others) method sql).runOn s =
      (q.insertStatement run (.list records) method sql).runOn s := fun method sql =>
    q.insertStatement_congr run hentries' hentries (haligned'.trans haligned.symm) method sql
  have hshown : (Value.shown sequence).runOn s = (.ok (s.shown sequence), s) := rfl
  unfold QueryId.inserts QueryId.toInsertSql QueryId.toInsertOrIgnoreSql QueryId.toInsertGetIdSql
  simp only [Action.runOn_bind, hshown, hsame]

section

variable (run : Runner) (h : s.Tabulates columns records rows)
  (hcompiler : (s.query q).grammar = .grammar id) (hstatements : (s.grammar id).namesOnly = false)

include h hcompiler hstatements

/-- The inserts of the rows of a table. -/
theorem QueryId.inserts_inlined (hinlines : ∀ row ∈ rows, ∀ v ∈ row, v.Inlines) :
    q.inserts run (.list records) sequence s =
      [(s.grammar id).insertedSql "insert" (.ok "") (s.settled.query q).source columns rows,
        (s.grammar id).insertedIgnoringSql (s.settled.query q).source columns rows,
        (s.grammar id).insertedSql "insert" ((s.grammar id).returningText (s.shown sequence))
          (s.settled.query q).source columns rows].map fun sql =>
            (sql.map fun text => ⟨text, rows.flatten.filter fun v => !v.isRaw⟩, s) := by
  have hinsert : ∀ oracle, (s.grammar id).insertSql oracle (s.settled.query q)
      (s.shown (recordsValue (tableRecords columns rows))) =
        (s.grammar id).insertedSql "insert" (.ok "") (s.settled.query q).source columns rows :=
    fun oracle => insertSql_inlined s h.rows_ne h.length hinlines
  have hshown : (Value.shown sequence).runOn s = (.ok (s.shown sequence), s) := rfl
  unfold QueryId.inserts QueryId.toInsertSql QueryId.toInsertOrIgnoreSql QueryId.toInsertGetIdSql
  rw [Action.runOn_bind, hshown]
  dsimp only
  rw [QueryId.insertStatement_runOn run h hcompiler hstatements hinsert
      (insertedSql_asksNothing (asksNothing_ok _) _ _),
    QueryId.insertStatement_runOn run h hcompiler hstatements
      (fun oracle => insertIgnoringSql_eq (hinsert oracle)) (insertedIgnoringSql_asksNothing _),
    QueryId.insertStatement_runOn run h hcompiler hstatements
      (fun oracle => insertReturningSql_eq (hinsert oracle))
      (insertedSql_asksNothing (returningText_asksNothing _) _ _),
    recordBindings_tableRecords h.length]
  rfl

/-- There is no insert if a raw fragment in a row holds another value than a text. -/
theorem QueryId.inserts_not_inlined (sequence : Value) (hraw : ∃ row ∈ rows, ∃ v ∈ row, ¬v.Inlines) :
    ∀ outcome ∈ q.inserts run (.list records) sequence s, ∀ statement,
      outcome.1 ≠ .ok statement := by
  let oracle : Oracle := fun _ _ => .error .wrongType
  have hsame : ∀ other, (s.grammar id).insertSql other (s.settled.query q)
      (s.shown (recordsValue (tableRecords columns rows))) =
        (s.grammar id).insertSql oracle (s.settled.query q)
          (s.shown (recordsValue (tableRecords columns rows))) := by
    intro other
    rw [s.shown_tableRecords, insertSql_tableRecords (by simpa using h.rows_ne)
      (by simpa using h.length), insertSql_tableRecords (by simpa using h.rows_ne)
      (by simpa using h.length)]
  have hasks : AsksNothing ((s.grammar id).insertSql oracle (s.settled.query q)
      (s.shown (recordsValue (tableRecords columns rows)))) :=
    insertSql_asksNothing h.rows_ne h.length
  have hnone : ∀ sql, (s.grammar id).insertSql oracle (s.settled.query q)
      (s.shown (recordsValue (tableRecords columns rows))) ≠ .ok sql :=
    insertSql_not_inlined s h.rows_ne h.length hraw
  have hshown : (Value.shown sequence).runOn s = (.ok (s.shown sequence), s) := rfl
  intro outcome houtcome statement
  unfold QueryId.inserts QueryId.toInsertSql QueryId.toInsertOrIgnoreSql QueryId.toInsertGetIdSql
    at houtcome
  rw [Action.runOn_bind, hshown] at houtcome
  dsimp only at houtcome
  rw [QueryId.insertStatement_runOn run h hcompiler hstatements hsame hasks,
    QueryId.insertStatement_runOn run h hcompiler hstatements
      (fun other => by unfold Grammar.insertIgnoringSql; rw [hsame])
      (insertIgnoringSql_asksNothing hasks),
    QueryId.insertStatement_runOn run h hcompiler hstatements
      (fun other => by unfold Grammar.insertReturningSql; rw [hsame])
      (insertReturningSql_asksNothing hasks)] at houtcome
  simp only [List.mem_cons, List.not_mem_nil, or_false] at houtcome
  intro hok
  rcases houtcome with rfl | rfl | rfl
  · obtain ⟨sql, hsql, _⟩ := map_eq_ok hok
    exact hnone sql hsql
  · obtain ⟨sql, hsql, _⟩ := map_eq_ok hok
    obtain ⟨plain, hplain⟩ := insertIgnoringSql_ok hsql
    exact hnone plain hplain
  · obtain ⟨sql, hsql, _⟩ := map_eq_ok hok
    obtain ⟨plain, hplain, _⟩ := bind_eq_ok hsql
    exact hnone plain hplain

end

/-- The inserts of records that hold the rows of a table, in any order of each record but the first,
name the columns in the order of the first record.  They have one group for each row, with one
placeholder or raw fragment under each column, and bind the other values row by row.  A raw fragment
must hold a text.  Records with other columns than the first are refused. -/
theorem QueryId.inserts_aligned (run : Runner) (s : Store) (q : QueryId) (id : GrammarId)
    (sequence : Value)
    (hcompiler : (s.query q).grammar = .grammar id) (hstatements : (s.grammar id).namesOnly = false) :
    (∀ columns records rows, s.Tabulates columns records rows →
      ((∀ row ∈ rows, ∀ v ∈ row, v.Inlines) →
        q.inserts run (.list records) sequence s =
          [(s.grammar id).insertedSql "insert" (.ok "") (s.settled.query q).source columns rows,
            (s.grammar id).insertedIgnoringSql (s.settled.query q).source columns rows,
            (s.grammar id).insertedSql "insert" ((s.grammar id).returningText (s.shown sequence))
              (s.settled.query q).source columns rows].map fun sql =>
                (sql.map fun text => ⟨text, rows.flatten.filter fun v => !v.isRaw⟩, s)) ∧
      ((∃ row ∈ rows, ∃ v ∈ row, ¬v.Inlines) →
        ∀ outcome ∈ q.inserts run (.list records) sequence s, ∀ statement,
          outcome.1 ≠ .ok statement) ∧
      (∀ others : List Value, others.head? = records.head? →
        List.Forall₂ (fun v w => ∃ entries entries', s.entries? v = some entries ∧
          s.entries? w = some entries' ∧ entries'.Perm entries) records others →
        q.inserts run (.list others) sequence s = q.inserts run (.list records) sequence s) ∧
      ∀ p, (s.grammar id).tablePrefix = .text p → '.' ∉ p.toList →
        ((s.grammar id).dialect = .ansi → ∀ c ∈ columns, needsPath p.toList c.toList = false) →
        ∃ quoted, columns.mapM ((s.grammar id).wrapText false) = .ok quoted) ∧
    ∀ records entries, List.Forall₂ (fun v entries => s.entries? v = some entries) records entries →
      (∀ record ∈ entries, AllTexts (record.map Prod.fst)) →
      (∃ first, entries.head? = some first ∧
        ∃ record ∈ entries, ∃ k, ¬(k ∈ record.map Prod.fst ↔ k ∈ first.map Prod.fst)) →
      ∀ outcome ∈ q.inserts run (.list records) sequence s,
        outcome = (.error (.argument .recordColumns), s) := by
  refine ⟨fun columns records rows h => ⟨?_, ?_, ?_, ?_⟩, ?_⟩
  · exact QueryId.inserts_inlined run h hcompiler hstatements
  · exact QueryId.inserts_not_inlined run h hcompiler hstatements sequence
  · exact fun others hfirst hothers => q.inserts_permuted run h (h.permuted hfirst hothers)
  · exact fun p hp hdot hpaths => Grammar.columns_quoted hp hdot hpaths
  · rintro records entries hentries htexts ⟨first, hfirst, hmismatch⟩
    exact q.inserts_refused run hentries (alignRecords_mismatch hfirst htexts hmismatch)

/-- Two records of which the second has the columns in another order, with a raw fragment. -/
def ordersRecords : List Value :=
  [.map [(.text "a", .int 1), (.text "b", .raw (.text "now()"))],
    .map [(.text "b", .int 2), (.text "a", .int 3)]]

theorem tabulates_ordersRecords : (Store.ofTable "orders").Tabulates ["a", "b"] ordersRecords
    [[.int 1, .raw (.text "now()")], [.int 3, .int 2]] where
  columns_ne := List.cons_ne_nil _ _
  nodup := by decide
  records_ne := List.cons_ne_nil _ _
  first := rfl
  rows := .cons ⟨rfl, _, rfl, .refl _⟩ (.cons ⟨rfl, _, rfl, .swap _ _ _⟩ .nil)

theorem QueryId.inserts_aligned_orders :
    (QueryId.inserts Runner.idle ⟨0⟩ (.list ordersRecords) .null (Store.ofTable "orders")).map
        (fun outcome => outcome.1.toOption.map fun statement =>
          (statement.sql, statement.bindings.map Value.display)) =
      [some ("insert into \"orders\" (\"a\", \"b\") values (?, now()), (?, ?)", ["1", "3", "2"]),
        some ("insert or ignore into \"orders\" (\"a\", \"b\") values (?, now()), (?, ?)",
          ["1", "3", "2"]),
        some ("insert into \"orders\" (\"a\", \"b\") values (?, now()), (?, ?)",
          ["1", "3", "2"])] := by
  have haligned := (QueryId.inserts_aligned Runner.idle (Store.ofTable "orders") ⟨0⟩ ⟨0⟩ .null rfl
    rfl).1 _ _ _ tabulates_ordersRecords
  rw [haligned.1 ?_]
  · decide +kernel
  · intro row hrow v hv w hw
    subst hw
    simp only [List.mem_cons, List.not_mem_nil, or_false] at hrow
    rcases hrow with rfl | rfl
    · simp only [List.mem_cons, List.not_mem_nil, or_false, Value.raw.injEq, reduceCtorEq,
        false_or] at hv
      exact ⟨"now()", hv⟩
    · simp at hv

/-- A raw fragment that holds a number is refused by an insert.  An update writes it. -/
theorem QueryId.insert_refuses_raw_number :
    (Store.ofTable "orders").Tabulates ["a"] [.map [(.text "a", .raw (.int 1))]]
      [[.raw (.int 1)]] ∧
    (∀ statement, ((QueryId.toInsertSql Runner.idle ⟨0⟩ (.list
      [.map [(.text "a", .raw (.int 1))]])).runOn (Store.ofTable "orders")).1 ≠ .ok statement) ∧
    ((QueryId.toUpdateSql Runner.idle ⟨0⟩ (.map [(.text "a", .raw (.int 1))])).runOn
      (Store.ofTable "orders")).1.toOption.map Statement.sql =
        some "update \"orders\" set \"a\" = 1" := by
  have htable : (Store.ofTable "orders").Tabulates ["a"] [.map [(.text "a", .raw (.int 1))]]
      [[.raw (.int 1)]] :=
    ⟨List.cons_ne_nil _ _, by decide, List.cons_ne_nil _ _, rfl, .cons ⟨rfl, _, rfl, .refl _⟩ .nil⟩
  have hraw : ¬(Value.raw (.int 1)).Inlines := by
    intro h
    obtain ⟨t, ht⟩ := h _ rfl
    exact nomatch ht
  refine ⟨htable, fun statement => ?_, by decide +kernel⟩
  exact QueryId.inserts_not_inlined Runner.idle htable rfl rfl .null
    ⟨_, List.mem_cons_self, _, List.mem_cons_self, hraw⟩ _ List.mem_cons_self statement

end

end FluentSql
