import FluentSql.Proofs.Alignment.Notes
import FluentSql.Proofs.Asking

/-!
# Columns and tables with placeholders

Two compilations run side by side: one of the clauses as they are, and one of
the clauses with the values written in place.  The second mirrors the first if
it succeeds whenever the first does, with a related result.

* `Mirrors` relates two compilations.  It is kept by the ways in which they are
  put together: `Mirrors.bind`, `Mirrors.map` and `mirrors_mapM`.
* `wrapped_mirrors`, `wrapTable_mirrors`, `columnize_mirrors` and
  `parameterize_mirrors` are the two compilations of columns, tables and
  values.
-/

namespace FluentSql

open Name

/-! ## Two compilations side by side -/

/-- The second of two computations succeeds whenever the first does, with a related result, and the
first asks nothing. -/
structure Mirrors {α β : Type} (P : α → β → Prop) (r : Except Failure α) (r' : Except Failure β) :
    Prop where
  /-- The first asks nothing. -/
  asksNothing : AsksNothing r
  /-- The second succeeds whenever the first does. -/
  succeeds : ∀ a, r = .ok a → ∃ b, r' = .ok b ∧ P a b

section

variable {α β γ δ : Type} {P : α → β → Prop} {Q : γ → δ → Prop}

theorem Mirrors.ok {a : α} {b : β} (h : P a b) : Mirrors P (.ok a) (.ok b) :=
  ⟨asksNothing_ok a, fun _ ha => ⟨b, rfl, Except.ok.inj ha ▸ h⟩⟩

theorem Mirrors.error {e : Failure} (h : ∀ id request, e ≠ .unanswered id request)
    (r' : Except Failure β) : Mirrors P (.error e) r' :=
  ⟨fun id request he => h id request (Except.error.inj he), fun _ ha => nomatch ha⟩

theorem Mirrors.bind {r : Except Failure α} {r' : Except Failure β} {f : α → Except Failure γ}
    {f' : β → Except Failure δ} (h : Mirrors P r r') (hf : ∀ a b, P a b → Mirrors Q (f a) (f' b)) :
    Mirrors Q (r >>= f) (r' >>= f') := by
  refine ⟨h.asksNothing.bind fun a ha => ?_, fun c hc => ?_⟩
  · obtain ⟨b, _, hab⟩ := h.succeeds a ha
    exact (hf a b hab).asksNothing
  · obtain ⟨a, ha, hc⟩ := bind_eq_ok hc
    obtain ⟨b, hb, hab⟩ := h.succeeds a ha
    rw [hb]
    exact (hf a b hab).succeeds c hc

theorem Mirrors.map {r : Except Failure α} {r' : Except Failure β} {f : α → γ} {f' : β → δ}
    (h : Mirrors P r r') (hf : ∀ a b, P a b → Q (f a) (f' b)) :
    Mirrors Q (r.map f) (r'.map f') := by
  refine ⟨h.asksNothing.map f, fun c hc => ?_⟩
  cases r with
  | error e => exact nomatch hc
  | ok a =>
    obtain ⟨b, hb, hab⟩ := h.succeeds a rfl
    cases hc
    exact ⟨f' b, by rw [hb]; rfl, hf a b hab⟩

end

/-- A compilation mirrors itself, with what holds of its result. -/
theorem mirrors_self {α : Type} {P : α → Prop} {r : Except Failure α} (hr : AsksNothing r)
    (hP : ∀ a, r = .ok a → P a) : Mirrors (fun a b => a = b ∧ P a) r r :=
  ⟨hr, fun a ha => ⟨a, ha, rfl, hP a ha⟩⟩

/-- The compilation of a text mirrors another by filling. -/
abbrev MirrorsFill (lit : Literals) (r : Except Failure String) (vs : List Value)
    (r' : Except Failure String) : Prop :=
  Mirrors (fun t u => Fills lit t vs u) r r'

/-- A compilation whose result has no placeholders mirrors itself. -/
theorem mirrorsFill_self {lit : Literals} {r : Except Failure String} (hr : AsksNothing r)
    (hsealed : ∀ t, r = .ok t → Sealed t.toList) : MirrorsFill lit r [] r :=
  ⟨hr, fun t ht => ⟨t, ht, fills_sealed (hsealed t ht)⟩⟩

/-- A compilation whose result stands for no values mirrors itself. -/
theorem Mirrors.self {lit : Literals} {r r' : Except Failure String}
    (h : MirrorsFill lit r [] r') : MirrorsFill lit r [] r := by
  refine mirrorsFill_self h.asksNothing fun t ht => ?_
  obtain ⟨u, _, hu⟩ := h.succeeds t ht
  exact hu.reads

/-- What is computed one by one from clauses and their notes. -/
theorem mirrors_mapM {α β γ δ μ ν : Type} {holds : α → ν → Prop} {R : γ → μ → δ → Prop}
    {f : α → Except Failure γ} {f' : β → Except Failure δ} {inlined : α → ν → β}
    {values : α → ν → μ} {xs : List α} {notes : List ν} (h : List.Forall₂ holds xs notes)
    (hf : ∀ x ∈ xs, ∀ note, holds x note →
      Mirrors (fun c d => R c (values x note) d) (f x) (f' (inlined x note))) :
    Mirrors (fun cs ds => Each R cs (List.zipWith values xs notes) ds)
      (xs.mapM f) ((List.zipWith inlined xs notes).mapM f') := by
  induction h with
  | nil => exact .ok .nil
  | @cons x note xs notes hx _ ih =>
    have hfirst := hf x List.mem_cons_self note hx
    have hrest := ih fun y hy => hf y (List.mem_cons_of_mem x hy)
    simp only [List.zipWith_cons_cons, List.mapM_cons]
    exact hfirst.bind fun c d hcd => hrest.bind fun cs ds hcds => .ok (.cons hcd hcds)

/-- What is computed one by one from the same clauses. -/
theorem mirrors_mapM_same {α γ δ μ : Type} {R : γ → μ → δ → Prop} {f : α → Except Failure γ}
    {f' : α → Except Failure δ} {values : α → μ} {xs : List α}
    (hf : ∀ x ∈ xs, Mirrors (fun c d => R c (values x) d) (f x) (f' x)) :
    Mirrors (fun cs ds => Each R cs (xs.map values) ds) (xs.mapM f) (xs.mapM f') := by
  induction xs with
  | nil => exact .ok .nil
  | cons x xs ih =>
    have hrest := ih fun y hy => hf y (List.mem_cons_of_mem x hy)
    simp only [List.map_cons, List.mapM_cons]
    exact (hf x List.mem_cons_self).bind fun c d hcd => hrest.bind fun cs ds hcds =>
      .ok (.cons hcd hcds)

/-- Notes that are taken as they are. -/
theorem zipWith_notes {α ν : Type} {holds : α → ν → Prop} {xs : List α} {notes : List ν}
    (h : List.Forall₂ holds xs notes) : List.zipWith (fun _ note => note) xs notes = notes := by
  induction h with
  | nil => rfl
  | cons _ _ ih => rw [List.zipWith_cons_cons, ih]

/-! ## Grammars -/

/-- A grammar that compiles statements, under a prefix without points. -/
structure Grammar.Compiles (g : Grammar) (p : String) : Prop where
  /-- The prefix is a text. -/
  tablePrefix : g.tablePrefix = .text p
  /-- The prefix has no points. -/
  dotless : '.' ∉ p.toList
  /-- It does not only quote names. -/
  full : g.namesOnly = false
  /-- The prefix leaves no quote open before the name of an aggregated union. -/
  unionName : TableHolds g (.text "temp_table") []

variable {g : Grammar} {p : String} {lit : Literals}

theorem Grammar.Compiles.namePrefix_eq (hg : g.Compiles p) : g.namePrefix = some p.toList := by
  rw [namePrefix, hg.tablePrefix]
  rfl

/-! ## Columns and tables -/

/-- The keys of a reference that is free of single quotes can be put anywhere. -/
theorem NameFree.keysSealed (hg : g.Compiles p) {s : String} (h : NameFree g s) :
    KeysSealed g.dialect (tableKeysOf p.toList s.toList) ∧
      KeysSealed g.dialect (keysOf s.toList) := by
  refine ⟨fun hd => arrowKeys_sealed fun key hkey => ?_,
    fun hd => arrowKeys_sealed fun key hkey => ?_⟩
  · exact h hd p hg.tablePrefix key (List.mem_append_left _ hkey)
  · exact h hd p hg.tablePrefix key (List.mem_append_right _ hkey)

/-- A quoted reference has no placeholders. -/
theorem Grammar.wrapText_sealed (hg : g.Compiles p) {s out : String} (h : NameFree g s)
    {aliasToo : Bool} (hout : g.wrapText aliasToo s = .ok out) : Sealed out.toList := by
  obtain ⟨htable, hkeys⟩ := h.keysSealed hg
  rw [wrapText, hg.namePrefix_eq] at hout
  cases hwrap : Name.wrap g.dialect (some p.toList) aliasToo s.toList with
  | error e => rw [hwrap] at hout; cases hout
  | ok cs =>
    rw [hwrap] at hout
    cases hout
    rw [String.toList_ofList]
    exact (wrapFrom_sealed_iff (tableSealed_of_dotless hg.dotless htable) hwrap).2 hkeys

/-- A value that stands for a fragment, and the text that it becomes. -/
def ValueFills (lit : Literals) (v : Value) (vs : List Value) (w : Value) : Prop :=
  Fills lit v.display vs w.display ∧ ∃ u, w = .text u

theorem valueFills_filledText {v : Value} {vs : List Value}
    (h : Reads v.display.toList vs.length) : ValueFills lit v vs (filledText lit vs v) :=
  ⟨⟨h, String.toList_ofList.symm⟩, _, rfl⟩

theorem ValueFills.asText {v w : Value} {vs : List Value} (h : ValueFills lit v vs w) :
    MirrorsFill lit v.asText vs w.asText := by
  obtain ⟨hfills, u, rfl⟩ := h
  cases v with
  | text s => exact .ok hfills
  | _ => exact .error (value_ne_unanswered _) _

theorem joinTexts_mirrors {separator : String} (hsep : Sealed separator.toList)
    {vs ws : List Value} {vss : List (List Value)} (h : Each (ValueFills lit) vs vss ws) :
    MirrorsFill lit (joinTexts separator vs) vss.flatten (joinTexts separator ws) := by
  have hall : Mirrors (fun ts us => FillsAll lit ts vss us) (vs.mapM Value.asText)
      (ws.mapM Value.asText) := by
    induction h with
    | nil => exact .ok .nil
    | cons first _ ih =>
      simp only [List.mapM_cons]
      exact first.asText.bind fun _ _ h => ih.bind fun _ _ hs => .ok (.cons h hs)
  exact hall.bind fun ts us hts => .ok (fills_joinWith hsep hts)

/-- A quoted reference mirrors itself. -/
private theorem wrapText_mirrors (hg : g.Compiles p) {s : String} (h : NameFree g s)
    (aliasToo : Bool) : Mirrors (fun v w => ValueFills lit v [] w)
      ((g.wrapText aliasToo s).map Value.text) ((g.wrapText aliasToo s).map Value.text) := by
  have hself : MirrorsFill lit (g.wrapText aliasToo s) [] (g.wrapText aliasToo s) :=
    mirrorsFill_self (g.wrapText_asksNothing aliasToo s) fun t ht =>
      Grammar.wrapText_sealed hg h ht
  exact hself.map fun t u h => ⟨h, u, rfl⟩

theorem wrap_mirrors (hg : g.Compiles p) {v : Value} {vs : List Value} (h : ColumnHolds g v vs) :
    Mirrors (fun v w => ValueFills lit v vs w) (g.wrap v) (g.wrap (v.filled lit vs)) := by
  obtain ⟨_, h⟩ := h
  cases v with
  | raw w => exact .ok (valueFills_filledText h)
  | _ =>
    obtain ⟨rfl, h⟩ := h
    exact wrapText_mirrors hg h false

theorem wrapped_mirrors (hg : g.Compiles p) {v : Value} {vs : List Value}
    (h : ColumnHolds g v vs) : MirrorsFill lit (g.wrapped v) vs (g.wrapped (v.filled lit vs)) :=
  (wrap_mirrors hg h).map fun _ _ h => h.1

theorem wrapTable_mirrors (hg : g.Compiles p) {v : Value} {vs : List Value}
    (h : TableHolds g v vs) :
    Mirrors (fun v w => ValueFills lit v vs w) (g.wrapTable v) (g.wrapTable (v.filled lit vs)) := by
  obtain ⟨_, h⟩ := h
  have hnamed : vs = [] ∧ (∀ t, g.tablePrefix.plus v = .ok t → NameFree g t.display) →
      Mirrors (fun v w => ValueFills lit v vs w) (do g.wrapAs true (← g.tablePrefix.plus v))
        (do g.wrapAs true (← g.tablePrefix.plus v)) := by
    rintro ⟨rfl, hfree⟩
    rw [hg.tablePrefix] at hfree ⊢
    cases v with
    | text s => exact wrapText_mirrors hg (hfree _ rfl) true
    | _ => exact .error (value_ne_unanswered _) _
  cases v with
  | raw w => exact .ok (valueFills_filledText h)
  | _ => exact hnamed h

theorem wrappedTable_mirrors (hg : g.Compiles p) {v : Value} {vs : List Value}
    (h : TableHolds g v vs) :
    MirrorsFill lit (g.wrappedTable v) vs (g.wrappedTable (v.filled lit vs)) :=
  (wrapTable_mirrors hg h).map fun _ _ h => h.1

/-- A table without placeholders. -/
theorem wrappedTable_self (lit : Literals) (hg : g.Compiles p) {v : Value}
    (h : TableHolds g v []) : MirrorsFill lit (g.wrappedTable v) [] (g.wrappedTable v) :=
  (wrappedTable_mirrors hg h).self

theorem columnize_mirrors (hg : g.Compiles p) {columns : List Value} {notes : List (List Value)}
    (h : List.Forall₂ (ColumnHolds g) columns notes) :
    MirrorsFill lit (g.columnize columns) notes.flatten
      (g.columnize (List.zipWith (fun v vs => v.filled lit vs) columns notes)) := by
  have hcolumns : Mirrors (fun vs ws => Each (ValueFills lit) vs notes ws) (columns.mapM g.wrap)
      ((List.zipWith (fun v vs => v.filled lit vs) columns notes).mapM g.wrap) := by
    have hall : Mirrors (fun vs ws => Each (ValueFills lit) vs
        (List.zipWith (fun _ note => note) columns notes) ws) (columns.mapM g.wrap)
        ((List.zipWith (fun v vs => v.filled lit vs) columns notes).mapM g.wrap) :=
      mirrors_mapM h fun v _ vs hv => wrap_mirrors hg hv
    rwa [zipWith_notes h] at hall
  exact hcolumns.bind fun _ _ h => joinTexts_mirrors (by decide) h

/-- Columns without placeholders. -/
theorem columnize_self (lit : Literals) (hg : g.Compiles p) {columns : List Value}
    (h : ∀ c ∈ columns, ColumnHolds g c []) :
    MirrorsFill lit (g.columnize columns) [] (g.columnize columns) := by
  have hnotes : List.Forall₂ (ColumnHolds g) columns (columns.map fun _ => []) := by
    rw [List.forall₂_map_right_iff, List.forall₂_same]
    exact h
  have hflat : (columns.map fun _ => ([] : List Value)).flatten = [] := by
    rw [List.flatten_eq_nil_iff]
    intro vs hvs
    obtain ⟨_, _, rfl⟩ := List.mem_map.1 hvs
    rfl
  have hall : MirrorsFill lit (g.columnize columns) _ _ := columnize_mirrors hg hnotes
  rw [hflat] at hall
  exact hall.self

/-! ## Values -/

theorem parameter_fills {bound : Value → Except Failure Value} {v : Value} {vs : List Value}
    (h : ParamHolds bound v vs) :
    ValueFills lit (Grammar.parameter v) vs (Grammar.parameter (v.inlined lit vs)) := by
  obtain ⟨_, h⟩ := h
  refine valueFills_filledText ?_
  cases v with
  | raw w => exact h
  | _ =>
    obtain ⟨w, _, rfl⟩ := h
    show Reads "?".toList 1
    decide

theorem parameterize_mirrors {bound : Value → Except Failure Value} {values : List Value}
    {notes : List (List Value)} (h : List.Forall₂ (ParamHolds bound) values notes) :
    MirrorsFill lit (Grammar.parameterize values) notes.flatten
      (Grammar.parameterize (List.zipWith (fun v vs => v.inlined lit vs) values notes)) := by
  refine joinTexts_mirrors (by decide) ?_
  induction h with
  | nil => exact .nil
  | cons first _ ih => exact .cons (parameter_fills first) ih

end FluentSql
