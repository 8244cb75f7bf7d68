import FluentSql.Compile.Where
import FluentSql.Proofs.Alignment.Wrapping

/-!
# Conditions with and without their values

The compilation of a condition mirrors that of the condition with its values
written in.  A condition that holds another query relies on the same for that
query.

* `MirrorsAttached` says that the attached queries of two stores compile to
  texts that fit the values of those queries.
* `jsonColumn_sealed` and `documentArrows_sealed` are about paths into JSON
  columns, which have no placeholders in them.
* `whereSql_mirrors` and `havingSql_mirrors` are the conditions, one case for
  each kind.
* `conditionsSql_mirrors`, `wheresSql_mirrors` and `havingsSql_mirrors` are
  lists of them.
-/

namespace FluentSql

open Name

variable {g : Grammar} {p : String} {lit : Literals}

/-! ## Attached queries -/

/-- Two ways to compile the queries of a store: the texts of the first fit the values that the
queries are bound to, and filling them gives the texts of the second. -/
structure MirrorsAttached (lit : Literals) (s : Store) (notes : QueryId → Notes)
    (attached attached' : Attached) : Prop where
  select : ∀ id : QueryId, s.Stands notes id → (notes id).whole = true →
    MirrorsFill lit (attached.select id) (s.query id).bindings.flatten (attached'.select id)
  conditions : ∀ id : QueryId, s.Stands notes id →
    MirrorsFill lit (attached.conditions id) (s.query id).bindings.condition
      (attached'.conditions id)
  join : ∀ id : QueryId, s.Stands notes id → (s.query id).OnlyConditions →
    MirrorsFill lit (attached.join id) ((notes id).table ++ (s.query id).bindings.flatten)
      (attached'.join id)

/-! ## Paths into JSON columns -/

/-- A reader passes over a text without quotes and placeholders. -/
private theorem reads_plain_append {a : List Char} (ha : ∀ c ∈ a, isQuote c = false ∧ c ≠ '?')
    {quote : Option Char} (hquote : ∀ q, quote = some q → isQuote q = true) (b : List Char) :
    openQuote quote (a ++ b) = openQuote quote b ∧ marks quote (a ++ b) = marks quote b := by
  induction a with
  | nil => exact ⟨rfl, rfl⟩
  | cons c a ih =>
    obtain ⟨hc, hmark⟩ := ha c List.mem_cons_self
    obtain ⟨hopen, hmarks⟩ := ih fun d hd => ha d (List.mem_cons_of_mem c hd)
    have hafter := quoteAfter_of_not_quote hc quote hquote
    refine ⟨?_, ?_⟩
    · rw [List.cons_append, openQuote_cons, hafter, hopen]
    · rw [List.cons_append, marks_cons, if_neg fun h => hmark h.2, hafter, hmarks, Nat.zero_add]

/-- A reader sees no difference where a text without quotes and placeholders is replaced by
another. -/
private theorem reads_replaceFrom {first : Char} {old new : List Char}
    (hold : ∀ c ∈ first :: old, isQuote c = false ∧ c ≠ '?')
    (hnew : ∀ c ∈ new, isQuote c = false ∧ c ≠ '?') {quote : Option Char}
    (hquote : ∀ q, quote = some q → isQuote q = true) (skip : Nat) (cs : List Char)
    (hskip : ∀ c ∈ cs.take skip, c ∈ first :: old) :
    openQuote quote (replaceFrom (first :: old) new skip cs) = openQuote quote cs ∧
      marks quote (replaceFrom (first :: old) new skip cs) = marks quote cs := by
  induction cs generalizing quote skip with
  | nil => exact ⟨rfl, rfl⟩
  | cons c cs ih =>
    have hpass : c ∈ first :: old → openQuote quote (c :: cs) = openQuote quote cs ∧
        marks quote (c :: cs) = marks quote cs := fun hc =>
      reads_plain_append (a := [c]) (fun d hd => List.mem_singleton.1 hd ▸ hold c hc) hquote cs
    cases skip with
    | succ skip =>
      rw [List.take_succ_cons] at hskip
      obtain ⟨hopen, hmarks⟩ := hpass (hskip c List.mem_cons_self)
      rw [replaceFrom, hopen, hmarks]
      exact ih hquote skip fun d hd => hskip d (List.mem_cons_of_mem c hd)
    | zero =>
      rw [replaceFrom]
      split
      · rename_i hprefix
        obtain ⟨rest, hrest⟩ := List.isPrefixOf_iff_prefix.1 hprefix
        rw [List.cons_append] at hrest
        obtain ⟨rfl, rfl⟩ := List.cons.inj hrest
        have htake : ∀ d ∈ (old ++ rest).take old.length, d ∈ first :: old := by
          rw [List.take_left]
          exact fun d hd => List.mem_cons_of_mem first hd
        obtain ⟨hopen, hmarks⟩ := hpass List.mem_cons_self
        obtain ⟨hopenRest, hmarksRest⟩ := ih hquote old.length htake
        obtain ⟨hopenNew, hmarksNew⟩ := reads_plain_append hnew hquote
          (replaceFrom (first :: old) new old.length (old ++ rest))
        rw [hopen, hmarks]
        exact ⟨hopenNew.trans hopenRest, hmarksNew.trans hmarksRest⟩
      · have hafter : ∀ q, quoteAfter quote c = some q → isQuote q = true := fun q hq =>
          isQuote_quoteAfter hquote hq
        obtain ⟨hopen, hmarks⟩ := ih hafter 0 fun d hd => by cases hd
        rw [openQuote_cons, openQuote_cons, marks_cons, marks_cons, hopen, hmarks]
        exact ⟨rfl, rfl⟩

/-- Shortening the arrows of a sealed text keeps it sealed. -/
private theorem documentArrows_mirrors (lit : Literals) (oracle oracle' : Oracle) {v : Value}
    (hdata : v.handles = []) (hv : Sealed v.display.toList) :
    MirrorsFill lit (documentArrows oracle v) [] (documentArrows oracle' v) := by
  cases v with
  | text s =>
    have hshort : ∀ c ∈ ['-', '>'], isQuote c = false ∧ c ≠ '?' :=
      List.forall_mem_cons.2 ⟨by decide, List.forall_mem_singleton.2 (by decide)⟩
    have harrows : ∀ c ∈ ['-', '>', '>'], isQuote c = false ∧ c ≠ '?' :=
      List.forall_mem_cons.2 ⟨by decide, List.forall_mem_cons.2 ⟨by decide,
        List.forall_mem_singleton.2 (by decide)⟩⟩
    have hnone : ∀ q, (none : Option Char) = some q → isQuote q = true := fun q hq => nomatch hq
    have hreplace : replaceAll "->>".toList "->".toList s.toList =
        replaceFrom ['-', '>', '>'] ['-', '>'] 0 s.toList := rfl
    obtain ⟨hopen, hmarks⟩ :=
      reads_replaceFrom harrows hshort hnone 0 s.toList fun c hc => nomatch hc
    refine .ok (fills_sealed ?_)
    show Sealed (String.ofList (replaceAll "->>".toList "->".toList s.toList)).toList
    rw [hreplace, String.toList_ofList]
    exact ⟨hopen.trans hv.closed, hmarks.trans hv.marks_eq⟩
  | object h => exact nomatch hdata
  | _ => exact .error (value_ne_unanswered _) _

/-- Outside PostgreSQL a quoted column and its path argument have no placeholders. -/
private theorem fieldAndPath_mirrors (hg : g.Compiles p) (hd : g.dialect ≠ .postgres) (s : String) :
    Mirrors (fun r r' => r = r' ∧ Sealed r.1.toList ∧ Sealed r.2.toList) (g.fieldAndPath s)
      (g.fieldAndPath s) := by
  have hwrap : ∀ cs, AsksNothing (Name.wrap g.dialect g.namePrefix false cs) := fun cs =>
    wrapFrom_asksNothing _ _ _ _ cs
  have hsealed : ∀ cs out, Name.wrap g.dialect g.namePrefix false cs = .ok out → Sealed out := by
    intro cs out hout
    rw [hg.namePrefix_eq] at hout
    have htable : TableSealed g.dialect (some p.toList) cs :=
      tableSealed_of_dotless hg.dotless fun h => absurd h hd
    exact (wrapFrom_sealed_iff htable hout).2 fun h => absurd h hd
  have hpair := mirrors_self (P := fun r => Sealed r.1 ∧ Sealed r.2)
    (fieldAndPath_asksNothing hwrap s.toList) fun r hr => by
      unfold Name.fieldAndPath at hr
      split at hr
      · obtain ⟨field, hfield, hr⟩ := bind_eq_ok hr
        cases hr
        exact ⟨hsealed _ field hfield, pathArgument_sealed _⟩
      · obtain ⟨field, hfield, hr⟩ := bind_eq_ok hr
        cases hr
        exact ⟨hsealed _ field hfield, reads_nil⟩
  refine hpair.bind fun r r' h => ?_
  obtain ⟨rfl, hfield, hpath⟩ := h
  refine .ok ⟨rfl, ?_, ?_⟩
  · rw [String.toList_ofList]
    exact hfield
  · rw [String.toList_ofList]
    exact hpath

/-- The same for a selector of any kind. -/
private theorem jsonFieldAndPath_mirrors (hg : g.Compiles p) (hd : g.dialect ≠ .postgres)
    (oracle oracle' : Oracle) {v : Value} (hdata : v.handles = []) :
    Mirrors (fun r r' => r = r' ∧ Sealed r.1.display.toList ∧ Sealed r.2.toList)
      (g.jsonFieldAndPath oracle v) (g.jsonFieldAndPath oracle' v) := by
  cases v with
  | text s =>
    refine (fieldAndPath_mirrors hg hd s).map fun r r' h => ?_
    obtain ⟨rfl, h⟩ := h
    exact ⟨rfl, h⟩
  | object h => exact nomatch hdata
  | _ => exact .error (value_ne_unanswered _) _

/-! ## Conditions on rows -/

/-- A column without placeholders. -/
theorem wrapped_self (lit : Literals) (hg : g.Compiles p) {v : Value} (h : ColumnHolds g v []) :
    MirrorsFill lit (g.wrapped v) [] (g.wrapped v) :=
  (wrapped_mirrors hg h).self

/-- What stands for a value. -/
theorem parameter_display_fills {bound : Value → Except Failure Value} {v : Value}
    {vs : List Value} (h : ParamHolds bound v vs) :
    Fills lit (Grammar.parameter v).display vs
      (Grammar.parameter (v.inlined lit vs)).display :=
  (parameter_fills h).1

theorem comparisonSql_mirrors (hg : g.Compiles p) {bound : Value → Except Failure Value}
    {column value : Value} {operator : String} {cs vs : List Value} (hcolumn : ColumnHolds g column cs)
    (hoperator : Sealed operator.toList) (hvalue : ParamHolds bound value vs) :
    MirrorsFill lit (g.comparisonSql column operator value) (cs ++ vs)
      (g.comparisonSql (column.filled lit cs) operator (value.inlined lit vs)) := by
  refine (wrapped_mirrors hg hcolumn).bind fun t u h => .ok ?_
  have hword := ((h.append_sealed (b := " ") (by decide)).append_sealed hoperator).append_sealed
    (b := " ") (by decide)
  exact hword.append (parameter_display_fills hvalue)

theorem basicSql_mirrors (hg : g.Compiles p) {bound : Value → Except Failure Value}
    {column value : Value} {operator : String} {cs vs : List Value} (hcolumn : ColumnHolds g column cs)
    (hoperator : Sealed operator.toList) (hvalue : ParamHolds bound value vs) :
    MirrorsFill lit (g.basicSql column operator value) (cs ++ vs)
      (g.basicSql (column.filled lit cs) operator (value.inlined lit vs)) := by
  unfold Grammar.basicSql
  split
  · refine (wrapped_mirrors hg hcolumn).bind fun t u h => .ok ?_
    have hword := ((h.append_sealed (b := "::text ") (by decide)).append_sealed
      hoperator).append_sealed (b := " ") (by decide)
    exact hword.append (parameter_display_fills hvalue)
  · exact comparisonSql_mirrors hg hcolumn hoperator hvalue

/-- The word for a condition that may be negated. -/
private theorem negatable_sealed (word : String) (h : Sealed word.toList) (negated : Bool) :
    Sealed (negatable negated word).toList := by
  cases negated with
  | false => exact h
  | true =>
    show Sealed ("not " ++ word).toList
    rw [String.toList_append]
    exact Sealed.append (by decide) h

/-- A column among values.  The column is not in the text if there are none. -/
theorem amongSql_mirrors (hg : g.Compiles p) {column : Value} {vs : List Value}
    {values values' : Except Failure String} (hcolumn : ColumnHolds g column []) {isEmpty : Bool}
    (hempty : isEmpty = true → vs = []) (hvalues : MirrorsFill lit values vs values')
    (negated : Bool) :
    MirrorsFill lit (g.amongSql column values isEmpty negated) vs
      (g.amongSql column values' isEmpty negated) := by
  unfold Grammar.amongSql
  cases isEmpty with
  | true =>
    rw [hempty rfl]
    refine .ok (fills_sealed ?_)
    cases negated <;> decide
  | false =>
    refine (wrapped_self lit hg hcolumn).bind fun t u h => hvalues.bind fun t' u' h' => .ok ?_
    have hword := ((h.append_sealed (b := " ") (by decide)).append_sealed
      (negatable_sealed "in" (by decide) negated)).append_sealed (b := " (") (by decide)
    exact (hword.append h').append_sealed (by decide)

theorem plainNullSql_mirrors (hg : g.Compiles p) {column : Value} {cs : List Value}
    (hcolumn : ColumnHolds g column cs) (negated : Bool) :
    MirrorsFill lit (g.plainNullSql column negated) cs
      (g.plainNullSql (column.filled lit cs) negated) := by
  refine (wrapped_mirrors hg hcolumn).bind fun t u h => .ok ?_
  refine h.append_sealed ?_
  cases negated <;> decide

theorem nullSql_mirrors (hg : g.Compiles p) {column : Value} {cs : List Value}
    (hcolumn : ColumnHolds g column cs) (negated : Bool) :
    MirrorsFill lit (g.nullSql column negated) cs
      (g.nullSql (column.filled lit cs) negated) := by
  unfold Grammar.nullSql
  cases hd : g.dialect with
  | mysql =>
    cases column with
    | text s =>
      dsimp only [Value.filled]
      split
      · obtain ⟨_, rfl, _⟩ := hcolumn
        have hpostgres : g.dialect ≠ .postgres := by
          rw [hd]
          decide
        refine (fieldAndPath_mirrors hg hpostgres s).bind fun r r' h => .ok ?_
        obtain ⟨rfl, hfield, hpath⟩ := h
        have hextract : Sealed ("json_extract(" ++ r.1 ++ r.2 ++ ")").toList := by
          simp only [String.toList_append]
          exact ((Sealed.append (by decide) hfield).append hpath).append (by decide)
        refine fills_sealed ?_
        cases negated with
        | true =>
          simp only [if_true, String.toList_append] at hextract ⊢
          exact (((Sealed.append (by decide) hextract).append (by decide)).append
            hextract).append (by decide)
        | false =>
          simp only [Bool.false_eq_true, if_false, String.toList_append] at hextract ⊢
          exact (((Sealed.append (by decide) hextract).append (by decide)).append
            hextract).append (by decide)
      · exact plainNullSql_mirrors hg hcolumn negated
    | _ => exact plainNullSql_mirrors hg hcolumn negated
  | _ => exact plainNullSql_mirrors hg hcolumn negated

/-- The first and the last of some values with theirs written in. -/
private theorem betweenSql_inlined {values : List Value} {first last : Value}
    (hfirst : values.head? = some first) (hlast : values.getLast? = some last)
    (vs ws : List Value) :
    List.zipWith (fun v vs => v.inlined lit vs) (values.head?.toList ++ values.getLast?.toList)
      [vs, ws] = [first.inlined lit vs, last.inlined lit ws] := by
  rw [hfirst, hlast]
  rfl

theorem betweenSql_mirrors (hg : g.Compiles p) {column : Value} {values : List Value}
    {note : Note} (hcolumn : ColumnHolds g column note.column) (hends : EndsHold values note)
    (negated : Bool) :
    MirrorsFill lit (g.betweenSql column values negated) (note.column ++ note.values.flatten)
      (g.betweenSql (column.filled lit note.column)
        (List.zipWith (fun v vs => v.inlined lit vs)
          (values.head?.toList ++ values.getLast?.toList) note.values) negated) := by
  obtain ⟨first, last, vs, ws, hfirst, hlast, hvalues, hvs, hws, _⟩ := hends
  rw [hvalues, betweenSql_inlined hfirst hlast]
  unfold Grammar.betweenSql
  rw [hfirst, hlast]
  refine (wrapped_mirrors hg hcolumn).bind fun t u h => .ok ?_
  have hword := ((h.append_sealed (b := " ") (by decide)).append_sealed
    (negatable_sealed "between" (by decide) negated)).append_sealed (b := " ") (by decide)
  have hlower := (hword.append (parameter_display_fills hvs)).append_sealed (b := " and ") (by decide)
  rw [List.flatten_cons, List.flatten_cons, List.flatten_nil, List.append_nil, ← List.append_assoc]
  exact hlower.append (parameter_display_fills hws)

/-- The patterns of dates between quotes. -/
private theorem pattern_sealed (part : DatePart) :
    Sealed ("strftime('" ++ part.pattern ++ "', ").toList := by
  cases part <;> decide

private theorem extract_sealed (part : DatePart) :
    Sealed ("extract(" ++ part.name ++ " from ").toList := by
  cases part <;> decide

private theorem part_sealed (part : DatePart) : Sealed (part.name ++ "(").toList := by
  cases part <;> decide

theorem datePartSql_mirrors (hg : g.Compiles p) {bound : Value → Except Failure Value}
    (part : DatePart) {column value : Value} {operator : String} {cs vs : List Value}
    (hcolumn : ColumnHolds g column cs) (hoperator : Sealed operator.toList)
    (hvalue : ParamHolds bound value vs) :
    MirrorsFill lit (g.datePartSql part column operator value) (cs ++ vs)
      (g.datePartSql part (column.filled lit cs) operator (value.inlined lit vs)) := by
  refine (wrapped_mirrors hg hcolumn).bind fun t u h => .ok ?_
  have hparameter := @parameter_display_fills lit _ _ _ hvalue
  -- A cast of the column, with the comparison after it.
  have hcast : ∀ {cast : String}, Sealed cast.toList →
      Fills lit (t ++ cast ++ operator ++ " " ++ (Grammar.parameter value).display) (cs ++ vs)
        (u ++ cast ++ operator ++ " " ++ (Grammar.parameter (value.inlined lit vs)).display) :=
    fun hcast => (((h.append_sealed hcast).append_sealed hoperator).append_sealed
      (by decide)).append hparameter
  -- A function of the column, with the comparison after it.
  have hcall : ∀ {head : String}, Sealed head.toList →
      Fills lit (head ++ t ++ ") " ++ operator ++ " " ++ (Grammar.parameter value).display)
        (cs ++ vs)
        (head ++ u ++ ") " ++ operator ++ " " ++
          (Grammar.parameter (value.inlined lit vs)).display) := fun hhead =>
    ((((h.sealed_append hhead).append_sealed (by decide)).append_sealed hoperator).append_sealed
      (by decide)).append hparameter
  cases g.dialect with
  | postgres =>
    cases part with
    | date => exact hcast (by decide)
    | time => exact hcast (by decide)
    | day => exact hcall (extract_sealed .day)
    | month => exact hcall (extract_sealed .month)
    | year => exact hcall (extract_sealed .year)
  | sqlite =>
    have hcolumn := (h.sealed_append (pattern_sealed part)).append_sealed (b := ") ") (by decide)
    have hword := (hcolumn.append_sealed hoperator).append_sealed (b := " cast(") (by decide)
    exact (hword.append hparameter).append_sealed (b := " as text)") (by decide)
  | _ => exact hcall (part_sealed part)

/-! ## JSON conditions -/

/-- A quoted name, as it is before its text is taken. -/
private theorem wrapText_self (hg : g.Compiles p) {s : String} (h : NameFree g s) :
    Mirrors (fun w w' => w = w' ∧ w.handles = [] ∧ Sealed w.display.toList)
      ((g.wrapText false s).map Value.text) ((g.wrapText false s).map Value.text) := by
  have hself := mirrors_self (P := fun t => Sealed t.toList) (g.wrapText_asksNothing false s)
    fun t ht => Grammar.wrapText_sealed hg h ht
  exact hself.map fun t u h => ⟨congrArg Value.text h.1, rfl, h.2⟩

/-- Only a fragment is not quoted. -/
private theorem wrap_name {v : Value} (h : v.isRaw = false) :
    g.wrap v = (g.wrapText false v.display).map Value.text := by
  cases v <;> first | rfl | exact nomatch h

private theorem columnHolds_name {v : Value} {vs : List Value} (h : ColumnHolds g v vs)
    (hraw : v.isRaw = false) : NameFree g v.display := by
  cases v <;> first | exact h.2.2 | exact nomatch hraw

/-- A quoted column without placeholders. -/
private theorem wrap_self (hg : g.Compiles p) {v : Value} (h : ColumnHolds g v []) :
    Mirrors (fun w w' => w = w' ∧ w.handles = [] ∧ Sealed w.display.toList) (g.wrap v)
      (g.wrap v) := by
  cases hraw : v.isRaw with
  | false =>
    rw [wrap_name hraw]
    exact wrapText_self hg (columnHolds_name h hraw)
  | true =>
    cases v with
    | raw w => exact .ok ⟨rfl, h⟩
    | _ => exact nomatch hraw

theorem jsonContainsSql_mirrors (hg : g.Compiles p) (oracle oracle' : Oracle)
    {column value value' : Value} {vs : List Value} (hcolumn : ColumnHolds g column [])
    (hvalue : Fills lit value.display vs value'.display) :
    MirrorsFill lit (g.jsonContainsSql oracle column value) vs
      (g.jsonContainsSql oracle' column value') := by
  unfold Grammar.jsonContainsSql
  cases hd : g.dialect with
  | mysql =>
    have hpostgres : g.dialect ≠ .postgres := by
      rw [hd]
      decide
    refine (jsonFieldAndPath_mirrors hg hpostgres oracle oracle' hcolumn.1).bind
      fun r r' h => .ok ?_
    obtain ⟨rfl, hfield, hpath⟩ := h
    have hhead : Sealed ("json_contains(" ++ r.1.display ++ ", ").toList := by
      simp only [String.toList_append]
      exact (Sealed.append (by decide) hfield).append (by decide)
    exact ((hvalue.sealed_append hhead).append_sealed hpath).append_sealed (by decide)
  | postgres =>
    refine (wrap_self hg hcolumn).bind fun v w h => ?_
    obtain ⟨rfl, hdata, hv⟩ := h
    refine (documentArrows_mirrors lit oracle oracle' hdata hv).bind fun t u h => .ok ?_
    have hhead := (h.sealed_append (a := "(") (by decide)).append_sealed (b := ")::jsonb @> ")
      (by decide)
    exact hhead.append hvalue
  | _ => exact .error (unsupported_ne_unanswered _) _

theorem jsonLengthSql_mirrors (hg : g.Compiles p) (oracle oracle' : Oracle)
    {column value value' : Value} {operator : String} {vs : List Value}
    (hcolumn : ColumnHolds g column []) (hoperator : Sealed operator.toList)
    (hvalue : Fills lit value.display vs value'.display) :
    MirrorsFill lit (g.jsonLengthSql oracle column operator value) vs
      (g.jsonLengthSql oracle' column operator value') := by
  -- The length by a function that takes the column and the path apart.
  have hcall : ∀ {head : String} {field : Value} {path : String}, Sealed head.toList →
      Sealed field.display.toList → Sealed path.toList →
      Fills lit (head ++ field.display ++ path ++ ") " ++ operator ++ " " ++ value.display) vs
        (head ++ field.display ++ path ++ ") " ++ operator ++ " " ++ value'.display) := by
    intro head field path hhead hfield hpath
    refine hvalue.sealed_append ?_
    simp only [String.toList_append]
    exact ((((hhead.append hfield).append hpath).append (by decide)).append hoperator).append
      (by decide)
  unfold Grammar.jsonLengthSql
  cases hd : g.dialect with
  | ansi => exact .error (unsupported_ne_unanswered _) _
  | postgres =>
    refine (wrap_self hg hcolumn).bind fun v w h => ?_
    obtain ⟨rfl, hdata, hv⟩ := h
    refine (documentArrows_mirrors lit oracle oracle' hdata hv).bind fun t u h => .ok ?_
    have hhead := (h.sealed_append (a := "json_array_length((") (by decide)).append_sealed
      (b := ")::json) ") (by decide)
    exact ((hhead.append_sealed hoperator).append_sealed (by decide)).append hvalue
  | mysql =>
    have hpostgres : g.dialect ≠ .postgres := by
      rw [hd]
      decide
    refine (jsonFieldAndPath_mirrors hg hpostgres oracle oracle' hcolumn.1).bind
      fun r r' h => .ok ?_
    obtain ⟨rfl, hfield, hpath⟩ := h
    exact hcall (by decide) hfield hpath
  | sqlite =>
    have hpostgres : g.dialect ≠ .postgres := by
      rw [hd]
      decide
    refine (jsonFieldAndPath_mirrors hg hpostgres oracle oracle' hcolumn.1).bind
      fun r r' h => .ok ?_
    obtain ⟨rfl, hfield, hpath⟩ := h
    exact hcall (by decide) hfield hpath

/-! ## Numbers -/

/-- The text of a number has no placeholders. -/
theorem natText_sealed (n : Nat) : Sealed (Number.natText n).toList := by
  rw [Number.natText, String.toList_ofList]
  refine sealed_of_plain fun c hc => ?_
  have hdigit : c.isDigit = true := Nat.isDigit_of_mem_toDigits (by decide) (by decide) hc
  refine ⟨?_, ?_⟩
  · rw [Bool.eq_false_iff]
    intro hq
    simp only [isQuote, Bool.or_eq_true, beq_iff_eq] at hq
    rcases hq with (rfl | rfl) | rfl <;> exact absurd hdigit (by decide)
  · rintro rfl
    exact absurd hdigit (by decide)

private theorem intText_sealed (i : Int) : Sealed (Number.intText i).toList := by
  unfold Number.intText
  split
  · rw [String.toList_append]
    exact Sealed.append (by decide) (natText_sealed _)
  · exact natText_sealed _

private theorem integersSql_self (lit : Literals) (values : List Int) :
    MirrorsFill lit (Grammar.integersSql values) [] (Grammar.integersSql values) := by
  have hinteger : ∀ i, MirrorsFill lit (Grammar.integerText i) [] (Grammar.integerText i) := by
    intro i
    unfold Grammar.integerText
    split
    · exact .ok (fills_sealed (intText_sealed i))
    · exact .error (value_ne_unanswered _) _
  have hnone : (values.map fun _ => ([] : List Value)).flatten = [] := by
    rw [List.flatten_eq_nil_iff]
    rintro vs hvs
    obtain ⟨_, _, rfl⟩ := List.mem_map.1 hvs
    rfl
  refine (mirrors_mapM_same fun i _ => hinteger i).bind fun ts us hts => .ok ?_
  rw [← hnone]
  exact fills_joinWith (by decide) hts

/-! ## All kinds of conditions -/

section

variable {s : Store} {notes : QueryId → Notes} {attached attached' : Attached}

/-- A condition and the queries that it refers to. -/
structure WhereStands (g : Grammar) (s : Store) (notes : QueryId → Notes) (note : Note)
    (body : Where) : Prop where
  holds : WhereHolds g note body
  /-- The group stands. -/
  group : ∀ id ∈ body.group?, s.Stands notes id
  /-- The query that it selects from stands, with the values of its source. -/
  sub : ∀ id ∈ body.sub?, s.Stands notes id ∧ (notes id).whole = true

/-- The values of a note with one value. -/
private theorem OneParamHolds.param {bound : Value → Except Failure Value} {v : Value} {note : Note}
    (h : OneParamHolds bound v note) : ParamHolds bound v note.values.flatten := by
  obtain ⟨vs, hvalues, hv⟩ := h
  rwa [hvalues, List.flatten_cons, List.flatten_nil, List.append_nil]

/-- A fragment with its placeholders filled. -/
theorem fragment_mirrors {sql : Value} {note : Note} (hcolumn : note.column = [])
    (h : ∃ vs, note.values = [vs] ∧ Reads sql.display.toList vs.length) :
    MirrorsFill lit (.ok sql.display) (note.column ++ note.values.flatten)
      (.ok (filledText lit note.values.flatten sql).display) := by
  obtain ⟨vs, hvalues, hreads⟩ := h
  rw [hcolumn, hvalues, List.flatten_cons, List.flatten_nil, List.append_nil, List.nil_append]
  exact .ok (valueFills_filledText hreads).1

theorem whereSql_mirrors (hg : g.Compiles p) (ha : MirrorsAttached lit s notes attached attached')
    {note : Note} {body : Where} (h : WhereStands g s notes note body) :
    MirrorsFill lit (g.whereSql attached body) (body.valuesIn s note)
      (g.whereSql attached' (body.inlined lit note)) := by
  obtain ⟨h, hgroup, hsub⟩ := h
  cases body with
  | raw sql => exact fragment_mirrors h.2.1 h.2.2
  | basic column operator value =>
    obtain ⟨hcolumn, hoperator, hvalue⟩ := h
    exact basicSql_mirrors hg hcolumn hoperator hvalue.param
  | among column values negated =>
    obtain ⟨hcolumn, hnone, hvalues⟩ := h
    have hempty : values.isEmpty = true → note.values.flatten = [] := by
      intro hempty
      rw [List.isEmpty_iff] at hempty
      rw [hempty, List.forall₂_nil_left_iff] at hvalues
      rw [hvalues, List.flatten_nil]
    have hsame : (List.zipWith (fun v vs => v.inlined lit vs) values note.values).isEmpty =
        values.isEmpty := by
      rw [Bool.eq_iff_iff, List.isEmpty_iff, List.isEmpty_iff, ← List.length_eq_zero_iff,
        ← List.length_eq_zero_iff, List.length_zipWith, hvalues.length_eq, Nat.min_self]
    show MirrorsFill lit _ (note.column ++ note.values.flatten) (g.amongSql column _ _ negated)
    rw [hnone, List.nil_append, hsame]
    exact amongSql_mirrors hg hcolumn hempty (parameterize_mirrors hvalues) negated
  | amongIntegers column values negated =>
    obtain ⟨hcolumn, rfl⟩ := h
    exact (integersSql_self lit values).bind fun _ _ h =>
      amongSql_mirrors hg hcolumn (fun _ => rfl) (.ok h) negated
  | null column negated =>
    obtain ⟨hcolumn, hvalues⟩ := h
    show MirrorsFill lit _ (note.column ++ note.values.flatten) _
    rw [hvalues, List.flatten_nil, List.append_nil]
    exact nullSql_mirrors hg hcolumn negated
  | between column values negated => exact betweenSql_mirrors hg h.1 h.2 negated
  | datePart part column operator value =>
    obtain ⟨hcolumn, hoperator, hvalue⟩ := h
    exact datePartSql_mirrors hg part hcolumn hoperator hvalue.param
  | columnPair first operator second =>
    obtain ⟨hfirst, hoperator, hsecond, rfl⟩ := h
    refine (wrapped_self lit hg hfirst).bind fun t u h => ?_
    refine (wrapped_self lit hg hsecond).bind fun t' u' h' => .ok ?_
    have hword := ((h.append_sealed (b := " ") (by decide)).append_sealed hoperator).append_sealed
      (b := " ") (by decide)
    exact hword.append h'
  | nested query =>
    refine (ha.conditions query (hgroup query rfl)).bind fun t u h => .ok ?_
    exact (h.sealed_append (by decide)).append_sealed (by decide)
  | sub column operator query =>
    obtain ⟨hcolumn, hoperator, hvalues⟩ := h
    obtain ⟨hsize, hwhole⟩ := hsub query rfl
    refine (ha.select query hsize hwhole).bind fun t u h => ?_
    refine (wrapped_mirrors hg hcolumn).bind fun t' u' h' => .ok ?_
    have hword := ((h'.append_sealed (b := " ") (by decide)).append_sealed
      hoperator.2).append_sealed (b := " (") (by decide)
    exact (hword.append h).append_sealed (by decide)
  | «exists» query negated =>
    obtain ⟨hsome, rfl⟩ := h
    cases query with
    | none => exact absurd hsome (by decide)
    | some query =>
      obtain ⟨hsize, hwhole⟩ := hsub query rfl
      refine (ha.select query hsize hwhole).bind fun t u h => .ok ?_
      have hhead : Sealed (negatable negated "exists" ++ " (").toList := by
        rw [String.toList_append]
        exact (negatable_sealed "exists" (by decide) negated).append (by decide)
      exact (h.sealed_append hhead).append_sealed (by decide)
  | rowValues columns operator values =>
    obtain ⟨hcolumns, hoperator, hnone, hvalues⟩ := h
    refine (columnize_self lit hg hcolumns).bind fun t u h => ?_
    refine (parameterize_mirrors hvalues).bind fun t' u' h' => .ok ?_
    have hword := (((h.sealed_append (a := "(") (by decide)).append_sealed (b := ") ")
      (by decide)).append_sealed hoperator.2).append_sealed (b := " (") (by decide)
    show Fills lit _ (note.column ++ note.values.flatten) _
    rw [hnone]
    exact (hword.append h').append_sealed (by decide)
  | jsonContains column value negated =>
    obtain ⟨hcolumn, hnone, hvalue⟩ := h
    have hfills := @parameter_display_fills lit _ _ _ hvalue.param
    refine (jsonContainsSql_mirrors hg attached.oracle attached'.oracle hcolumn hfills).bind
      fun t u h => .ok ?_
    show Fills lit _ (note.column ++ note.values.flatten) _
    rw [hnone]
    refine h.sealed_append ?_
    cases negated <;> decide
  | jsonLength column operator value =>
    obtain ⟨hcolumn, hoperator, hnone, hvalue⟩ := h
    have hfills := @parameter_display_fills lit _ _ _ hvalue.param
    show MirrorsFill lit _ (note.column ++ note.values.flatten) _
    rw [hnone]
    exact jsonLengthSql_mirrors hg attached.oracle attached'.oracle hcolumn hoperator hfills

theorem havingSql_mirrors (hg : g.Compiles p) {note : Note} {body : Having}
    (h : HavingHolds g note body) :
    MirrorsFill lit (g.havingSql body) (note.column ++ note.values.flatten)
      (g.havingSql (body.inlined lit note)) := by
  cases body with
  | basic column operator value =>
    obtain ⟨hcolumn, hoperator, hvalue⟩ := h
    exact comparisonSql_mirrors hg hcolumn hoperator hvalue.param
  | raw sql => exact fragment_mirrors h.2.1 h.2.2
  | between column values negated => exact betweenSql_mirrors hg h.1 h.2 negated
  | null column negated =>
    obtain ⟨hcolumn, hvalues⟩ := h
    rw [hvalues, List.flatten_nil, List.append_nil]
    exact plainNullSql_mirrors hg hcolumn negated

/-! ## Lists of conditions -/

/-- A condition with its joining word before it. -/
private def Worded (lit : Literals) (t : String) (vs : List Value) (u : String) : Prop :=
  ∃ word c d, Sealed word.toList ∧ t = word ++ " " ++ c ∧ u = word ++ " " ++ d ∧ Fills lit c vs d

private theorem worded_fills {t u : String} {vs : List Value} (h : Worded lit t vs u) :
    Fills lit t vs u := by
  obtain ⟨word, c, d, hword, rfl, rfl, h⟩ := h
  refine h.sealed_append ?_
  rw [String.toList_append]
  exact hword.append (by decide)

/-- Conditions with the first joining word dropped. -/
private theorem dropConjunction_fills {ts us : List String} {vss : List (List Value)}
    (h : Each (Worded lit) ts vss us) :
    Fills lit (dropConjunction (joinWith " " ts)) vss.flatten
      (dropConjunction (joinWith " " us)) := by
  cases h with
  | nil => exact fills_sealed (by decide)
  | @cons t vs u ts vss us first rest =>
    obtain ⟨word, c, d, hword, rfl, rfl, hfirst⟩ := first
    -- What stands after the first joining word.
    have hjoin : ∀ (c : String) (ts : List String),
        joinWith " " ((word ++ " " ++ c) :: ts) = word ++ " " ++ joinWith " " (c :: ts) := by
      intro c ts
      cases ts with
      | nil => rfl
      | cons t ts =>
        show word ++ " " ++ c ++ " " ++ joinWith " " (t :: ts) =
          word ++ " " ++ (c ++ " " ++ joinWith " " (t :: ts))
        simp only [String.append_assoc]
    have hrest : FillsAll lit ts vss us := by
      induction rest with
      | nil => exact .nil
      | cons first _ ih => exact .cons (worded_fills first) ih
    rw [hjoin, hjoin]
    exact Fills.dropConjunction hword (fills_joinWith (by decide) (.cons hfirst hrest))

theorem conditionsSql_mirrors (hg : g.Compiles p)
    (ha : MirrorsAttached lit s notes attached attached') {conditions : List Condition}
    {ns : List Note}
    (h : List.Forall₂ (fun c note => WordHolds c.boolean ∧ WhereHolds g note c.body) conditions ns)
    (hrefs : ∀ c ∈ conditions, (∀ id ∈ c.body.group?, s.Stands notes id) ∧
      ∀ id ∈ c.body.sub?, s.Stands notes id ∧ (notes id).whole = true) :
    MirrorsFill lit (g.conditionsSql attached conditions)
      (List.zipWith (fun c note => c.body.valuesIn s note) conditions ns).flatten
      (g.conditionsSql attached'
        (List.zipWith (fun c note => ⟨c.boolean, c.body.inlined lit note⟩) conditions ns)) := by
  have hall : Mirrors (fun ts us => Each (Worded lit) ts
      (List.zipWith (fun c note => c.body.valuesIn s note) conditions ns) us)
      (conditions.mapM fun c => do
        return c.boolean.display ++ " " ++ (← g.whereSql attached c.body))
      ((List.zipWith (fun c note => (⟨c.boolean, c.body.inlined lit note⟩ : Condition))
        conditions ns).mapM fun c => do
          return c.boolean.display ++ " " ++ (← g.whereSql attached' c.body)) := by
    refine mirrors_mapM h fun c hc note hnote => ?_
    obtain ⟨hgroup, hsub⟩ := hrefs c hc
    refine (whereSql_mirrors hg ha ⟨hnote.2, hgroup, hsub⟩).bind fun t u htu => .ok ?_
    exact ⟨c.boolean.display, t, u, hnote.1.2, rfl, rfl, htu⟩
  exact hall.bind fun ts us hts => .ok (dropConjunction_fills hts)

/-- The conditions of a query. -/
theorem Query.Noted.conditionsSql_mirrors (hg : g.Compiles p)
    (ha : MirrorsAttached lit s notes attached attached') {q : Query} {n : Notes}
    (h : q.Noted g s notes n) :
    MirrorsFill lit (g.conditionsSql attached q.wheres) q.bindings.condition
      (g.conditionsSql attached' (q.inlined lit n).wheres) := by
  rw [h.condition]
  refine FluentSql.conditionsSql_mirrors hg ha h.wheres fun c hc => ⟨?_, ?_⟩
  · exact fun id hid => (h.attached id (Query.mem_attachments_group hc hid)).1
  · intro id hid
    have hsub := Query.mem_subQueries_where hc hid
    exact ⟨(h.attached id (Query.mem_attachments_sub hsub)).1, h.subQueries id hsub⟩

/-- The conditions of a query with their keyword. -/
theorem wheresSql_mirrors (hg : g.Compiles p)
    (ha : MirrorsAttached lit s notes attached attached') {q : Query} {n : Notes}
    (h : q.Noted g s notes n) :
    MirrorsFill lit (g.wheresSql attached q) q.bindings.condition
      (g.wheresSql attached' (q.inlined lit n)) := by
  have hempty : (q.inlined lit n).wheres.isEmpty = q.wheres.isEmpty := by
    rw [Bool.eq_iff_iff, List.isEmpty_iff, List.isEmpty_iff, ← List.length_eq_zero_iff,
      ← List.length_eq_zero_iff, Query.inlined, List.length_zipWith, h.wheres.length_eq,
      Nat.min_self]
  have hkeyword : (q.inlined lit n).keyword = q.keyword := by
    unfold Query.keyword Query.isJoin Query.inlined
    cases q.kind <;> rfl
  unfold Grammar.wheresSql
  rw [hempty, hkeyword]
  split
  · rename_i hnone
    rw [List.isEmpty_iff] at hnone
    rw [h.condition, hnone]
    exact .ok (fills_sealed reads_nil)
  · refine (h.conditionsSql_mirrors hg ha).bind fun t u htu => .ok (htu.sealed_append ?_)
    unfold Query.keyword
    split <;> decide

theorem havingsSql_mirrors (hg : g.Compiles p) {conditions : List GroupCondition} {ns : List Note}
    (h : List.Forall₂ (fun c note => WordHolds c.boolean ∧ HavingHolds g note c.body)
      conditions ns) :
    MirrorsFill lit (g.havingsSql conditions)
      (ns.map fun note => note.column ++ note.values.flatten).flatten
      (g.havingsSql
        (List.zipWith (fun c note => ⟨c.boolean, c.body.inlined lit note⟩) conditions ns)) := by
  have hall : Mirrors (fun ts us => Each (Worded lit) ts
      (List.zipWith (fun _ note => note.column ++ note.values.flatten) conditions ns) us)
      (conditions.mapM fun c => do
        return c.boolean.display ++ " " ++ (← g.havingSql c.body))
      ((List.zipWith (fun c note => (⟨c.boolean, c.body.inlined lit note⟩ : GroupCondition))
        conditions ns).mapM fun c => do
          return c.boolean.display ++ " " ++ (← g.havingSql c.body)) := by
    refine mirrors_mapM h fun c _ note hnote => ?_
    refine (havingSql_mirrors hg hnote.2).bind fun t u htu => .ok ?_
    exact ⟨c.boolean.display, t, u, hnote.1.2, rfl, rfl, htu⟩
  have hnotes : List.zipWith (fun _ note => note.column ++ note.values.flatten) conditions ns =
      ns.map fun note => note.column ++ note.values.flatten := by
    rw [← zipWith_notes h, List.map_zipWith, zipWith_notes h]
  rw [hnotes] at hall
  refine hall.bind fun ts us hts => .ok ?_
  exact (dropConjunction_fills hts).sealed_append (by decide)

end

end FluentSql
