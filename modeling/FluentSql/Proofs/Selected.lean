import FluentSql.Proofs.Naming.Mentions
import FluentSql.Proofs.Verbatim.Calls

/-!
# What a statement selects

A select statement begins with its select list, or with the aggregate in the
place of one.  Only a query whose select list was set and has nothing in it has
none, and its statement begins with the source: to set the list and to fill it
are two steps, and a map without entries, or no column that is added to a list
that was not set, fills it with nothing.

* `Grammar.selection` is the list, and `Grammar.Selects` says that a statement
  begins with it.
* `Query.SelectsNothing` are the queries without a list.
* `QueryId.toSql_selects_iff` is the result.
-/

namespace FluentSql

/-! ## Visible names -/

theorem Name.quoteName_visible (dialect : Dialect) (cs : List Char) :
    ∃ c ∈ Name.quoteName dialect cs, Text.isBlank c = false := by
  unfold Name.quoteName
  split
  · rename_i hstar
    exact ⟨'*', by rw [hstar]; exact List.mem_cons_self, by decide⟩
  · exact ⟨dialect.quote, List.mem_cons_self, by cases dialect <;> decide⟩

theorem Name.wrapSegments_visible {dialect : Dialect}
    {wrapTable : List Char → Except Failure (List Char)} {segments : List (List Char)}
    {quoted : List Char} (hsome : segments ≠ [])
    (h : Name.wrapSegments dialect wrapTable segments = .ok quoted) :
    ∃ c ∈ quoted, Text.isBlank c = false := by
  match segments, hsome with
  | [segment], _ =>
    obtain rfl := Except.ok.inj h
    exact Name.quoteName_visible dialect segment
  | table :: column :: rest, _ =>
    obtain ⟨table, _, h⟩ := Name.bind_eq_ok h
    obtain rfl := Except.ok.inj h
    exact ⟨'.', by simp [Name.joinPoints], by decide⟩

theorem Name.wrapSelector_visible {dialect : Dialect}
    {wrap wrapTable : List Char → Except Failure (List Char)} {cs quoted : List Char}
    (h : Name.wrapSelector dialect wrap wrapTable cs = .ok quoted) :
    ∃ c ∈ quoted, Text.isBlank c = false := by
  cases dialect with
  | ansi => cases h
  | mysql =>
    obtain ⟨_, _, h⟩ := Name.bind_eq_ok h
    obtain rfl := Except.ok.inj h
    exact ⟨'j', by simp, by decide⟩
  | sqlite =>
    obtain ⟨_, _, h⟩ := Name.bind_eq_ok h
    obtain rfl := Except.ok.inj h
    exact ⟨'j', by simp, by decide⟩
  | postgres =>
    unfold Name.wrapSelector at h
    dsimp only at h
    split at h
    · rename_i key keys _
      obtain ⟨_, _, h⟩ := Name.bind_eq_ok h
      obtain rfl := Except.ok.inj h
      exact ⟨'-', by cases keys <;> simp [Name.arrowKeys], by decide⟩
    · obtain ⟨_, _, h⟩ := Name.bind_eq_ok h
      cases h

/-- Whatever is quoted, something of it can be seen. -/
theorem Name.wrapFrom_visible {dialect : Dialect} {tablePrefix : Name.TablePrefix} {fuel : Nat}
    {aliasToo : Bool} {cs quoted : List Char}
    (h : Name.wrapFrom dialect tablePrefix fuel aliasToo cs = .ok quoted) :
    ∃ c ∈ quoted, Text.isBlank c = false := by
  cases fuel with
  | zero => exact nomatch h
  | succ fuel =>
    rw [Name.wrapFrom_succ] at h
    split at h
    · have haliased : ∃ name given, quoted = name ++ " as ".toList ++ given := by
        split at h
        all_goals
          obtain ⟨given, _, h⟩ := Name.bind_eq_ok h
          obtain ⟨name, _, h⟩ := Name.bind_eq_ok h
          exact ⟨_, _, (Except.ok.inj h).symm⟩
      obtain ⟨name, given, rfl⟩ := haliased
      exact ⟨'a', by simp, by decide⟩
    · split at h
      · exact Name.wrapSelector_visible h
      · exact Name.wrapSegments_visible (List.splitOn_ne_nil '.' cs) h

/-! ## Lists of columns -/

/-- A fragment in which nothing can be seen. -/
def Value.IsBlank : Value → Prop
  | .raw (.text sql) => ¬Visible sql
  | _ => False

section

variable {g : Grammar} {attached : Attached} {q : Query} {sql list : String}

theorem Grammar.wrap_visible {v : Value} {text : String} (h : g.wrap v = .ok (.text text)) :
    Visible text ↔ ¬v.IsBlank := by
  have hquoted : (g.wrapText false v.display).map Value.text = .ok (.text text) → Visible text := by
    intro h
    obtain ⟨quoted, hquoted, heq⟩ := Name.map_eq_ok h
    obtain ⟨cs, hcs, rfl⟩ := Name.map_eq_ok hquoted
    obtain ⟨c, hc, hblank⟩ := Name.wrapFrom_visible hcs
    refine ⟨c, ?_, hblank⟩
    rw [Value.text.inj heq]
    rwa [String.toList_ofList]
  cases v with
  | raw v =>
    obtain rfl : v = .text text := Except.ok.inj h
    exact not_not.symm
  | _ => exact iff_of_true (hquoted h) id

/-- Something of a list of columns can be seen unless there are none, or one blank fragment alone. -/
theorem Grammar.columnize_visible {columns : List Value} (h : g.columnize columns = .ok list) :
    Visible list ↔ columns ≠ [] ∧ ∀ v, columns = [v] → ¬v.IsBlank := by
  obtain ⟨wrapped, hwrapped, h⟩ := Name.bind_eq_ok h
  obtain ⟨texts, htexts, h⟩ := Name.bind_eq_ok h
  obtain rfl := Except.ok.inj h
  have hquoted := mapM_eq_ok_iff.1 hwrapped
  have hwritten := mapM_eq_ok_iff.1 htexts
  clear hwrapped htexts
  cases hquoted with
  | nil =>
    cases hwritten
    exact iff_of_false (fun ⟨_, hc, _⟩ => nomatch hc) fun h => h.1 rfl
  | @cons v w columns wrapped hv hrest =>
    cases hwritten with
    | @cons _ text _ texts htext hothers =>
      obtain rfl : w = .text text := by
        cases w <;> first | exact congrArg _ (Except.ok.inj htext) | exact nomatch htext
      cases hrest with
      | nil =>
        cases hothers
        refine (Grammar.wrap_visible hv).trans
          ⟨fun h => ⟨List.cons_ne_nil _ _, fun _ heq => ?_⟩, fun h => h.2 v rfl⟩
        rwa [← (List.cons.inj heq).1]
      | cons hw hrest =>
        cases hothers with
        | cons _ _ =>
          have hcomma : Visible ", " := ⟨',', List.mem_cons_self, by decide⟩
          exact iff_of_true ((hcomma.after text).append _)
            ⟨List.cons_ne_nil _ _, fun _ heq => nomatch (List.cons.inj heq).2⟩

/-! ## Select lists -/

/-- The select list of a query, or the aggregate in its place. -/
def Grammar.selection (g : Grammar) (q : Query) : Except Failure String :=
  match q.aggregate with
  | some aggregate => do
    let columns ← g.columnize aggregate.columns
    return aggregate.function.display ++ "(" ++
      (if q.distinct ∧ columns ≠ "*" then "distinct " ++ columns else columns) ++ ") as aggregate"
  | none => g.columnize (q.columns.getD [.text "*"])

/-- What stands before the select list. -/
def Grammar.opening (g : Grammar) (q : Query) : String :=
  match q.aggregate with
  | some _ => "select "
  | none =>
    (if g.dialect = .mysql ∧ q.isUnion then "(" else "") ++
      if q.distinct then "select distinct " else "select "

/-- A statement begins with a select list in which something can be seen. -/
def Grammar.Selects (g : Grammar) (q : Query) (sql : String) : Prop :=
  ∃ list rest, g.selection q = .ok list ∧ Visible list ∧
    sql = g.opening q ++ Text.trimRight list ++ rest

/-- A query selects nothing: its select list is empty, or has nothing in it that can be seen. -/
def Query.SelectsNothing (q : Query) : Prop :=
  q.aggregate = none ∧ (q.columns = some [] ∨ ∃ v, q.columns = some [v] ∧ v.IsBlank)

/-- A text is what is left without the blanks at its end, and these. -/
theorem Visible.trimRight (h : Visible list) :
    ∃ blanks, list = Text.trimRight list ++ blanks ∧ Closes (Text.trimRight list) := by
  obtain ⟨c, hc, hblank⟩ := h
  obtain ⟨blanks, hblanks⟩ := trimRight_front list
  have hne : Text.dropBlanks list.toList.reverse ≠ [] := by
    intro hnil
    have hall := List.dropWhile_eq_nil_iff.1 hnil c (List.mem_reverse.2 hc)
    rw [hblank] at hall
    exact nomatch hall
  refine ⟨String.ofList blanks, ?_, ?_⟩
  · apply String.toList_inj.1
    rw [String.toList_append, String.toList_ofList, hblanks]
  · refine ⟨(Text.dropBlanks list.toList.reverse).tail.reverse,
      (Text.dropBlanks list.toList.reverse).head hne, ?_, List.head_dropWhile_not Text.isBlank hne⟩
    rw [toList_trimRight]
    conv_lhs => rw [← List.cons_head_tail hne]
    exact List.reverse_cons

/-- What is joined with spaces begins with the first fragment, if this is not empty. -/
theorem spaced_front {first : String} (hne : first ≠ "") (fragments : List String) :
    ∃ rest, spaced (first :: fragments) = first ++ rest := by
  have hkept : (!first.isEmpty) = true := by
    rw [Bool.not_eq_true', Bool.eq_false_iff]
    exact fun hempty => hne (String.isEmpty_iff.1 hempty)
  have hfilter : (first :: fragments).filter (fun fragment => !fragment.isEmpty) =
      first :: fragments.filter fun fragment => !fragment.isEmpty := List.filter_cons_of_pos hkept
  unfold spaced
  rw [hfilter]
  cases fragments.filter fun fragment => !fragment.isEmpty with
  | nil => exact ⟨"", String.append_empty.symm⟩
  | cons second more => exact ⟨" " ++ joinWith " " (second :: more), String.append_assoc ..⟩

/-- What a statement begins with that is not aggregated over a union. -/
theorem Grammar.plainSelectSql_front (h : g.plainSelectSql attached q = .ok sql) :
    ∃ fragments rest, g.components attached q = .ok fragments ∧
      sql = (if g.dialect = .mysql ∧ q.isUnion then "(" else "") ++
        Text.trim (spaced fragments) ++ rest := by
  obtain ⟨fragments, hfragments, h⟩ := Name.bind_eq_ok h
  dsimp only at h
  split at h
  · rename_i hmysql
    obtain ⟨unions, _, h⟩ := Name.bind_eq_ok h
    obtain rfl := Except.ok.inj h
    refine ⟨fragments, ") " ++ unions, hfragments, ?_⟩
    rw [if_pos hmysql]
    simp only [String.append_assoc]
  · rename_i hmysql
    obtain rfl := Except.ok.inj h
    exact ⟨fragments, "", hfragments,
      by rw [if_neg hmysql, String.empty_append, String.append_empty]⟩

theorem Closes.visible (h : Closes list) : Visible list := by
  obtain ⟨front, c, htext, hblank⟩ := h
  exact ⟨c, by rw [htext]; exact List.mem_append_right _ List.mem_cons_self, hblank⟩

theorem Closes.trimRight (h : Closes list) : Text.trimRight list = list := by
  have hright := h.trimRight_append ""
  rwa [show Text.trimRight "" = "" from rfl, String.append_empty] at hright

theorem opens_select (rest : String) : Opens ("select " ++ rest) :=
  Opens.append ⟨'s', "elect ".toList, rfl, by decide⟩ rest

theorem Grammar.aggregateSql_selection {aggregate : Aggregate} {text : String}
    (hq : q.aggregate = some aggregate) (h : g.aggregateSql q.distinct aggregate = .ok text) :
    ∃ list, g.selection q = .ok list ∧ Closes list ∧ text = "select " ++ list := by
  have hcloses : Closes ") as aggregate" := ⟨") as aggregat".toList, 'e', rfl, by decide⟩
  obtain ⟨columns, hcolumns, h⟩ := Name.bind_eq_ok h
  obtain rfl := Except.ok.inj h
  refine ⟨aggregate.function.display ++ "(" ++ (if q.distinct ∧ columns ≠ "*" then
    "distinct " ++ columns else columns) ++ ") as aggregate", ?_, hcloses.after _, ?_⟩
  · unfold selection
    rw [hq]
    dsimp only
    rw [hcolumns]
    rfl
  · simp only [String.append_assoc]

/-- An aggregate is what the statement begins with. -/
theorem Grammar.selectSql_aggregated {aggregate : Aggregate} (hq : q.aggregate = some aggregate)
    (h : g.selectSql attached q = .ok sql) :
    ∃ text rest, g.aggregateSql q.distinct aggregate = .ok text ∧ sql = text ++ rest := by
  unfold selectSql at h
  rw [hq] at h
  dsimp only at h
  split at h
  · obtain ⟨head, hhead, h⟩ := Name.bind_eq_ok h
    obtain ⟨inner, _, h⟩ := Name.bind_eq_ok h
    obtain ⟨name, _, h⟩ := Name.bind_eq_ok h
    exact ⟨head, " from (" ++ inner ++ ") as " ++ name, hhead, by
      rw [← Except.ok.inj h]; simp only [String.append_assoc]⟩
  · rename_i hunion
    obtain ⟨fragments, rest, hfragments, rfl⟩ := plainSelectSql_front h
    obtain ⟨text, _, _, _, _, _, _, _, _, _, _, _, rfl, htext, _⟩ := components_ok hfragments
    rw [hq] at htext
    obtain ⟨list, _, hcloses, rfl⟩ := aggregateSql_selection hq htext
    obtain ⟨more, hmore⟩ := spaced_front (opens_select list).solid.ne_empty _
    refine ⟨_, Text.trimRight more ++ rest, htext, ?_⟩
    rw [hmore, trim_front (opens_select list) (hcloses.after _), if_neg fun h => hunion h.2,
      String.empty_append, String.append_assoc]

/-- Without an aggregate the statement begins with the first component that there is, behind the
parenthesis of a union in MySQL. -/
theorem Grammar.selectSql_first (hq : q.aggregate = none) (h : g.selectSql attached q = .ok sql) :
    ∃ columns source others rest, g.selectList q = .ok columns ∧ g.sourceSql q.source = .ok source ∧
      sql = (if g.dialect = .mysql ∧ q.isUnion then "(" else "") ++
        Text.trim (spaced (columns :: source :: others)) ++ rest := by
  unfold selectSql at h
  rw [hq] at h
  obtain ⟨fragments, rest, hfragments, rfl⟩ := plainSelectSql_front h
  obtain ⟨text, _, _, _, _, _, _, _, _, _, _, _, rfl, htext, hcolumns, hsource, _⟩ :=
    components_ok hfragments
  rw [hq] at htext
  obtain rfl := Except.ok.inj htext
  exact ⟨_, _, _, rest, hcolumns, hsource, by rw [spaced_empty]⟩

theorem opens_selectWord (distinct : Bool) (rest : String) :
    Opens ((if distinct then "select distinct " else "select ") ++ rest) := by
  refine Opens.append ?_ rest
  cases distinct
  · exact ⟨'s', "elect ".toList, rfl, by decide⟩
  · exact ⟨'s', "elect distinct ".toList, rfl, by decide⟩

/-- A select list in which something can be seen is what the statement begins with. -/
theorem Grammar.selectSql_columns (hq : q.aggregate = none) (h : g.selectSql attached q = .ok sql) :
    ∃ list, g.selection q = .ok list ∧
      (Visible list → ∃ rest, sql = g.opening q ++ Text.trimRight list ++ rest) := by
  obtain ⟨columns, source, others, rest, hcolumns, _, rfl⟩ := selectSql_first hq h
  have hselection : g.selection q = g.columnize (q.columns.getD [.text "*"]) := by
    rw [selection, hq]
  have hopening : g.opening q = (if g.dialect = .mysql ∧ q.isUnion then "(" else "") ++
      if q.distinct then "select distinct " else "select " := by
    rw [opening, hq]
  rw [hselection, hopening]
  unfold selectList ifAny at hcolumns
  rw [hq] at hcolumns
  dsimp only at hcolumns
  split at hcolumns
  · rename_i hempty
    refine ⟨"", by rw [List.isEmpty_iff.1 hempty]; rfl, fun ⟨_, hc, _⟩ => nomatch hc⟩
  · obtain ⟨list, hlist, hcolumns⟩ := Name.bind_eq_ok hcolumns
    obtain rfl := Except.ok.inj hcolumns
    refine ⟨list, hlist, fun hvisible => ?_⟩
    obtain ⟨blanks, hblanks, hcloses⟩ := hvisible.trimRight
    obtain ⟨more, hmore⟩ :=
      spaced_front (opens_selectWord q.distinct list).solid.ne_empty (source :: others)
    refine ⟨Text.trimRight (blanks ++ more) ++ rest, ?_⟩
    have hfront : (if q.distinct then "select distinct " else "select ") ++ list ++ more =
        (if q.distinct then "select distinct " else "select ") ++ Text.trimRight list ++
          (blanks ++ more) := by
      conv_lhs => rw [hblanks]
      simp only [String.append_assoc]
    rw [hmore, hfront, trim_front (opens_selectWord q.distinct _) (hcloses.after _)]
    simp only [String.append_assoc]

/-- The statement of a query with a select list that is set and empty begins with the source. -/
theorem Grammar.selectSql_source (hq : q.aggregate = none) (hempty : q.columns = some [])
    (hsource : q.source.isPresent) (h : g.selectSql attached q = .ok sql) :
    ∃ rest, sql = (if g.dialect = .mysql ∧ q.isUnion then "(" else "") ++ "from" ++ rest := by
  have hopens : Opens "from" := ⟨'f', "rom".toList, rfl, by decide⟩
  have hcloses : Closes "from" := ⟨"fro".toList, 'm', rfl, by decide⟩
  obtain ⟨columns, source, others, rest, hcolumns, hfrom, rfl⟩ := selectSql_first hq h
  obtain rfl : columns = "" := by
    unfold selectList ifAny at hcolumns
    rw [hempty] at hcolumns
    exact (Except.ok.inj hcolumns).symm
  obtain ⟨table, rfl⟩ : ∃ table, source = "from" ++ table := by
    unfold sourceSql at hfrom
    rw [if_pos hsource] at hfrom
    obtain ⟨v, _, hfrom⟩ := Name.bind_eq_ok hfrom
    obtain ⟨text, _, hfrom⟩ := Name.bind_eq_ok hfrom
    refine ⟨" " ++ text, ?_⟩
    rw [← Except.ok.inj hfrom, ← String.append_assoc]
    rfl
  obtain ⟨more, hmore⟩ := spaced_front (hopens.append table).solid.ne_empty others
  refine ⟨Text.trimRight (table ++ more) ++ rest, ?_⟩
  have hfront : "from" ++ table ++ more = "from" ++ (table ++ more) := String.append_assoc
  rw [spaced_empty, hmore, hfront, trim_front hopens hcloses]
  simp only [String.append_assoc]

theorem Grammar.selection_visible (h : g.selection q = .ok list) :
    Visible list ↔ ¬q.SelectsNothing := by
  unfold selection at h
  unfold Query.SelectsNothing
  cases hq : q.aggregate with
  | some aggregate =>
    rw [hq] at h
    obtain ⟨columns, _, h⟩ := Name.bind_eq_ok h
    obtain rfl := Except.ok.inj h
    have hcloses : Closes ") as aggregate" := ⟨") as aggregat".toList, 'e', rfl, by decide⟩
    exact iff_of_true (hcloses.after _).visible fun h => nomatch h.1
  | none =>
    rw [hq] at h
    rw [columnize_visible h]
    cases q.columns with
    | none => simp [Value.IsBlank]
    | some columns =>
      simp only [Option.getD_some, Option.some.injEq, true_and, not_or, not_exists, not_and, ne_eq]

/-- A statement begins with the select list exactly if the query selects something. -/
theorem Grammar.selects_iff (h : g.selectSql attached q = .ok sql) :
    g.Selects q sql ↔ ¬q.SelectsNothing := by
  obtain ⟨list, hlist, hbegins⟩ : ∃ list, g.selection q = .ok list ∧
      (Visible list → ∃ rest, sql = g.opening q ++ Text.trimRight list ++ rest) := by
    cases hq : q.aggregate with
    | none => exact selectSql_columns hq h
    | some aggregate =>
      obtain ⟨text, rest, htext, rfl⟩ := selectSql_aggregated hq h
      obtain ⟨list, hlist, hcloses, rfl⟩ := aggregateSql_selection hq htext
      refine ⟨list, hlist, fun _ => ⟨rest, ?_⟩⟩
      rw [hcloses.trimRight, opening, hq]
  rw [← selection_visible hlist]
  constructor
  · rintro ⟨other, _, hother, hvisible, _⟩
    obtain rfl := Except.ok.inj (hother.symm.trans hlist)
    exact hvisible
  · intro hvisible
    obtain ⟨rest, hrest⟩ := hbegins hvisible
    exact ⟨list, rest, hlist, hvisible, hrest⟩

end

/-! ## How a select list is filled -/

/-- The columns that an entry of a select list stands for: a map selects each value under its key. -/
def Value.selectedAs : Value → List Value
  | .map entries => entries.map fun entry => .text (entry.2.display ++ " as " ++ entry.1.display)
  | v => [v]

section

variable {run : Runner} {t : QueryId} {s s' : Store} {columns : List Value}

/-- Steps that add columns one after the other add all of them. -/
theorem ran_addColumns_forM {α : Type} {xs : List α} {f : α → Action Unit} {added : α → List Value}
    (hstep : ∀ x ∈ xs, ∀ first s s', Ran (t.addColumns first >>= fun _ => f x) s () s' ↔
      s' = s.edit t (·.addColumns (first ++ added x))) (first : List Value) :
    Ran (t.addColumns first >>= fun _ => xs.forM f) s () s' ↔
      s' = s.edit t (·.addColumns (first ++ xs.flatMap added)) := by
  induction xs generalizing first with
  | nil =>
    rw [List.flatMap_nil, List.append_nil]
    show Ran (t.addColumns first >>= fun _ => pure ()) s () s' ↔ _
    rw [bind_pure_unit]
    exact ran_modify
  | cons x xs ih =>
    have hrest := ih (fun y hy => hstep y (List.mem_cons_of_mem x hy)) (first ++ added x)
    rw [List.flatMap_cons, ← List.append_assoc, ← hrest]
    show Ran (t.addColumns first >>= fun _ => f x >>= fun _ => xs.forM f) s () s' ↔ _
    rw [← bind_assoc, ran_bind]
    simp only [hstep x List.mem_cons_self]
    unfold QueryId.addColumns
    simp only [ran_bind, ran_modify, exists_const, exists_eq_left]

theorem Query.addColumns_addColumns (q : Query) (first second : List Value) :
    (q.addColumns first).addColumns second = q.addColumns (first ++ second) := by
  simp only [Query.addColumns, Option.getD_some, List.append_assoc]

theorem QueryId.ran_addColumns_twice (first second : List Value) :
    Ran (t.addColumns first >>= fun _ => t.addColumns second) s () s' ↔
      s' = s.edit t (·.addColumns (first ++ second)) := by
  unfold QueryId.addColumns
  simp only [ran_bind, ran_modify, exists_const, exists_eq_left, Store.edit_edit,
    Query.addColumns_addColumns]

theorem QueryId.ran_selectAs (run : Runner) {name value : Value} (hname : name.handles = [])
    (hvalue : value.handles = []) (first : List Value) (s s' : Store) :
    Ran (t.addColumns first >>= fun _ => t.selectAs run name value) s () s' ↔
      s' = s.edit t (·.addColumns (first ++ [.text (value.display ++ " as " ++ name.display)])) := by
  have hran : ∀ s1, Ran (t.selectAs run name value) s1 () s' ↔
      Ran (t.addColumns [.text (value.display ++ " as " ++ name.display)]) s1 () s' := by
    intro s1
    unfold selectAs
    rw [Value.isQueryable_data hvalue, if_neg Bool.false_ne_true]
    simp only [ran_bind, ran_displayNow hvalue, ran_displayNow hname, and_assoc, exists_and_left,
      exists_eq_left]
  rw [← ran_addColumns_twice, ran_bind, ran_bind]
  simp only [hran]

theorem QueryId.ran_selectEntry {v : Value} (h : v.handles = []) (first : List Value)
    (s s' : Store) :
    Ran (t.addColumns first >>= fun _ => t.selectEntry run v) s () s' ↔
      s' = s.edit t (·.addColumns (first ++ v.selectedAs)) := by
  have hplain : (∀ entries, v ≠ .map entries) → t.selectEntry run v = t.addColumns v.selectedAs := by
    intro hmap
    unfold selectEntry
    cases v with
    | map entries => exact absurd rfl (hmap entries)
    | object handle => exact nomatch h
    | _ => rfl
  cases v with
  | map entries =>
    have hentries := Value.handlesOfEntries_eq_nil.1 h
    rw [Value.selectedAs, List.map_eq_flatMap]
    exact ran_addColumns_forM (fun entry hentry => QueryId.ran_selectAs run (hentries entry hentry).1
      (hentries entry hentry).2) first
  | _ =>
    rw [hplain fun _ heq => nomatch heq]
    exact ran_addColumns_twice first _

/-- Entries that are data fill a select list with the columns that they stand for. -/
theorem QueryId.ran_addSelect (h : ∀ v ∈ flatten columns, v.handles = []) :
    Ran (t.addSelect run columns) s () s' ↔
      s' = s.edit t (·.addColumns ((flatten columns).flatMap Value.selectedAs)) :=
  ran_addColumns_forM (fun v hv => QueryId.ran_selectEntry (h v hv)) []

/-- The entries that are added to a new select list: without any, the one for all columns. -/
def selectedEntries (columns : List Value) : List Value :=
  if (flatten columns).isEmpty then [.text "*"] else flatten (flatten columns)

theorem QueryId.ran_select_data (h : ∀ v ∈ flatten (flatten columns), v.handles = []) :
    Ran (t.select run columns) s () s' ↔
      s' = s.edit t fun q => ({ q.rebind .select [] with columns := some [] } : Query).addColumns
        ((selectedEntries columns).flatMap Value.selectedAs) := by
  have hentries : flatten (if (flatten columns).isEmpty then [.text "*"] else flatten columns) =
      selectedEntries columns := by
    unfold selectedEntries
    split <;> rfl
  have hdata : ∀ v ∈ flatten (if (flatten columns).isEmpty then [.text "*"] else flatten columns),
      v.handles = [] := by
    rw [hentries]
    unfold selectedEntries
    split
    · exact List.forall_mem_singleton.2 rfl
    · exact h
  unfold select
  simp only [ran_bind, ran_modify, exists_const, exists_eq_left, ran_addSelect hdata,
    Store.edit_edit, hentries]

theorem Value.selectedAs_eq_nil {v : Value} : v.selectedAs = [] ↔ v = .map [] := by
  cases v with
  | map entries => simp [selectedAs]
  | _ => exact iff_of_false (List.cons_ne_nil _ _) nofun

/-- Adding entries leaves a select list empty if there was none and all entries are empty maps. -/
theorem QueryId.addSelect_empty_iff (hlt : t.index < s.queries.size)
    (h : ∀ v ∈ flatten columns, v.handles = []) (hran : Ran (t.addSelect run columns) s () s') :
    (s'.query t).columns = some [] ↔
      (s.query t).columns.getD [] = [] ∧ ∀ v ∈ flatten columns, v = .map [] := by
  obtain rfl := (ran_addSelect h).1 hran
  rw [Store.query_edit_self hlt]
  simp only [Query.addColumns, Option.some.injEq, List.append_eq_nil_iff, List.flatMap_eq_nil_iff,
    Value.selectedAs_eq_nil]

/-- A new select list is empty if it is made of empty maps, or of a list without entries. -/
theorem QueryId.select_empty_iff (hlt : t.index < s.queries.size)
    (h : ∀ v ∈ flatten (flatten columns), v.handles = [])
    (hran : Ran (t.select run columns) s () s') :
    (s'.query t).columns = some [] ↔
      flatten columns ≠ [] ∧ ∀ v ∈ flatten (flatten columns), v = .map [] := by
  obtain rfl := (ran_select_data h).1 hran
  rw [Store.query_edit_self hlt]
  simp only [Query.addColumns, Option.getD_some, List.nil_append, Option.some.injEq,
    List.flatMap_eq_nil_iff, Value.selectedAs_eq_nil]
  unfold selectedEntries
  split
  · rename_i hempty
    exact iff_of_false (fun h => by cases h _ List.mem_cons_self)
      fun h => h.1 (List.isEmpty_iff.1 hempty)
  · rename_i hsome
    exact (and_iff_right fun hnil => hsome (List.isEmpty_iff.2 hnil)).symm

end

/-! ## Queries whose values are read -/

/-- When values are read, a map or an object takes the place of an object. -/
theorem Store.shown_handle (s : Store) (x : Handle) :
    (∃ entries, s.shown (.object x) = .map entries) ∨ ∃ y, s.shown (.object x) = .object y := by
  cases x with
  | bindings id => exact .inl ⟨_, rfl⟩
  | _ => exact .inr ⟨_, rfl⟩

section

variable (s : Store) (v : Value)

theorem Value.isPresent_shown : (s.shown v).isPresent = v.isPresent := by
  cases v with
  | list items => cases items <;> rfl
  | object x => rcases s.shown_handle x with ⟨_, h⟩ | ⟨_, h⟩ <;> rw [h] <;> rfl
  | _ => rfl

theorem Value.isBlank_shown : (s.shown v).IsBlank ↔ v.IsBlank := by
  cases v with
  | raw v =>
    cases v with
    | object x =>
      rw [s.shown_raw]
      rcases s.shown_handle x with ⟨_, h⟩ | ⟨_, h⟩ <;> rw [h] <;> rfl
    | _ => rfl
  | object x => rcases s.shown_handle x with ⟨_, h⟩ | ⟨_, h⟩ <;> rw [h] <;> rfl
  | _ => rfl

theorem Renaming.value_shown :
    Renaming.value { bindings := fun id => s.shown (.object (.bindings id)) } v = s.shown v :=
  Value.substitute_congr v fun x _ => by cases x <;> rfl

end

/-- Reading its values makes no difference to whether a query selects something. -/
theorem Store.selectsNothing_settled (s : Store) (q : QueryId) :
    (s.settled.query q).SelectsNothing ↔ (s.query q).SelectsNothing := by
  have haggregate : (s.settled.query q).aggregate = none ↔ (s.query q).aggregate = none := by
    rw [query_settled]
    exact Option.map_eq_none_iff
  have hcolumns : (s.settled.query q).columns = (s.query q).columns.map (·.map s.shown) := by
    rw [query_settled]
    refine Option.map_congr fun columns _ => List.map_congr_left fun v _ => ?_
    exact Renaming.value_shown s v
  unfold Query.SelectsNothing
  rw [haggregate, hcolumns]
  refine and_congr_right fun _ => ?_
  match (s.query q).columns with
  | none => simp
  | some [] => simp
  | some [v] => simp [Value.isBlank_shown]
  | some (_ :: _ :: _) => simp

theorem Store.isPresent_settled (s : Store) (q : QueryId) :
    (s.settled.query q).source.isPresent = (s.query q).source.isPresent := by
  rw [query_settled]
  show (Renaming.value _ (s.query q).source).isPresent = _
  rw [Renaming.value_shown, Value.isPresent_shown]

/-! ## The result -/

/-- The statement of a query begins with its select list, or the aggregate in its place, exactly if
it selects something.  A query whose select list is set and empty begins with the source instead.
To add entries leaves an empty list if there was none and the entries are empty maps, and so does a
new list of empty maps. -/
theorem QueryId.toSql_selects_iff (run : Runner) (q : QueryId) :
    (∀ s sql s', Ran (q.toSql run) s sql s' →
      ∃ g, s'.grammarFor (s'.query q).grammar "compile_select" = .ok g ∧
        (g.Selects (s'.settled.query q) sql ↔ ¬(s'.query q).SelectsNothing) ∧
        ((s'.query q).aggregate = none → (s'.query q).columns = some [] →
          (s'.query q).source.isPresent → ∃ before rest, before ∈ ["", "("] ∧
            sql = before ++ "from" ++ rest)) ∧
    (∀ columns s s', q.index < s.queries.size → (∀ v ∈ flatten columns, v.handles = []) →
      Ran (q.addSelect run columns) s () s' →
      ((s'.query q).columns = some [] ↔
        (s.query q).columns.getD [] = [] ∧ ∀ v ∈ flatten columns, v = .map [])) ∧
    ∀ columns s s', q.index < s.queries.size → (∀ v ∈ flatten (flatten columns), v.handles = []) →
      Ran (q.select run columns) s () s' →
      ((s'.query q).columns = some [] ↔
        flatten columns ≠ [] ∧ ∀ v ∈ flatten (flatten columns), v = .map []) := by
  refine ⟨fun s sql s' hran => ?_,
    fun columns s s' hlt hdata hran => addSelect_empty_iff hlt hdata hran,
    fun columns s s' hlt hdata hran => select_empty_iff hlt hdata hran⟩
  obtain ⟨known, hcompiled⟩ := ran_consultFrom hran
  obtain ⟨g, hg, hselect⟩ := Name.bind_eq_ok hcompiled
  rw [Store.grammarFor_settled] at hg
  refine ⟨g, hg, ?_, fun hnone hempty hsource => ?_⟩
  · rw [Grammar.selects_iff hselect, s'.selectsNothing_settled]
  · have hnone' : (s'.settled.query q).aggregate = none := by
      rw [Store.query_settled]
      exact Option.map_eq_none_iff.2 hnone
    have hempty' : (s'.settled.query q).columns = some [] := by
      rw [Store.query_settled]
      show (s'.query q).columns.map _ = some []
      rw [hempty]
      rfl
    obtain ⟨rest, rfl⟩ := Grammar.selectSql_source hnone' hempty'
      ((s'.isPresent_settled q).trans hsource) hselect
    refine ⟨_, rest, ?_, rfl⟩
    split <;> simp

/-- A table is selected by one of its columns, which is added to a list that was not set. -/
theorem QueryId.toSql_selects_iff_id :
    let s := Store.ofTable "t"
    ∃ s', Ran (QueryId.addSelect Runner.idle ⟨0⟩ [.text "id"]) s () s' ∧
      (s'.query ⟨0⟩).columns ≠ some [] ∧
      ∃ g : Grammar, g.Selects (s'.settled.query ⟨0⟩) "select \"id\" from \"t\"" := by
  intro s
  have hdata : ∀ v ∈ flatten [Value.text "id"], v.handles = [] := List.forall_mem_singleton.2 rfl
  obtain ⟨htexts, hadded, _⟩ := toSql_selects_iff Runner.idle ⟨0⟩
  have hadd : Ran (QueryId.addSelect Runner.idle ⟨0⟩ [.text "id"]) s ()
      (s.edit ⟨0⟩ (·.addColumns [.text "id"])) := (ran_addSelect hdata).2 rfl
  refine ⟨_, hadd, fun hempty => ?_, ?_⟩
  · exact nomatch ((hadded _ _ _ (by decide) hdata hadd).1 hempty).2 _ List.mem_cons_self
  · have hsql : ((s.edit ⟨0⟩ (·.addColumns [.text "id"])).settled.compiled [] ⟨0⟩ "compile_select"
        Grammar.selectSql).toOption = some "select \"id\" from \"t\"" := by decide +kernel
    cases hcompiled : (s.edit ⟨0⟩ (·.addColumns [.text "id"])).settled.compiled [] ⟨0⟩
        "compile_select" Grammar.selectSql with
    | error e => rw [hcompiled] at hsql; exact nomatch hsql
    | ok sql =>
      rw [hcompiled] at hsql
      have hran := QueryId.toSql_runOn Runner.idle ⟨0⟩ (hcompiled ▸ asksNothing_ok sql)
      rw [hcompiled] at hran
      obtain ⟨g, _, hselects, _⟩ := htexts _ _ _ hran
      rw [← Option.some.inj hsql]
      exact ⟨g, hselects.2 fun h => h.2.elim (fun h => nomatch h) fun ⟨v, hv, hblank⟩ => by
        cases (List.cons.inj (Option.some.inj hv)).1
        exact hblank⟩

/-- To add no columns to a list that was not set leaves a statement that selects nothing, and so does
a new list with an empty map in it. -/
theorem QueryId.toSql_not_selects :
    let s := Store.ofTable "t"
    let text : Action Unit → Option String := fun build =>
      ((build >>= fun _ => QueryId.toSql Runner.idle ⟨0⟩).runOn s).1.toOption
    text (QueryId.addSelect Runner.idle ⟨0⟩ []) = some "from \"t\"" ∧
      text (QueryId.select Runner.idle ⟨0⟩ [.map []]) = some "from \"t\"" ∧
      text (QueryId.select Runner.idle ⟨0⟩ []) = some "select * from \"t\"" ∧
      ¬"select ".toList <+: "from \"t\"".toList := by
  decide +kernel

end FluentSql
