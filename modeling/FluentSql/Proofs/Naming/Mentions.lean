import FluentSql.Proofs.Naming.Sources

/-!
# Mentions of a source

A statement mentions the source of its query behind `from`, before the columns
that are asked for under its name, and before the columns that the compiler adds
on its own: the id of a row that is deleted, and the address of the rows of an
update or a delete.

* `StandsIn.of_front` cuts off what stands behind a mention.
* `Grammar.selectSql_from`, `Grammar.addressCondition_named`,
  `Grammar.wheresSql_last` and `Change.sql_starts` are the mentions in a
  statement.
* `Store.Mentions` says that all of them are one name.
* `QueryId.source_mentions` is the result.
-/

namespace FluentSql

section

variable {a b rest sql condition : String}

/-- What stands in a statement up to its end does so up to any character that is no blank. -/
theorem StandsIn.of_front (hcloses : Closes b) (h : StandsIn (a ++ b ++ rest) sql) :
    StandsIn b sql := by
  have htrim : Text.trimRight b = b := by
    have hright := hcloses.trimRight_append ""
    rwa [show Text.trimRight "" = "" from rfl, String.append_empty] at hright
  unfold StandsIn at h ⊢
  rw [(hcloses.after a).trimRight_append, String.toList_append, String.toList_append] at h
  rw [htrim]
  exact .trans ⟨a.toList, (Text.trimRight rest).toList, rfl⟩ h

/-- Trimming leaves the front of a text if it neither starts nor ends with a blank. -/
theorem trim_front (hopens : Opens a) (hcloses : Closes a) (rest : String) :
    Text.trim (a ++ rest) = a ++ Text.trimRight rest := by
  rw [trim_eq, (hopens.append rest).trimLeft, hcloses.trimRight_append]

/-- The joining word at the start is all that is dropped. -/
theorem dropConjunction_concat (fragments : List String) (word text : String) :
    ∃ front, dropConjunction (joinWith " " (fragments ++ [word ++ " " ++ text])) =
      front ++ text := by
  have hjoined : ∃ before, joinWith " " (fragments ++ [word ++ " " ++ text]) =
      before ++ " " ++ text := by
    by_cases hnone : fragments = []
    · rw [hnone]
      exact ⟨word, rfl⟩
    · rw [joinWith_append " " hnone (List.cons_ne_nil _ _)]
      exact ⟨joinWith " " fragments ++ " " ++ word, by simp only [joinWith, String.append_assoc]⟩
  obtain ⟨before, hbefore⟩ := hjoined
  rw [hbefore, dropConjunction_append]
  exact ⟨_, rfl⟩

end

/-! ## Mentions in a statement -/

/-- The words before the table of the statement. -/
def Change.opening : Change → String
  | update _ => "update "
  | delete => "delete from "

/-- A select statement finds rows of a source by their address. -/
structure Grammar.SelectsRows (g : Grammar) (p : String) (n : NamedTable) (q : Query)
    (address select : String) : Prop where
  /-- The source stands behind `from`. -/
  source : StandsIn ("from " ++ g.sourceTable p n) select
  /-- The address is asked for under the name of the source, unless an aggregate takes its place. -/
  column : q.aggregate = none ∨ q.isUnion = true →
    StandsIn ((if q.distinct then "select distinct " else "select ") ++
      (g.sourceName p n ++ "." ++ g.quoted address)) select

section

variable {g : Grammar} {p : String} {n : NamedTable} {attached : Attached} {q : Query}
variable {sql address : String}

theorem Grammar.wrapped_plain (hp : g.tablePrefix = .text p) (h : PlainText address) :
    g.wrapped (.text address) = .ok (g.quoted address) := by
  have hsingle : Name.wrap g.dialect (some p.toList) false address.toList =
      .ok (Name.quoteName g.dialect address.toList) := Name.wrapFrom_single h.unmarked h.no_point
  have htext : (.text address : Value) = quotedText address.toList :=
    congrArg Value.text String.ofList_toList.symm
  rw [wrapped, htext, wrap_text hp, hsingle]
  rfl

/-- The address of rows has a plain name. -/
theorem PlainText.of_addressColumn (h : g.addressColumn? q = some address) : PlainText address := by
  unfold Grammar.addressColumn? at h
  split at h
  · cases hd : g.dialect with
    | ansi | mysql =>
      rw [hd] at h
      exact nomatch h
    | postgres =>
      rw [hd] at h
      obtain rfl := Option.some.inj h
      decide
    | sqlite =>
      rw [hd] at h
      obtain rfl := Option.some.inj h
      decide
  · exact nomatch h

variable (hp : g.tablePrefix = .text p) (hplain : PlainText p) (hn : n.IsPlain)
variable (hsource : q.source = .text n.reference)

include hp hplain hn

theorem Grammar.sourceSql_named :
    g.sourceSql (.text n.reference) = .ok ("from " ++ g.sourceTable p n) := by
  have htable := wrapTable_named hp hplain hn
  unfold sourceSql
  rw [if_pos (show (Value.text n.reference).isPresent = true from rfl), htable]
  rfl

include hsource

/-- The source stands behind `from`. -/
theorem Grammar.selectSql_from (h : g.selectSql attached q = .ok sql) :
    StandsIn ("from " ++ g.sourceTable p n) sql := by
  obtain ⟨before, inner, after, hinner, rfl⟩ := selectSql_listed h
  have hopens : Opens "from " := ⟨'f', "rom ".toList, rfl, by decide⟩
  refine ((plainSelectSql_component hinner (hopens.append _) ?_).after before).append after
  intro fragments hfragments
  have hsame : q.listed.source = .text n.reference := by
    rw [Query.listed]
    split <;> exact hsource
  obtain ⟨_, _, source, _, _, _, _, _, _, _, _, _, rfl, _, _, hfrom, _⟩ := components_ok hfragments
  rw [hsame, sourceSql_named hp hplain hn] at hfrom
  obtain rfl := Except.ok.inj hfrom
  simp

/-- The column with the address of a row stands in the select list, under the name of the source. -/
theorem Grammar.selectSql_addressed (haddress : PlainText address)
    (hlist : q.aggregate = none ∨ q.isUnion = true)
    (h : g.selectSql attached (q.addressed address) = .ok sql) :
    StandsIn ((if q.distinct then "select distinct " else "select ") ++
      (g.sourceName p n ++ "." ++ g.quoted address)) sql := by
  obtain ⟨before, inner, after, hinner, rfl⟩ := selectSql_listed h
  have hopens : ∀ rest, Opens ((if q.distinct then "select distinct " else "select ") ++ rest) := by
    intro rest
    refine Opens.append ?_ rest
    cases q.distinct
    · exact ⟨'s', "elect ".toList, rfl, by decide⟩
    · exact ⟨'s', "elect distinct ".toList, rfl, by decide⟩
  refine ((plainSelectSql_component hinner (hopens _) ?_).after before).append after
  intro fragments hfragments
  obtain ⟨_, columns, _, _, _, _, _, _, _, _, _, _, rfl, _, hcolumns, _⟩ := components_ok hfragments
  have hname : q.source.display = n.reference := by
    rw [hsource]
    rfl
  have hnone : (q.addressed address).listed.aggregate = none := by
    unfold Query.listed
    split
    · rfl
    · rename_i hunion
      exact hlist.resolve_right hunion
  have hlisted : (q.addressed address).listed.columns =
      some [.text (n.address ++ "." ++ address)] := by
    have hcolumn : (q.addressed address).columns = some [.text (n.address ++ "." ++ address)] := by
      rw [Query.addressed, hname, NamedTable.lastAlias_reference hn]
    unfold Query.listed
    split <;> exact hcolumn
  have hdistinct : (q.addressed address).listed.distinct = q.distinct := by
    unfold Query.listed
    split <;> rfl
  have hcolumnize : g.columnize [.text (n.address ++ "." ++ address)] =
      .ok (g.sourceName p n ++ "." ++ g.quoted address) := by
    unfold columnize
    rw [List.mapM_cons, List.mapM_nil, wrap_addressed hp hplain hn haddress]
    rfl
  unfold selectList ifAny columnsSql at hcolumns
  rw [hnone, hlisted, hdistinct, Option.getD_some] at hcolumns
  dsimp only at hcolumns
  rw [hcolumnize] at hcolumns
  obtain rfl := Except.ok.inj hcolumns
  simp

/-- The rows with an address are selected from the source, by the column under its name. -/
theorem Grammar.addressCondition_named (haddress : PlainText address)
    (h : g.addressCondition attached q address = .ok sql) :
    ∃ select, sql = "where " ++ g.quoted address ++ " in (" ++ select ++ ")" ∧
      g.SelectsRows p n q address select := by
  unfold addressCondition at h
  dsimp only at h
  split at h
  · exact nomatch h
  · rw [wrapped_plain hp haddress] at h
    obtain ⟨select, hselect, h⟩ := Name.bind_eq_ok h
    obtain rfl := Except.ok.inj h
    have hselected : g.selectSql attached (q.addressed address) = .ok select := hselect
    exact ⟨select, rfl, selectSql_from hp hplain hn (q := q.addressed address) hsource hselected,
      fun hlist => selectSql_addressed hp hplain hn hsource haddress hlist hselected⟩

theorem Grammar.wrappedTable_named : g.wrappedTable q.source = .ok (g.sourceTable p n) := by
  rw [wrappedTable, hsource, wrapTable_named hp hplain hn]
  rfl

/-- Where rows have an address, an update and a delete find their rows by it. -/
theorem Change.sql_addressed {change : Change} (haddress : g.addressColumn? q = some address)
    (h : change.sql g attached q = .ok sql) :
    ∃ before select, sql = before ++ "where " ++ g.quoted address ++ " in (" ++ select ++ ")" ∧
      g.SelectsRows p n q address select := by
  have hafter : ∀ before condition, g.addressCondition attached q address = .ok condition →
      sql = before ++ condition → ∃ before select,
        sql = before ++ "where " ++ g.quoted address ++ " in (" ++ select ++ ")" ∧
          g.SelectsRows p n q address select := by
    rintro before condition hcondition rfl
    obtain ⟨select, rfl, hselect⟩ := Grammar.addressCondition_named hp hplain hn hsource
      (PlainText.of_addressColumn haddress) hcondition
    exact ⟨before, select, by simp only [String.append_assoc], hselect⟩
  cases change with
  | update values =>
    obtain ⟨table, _, h⟩ := Name.bind_eq_ok h
    obtain ⟨assignments, _, h⟩ := Name.bind_eq_ok h
    rw [haddress] at h
    obtain ⟨condition, hcondition, h⟩ := Name.bind_eq_ok h
    obtain rfl := Except.ok.inj h
    exact hafter _ condition hcondition rfl
  | delete =>
    obtain ⟨table, _, h⟩ := Name.bind_eq_ok h
    dsimp only at h
    rw [haddress] at h
    obtain ⟨condition, hcondition, h⟩ := Name.bind_eq_ok h
    obtain rfl := Except.ok.inj h
    exact hafter _ condition hcondition rfl

omit hp hplain hn hsource in
theorem Grammar.changeTail_front {front rest : String} (hcloses : Closes front)
    (h : g.changeTail q (front ++ rest) = .ok sql) : ∃ after, sql = front ++ after := by
  unfold changeTail at h
  split at h
  · obtain ⟨orders, _, h⟩ := Name.bind_eq_ok h
    obtain ⟨limit, _, h⟩ := Name.bind_eq_ok h
    obtain rfl := Except.ok.inj h
    rw [hcloses.trimRight_append]
    exact ⟨Text.trimRight rest ++ orders ++ limit, by simp only [String.append_assoc]⟩
  · obtain rfl := Except.ok.inj h
    exact ⟨rest, rfl⟩

omit hp hplain hn hsource in
theorem Change.opens_opening (change : Change) (text : String) :
    Opens (change.opening ++ text) := by
  cases change with
  | update values => exact Opens.append (a := "update ") ⟨'u', "pdate ".toList, rfl, by decide⟩ text
  | delete =>
    exact Opens.append (a := "delete from ") ⟨'d', "elete from ".toList, rfl, by decide⟩ text

/-- An update and a delete start with the source, unless the delete is one of several tables. -/
theorem Change.sql_starts {change : Change}
    (halone : change = .delete → q.joins = [] ∨ g.addressColumn? q ≠ none)
    (h : change.sql g attached q = .ok sql) :
    ∃ after, sql = change.opening ++ g.sourceTable p n ++ after := by
  have hnamed := Grammar.wrappedTable_named hp hplain hn hsource
  have hcloses := (g.closes_sourceTable p n).after change.opening
  have htrim : ∀ text, ∃ after, Text.trim (change.opening ++ g.sourceTable p n ++ text) =
      change.opening ++ g.sourceTable p n ++ after := fun text =>
    ⟨_, trim_front (change.opens_opening _) hcloses text⟩
  have htail : ∀ rest text,
      g.changeTail q (change.opening ++ g.sourceTable p n ++ rest) = .ok text →
        ∃ after, Text.trim text = change.opening ++ g.sourceTable p n ++ after := by
    intro rest text htext
    obtain ⟨after, rfl⟩ := Grammar.changeTail_front hcloses htext
    exact htrim after
  cases change with
  | update values =>
    obtain ⟨table, htable, h⟩ := Name.bind_eq_ok h
    obtain rfl := Except.ok.inj (hnamed.symm.trans htable)
    obtain ⟨assignments, _, h⟩ := Name.bind_eq_ok h
    dsimp only at h
    split at h
    · obtain ⟨condition, _, h⟩ := Name.bind_eq_ok h
      obtain rfl := Except.ok.inj h
      exact ⟨" set " ++ assignments ++ " " ++ condition, by
        simp only [opening, String.append_assoc]⟩
    · obtain ⟨condition, _, h⟩ := Name.bind_eq_ok h
      split at h
      · obtain ⟨text, htext, h⟩ := Name.bind_eq_ok h
        obtain rfl := Except.ok.inj h
        refine htail (" set " ++ assignments ++ " " ++ condition) text ?_
        simpa only [opening, String.append_assoc] using htext
      · obtain ⟨joins, _, h⟩ := Name.bind_eq_ok h
        obtain rfl := Except.ok.inj h
        have hjoined := htrim (" " ++ joins ++ " set " ++ assignments ++ " " ++ condition)
        simpa only [opening, String.append_assoc] using hjoined
  | delete =>
    obtain ⟨table, htable, h⟩ := Name.bind_eq_ok h
    rw [hsource, Grammar.wrapTable_named hp hplain hn] at htable
    obtain rfl := Except.ok.inj htable
    dsimp only at h
    split at h
    · obtain ⟨condition, _, h⟩ := Name.bind_eq_ok h
      obtain rfl := Except.ok.inj h
      exact ⟨" " ++ condition, by simp only [opening, Value.display, String.append_assoc]⟩
    · rename_i hnone
      have hjoins : q.joins = [] := (halone rfl).resolve_right fun h => h hnone
      obtain ⟨condition, _, h⟩ := Name.bind_eq_ok h
      rw [if_pos (List.isEmpty_iff.2 hjoins)] at h
      obtain ⟨text, htext, h⟩ := Name.bind_eq_ok h
      obtain rfl := Except.ok.inj h
      refine htail (" " ++ condition) text ?_
      simpa only [opening, Value.display, String.append_assoc] using htext

/-- A delete of joined tables starts with the name of the source, whose rows it deletes. -/
theorem Grammar.deleteSql_joined (hnone : g.addressColumn? q = none) (hjoins : q.joins ≠ [])
    (h : g.deleteSql attached q = .ok sql) :
    ∃ after, sql = "delete " ++ g.sourceName p n ++ " from " ++ g.sourceTable p n ++ after := by
  obtain ⟨table, htable, h⟩ := Name.bind_eq_ok h
  rw [hsource, wrapTable_named hp hplain hn] at htable
  obtain rfl := Except.ok.inj htable
  dsimp only at h
  rw [hnone] at h
  obtain ⟨condition, _, h⟩ := Name.bind_eq_ok h
  rw [if_neg fun hempty => hjoins (List.isEmpty_iff.1 hempty),
    quotedAlias_named hplain hn] at h
  obtain ⟨target, htarget, h⟩ := Name.bind_eq_ok h
  obtain rfl := Except.ok.inj htarget
  obtain ⟨joins, _, h⟩ := Name.bind_eq_ok h
  obtain rfl := Except.ok.inj h
  have hopens : Opens "delete " := ⟨'d', "elete ".toList, rfl, by decide⟩
  refine ⟨Text.trimRight (" " ++ joins ++ " " ++ condition), ?_⟩
  rw [← trim_front (((hopens.append _).append _).append _) ((g.closes_sourceTable p n).after _)]
  simp only [Value.display, String.append_assoc]

omit hsource in
/-- The last condition of a query stands in what is written of its conditions. -/
theorem Grammar.wheresSql_last {column : String} (hcolumn : PlainText column) {value : Value}
    {before : List Condition} {condition : String}
    (hwheres : q.wheres =
      before ++ [⟨.text "and", .basic (.text (n.address ++ "." ++ column)) "=" value⟩])
    (h : g.wheresSql attached q = .ok condition) :
    ∃ front, condition = front ++ (g.sourceName p n ++ "." ++ g.quoted column ++ " =") ++
      (" " ++ (parameter value).display) := by
  have hlike : ¬(g.dialect = .postgres ∧
      Value.textIn "like".toList (Text.lower "=").toList) := fun h => absurd h.2 (by decide)
  have hbody : g.whereSql attached (.basic (.text (n.address ++ "." ++ column)) "=" value) =
      .ok (g.sourceName p n ++ "." ++ g.quoted column ++ " " ++ "=" ++ " " ++
        (parameter value).display) := by
    show g.basicSql _ _ _ = _
    rw [basicSql, if_neg hlike, comparisonSql, wrapped, wrap_addressed hp hplain hn hcolumn]
    rfl
  unfold wheresSql at h
  rw [if_neg (by rw [hwheres]; simp)] at h
  obtain ⟨text, htext, h⟩ := Name.bind_eq_ok h
  obtain rfl := Except.ok.inj h
  unfold conditionsSql at htext
  rw [hwheres, List.mapM_append, List.mapM_cons, List.mapM_nil, hbody] at htext
  obtain ⟨fragments, hfragments, htext⟩ := Name.bind_eq_ok htext
  obtain ⟨firsts, _, hfragments⟩ := Name.bind_eq_ok hfragments
  obtain rfl := Except.ok.inj hfragments
  obtain rfl := Except.ok.inj htext
  obtain ⟨front, hfront⟩ := dropConjunction_concat firsts "and"
    (g.sourceName p n ++ "." ++ g.quoted column ++ " " ++ "=" ++ " " ++ (parameter value).display)
  refine ⟨q.keyword ++ " " ++ front, ?_⟩
  have hsame := congrArg (q.keyword ++ " " ++ ·) hfront
  refine hsame.trans ?_
  simp only [String.append_assoc]
  rfl

omit hsource in
/-- The condition on a column under the name of the source stands in the delete. -/
theorem Grammar.deleteSql_last {column : String} (hcolumn : PlainText column) {value : Value}
    {before : List Condition}
    (hwheres : q.wheres =
      before ++ [⟨.text "and", .basic (.text (n.address ++ "." ++ column)) "=" value⟩])
    (h : g.deleteSql attached q = .ok sql) :
    StandsIn (g.sourceName p n ++ "." ++ g.quoted column ++ " =") sql := by
  have hne : q.wheres ≠ [] := by
    rw [hwheres]
    exact List.append_ne_nil_of_right_ne_nil _ (List.cons_ne_nil _ _)
  obtain ⟨condition, hcondition, hstands⟩ := deleteSql_stands h hne
  obtain ⟨front, rfl⟩ := wheresSql_last hp hplain hn hcolumn hwheres hcondition
  have hcloses : Closes " =" := ⟨[' '], '=', rfl, by decide⟩
  exact hstands.of_front (hcloses.after _)

end

/-! ## Mentions of a query of a store -/

/-- An update or a delete of the rows of a query mentions its source by its name. -/
structure Grammar.ChangeMentions (g : Grammar) (p : String) (n : NamedTable) (q : Query)
    (change : Change) (sql : String) : Prop where
  /-- Rows with an address are selected from the source. -/
  rows : ∀ address, g.addressColumn? q = some address → ∃ before select,
    sql = before ++ "where " ++ g.quoted address ++ " in (" ++ select ++ ")" ∧
      g.SelectsRows p n q address select
  /-- The statement starts with the source. -/
  starts : (change = .delete → q.joins = [] ∨ g.addressColumn? q ≠ none) →
    ∃ after, sql = change.opening ++ g.sourceTable p n ++ after
  /-- A delete of joined tables starts with the name of the source. -/
  joined : change = .delete → q.joins ≠ [] → g.addressColumn? q = none →
    ∃ after, sql = "delete " ++ g.sourceName p n ++ " from " ++ g.sourceTable p n ++ after

/-- Every mention of the source of a query, which is compiled by a grammar, is one name. -/
structure Store.Mentions (u : Store) (run : Runner) (id : QueryId) (g : Grammar) (p : String)
    (n : NamedTable) : Prop where
  /-- The source of a select statement. -/
  select : ∀ sql u', Ran (id.toSql run) u sql u' → StandsIn ("from " ++ g.sourceTable p n) sql
  /-- A column under the address of the source. -/
  column : ∀ column, PlainText column → g.wrap (.text (n.address ++ "." ++ column)) =
    .ok (.text (g.sourceName p n ++ "." ++ g.quoted column))
  /-- Updates and deletes. -/
  change : ∀ (change : Change) st u', Ran (change.statement run id) u st u' →
    g.ChangeMentions p n (u.query id) change st.sql
  /-- The delete of the row with an id. -/
  row : ∀ row st u', row.isNull = false → row.isQueryable = false →
    Ran (id.toDeleteSql run row) u st u' →
      StandsIn (g.sourceName p n ++ "." ++ g.quoted "id" ++ " =") st.sql ∧
        g.ChangeMentions p n (u.query id) .delete st.sql

/-- Two queries find their rows in the same way. -/
structure Query.RowsAlike (q q' : Query) : Prop where
  joins : q'.joins = [] ↔ q.joins = []
  limit : q'.limit = q.limit
  distinct : q'.distinct = q.distinct
  aggregate : q'.aggregate = none ↔ q.aggregate = none
  isUnion : q'.isUnion = q.isUnion

section

variable {g : Grammar} {p : String} {n : NamedTable} {q q' : Query} {change : Change} {sql : String}

theorem Query.RowsAlike.trans {q'' : Query} (h : q.RowsAlike q') (h' : q'.RowsAlike q'') :
    q.RowsAlike q'' :=
  ⟨h'.joins.trans h.joins, h'.limit.trans h.limit, h'.distinct.trans h.distinct,
    h'.aggregate.trans h.aggregate, h'.isUnion.trans h.isUnion⟩

theorem Query.rowsAlike_rename (q : Query) (r : Renaming) : q.RowsAlike (q.rename r) where
  joins := List.map_eq_nil_iff
  limit := rfl
  distinct := rfl
  aggregate := Option.map_eq_none_iff
  isUnion := congrArg (! ·) List.isEmpty_map

theorem Query.rowsAlike_restrictedTo (q : Query) (column : String) (row : Value) :
    q.RowsAlike (q.restrictedTo column row) :=
  ⟨.rfl, rfl, rfl, .rfl, rfl⟩

theorem Query.RowsAlike.addressColumn (h : q.RowsAlike q') :
    g.addressColumn? q' = g.addressColumn? q := by
  have hjoins : q'.joins.isEmpty = q.joins.isEmpty := by
    rw [Bool.eq_iff_iff, List.isEmpty_iff, List.isEmpty_iff, h.joins]
  unfold Grammar.addressColumn?
  rw [hjoins, h.limit]

theorem Grammar.ChangeMentions.of_alike (halike : q.RowsAlike q')
    (h : g.ChangeMentions p n q' change sql) : g.ChangeMentions p n q change sql where
  rows address haddress := by
    rw [← halike.addressColumn] at haddress
    obtain ⟨before, select, hsql, hsource, hcolumn⟩ := h.rows address haddress
    refine ⟨before, select, hsql, hsource, fun hlist => ?_⟩
    rw [← halike.aggregate, ← halike.isUnion] at hlist
    rw [← halike.distinct]
    exact hcolumn hlist
  starts halone := by
    rw [← halike.joins, ← halike.addressColumn] at halone
    exact h.starts halone
  joined hdelete hjoins hnone := by
    rw [Ne, ← halike.joins] at hjoins
    rw [← halike.addressColumn] at hnone
    exact h.joined hdelete hjoins hnone

/-- A map of values that is read is given to the same update. -/
theorem Grammar.ChangeMentions.of_shown {s : Store}
    (h : g.ChangeMentions p n q (change.shown s) sql) : g.ChangeMentions p n q change sql := by
  cases change with
  | update values => exact ⟨h.rows, fun _ => h.starts nofun, nofun⟩
  | delete => exact h

theorem Change.sql_mentions (hp : g.tablePrefix = .text p) (hplain : PlainText p) (hn : n.IsPlain)
    (hsource : q.source = .text n.reference) {attached : Attached}
    (h : change.sql g attached q = .ok sql) : g.ChangeMentions p n q change sql where
  rows address haddress := Change.sql_addressed hp hplain hn hsource haddress h
  starts halone := Change.sql_starts hp hplain hn hsource halone h
  joined := by
    rintro rfl hjoins hnone
    exact Grammar.deleteSql_joined hp hplain hn hsource hnone hjoins h

/-- The delete of a copy that is restricted to one id mentions the source of the query by its
name. -/
theorem deleteSql_restricted (hp : g.tablePrefix = .text p) (hplain : PlainText p) (hn : n.IsPlain)
    (hsource : q.source = .text n.reference) {attached : Attached} {r r' : Renaming} {row : Value}
    (h : g.deleteSql attached (((q.rename r).restrictedTo (n.address ++ ".id") row).rename r') =
      .ok sql) :
    StandsIn (g.sourceName p n ++ "." ++ g.quoted "id" ++ " =") sql ∧
      g.ChangeMentions p n q .delete sql := by
  generalize hcopy : ((q.rename r).restrictedTo (n.address ++ ".id") row).rename r' = q' at h
  have hrenamed : q'.source = .text n.reference := by
    rw [← hcopy]
    exact congrArg (fun source => r'.value (r.value source)) hsource
  have halike : q.RowsAlike q' := by
    rw [← hcopy]
    exact ((q.rowsAlike_rename r).trans (Query.rowsAlike_restrictedTo _ _ _)).trans
      (Query.rowsAlike_rename _ r')
  have hwheres : ∃ before value, q'.wheres =
      before ++ [⟨.text "and", .basic (.text (n.address ++ "." ++ "id")) "=" value⟩] := by
    rw [← hcopy, String.append_assoc]
    exact ⟨_, _, List.map_append⟩
  obtain ⟨before, value, hwheres⟩ := hwheres
  have hmentions : g.ChangeMentions p n q' .delete sql :=
    Change.sql_mentions hp hplain hn hrenamed h
  exact ⟨Grammar.deleteSql_last hp hplain hn (by decide) hwheres h, .of_alike halike hmentions⟩

end

section

variable {u u' : Store} {run : Runner} {id : QueryId} {gid : GrammarId} {p : String}
variable {n : NamedTable} {world : Array Callback → Prop}
variable (hid : id.index < u.queries.size) (hgrammar : (u.query id).grammar = .grammar gid)
variable (hworld : world u.callbacks)
variable (hanswers : ∀ (request : Request) callback, u.extension? request.name = some callback →
  run.OnlyAnswers world callback)

include hid hgrammar hworld hanswers

/-- What is compiled of a query is compiled by its grammar, with its maps read. -/
theorem ran_compile_renamed {α : Type} {method : String}
    {f : Grammar → Attached → Query → Except Failure α} {v : α}
    (h : Ran (id.compile run method f) u v u') :
    ∃ attached r, f (u.grammar gid) attached ((u.query id).rename r) = .ok v := by
  obtain ⟨hremains, known, hcompiled⟩ := ran_consult_remains hworld hanswers h
  obtain ⟨g, hg, hcompiled⟩ := Name.bind_eq_ok hcompiled
  rw [Store.grammarFor_settled, hremains.query id hid] at hg
  have hsame := hremains.grammarFor hg
  rw [hgrammar] at hsame
  unfold Store.grammarFor at hsame
  dsimp only at hsame
  split at hsame
  · exact nomatch hsame
  · obtain rfl := Except.ok.inj hsame
    rw [Store.query_settled, hremains.query id hid] at hcompiled
    exact ⟨_, _, hcompiled⟩

variable (hlt : gid.index < u.grammars.size) (hp : (u.grammar gid).tablePrefix = .text p)
variable (hplain : PlainText p) (hn : n.IsPlain) (hsource : (u.query id).source = .text n.reference)

include hp hplain hn hsource hlt

/-- All mentions of the source of a query are one name. -/
theorem Store.mentions : u.Mentions run id (u.grammar gid) p n where
  select sql u' h := by
    obtain ⟨attached, r, hsql⟩ := ran_compile_renamed hid hgrammar hworld hanswers h
    have hrenamed : ((u.query id).rename r).source = .text n.reference := congrArg r.value hsource
    exact Grammar.selectSql_from hp hplain hn hrenamed hsql
  column column hcolumn := Grammar.wrap_addressed hp hplain hn hcolumn
  change change st u' h := by
    obtain ⟨t, hcompile⟩ := Change.ran_statement h
    obtain ⟨attached, r, hsql⟩ := ran_compile_renamed hid hgrammar hworld hanswers hcompile
    have hrenamed : ((u.query id).rename r).source = .text n.reference := congrArg r.value hsource
    exact .of_shown (.of_alike (Query.rowsAlike_rename _ r)
      (Change.sql_mentions hp hplain hn hrenamed hsql))
  row row st u' hnull hquery h := by
    have hrows : Ran (do
        let c ← id.copy
        c.where run (← id.idColumn) (some (.text "=")) (some row) (.text "and")
        c.deleteRows run) u st u' := by
      unfold QueryId.toDeleteSql at h
      rw [hnull] at h
      exact h
    simp only [ran_bind] at hrows
    obtain ⟨c, s1, hcopy, v, s2, hcolumn, _, s3, hwhere, hdelete⟩ := hrows
    obtain ⟨handles, _, rfl, hfirst, rfl⟩ := QueryId.ran_copied hcopy
    have hsourceKept : ((u.addCopies handles).query id).source = .text n.reference := by
      rw [query_addCopies_of_lt hid, hsource]
    obtain ⟨rfl, rfl⟩ := QueryId.ran_idColumn hsourceKept hcolumn
    obtain rfl := (QueryId.ran_restrict hnull hquery).1 hwhere
    obtain ⟨sql, _, hcompile, _, _, _, rfl, _⟩ : ∃ sql s4, Ran _ _ sql s4 ∧ ∃ bindings s5,
        Ran _ s4 bindings s5 ∧ st = ⟨sql, bindings⟩ ∧ u' = s5 := by
      simpa only [QueryId.deleteRows, ran_bind, ran_pure] using hdelete
    -- The copy has the grammar of the query, with one more condition.
    have hcopied := query_edit_self (lt_addCopies (s := u) hfirst)
      (Query.restrictedTo (Name.lastAlias n.reference ++ ".id") row)
    rw [query_addCopies_copy hfirst, NamedTable.lastAlias_reference hn] at hcopied
    rw [NamedTable.lastAlias_reference hn] at hcompile
    have hkept := (grammar_addCopies u handles hlt).2
    generalize hrestricted : (u.addCopies handles).edit ⟨u.queries.size + 0⟩
      (Query.restrictedTo (n.address ++ ".id") row) = s3 at hcompile hcopied
    have hgrammars : s3.grammar ((u.copyRenaming handles).grammar gid) = u.grammar gid :=
      hrestricted ▸ hkept
    have hcompiler : (s3.query ⟨u.queries.size + 0⟩).grammar =
        .grammar ((u.copyRenaming handles).grammar gid) := by
      rw [hcopied]
      exact congrArg (u.copyRenaming handles).compiler hgrammar
    have hcallbacks : world s3.callbacks := hrestricted ▸ hworld
    obtain ⟨attached, r, hsql⟩ := ran_compile_renamed
      (by rw [← hrestricted, size_edit]; exact lt_addCopies hfirst) hcompiler hcallbacks
      (hrestricted ▸ hanswers) hcompile
    rw [hgrammars, hcopied] at hsql
    generalize u.copyRenaming handles = r0 at hsql
    exact deleteSql_restricted hp hplain hn hsource hsql

end

/-- A table is set as the source of a query, with or without an alias, in either of two ways.  As
long as it is the source, every mention of it is one quoted name, that of the alias or of the table
with the prefix before it: behind `from`, before a column under its address, before the id of a row
that is deleted, before the address of rows, and in a delete of joined tables. -/
theorem QueryId.source_mentions (run : Runner) {p : String} (hplain : PlainText p) {n : NamedTable}
    (hn : n.IsPlain) {table name : Value} (hgiven : n.GivenAs table name) (id : QueryId) :
    (∀ s : Store, (id.setSource run table name).runOn s =
      (.ok (), s.edit id fun query => { query with source := .text n.reference })) ∧
    ∀ (u : Store) (gid : GrammarId) (world : Array Callback → Prop),
      id.index < u.queries.size → gid.index < u.grammars.size →
      (u.query id).source = .text n.reference → (u.query id).grammar = .grammar gid →
      (u.grammar gid).tablePrefix = .text p → world u.callbacks →
      (∀ (request : Request) callback, u.extension? request.name = some callback →
        run.OnlyAnswers world callback) →
      u.Mentions run id (u.grammar gid) p n :=
  ⟨QueryId.setSource_named run id hn hgiven,
    fun _ _ _ hid hlt hsource hgrammar hp hworld hanswers =>
      Store.mentions hid hgrammar hworld hanswers hlt hp hplain hn hsource⟩

/-- A store with a query on a table with an alias, under a prefix. -/
def Store.ofAlias : Store :=
  ((do
    QueryId.setSource Runner.idle ⟨0⟩ (.text "users as u") .null
    QueryId.limit ⟨0⟩ (.int 2) : Action Unit).runOn (Store.ofDialect .postgres "p_")).2

/-- In PostgreSQL the row with an id is deleted by its address, and both have the alias before
them. -/
theorem QueryId.source_mentions_users : ∃ st u',
    (QueryId.toDeleteSql Runner.idle ⟨0⟩ (.int 5)).runOn Store.ofAlias = (.ok st, u') ∧
      StandsIn ("\"p_u\"" ++ "." ++ "\"id\"" ++ " =") st.sql ∧
      ∃ before select, st.sql = before ++ "where " ++ "\"ctid\"" ++ " in (" ++ select ++ ")" ∧
        StandsIn ("from " ++ "\"p_users\" as \"p_u\"") select ∧
        StandsIn ("select " ++ ("\"p_u\"" ++ "." ++ "\"ctid\"")) select := by
  let n : NamedTable := ⟨"users", some "u"⟩
  have hn : n.IsPlain := ⟨by decide, by decide, by decide, by decide⟩
  have hgiven : n.GivenAs (.text "users as u") .null := .reference rfl
  let g : Grammar := { dialect := .postgres, tablePrefix := .text "p_" }
  have hgrammar : Store.ofAlias.grammar ⟨0⟩ = g := rfl
  have hname : g.sourceName "p_" n = "\"p_u\"" := by decide
  have htable : g.sourceTable "p_" n = "\"p_users\" as \"p_u\"" := by decide
  have hnames : g.quoted "id" = "\"id\"" ∧ g.quoted "ctid" = "\"ctid\"" := by decide
  have hmentions : Store.ofAlias.Mentions Runner.idle ⟨0⟩ (Store.ofAlias.grammar ⟨0⟩) "p_" n :=
    (QueryId.source_mentions Runner.idle (by decide) hn hgiven ⟨0⟩).2
      Store.ofAlias ⟨0⟩ (fun _ => True) (by decide) (by decide) rfl rfl rfl trivial
      fun _ _ h => nomatch h
  have haddress : (Store.ofAlias.grammar ⟨0⟩).addressColumn? (Store.ofAlias.query ⟨0⟩) =
      some "ctid" := rfl
  have hplain : (Store.ofAlias.query ⟨0⟩).aggregate = none ∧
      (Store.ofAlias.query ⟨0⟩).distinct = false := ⟨rfl, rfl⟩
  have hrun : ((QueryId.toDeleteSql Runner.idle ⟨0⟩ (.int 5)).runOn
      Store.ofAlias).1.toOption.isSome = true := by decide +kernel
  generalize Store.ofAlias = u at *
  cases hresult : (QueryId.toDeleteSql Runner.idle ⟨0⟩ (.int 5)).runOn u with
  | mk r u' =>
    cases r with
    | error e =>
      rw [hresult] at hrun
      exact nomatch hrun
    | ok st =>
      obtain ⟨hid, hchange⟩ := hmentions.row (.int 5) st u' rfl rfl hresult
      obtain ⟨before, select, hsql, hsource, hcolumn⟩ := hchange.rows "ctid" haddress
      replace hcolumn := hcolumn (.inl hplain.1)
      rw [hgrammar, hname, hnames.1] at hid
      rw [hgrammar, hnames.2] at hsql
      rw [hgrammar, htable] at hsource
      rw [hgrammar, hname, hnames.2, hplain.2] at hcolumn
      exact ⟨st, u', rfl, hid, before, select, hsql, hsource, hcolumn⟩

end FluentSql
