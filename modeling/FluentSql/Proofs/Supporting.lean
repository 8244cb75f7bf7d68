import FluentSql.Proofs.Apart
import FluentSql.Proofs.Explaining.Selecting
import FluentSql.Proofs.Regular
import FluentSql.Proofs.Resembling.Selecting

/-!
# Constructs that a dialect lacks

Compiling refuses what the dialect lacks: containment in JSON documents, the
length of JSON arrays, and paths into JSON columns.  It does so for the queries
that use such a construct wherever compiling comes, and for no others.

* `Store.Needs` says that a query uses something that the dialect lacks.
* `QueryId.toSql_supports` is the result.

A query holds those attached to it by their numbers, so a query may come to
stand inside itself, and nothing keeps it from doing so.  Compiling comes to an
end for all other queries, and never for these.

* `QueryId.toSql_ends` is the result, and `QueryId.toSql_not_ends` a query that
  is asked whether it has rows itself.
-/

namespace FluentSql

-- Powers are those of the core library, whatever else is imported.
attribute [local instance (10000)] instPowNat

/-- The reference that is quoted for an item.  `p` is the prefix of the tables. -/
def Item.quoted? (p : String) : Item → Option String
  | column v => v.reference?
  | table (.text s) => some (p ++ s)
  | _ => none

/-- A part uses something that the dialect lacks, or something inside it does, at any depth.  MySQL
and PostgreSQL lack nothing, SQLite lacks containment in JSON documents, and the base dialect has
nothing for JSON. -/
def Store.Needs (s : Store) (g : Grammar) (p : String) (root : Part) : Prop :=
  match g.dialect with
  | .mysql | .postgres => False
  | .sqlite => ∃ part, s.Visits root part ∧ ∃ column, .jsonContains column ∈ s.items part
  | .ansi => ∃ part, s.Visits root part ∧
    ((∃ column, .jsonContains column ∈ s.items part ∨ .jsonLength column ∈ s.items part) ∨
      ∃ item ∈ s.items part, ∃ reference, item.quoted? p = some reference ∧
        Name.needsPath p.toList reference.toList = true)

section

variable {s : Store} {g : Grammar} {p : String} {root : Part} {item : Item}

theorem Grammar.refuses_ansi (hd : g.dialect = .ansi) : g.Refuses p item ↔
    (∃ column, item = .jsonContains column ∨ item = .jsonLength column) ∨
      ∃ reference, item.quoted? p = some reference ∧
        Name.needsPath p.toList reference.toList = true := by
  cases item with
  | column v => simp [Refuses, LacksPath, Item.quoted?, hd]
  | table v => cases v <;> simp [Refuses, LacksPath, Item.quoted?, hd]
  | _ => simp [Refuses, Item.quoted?, hd]

theorem Grammar.refuses_sqlite (hd : g.dialect = .sqlite) :
    g.Refuses p item ↔ ∃ column, item = .jsonContains column := by
  cases item <;> simp [Refuses, LacksPath, hd]

theorem Grammar.not_refuses (hd : g.dialect = .mysql ∨ g.dialect = .postgres) :
    ¬g.Refuses p item := by
  rcases hd with hd | hd <;> cases item <;> simp [Refuses, LacksPath, hd]

/-- What is needed is what is refused somewhere. -/
theorem Store.needs_iff : s.Needs g p root ↔
    ∃ part, s.Visits root part ∧ ∃ item ∈ s.items part, g.Refuses p item := by
  unfold Needs
  cases hd : g.dialect with
  | mysql => simp [Grammar.not_refuses (.inl hd)]
  | postgres => simp [Grammar.not_refuses (.inr hd)]
  | sqlite => simp [Grammar.refuses_sqlite hd]
  | ansi =>
    refine exists_congr fun part => and_congr_right fun _ => ?_
    simp only [Grammar.refuses_ansi hd]
    constructor
    · rintro (⟨column, h | h⟩ | ⟨item, hitem, h⟩)
      · exact ⟨_, h, .inl ⟨column, .inl rfl⟩⟩
      · exact ⟨_, h, .inl ⟨column, .inr rfl⟩⟩
      · exact ⟨item, hitem, .inr h⟩
    · rintro ⟨item, hitem, ⟨column, rfl | rfl⟩ | h⟩
      · exact .inl ⟨column, .inl hitem⟩
      · exact .inl ⟨column, .inr hitem⟩
      · exact .inr ⟨item, hitem, h⟩

theorem Item.Writes.not_asks (h : item.Writes) : ¬item.Asks := by
  cases item with
  | jsonContains column | jsonLength column => exact fun hasks => hasks h
  | _ => exact id

/-- If everything that compiling comes upon can be written, it fails for what is lacking, or because
it goes on for ever. -/
theorem Store.Fails.of_writes {depth : Nat} {reason : Reason} (h : s.Fails g p depth root reason)
    (hwrites : ∀ part, s.Visits root part → ∀ item ∈ s.items part, item.Writes) :
    reason = .endless ∧ ¬s.Within depth root ∨ reason = .unsupported ∧ s.Needs g p root := by
  rcases h with hdeep | ⟨part, hpart, item, hitem, hgives⟩
  · exact .inl hdeep
  · have hitemWrites := hwrites part hpart item hitem
    cases reason with
    | unsupported => exact .inr ⟨rfl, Store.needs_iff.2 ⟨part, hpart, item, hitem, hgives⟩⟩
    | unanswered => exact absurd hgives hitemWrites.not_asks
    | endless => exact hgives.elim
    | fault => exact absurd hitemWrites hgives

/-- Without a part inside itself nothing goes on for ever. -/
theorem Store.Uncircled.fails_iff {reason : Reason} (h : s.Uncircled root) :
    s.Fails g p (s.attachedDepth + 1) root reason ↔
      ∃ part, s.Visits root part ∧ ∃ item ∈ s.items part, g.Gives p item reason :=
  or_iff_right fun hdeep => hdeep.2 (within_of_uncircled h)

end

section

variable {s : Store} {g : Grammar} {p : String} {id : QueryId}

/-- What is compiled does not stand inside itself. -/
theorem Store.uncircled_of_compiled {known : KnownAnswers} {sql : String}
    (hg : s.grammarFor (s.query id).grammar "compile_select" = .ok g)
    (hp : g.tablePrefix = .text p) (hdot : '.' ∉ p.toList)
    (h : s.compiled known id "compile_select" Grammar.selectSql = .ok sql) :
    s.Uncircled (.select id) := by
  have hnot := (not_fails_of_compiled hg hp hdot known h).2
  exact Within.uncircled (Classical.byContradiction fun hdeep => hnot (.inl ⟨rfl, hdeep⟩))

/-- A compilation that comes upon no JSON column of another kind than a text asks nothing. -/
theorem Store.compiled_asksNothing (hg : s.grammarFor (s.query id).grammar "compile_select" = .ok g)
    (hp : g.tablePrefix = .text p) (hdot : '.' ∉ p.toList)
    (hjson : ∀ part, s.Visits (.select id) part → ∀ item ∈ s.items part, ¬item.Asks)
    (known : KnownAnswers) :
    AsksNothing (s.compiled known id "compile_select" Grammar.selectSql) := by
  intro other request h
  rcases fails_of_compiled hg hp hdot known h with ⟨hreason, _⟩ | ⟨part, hpart, item, hitem, hasks⟩
  · exact nomatch hreason
  · exact hjson part hpart item hitem hasks

/-- Compiling a query refuses it only if it needs something that the dialect lacks, and a query that
does so is never written.  If everything that compiling comes upon can be written, a query is refused
exactly if it needs something, and it is written otherwise. -/
theorem QueryId.toSql_supports (run : Runner)
    (hg : s.grammarFor (s.query id).grammar "compile_select" = .ok g)
    (hp : g.tablePrefix = .text p) (hdot : '.' ∉ p.toList)
    (hcircle : s.settled.Uncircled (.select id))
    (hjson : ∀ part, s.settled.Visits (.select id) part →
      ∀ item ∈ s.settled.items part, ¬item.Asks) :
    ∃ r, (id.toSql run).runOn s = (r, s) ∧
      (∀ feature, r = .error (.unsupported feature) → s.settled.Needs g p (.select id)) ∧
      (∀ sql, r = .ok sql → ¬s.settled.Needs g p (.select id)) ∧
      ((∀ part, s.settled.Visits (.select id) part →
          ∀ item ∈ s.settled.items part, item.Writes) →
        (s.settled.Needs g p (.select id) → ∃ feature, r = .error (.unsupported feature)) ∧
        (¬s.settled.Needs g p (.select id) → ∃ sql, r = .ok sql)) := by
  have hg : s.settled.grammarFor (s.settled.query id).grammar "compile_select" = .ok g := by
    rw [Store.grammarFor_settled, hg]
  have hneeds : s.settled.Fails g p (s.settled.attachedDepth + 1) (.select id) .unsupported ↔
      s.settled.Needs g p (.select id) := hcircle.fails_iff.trans Store.needs_iff.symm
  refine ⟨_, id.toSql_runOn run (Store.compiled_asksNothing hg hp hdot hjson []), ?_, ?_, ?_⟩
  · exact fun feature h => hneeds.1 (Store.fails_of_compiled hg hp hdot [] h)
  · exact fun sql h => hneeds.not.1 (Store.not_fails_of_compiled hg hp hdot [] h).1
  · intro hwrites
    have hrefused : ∀ e, s.settled.compiled [] id "compile_select" Grammar.selectSql = .error e →
        ∃ feature, e = .unsupported feature := by
      intro e he
      rcases (Store.fails_of_compiled hg hp hdot [] he).of_writes hwrites with ⟨_, hdeep⟩ | ⟨hreason, _⟩
      · exact absurd (Store.within_of_uncircled hcircle) hdeep
      · exact Failure.eq_unsupported hreason
    cases hr : s.settled.compiled [] id "compile_select" Grammar.selectSql with
    | ok sql =>
      have hnot := hneeds.not.1 (Store.not_fails_of_compiled hg hp hdot [] hr).1
      exact ⟨fun h => absurd h hnot, fun _ => ⟨sql, rfl⟩⟩
    | error e =>
      obtain ⟨feature, rfl⟩ := hrefused e hr
      have h := hneeds.1 (Store.fails_of_compiled hg hp hdot [] hr)
      exact ⟨fun _ => ⟨feature, rfl⟩, fun hnot => absurd h hnot⟩

end

/-! ## Queries that come to their limits -/

/-- Where no value follows the bindings of a query, a part writes the same when all values are read. -/
theorem Store.items_settled {s : Store} {part : Part}
    (h : ∀ other, Handle.bindings other ∉ (s.query part.query).handles) :
    s.settled.items part = s.items part := by
  have hquery := settled_query h
  cases part with
  | _ id =>
    simp only [Part.query] at hquery
    simp only [items, hquery]

/-- A store with two new queries for a dialect. -/
def Store.ofDialect (dialect : Dialect) (p : String) : Store :=
  { Store.ofNew with grammars := #[{ dialect, tablePrefix := .text p }] }

/-- The store after a condition on JSON in SQLite. -/
def Store.withDocument : Store :=
  ((QueryId.whereJsonContains ⟨1⟩ (.text "a") (.int 1) (.text "and") false).runOn
    (Store.ofDialect .sqlite "")).2

/-- The store after the query with that condition was united with another one. -/
def Store.unitedWithDocument (s : Store) : Store :=
  ((QueryId.union Runner.idle ⟨0⟩ (.ofQuery ⟨1⟩) (.bool false)).runOn s).2

/-- The condition is one of a member of the union, and it is lacking all the same. -/
theorem QueryId.toSql_supports_member : ∃ feature,
    ((QueryId.toSql Runner.idle ⟨0⟩).runOn Store.withDocument.unitedWithDocument).1 =
      .error (.unsupported feature) := by
  have hgrammar : Store.withDocument.unitedWithDocument.grammarFor
      (Store.withDocument.unitedWithDocument.query ⟨0⟩).grammar "compile_select" =
        .ok { dialect := .sqlite } := rfl
  have hunited : Store.withDocument.unitedWithDocument.items (.select ⟨0⟩) =
      [.column (.text "*"), .part (.select ⟨1⟩)] := rfl
  have hmember : Store.withDocument.unitedWithDocument.items (.select ⟨1⟩) =
      [.column (.text "*"), .jsonContains (.text "a")] := rfl
  have hhandles : (Store.withDocument.unitedWithDocument.query ⟨0⟩).handles =
      [.grammar ⟨0⟩, .query ⟨1⟩] := by decide +kernel
  have hhandles' : (Store.withDocument.unitedWithDocument.query ⟨1⟩).handles = [.grammar ⟨0⟩] := by
    decide +kernel
  generalize Store.withDocument.unitedWithDocument = s at *
  have hfirst : s.settled.items (.select ⟨0⟩) = [.column (.text "*"), .part (.select ⟨1⟩)] := by
    rw [Store.items_settled fun other => by simp [Part.query, hhandles], hunited]
  have hsecond : s.settled.items (.select ⟨1⟩) =
      [.column (.text "*"), .jsonContains (.text "a")] := by
    rw [Store.items_settled fun other => by simp [Part.query, hhandles'], hmember]
  have hparts : s.settled.parts (.select ⟨0⟩) = [.select ⟨1⟩] := by
    rw [Store.parts, hfirst]
    rfl
  have hnone : s.settled.parts (.select ⟨1⟩) = [] := by
    rw [Store.parts, hsecond]
    rfl
  obtain ⟨hwithin, hvisits⟩ := Store.visits_pair hparts hnone
  have hwrites : ∀ part, s.settled.Visits (.select ⟨0⟩) part →
      ∀ item ∈ s.settled.items part, item.Writes ∧ ¬item.Asks := by
    intro part h
    rcases hvisits part h with rfl | rfl
    · rw [hfirst]
      simp [Item.Writes, Item.Asks, Value.IsReference, Value.IsText]
    · rw [hsecond]
      simp [Item.Writes, Item.Asks, Value.IsReference, Value.IsText]
  obtain ⟨r, hr, _, _, hexact⟩ := QueryId.toSql_supports (s := s) (p := "")
    Runner.idle hgrammar rfl (by decide) hwithin.uncircled
    fun part h item hitem => (hwrites part h item hitem).2
  have hneeds : s.settled.Needs { dialect := .sqlite } "" (.select ⟨0⟩) := by
    refine ⟨.select ⟨1⟩, .single ?_, .text "a", ?_⟩
    · rw [Store.Encloses, hparts]
      exact List.mem_singleton_self _
    · rw [hsecond]
      simp
  obtain ⟨feature, rfl⟩ := (hexact fun part h item hitem => (hwrites part h item hitem).1).1 hneeds
  exact ⟨feature, congrArg Prod.fst hr⟩

/-- The store after a column was selected under a prefix that makes a path of it. -/
def Store.withJoinedPath : Store :=
  ((QueryId.select Runner.idle ⟨0⟩ [.text ">b.c"]).runOn (Store.ofDialect .ansi "a-")).2

/-- The store after paging past a number of rows with six thousand digits. -/
def Store.withLongOffset : Store :=
  ((QueryId.forPage ⟨0⟩ (.int (10 ^ (3000 : Nat))) (.int (10 ^ (3000 : Nat)))).runOn Store.withDocument).2

/-- The prefix and a table may form a path, though there is none in either; and a number that comes
before the union and is too long is reported in the place of what the union needs. -/
theorem QueryId.toSql_not_supports :
    (Store.withJoinedPath.settled.items (.select ⟨0⟩) = [.column (.text ">b.c")] ∧
      Name.hasArrow ">b.c".toList = false ∧ Name.hasArrow "a-".toList = false ∧
      ((QueryId.toSql Runner.idle ⟨0⟩).runOn Store.withJoinedPath).1.mapError Failure.reason =
        .error .unsupported) ∧
    Store.withLongOffset.unitedWithDocument.settled.Needs { dialect := .sqlite } ""
      (.select ⟨0⟩) ∧
    ((QueryId.toSql Runner.idle ⟨0⟩).runOn
      Store.withLongOffset.unitedWithDocument).1.mapError Failure.reason = .error .fault := by
  have hpath : (Store.withJoinedPath.query ⟨0⟩).handles = [.grammar ⟨0⟩] := by decide +kernel
  have hcolumns : Store.withJoinedPath.items (.select ⟨0⟩) = [.column (.text ">b.c")] := rfl
  refine ⟨⟨?_, by decide, by decide, by decide +kernel⟩, ?_, by decide +kernel⟩
  · rw [Store.items_settled fun other => by simp [Part.query, hpath], hcolumns]
  · have hunions : (Store.withLongOffset.unitedWithDocument.query ⟨0⟩).unions =
        [⟨some ⟨1⟩, .bool false⟩] := rfl
    have hmember : Store.withLongOffset.unitedWithDocument.items (.select ⟨1⟩) =
        [.column (.text "*"), .jsonContains (.text "a")] := rfl
    have hhandles : (Store.withLongOffset.unitedWithDocument.query ⟨0⟩).handles =
        [.grammar ⟨0⟩, .query ⟨1⟩] := by decide +kernel
    have hhandles' : (Store.withLongOffset.unitedWithDocument.query ⟨1⟩).handles =
        [.grammar ⟨0⟩] := by decide +kernel
    generalize Store.withLongOffset.unitedWithDocument = s at *
    have hunited : .part (.select ⟨1⟩) ∈ s.items (.select ⟨0⟩) :=
      Query.member_mem_items (hunions ▸ List.mem_cons_self) rfl
    refine ⟨.select ⟨1⟩, .single (Store.mem_parts.2 ?_), .text "a", ?_⟩
    · rwa [Store.items_settled fun other => by simp [Part.query, hhandles]]
    · rw [Store.items_settled fun other => by simp [Part.query, hhandles'], hmember]
      simp

/-! ## Queries that can be compiled at all -/

section

variable {s : Store} {g : Grammar} {p : String} {id : QueryId}

/-- The compilation of a query never goes on for ever if no part stands inside itself, and is never
done if one does.  If everything that compiling comes upon can be written, it ends with a text or with
a construct that is lacking; and it goes on for ever if a part stands inside itself and nothing is
lacking. -/
theorem QueryId.toSql_ends (run : Runner)
    (hg : s.grammarFor (s.query id).grammar "compile_select" = .ok g)
    (hp : g.tablePrefix = .text p) (hdot : '.' ∉ p.toList) :
    (∀ known,
      (s.settled.Uncircled (.select id) →
        s.settled.compiled known id "compile_select" Grammar.selectSql ≠ .error (.value .endless)) ∧
      (¬s.settled.Uncircled (.select id) → ∀ sql,
        s.settled.compiled known id "compile_select" Grammar.selectSql ≠ .ok sql)) ∧
    ((∀ part, s.settled.Visits (.select id) part → ∀ item ∈ s.settled.items part, item.Writes) →
      ∃ r, (id.toSql run).runOn s = (r, s) ∧
        (s.settled.Uncircled (.select id) →
          (∃ sql, r = .ok sql) ∨ ∃ feature, r = .error (.unsupported feature)) ∧
        (¬s.settled.Uncircled (.select id) → ¬s.settled.Needs g p (.select id) →
          r = .error (.value .endless))) := by
  have hg' : s.settled.grammarFor (s.settled.query id).grammar "compile_select" = .ok g := by
    rw [Store.grammarFor_settled, hg]
  refine ⟨fun known => ⟨fun hcircle h => ?_, fun hcircle sql h => ?_⟩, fun hwrites => ?_⟩
  · have hfails := Store.fails_of_compiled hg' hp hdot known h
    obtain ⟨_, _, _, _, hgives⟩ := hcircle.fails_iff.1 hfails
    exact hgives
  · exact hcircle (Store.uncircled_of_compiled hg' hp hdot h)
  · have hjson : ∀ part, s.settled.Visits (.select id) part →
        ∀ item ∈ s.settled.items part, ¬item.Asks :=
      fun part hpart item hitem => (hwrites part hpart item hitem).not_asks
    refine ⟨_, id.toSql_runOn run (Store.compiled_asksNothing hg' hp hdot hjson []), ?_⟩
    cases hr : s.settled.compiled [] id "compile_select" Grammar.selectSql with
    | ok sql =>
      refine ⟨fun _ => .inl ⟨sql, rfl⟩, fun hcircle => absurd ?_ hcircle⟩
      exact Store.uncircled_of_compiled hg' hp hdot hr
    | error e =>
      rcases (Store.fails_of_compiled hg' hp hdot [] hr).of_writes hwrites with
        ⟨hreason, hdeep⟩ | ⟨hreason, hneeds⟩
      · refine ⟨fun hcircle => absurd (Store.within_of_uncircled hcircle) hdeep, fun _ _ => ?_⟩
        rw [Failure.eq_endless hreason]
      · refine ⟨fun _ => .inr ?_, fun _ hnot => absurd hneeds hnot⟩
        obtain ⟨feature, rfl⟩ := Failure.eq_unsupported hreason
        exact ⟨feature, rfl⟩

end

/-- The store after a query was attached to the condition of another one. -/
def Store.withExists (inner : QueryId) : Store :=
  (do
    QueryId.setSource Runner.idle ⟨0⟩ (.text "t") .null
    QueryId.whereExists Runner.idle ⟨0⟩ (.ofQuery inner) (.text "and") false : Action Unit).runOn
      (Store.ofDialect .ansi "") |>.2

/-- The query with another one attached comes to an end. -/
theorem QueryId.toSql_ends_pair : ∃ r,
    (QueryId.toSql Runner.idle ⟨0⟩).runOn (Store.withExists ⟨1⟩) = (r, Store.withExists ⟨1⟩) ∧
      ((∃ sql, r = .ok sql) ∨ ∃ feature, r = .error (.unsupported feature)) := by
  have hgrammar : (Store.withExists ⟨1⟩).grammarFor ((Store.withExists ⟨1⟩).query ⟨0⟩).grammar
      "compile_select" = .ok { dialect := .ansi } := rfl
  have houter : (Store.withExists ⟨1⟩).items (.select ⟨0⟩) =
      [.column (.text "*"), .table (.text "t"), .part (.select ⟨1⟩)] := rfl
  have hinner : (Store.withExists ⟨1⟩).items (.select ⟨1⟩) = [.column (.text "*")] := rfl
  have hhandles : ((Store.withExists ⟨1⟩).query ⟨0⟩).handles = [.grammar ⟨0⟩, .query ⟨1⟩] := by
    decide +kernel
  have hhandles' : ((Store.withExists ⟨1⟩).query ⟨1⟩).handles = [.grammar ⟨0⟩] := by
    decide +kernel
  generalize Store.withExists ⟨1⟩ = s at *
  rw [← Store.items_settled fun other => by simp [Part.query, hhandles]] at houter
  rw [← Store.items_settled fun other => by simp [Part.query, hhandles']] at hinner
  have hparts : s.settled.parts (.select ⟨0⟩) = [.select ⟨1⟩] := by
    rw [Store.parts, houter]
    rfl
  have hnone : s.settled.parts (.select ⟨1⟩) = [] := by
    rw [Store.parts, hinner]
    rfl
  obtain ⟨hwithin, hvisits⟩ := Store.visits_pair hparts hnone
  obtain ⟨r, hr, hends, _⟩ := (QueryId.toSql_ends Runner.idle hgrammar rfl (by decide)).2 (by
    intro part hpart
    rcases hvisits part hpart with rfl | rfl
    · rw [houter]
      simp [Item.Writes, Value.IsReference, Value.IsText]
    · rw [hinner]
      simp [Item.Writes, Value.IsReference, Value.IsText])
  exact ⟨r, hr, hends hwithin.uncircled⟩

/-- A query that is attached to its own condition goes on for ever.  The list of a membership
condition is written when it is attached, so the same query is compiled there. -/
theorem QueryId.toSql_not_ends :
    ((QueryId.toSql Runner.idle ⟨0⟩).runOn (Store.withExists ⟨0⟩)).1.mapError Failure.reason =
      .error .endless ∧
    ((do
      QueryId.setSource Runner.idle ⟨0⟩ (.text "t") .null
      QueryId.whereIn Runner.idle ⟨0⟩ (.text "a") (.ofQuery ⟨0⟩) (.text "and") false
      QueryId.toSql Runner.idle ⟨0⟩ : Action String).runOn (Store.ofDialect .ansi "")).1.toOption =
        some "select * from \"t\" where \"a\" in (select * from \"t\")" := by
  decide +kernel

end FluentSql
