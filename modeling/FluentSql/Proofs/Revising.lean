import FluentSql.Proofs.Aligned
import FluentSql.Proofs.Building.Continuing

/-!
# Sub-queries that change later

A sub-query is attached to a query in one of two ways.  Some calls write its
text into the query, with its values; later changes of the sub-query are not
seen.  Others keep the sub-query and write its values: its text is compiled
with that of the query, so later changes are seen in the text, but not in the
values.

* `FluentCall.Writes` are the calls of the first kind, and `Ready.write` says
  that they keep their query noted.
* `changed_sub_counted` says what later calls on a sub-query change.  The
  placeholders of a query still have as many values as there are of them if it
  does not hold the sub-query, or if the sub-query has as many values as before,
  and in no other case.
* `changed_sub_miscounted` is a query that has too few values.
-/

namespace FluentSql

/-- A call that writes the text of a query into another one, with its values, and may attach others
that are on offer. -/
def FluentCall.Writes (g : Grammar) (avail : Offers) (a : QueryId) (q : Query) : FluentCall → Prop
  | selectSub query name => query = .ofQuery a ∧ ColumnHolds g name []
  | fromSub query name => q.bindings.source = [] ∧ query = .ofQuery a ∧ TableHolds g name []
  | joinSub query name first operator second type byValue =>
    WordHolds type ∧ query = .ofQuery a ∧ TableHolds g name [] ∧
      JoinAllowed g avail first operator second byValue
  | whereIn column values boolean _ =>
    ColumnHolds g column [] ∧ values = .ofQuery a ∧ WordHolds boolean
  | orderBy column word => column = .ofQuery a ∧ word.handles = []
  | _ => False

section

variable {g : Grammar} {p : String} {run : Runner} {avail : Offers}
variable {s s' : Store} {notes : QueryId → Notes} {a t : QueryId}

/-- A call that writes the text of a query into another one keeps that one noted. -/
theorem Ready.write (h : Ready g p run avail s notes t) (hstands : s.Stands notes t)
    (ha : s.Stands notes a) (hwhole : (notes a).whole = true) {call : FluentCall}
    (hwrites : call.Writes g avail a (s.query t)) {u : Unit}
    (hran : Ran (call.perform run t) s u s') : Kept g avail s notes t s' := by
  have hcreates := h.createsText_query ha hwhole
  cases call with
  | selectSub query name =>
    obtain ⟨rfl, hname⟩ := hwrites
    exact h.selectSub hstands hcreates hname hran
  | fromSub query name =>
    obtain ⟨hnone, rfl, hname⟩ := hwrites
    exact h.fromSub hstands hnone hcreates hname hran
  | joinSub query name first operator second type byValue =>
    obtain ⟨htype, rfl, hname, hcondition⟩ := hwrites
    exact (h.joinSub hstands htype hcreates hname hcondition hran).1
  | whereIn column values boolean negated =>
    obtain ⟨hcolumn, rfl, hboolean⟩ := hwrites
    exact (h.whereIn hstands hcolumn (.inl ⟨rfl, hcreates⟩) hboolean hran).1
  | orderBy column word =>
    obtain ⟨rfl, hword⟩ := hwrites
    exact h.orderBy hstands (.inl ⟨rfl, hcreates⟩) hword hran
  | _ => exact hwrites.elim

/-- After such a call the query that it is made on does not hold the other one, if it did not
before. -/
theorem Store.Noted.not_holds_written (hg : g.Compiles p) (hs : s.Noted g notes)
    (ht : s.Stands notes t) (hplain : (s.query t).aggregate = none) (hfree : s.Unattached t)
    (ha : s.Stands notes a) (hwhole : (notes a).whole = true) (hnot : ¬s.Holds t a)
    (hgiven : ∀ id ∈ avail.queries, id ≠ t ∧ s.Stands notes id ∧ (notes id).whole = true ∧
      id ≠ a ∧ ¬s.Holds id a)
    (hcallbacks : ∀ callback ∈ avail.callbacks, CallbackKeeps g run avail.queries s t callback)
    {call : FluentCall} (hwrites : call.Writes g avail a (s.query t)) {u : Unit}
    (hran : Ran (call.perform run t) s u s') : ¬s'.Holds t a := by
  have haside : ∀ {id}, s.Stands notes id → ¬s.Holds id a → s.Stands (s.setAside notes a) id :=
    fun hid hout => Store.stands_setAside.2 ⟨hid, fun hin => hout hin.2⟩
  have hready : Ready g p run avail s (s.setAside notes a) t :=
    { compiles := hg
      noted := hs.setAside
      there := ht.1
      loose := hfree.loose
      plain := hplain
      grammar := (hs.queries t ht).grammar
      offered := fun id hid => by
        obtain ⟨hother, hstands, hall, _, hout⟩ := hgiven id hid
        exact ⟨hother, haside hstands hout, (Store.setAside_whole id).trans hall⟩
      callbacks := hcallbacks }
  obtain ⟨notes', hlater, _⟩ := hready.write (haside ht hnot)
    (haside ha (hs.not_holds_self ha)) ((Store.setAside_whole a).trans hwhole) hwrites hran
  exact fun hholds => hnot (Store.holds_of_later ha hnot
    (fun id hid => (hgiven id hid).2.2.2) hlater hholds)

/-- Two numbers that differ by a multiple of a difference are equal if the factor or the difference
is zero, and in no other case. -/
private theorem even_iff {x y k old new : Nat} (h : x + k * old = y + k * new) :
    x = y ↔ k = 0 ∨ new = old := by
  refine ⟨fun heven => ?_, ?_⟩
  · rcases Nat.eq_zero_or_pos k with hzero | hpos
    · exact .inl hzero
    · refine .inr (Nat.eq_of_mul_eq_mul_left hpos ?_)
      omega
  · rintro (rfl | rfl) <;> omega

/-- The statement of a query after changes of another one that it may hold. -/
theorem Revised.asSub_counted {notes' : QueryId → Notes} (h : Revised g a s notes s' notes')
    (hg : g.Compiles p) (hsub : s.SelectedOnly a) (ht : s.Stands notes t)
    (hwhole : (notes t).whole = true) (hne : t ≠ a) :
    (s'.query t).bindings = (s.query t).bindings ∧
    ∃ places, (s.query t).subQueries.count a ≤ places ∧ (¬s.Holds t a → places = 0) ∧
      ∀ statement s1, Ran (t.asSub run) s' statement s1 →
        marks none statement.sql.toList + places * (s.query a).bindings.flatten.length =
            statement.bindings.length + places * (s'.query a).bindings.flatten.length ∧
        (marks none statement.sql.toList = statement.bindings.length ↔ places = 0 ∨
          (s'.query a).bindings.flatten.length = (s.query a).bindings.flatten.length) := by
  have hsame := (h.others ht.1 hne).1
  obtain ⟨places, hcount, hnone, hmarks⟩ := h.marks_eq hg hsub ht hwhole hne
  refine ⟨congrArg Query.bindings hsame, places, hcount, hnone, fun statement s1 hran => ?_⟩
  unfold QueryId.asSub QueryId.bindings at hran
  simp only [ran_bind, ran_read, ran_pure] at hran
  obtain ⟨sql, _, hsql, _, _, ⟨_, _, ⟨rfl, rfl⟩, rfl, rfl⟩, rfl, rfl⟩ := hran
  obtain ⟨rfl, heq⟩ := hmarks sql _ hsql
  have hcounted : marks none sql.toList + places * (s.query a).bindings.flatten.length =
      (s1.query t).bindings.flatten.length + places * (s1.query a).bindings.flatten.length := by
    rw [hsame]
    exact heq
  exact ⟨hcounted, even_iff hcounted⟩

end

/-- In a program that has built some queries, let one of them be a sub-query, and let calls be given
queries that do not hold it.  A call that writes its text into another query does not make that query
hold it.  After further calls on the sub-query alone, another query is bound to what it was, and its
text has, for each of its places for the sub-query, as many placeholders more as the sub-query has got
values.  So it has one value for each placeholder if and only if it has no such place or the number
of the values of the sub-query is what it was. -/
theorem changed_sub_counted {g : Grammar} {p : String} (hg : g.Compiles p) {run : Runner}
    {depth : Nat} {s s1 : Store} (hempty : s.queries = #[])
    (hconnections : ∀ c, ∃ id, (s.connection c).grammar = .grammar id) {made : Set QueryId}
    (h : Builds g run (run.Building g depth) ∅ none s made s1) {a q : QueryId} (ha : a ∈ made)
    (hq : q ∈ made) (hne : q ≠ a) (hsub : s1.SelectedOnly a) {given : Set QueryId}
    (hgiven : ∀ id ∈ given, id ∈ made ∧ id ≠ a ∧ ¬s1.Holds id a) :
    (s1.Unattached q → ¬s1.Holds q a → ∀ (call : FluentCall) (runs : Set CallbackId),
      call.Writes g ⟨given \ {q}, runs⟩ a (s1.query q) →
      (∀ callback ∈ runs, run.Building g depth (given \ {q}) s1 q callback) →
      ∀ u s2, Ran (call.perform run q) s1 u s2 → ¬s2.Holds q a) ∧
    ∀ made' s2, Continues g run (run.Building g depth) given a s1 made' s2 →
      (s2.query q).bindings = (s1.query q).bindings ∧
      ∃ places, (s1.query q).subQueries.count a ≤ places ∧ (¬s1.Holds q a → places = 0) ∧
        ∀ statement s3, Ran (q.asSub run) s2 statement s3 →
          marks none statement.sql.toList + places * (s1.query a).bindings.flatten.length =
              statement.bindings.length + places * (s2.query a).bindings.flatten.length ∧
          (marks none statement.sql.toList = statement.bindings.length ↔ places = 0 ∨
            (s2.query a).bindings.flatten.length = (s1.query a).bindings.flatten.length) := by
  have hstarts : Starts g ∅ none s fun _ => {} :=
    ⟨Store.noted_of_empty hempty hconnections, fun _ hid => (nomatch hid), fun _ ht => (nomatch ht)⟩
  have hkeeps : ∀ queries s t callback, (∀ id ∈ queries, id.index < s.queries.size) →
      run.Building g depth queries s t callback → CallbackKeeps g run queries s t callback :=
    fun _ _ _ _ hqueries hcallback => Runner.Building.keeps hg hqueries hcallback
  obtain ⟨notes, hbuilt⟩ := h.built hg hstarts hkeeps
  have hnoted := hbuilt.later.noted
  obtain ⟨_, hstands, hwhole, hplain⟩ := hbuilt.complete q hq
  obtain ⟨_, hstandsSub, hwholeSub, hplainSub⟩ := hbuilt.complete a ha
  have hoffered : ∀ id ∈ given, id ≠ a ∧ s1.Stands notes id ∧ (notes id).whole = true ∧
      ¬s1.Holds id a := by
    intro id hid
    obtain ⟨hmade, hother, hout⟩ := hgiven id hid
    have hcomplete := hbuilt.complete id hmade
    exact ⟨hother, hcomplete.stands, hcomplete.whole, hout⟩
  refine ⟨fun hfree hnot call runs hwrites hruns u s2 hran => ?_, fun made' s2 hcontinues => ?_⟩
  · refine hnoted.not_holds_written hg hstands hplain hfree hstandsSub hwholeSub hnot
      (fun id hid => ?_) (fun callback hin => ?_) hwrites hran
    · obtain ⟨hother, hid', hall, hout⟩ := hoffered id hid.1
      exact ⟨hid.2, hid', hall, hother, hout⟩
    · exact hkeeps _ _ _ _ (fun id hid => (hoffered id hid.1).2.1.1) (hruns callback hin)
  · obtain ⟨notes2, hrevised⟩ :=
      hcontinues.revised hg hnoted hstandsSub hplainSub hoffered hkeeps
    exact hrevised.asSub_counted hg hsub hstands hwhole hne

/-! ## A sub-query that gets a value -/

namespace ExistsProgram

open OrdersProgram (run listed grammar_compiles fragmentAllowed)

/-- A query on a table. -/
def from_ (table : String) : Query :=
  { connection := none, grammar := .grammar ⟨0⟩, source := .text table }

/-- The first query after the second one is attached to it. -/
def asking : Query :=
  { from_ "orders" with wheres := [⟨.text "and", .exists (some ⟨1⟩) false⟩] }

/-- The second query after a call on it. -/
def restricted : Query :=
  { from_ "users" with
    wheres := [⟨.text "and", .raw (.text "total > ?")⟩]
    bindings := { condition := [.int 7] } }

/-- The store in which the second query is attached to the first one. -/
def before : Store := .ofQueries #[asking, from_ "users", from_ "items"]

/-- The store after the call on the second query. -/
def after : Store := .ofQueries #[asking, restricted, from_ "items"]

/-- The queries that the program makes. -/
def made : Set QueryId := insert ⟨2⟩ (insert ⟨1⟩ (insert ⟨0⟩ ∅))

/-- The program makes three queries, and has built them so far. -/
abbrev BuildsTo (queries : Array Query) : Prop :=
  Builds { dialect := .sqlite } run (run.Building { dialect := .sqlite } 1) ∅ none (.ofQueries #[])
    made (.ofQueries queries)

theorem mem_made : ⟨0⟩ ∈ made ∧ ⟨1⟩ ∈ made ∧ ⟨2⟩ ∈ made :=
  ⟨.inr (.inr (.inl rfl)), .inr (.inl rfl), .inl rfl⟩

/-- A table can be set as the source of a query that has none. -/
theorem sourceAllowed {queries : Set QueryId} (runs : Set CallbackId) (table : String) :
    (FluentCall.setSource (.text table) .null).Allowed { dialect := .sqlite } ⟨queries, runs⟩
      { connection := none, grammar := .grammar ⟨0⟩ } :=
  ⟨rfl, rfl, rfl, rfl, rfl, fun _ _ h => nomatch h⟩

/-- The program makes three queries, sets their sources and attaches the second to the first. -/
theorem builds : BuildsTo #[asking, from_ "users", from_ "items"] := by
  obtain ⟨hfirst, hsecond, hthird⟩ := mem_made
  have hblank : ∀ {s : Store}, s.grammars = #[{ dialect := .sqlite }] →
      ({ connection := none, grammar := .grammar ⟨0⟩ } : Query).Fresh { dialect := .sqlite } s := by
    intro s hs
    refine ⟨none, ⟨0⟩, rfl, ?_, ?_⟩
    · rw [hs]
      decide
    · rw [Store.grammar, hs]
      rfl
  have hfresh : BuildsTo #[{ connection := none, grammar := .grammar ⟨0⟩ },
      { connection := none, grammar := .grammar ⟨0⟩ },
      { connection := none, grammar := .grammar ⟨0⟩ }] :=
    .make (.make (.make .start (hblank rfl)) (hblank rfl)) (hblank rfl)
  have hlisted : BuildsTo #[from_ "orders", from_ "users", from_ "items"] :=
    .call (.call (.call hfresh
      (.inl hfirst) (OrdersProgram.unattached (by decide)) (sourceAllowed ∅ "orders")
        (fun h => by cases h) (fun _ hin => by cases hin) rfl)
      (.inl hsecond) (OrdersProgram.unattached (by decide)) (sourceAllowed ∅ "users")
        (fun h => by cases h) (fun _ hin => by cases hin) rfl)
      (.inl hthird) (OrdersProgram.unattached (by decide)) (sourceAllowed ∅ "items")
        (fun h => by cases h) (fun _ hin => by cases hin) rfl
  have hexists : (FluentCall.whereExists (.ofQuery ⟨1⟩) (.text "and") false).Allowed
      { dialect := .sqlite } ⟨(∅ ∪ made) \ {⟨0⟩}, ∅⟩ (from_ "orders") :=
    ⟨.inl ⟨⟨1⟩, ⟨.inr hsecond, fun h => by cases h⟩, rfl⟩, rfl, by decide⟩
  exact .call hlisted (.inl hfirst) (OrdersProgram.unattached (by decide)) hexists
    (fun h => by cases h) (fun _ hin => by cases hin) rfl

/-- A call on the second query alone. -/
theorem continues : Continues { dialect := .sqlite } run (run.Building { dialect := .sqlite } 1) ∅
    ⟨1⟩ before ∅ after := by
  have hallowed : (FluentCall.whereRaw (.text "total > ?") (.list [.int 7]) (.text "and")).Allowed
      { dialect := .sqlite } ⟨(∅ ∪ ∅) \ {⟨1⟩}, ∅⟩ (from_ "users") :=
    ⟨fragmentAllowed (by decide), rfl, by decide⟩
  exact .call .start (.inl rfl) hallowed (fun _ h => nomatch h) (fun _ hin => nomatch hin) rfl

/-- The second query is attached to be selected from. -/
theorem selectedOnly : before.SelectedOnly ⟨1⟩ := by
  have hall : ∀ id, (before.query id).joins = [] ∧ (before.query id).conditionGroups = [] := by
    intro id
    unfold Store.query
    cases hq : before.queries[id.index]? with
    | none => exact ⟨rfl, rfl⟩
    | some q =>
      have hmem : ∀ q ∈ before.queries, q.joins = [] ∧ q.conditionGroups = [] := by decide
      exact hmem q (Array.mem_of_getElem? hq)
  refine ⟨fun id => ?_, fun id join hjoin => ?_⟩
  · rw [(hall id).1, (hall id).2]
    exact ⟨List.not_mem_nil, List.not_mem_nil⟩
  · rw [(hall id).1] at hjoin
    exact nomatch hjoin

end ExistsProgram

/-- The third query does not hold the second one after its text is written into it.  The first one has
a placeholder more than values after the call on the second one. -/
theorem changed_sub_counted_users :
    (∃ u s2, Ran ((FluentCall.whereIn (.text "id") (.ofQuery ⟨1⟩) (.text "and") false).perform
        OrdersProgram.run ⟨2⟩) ExistsProgram.before u s2 ∧ ¬s2.Holds ⟨2⟩ ⟨1⟩) ∧
      ∃ statement s3, Ran (QueryId.asSub OrdersProgram.run ⟨0⟩) ExistsProgram.after statement s3 ∧
        statement.sql =
          "select * from \"orders\" where exists (select * from \"users\" where total > ?)" ∧
        statement.bindings.length = 0 ∧
        ∃ places, 1 ≤ places ∧ marks none statement.sql.toList + places * 0 = 0 + places * 1 := by
  obtain ⟨hfirst, hsecond, hthird⟩ := ExistsProgram.mem_made
  have hwritten : ((((FluentCall.whereIn (.text "id") (.ofQuery ⟨1⟩) (.text "and") false).perform
      OrdersProgram.run ⟨2⟩).run.run ExistsProgram.before).1.toOption.map fun _ => ()) = some () := by
    decide +kernel
  have hevaluated : (((QueryId.asSub OrdersProgram.run ⟨0⟩).run.run
      ExistsProgram.after).1.toOption.map fun statement =>
        (statement.sql, statement.bindings.length)) =
      some ("select * from \"orders\" where exists (select * from \"users\" where total > ?)",
        0) := by
    decide +kernel
  obtain ⟨u, s2, hran, _⟩ := exists_ran hwritten
  obtain ⟨statement, s3, hcompiled, hresult⟩ := exists_ran hevaluated
  obtain ⟨hsql, hlength⟩ := Prod.mk.inj hresult
  have hnot : ¬ExistsProgram.before.Holds ⟨2⟩ ⟨1⟩ := fun h => by
    obtain ⟨id, hin, _⟩ := Relation.TransGen.head'_iff.1 h
    exact nomatch hin
  have hwrites : (FluentCall.whereIn (.text "id") (.ofQuery ⟨1⟩) (.text "and") false).Writes
      { dialect := .sqlite } ⟨∅ \ {⟨2⟩}, ∅⟩ ⟨1⟩ (ExistsProgram.from_ "items") :=
    ⟨⟨rfl, rfl, fun h => nomatch h⟩, rfl, rfl, by decide⟩
  have hnone : ∀ id ∈ (∅ : Set QueryId), id ∈ ExistsProgram.made ∧ id ≠ ⟨1⟩ ∧
      ¬ExistsProgram.before.Holds id ⟨1⟩ := fun _ hin => nomatch hin
  have hthirdOnly := (changed_sub_counted OrdersProgram.grammar_compiles rfl (fun _ => ⟨⟨0⟩, rfl⟩)
    ExistsProgram.builds hsecond hthird (by decide) ExistsProgram.selectedOnly hnone).1 (OrdersProgram.unattached (by decide)) hnot _ ∅ hwrites
    (fun _ hin => nomatch hin) u s2 hran
  obtain ⟨_, places, hplaces, _, hmarks⟩ := (changed_sub_counted OrdersProgram.grammar_compiles rfl
    (fun _ => ⟨⟨0⟩, rfl⟩) ExistsProgram.builds hsecond hfirst (by decide) ExistsProgram.selectedOnly
    hnone).2 ∅ ExistsProgram.after ExistsProgram.continues
  have heq := (hmarks statement s3 hcompiled).1
  rw [hlength] at heq
  exact ⟨⟨u, s2, hran, hthirdOnly⟩, statement, s3, hcompiled, hsql, hlength, places, hplaces, heq⟩

/-- A query is bound to one value for each placeholder, and after a call on its sub-query it is bound
to none while its text has one. -/
theorem changed_sub_miscounted :
    ExistsProgram.BuildsTo #[ExistsProgram.asking, ExistsProgram.from_ "users",
        ExistsProgram.from_ "items"] ∧
      (∃ statement s1, Ran (QueryId.asSub OrdersProgram.run ⟨0⟩) ExistsProgram.before statement s1 ∧
        marks none statement.sql.toList = statement.bindings.length) ∧
      Continues { dialect := .sqlite } OrdersProgram.run
        (OrdersProgram.run.Building { dialect := .sqlite } 1) ∅ ⟨1⟩ ExistsProgram.before ∅
        ExistsProgram.after ∧
      ∃ statement s1, Ran (QueryId.asSub OrdersProgram.run ⟨0⟩) ExistsProgram.after statement s1 ∧
        marks none statement.sql.toList = 1 ∧ statement.bindings.length = 0 := by
  have hbefore : (((QueryId.asSub OrdersProgram.run ⟨0⟩).run.run
      ExistsProgram.before).1.toOption.map fun statement =>
        decide (marks none statement.sql.toList = statement.bindings.length)) = some true := by
    decide +kernel
  have hafter : (((QueryId.asSub OrdersProgram.run ⟨0⟩).run.run
      ExistsProgram.after).1.toOption.map fun statement =>
        (marks none statement.sql.toList, statement.bindings.length)) = some (1, 0) := by
    decide +kernel
  obtain ⟨statement, s1, hran, hresult⟩ := exists_ran hbefore
  obtain ⟨statement', s1', hran', hresult'⟩ := exists_ran hafter
  exact ⟨ExistsProgram.builds, ⟨statement, s1, hran, of_decide_eq_true hresult⟩,
    ExistsProgram.continues, statement', s1', hran', Prod.mk.inj hresult'⟩

end FluentSql
