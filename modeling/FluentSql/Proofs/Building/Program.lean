import FluentSql.Proofs.Building.Call

/-!
# Programs that build queries

A program makes queries and builds them by fluent calls, one after another.  A
query may be attached to others once it is made; from then on it is built no
further.  A callback is again such a program.  It builds the query that it
receives, and may make queries of its own.

* `Builds` are the runs of a program, given what callbacks do.
* `Runner.Building` says what callbacks do: at a depth of nesting, they run
  programs whose callbacks are nested less deeply.
* `Builds.built` says that all queries of a program are noted at its end, from
  the same about its callbacks, and `Runner.callbacksKeep` that about
  callbacks from the same about programs.
-/

namespace FluentSql

/-- A store with the same queries, and the same grammars and callbacks under their numbers. -/
structure Store.Beside (s s' : Store) : Prop where
  queries : s'.queries = s.queries
  grammars : s.KeepsGrammars s'
  callbacks : s.KeepsCallbacks s'
  connections : ∀ c, ∃ id, (s'.connection c).grammar = .grammar id

/-- A fresh query of a grammar. -/
def Query.Fresh (g : Grammar) (s : Store) (q : Query) : Prop :=
  ∃ connection id, q = { connection, grammar := .grammar id } ∧ id.index < s.grammars.size ∧
    s.grammar id = g

/-- What is known of a callback in a call: the queries that it may attach, the store and the query of
the call. -/
abbrev CallbackProperty := Set QueryId → Store → QueryId → CallbackId → Prop

/-- The runs of a program from a store on: the queries that it has made and the store afterwards.  It
may attach those that it is given and those that it has made, and it builds those that it has made,
and the one that it has received if it is a callback.  A join condition only gets conditions and
joins. -/
inductive Builds (g : Grammar) (run : Runner) (callbacks : CallbackProperty) (given : Set QueryId)
    (received : Option QueryId) (s : Store) : Set QueryId → Store → Prop where
  /-- Nothing has been done. -/
  | start : Builds g run callbacks given received s ∅ s
  /-- No query has changed. -/
  | beside {made s1 s2} (before : Builds g run callbacks given received s made s1)
      (hbeside : s1.Beside s2) : Builds g run callbacks given received s made s2
  /-- A query is made. -/
  | make {made s1 q} (before : Builds g run callbacks given received s made s1)
      (hfresh : q.Fresh g s1) :
      Builds g run callbacks given received s (insert s1.next made) (s1.add q)
  /-- A call is made on a query that is not attached to another one. -/
  | call {made s1 t} {call : FluentCall} {runs u s2}
      (before : Builds g run callbacks given received s made s1)
      (hbuilt : t ∈ made ∨ received = some t) (hfree : s1.Unattached t)
      (hallowed : call.Allowed g ⟨(given ∪ made) \ {t}, runs⟩ (s1.query t))
      (hjoin : received = some t → (s.query t).isJoin = true → call.conditionGroup?.isSome)
      (hcallbacks : ∀ callback ∈ runs, callbacks ((given ∪ made) \ {t}) s1 t callback)
      (hran : Ran (call.perform run t) s1 u s2) :
      Builds g run callbacks given received s made s2

/-- Whenever a callback runs on a query that the call has made, it builds that query.  The callbacks
in its own calls do so too, down to a depth. -/
def Runner.Building (g : Grammar) : (depth : Nat) → Runner → CallbackProperty
  | 0, _ => fun _ _ _ _ => False
  | depth + 1, run => fun given s t callback =>
    ∀ sub s1 v s2, Receives s t s1 sub → Ran (run callback sub []) s1 v s2 →
      ∃ (inner : Runner) (made : Set QueryId),
        Builds g inner (inner.Building g depth) given (some sub) s1 made s2

section

variable {g : Grammar} {p : String} {run : Runner} {callbacks : CallbackProperty}
variable {given made : Set QueryId} {received : Option QueryId}
variable {s s' : Store} {notes : QueryId → Notes}

/-- The store in which a program starts: the queries that it is given are complete, and nothing is
attached to the one that it receives. -/
structure Starts (g : Grammar) (given : Set QueryId) (received : Option QueryId) (s : Store)
    (notes : QueryId → Notes) : Prop where
  noted : s.Noted g notes
  offered : ∀ id ∈ given, s.Stands notes id ∧ (notes id).whole = true
  receiver : ∀ t, received = some t →
    s.Stands notes t ∧ t ∉ given ∧ (s.query t).aggregate = none

/-- A query that a program has made, at a later time: it is complete and has no aggregate. -/
structure MadeQuery (s s' : Store) (notes' : QueryId → Notes) (id : QueryId) : Prop where
  new : s.queries.size ≤ id.index
  stands : s'.Stands notes' id
  whole : (notes' id).whole = true
  plain : (s'.query id).aggregate = none

/-- The store after a program: all is noted, and of the queries that were there only the one that it
has received has changed. -/
structure Built (g : Grammar) (given : Set QueryId) (received : Option QueryId) (s : Store)
    (notes : QueryId → Notes) (made : Set QueryId) (s' : Store) (notes' : QueryId → Notes) :
    Prop where
  later : Later g {t | received = some t} given s notes s' notes'
  complete : ∀ id ∈ made, MadeQuery s s' notes' id
  receiver : ∀ t, received = some t → s'.Stands notes' t
  conditions : ∀ t, received = some t → (s.query t).isJoin = true →
    (s.query t).OnlyConditions → (s'.query t).OnlyConditions

/-- Before its first step a program has made nothing. -/
theorem Built.start (hs : Starts g given received s notes) :
    Built g given received s notes ∅ s notes where
  later := .refl hs.noted
  complete _ hid := nomatch hid
  receiver t ht := (hs.receiver t ht).1
  conditions _ _ _ h := h

namespace Built

variable {s1 s2 : Store} {notes1 notes2 : QueryId → Notes} {t : QueryId}

/-- Nothing that a program may attach or has made is the query that it has received. -/
theorem ne_received (hs : Starts g given received s notes)
    (h : Built g given received s notes made s1 notes1) {id : QueryId} (hid : id ∈ given ∪ made) :
    received ≠ some id := by
  intro hreceived
  obtain ⟨hstands, hnot, _⟩ := hs.receiver id hreceived
  rcases hid with hid | hid
  · exact hnot hid
  · exact absurd hstands.1 (Nat.not_lt.2 (h.complete id hid).new)

/-- What a program may attach is complete. -/
theorem offered (hs : Starts g given received s notes)
    (h : Built g given received s notes made s1 notes1) {id : QueryId} (hid : id ∈ given ∪ made) :
    s1.Stands notes1 id ∧ (notes1 id).whole = true := by
  have hne := h.ne_received hs hid
  rcases hid with hid | hid
  · obtain ⟨hstands, hwhole⟩ := hs.offered id hid
    exact ⟨h.later.stands hstands hne, (h.later.kept id hstands.1).whole.trans hwhole⟩
  · exact ⟨(h.complete id hid).stands, (h.complete id hid).whole⟩

/-- A further step.  It changes queries that the program builds, and attaches queries that it may
attach. -/
theorem next (h : Built g given received s notes made s1 notes1) {changed : Set QueryId}
    (hlater : Later g changed (given ∪ made) s1 notes1 s2 notes2)
    (hchanged : ∀ id ∈ changed, (id ∈ made ∨ received = some id) ∧ s2.Stands notes2 id)
    (hconditions : ∀ t, received = some t → (s.query t).isJoin = true →
      (s1.query t).OnlyConditions → (s2.query t).OnlyConditions) :
    Built g given received s notes made s2 notes2 := by
  have hstands : ∀ {id}, s1.Stands notes1 id → s2.Stands notes2 id := by
    intro id hid
    by_cases hin : id ∈ changed
    · exact (hchanged id hin).2
    · exact hlater.stands hid hin
  refine ⟨h.later.trans hlater ?_ ?_, fun id hid => ?_, fun t ht => hstands (h.receiver t ht),
    fun t ht hjoin honly => hconditions t ht hjoin (h.conditions t ht hjoin honly)⟩
  · intro id hid hlt
    exact (hchanged id hid).1.resolve_left fun hmade =>
      absurd hlt (Nat.not_lt.2 (h.complete id hmade).new)
  · intro id hid hlt
    exact hid.resolve_right fun hmade => absurd hlt (Nat.not_lt.2 (h.complete id hmade).new)
  · have hmade := h.complete id hid
    have hkept := hlater.kept id hmade.stands.1
    exact ⟨hmade.new, hstands hmade.stands, hkept.whole.trans hmade.whole,
      hkept.aggregate.trans hmade.plain⟩

/-- A change beside the queries. -/
theorem beside (h : Built g given received s notes made s1 notes1) (hbeside : s1.Beside s2) :
    Built g given received s notes made s2 notes1 := by
  have hlater : Later g ∅ (given ∪ made) s1 notes1 s2 notes1 :=
    .beside h.later.noted hbeside.queries hbeside.grammars hbeside.callbacks hbeside.connections
  refine h.next hlater (fun id hid => nomatch hid) fun t ht _ honly => ?_
  rw [(hlater.others t (h.receiver t ht).1 (Set.notMem_empty t)).1]
  exact honly

/-- A query is made. -/
theorem make (hg : g.Compiles p) (h : Built g given received s notes made s1 notes1) {q : Query}
    (hfresh : q.Fresh g s1) :
    ∃ notes2, Built g given received s notes (insert s1.next made) (s1.add q) notes2 := by
  obtain ⟨connection, id, rfl, hgrammar⟩ := hfresh
  have hnoted : ({ connection, grammar := .grammar id } : Query).Noted g s1 notes1 {} :=
    Query.blank_noted ⟨id, rfl, hgrammar⟩ rfl rfl fun _ => hg.noSource
  have hlater := @Later.add g s1 notes1 ∅ (given ∪ made) _ _ h.later.noted hnoted rfl
  have hall := h.next hlater (fun id hid => nomatch hid) fun t ht _ honly => by
    rw [(hlater.others t (h.receiver t ht).1 (Set.notMem_empty t)).1]
    exact honly
  refine ⟨_, { hall with complete := ?_ }⟩
  rintro made (rfl | hmade)
  · refine ⟨h.later.size, ⟨?_, ?_⟩, ?_, ?_⟩
    · rw [s1.size_add]
      exact Nat.lt_succ_self _
    · rw [Function.update_self]
    · rw [Function.update_self]
    · rw [s1.query_add_next]
  · exact hall.complete made hmade

/-- A call on a query that the program builds.  All that refers to it is set aside. -/
theorem call (hg : g.Compiles p) (hs : Starts g given received s notes)
    (h : Built g given received s notes made s1 notes1) {call : FluentCall}
    {runs : Set CallbackId} (hbuilt : t ∈ made ∨ received = some t) (hloose : s1.Loose notes1 t)
    (hallowed : call.Allowed g ⟨(given ∪ made) \ {t}, runs⟩ (s1.query t))
    (hjoin : received = some t → (s.query t).isJoin = true → call.conditionGroup?.isSome)
    (hcallbacks : ∀ callback ∈ runs, CallbackKeeps g run ((given ∪ made) \ {t}) s1 t callback)
    {u : Unit} (hran : Ran (call.perform run t) s1 u s2) :
    ∃ notes2, Built g given received s notes made s2 notes2 := by
  have hstands : s1.Stands notes1 t := hbuilt.elim (fun ht => (h.complete t ht).stands) (h.receiver t)
  have hplain : (s1.query t).aggregate = none := by
    rcases hbuilt with ht | ht
    · exact (h.complete t ht).plain
    · obtain ⟨hold, _, hplain⟩ := hs.receiver t ht
      exact (h.later.kept t hold.1).aggregate.trans hplain
  have hready : Ready g p run ⟨(given ∪ made) \ {t}, runs⟩ s1 notes1 t :=
    { compiles := hg
      noted := h.later.noted
      there := hstands.1
      loose := hloose
      plain := hplain
      grammar := (h.later.noted.queries t hstands).grammar
      offered := fun id hid => ⟨hid.2, h.offered hs hid.1⟩
      callbacks := hcallbacks }
  obtain ⟨notes2, hlater, hstands2⟩ := hready.perform hstands hallowed hran
  refine ⟨notes2, h.next (hlater.mono (Set.Subset.refl _) fun _ hid => hid.1) ?_ ?_⟩
  · rintro id rfl
    exact ⟨hbuilt, hstands2⟩
  · intro other hother hisJoin honly
    by_cases hsame : other = t
    · subst hsame
      obtain ⟨group, hgroup⟩ := Option.isSome_iff_exists.1 (hjoin hother hisJoin)
      exact honly.of_call hgroup (hready.performIn hstands hallowed hgroup hran).2
    · rw [(hlater.others other (h.receiver other hother).1 hsame).1]
      exact honly

end Built

/-- All queries that a program makes or receives are noted after it, if callbacks keep the queries
that they receive noted. -/
theorem Builds.built (hg : g.Compiles p) (hs : Starts g given received s notes)
    (hcallbacks : ∀ queries s t callback, (∀ id ∈ queries, id.index < s.queries.size) →
      callbacks queries s t callback → CallbackKeeps g run queries s t callback)
    (h : Builds g run callbacks given received s made s') :
    ∃ notes', Built g given received s notes made s' notes' := by
  induction h with
  | start => exact ⟨notes, .start hs⟩
  | beside before hbeside ih =>
    obtain ⟨notes1, ih⟩ := ih
    exact ⟨notes1, ih.beside hbeside⟩
  | make before hfresh ih =>
    obtain ⟨notes1, ih⟩ := ih
    exact ih.make hg hfresh
  | call before hbuilt hfree hallowed hjoin hruns hran ih =>
    obtain ⟨notes1, ih⟩ := ih
    refine ih.call hg hs hbuilt hfree.loose hallowed hjoin (fun callback hin => ?_) hran
    exact hcallbacks _ _ _ callback (fun id hid => (ih.offered hs hid.1).1.1)
      (hruns callback hin)

/-- Callbacks that run programs keep the queries that they receive noted. -/
theorem Runner.Building.keeps (hg : g.Compiles p) {depth : Nat} {queries : Set QueryId}
    {t : QueryId} {callback : CallbackId} (hqueries : ∀ id ∈ queries, id.index < s.queries.size)
    (h : run.Building g depth queries s t callback) : CallbackKeeps g run queries s t callback := by
  induction depth generalizing run queries s t callback with
  | zero => exact h.elim
  | succ depth ih =>
    intro sub s1 v s2 notes1 hreceives hran hnoted hstands hoffered
    obtain ⟨inner, made, hbuilds⟩ := h sub s1 v s2 hreceives hran
    obtain ⟨kind, connection, source, hblank⟩ := hreceives.blank
    have hstarts : Starts g queries (some sub) s1 notes1 := by
      refine ⟨hnoted, hoffered, ?_⟩
      rintro _ ⟨⟩
      refine ⟨hstands, fun hin => ?_, by rw [hblank]⟩
      exact absurd (hqueries sub hin) (Nat.not_lt.2 hreceives.new)
    obtain ⟨notes2, hbuilt⟩ := hbuilds.built hg hstarts fun queries s t callback => ih
    have hmine : {t | some sub = some t} = ({sub} : Set QueryId) :=
      Set.ext fun t => Option.some_inj.trans eq_comm
    refine ⟨notes2, hmine ▸ hbuilt.later, hbuilt.receiver sub rfl, fun hjoin => ?_⟩
    refine hbuilt.conditions sub rfl hjoin ?_
    rw [hblank]
    rfl


end

end FluentSql
