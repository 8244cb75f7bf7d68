import FluentSql.Proofs.Building.Ready

/-!
# Queries that a call makes

A call makes new queries: for a sub-query that is given as a callback, for a
group of conditions, and for a join.  They start noted, and the callbacks that
build them keep them so.

* `Query.blank_noted` are the notes of a new query.
* `Ready.run_new` runs a callback on a new query.
* `SubAllowed` are the sub-queries that a call may be given: those on offer,
  and callbacks.  `SubTextAllowed` are also texts without placeholders.
* `Ready.resolveSub` and `Ready.createsText` are the two ways to read them.
-/

namespace FluentSql

section

variable {g : Grammar} {p : String} {run : Runner} {avail : Offers}
variable {s s' s1 : Store} {notes notes' notes1 : QueryId → Notes} {n : Notes} {t : QueryId}

/-! ## New queries -/

/-- A source that is not set has no name to quote. -/
theorem Grammar.Compiles.noSource (hg : g.Compiles p) : TableHolds g .null [] := by
  refine ⟨rfl, rfl, fun t ht => ?_⟩
  rw [hg.tablePrefix] at ht
  exact nomatch ht

/-- A new query has no values, but those of a joined table. -/
theorem Query.blank_noted {kind : QueryKind} {connection : Option ConnectionId}
    {grammar : Compiler} {source : Value} {vs : List Value} {whole : Bool}
    (hgrammar : ∃ id, grammar = .grammar id ∧ id.index < s.grammars.size ∧ s.grammar id = g)
    (hkind : KindHolds g vs kind) (hdata : source.handles = [])
    (hsource : whole = true → TableHolds g source []) :
    ({ kind, connection, grammar, source } : Query).Noted g s notes { table := vs, whole } where
  grammar := hgrammar
  aggregate _ ha := nomatch ha
  kind := hkind
  columns := .nil
  select := rfl
  sourceData := hdata
  source hwhole := ⟨hsource hwhole, rfl⟩
  join := rfl
  wheres := .nil
  condition := rfl
  groups := .nil
  grouping := rfl
  havings := .nil
  having := rfl
  orders := .nil
  order := rfl
  unions _ hu := nomatch hu
  union := rfl
  unionOrders := .nil
  unionOrder := rfl
  unionOnly _ := rfl
  lock := ⟨rfl, fun _ hsql => nomatch hsql⟩
  attached _ hid := nomatch hid
  joins _ hid := nomatch hid
  subQueries _ hid := nomatch hid
  data _ hv := nomatch hv

namespace Ready

/-- A new query beside the one of the call. -/
theorem add (h : Ready g p run avail s notes t) {q : Query} (hq : q.Noted g s notes n)
    (hnone : q.attachments = []) :
    Later g ∅ avail.queries s notes (s.add q) (Function.update notes s.next n) :=
  .add h.noted hq hnone

/-- A callback that is run on a new query. -/
theorem run_new (h : Ready g p run avail s notes t) {kind : QueryKind}
    {connection : Option ConnectionId} {source : Value}
    (hq : ({ kind, connection, grammar := (s.query t).grammar, source } : Query).Noted g s notes n)
    (hclosed : n.closed = true) {callback : CallbackId} (hcallback : callback ∈ avail.callbacks)
    {v : Value} (hran : Ran (run callback s.next [])
      (s.add { kind, connection, grammar := (s.query t).grammar, source }) v s') :
    ∃ notes', Later g ∅ avail.queries s notes s' notes' ∧ s'.Stands notes' s.next ∧
      (notes' s.next).table = n.table ∧ (notes' s.next).whole = n.whole ∧
      (kind ≠ .statement → (s'.query s.next).OnlyConditions) := by
  generalize hquery : ({ kind, connection, grammar := (s.query t).grammar, source } : Query) = q
    at hq hran
  have hnone : q.attachments = [] := by
    subst hquery
    rfl
  have hadd := h.add hq hnone
  have hself : (s.add q).query s.next = q := s.query_add_next q
  have hthere : s.next.index < (s.add q).queries.size := by
    rw [s.size_add]
    exact Nat.lt_succ_self _
  have hreceives : Receives s t (s.add q) s.next :=
    { size := hadd.size
      others := fun id hid _ => Store.query_add_of_lt hid q
      grammars := hadd.grammars
      callbacks := hadd.callbacks
      new := Nat.le_refl _
      there := hthere
      unattached := h.noted.unattached_next hnone
      blank := ⟨kind, connection, source, by rw [hself, hquery]⟩ }
  have hstands : (s.add q).Stands (Function.update notes s.next n) s.next := by
    refine ⟨hthere, ?_⟩
    rw [Function.update_self]
    exact hclosed
  have hoffered : ∀ id ∈ avail.queries, (s.add q).Stands (Function.update notes s.next n) id ∧
      (Function.update notes s.next n id).whole = true := by
    intro id hid
    obtain ⟨_, hold, hwhole⟩ := h.offered id hid
    exact ⟨hadd.stands hold (Set.notMem_empty id), (hadd.kept id hold.1).whole.trans hwhole⟩
  obtain ⟨notes', hlater, hstands', hjoin⟩ :=
    h.callbacks callback hcallback s.next _ v s' _ hreceives hran hadd.noted hstands hoffered
  have hkept := hlater.kept s.next hthere
  rw [Function.update_self] at hkept
  refine ⟨notes', hadd.trans hlater ?_ fun id hid _ => hid, hstands', hkept.table, hkept.whole, ?_⟩
  · rintro id rfl hid
    exact absurd hid (Nat.lt_irrefl _)
  · intro hkind
    refine hjoin ?_
    rw [hself, ← hquery]
    cases kind with
    | statement => exact absurd rfl hkind
    | join type table => rfl

end Ready

/-! ## Sub-queries -/

/-- A callback that may be run. -/
def CallableAllowed (avail : Offers) (v : Value) : Prop :=
  ∃ callback ∈ avail.callbacks, v = .object (.callback callback)

/-- A sub-query that is on offer, or a callback that builds one. -/
def SubAllowed (avail : Offers) (v : Value) : Prop :=
  (∃ id ∈ avail.queries, v = .ofQuery id) ∨ CallableAllowed avail v

/-- A sub-query, or a text without placeholders that stands for one. -/
def SubTextAllowed (avail : Offers) (v : Value) : Prop :=
  SubAllowed avail v ∨ WordHolds v

/-- The sub-query that a call has read: it stands, it is not the query of the call, and it was on
offer or is new. -/
structure Given (avail : Offers) (s : Store) (t : QueryId) (s' : Store)
    (notes' : QueryId → Notes) (sub : QueryId) : Prop where
  stands : s'.Stands notes' sub
  whole : (notes' sub).whole = true
  other : sub ≠ t
  source : sub ∈ avail.queries ∨ s.queries.size ≤ sub.index

/-- A sub-query that is compiled at once becomes a text with its values. -/
def CreatesText (g : Grammar) (run : Runner) (avail : Offers) (s : Store) (notes : QueryId → Notes)
    (t : QueryId) (query : Value) : Prop :=
  ∀ sub s', Ran (t.createSub run query) s sub s' →
    ∃ notes', Later g ∅ avail.queries s notes s' notes' ∧
      Reads sub.sql.toList sub.bindings.length ∧ ∀ v ∈ sub.bindings, v.handles = []

namespace Ready

/-- A new statement is noted. -/
theorem statement_noted (h : Ready g p run avail s notes t) (connection : Option ConnectionId) :
    ({ connection, grammar := (s.query t).grammar } : Query).Noted g s notes {} :=
  Query.blank_noted h.grammar rfl rfl fun _ => h.compiles.noSource

/-- A statement that a callback builds. -/
theorem built_statement (h : Ready g p run avail s notes t) {callback : CallbackId}
    (hcallback : callback ∈ avail.callbacks) {sub : QueryId} {v : Value}
    (hsub : Ran t.forSubQuery s sub s1)
    (hran : Ran (run callback sub []) s1 v s') :
    ∃ notes', Later g ∅ avail.queries s notes s' notes' ∧ Given avail s t s' notes' sub := by
  unfold QueryId.forSubQuery QueryId.newStatement at hsub
  simp only [ran_bind, ran_read, ran_create] at hsub
  obtain ⟨_, _, ⟨rfl, rfl⟩, rfl, rfl⟩ := hsub
  obtain ⟨notes', hlater, hstands, _, hwhole, _⟩ :=
    h.run_new (h.statement_noted _) rfl hcallback hran
  refine ⟨notes', hlater, hstands, hwhole, ?_, .inr (Nat.le_refl _)⟩
  rintro rfl
  exact absurd h.there (Nat.lt_irrefl _)

/-- A sub-query that is compiled with the query to which it is attached. -/
theorem resolveSub (h : Ready g p run avail s notes t) {query : Value}
    (hsub : SubAllowed avail query) {sub : QueryId} (hran : Ran (t.resolveSub run query) s sub s') :
    ∃ notes', Later g ∅ avail.queries s notes s' notes' ∧ Given avail s t s' notes' sub := by
  rcases hsub with ⟨id, hid, rfl⟩ | ⟨callback, hcallback, rfl⟩
  · obtain ⟨rfl, rfl⟩ := ran_pure.1 hran
    obtain ⟨hne, hstands, hwhole⟩ := h.offered _ hid
    exact ⟨notes, .refl h.noted, hstands, hwhole, hne, .inl hid⟩
  · unfold QueryId.resolveSub at hran
    simp only [ran_bind, ran_pure] at hran
    obtain ⟨new, s1, hnew, v, s2, hrun, rfl, rfl⟩ := hran
    exact h.built_statement hcallback hnew hrun

/-- A complete query can be compiled at once, whether it is on offer or not. -/
theorem createsText_query (h : Ready g p run avail s notes t) {id : QueryId}
    (hid : s.Stands notes id) (hwhole : (notes id).whole = true) :
    CreatesText g run avail s notes t (.ofQuery id) := by
  intro sub s' hran
  obtain ⟨rfl, hsql⟩ := QueryId.asSub_aligned h.compiles h.noted hid hwhole hran
  exact ⟨notes, .refl h.noted, hsql⟩

theorem createsText (h : Ready g p run avail s notes t) {query : Value}
    (hsub : SubTextAllowed avail query) : CreatesText g run avail s notes t query := by
  intro sub s' hran
  rcases hsub with (⟨id, hid, rfl⟩ | ⟨callback, hcallback, rfl⟩) | ⟨hdata, hsealed⟩
  · obtain ⟨_, hstands, hwhole⟩ := h.offered _ hid
    exact h.createsText_query hstands hwhole sub s' hran
  · unfold QueryId.createSub at hran
    simp only [ran_bind] at hran
    obtain ⟨new, s1, hnew, v, s2, hrun, hran⟩ := hran
    obtain ⟨notes', hlater, hgiven⟩ := h.built_statement hcallback hnew hrun
    obtain ⟨rfl, hsql⟩ :=
      QueryId.asSub_aligned h.compiles hlater.noted hgiven.stands hgiven.whole hran
    exact ⟨notes', hlater, hsql⟩
  · have htext : Ran (do return (⟨← query.displayNow, []⟩ : SubQuery)) s sub s' := by
      cases query with
      | text t => exact hran
      | raw w => exact hran
      | object handle => cases hdata
      | _ => exact absurd hran ran_throw
    simp only [ran_bind, ran_displayNow hdata, ran_pure] at htext
    obtain ⟨_, _, ⟨rfl, rfl⟩, rfl, rfl⟩ := htext
    exact ⟨notes, .refl h.noted, hsealed, fun v hv => by cases hv⟩

end Ready

end

end FluentSql
