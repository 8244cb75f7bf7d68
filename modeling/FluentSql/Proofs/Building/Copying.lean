import FluentSql.Fluent.Statement
import FluentSql.Proofs.Building.Compiling
import FluentSql.Proofs.Building.Later
import FluentSql.Proofs.Reaching

/-!
# Copies of noted queries

The copy of a query has copies of all that is attached to it.  They have the
same clauses and the same values, so the notes of a query fit its copy.

* `Query.Noted.mem_handles` are the objects that a noted query refers to.
* `Store.Noted.reachable` says that all that is reachable is complete.
* `Store.copiedNotes` are the notes of the copies, and `Later.addCopies` says
  that they fit.
* `Store.Noted.ran_copy` is the copy of one query.
* `Query.aggregated` is what a copy becomes that has a function in the place of
  its select list, and `QueryId.forAggregate_noted` says that it is noted.
-/

namespace FluentSql

section

variable {g : Grammar} {s s' : Store} {notes : QueryId → Notes} {n : Notes} {q : Query}
variable {mine avail : Set QueryId} {t : QueryId}

/-! ## What a noted query refers to -/

private theorem handlesOfAll_columns {vs : List Value} {vss : List (List Value)}
    (h : List.Forall₂ (ColumnHolds g) vs vss) : Value.handlesOfAll vs = [] :=
  Value.handlesOfAll_eq_nil.2 (forall_of_forall₂ h fun _ _ hv => hv.data)

private theorem handlesOfAll_params {vs : List Value} {vss : List (List Value)}
    (h : List.Forall₂ (ParamHolds .ok) vs vss) : Value.handlesOfAll vs = [] :=
  Value.handlesOfAll_eq_nil.2 (forall_of_forall₂ h fun _ _ hv => hv.data)

/-- A noted condition refers to what is attached by it. -/
theorem WhereHolds.handles_eq {note : Note} {body : Where} (h : WhereHolds g note body) :
    body.handles = (body.group?.toList ++ body.sub?.toList).map .query := by
  cases body with
  | raw sql => exact h.1
  | basic column operator value =>
    obtain ⟨hcolumn, _, vs, _, hvalue⟩ := h
    rw [Where.handles, hcolumn.data, hvalue.data]
    rfl
  | among column values negated =>
    obtain ⟨hcolumn, _, hvalues⟩ := h
    rw [Where.handles, hcolumn.data, handlesOfAll_params hvalues]
    rfl
  | amongIntegers column values negated => exact h.1.data
  | null column negated => exact h.1.data
  | between column values negated =>
    obtain ⟨hcolumn, _, _, _, _, _, _, _, _, _, hvalues⟩ := h
    rw [Where.handles, hcolumn.data, Value.handlesOfAll_eq_nil.2 hvalues]
    rfl
  | datePart part column operator value =>
    obtain ⟨hcolumn, _, vs, _, hvalue⟩ := h
    rw [Where.handles, hcolumn.data, hvalue.data]
    rfl
  | columnPair first operator second =>
    obtain ⟨hfirst, _, hsecond, _⟩ := h
    rw [Where.handles, hfirst.data, hsecond.data]
    rfl
  | nested query => rfl
  | sub column operator query =>
    obtain ⟨hcolumn, hoperator, _⟩ := h
    rw [Where.handles, hcolumn.data, hoperator.1]
    rfl
  | «exists» query negated => cases query <;> rfl
  | rowValues columns operator values =>
    obtain ⟨hcolumns, hoperator, _, hvalues⟩ := h
    rw [Where.handles, Value.handlesOfAll_eq_nil.2 fun c hc => (hcolumns c hc).data, hoperator.1,
      handlesOfAll_params hvalues]
    rfl
  | jsonContains column value negated =>
    obtain ⟨hcolumn, _, vs, _, hvalue⟩ := h
    rw [Where.handles, hcolumn.data, hvalue.data]
    rfl
  | jsonLength column operator value =>
    obtain ⟨hcolumn, _, _, vs, _, hvalue⟩ := h
    rw [Where.handles, hcolumn.data, hvalue.data]
    rfl

theorem HavingHolds.handles_eq {note : Note} {body : Having} (h : HavingHolds g note body) :
    body.handles = [] := by
  cases body with
  | basic column operator value =>
    obtain ⟨hcolumn, _, vs, _, hvalue⟩ := h
    rw [Having.handles, hcolumn.data, hvalue.data]
    rfl
  | raw sql => exact h.1
  | between column values negated =>
    obtain ⟨hcolumn, _, _, _, _, _, _, _, _, _, hvalues⟩ := h
    rw [Having.handles, hcolumn.data, Value.handlesOfAll_eq_nil.2 hvalues]
    rfl
  | null column negated => exact h.1.data

theorem OrderHolds.handles_eq {vs : List Value} {order : Order} (h : OrderHolds g vs order) :
    order.handles = [] := by
  cases order with
  | byColumn column direction => exact h.data
  | raw sql => exact h.1

theorem KindHolds.handles_eq {vs : List Value} {kind : QueryKind} (h : KindHolds g vs kind) :
    kind.handles = [] := by
  cases kind with
  | statement => rfl
  | join type table => rw [QueryKind.handles, h.1.1, h.2.data]; rfl

/-- A noted query refers to its connection, its grammar and what is attached to it. -/
theorem Query.Noted.mem_handles (h : q.Noted g s notes n) {x : Handle} (hx : x ∈ q.handles) :
    (∃ id ∈ q.attachments, x = .query id) ∨ (∃ id, x = .grammar id) ∨
      ∃ id, x = .connection id := by
  have haggregate : (q.aggregate.toList.flatMap fun a =>
      a.function.handles ++ Value.handlesOfAll a.columns) = [] := by
    refine List.flatMap_eq_nil_iff.2 fun a ha => ?_
    obtain ⟨hfunction, hcolumns, _⟩ := h.aggregate a (Option.mem_toList.1 ha)
    rw [hfunction.1, Value.handlesOfAll_eq_nil.2 fun c hc => (hcolumns c hc).data]
    rfl
  have hhavings : (q.havings.flatMap fun c => c.boolean.handles ++ c.body.handles) = [] := by
    refine List.flatMap_eq_nil_iff.2 (forall_of_forall₂ h.havings fun c note hc => ?_)
    rw [hc.1.1, hc.2.handles_eq]
    rfl
  have horders : ∀ {orders : List Order} {vss : List (List Value)},
      List.Forall₂ (fun order vs => OrderHolds g vs order) orders vss →
      orders.flatMap Order.handles = [] :=
    fun hvss => List.flatMap_eq_nil_iff.2 (forall_of_forall₂ hvss fun _ _ hvs => hvs.handles_eq)
  unfold Query.handles at hx
  rw [h.kind.handles_eq, Value.handlesOfAll_eq_nil.2 h.data, haggregate,
    handlesOfAll_columns h.columns, h.sourceData, handlesOfAll_columns h.groups, hhavings,
    horders h.orders, horders h.unionOrders, h.lock.1] at hx
  simp only [List.nil_append, List.append_nil, List.mem_append, or_assoc] at hx
  rcases hx with hx | hx | hx | hx | hx
  · obtain ⟨c, _, rfl⟩ := List.mem_map.1 hx
    exact .inr (.inr ⟨c, rfl⟩)
  · obtain ⟨id, hid, _⟩ := h.grammar
    rw [List.mem_singleton, hid] at hx
    exact .inr (.inl ⟨id, hx⟩)
  · obtain ⟨id, hid, rfl⟩ := List.mem_map.1 hx
    exact .inl ⟨id, Query.mem_attachments_join hid, rfl⟩
  · obtain ⟨c, hc, hx⟩ := List.mem_flatMap.1 hx
    have hholds := forall_of_forall₂ (P := fun c : Condition => c.boolean.handles = [] ∧
        c.body.handles = (c.body.group?.toList ++ c.body.sub?.toList).map .query)
      h.wheres (fun c note hc => ⟨hc.1.1, hc.2.handles_eq⟩) c hc
    rw [hholds.1, hholds.2, List.nil_append] at hx
    obtain ⟨id, hid, rfl⟩ := List.mem_map.1 hx
    refine .inl ⟨id, ?_, rfl⟩
    rcases List.mem_append.1 hid with hid | hid
    · exact Query.mem_attachments_group hc (Option.mem_toList.1 hid)
    · exact Query.mem_attachments_sub (Query.mem_subQueries_where hc (Option.mem_toList.1 hid))
  · obtain ⟨u, hu, hx⟩ := List.mem_flatMap.1 hx
    rw [(h.unions u hu).2, List.append_nil] at hx
    obtain ⟨id, hid, rfl⟩ := List.mem_map.1 hx
    exact .inl ⟨id, Query.mem_attachments_sub
      (Query.mem_subQueries_union hu (Option.mem_toList.1 hid)), rfl⟩

/-! ## What is reachable -/

/-- The queries that are reachable from a complete query are complete, and of a smaller rank but for
the query itself. -/
theorem Store.Noted.reachable (hs : s.Noted g notes) (ht : s.Stands notes t) :
    ∀ id ∈ Store.queriesIn (s.reachable (Store.sharedBy (s.query t)) t),
      s.Stands notes id ∧ (notes id).rank ≤ (notes t).rank := by
  let P : Handle → Prop
    | .query id => s.Stands notes id ∧ (notes id).rank ≤ (notes t).rank
    | .grammar _ | .connection _ => True
    | _ => False
  have hstep : ∀ x, P x → ∀ y ∈ s.handlesOf x, P y := by
    intro x hx y hy
    cases x with
    | query id =>
      rcases (hs.queries id hx.1).mem_handles hy with ⟨a, ha, rfl⟩ | ⟨a, rfl⟩ | ⟨a, rfl⟩
      · obtain ⟨hstands, hrank⟩ := (hs.queries id hx.1).attached a ha
        exact ⟨hstands, Nat.le_trans (Nat.le_of_lt hrank) hx.2⟩
      · exact trivial
      · exact trivial
    | connection id =>
      obtain ⟨gid, hgid⟩ := hs.connections id
      rw [Store.handlesOf, hgid, List.mem_singleton] at hy
      rw [hy]
      exact trivial
    | grammar id => exact absurd hy List.not_mem_nil
    | _ => exact hx.elim
  have hshared : ∀ x ∈ Store.sharedBy (s.query t), P x := by
    intro x hx
    rcases List.mem_append.1 hx with hx | hx
    · obtain ⟨c, _, rfl⟩ := List.mem_map.1 hx
      exact trivial
    · obtain ⟨gid, hgid, _⟩ := (hs.queries t ht).grammar
      rw [List.mem_singleton, hgid] at hx
      rw [hx]
      exact trivial
  have hself : ∀ x ∈ [Handle.query t], P x := by
    intro x hx
    rw [List.mem_singleton.1 hx]
    exact ⟨ht, Nat.le_refl _⟩
  have hseen : ∀ x ∈ Store.sharedBy (s.query t) ++ [.query t], P x := fun x hx =>
    (List.mem_append.1 hx).elim (hshared x) (hself x)
  have hall : ∀ x ∈ s.reachFrom s.size (Store.sharedBy (s.query t) ++ [.query t]) [.query t], P x :=
    Store.reachFrom_forall hstep hseen hself
  intro id hid
  obtain ⟨x, hx, hsome⟩ := List.mem_filterMap.1 hid
  have hP := hall x (List.mem_of_mem_drop hx)
  cases x with
  | query a =>
    cases hsome
    exact hP
  | _ => cases hsome

/-! ## Notes of copies -/

namespace Store

/-- The notes of the copies are those of what is copied. -/
def copiedNotes (s : Store) (handles : List Handle) (notes : QueryId → Notes) (id : QueryId) :
    Notes :=
  if id.index < s.queries.size then notes id
  else ((queriesIn handles)[id.index - s.queries.size]?).elim (notes id) notes

variable {handles : List Handle} {id : QueryId} {k : Nat}

theorem copiedNotes_of_lt (h : id.index < s.queries.size) :
    s.copiedNotes handles notes id = notes id :=
  if_pos h

theorem copiedNotes_copy (h : (queriesIn handles)[k]? = some id) :
    s.copiedNotes handles notes ⟨s.queries.size + k⟩ = notes id := by
  have hge : ¬s.queries.size + k < s.queries.size := Nat.not_lt.2 (Nat.le_add_right _ _)
  rw [copiedNotes, if_neg hge, Nat.add_sub_cancel_left, h]
  rfl

theorem keepsGrammars_addCopies (s : Store) (handles : List Handle) :
    s.KeepsGrammars (s.addCopies handles) := by
  intro gid hlt
  unfold addCopies grammar
  dsimp only
  refine ⟨by rw [Array.size_append]; omega, ?_⟩
  rw [Array.getElem?_append_left hlt]

/-- The grammar of a copy. -/
theorem grammar_addCopies (s : Store) (handles : List Handle) {gid : GrammarId}
    (hlt : gid.index < s.grammars.size) :
    ((s.copyRenaming handles).grammar gid).index < (s.addCopies handles).grammars.size ∧
      (s.addCopies handles).grammar ((s.copyRenaming handles).grammar gid) = s.grammar gid := by
  rcases placeFor_cases (grammarsIn handles) s.grammars.size (·.index) gid with
    ⟨k, hk, hplace⟩ | ⟨_, hplace⟩
  · have hgrammar : (s.copyRenaming handles).grammar gid = ⟨s.grammars.size + k⟩ :=
      congrArg GrammarId.mk hplace
    rw [hgrammar]
    have hbehind : (s.addCopies handles).grammars[s.grammars.size + k]? = some (s.grammar gid) :=
      getElem?_behind hk
    refine ⟨(Array.getElem?_eq_some_iff.1 hbehind).1, ?_⟩
    rw [grammar, hbehind]
    rfl
  · have hgrammar : (s.copyRenaming handles).grammar gid = gid := congrArg GrammarId.mk hplace
    rw [hgrammar]
    exact keepsGrammars_addCopies s handles gid hlt

theorem connections_addCopies (h : ∀ c, ∃ id, (s.connection c).grammar = .grammar id)
    (handles : List Handle) (c : ConnectionId) :
    ∃ id, ((s.addCopies handles).connection c).grammar = .grammar id := by
  unfold addCopies connection
  dsimp only
  by_cases hlt : c.index < s.connections.size
  · rw [Array.getElem?_append_left hlt]
    exact h c
  · rw [Array.getElem?_append_right (Nat.le_of_not_lt hlt), List.getElem?_toArray,
      List.getElem?_map]
    cases (connectionsIn handles)[c.index - s.connections.size]? with
    | none => exact ⟨⟨0⟩, rfl⟩
    | some source =>
      obtain ⟨gid, hgid⟩ := h source
      refine ⟨(s.copyRenaming handles).grammar gid, ?_⟩
      show (s.copyRenaming handles).compiler (s.connection source).grammar = _
      rw [hgid]
      rfl

end Store

/-! ## Copies -/

section

variable {handles : List Handle}

/-- A complete query and what takes its place have the same values and notes. -/
private theorem copied_same (hs : s.Noted g notes)
    (hstand : ∀ id ∈ Store.queriesIn handles, s.Stands notes id) {id : QueryId}
    (hid : id.index < s.queries.size) :
    ((s.copyRenaming handles).query id).index < (s.addCopies handles).queries.size ∧
      ((s.addCopies handles).query ((s.copyRenaming handles).query id)).bindings =
        (s.query id).bindings ∧
      s.copiedNotes handles notes ((s.copyRenaming handles).query id) = notes id := by
  rcases Store.placeFor_cases (Store.queriesIn handles) s.queries.size (·.index) id with
    ⟨k, hk, hplace⟩ | ⟨_, hplace⟩
  · have hquery : (s.copyRenaming handles).query id = ⟨s.queries.size + k⟩ :=
      congrArg QueryId.mk hplace
    have hnoted := hs.queries id (hstand id (List.mem_of_getElem? hk))
    rw [hquery, Store.query_addCopies_copy hk, Store.copiedNotes_copy hk, hnoted.rename_eq]
    exact ⟨Store.lt_addCopies hk, rfl, rfl⟩
  · have hquery : (s.copyRenaming handles).query id = id := congrArg QueryId.mk hplace
    rw [hquery, Store.query_addCopies_of_lt hid, Store.copiedNotes_of_lt hid, Store.size_addCopies]
    exact ⟨by omega, rfl, rfl⟩

/-- The copies of complete queries are noted. -/
theorem Later.addCopies (hs : s.Noted g notes)
    (hstand : ∀ id ∈ Store.queriesIn handles, s.Stands notes id) :
    Later g mine avail s notes (s.addCopies handles) (s.copiedNotes handles notes) := by
  have hsize : s.queries.size ≤ (s.addCopies handles).queries.size := by
    rw [Store.size_addCopies]
    omega
  have hgrammars := s.keepsGrammars_addCopies handles
  have hold : ∀ id : QueryId, id.index < s.queries.size →
      (s.addCopies handles).query id = s.query id ∧ s.copiedNotes handles notes id = notes id :=
    fun id hid => ⟨Store.query_addCopies_of_lt hid, Store.copiedNotes_of_lt hid⟩
  have hcopy : ∀ k id, (Store.queriesIn handles)[k]? = some id →
      ((s.addCopies handles).query ⟨s.queries.size + k⟩).Noted g (s.addCopies handles)
        (s.copiedNotes handles notes) (notes id) ∧
      ((s.addCopies handles).query ⟨s.queries.size + k⟩).attachments =
        (s.query id).attachments.map (s.copyRenaming handles).query := by
    intro k id hk
    have hid := hstand id (List.mem_of_getElem? hk)
    have hnoted := hs.queries id hid
    rw [Store.query_addCopies_copy hk, hnoted.rename_eq, Query.attachments_moved]
    refine ⟨hnoted.moved ?_ fun a ha => ?_, rfl⟩
    · obtain ⟨gid, hgid, hlt, hg⟩ := hnoted.grammar
      obtain ⟨hlt', hsame⟩ := s.grammar_addCopies handles hlt
      rw [hgid]
      exact ⟨_, rfl, hlt', hsame.trans hg⟩
    · exact copied_same hs hstand (hs.attachment_lt hid.1 ha)
  refine ⟨⟨?_, ?_, ?_, Store.connections_addCopies hs.connections handles⟩, hgrammars, .refl s,
    hsize, fun id hid _ => hold id hid, ?_, ?_⟩
  · rintro id ⟨hid, hclosed⟩
    rcases Store.old_or_copy hid with hlt | ⟨k, source, hk, rfl⟩
    · rw [(hold id hlt).2] at hclosed
      rw [(hold id hlt).1, (hold id hlt).2]
      exact (hs.queries id ⟨hlt, hclosed⟩).later hgrammars hsize
        fun a ha => hold a (hs.attachment_lt hlt ha)
    · rw [Store.copiedNotes_copy hk]
      exact (hcopy k source hk).1
  · intro id hid
    rcases Store.old_or_copy hid with hlt | ⟨k, source, hk, rfl⟩
    · rw [(hold id hlt).1]
      exact hs.still id hlt
    · exact (hcopy k source hk).1.still
  · intro id hid a ha
    rcases Store.old_or_copy hid with hlt | ⟨k, source, hk, rfl⟩
    · rw [(hold id hlt).1] at ha
      exact Nat.lt_of_lt_of_le (hs.present id hlt a ha) hsize
    · exact ((hcopy k source hk).1.attached a ha).1.1
  · intro out haside x hx _ hheld id hid hin
    rcases Store.old_or_copy hid with hlt | ⟨k, source, hk, rfl⟩
    · rw [(hold id hlt).1] at hin
      exact hheld id hlt hin
    · -- What is copied is complete, so it is not set aside.
      obtain ⟨hsource, hclosed⟩ := hstand source (List.mem_of_getElem? hk)
      rw [(hcopy k source hk).2] at hin
      obtain ⟨a, ha, hmoved⟩ := List.mem_map.1 hin
      rcases Store.placeFor_cases (Store.queriesIn handles) s.queries.size (·.index) a with
        ⟨j, _, hplace⟩ | ⟨_, hplace⟩
      · have hindex : x.index = s.queries.size + j := by
          rw [← hmoved]
          exact hplace
        omega
      · have hsame : x = a := by
          rw [← hmoved]
          exact congrArg QueryId.mk hplace
        have hopen := (haside source (hheld source hsource (hsame ▸ ha))).2.2
        exact absurd (hopen.symm.trans hclosed) Bool.false_ne_true
  · intro id hid
    rw [(hold id hid).1, (hold id hid).2]
    exact .refl _ _

end

/-- The copy of a query is the first of the copies that are made with it. -/
theorem QueryId.ran_copied {c : QueryId} (h : Ran t.copy s c s') :
    ∃ handles, handles = s.reachable (Store.sharedBy (s.query t)) t ∧
      s' = s.addCopies handles ∧ (Store.queriesIn handles)[0]? = some t ∧
      c = ⟨s.queries.size + 0⟩ := by
  unfold QueryId.copy at h
  obtain ⟨s1, s2, hget, hrest⟩ := ran_bind.1 h
  obtain ⟨h1, h2⟩ := ran_get.1 hget
  rw [h1, h2] at hrest
  dsimp only at hrest
  split at hrest
  · obtain ⟨_, _, hthrow, _⟩ := ran_bind.1 hrest
    exact absurd hthrow ran_throw
  · simp only [ran_bind, ran_set, ran_pure] at hrest
    obtain ⟨_, s3, rfl, rfl, rfl⟩ := hrest
    obtain ⟨found, _, hfound, _⟩ := s.reachable_eq (Store.sharedBy (s.query t)) t
    refine ⟨_, rfl, rfl, by rw [hfound]; rfl, ?_⟩
    rw [hfound]
    show (⟨Store.placeFor (t :: Store.queriesIn found) s.queries.size (·.index) t⟩ : QueryId) = _
    rw [Store.placeFor, List.idxOf?_cons, if_pos (beq_self_eq_true t)]

/-- The copy of a query stands on its own, with the same clauses and the same values. -/
theorem Store.Noted.ran_copy (hs : s.Noted g notes) (ht : s.Stands notes t) {c : QueryId}
    (hran : Ran t.copy s c s') :
    ∃ notes', Later g mine avail s notes s' notes' ∧ s'.Stands notes' c ∧ notes' c = notes t ∧
      s.queries.size ≤ c.index ∧ s'.Unattached c ∧ ∃ r, s'.query c = (s.query t).moved r := by
  obtain ⟨handles, hhandles, rfl, hfirst, hplace⟩ := QueryId.ran_copied hran
  have hreached := hs.reachable ht
  rw [← hhandles] at hreached
  have hstand := fun id hid => (hreached id hid).1
  have hlater : Later g mine avail s notes (s.addCopies handles) _ := .addCopies hs hstand
  have hnotes : s.copiedNotes handles notes c = notes t := by
    rw [hplace]
    exact Store.copiedNotes_copy hfirst
  refine ⟨_, hlater, ⟨?_, ?_⟩, hnotes, ?_, ?_, s.copyRenaming handles, ?_⟩
  · rw [hplace]
    exact Store.lt_addCopies hfirst
  · rw [hnotes]
    exact ht.2
  · rw [hplace]
    exact Nat.le_refl _
  · -- What is attached to a copy has a smaller rank than the query.
    intro id hid hin
    rw [hplace] at hin
    have hlt := hlater.noted.present id hid _ hin
    rcases Store.old_or_copy hid with hold | ⟨k, source, hk, rfl⟩
    · rw [Store.query_addCopies_of_lt hold] at hin
      exact absurd (hs.present id hold _ hin) (Nat.lt_irrefl _)
    · obtain ⟨hsource, hrank⟩ := hreached source (List.mem_of_getElem? hk)
      have hstands : (s.addCopies handles).Stands (s.copiedNotes handles notes)
          ⟨s.queries.size + k⟩ := by
        refine ⟨hid, ?_⟩
        rw [Store.copiedNotes_copy hk]
        exact hsource.2
      have hless := ((hlater.noted.queries _ hstands).attached _ hin).2
      rw [Store.copiedNotes_copy hfirst, Store.copiedNotes_copy hk] at hless
      omega
  · rw [hplace, Store.query_addCopies_copy hfirst, (hs.queries t ht).rename_eq]

end

/-! ## Aggregates over the rows of a query -/

namespace Query

/-- A query without a select list, unless it is a union. -/
def unlisted (q : Query) : Query :=
  if q.isUnion then q else { q.rebind .select [] with columns := none }

/-- A query with a function over its rows in the place of its select list.  Without groups it loses
its ordering. -/
def aggregated (a : Aggregate) (q : Query) : Query :=
  let aggregated := { q.unlisted with aggregate := some a }
  if aggregated.groups.isEmpty then aggregated.unordered else aggregated

end Query

section

variable {g : Grammar} {s s' : Store} {notes : QueryId → Notes} {n : Notes} {q : Query}
variable {t : QueryId}

theorem Query.Noted.unlisted (h : q.Noted g s notes n) (hplain : q.aggregate = none) :
    ∃ n' : Notes, q.unlisted.Noted g s notes n' ∧ n'.whole = n.whole ∧ n'.closed = n.closed ∧
      (q.unlisted.isUnion = true ∨ q.unlisted.bindings.select = []) := by
  unfold Query.unlisted
  split
  · rename_i hunion
    exact ⟨n, h, rfl, rfl, .inl hunion⟩
  · exact ⟨_, h.clearColumns hplain rfl, rfl, rfl, .inr rfl⟩

theorem Query.Noted.aggregated (h : q.Noted g s notes n) (hplain : q.aggregate = none)
    {a : Aggregate} (hfunction : WordHolds a.function)
    (hcolumns : ∀ c ∈ a.columns, ColumnHolds g c []) :
    ∃ n' : Notes, (q.aggregated a).Noted g s notes n' ∧ n'.whole = n.whole ∧
      n'.closed = n.closed := by
  obtain ⟨n', hunlisted, hwhole, hclosed, hselect⟩ := h.unlisted hplain
  have hall := hunlisted.setAggregate hfunction hcolumns hselect
  unfold Query.aggregated
  dsimp only
  split
  · exact ⟨_, hall.unordered, hwhole, hclosed⟩
  · exact ⟨n', hall, hwhole, hclosed⟩

end

end FluentSql
