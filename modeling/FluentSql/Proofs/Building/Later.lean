import FluentSql.Proofs.Building.Noting
import Mathlib.Data.Set.Insert

/-!
# What calls leave as it was

A fluent call changes the query that it is made on, makes queries of its own
and attaches some to others.  All other queries stay as they were, and so do
their notes.

* `Store.Unattached` says that no query refers to a query, and `Store.HeldBy`
  that only some do.  A query may change while others refer to it if those
  are set aside, as `Store.Aside` says: they count as not complete.
* `Later` compares two noted stores: some queries may have changed, and some
  may have been attached.  `Later.refl` and `Later.trans` compose it.
* `Later.edit` is a change of one query, and `Later.add` a new query.
* `Query.Noted.moved` says that the notes of a query still fit it if the
  queries that are attached to it have moved, and `Query.Noted.later` that
  they do if those queries are as they were.
-/

namespace FluentSql

/-- No query refers to a query. -/
def Store.Unattached (s : Store) (t : QueryId) : Prop :=
  ∀ id : QueryId, id.index < s.queries.size → t ∉ (s.query id).attachments

/-- Only some queries refer to a query. -/
def Store.HeldBy (s : Store) (out : Set QueryId) (t : QueryId) : Prop :=
  ∀ id : QueryId, id.index < s.queries.size → t ∈ (s.query id).attachments → id ∈ out

/-- Some queries are set aside while others change: they do not change, and they are not complete. -/
def Store.Aside (s : Store) (notes : QueryId → Notes) (mine out : Set QueryId) : Prop :=
  ∀ id ∈ out, id.index < s.queries.size ∧ id ∉ mine ∧ (notes id).closed = false

/-- All that refers to a query is set aside. -/
def Store.Loose (s : Store) (notes : QueryId → Notes) (t : QueryId) : Prop :=
  ∃ out, s.Aside notes {t} out ∧ s.HeldBy out t

/-- The grammars of a store are still there. -/
def Store.KeepsGrammars (s s' : Store) : Prop :=
  ∀ id : GrammarId, id.index < s.grammars.size →
    id.index < s'.grammars.size ∧ s'.grammar id = s.grammar id

/-- The callbacks of a store are still there. -/
def Store.KeepsCallbacks (s s' : Store) : Prop :=
  ∀ (id : CallbackId) (callback : Callback), s.callbacks[id.index]? = some callback →
    s'.callbacks[id.index]? = some callback

/-- A query with its joined table, its grammar and its aggregate as they were; its source is noted
if it was. -/
structure SameFrame (q : Query) (n : Notes) (q' : Query) (n' : Notes) : Prop where
  table : n'.table = n.table
  whole : n'.whole = n.whole
  grammar : q'.grammar = q.grammar
  aggregate : q'.aggregate = q.aggregate

theorem SameFrame.refl (q : Query) (n : Notes) : SameFrame q n q n :=
  ⟨rfl, rfl, rfl, rfl⟩

theorem SameFrame.trans {q q1 q2 : Query} {n n1 n2 : Notes} (h : SameFrame q n q1 n1)
    (h1 : SameFrame q1 n1 q2 n2) : SameFrame q n q2 n2 :=
  ⟨h1.table.trans h.table, h1.whole.trans h.whole, h1.grammar.trans h.grammar,
    h1.aggregate.trans h.aggregate⟩

/-- A noted store after another one, from which only queries of `mine` have changed and only
queries of `avail` have been attached. -/
structure Later (g : Grammar) (mine avail : Set QueryId) (s : Store) (notes : QueryId → Notes)
    (s' : Store) (notes' : QueryId → Notes) : Prop where
  noted : s'.Noted g notes'
  grammars : s.KeepsGrammars s'
  callbacks : s.KeepsCallbacks s'
  size : s.queries.size ≤ s'.queries.size
  others : ∀ id : QueryId, id.index < s.queries.size → id ∉ mine →
    s'.query id = s.query id ∧ notes' id = notes id
  held : ∀ out, s.Aside notes mine out → ∀ id : QueryId, id.index < s.queries.size → id ∉ avail →
    s.HeldBy out id → s'.HeldBy out id
  kept : ∀ id : QueryId, id.index < s.queries.size →
    SameFrame (s.query id) (notes id) (s'.query id) (notes' id)

section

variable {g : Grammar} {s s' s1 s2 : Store} {notes notes' notes1 notes2 : QueryId → Notes}
variable {mine mine1 avail avail1 : Set QueryId} {n : Notes} {q : Query} {t : QueryId}

theorem Store.KeepsGrammars.refl (s : Store) : s.KeepsGrammars s :=
  fun _ h => ⟨h, rfl⟩

theorem Store.KeepsGrammars.trans (h : s.KeepsGrammars s1) (h1 : s1.KeepsGrammars s2) :
    s.KeepsGrammars s2 := by
  intro id hid
  obtain ⟨hid1, hsame⟩ := h id hid
  obtain ⟨hid2, hsame1⟩ := h1 id hid1
  exact ⟨hid2, hsame1.trans hsame⟩

theorem Store.KeepsCallbacks.refl (s : Store) : s.KeepsCallbacks s :=
  fun _ _ h => h

theorem Store.KeepsCallbacks.trans (h : s.KeepsCallbacks s1) (h1 : s1.KeepsCallbacks s2) :
    s.KeepsCallbacks s2 :=
  fun id callback hid => h1 id callback (h id callback hid)

/-- A query to which no other refers may change. -/
theorem Store.Unattached.loose (h : s.Unattached t) : s.Loose notes t :=
  ⟨∅, fun _ hid => (nomatch hid), fun id hid hin => absurd hin (h id hid)⟩

/-- A query to which one refers that is complete is not loose, and no loose query refers to
itself. -/
theorem Store.Loose.not_held (h : s.Loose notes t) {id : QueryId} (hid : id.index < s.queries.size)
    (hclosed : id = t ∨ (notes id).closed = true) : t ∉ (s.query id).attachments := by
  obtain ⟨out, haside, hheld⟩ := h
  intro hin
  obtain ⟨_, hne, hopen⟩ := haside id (hheld id hid hin)
  rcases hclosed with rfl | hclosed
  · exact hne rfl
  · exact Bool.false_ne_true (hopen.symm.trans hclosed)

/-- What is attached to a query that is complete is there. -/
theorem Store.Noted.attachment_lt (hs : s.Noted g notes) {id a : QueryId}
    (hid : id.index < s.queries.size) (ha : a ∈ (s.query id).attachments) :
    a.index < s.queries.size :=
  hs.present id hid a ha

/-! ## Notes that still fit -/

/-- Two functions that agree on a list agree in a zip with it. -/
theorem zipWith_congr_left {α β γ : Type} {f f' : α → β → γ} {xs : List α} {ys : List β}
    (h : ∀ x ∈ xs, ∀ y, f x y = f' x y) : List.zipWith f xs ys = List.zipWith f' xs ys := by
  induction xs generalizing ys with
  | nil => rfl
  | cons x xs ih =>
    cases ys with
    | nil => rfl
    | cons y ys =>
      rw [List.zipWith_cons_cons, List.zipWith_cons_cons, h x List.mem_cons_self,
        ih fun x hx => h x (List.mem_cons_of_mem _ hx)]

private theorem WhereHolds.moved {note : Note} {body : Where} (h : WhereHolds g note body)
    (f : QueryId → QueryId) : WhereHolds g note (body.moved f) := by
  cases body with
  | «exists» query negated => exact ⟨by rw [Option.isSome_map]; exact h.1, h.2⟩
  | _ => exact h

/-- The notes of a query fit it after what is attached to it has moved.  It must be complete there,
with the same values. -/
theorem Query.Noted.moved (h : q.Noted g s notes n) {r : Renaming}
    (hgrammar : ∃ id, r.compiler q.grammar = .grammar id ∧ id.index < s'.grammars.size ∧
      s'.grammar id = g)
    (hsame : ∀ id ∈ q.attachments, (r.query id).index < s'.queries.size ∧
      (s'.query (r.query id)).bindings = (s.query id).bindings ∧
      notes' (r.query id) = notes id) : (q.moved r).Noted g s' notes' n := by
  have hjoin : ∀ id ∈ q.joins, _ := fun id hid => hsame id (Query.mem_attachments_join hid)
  have hsub : ∀ id ∈ q.subQueries, _ := fun id hid => hsame id (Query.mem_attachments_sub hid)
  have hvalues : ∀ c ∈ q.wheres, ∀ note,
      (c.body.moved r.query).valuesIn s' note = c.body.valuesIn s note := by
    intro c hc note
    cases hbody : c.body with
    | nested query =>
      have hid : query ∈ q.attachments :=
        Query.mem_attachments_group hc (by rw [hbody]; exact rfl)
      show (s'.query (r.query query)).bindings.condition = (s.query query).bindings.condition
      rw [(hsame query hid).2.1]
    | sub column operator query =>
      have hid : query ∈ q.subQueries :=
        Query.mem_subQueries_where hc (by rw [hbody]; exact rfl)
      show note.column ++ (s'.query (r.query query)).bindings.flatten =
        note.column ++ (s.query query).bindings.flatten
      rw [(hsub query hid).2.1]
    | «exists» query negated =>
      cases query with
      | none => rfl
      | some query =>
        have hid : query ∈ q.subQueries :=
          Query.mem_subQueries_where hc (by rw [hbody]; exact rfl)
        show (s'.query (r.query query)).bindings.flatten = (s.query query).bindings.flatten
        rw [(hsub query hid).2.1]
    | _ => rfl
  exact { h with
    grammar := hgrammar
    aggregate := fun a ha => by
      obtain ⟨hfunction, hcolumns, hselect⟩ := h.aggregate a ha
      refine ⟨hfunction, hcolumns, ?_⟩
      rw [Query.isUnion, Query.moved, List.isEmpty_map]
      exact hselect
    join := by
      show q.bindings.join = _
      rw [h.join, Query.moved, List.flatMap_map]
      refine List.flatMap_congr fun id hid => ?_
      rw [(hjoin id hid).2.1, (hjoin id hid).2.2]
    wheres := by
      refine List.forall₂_map_left_iff.2 (h.wheres.imp fun c note hc => ?_)
      exact ⟨hc.1, hc.2.moved r.query⟩
    condition := by
      show q.bindings.condition = _
      rw [h.condition, Query.moved, List.zipWith_map_left]
      congr 1
      exact zipWith_congr_left fun c hc note => (hvalues c hc note).symm
    unions := by
      intro u hu
      obtain ⟨u, hmem, rfl⟩ := List.mem_map.1 hu
      refine ⟨?_, (h.unions u hmem).2⟩
      rw [Option.isSome_map]
      exact (h.unions u hmem).1
    union := by
      show q.bindings.union = _
      have hmembers : (q.moved r).unions.filterMap (·.member) =
          (q.unions.filterMap (·.member)).map r.query := by
        rw [Query.moved, List.filterMap_map, List.map_filterMap]
        rfl
      rw [h.union, hmembers, List.flatMap_map]
      refine List.flatMap_congr fun id hid => ?_
      have hid : id ∈ q.subQueries := List.mem_append_right _ hid
      rw [(hsub id hid).2.1]
    unionOnly := by
      intro hnone
      rw [Query.isUnion, Query.moved, List.isEmpty_map] at hnone
      exact h.unionOnly hnone
    attached := by
      intro id hid
      rw [Query.attachments_moved] at hid
      obtain ⟨id, hmem, rfl⟩ := List.mem_map.1 hid
      obtain ⟨hlt, _, hnotes⟩ := hsame id hmem
      obtain ⟨⟨_, hclosed⟩, hrank⟩ := h.attached id hmem
      rw [hnotes]
      exact ⟨⟨hlt, hnotes ▸ hclosed⟩, hrank⟩
    joins := by
      intro id hid
      obtain ⟨id, hmem, rfl⟩ := List.mem_map.1 hid
      unfold Query.OnlyConditions
      rw [(hjoin id hmem).2.1]
      exact h.joins id hmem
    subQueries := by
      intro id hid
      rw [Query.subQueries_moved] at hid
      obtain ⟨id, hmem, rfl⟩ := List.mem_map.1 hid
      rw [(hsub id hmem).2.2]
      exact h.subQueries id hmem }

/-- The notes of a query fit it after changes elsewhere. -/
theorem Query.Noted.later (h : q.Noted g s notes n) (hgrammars : s.KeepsGrammars s')
    (hsize : s.queries.size ≤ s'.queries.size)
    (hsame : ∀ id ∈ q.attachments, s'.query id = s.query id ∧ notes' id = notes id) :
    q.Noted g s' notes' n := by
  have hmoved : (q.moved {}).Noted g s' notes' n := by
    refine h.moved ?_ fun id hid => ?_
    · obtain ⟨id, hid, hlt, hg⟩ := h.grammar
      obtain ⟨hlt', hsame'⟩ := hgrammars id hlt
      rw [hid]
      exact ⟨id, rfl, hlt', hsame'.trans hg⟩
    · obtain ⟨⟨hlt, _⟩, _⟩ := h.attached id hid
      obtain ⟨hquery, hnotes⟩ := hsame id hid
      exact ⟨Nat.lt_of_lt_of_le hlt hsize, congrArg Query.bindings hquery, hnotes⟩
  rwa [q.moved_same rfl rfl rfl] at hmoved

/-- What is complete in a later store after changes elsewhere was complete before. -/
private theorem noted_of_same (hs : s.Noted g notes) (hgrammars : s.KeepsGrammars s')
    (hsize : s.queries.size ≤ s'.queries.size) {id : QueryId} (hid : id.index < s.queries.size)
    (hclosed : (notes' id).closed = true)
    (hself : s'.query id = s.query id ∧ notes' id = notes id)
    (hsame : ∀ a ∈ (s.query id).attachments, s'.query a = s.query a ∧ notes' a = notes a) :
    (s'.query id).Noted g s' notes' (notes' id) := by
  rw [hself.1, hself.2]
  exact (hs.queries id ⟨hid, hself.2 ▸ hclosed⟩).later hgrammars hsize hsame

/-- A store stays noted after a change of one query if all that refers to it is set aside.  The query
is noted again, or it is not complete yet. -/
theorem Store.Noted.edit (hs : s.Noted g notes) (ht : t.index < s.queries.size)
    (hloose : s.Loose notes t) {f : Query → Query}
    (hq : n.closed = true → (f (s.query t)).Noted g s notes n) (hstill : (f (s.query t)).Still)
    (hattach : ∀ id ∈ (f (s.query t)).attachments,
      id ∈ (s.query t).attachments ∨ id ≠ t ∧ id.index < s.queries.size) :
    (s.edit t f).Noted g (Function.update notes t n) := by
  have hsize : (s.edit t f).queries.size = s.queries.size := s.size_edit t f
  have hgrammars : s.KeepsGrammars (s.edit t f) := fun _ h => ⟨h, rfl⟩
  have hself : (s.edit t f).query t = f (s.query t) := Store.query_edit_self ht f
  have hother : ∀ id ≠ t, (s.edit t f).query id = s.query id ∧
      Function.update notes t n id = notes id :=
    fun id hid => ⟨Store.query_edit_of_ne hid f, Function.update_of_ne hid n notes⟩
  have hnew : ∀ a ∈ (f (s.query t)).attachments, a ≠ t ∧ a.index < s.queries.size := by
    intro a ha
    rcases hattach a ha with hin | hin
    · exact ⟨fun hat => hloose.not_held ht (.inl rfl) (hat ▸ hin), hs.present t ht a hin⟩
    · exact hin
  refine ⟨?_, ?_, ?_, hs.connections⟩
  · rintro id ⟨hid, hclosed⟩
    rw [hsize] at hid
    by_cases hidt : id = t
    · subst hidt
      rw [Function.update_self] at hclosed
      rw [hself, Function.update_self]
      exact (hq hclosed).later hgrammars (Nat.le_of_eq hsize.symm)
        fun a ha => hother a (hnew a ha).1
    · refine noted_of_same hs hgrammars (Nat.le_of_eq hsize.symm) hid hclosed (hother id hidt)
        fun a ha => hother a fun hat => ?_
      rw [(hother id hidt).2] at hclosed
      exact hloose.not_held hid (.inr hclosed) (hat ▸ ha)
  · intro id hid
    rw [hsize] at hid
    by_cases hidt : id = t
    · rw [hidt, hself]
      exact hstill
    · rw [(hother id hidt).1]
      exact hs.still id hid
  · intro id hid a ha
    rw [hsize] at hid ⊢
    by_cases hidt : id = t
    · rw [hidt, hself] at ha
      exact (hnew a ha).2
    · rw [(hother id hidt).1] at ha
      exact hs.present id hid a ha

/-! ## Composition -/

namespace Later

theorem refl (hs : s.Noted g notes) : Later g mine avail s notes s notes where
  noted := hs
  grammars := .refl s
  callbacks := .refl s
  size := Nat.le_refl _
  others _ _ _ := ⟨rfl, rfl⟩
  held _ _ _ _ _ h := h
  kept _ _ := .refl _ _

/-- What the second of two steps changes or attaches, the whole may, unless it is new. -/
theorem trans (h : Later g mine avail s notes s1 notes1)
    (h1 : Later g mine1 avail1 s1 notes1 s2 notes2)
    (hmine : ∀ id ∈ mine1, id.index < s.queries.size → id ∈ mine)
    (havail : ∀ id ∈ avail1, id.index < s.queries.size → id ∈ avail) :
    Later g mine avail s notes s2 notes2 where
  noted := h1.noted
  grammars := h.grammars.trans h1.grammars
  callbacks := h.callbacks.trans h1.callbacks
  size := Nat.le_trans h.size h1.size
  others id hid hnot := by
    have hsize := h.size
    obtain ⟨hquery, hnotes⟩ := h.others id hid hnot
    obtain ⟨hquery1, hnotes1⟩ := h1.others id (by omega) fun hin => hnot (hmine id hin hid)
    exact ⟨hquery1.trans hquery, hnotes1.trans hnotes⟩
  held out haside id hid hnot hheld := by
    have hsize := h.size
    have haside1 : s1.Aside notes1 mine1 out := by
      intro x hx
      obtain ⟨hlt, hother, hopen⟩ := haside x hx
      refine ⟨by omega, fun hin => hother (hmine x hin hlt), ?_⟩
      rw [(h.others x hlt hother).2]
      exact hopen
    have hheld1 := h.held out haside id hid hnot hheld
    exact h1.held out haside1 id (by omega) (fun hin => hnot (havail id hin hid)) hheld1
  kept id hid := by
    have hsize := h.size
    exact (h.kept id hid).trans (h1.kept id (by omega))

/-- Two steps that change the same queries. -/
theorem trans_same (h : Later g mine avail s notes s1 notes1)
    (h1 : Later g mine avail s1 notes1 s2 notes2) : Later g mine avail s notes s2 notes2 :=
  h.trans h1 (fun _ hid _ => hid) fun _ hid _ => hid

/-- More queries may have changed and may have been attached. -/
theorem mono (h : Later g mine1 avail1 s notes s' notes') (hmine : mine1 ⊆ mine)
    (havail : avail1 ⊆ avail) : Later g mine avail s notes s' notes' :=
  { h with
    others := fun id hid hnot => h.others id hid fun hin => hnot (hmine hin)
    held := fun out haside id hid hnot =>
      h.held out (fun x hx => (haside x hx).imp_right fun hx => hx.imp_left fun hnot hin =>
        hnot (hmine hin)) id hid fun hin => hnot (havail hin) }

/-- A query that has not changed stands as it did. -/
theorem stands (h : Later g mine avail s notes s' notes') {id : QueryId} (hid : s.Stands notes id)
    (hnot : id ∉ mine) : s'.Stands notes' id := by
  have hsize := h.size
  refine ⟨Nat.lt_of_lt_of_le hid.1 hsize, ?_⟩
  rw [(h.others id hid.1 hnot).2]
  exact hid.2

/-! ## Steps -/

/-- A change of one query, with all that refers to it set aside.  Afterwards it is noted again, or it
is not complete yet. -/
theorem edit (hs : s.Noted g notes) (ht : t.index < s.queries.size) (hloose : s.Loose notes t)
    (hnot : t ∉ avail) {f : Query → Query}
    (hq : n.closed = true → (f (s.query t)).Noted g s notes n) (hstill : (f (s.query t)).Still)
    (hattach : ∀ id ∈ (f (s.query t)).attachments,
      id ∈ (s.query t).attachments ∨ id ∈ avail ∧ id.index < s.queries.size)
    (hkept : SameFrame (s.query t) (notes t) (f (s.query t)) n) :
    Later g {t} avail s notes (s.edit t f) (Function.update notes t n) := by
  have hsize : (s.edit t f).queries.size = s.queries.size := s.size_edit t f
  have hself : (s.edit t f).query t = f (s.query t) := Store.query_edit_self ht f
  have hother : ∀ id ≠ t, (s.edit t f).query id = s.query id ∧
      Function.update notes t n id = notes id :=
    fun id hid => ⟨Store.query_edit_of_ne hid f, Function.update_of_ne hid n notes⟩
  refine ⟨hs.edit ht hloose hq hstill ?_, .refl s, .refl s, Nat.le_of_eq hsize.symm,
    fun id _ hid => hother id hid, ?_, ?_⟩
  · intro id hid
    refine (hattach id hid).imp_right fun ⟨hin, hlt⟩ => ⟨?_, hlt⟩
    rintro rfl
    exact hnot hin
  · intro out _ x _ hx hheld id hid hin
    rw [hsize] at hid
    by_cases hidt : id = t
    · rw [hidt, hself] at hin
      exact (hattach x hin).elim (fun hin => hidt ▸ hheld t ht hin) fun hin => absurd hin.1 hx
    · rw [(hother id hidt).1] at hin
      exact hheld id hid hin
  · intro id _
    by_cases hidt : id = t
    · rw [hidt, hself, Function.update_self]
      exact hkept
    · rw [(hother id hidt).1, (hother id hidt).2]
      exact .refl _ _

/-- A new query to which nothing is attached. -/
theorem add (hs : s.Noted g notes) (hq : q.Noted g s notes n) (hnone : q.attachments = []) :
    Later g mine avail s notes (s.add q) (Function.update notes s.next n) := by
  have hsize : (s.add q).queries.size = s.queries.size + 1 := s.size_add q
  have hgrammars : s.KeepsGrammars (s.add q) := .refl s
  have hnew : (s.add q).query s.next = q := s.query_add_next q
  have hlt : ∀ {id : QueryId}, id.index < s.queries.size + 1 → id ≠ s.next →
      id.index < s.queries.size := by
    rintro ⟨index⟩ hid hne
    have hindex : index ≠ s.queries.size := fun he => hne (congrArg QueryId.mk he)
    have hle : index < s.queries.size + 1 := hid
    show index < s.queries.size
    omega
  have hold : ∀ id : QueryId, id.index < s.queries.size → (s.add q).query id = s.query id ∧
      Function.update notes s.next n id = notes id := by
    intro id hid
    refine ⟨Store.query_add_of_lt hid q, Function.update_of_ne ?_ n notes⟩
    rintro rfl
    exact absurd hid (Nat.lt_irrefl _)
  refine ⟨⟨?_, ?_, ?_, hs.connections⟩, hgrammars, .refl s, ?_, fun id hid _ => hold id hid, ?_,
    ?_⟩
  · rintro id ⟨hid, hclosed⟩
    rw [hsize] at hid
    by_cases hidn : id = s.next
    · subst hidn
      rw [hnew, Function.update_self]
      refine hq.later hgrammars (by omega) fun a ha => ?_
      rw [hnone] at ha
      exact nomatch ha
    · have hid := hlt hid hidn
      exact noted_of_same hs hgrammars (by omega) hid hclosed (hold id hid)
        fun a ha => hold a (hs.present id hid a ha)
  · intro id hid
    rw [hsize] at hid
    by_cases hidn : id = s.next
    · rw [hidn, hnew]
      exact hq.still
    · rw [(hold id (hlt hid hidn)).1]
      exact hs.still id (hlt hid hidn)
  · intro id hid a ha
    rw [hsize] at hid ⊢
    by_cases hidn : id = s.next
    · rw [hidn, hnew, hnone] at ha
      exact nomatch ha
    · rw [(hold id (hlt hid hidn)).1] at ha
      exact Nat.lt_succ_of_lt (hs.present id (hlt hid hidn) a ha)
  · omega
  · intro out _ x _ _ hheld id hid hin
    rw [hsize] at hid
    by_cases hidn : id = s.next
    · rw [hidn, hnew, hnone] at hin
      exact nomatch hin
    · rw [(hold id (hlt hid hidn)).1] at hin
      exact hheld id (hlt hid hidn) hin
  · intro id hid
    rw [(hold id hid).1, (hold id hid).2]
    exact .refl _ _

/-- Changes beside the queries. -/
theorem beside (hs : s.Noted g notes) (hqueries : s'.queries = s.queries)
    (hgrammars : s.KeepsGrammars s') (hcallbacks : s.KeepsCallbacks s')
    (hconnections : ∀ c, ∃ id, (s'.connection c).grammar = .grammar id) :
    Later g mine avail s notes s' notes := by
  have hquery : ∀ id, s'.query id = s.query id := fun id => by
    unfold Store.query
    rw [hqueries]
  refine ⟨⟨?_, ?_, ?_, hconnections⟩, hgrammars, hcallbacks, ?_,
    fun id _ _ => ⟨hquery id, rfl⟩, ?_, ?_⟩
  · rintro id ⟨hid, hclosed⟩
    rw [hqueries] at hid
    exact noted_of_same hs hgrammars (Nat.le_of_eq (congrArg Array.size hqueries).symm) hid hclosed
      ⟨hquery id, rfl⟩ fun a _ => ⟨hquery a, rfl⟩
  · intro id hid
    rw [hqueries] at hid
    rw [hquery]
    exact hs.still id hid
  · intro id hid a ha
    rw [hqueries] at hid ⊢
    rw [hquery] at ha
    exact hs.present id hid a ha
  · rw [hqueries]
  · intro out _ x _ _ hheld id hid hin
    rw [hqueries] at hid
    rw [hquery] at hin
    exact hheld id hid hin
  · intro id _
    rw [hquery]
    exact .refl _ _

end Later

/-- No query refers to the next one. -/
theorem Store.Noted.unattached_next (hs : s.Noted g notes) (hnone : q.attachments = []) :
    (s.add q).Unattached s.next := by
  intro id hid hin
  rw [s.size_add q] at hid
  by_cases hlt : id.index < s.queries.size
  · rw [Store.query_add_of_lt hlt q] at hin
    exact absurd (hs.present id hlt s.next hin) (Nat.lt_irrefl _)
  · have hnext : id = s.next := by
      cases id
      exact congrArg QueryId.mk (Nat.le_antisymm (Nat.le_of_lt_succ hid) (Nat.le_of_not_lt hlt))
    rw [hnext, s.query_add_next q, hnone] at hin
    exact nomatch hin

end

end FluentSql
