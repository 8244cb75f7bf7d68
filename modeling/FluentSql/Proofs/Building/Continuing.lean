import FluentSql.Proofs.Building.Program
import FluentSql.Proofs.Building.Refreshing
import FluentSql.Proofs.Reaching

/-!
# Calls on attached queries

A query may still change after it was attached to another one.  Calls on it keep
it noted, and so do they all queries but those around it: these were bound to
values that it may not have any more.

* `Continues` are the runs of a program that goes on with one query.
* `Store.setAside` are notes under which the queries around a query count as
  not complete, and `Continues.revised` says that calls on the query keep the
  store noted under them.
* `Revised` is a store after such calls.  `Revised.reread_noted` says that it
  is noted if the queries around the changed one read their values once more,
  and `Revised.length_rounds` how many values they then have.
* `Revised.marks_eq` is the number of placeholders in the text of a query.
-/

namespace FluentSql

/-- The runs of a program that goes on with one query, which others may refer to: the queries that it
has made and the store afterwards.  It may attach those that it is given and those that it has made;
it builds these too, as long as they are not attached. -/
inductive Continues (g : Grammar) (run : Runner) (callbacks : CallbackProperty)
    (given : Set QueryId) (a : QueryId) (s : Store) : Set QueryId → Store → Prop where
  /-- Nothing has been done. -/
  | start : Continues g run callbacks given a s ∅ s
  /-- No query has changed. -/
  | beside {made s1 s2} (before : Continues g run callbacks given a s made s1)
      (hbeside : s1.Beside s2) : Continues g run callbacks given a s made s2
  /-- A query is made. -/
  | make {made s1 q} (before : Continues g run callbacks given a s made s1)
      (hfresh : q.Fresh g s1) :
      Continues g run callbacks given a s (insert s1.next made) (s1.add q)
  /-- A call is made on the query, or on one that was made and is not attached to another one. -/
  | call {made s1 t} {call : FluentCall} {runs u s2}
      (before : Continues g run callbacks given a s made s1)
      (hbuilt : t = a ∨ t ∈ made ∧ s1.Unattached t)
      (hallowed : call.Allowed g ⟨(given ∪ made) \ {t}, runs⟩ (s1.query t))
      (hjoin : t = a → (s.query t).isJoin = true → call.conditionGroup?.isSome)
      (hcallbacks : ∀ callback ∈ runs, callbacks ((given ∪ made) \ {t}) s1 t callback)
      (hran : Ran (call.perform run t) s1 u s2) :
      Continues g run callbacks given a s made s2

/-- The complete queries that hold a query. -/
def Store.around (s : Store) (notes : QueryId → Notes) (a : QueryId) : Set QueryId :=
  {id | s.Stands notes id ∧ s.Holds id a}

open Classical in
/-- Notes under which the queries around a query count as not complete. -/
noncomputable def Store.setAside (s : Store) (notes : QueryId → Notes) (a : QueryId) :
    QueryId → Notes := fun id =>
  if id ∈ s.around notes a then { notes id with closed := false } else notes id

open Classical in
/-- Notes under which they are complete again, after the query has got notes of its own. -/
noncomputable def Store.restored (s : Store) (notes notes' : QueryId → Notes) (a : QueryId) :
    QueryId → Notes := fun id =>
  if id ∈ s.around notes a then { notes id with rank := (notes id).rank + ((notes' a).rank + 1) }
  else notes' id

/-- The store after a change of a query, when all queries around it have read their values once
more. -/
noncomputable abbrev Store.reread (s : Store) (notes : QueryId → Notes) (a : QueryId) (s' : Store)
    (notes' : QueryId → Notes) (rounds : Nat) : Store :=
  s'.refreshed (s.around notes a) (s.restored notes notes' a) rounds

/-- A query is selected from where it is attached, and joins are no unions. -/
structure Store.SelectedOnly (s : Store) (a : QueryId) : Prop where
  /-- The query is neither a join nor a group of conditions. -/
  sub : ∀ id, a ∉ (s.query id).joins ∧ a ∉ (s.query id).conditionGroups
  /-- A join condition is not united with other queries. -/
  joins : ∀ id, ∀ j ∈ (s.query id).joins, (s.query j).unions = []

/-- A store after changes of one query.  Nothing else that was there has changed. -/
structure Revised (g : Grammar) (a : QueryId) (s : Store) (notes : QueryId → Notes) (s' : Store)
    (notes' : QueryId → Notes) : Prop where
  noted : s.Noted g notes
  before : s.Stands notes a
  later : ∃ given, Later g {a} given s (s.setAside notes a) s' notes'
  stands : s'.Stands notes' a

section

variable {g : Grammar} {p : String} {run : Runner} {callbacks : CallbackProperty}
variable {s s' s1 s2 : Store} {notes notes' : QueryId → Notes} {given made : Set QueryId}
variable {a t id : QueryId}

/-! ## Queries that are set aside -/

theorem Store.setAside_of_mem (hid : id ∈ s.around notes a) :
    s.setAside notes a id = { notes id with closed := false } :=
  if_pos hid

theorem Store.setAside_of_notMem (hid : id ∉ s.around notes a) :
    s.setAside notes a id = notes id :=
  if_neg hid

theorem Store.setAside_table (id : QueryId) : (s.setAside notes a id).table = (notes id).table := by
  unfold setAside
  split <;> rfl

theorem Store.setAside_whole (id : QueryId) : (s.setAside notes a id).whole = (notes id).whole := by
  unfold setAside
  split <;> rfl

theorem Store.restored_of_mem (hid : id ∈ s.around notes a) : s.restored notes notes' a id =
    { notes id with rank := (notes id).rank + ((notes' a).rank + 1) } :=
  if_pos hid

theorem Store.restored_of_notMem (hid : id ∉ s.around notes a) :
    s.restored notes notes' a id = notes' id :=
  if_neg hid

/-- Nothing around a query is attached to what is not around it. -/
theorem Store.notMem_around (ht : s.Stands notes t)
    (hout : t ∉ s.around notes a) (hid : id ∈ (s.query t).attachments) :
    id ∉ s.around notes a ∧ id ≠ a :=
  ⟨fun hin => hout ⟨ht, .head hid hin.2⟩, fun hsame => hout ⟨ht, .single (hsame ▸ hid)⟩⟩

theorem Store.Noted.self_notMem_around (hs : s.Noted g notes) (ha : s.Stands notes a) :
    a ∉ s.around notes a :=
  fun hin => hs.not_holds_self ha hin.2

theorem Store.stands_setAside :
    s.Stands (s.setAside notes a) id ↔ s.Stands notes id ∧ id ∉ s.around notes a := by
  by_cases hid : id ∈ s.around notes a
  · refine ⟨fun h => ?_, fun h => absurd hid h.2⟩
    have hclosed := h.2
    rw [setAside_of_mem hid] at hclosed
    exact nomatch hclosed
  · unfold Stands
    rw [setAside_of_notMem hid]
    exact ⟨fun h => ⟨h, hid⟩, And.left⟩

/-- A store is noted also with some of its queries set aside. -/
theorem Store.Noted.setAside (hs : s.Noted g notes) : s.Noted g (s.setAside notes a) where
  queries := by
    intro id hid
    obtain ⟨hstands, hout⟩ := Store.stands_setAside.1 hid
    rw [Store.setAside_of_notMem hout]
    exact (hs.queries id hstands).later (.refl s) (Nat.le_refl _) fun x hx =>
      ⟨rfl, Store.setAside_of_notMem (Store.notMem_around hstands hout hx).1⟩
  still := hs.still
  present := hs.present
  connections := hs.connections

/-- The queries that hold a query. -/
def Store.holders (s : Store) (a : QueryId) : Set QueryId :=
  {id | id.index < s.queries.size ∧ s.Holds id a}

/-- All that holds a query is set aside while a query changes that does not hold it. -/
theorem Store.aside_holders (ht : ¬s.Holds t a) :
    s.Aside (s.setAside notes a) {t} (s.holders a) := by
  rintro id ⟨hid, hholds⟩
  refine ⟨hid, ?_, ?_⟩
  · rintro rfl
    exact ht hholds
  · by_cases hin : id ∈ s.around notes a
    · rw [setAside_of_mem hin]
    · rw [setAside_of_notMem hin, Bool.eq_false_iff]
      exact fun hclosed => hin ⟨⟨hid, hclosed⟩, hholds⟩

theorem Store.heldBy_holders (hid : id = a ∨ s.Holds id a) : s.HeldBy (s.holders a) id := by
  intro x hx hin
  rcases hid with rfl | hid
  · exact ⟨hx, .single hin⟩
  · exact ⟨hx, .head hin hid⟩

/-- What refers to a query is there. -/
theorem Store.lt_of_mem_attachments (h : id ∈ (s.query t).attachments) :
    t.index < s.queries.size := by
  refine Decidable.byContradiction fun hnot => ?_
  rw [Store.query_of_le (Nat.le_of_not_lt hnot)] at h
  exact nomatch h

/-- What comes to hold a query held it before, if neither the query nor its holders are on offer. -/
theorem Store.holds_of_later (ha : s.Stands notes a)
    (ht : ¬s.Holds t a) (hgiven : ∀ id ∈ given, id ≠ a ∧ ¬s.Holds id a)
    (hlater : Later g {t} given s (s.setAside notes a) s' notes') (h : s'.Holds id a) :
    s.Holds id a := by
  have hheld : ∀ x : QueryId, x.index < s.queries.size → x = a ∨ s.Holds x a →
      s'.HeldBy (s.holders a) x := fun x hx hxa =>
    hlater.held _ (Store.aside_holders ht) x hx
      (fun hin => hxa.elim (hgiven x hin).1 (hgiven x hin).2) (Store.heldBy_holders hxa)
  suffices hmem : id ∈ s.holders a from hmem.2
  induction h using Relation.TransGen.head_induction_on with
  | single hin => exact hheld a ha.1 (.inl rfl) _ (Store.lt_of_mem_attachments hin) hin
  | head hin _ ih => exact hheld _ ih.1 (.inr ih.2) _ (Store.lt_of_mem_attachments hin) hin

/-! ## Calls -/

/-- Calls on an attached query keep it noted, with all that is around it set aside. -/
theorem Continues.revised (hg : g.Compiles p) (hs : s.Noted g notes) (ha : s.Stands notes a)
    (hplain : (s.query a).aggregate = none)
    (hgiven : ∀ id ∈ given, id ≠ a ∧ s.Stands notes id ∧ (notes id).whole = true ∧ ¬s.Holds id a)
    (hcallbacks : ∀ queries s t callback, (∀ id ∈ queries, id.index < s.queries.size) →
      callbacks queries s t callback → CallbackKeeps g run queries s t callback)
    (h : Continues g run callbacks given a s made s') : ∃ notes', Revised g a s notes s' notes' := by
  have hself := hs.self_notMem_around ha
  have hstarts : Starts g given (some a) s (s.setAside notes a) := by
    refine ⟨hs.setAside, fun id hid => ?_, ?_⟩
    · obtain ⟨_, hstands, hwhole, hout⟩ := hgiven id hid
      exact ⟨Store.stands_setAside.2 ⟨hstands, fun hin => hout hin.2⟩,
        (Store.setAside_whole id).trans hwhole⟩
    · rintro _ ⟨⟩
      exact ⟨Store.stands_setAside.2 ⟨ha, hself⟩, fun hin => (hgiven a hin).1 rfl, hplain⟩
  have hbuilt : ∃ notes', Built g given (some a) s (s.setAside notes a) made s' notes' := by
    induction h with
    | start => exact ⟨_, .start hstarts⟩
    | beside before hbeside ih =>
      obtain ⟨notes1, ih⟩ := ih
      exact ⟨notes1, ih.beside hbeside⟩
    | make before hfresh ih =>
      obtain ⟨notes1, ih⟩ := ih
      exact ih.make hg hfresh
    | @call made s1 t _ _ _ _ before hbuilt hallowed hjoin hruns hran ih =>
      obtain ⟨notes1, ih⟩ := ih
      have hloose : s1.Loose notes1 t := by
        rcases hbuilt with rfl | ⟨_, hfree⟩
        · -- Nothing else has come to refer to the query since the start.
          have haside := @Store.aside_holders s notes t t (hs.not_holds_self ha)
          have hmine : s.Aside (s.setAside notes t) {id | some t = some id} (s.holders t) :=
            fun id hid =>
            (haside id hid).imp_right fun h => h.imp_left fun hne hin => hne (Option.some.inj hin).symm
          refine ⟨_, fun id hid => ?_, ih.later.held _ hmine t ha.1 (fun hin =>
            (hgiven t hin).1 rfl) (Store.heldBy_holders (.inl rfl))⟩
          obtain ⟨hlt, hne, hopen⟩ := hmine id hid
          exact ⟨Nat.lt_of_lt_of_le hlt ih.later.size, (haside id hid).2.1,
            (ih.later.others id hlt hne).2 ▸ hopen⟩
        · exact hfree.loose
      refine ih.call hg hstarts (hbuilt.symm.imp And.left fun heq => congrArg some heq.symm) hloose
        hallowed (fun hreceived => hjoin (Option.some.inj hreceived).symm)
        (fun callback hin => ?_) hran
      exact hcallbacks _ _ _ callback (fun id hid => (ih.offered hstarts hid.1).1.1)
        (hruns callback hin)
  obtain ⟨notes', hbuilt⟩ := hbuilt
  have hmine : {t | some a = some t} = ({a} : Set QueryId) :=
    Set.ext fun t => Option.some_inj.trans eq_comm
  exact ⟨notes', hs, ha, ⟨given, hmine ▸ hbuilt.later⟩, hbuilt.receiver a rfl⟩

/-! ## Values read once more -/

namespace Revised

variable (h : Revised g a s notes s' notes')

include h

theorem others (hid : id.index < s.queries.size) (hne : id ≠ a) :
    s'.query id = s.query id ∧ notes' id = s.setAside notes a id := by
  obtain ⟨given, hlater⟩ := h.later
  exact hlater.others id hid hne

theorem size : s.queries.size ≤ s'.queries.size := by
  obtain ⟨given, hlater⟩ := h.later
  exact hlater.size

theorem self_notMem : a ∉ s.around notes a :=
  h.noted.self_notMem_around h.before

/-- The notes that queries around the changed one have had stay as they were but for their ranks. -/
theorem restored_frame (hid : id.index < s.queries.size) :
    (s.restored notes notes' a id).table = (notes id).table ∧
      (s.restored notes notes' a id).whole = (notes id).whole := by
  by_cases hin : id ∈ s.around notes a
  · rw [Store.restored_of_mem hin]
    exact ⟨rfl, rfl⟩
  · obtain ⟨given, hlater⟩ := h.later
    have hkept := hlater.kept id hid
    rw [Store.restored_of_notMem hin, hkept.table, hkept.whole, Store.setAside_table,
      Store.setAside_whole]
    exact ⟨rfl, rfl⟩

/-- What was complete is complete again.  Around the changed query ranks are greater than its own. -/
theorem restored_stands {S : Store} (hsize : S.queries.size = s'.queries.size)
    (hid : s.Stands notes id) : S.Stands (s.restored notes notes' a) id := by
  refine ⟨hsize ▸ Nat.lt_of_lt_of_le hid.1 h.size, ?_⟩
  by_cases hin : id ∈ s.around notes a
  · rw [Store.restored_of_mem hin]
    exact hid.2
  · rw [Store.restored_of_notMem hin]
    by_cases hself : id = a
    · rw [hself]
      exact h.stands.2
    · rw [(h.others hid.1 hself).2, Store.setAside_of_notMem hin]
      exact hid.2

theorem restored_rank (ht : t ∈ s.around notes a) (hid : id ∈ (s.query t).attachments) :
    (s.restored notes notes' a id).rank < (notes t).rank + ((notes' a).rank + 1) := by
  obtain ⟨hstands, hrank⟩ := (h.noted.queries t ht.1).attached id hid
  by_cases hin : id ∈ s.around notes a
  · rw [Store.restored_of_mem hin]
    exact Nat.add_lt_add_right hrank _
  · rw [Store.restored_of_notMem hin]
    by_cases hself : id = a
    · rw [hself]
      omega
    · rw [(h.others hstands.1 hself).2, Store.setAside_of_notMem hin]
      omega

/-- In every round a query that was there reads the values of what is attached to it as of the round
before. -/
theorem query_round {rounds : Nat} (hid : s.Stands notes id) (hne : id ≠ a) :
    (s.reread notes a s' notes' (rounds + 1)).query id =
      (s.query id).refreshed (s.reread notes a s' notes' rounds)
        notes (notes id) := by
  have hnoted := h.noted.queries id hid
  have htables : ∀ x ∈ (s.query id).joins,
      (s.restored notes notes' a x).table = (notes x).table := fun x hx =>
    (h.restored_frame (hnoted.attached x (Query.mem_attachments_join hx)).1.1).1
  by_cases hin : id ∈ s.around notes a
  · rw [Store.query_refreshed_of_mem hin (Nat.lt_of_lt_of_le hid.1 h.size), (h.others hid.1 hne).1,
      Store.restored_of_mem hin]
    exact Query.refreshed_congr (fun _ _ => rfl) htables
  · rw [Store.query_refreshed_of_notMem hin, (h.others hid.1 hne).1]
    refine (hnoted.refreshed_same.symm).trans (Query.refreshed_congr (fun x hx => ?_) fun _ _ => rfl)
    obtain ⟨hout, hother⟩ := Store.notMem_around hid hin hx
    rw [Store.query_refreshed_of_notMem hout, (h.others (hnoted.attached x hx).1.1 hother).1]

/-- After some rounds all queries around the changed one have read all values. -/
theorem exists_settled : ∃ rounds, ∀ id ∈ s.around notes a,
    (s.reread notes a s' notes' (rounds + 1)).query id =
      (s.query id).refreshed (s.reread notes a s' notes' (rounds + 1))
        (s.restored notes notes' a) (notes id) := by
  obtain ⟨bound, hbound⟩ := s'.exists_rank_lt (s.restored notes notes' a)
  refine ⟨bound, fun id hid => ?_⟩
  have hlt : ∀ id ∈ s.around notes a, id.index < s'.queries.size :=
    fun id hid => Nat.lt_of_lt_of_le hid.1.1 h.size
  have hother : ∀ id ∈ s.around notes a, s'.query id = s.query id :=
    fun id hid => (h.others hid.1.1 fun hself => h.self_notMem (hself ▸ hid)).1
  have hstable : (s.reread notes a s' notes' (bound + 1 + 1)).query id =
      (s.reread notes a s' notes' (bound + 1)).query id :=
    Store.refreshed_stable hlt (fun x hx y hy _ => by
      rw [hother x hx] at hy
      rw [Store.restored_of_mem hx]
      exact h.restored_rank hx hy) hid (Nat.lt_succ_of_lt (hbound id (hlt id hid)))
  have hround : (s.reread notes a s' notes' (bound + 1 + 1)).query id =
      (s'.query id).refreshed (s.reread notes a s' notes' (bound + 1))
        (s.restored notes notes' a) (s.restored notes notes' a id) :=
    Store.query_refreshed_of_mem hid (hlt id hid)
  rw [hstable, hother id hid, Store.restored_of_mem hid] at hround
  exact hround

/-- A query that is not around the changed one is noted as it was. -/
theorem noted_beside {rounds : Nat} (hid : s'.Stands (s.restored notes notes' a) id)
    (hout : id ∉ s.around notes a) :
    ((s.reread notes a s' notes' rounds).query id).Noted g (s.reread notes a s' notes' rounds)
      (s.restored notes notes' a) (s.restored notes notes' a id) := by
  obtain ⟨given, hlater⟩ := h.later
  have hstands : s'.Stands notes' id := by
    unfold Store.Stands at hid
    rwa [Store.restored_of_notMem hout] at hid
  rw [Store.query_refreshed_of_notMem hout, Store.restored_of_notMem hout]
  refine (hlater.noted.queries id hstands).later Store.keepsGrammars_refreshed
    (Nat.le_of_eq Store.size_refreshed.symm) fun x hx => ?_
  have hxout : x ∉ s.around notes a := by
    -- What is around the changed query is set aside, so it is not attached to a complete query.
    intro hin
    have hclosed := ((hlater.noted.queries id hstands).attached x hx).1.2
    rw [(h.others hin.1.1 fun hself => h.self_notMem (hself ▸ hin)).2,
      Store.setAside_of_mem hin] at hclosed
    exact nomatch hclosed
  exact ⟨Store.query_refreshed_of_notMem hxout, Store.restored_of_notMem hxout⟩

/-- A query around the changed one is noted once it has read all values. -/
theorem noted_around (hsub : s.SelectedOnly a) {rounds : Nat}
    (hsettled : ∀ id ∈ s.around notes a, (s.reread notes a s' notes' rounds).query id =
      (s.query id).refreshed (s.reread notes a s' notes' rounds)
        (s.restored notes notes' a) (notes id)) (hid : id ∈ s.around notes a) :
    ((s.reread notes a s' notes' rounds).query id).Noted g (s.reread notes a s' notes' rounds)
      (s.restored notes notes' a) (s.restored notes notes' a id) := by
  -- The induction is on the rank: what is attached has read its values before.
  induction hrank : (notes id).rank using Nat.strong_induction_on generalizing id with
  | _ rank ih =>
    subst hrank
    obtain ⟨given, hlater⟩ := h.later
    have hnoted := h.noted.queries id hid.1
    rw [hsettled id hid, Store.restored_of_mem hid]
    refine hnoted.refresh (hlater.grammars.trans Store.keepsGrammars_refreshed) ?_ ?_ ?_ ?_ ?_
    · exact fun x hx =>
        (h.restored_frame (hnoted.attached x (Query.mem_attachments_join hx)).1.1).1
    · exact fun x hx => ⟨h.restored_stands Store.size_refreshed (hnoted.attached x hx).1,
        h.restored_rank hid hx⟩
    · intro x hx
      obtain ⟨hstands, hless⟩ := hnoted.attached x hx
      by_cases hin : x ∈ s.around notes a
      · exact (ih _ hless hin rfl).data
      · exact (h.noted_beside (h.restored_stands rfl hstands) hin).data
    · intro x hx
      have honly := hnoted.joins x hx
      have hstands := (hnoted.attached x (Query.mem_attachments_join hx)).1
      have hne : x ≠ a := fun hself => (hsub.sub id).1 (hself ▸ hx)
      by_cases hin : x ∈ s.around notes a
      · unfold Query.OnlyConditions at honly ⊢
        rw [hsettled x hin, Query.refreshed, hsub.joins id x hx, honly]
        rfl
      · rw [Store.query_refreshed_of_notMem hin, (h.others hstands.1 hne).1]
        exact honly
    · intro x hx
      have hstands := (hnoted.attached x (Query.mem_attachments_sub hx)).1
      exact (h.restored_frame hstands.1).2.trans (hnoted.subQueries x hx)

/-- After some rounds the store is noted. -/
theorem reread_noted (hsub : s.SelectedOnly a) : ∃ rounds,
    (s.reread notes a s' notes' (rounds + 1)).Noted g (s.restored notes notes' a) := by
  obtain ⟨rounds, hsettled⟩ := h.exists_settled
  obtain ⟨given, hlater⟩ := h.later
  have hsize := @Store.size_refreshed s' (s.restored notes notes' a) (s.around notes a) (rounds + 1)
  refine ⟨rounds, fun id hid => ?_, fun id hid => ?_, fun id hid x hx => ?_, fun c => ?_⟩
  · by_cases hin : id ∈ s.around notes a
    · exact h.noted_around hsub hsettled hin
    · exact h.noted_beside ⟨hsize ▸ hid.1, hid.2⟩ hin
  · by_cases hin : id ∈ s.around notes a
    · exact (h.noted_around hsub hsettled hin).still
    · rw [Store.query_refreshed_of_notMem hin]
      exact hlater.noted.still id (hsize ▸ hid)
  · rw [hsize] at hid ⊢
    rw [Store.query_refreshed_eq] at hx
    exact hlater.noted.present id hid x hx
  · rw [Store.connection_refreshed]
    exact hlater.noted.connections c

/-- A query gets, for each of its places for the changed one, as many values more as that has got. -/
theorem length_rounds (hsub : s.SelectedOnly a) (rounds : Nat) (hid : s.Stands notes id) :
    ((s.reread notes a s' notes' rounds).query
          id).bindings.flatten.length +
        (s.places a rounds).1 id * (s.query a).bindings.flatten.length =
      (s.query id).bindings.flatten.length +
        (s.places a rounds).1 id * (s'.query a).bindings.flatten.length ∧
    (id ≠ a → ((s.reread notes a s' notes' rounds).query
          id).bindings.condition.length +
        (s.places a rounds).2 id * (s.query a).bindings.flatten.length =
      (s.query id).bindings.condition.length +
        (s.places a rounds).2 id * (s'.query a).bindings.flatten.length) := by
  induction rounds generalizing id with
  | zero =>
    by_cases hself : id = a
    · subst hself
      rw [Store.places_self]
      exact ⟨by show (s'.query id).bindings.flatten.length + _ = _; omega, fun hne => absurd rfl hne⟩
    · have hquery : (s.reread notes a s' notes' 0).query id =
          s.query id := (h.others hid.1 hself).1
      have hplaces : (s.places a 0).1 id = 0 := if_neg hself
      rw [hquery, hplaces]
      exact ⟨by omega, fun _ => by show _ + 0 * _ = _ + 0 * _; omega⟩
  | succ rounds ih =>
    by_cases hself : id = a
    · subst hself
      rw [Store.places_self, Store.query_refreshed_of_notMem h.self_notMem]
      exact ⟨by omega, fun hne => absurd rfl hne⟩
    · have hnoted := h.noted.queries id hid
      have hlength := @Query.length_refreshed s (s.reread notes a s' notes' rounds) notes
        (notes id) (s.query id) _ _ (s.places a rounds).1 (s.places a rounds).2
        hnoted.wheres.length_eq (fun x hx => (ih (hnoted.attached x hx).1).1) fun x hx => by
          obtain ⟨c, hc, hgroup⟩ := List.mem_filterMap.1 hx
          have hstands := (hnoted.attached x (Query.mem_attachments_group hc hgroup)).1
          exact (ih hstands).2 fun heq => (hsub.sub id).2 (heq ▸ hx)
      rw [hnoted.refreshed_same] at hlength
      have hplaces : (s.places a (rounds + 1)).1 id =
          (s.query id).places (s.places a rounds).1 (s.places a rounds).2 := if_neg hself
      rw [h.query_round hid hself, hplaces]
      exact ⟨hlength.1, fun _ => hlength.2⟩

/-- The text of a query has as many placeholders as it is bound to values, and for each place in it of
the changed query as many more as that has got. -/
theorem marks_eq (hg : g.Compiles p) (hsub : s.SelectedOnly a) (ht : s.Stands notes t)
    (hwhole : (notes t).whole = true) (hne : t ≠ a) :
    ∃ places, (s.query t).subQueries.count a ≤ places ∧ (¬s.Holds t a → places = 0) ∧
      ∀ sql s1, Ran (t.toSql run) s' sql s1 →
        s1 = s' ∧ marks none sql.toList + places * (s.query a).bindings.flatten.length =
          (s.query t).bindings.flatten.length +
            places * (s'.query a).bindings.flatten.length := by
  obtain ⟨rounds, hnoted⟩ := h.reread_noted hsub
  obtain ⟨given, hlater⟩ := h.later
  refine ⟨(s.places a (rounds + 1)).1 t, ?_, fun hnot => (Store.places_eq_zero hne hnot).1,
    fun sql s1 hran => ?_⟩
  · have hplaces : (s.places a (rounds + 1)).1 t =
        (s.query t).places (s.places a rounds).1 (s.places a rounds).2 := if_neg hne
    rw [hplaces]
    exact Query.count_le_places Store.places_self
  · have hstands : (s.reread notes a s' notes' (rounds + 1)).Stands (s.restored notes notes' a) t :=
      h.restored_stands Store.size_refreshed ht
    have hall := (h.restored_frame ht.1).2.trans hwhole
    have hasks' := hnoted.selectSql_asksNothing hg hstands hall
    have hasks := hasks'
    rw [Store.selectSql_refreshed] at hasks
    obtain ⟨hsql, hsame⟩ := (ran_compile hlater.noted hasks).1 hran
    have hsql' : (s.reread notes a s' notes' (rounds + 1)).selectSql t = .ok sql := (Store.selectSql_refreshed t).trans hsql
    obtain ⟨_, hfills⟩ := @QueryId.toSql_aligned g p _ _ _ run t hg hnoted hstands hall sql
      ((ran_compile hnoted hasks').2 ⟨hsql', rfl⟩)
    obtain ⟨u, _, hfills⟩ := hfills default
    refine ⟨hsame, ?_⟩
    rw [hfills.reads.marks_eq]
    exact (h.length_rounds hsub (rounds + 1) ht).1

end Revised

end

end FluentSql
