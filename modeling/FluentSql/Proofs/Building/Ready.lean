import FluentSql.Proofs.Building.Compiling
import FluentSql.Proofs.Building.Later

/-!
# Queries on which calls are made

A call is made on a query that no query refers to, or only such as are set
aside.  It may attach the queries that are on offer, and it may run callbacks,
each on a query that it has made.  It must leave the query noted.

* `Receives` describes the query that a callback receives, and
  `CallbackKeeps` what is asked of a callback.
* `Ready` describes the query on which a call is made.  It stays so while the
  call is under way, by `Ready.later`.
* `Kept` is what a call has to show, and `KeptIn` what one shows that binds
  values of one group only.  `Ready.close` shows it for the last
  change of a call.
* `Ready.run_new` runs a callback on a new query.
-/

namespace FluentSql

/-- What a call may use: queries that it may attach, and callbacks that it may run. -/
structure Offers where
  queries : Set QueryId
  callbacks : Set CallbackId

/-- A query that a call on another one has made, as a callback receives it: it is empty but for its
source, and no query refers to it.  Since the call began nothing else has changed but the query on
which it was made. -/
structure Receives (s : Store) (t : QueryId) (s1 : Store) (sub : QueryId) : Prop where
  size : s.queries.size ≤ s1.queries.size
  others : ∀ id : QueryId, id.index < s.queries.size → id ≠ t → s1.query id = s.query id
  grammars : s.KeepsGrammars s1
  callbacks : s.KeepsCallbacks s1
  new : s.queries.size ≤ sub.index
  there : sub.index < s1.queries.size
  unattached : s1.Unattached sub
  blank : ∃ kind connection source,
    s1.query sub = { kind, connection, grammar := (s.query t).grammar, source }

/-- A callback in a call keeps the query that it receives noted, and may attach some queries.  The
condition of a join gets no values but those of conditions and joins. -/
def CallbackKeeps (g : Grammar) (run : Runner) (queries : Set QueryId) (s : Store) (t : QueryId)
    (callback : CallbackId) : Prop :=
  ∀ sub s1 v s2 notes1, Receives s t s1 sub → Ran (run callback sub []) s1 v s2 →
    s1.Noted g notes1 → s1.Stands notes1 sub →
    (∀ id ∈ queries, s1.Stands notes1 id ∧ (notes1 id).whole = true) →
    ∃ notes2, Later g {sub} queries s1 notes1 s2 notes2 ∧ s2.Stands notes2 sub ∧
      ((s1.query sub).isJoin = true → (s2.query sub).OnlyConditions)

/-- A query on which a call is made or under way, in a noted store with queries on offer. -/
structure Ready (g : Grammar) (p : String) (run : Runner) (avail : Offers) (s : Store)
    (notes : QueryId → Notes) (t : QueryId) : Prop where
  compiles : g.Compiles p
  noted : s.Noted g notes
  there : t.index < s.queries.size
  loose : s.Loose notes t
  plain : (s.query t).aggregate = none
  grammar : ∃ id, (s.query t).grammar = .grammar id ∧ id.index < s.grammars.size ∧
    s.grammar id = g
  offered : ∀ id ∈ avail.queries, id ≠ t ∧ s.Stands notes id ∧ (notes id).whole = true
  callbacks : ∀ callback ∈ avail.callbacks, CallbackKeeps g run avail.queries s t callback

/-- What a call shows: nothing has changed but the query on which it was made, and that is noted. -/
def Kept (g : Grammar) (avail : Offers) (s : Store) (notes : QueryId → Notes) (t : QueryId)
    (s' : Store) : Prop :=
  ∃ notes', Later g {t} avail.queries s notes s' notes' ∧ s'.Stands notes' t

/-- What a call shows that binds values of one group only. -/
def KeptIn (group : BindingGroup) (g : Grammar) (avail : Offers) (s : Store)
    (notes : QueryId → Notes) (t : QueryId) (s' : Store) : Prop :=
  Kept g avail s notes t s' ∧
    (s'.query t).bindings = (s.query t).bindings.set group ((s'.query t).bindings.get group)

section

variable {g : Grammar} {p : String} {run : Runner} {avail : Offers} {group : BindingGroup}
variable {s s' s1 s2 : Store} {notes notes' notes1 : QueryId → Notes} {n : Notes} {t sub : QueryId}

/-! ## While a call is under way -/

/-- What a callback receives from a part of a call, it receives from the call. -/
theorem CallbackKeeps.mono {queries : Set QueryId} {t' : QueryId} {callback : CallbackId}
    (h : CallbackKeeps g run queries s t callback)
    (hr : ∀ s1 sub, Receives s' t' s1 sub → Receives s t s1 sub) :
    CallbackKeeps g run queries s' t' callback :=
  fun sub s1 v s2 notes1 hsub => h sub s1 v s2 notes1 (hr s1 sub hsub)

namespace Ready

theorem not_avail (h : Ready g p run avail s notes t) : t ∉ avail.queries :=
  fun hin => (h.offered t hin).1 rfl

/-- A query stays ready while nothing else changes. -/
theorem later (h : Ready g p run avail s notes t)
    (hlater : Later g {t} avail.queries s notes s' notes') : Ready g p run avail s' notes' t where
  compiles := h.compiles
  noted := hlater.noted
  there := Nat.lt_of_lt_of_le h.there hlater.size
  loose := by
    obtain ⟨out, haside, hheld⟩ := h.loose
    refine ⟨out, fun id hid => ?_, hlater.held out haside t h.there h.not_avail hheld⟩
    obtain ⟨hlt, hne, hopen⟩ := haside id hid
    exact ⟨Nat.lt_of_lt_of_le hlt hlater.size, hne, (hlater.others id hlt hne).2 ▸ hopen⟩
  plain := (hlater.kept t h.there).aggregate.trans h.plain
  grammar := by
    obtain ⟨id, hid, hlt, hg⟩ := h.grammar
    obtain ⟨hlt', hsame⟩ := hlater.grammars id hlt
    exact ⟨id, (hlater.kept t h.there).grammar.trans hid, hlt', hsame.trans hg⟩
  offered := by
    intro id hid
    obtain ⟨hne, hstands, hwhole⟩ := h.offered id hid
    exact ⟨hne, hlater.stands hstands hne, (hlater.kept id hstands.1).whole.trans hwhole⟩
  callbacks := fun callback hin => (h.callbacks callback hin).mono fun s1 sub hsub =>
    { size := Nat.le_trans hlater.size hsub.size
      others := fun id hid hne =>
        (hsub.others id (Nat.lt_of_lt_of_le hid hlater.size) hne).trans
          (hlater.others id hid hne).1
      grammars := hlater.grammars.trans hsub.grammars
      callbacks := hlater.callbacks.trans hsub.callbacks
      new := Nat.le_trans hlater.size hsub.new
      there := hsub.there
      unattached := hsub.unattached
      blank := by
        obtain ⟨kind, connection, source, hblank⟩ := hsub.blank
        exact ⟨kind, connection, source, by rw [hblank, (hlater.kept t h.there).grammar]⟩ }

/-- The last change of a call.  What is attached was attached before, is on offer or was made by the
call. -/
theorem close (h : Ready g p run avail s notes t) (hlater : Later g {t} avail.queries s notes s1 notes1)
    {f : Query → Query} (hq : (f (s1.query t)).Noted g s1 notes1 n) (hclosed : n.closed = true)
    (hattach : ∀ id ∈ (f (s1.query t)).attachments,
      id ∈ (s1.query t).attachments ∨ id ∈ avail.queries ∨ id ≠ t ∧ s.queries.size ≤ id.index)
    (hkept : SameFrame (s1.query t) (notes1 t) (f (s1.query t)) n) :
    Kept g avail s notes t (s1.edit t f) := by
  have h1 := h.later hlater
  refine ⟨Function.update notes1 t n, ?_, ?_, ?_⟩
  · have hedit : Later g {t} (avail.queries ∪ {id | id ≠ t ∧ s.queries.size ≤ id.index}) s1 notes1
        (s1.edit t f) (Function.update notes1 t n) := by
      refine .edit h1.noted h1.there h1.loose ?_ (fun _ => hq) hq.still ?_ hkept
      · rintro (hin | ⟨hne, _⟩)
        · exact h1.not_avail hin
        · exact hne rfl
      · intro id hid
        rcases hattach id hid with hold | hnew
        · exact .inl hold
        · exact .inr ⟨hnew, (hq.attached id hid).1.1⟩
    refine hlater.trans hedit (fun _ hid _ => hid) ?_
    rintro id (hin | ⟨_, hge⟩) hlt
    · exact hin
    · exact absurd hlt (Nat.not_lt.2 hge)
  · rw [s1.size_edit]
    exact h1.there
  · rw [Function.update_self]
    exact hclosed

/-- A call that makes one change and attaches nothing. -/
theorem change (h : Ready g p run avail s notes t) {f : Query → Query}
    (hq : (f (s.query t)).Noted g s notes n) (hclosed : n.closed = true)
    (hattach : (f (s.query t)).attachments = (s.query t).attachments)
    (hkept : SameFrame (s.query t) (notes t) (f (s.query t)) n) :
    Kept g avail s notes t (s.edit t f) :=
  h.close (.refl h.noted) hq hclosed (fun _ hid => .inl (hattach ▸ hid)) hkept

end Ready

/-! ## Calls one after another -/

namespace Kept

theorem refl (h : Ready g p run avail s notes t) (hstands : s.Stands notes t) :
    Kept g avail s notes t s :=
  ⟨notes, .refl h.noted, hstands⟩

theorem trans (hr : Ready g p run avail s notes t) (h : Kept g avail s notes t s1)
    (h1 : ∀ notes1, Ready g p run avail s1 notes1 t → s1.Stands notes1 t →
      Kept g avail s1 notes1 t s2) : Kept g avail s notes t s2 := by
  obtain ⟨notes1, hlater, hstands⟩ := h
  obtain ⟨notes2, hlater2, hstands2⟩ := h1 notes1 (hr.later hlater) hstands
  exact ⟨notes2, hlater.trans_same hlater2, hstands2⟩

end Kept

namespace KeptIn

theorem refl (h : Ready g p run avail s notes t) (hstands : s.Stands notes t) :
    KeptIn group g avail s notes t s :=
  ⟨.refl h hstands, by cases group <;> rfl⟩

theorem trans (hr : Ready g p run avail s notes t) (h : KeptIn group g avail s notes t s1)
    (h1 : ∀ notes1, Ready g p run avail s1 notes1 t → s1.Stands notes1 t →
      KeptIn group g avail s1 notes1 t s2) : KeptIn group g avail s notes t s2 := by
  refine ⟨.trans hr h.1 fun notes1 hr1 hstands1 => (h1 notes1 hr1 hstands1).1, ?_⟩
  obtain ⟨notes1, hlater, hstands⟩ := h.1
  rw [(h1 notes1 (hr.later hlater) hstands).2, h.2]
  cases group <;> rfl

end KeptIn

/-- The same call for each element of a list: what each of them shows, they show together. -/
private theorem Ready.each_of {K : Store → (QueryId → Notes) → Store → Prop}
    (hrefl : ∀ {s notes}, Ready g p run avail s notes t → s.Stands notes t → K s notes s)
    (htrans : ∀ {s notes s1 s2}, Ready g p run avail s notes t → K s notes s1 →
      (∀ notes1, Ready g p run avail s1 notes1 t → s1.Stands notes1 t → K s1 notes1 s2) →
      K s notes s2)
    {α : Type} {f : α → Action PUnit} {xs : List α}
    (h : Ready g p run avail s notes t) (hstands : s.Stands notes t)
    (hf : ∀ x ∈ xs, ∀ s notes s' u, Ready g p run avail s notes t → s.Stands notes t →
      Ran (f x) s u s' → K s notes s')
    {u : PUnit} (hran : Ran (xs.forM f) s u s') : K s notes s' := by
  induction xs generalizing s notes with
  | nil =>
    obtain ⟨_, rfl⟩ := ran_pure.1 hran
    exact hrefl h hstands
  | cons x xs ih =>
    have hbind : Ran (f x >>= fun _ => xs.forM f) s u s' := hran
    obtain ⟨_, s1, hx, hxs⟩ := ran_bind.1 hbind
    refine htrans h (hf x List.mem_cons_self s notes s1 _ h hstands hx) fun notes1 h1 hstands1 => ?_
    exact ih h1 hstands1 (fun y hy => hf y (List.mem_cons_of_mem _ hy)) hxs

/-- The same call for each element of a list. -/
theorem Ready.each {α : Type} {f : α → Action PUnit} {xs : List α}
    (h : Ready g p run avail s notes t) (hstands : s.Stands notes t)
    (hf : ∀ x ∈ xs, ∀ s notes s' u, Ready g p run avail s notes t → s.Stands notes t →
      Ran (f x) s u s' → Kept g avail s notes t s')
    {u : PUnit} (hran : Ran (xs.forM f) s u s') : Kept g avail s notes t s' :=
  each_of (K := fun s notes s' => Kept g avail s notes t s') .refl .trans h hstands hf hran

/-- The same call for each element of a list, when it binds values of one group only. -/
theorem Ready.eachIn {α : Type} {f : α → Action PUnit} {xs : List α}
    (h : Ready g p run avail s notes t) (hstands : s.Stands notes t)
    (hf : ∀ x ∈ xs, ∀ s notes s' u, Ready g p run avail s notes t → s.Stands notes t →
      Ran (f x) s u s' → KeptIn group g avail s notes t s')
    {u : PUnit} (hran : Ran (xs.forM f) s u s') : KeptIn group g avail s notes t s' :=
  each_of (K := fun s notes s' => KeptIn group g avail s notes t s') .refl .trans h hstands hf hran

end

end FluentSql
