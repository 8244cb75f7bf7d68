import FluentSql.Proofs.Building.Running

/-!
# Boundaries

A boundary tells actions what they must leave alone.  Some queries are kept:
no action may change them.  Some of these are hidden too: nothing that an
action meets may refer to them.  Queries that are made later are neither.

There are four groups.

* `Boundary` is the boundary, `Boundary.Admits` says that a value refers to
  nothing hidden, and `Boundary.AdmitsQuery` the same of a query.
* `Boundary.Guards` says that a store is in order: what is not hidden refers
  to nothing hidden.  `Boundary.Step` relates the stores before and after.
* `Action.Within` says that an action keeps to a boundary, also when it fails.
  It is kept by the ways in which actions are put together.
* The primitive actions: `within_read`, `within_modify` and `within_create`.
-/

namespace FluentSql

/-! ## Boundaries -/

/-- What actions must leave alone. -/
structure Boundary where
  /-- Queries from this number on were made later. -/
  start : Nat
  /-- The queries that must not change. -/
  kept : QueryId → Prop
  /-- The queries that must not be met. -/
  hidden : QueryId → Prop
  /-- The callbacks that keep to the boundary whatever query they are run on. -/
  trusted : CallbackId → Prop
  /-- Whether grammars and extensions must not change either. -/
  steady : Prop
  /-- What is known of the callbacks that there are. -/
  world : Array Callback → Prop
  kept_of_hidden : ∀ {id}, hidden id → kept id
  lt_of_kept : ∀ {id}, kept id → id.index < start

namespace Boundary

variable (b : Boundary)

/-- Whether an object is hidden. -/
def Hides : Handle → Prop
  | .query id | .bindings id => b.hidden id
  | _ => False

/-- None of some objects is hidden. -/
def Allows (handles : List Handle) : Prop :=
  ∀ h ∈ handles, ¬b.Hides h

/-- A value refers to nothing hidden. -/
def Admits (v : Value) : Prop :=
  b.Allows v.handles

/-- None of some values refers to anything hidden. -/
def AdmitsAll (vs : List Value) : Prop :=
  ∀ v ∈ vs, b.Admits v

/-- The entries of a map refer to nothing hidden. -/
def AdmitsEntries (entries : List (Value × Value)) : Prop :=
  ∀ entry ∈ entries, b.Admits entry.1 ∧ b.Admits entry.2

section

variable {b}

theorem allows_append {xs ys : List Handle} :
    b.Allows (xs ++ ys) ↔ b.Allows xs ∧ b.Allows ys :=
  List.forall_mem_append

theorem allows_flatMap {α : Type} {xs : List α} {f : α → List Handle} :
    b.Allows (xs.flatMap f) ↔ ∀ x ∈ xs, b.Allows (f x) := by
  simp only [Allows, List.mem_flatMap]
  exact ⟨fun h x hx y hy => h y ⟨x, hx, hy⟩, fun h y ⟨x, hx, hy⟩ => h x hx y hy⟩

theorem allows_nil : b.Allows [] :=
  fun _ h => nomatch h

theorem allows_singleton {h : Handle} : b.Allows [h] ↔ ¬b.Hides h :=
  List.forall_mem_singleton

theorem allows_all {vs : List Value} : b.Allows (Value.handlesOfAll vs) ↔ b.AdmitsAll vs := by
  induction vs with
  | nil => exact iff_of_true allows_nil fun _ h => nomatch h
  | cons v vs ih =>
    rw [Value.handlesOfAll, allows_append, ih]
    exact (List.forall_mem_cons (p := b.Admits)).symm

theorem allows_entries {entries : List (Value × Value)} :
    b.Allows (Value.handlesOfEntries entries) ↔ b.AdmitsEntries entries := by
  induction entries with
  | nil => exact iff_of_true allows_nil fun _ h => nomatch h
  | cons entry entries ih =>
    rw [Value.handlesOfEntries, allows_append, allows_append, ih]
    exact (List.forall_mem_cons (p := fun e : Value × Value => b.Admits e.1 ∧ b.Admits e.2)).symm

@[simp] theorem admits_null : b.Admits .null := allows_nil

@[simp] theorem admits_bool (x : Bool) : b.Admits (.bool x) := allows_nil

@[simp] theorem admits_int (i : Int) : b.Admits (.int i) := allows_nil

@[simp] theorem admits_text (s : String) : b.Admits (.text s) := allows_nil

@[simp] theorem admits_raw {v : Value} : b.Admits (.raw v) ↔ b.Admits v := Iff.rfl

@[simp] theorem admits_list {vs : List Value} : b.Admits (.list vs) ↔ b.AdmitsAll vs := allows_all

@[simp] theorem admits_tuple {vs : List Value} : b.Admits (.tuple vs) ↔ b.AdmitsAll vs := allows_all

@[simp] theorem admits_map {entries : List (Value × Value)} :
    b.Admits (.map entries) ↔ b.AdmitsEntries entries := allows_entries

@[simp] theorem admits_object {h : Handle} : b.Admits (.object h) ↔ ¬b.Hides h := allows_singleton

@[simp] theorem admits_ofQuery {id : QueryId} : b.Admits (.ofQuery id) ↔ ¬b.hidden id :=
  allows_singleton

@[simp] theorem admitsAll_nil : b.AdmitsAll [] := fun _ h => nomatch h

@[simp] theorem admitsAll_cons {v : Value} {vs : List Value} :
    b.AdmitsAll (v :: vs) ↔ b.Admits v ∧ b.AdmitsAll vs := List.forall_mem_cons

@[simp] theorem admitsAll_append {vs ws : List Value} :
    b.AdmitsAll (vs ++ ws) ↔ b.AdmitsAll vs ∧ b.AdmitsAll ws := List.forall_mem_append

theorem AdmitsAll.filter {vs : List Value} (h : b.AdmitsAll vs) (p : Value → Bool) :
    b.AdmitsAll (vs.filter p) :=
  fun v hv => h v (List.mem_filter.1 hv).1

theorem not_hidden_of_not_kept {id : QueryId} (h : ¬b.kept id) : ¬b.hidden id :=
  fun hidden => h (b.kept_of_hidden hidden)

/-- A query that is there already is kept or hidden only if it was there from the start. -/
theorem not_kept_of_le {id : QueryId} (h : b.start ≤ id.index) : ¬b.kept id :=
  fun hkept => absurd (b.lt_of_kept hkept) (by omega)

end

/-! ## Queries -/

/-- The values of every binding group refer to nothing hidden. -/
def AdmitsBindings (bindings : Bindings) : Prop :=
  ∀ group, b.AdmitsAll (bindings.get group)

/-- A query refers to nothing hidden. -/
structure AdmitsQuery (q : Query) : Prop where
  kind : b.Allows q.kind.handles
  grammar : ¬b.Hides q.grammar.handle
  bindings : b.AdmitsBindings q.bindings
  aggregate : ∀ a ∈ q.aggregate, b.Admits a.function ∧ b.AdmitsAll a.columns
  columns : b.AdmitsAll (q.columns.getD [])
  source : b.Admits q.source
  joins : ∀ id ∈ q.joins, ¬b.hidden id
  wheres : ∀ c ∈ q.wheres, b.Admits c.boolean ∧ b.Allows c.body.handles
  groups : b.AdmitsAll q.groups
  havings : ∀ c ∈ q.havings, b.Admits c.boolean ∧ b.Allows c.body.handles
  orders : ∀ o ∈ q.orders, b.Allows o.handles
  unions : ∀ u ∈ q.unions, (∀ id ∈ u.member, ¬b.hidden id) ∧ b.Admits u.keepsAll
  unionOrders : ∀ o ∈ q.unionOrders, b.Allows o.handles
  lock : b.Admits q.lock

variable {b}

theorem admitsBindings_flatten {bindings : Bindings} :
    b.AdmitsAll bindings.flatten ↔ b.AdmitsBindings bindings := by
  refine ⟨fun h group v hv => ?_, fun h v hv => ?_⟩
  · have hgroup : group ∈ BindingGroup.all := by cases group <;> decide
    exact h v (List.mem_flatMap.2 ⟨group, hgroup, hv⟩)
  · obtain ⟨group, _, hv⟩ := List.mem_flatMap.1 hv
    exact h group v hv

theorem allows_queries {ids : List QueryId} :
    b.Allows (ids.map .query) ↔ ∀ id ∈ ids, ¬b.hidden id :=
  List.forall_mem_map

/-- A query refers to nothing hidden exactly if none of its objects is hidden. -/
theorem allows_query {q : Query} : b.Allows q.handles ↔ b.AdmitsQuery q := by
  have hconnection : b.Allows (q.connection.toList.map Handle.connection) := by
    intro h hmem
    obtain ⟨c, _, rfl⟩ := List.mem_map.1 hmem
    exact id
  simp only [Query.handles, allows_append, allows_flatMap, allows_all, allows_queries,
    allows_singleton, admitsBindings_flatten, Option.mem_toList]
  refine ⟨?_, fun h => ?_⟩
  · rintro ⟨⟨⟨⟨⟨⟨⟨⟨⟨⟨⟨⟨⟨⟨kind, _⟩, grammar⟩, bindings⟩, aggregate⟩, columns⟩, source⟩, joins⟩,
      wheres⟩, groups⟩, havings⟩, orders⟩, unions⟩, unionOrders⟩, lock⟩
    exact ⟨kind, grammar, bindings, aggregate, columns, source, joins, wheres, groups, havings,
      orders, unions, unionOrders, lock⟩
  · exact ⟨⟨⟨⟨⟨⟨⟨⟨⟨⟨⟨⟨⟨⟨h.kind, hconnection⟩, h.grammar⟩, h.bindings⟩, h.aggregate⟩, h.columns⟩,
      h.source⟩, h.joins⟩, h.wheres⟩, h.groups⟩, h.havings⟩, h.orders⟩, h.unions⟩,
      h.unionOrders⟩, h.lock⟩

/-! ## Stores -/

variable (b)

/-- What is not hidden refers to nothing hidden, and extensions that can answer requests keep to
the boundary. -/
structure Guards (s : Store) : Prop where
  start_le : b.start ≤ s.queries.size
  world : b.world s.callbacks
  queries : ∀ id, ¬b.hidden id → b.AdmitsQuery (s.query id)
  connections : ∀ id, ¬b.Hides (s.connection id).grammar.handle
  resolvers : ∀ id, b.AdmitsEntries (s.resolver id).connections
  answers : ∀ (request : Request) callback,
    s.extension? request.name = some callback → b.trusted callback

/-- The grammars and the extensions of a store are those of another, which may have more grammars. -/
structure Steady (s s' : Store) : Prop where
  size_le : s.grammars.size ≤ s'.grammars.size
  grammars : ∀ id, id.index < s.grammars.size → s'.grammar id = s.grammar id
  extensions : s'.extensions = s.extensions

/-- What an action may have done to a store. -/
structure Step (s s' : Store) : Prop where
  size_le : s.queries.size ≤ s'.queries.size
  kept : ∀ id, b.kept id → s'.query id = s.query id
  kind : ∀ id : QueryId, id.index < s.queries.size → (s'.query id).kind = (s.query id).kind
  steady : b.steady → Steady s s'

variable {b} {s s' s'' : Store}

theorem Steady.refl (s : Store) : Steady s s :=
  ⟨Nat.le_refl _, fun _ _ => rfl, rfl⟩

theorem Steady.trans (h : Steady s s') (h' : Steady s' s'') : Steady s s'' where
  size_le := Nat.le_trans h.size_le h'.size_le
  grammars id hid :=
    (h'.grammars id (Nat.lt_of_lt_of_le hid h.size_le)).trans (h.grammars id hid)
  extensions := h'.extensions.trans h.extensions

theorem Step.refl (s : Store) : b.Step s s where
  size_le := Nat.le_refl _
  kept _ _ := rfl
  kind _ _ := rfl
  steady _ := .refl s

theorem Step.trans (h : b.Step s s') (h' : b.Step s' s'') : b.Step s s'' where
  size_le := Nat.le_trans h.size_le h'.size_le
  kept id hid := (h'.kept id hid).trans (h.kept id hid)
  kind id hid := (h'.kind id (Nat.lt_of_lt_of_le hid h.size_le)).trans (h.kind id hid)
  steady hb := (h.steady hb).trans (h'.steady hb)

end Boundary

/-! ## Actions within a boundary -/

/-- The action keeps to a boundary, whether it succeeds or fails; a result has a property. -/
def Action.Within {α : Type} (b : Boundary) (a : Action α) (P : α → Prop) : Prop :=
  ∀ s, b.Guards s →
    b.Guards (a.run.run s).2 ∧ b.Step s (a.run.run s).2 ∧ ∀ v, (a.run.run s).1 = .ok v → P v

/-- An action keeps to a boundary. -/
abbrev Action.Keeps {α : Type} (b : Boundary) (a : Action α) : Prop :=
  a.Within b fun _ => True

/-- Callbacks keep to the boundary when they are run on a query that is not kept, and those that are
trusted on any query. -/
def Boundary.Runs (b : Boundary) (run : Runner) : Prop :=
  ∀ callback q extra, ¬b.kept q ∨ b.trusted callback → b.AdmitsAll extra →
    (run callback q extra).Within b b.Admits

section Combinators

variable {b : Boundary} {α β : Type} {P : α → Prop} {Q : β → Prop}

theorem within_pure {v : α} (h : P v) : (pure v : Action α).Within b P := by
  intro s hs
  refine ⟨hs, .refl s, fun w hw => ?_⟩
  cases hw
  exact h

theorem within_throw (e : Failure) : (throw e : Action α).Within b P := fun s hs =>
  ⟨hs, .refl s, fun _ hw => nomatch hw⟩

theorem within_ofExcept {r : Except Failure α} (h : ∀ v, r = .ok v → P v) :
    (Action.ofExcept r).Within b P := fun s hs =>
  ⟨hs, .refl s, h⟩

theorem keeps_ofExcept (r : Except Failure α) : (Action.ofExcept r).Keeps b :=
  within_ofExcept fun _ _ => trivial

theorem Action.Within.bind {a : Action α} {f : α → Action β} (ha : a.Within b P)
    (hf : ∀ v, P v → (f v).Within b Q) : (a >>= f).Within b Q := by
  intro s hs
  have hbind : (a >>= f).run.run s =
      (ExceptT.bindCont f (a.run.run s).1).run (a.run.run s).2 := rfl
  obtain ⟨hguards, hstep, hresult⟩ := ha s hs
  rw [hbind]
  cases hr : (a.run.run s).1 with
  | error e => exact ⟨hguards, hstep, fun _ hw => nomatch hw⟩
  | ok v =>
    obtain ⟨hguards', hstep', hresult'⟩ := hf v (hresult v hr) _ hguards
    exact ⟨hguards', hstep.trans hstep', hresult'⟩

theorem Action.Within.mono {a : Action α} {P' : α → Prop} (ha : a.Within b P)
    (h : ∀ v, P v → P' v) : a.Within b P' := fun s hs =>
  let ⟨hguards, hstep, hresult⟩ := ha s hs
  ⟨hguards, hstep, fun v hv => h v (hresult v hv)⟩

theorem Action.Within.keeps {a : Action α} (ha : a.Within b P) : a.Keeps b :=
  ha.mono fun _ _ => trivial

theorem Action.Within.map {a : Action α} {f : α → β} (ha : a.Within b P)
    (h : ∀ v, P v → Q (f v)) : (f <$> a).Within b Q := by
  rw [map_eq_pure_bind]
  exact ha.bind fun v hv => within_pure (h v hv)

theorem Action.Within.discard {a : Action α} (ha : a.Within b P) : (discard a).Keeps b :=
  ha.map fun _ _ => trivial

/-- An action after another whose result it does not use. -/
theorem Action.Keeps.next {a : Action α} {f : α → Action β} (ha : a.Keeps b)
    (hf : ∀ v, (f v).Within b Q) : (a >>= f).Within b Q :=
  ha.bind fun v _ => hf v

theorem within_get : (get : Action Store).Within b fun s => b.Guards s := by
  intro s hs
  refine ⟨hs, .refl s, fun w hw => ?_⟩
  cases hw
  exact hs

theorem keeps_forM {xs : List α} {f : α → Action PUnit} (h : ∀ x ∈ xs, (f x).Keeps b) :
    (xs.forM f).Keeps b := by
  induction xs with
  | nil => exact within_pure trivial
  | cons x xs ih =>
    show Action.Keeps b (f x >>= fun _ => xs.forM f)
    exact (h x List.mem_cons_self).next fun _ => ih fun y hy => h y (List.mem_cons_of_mem x hy)

theorem within_mapM {xs : List α} {f : α → Action β} (h : ∀ x ∈ xs, (f x).Within b Q) :
    (xs.mapM f).Within b fun ys => ∀ y ∈ ys, Q y := by
  induction xs with
  | nil => exact within_pure fun _ h => nomatch h
  | cons x xs ih =>
    rw [List.mapM_cons]
    refine (h x List.mem_cons_self).bind fun y hy => ?_
    refine (ih fun z hz => h z (List.mem_cons_of_mem x hz)).bind fun ys hys => ?_
    exact within_pure (List.forall_mem_cons.2 ⟨hy, hys⟩)

end Combinators

/-! ## Primitive actions -/

section Primitives

variable {b : Boundary} {t : QueryId}

theorem within_read (h : ¬b.hidden t) : t.read.Within b b.AdmitsQuery := by
  intro s hs
  refine ⟨hs, .refl s, fun q hq => ?_⟩
  cases hq
  exact hs.queries t h

/-- A change of a query that is not kept. -/
theorem keeps_modify (h : ¬b.kept t) {f : Query → Query} (hkind : ∀ q, (f q).kind = q.kind)
    (hadmits : ∀ q, b.AdmitsQuery q → b.AdmitsQuery (f q)) : (t.modify f).Keeps b := by
  intro s hs
  show b.Guards (s.edit t f) ∧ b.Step s (s.edit t f) ∧ _
  have hquery : ∀ id, (s.edit t f).query id = s.query id ∨
      id = t ∧ (s.edit t f).query id = f (s.query id) := by
    intro id
    by_cases hid : id = t
    · subst hid
      by_cases hlt : id.index < s.queries.size
      · exact .inr ⟨rfl, Store.query_edit_self hlt f⟩
      · refine .inl ?_
        unfold Store.query Store.edit
        rw [Array.getElem?_eq_none (by rw [Array.size_modify]; omega),
          Array.getElem?_eq_none (by omega)]
    · exact .inl (Store.query_edit_of_ne hid f)
  refine ⟨⟨?_, hs.world, fun id hid => ?_, hs.connections, hs.resolvers, hs.answers⟩, ⟨?_,
    fun id hid => ?_, fun id _ => ?_, fun _ => ⟨Nat.le_refl _, fun _ _ => rfl, rfl⟩⟩, fun _ _ => trivial⟩
  · rw [Store.size_edit]
    exact hs.start_le
  · obtain h' | ⟨_, h'⟩ := hquery id
    · rw [h']
      exact hs.queries id hid
    · rw [h']
      exact hadmits _ (hs.queries id hid)
  · exact Nat.le_of_eq (Store.size_edit s t f).symm
  · refine Store.query_edit_of_ne (fun heq => h ?_) f
    exact heq ▸ hid
  · obtain h' | ⟨_, h'⟩ := hquery id
    · rw [h']
    · rw [h', hkind]

/-- A new query is neither kept nor hidden. -/
theorem within_create {q : Query} (h : b.AdmitsQuery q) : q.create.Within b fun id => ¬b.kept id := by
  intro s hs
  show b.Guards (s.add q) ∧ b.Step s (s.add q) ∧ _
  refine ⟨⟨?_, hs.world, fun id hid => ?_, hs.connections, hs.resolvers, hs.answers⟩, ⟨?_,
    fun id hid => ?_, fun id hid => ?_, fun _ => ⟨Nat.le_refl _, fun _ _ => rfl, rfl⟩⟩,
    fun id hid => ?_⟩
  · rw [Store.size_add]
    have := hs.start_le
    omega
  · by_cases hlt : id.index < s.queries.size
    · rw [Store.query_add_of_lt hlt]
      exact hs.queries id hid
    · by_cases hnext : id = s.next
      · rw [hnext, Store.query_add_next]
        exact h
      · -- Beyond the last query the store shows a default, as it did before.
        have hne : id.index ≠ s.queries.size := fun he => hnext (by cases id; cases he; rfl)
        have hquery : (s.add q).query id = s.query id := by
          unfold Store.query Store.add
          rw [Array.getElem?_push, if_neg hne]
        rw [hquery]
        exact hs.queries id hid
  · rw [Store.size_add]
    omega
  · exact Store.query_add_of_lt (Nat.lt_of_lt_of_le (b.lt_of_kept hid) hs.start_le) q
  · rw [Store.query_add_of_lt hid]
  · cases hid
    exact Boundary.not_kept_of_le hs.start_le

/-- Running a callback keeps to the boundary. -/
theorem Boundary.Runs.on {run : Runner} (hrun : b.Runs run) (h : ¬b.kept t) (callback : CallbackId)
    {extra : List Value} (hextra : b.AdmitsAll extra) :
    (run callback t extra).Within b b.Admits :=
  hrun callback t extra (.inl h) hextra

end Primitives

end FluentSql
