import FluentSql.Proofs.Building.Refreshing
import FluentSql.Proofs.Cloning
import FluentSql.Proofs.Parallel.Selecting

/-!
# Copies that are changed

The copy of a query can be changed as the query could have been.  A change that
brings in no object commutes with copying: the changed copy has the select
statement that the query has with the same change.

* `Query.Adjusts` are the changes, and `Store.Clonable` the queries that can be
  copied and compiled.
* `Store.Clonable.edit` and `Store.Clonable.withCopy` say that a changed query
  and a copy are such queries again.
* `Store.Clonable.compiled_copy` is the result.
-/

namespace FluentSql

/-- A change of a query that brings in no object and keeps what the query is. -/
structure Query.Adjusts (f : Query → Query) : Prop where
  handles : ∀ q, (f q).handles ⊆ q.handles
  rename : ∀ (q : Query) (r : Renaming), (f q).rename r = f (q.rename r)
  kind : ∀ q, (f q).kind = q.kind
  connection : ∀ q, (f q).connection = q.connection
  grammar : ∀ q, (f q).grammar = q.grammar
  data : ∀ q : Query, (∀ v ∈ q.bindings.flatten, v.handles = []) →
    ∀ v ∈ (f q).bindings.flatten, v.handles = []

theorem Query.Adjusts.comp {f g : Query → Query} (hf : Adjusts f) (hg : Adjusts g) :
    Adjusts fun q => g (f q) where
  handles q := List.Subset.trans (hg.handles _) (hf.handles q)
  rename q r := (hg.rename _ r).trans (congrArg g (hf.rename q r))
  kind q := (hg.kind _).trans (hf.kind q)
  connection q := (hg.connection _).trans (hf.connection q)
  grammar q := (hg.grammar _).trans (hf.grammar q)
  data q h := hg.data _ (hf.data q h)

theorem Query.Adjusts.same : Adjusts fun q => q :=
  ⟨fun _ => List.Subset.refl _, fun _ _ => rfl, fun _ => rfl, fun _ => rfl, fun _ => rfl,
    fun _ h => h⟩

/-- A change may depend on what copies share with the query. -/
theorem Query.Adjusts.ite {p : Query → Bool} {f g : Query → Query}
    (hp : ∀ (q : Query) (r : Renaming), p (q.rename r) = p q) (hf : Adjusts f) (hg : Adjusts g) :
    Adjusts fun q => if p q then f q else g q := by
  refine ⟨fun q => ?_, fun q r => ?_, fun q => ?_, fun q => ?_, fun q => ?_, fun q => ?_⟩
  all_goals cases h : p q
  · exact hg.handles q
  · exact hf.handles q
  · exact (hg.rename q r).trans (if_neg (by rw [hp, h]; exact Bool.false_ne_true)).symm
  · exact (hf.rename q r).trans (if_pos (by rw [hp, h])).symm
  · exact hg.kind q
  · exact hf.kind q
  · exact hg.connection q
  · exact hf.connection q
  · exact hg.grammar q
  · exact hf.grammar q
  · exact hg.data q
  · exact hf.data q

theorem Query.isUnion_rename (q : Query) (r : Renaming) : (q.rename r).isUnion = q.isUnion := by
  unfold isUnion
  exact congrArg _ List.isEmpty_map

/-- A change of what a query selects, of how it orders and pages, and of its values refers to
nothing new. -/
theorem Query.handles_subset {q : Query} (limit : Option Nat) {bindings : Bindings}
    {aggregate : Option Aggregate} {columns : Option (List Value)} {orders : List Order}
    (hbindings : ∀ v ∈ bindings.flatten, v ∈ q.bindings.flatten)
    (haggregate : aggregate = q.aggregate ∨
      ∀ a ∈ aggregate, a.function.handles = [] ∧ ∀ v ∈ a.columns, v.handles = [])
    (hcolumns : columns = q.columns ∨ ∀ v ∈ columns.getD [], v.handles = [])
    (horders : orders ⊆ q.orders) :
    { q with bindings, aggregate, columns, orders, limit }.handles ⊆ q.handles := by
  intro x hx
  have hbound : x ∈ Value.handlesOfAll bindings.flatten →
      x ∈ Value.handlesOfAll q.bindings.flatten := by
    simp only [Value.handlesOfAll_eq_flatMap, List.mem_flatMap]
    exact fun ⟨v, hv, hx⟩ => ⟨v, hbindings v hv, hx⟩
  have hfunction : x ∈ aggregate.toList.flatMap
        (fun a => a.function.handles ++ Value.handlesOfAll a.columns) →
      x ∈ q.aggregate.toList.flatMap
        (fun a => a.function.handles ++ Value.handlesOfAll a.columns) := by
    rcases haggregate with rfl | hdata
    · exact id
    · intro hx
      obtain ⟨a, ha, hx⟩ := List.mem_flatMap.1 hx
      obtain ⟨hfunction, hcolumns⟩ := hdata a (Option.mem_toList.1 ha)
      rw [hfunction, Value.handlesOfAll_eq_nil.2 hcolumns] at hx
      exact nomatch hx
  have hlist : x ∈ Value.handlesOfAll (columns.getD []) →
      x ∈ Value.handlesOfAll (q.columns.getD []) := by
    rcases hcolumns with rfl | hdata
    · exact id
    · rw [Value.handlesOfAll_eq_nil.2 hdata]
      exact nofun
  have hordering : x ∈ orders.flatMap Order.handles → x ∈ q.orders.flatMap Order.handles := by
    simp only [List.mem_flatMap]
    exact fun ⟨order, horder, hx⟩ => ⟨order, horders horder, hx⟩
  simp only [handles, List.mem_append, or_assoc] at hx ⊢
  exact hx.imp_right (.imp_right (.imp_right (.imp hbound (.imp hfunction (.imp hlist (.imp_right
    (.imp_right (.imp_right (.imp_right (.imp_right (.imp_left hordering)))))))))))

theorem Bindings.mem_of_set {b : Bindings} {group : BindingGroup} {v : Value}
    (h : v ∈ (b.set group []).flatten) : v ∈ b.flatten := by
  obtain ⟨other, _, hv⟩ := List.mem_flatMap.1 h
  by_cases heq : other = group
  · subst heq
    rw [Bindings.get_set_self] at hv
    exact nomatch hv
  · rw [Bindings.get_set_of_ne _ _ heq] at hv
    exact Bindings.mem_flatten hv

theorem Bindings.map_set (b : Bindings) (group : BindingGroup) (f : Value → Value) :
    (b.set group []).map f = (b.map f).set group [] := by
  cases group <;> rfl

theorem Reproduces.eq {α : Type} {x y : Except Failure α} (h : Reproduces False x y) : x = y :=
  h.same_or_endless.resolve_right fun h => h.1

/-! ## What is compiled inside a query -/

section

variable {q : Query} {inner : Part}

theorem Where.query_of_part {body : Where} (h : .part inner ∈ body.items) :
    inner.query ∈ body.attached? := by
  cases body with
  | nested query =>
    cases List.mem_singleton.1 h
    rfl
  | sub column operator query =>
    rw [items, List.mem_cons, List.mem_singleton, Item.part.injEq] at h
    obtain rfl := h.resolve_right nofun
    rfl
  | «exists» query negated =>
    cases query with
    | none => exact nomatch List.mem_singleton.1 h
    | some query =>
      cases List.mem_singleton.1 h
      rfl
  | among column values negated =>
    rw [items] at h
    split at h <;> simp at h
  | amongIntegers column values negated =>
    rw [items] at h
    split at h <;> simp at h
  | between column values negated =>
    rw [items] at h
    split at h <;> simp at h
  | _ => simp [items] at h

theorem Having.part_not_mem {body : Having} : .part inner ∉ body.items := by
  cases body with
  | between column values negated =>
    rw [items]
    split <;> simp
  | _ => simp [items]

theorem orderItems_part {orders : List Order} : .part inner ∉ orderItems orders := by
  intro h
  obtain ⟨order, _, heq⟩ := List.mem_map.1 h
  cases order <;> exact nomatch heq

theorem countItems_part {count : Option Nat} : .part inner ∉ countItems count := by
  simp [countItems]

namespace Query

theorem attached_of_conditionItems (h : .part inner ∈ q.conditionItems) :
    inner.query ∈ q.attachments := by
  obtain ⟨c, hc, hitem⟩ := List.mem_flatMap.1 h
  exact Query.mem_attachments_of_where hc (Where.query_of_part hitem)

theorem attached_of_unionItems (h : .part inner ∈ q.unionItems) : inner.query ∈ q.attachments := by
  obtain ⟨u, hu, hmember⟩ : ∃ u ∈ q.unions, Item.selectOf u.member = .part inner := by
    rcases List.mem_append.1 h with h | h
    · exact List.mem_map.1 h
    · split at h
      · simp [orderItems_part, countItems_part] at h
      · exact nomatch h
  refine mem_attachments_sub (mem_subQueries_union hu ?_)
  cases hid : u.member with
  | none =>
    rw [hid] at hmember
    exact nomatch hmember
  | some id =>
    rw [hid] at hmember
    cases hmember
    rfl

theorem attached_of_plainItems (h : .part inner ∈ q.plainItems) : inner.query ∈ q.attachments := by
  have hlist : .part inner ∉ q.listItems := by
    unfold listItems
    split <;> simp
  have hsource : .part inner ∉ if q.source.isPresent then [Item.table q.source] else [] := by
    split <;> simp
  rw [plainItems, clauseItems] at h
  simp only [List.mem_append, List.mem_map, List.mem_flatMap, orderItems_part, countItems_part,
    Having.part_not_mem, hlist, hsource, reduceCtorEq, and_false, exists_false, or_false,
    false_or, Item.part.injEq] at h
  rcases h with (⟨id, hid, rfl⟩ | h) | h
  · exact mem_attachments_join hid
  · exact attached_of_conditionItems h
  · exact attached_of_unionItems h

theorem attached_of_statementItems (h : .part inner ∈ q.statementItems) :
    inner.query ∈ q.attachments := by
  unfold statementItems at h
  split at h
  · split at h
    · have hplain : .part inner ∈ { q with aggregate := none }.plainItems := by
        simpa using h
      exact (attached_of_plainItems hplain :)
    · exact attached_of_plainItems h
  · exact attached_of_plainItems h

theorem attached_of_joinItems (h : .part inner ∈ q.joinItems) : inner.query ∈ q.attachments := by
  rw [joinItems] at h
  rcases List.mem_cons.1 h with h | h
  · split at h <;> exact nomatch h
  · rcases List.mem_append.1 h with h | h
    · obtain ⟨id, hid, heq⟩ := List.mem_map.1 h
      cases heq
      exact mem_attachments_join hid
    · exact attached_of_conditionItems h

end Query

/-- What is compiled inside a part is compiled from a query that is attached to that of the part. -/
theorem Store.attached_of_encloses {s : Store} {outer : Part} (h : s.Encloses outer inner) :
    inner.query ∈ (s.query outer.query).attachments := by
  have hitem := Store.mem_parts.1 h
  cases outer with
  | select id => exact Query.attached_of_statementItems hitem
  | conditions id => exact Query.attached_of_conditionItems hitem
  | join id => exact Query.attached_of_joinItems hitem

/-- The queries that are attached to a query are among those that it refers to. -/
theorem Query.query_mem_handles {id : QueryId} (h : id ∈ q.attachments) :
    .query id ∈ q.handles := by
  have hbody : ∀ c ∈ q.wheres, .query id ∈ c.body.handles →
      .query id ∈ q.wheres.flatMap fun c => c.boolean.handles ++ c.body.handles :=
    fun c hc hid => List.mem_flatMap.2 ⟨c, hc, List.mem_append_right _ hid⟩
  have hmem : .query id ∈ q.joins.map Handle.query ∨
      .query id ∈ q.wheres.flatMap (fun c => c.boolean.handles ++ c.body.handles) ∨
      .query id ∈ q.unions.flatMap fun u => u.member.toList.map .query ++ u.keepsAll.handles := by
    rcases mem_attachments.1 h with hjoin | ⟨c, hc, hgroup⟩ | hsub
    · exact .inl (List.mem_map_of_mem hjoin)
    · refine .inr (.inl (hbody c hc ?_))
      cases hcase : c.body <;> rw [hcase] at hgroup <;> cases hgroup
      exact List.mem_cons_self
    · rcases mem_subQueries.1 hsub with ⟨c, hc, hsub⟩ | ⟨u, hu, hmember⟩
      · refine .inr (.inl (hbody c hc ?_))
        cases hcase : c.body <;> rw [hcase] at hsub <;> cases hsub
        · exact List.mem_append_right _ List.mem_cons_self
        · exact List.mem_cons_self
      · refine .inr (.inr (List.mem_flatMap.2 ⟨u, hu, List.mem_append_left _ ?_⟩))
        rw [hmember]
        exact List.mem_cons_self
  simp only [handles, List.mem_append]
  tauto

end

/-! ## Queries that can be copied and compiled -/

/-- Queries, connections and grammars are copied with what refers to them. -/
def Handle.IsCopied : Handle → Prop
  | .query _ | .connection _ | .grammar _ => True
  | _ => False

instance : DecidablePred Handle.IsCopied := fun x =>
  match x with
  | .query _ | .connection _ | .grammar _ => .isTrue trivial
  | .resolver _ | .callback _ | .bindings _ | .settings _ | .extensions => .isFalse id

/-- A query refers to another one, itself or through others. -/
def Store.Refers (s : Store) : QueryId → QueryId → Prop :=
  Relation.TransGen fun a b => .query b ∈ (s.query a).handles

/-- All that a query refers to can be copied with it: queries that are there, connections and
grammars.  None of the queries refers to itself, and the query is bound to data. -/
structure Store.Clonable (s : Store) (q : QueryId) : Prop where
  orderly : s.Orderly
  whole : s.Whole q
  kinds : ∀ x, s.Reaches (.query q) x → x.IsCopied
  acyclic : ∀ id, s.Reaches (.query q) (.query id) → ¬s.Refers id id
  connected : ∀ c ∈ (s.query q).connection, c.index < s.connections.size
  data : ∀ v ∈ (s.query q).bindings.flatten, v.handles = []

namespace Store

variable {s : Store} {q a b id : QueryId} {f : Query → Query}

theorem Clonable.lt (h : s.Clonable q) : q.index < s.queries.size :=
  h.whole.queries q .refl

/-- A query that can be copied is copied. -/
theorem Clonable.ran_copy (h : s.Clonable q) :
    Ran q.copy s ((s.placing q).query q) (s.withCopy q) :=
  Store.ran_copy fun hextensions => h.kinds _ hextensions

theorem Reaches.refers {x : Handle} (ha : s.Reaches x (.query a)) (hab : s.Refers a b) :
    s.Reaches x (.query b) := by
  induction hab with
  | single hb => exact ha.step hb
  | tail _ hb ih => exact ih.step hb

/-- Compiling such a query comes to its end. -/
theorem Clonable.within (h : s.Clonable q) :
    s.settled.Within (s.settled.attachedDepth + 1) (.select q) := by
  have hencloses : ∀ {outer inner : Part}, s.Reaches (.query q) (.query outer.query) →
      s.settled.Encloses outer inner → .query inner.query ∈ (s.query outer.query).handles := by
    intro outer inner hreaches hencloses
    rw [← h.whole.settled_query hreaches]
    exact Query.query_mem_handles (attached_of_encloses hencloses)
  have hrefers : ∀ {outer inner : Part}, s.Reaches (.query q) (.query outer.query) →
      Relation.TransGen s.settled.Encloses outer inner → s.Refers outer.query inner.query := by
    intro outer inner hreaches htrans
    induction htrans with
    | single hinner => exact .single (hencloses hreaches hinner)
    | tail _ hinner ih => exact ih.tail (hencloses (hreaches.refers ih) hinner)
  refine within_of_uncircled fun part hvisits hcircle => ?_
  have hpart : s.Reaches (.query q) (.query part.query) := by
    rcases Relation.reflTransGen_iff_eq_or_transGen.1 hvisits with rfl | htrans
    · exact .refl
    · exact Reaches.refl.refers (hrefers .refl htrans)
  exact h.acyclic _ hpart (hrefers hpart hcircle)

/-- A query that is bound to data can be copied and compiled if all queries refer to later ones
alone, and beside them to connections and grammars. -/
theorem Clonable.of_later (horderly : s.Orderly)
    (hgrammar : ∃ g, (s.query q).grammar = .grammar g ∧ g.index < s.grammars.size)
    (hlt : q.index < s.queries.size)
    (hlater : ∀ a, a.index < s.queries.size → ∀ x ∈ (s.query a).handles, x.IsCopied ∧
      ∀ b, x = .query b → a.index < b.index ∧ b.index < s.queries.size)
    (hconnected : ∀ c ∈ (s.query q).connection, c.index < s.connections.size)
    (hdata : ∀ v ∈ (s.query q).bindings.flatten, v.handles = []) : s.Clonable q := by
  have hreached : ∀ x, s.Reaches (.query q) x →
      x.IsCopied ∧ ∀ b, x = .query b → b.index < s.queries.size := by
    refine fun x hx => hx.forall
      (P := fun x => x.IsCopied ∧ ∀ b, x = .query b → b.index < s.queries.size) ⟨trivial, ?_⟩ ?_ ?_
    · rintro b ⟨⟩
      exact hlt
    · rintro x ⟨hkind, hqueries⟩ y hy
      cases x with
      | query a =>
        obtain ⟨hcopied, hb⟩ := hlater a (hqueries a rfl) y hy
        exact ⟨hcopied, fun b heq => (hb b heq).2⟩
      | connection c =>
        obtain ⟨g, hg⟩ := horderly.connections c
        rw [handlesOf, hg] at hy
        cases List.mem_singleton.1 hy
        exact ⟨trivial, by rintro b ⟨⟩⟩
      | grammar g => cases hy
      | _ => exact hkind.elim
    · exact fun id hid => hid.1.elim
  have hrefers : ∀ {a b}, a.index < s.queries.size → s.Refers a b →
      a.index < b.index ∧ b.index < s.queries.size := by
    intro a b ha hab
    induction hab with
    | single hb => exact (hlater a ha _ hb).2 _ rfl
    | tail _ hb ih =>
      have hnext := (hlater _ ih.2 _ hb).2 _ rfl
      exact ⟨Nat.lt_trans ih.1 hnext.1, hnext.2⟩
  exact
    { orderly := horderly
      whole := ⟨hgrammar, fun id hid => (hreached _ hid).2 id rfl, fun id hid => (hreached _ hid).1⟩
      kinds := fun x hx => (hreached x hx).1
      acyclic := fun id hid hrefers' =>
        Nat.lt_irrefl _ (hrefers ((hreached _ hid).2 id rfl) hrefers').1
      connected := hconnected
      data := hdata }

/-! ## Changes -/

theorem Orderly.edit (h : s.Orderly) (t : QueryId) (f : Query → Query) : (s.edit t f).Orderly :=
  ⟨h.connections, h.resolvers, h.silent⟩

theorem Orderly.silent_settled (h : s.Orderly) (request : Request) :
    s.settled.extension? request.name = none :=
  h.silent request

theorem grammar_edit (s : Store) (t : QueryId) (f : Query → Query) (id : GrammarId) :
    (s.edit t f).grammar id = s.grammar id := rfl

section

variable (h : s.Clonable q) (hf : Query.Adjusts f)

include h hf

theorem Clonable.reaches_edit {x : Handle} (hx : (s.edit q f).Reaches (.query q) x) :
    s.Reaches (.query q) x := by
  induction hx with
  | refl => exact .refl
  | @step x y _ hy ih =>
    refine ih.step ?_
    have hkind := h.kinds x ih
    cases x with
    | query id =>
      by_cases hid : id = q
      · subst hid
        rw [handlesOf, query_edit_self h.lt] at hy
        exact hf.handles _ hy
      · rwa [handlesOf, query_edit_of_ne hid] at hy
    | connection id => exact hy
    | grammar id => exact hy
    | _ => exact hkind.elim
  | owner _ ih => exact .owner ih

theorem Clonable.refers_edit (hab : (s.edit q f).Refers a b) : s.Refers a b := by
  refine Relation.TransGen.mono (fun a b hb => ?_) _ _ hab
  by_cases ha : a = q
  · subst ha
    rw [query_edit_self h.lt] at hb
    exact hf.handles _ hb
  · rwa [query_edit_of_ne ha] at hb

/-- A query that is changed can still be copied and compiled. -/
theorem Clonable.edit : (s.edit q f).Clonable q where
  orderly := h.orderly.edit q f
  whole :=
    { grammar := by
        rw [query_edit_self h.lt, hf.grammar]
        exact h.whole.grammar
      queries := fun id hid => by
        rw [size_edit]
        exact h.whole.queries id (h.reaches_edit hf hid)
      plain := fun id hid => h.whole.plain id (h.reaches_edit hf hid) }
  kinds x hx := h.kinds x (h.reaches_edit hf hx)
  acyclic id hid hrefers := h.acyclic id (h.reaches_edit hf hid) (h.refers_edit hf hrefers)
  connected := by
    rw [query_edit_self h.lt, hf.connection]
    exact h.connected
  data := by
    rw [query_edit_self h.lt]
    exact hf.data _ h.data

end

/-! ## Copies -/

theorem placing_injective (ha : .query a ∈ s.copied q) (hb : .query b ∈ s.copied q)
    (hab : (s.placing q).query a = (s.placing q).query b) : a = b := by
  obtain ⟨k, hk, hplace⟩ := placing_query ha
  obtain ⟨l, hl, hplace'⟩ := placing_query hb
  rw [hplace, hplace', QueryId.mk.injEq] at hab
  obtain rfl : k = l := Nat.add_left_cancel hab
  rw [hk] at hl
  exact Option.some.inj hl

section

variable (h : s.Clonable q)

include h

/-- What a copied query refers to is copied with it. -/
theorem Clonable.handles_copied (ha : .query a ∈ s.copied q) {x : Handle}
    (hx : x ∈ (s.query a).handles) : x.IsCopied ∧ ∀ id, x = .query id → .query id ∈ s.copied q := by
  refine ⟨h.kinds x ((reaches_of_reachable ha).step hx), ?_⟩
  rintro id rfl
  exact copied_closed h.whole h.orderly ha hx

/-- What a copy refers to takes the place of what the query refers to. -/
theorem Clonable.handles_copy (ha : .query a ∈ s.copied q) {x : Handle}
    (hx : x ∈ ((s.withCopy q).query ((s.placing q).query a)).handles) :
    x.IsCopied ∧ ∀ b, x.owner? = some b →
      x = .query b ∧ ∃ c, .query c ∈ s.copied q ∧ b = (s.placing q).query c ∧
        .query c ∈ (s.query a).handles := by
  rw [query_placing h.whole ha, Query.handles_rename] at hx
  obtain ⟨before, hbefore, hx⟩ := List.mem_flatMap.1 hx
  obtain ⟨hkind, hcopied⟩ := h.handles_copied ha hbefore
  cases before with
  | query c =>
    cases List.mem_singleton.1 hx
    refine ⟨trivial, fun b hb => ?_⟩
    cases hb
    exact ⟨rfl, c, hcopied c rfl, rfl, hbefore⟩
  | connection c =>
    cases List.mem_singleton.1 hx
    exact ⟨trivial, nofun⟩
  | grammar c =>
    cases List.mem_singleton.1 hx
    exact ⟨trivial, nofun⟩
  | _ => exact hkind.elim

/-- The queries that a copy refers to are copies of those that the query refers to. -/
theorem Clonable.refers_copy (ha : .query a ∈ s.copied q)
    (hab : (s.withCopy q).Refers ((s.placing q).query a) b) :
    ∃ c, .query c ∈ s.copied q ∧ b = (s.placing q).query c ∧ s.Refers a c := by
  induction hab with
  | single hb =>
    obtain ⟨_, c, hc, rfl, hmem⟩ := (h.handles_copy ha hb).2 _ rfl
    exact ⟨c, hc, rfl, .single hmem⟩
  | tail _ hb ih =>
    obtain ⟨c, hc, rfl, hrefers⟩ := ih
    obtain ⟨_, d, hd, rfl, hmem⟩ := (h.handles_copy hc hb).2 _ rfl
    exact ⟨d, hd, rfl, hrefers.tail hmem⟩

/-- The copy of a query can be copied and compiled. -/
theorem Clonable.withCopy : (s.withCopy q).Clonable ((s.placing q).query q) where
  orderly := h.orderly.withCopy q
  whole := whole_copy h.orderly h.whole
  kinds x hx := by
    have hall : (∃ a, .query a ∈ s.copied q ∧ x = .query ((s.placing q).query a)) ∨
        (x.owner? = none ∧ x.IsCopied) := by
      refine hx.forall (P := fun x => (∃ a, .query a ∈ s.copied q ∧
        x = .query ((s.placing q).query a)) ∨ (x.owner? = none ∧ x.IsCopied))
        (.inl ⟨q, mem_copied_self, rfl⟩) ?_ ?_
      · rintro x (⟨a, ha, rfl⟩ | ⟨hnone, hkind⟩) y hy
        · obtain ⟨hkind, hqueries⟩ := h.handles_copy ha hy
          cases howner : y.owner? with
          | none => exact .inr ⟨rfl, hkind⟩
          | some b =>
            obtain ⟨rfl, c, hc, rfl, _⟩ := hqueries b howner
            exact .inl ⟨c, hc, rfl⟩
        · cases x with
          | connection id =>
            obtain ⟨g, hg⟩ := (h.orderly.withCopy q).connections id
            rw [handlesOf, hg] at hy
            cases List.mem_singleton.1 hy
            exact .inr ⟨rfl, trivial⟩
          | grammar id => cases hy
          | query id => cases hnone
          | _ => exact hkind.elim
      · rintro id (⟨_, _, hid⟩ | ⟨hnone, _⟩)
        · cases hid
        · cases hnone
    rcases hall with ⟨_, _, rfl⟩ | ⟨_, hkind⟩
    · trivial
    · exact hkind
  acyclic id hid hrefers := by
    obtain ⟨_, a, ha, rfl⟩ := reaches_copy h.orderly h.whole hid id rfl
    obtain ⟨b, hb, hab, hrefers⟩ := h.refers_copy ha hrefers
    obtain rfl := placing_injective ha hb hab
    exact h.acyclic a (reaches_of_reachable ha) hrefers
  connected c hc := by
    rw [copy_connection h.whole] at hc
    refine Nat.lt_of_lt_of_le (h.connected c hc) ?_
    unfold Store.withCopy addCopies
    dsimp only
    rw [Array.size_append]
    exact Nat.le_add_right _ _
  data v hv := by
    rw [query_placing h.whole mem_copied_self] at hv
    have hflatten : v ∈ ((s.query q).bindings.map (s.placing q).value).flatten := hv
    rw [Bindings.flatten_map, (s.placing q).values_data h.data] at hflatten
    exact h.data v hflatten

/-- A copy asks the connection of the query. -/
theorem Clonable.connection_copy {c : ConnectionId} (hc : (s.query q).connection = some c) :
    (s.withCopy q).connection c = s.connection c := by
  have hlt := h.connected c hc
  unfold Store.withCopy addCopies connection
  dsimp only
  rw [Array.getElem?_append_left hlt]

/-- A copy has the values of the query. -/
theorem Clonable.bindings_copy :
    ((s.withCopy q).query ((s.placing q).query q)).bindings = (s.query q).bindings := by
  rw [query_placing h.whole mem_copied_self]
  exact Bindings.map_data _ h.data

/-- A copy has a select list if the query has one. -/
theorem Clonable.columns_copy (hnone : (s.query q).columns = none) :
    ((s.withCopy q).query ((s.placing q).query q)).columns = none := by
  rw [query_placing h.whole mem_copied_self]
  show (s.query q).columns.map _ = none
  rw [hnone]
  rfl

/-! ## Copies that are changed -/

omit h in
/-- Queries that resemble each other are compiled alike, if the first is compiled to its end. -/
theorem Resembles.compiled_within {r : Renaming} {met : QueryId → Prop} {s' : Store}
    (h : Resembles r met s s') (hid : met id)
    (hwithin : s.Within (s.attachedDepth + 1) (.select id))
    (hsize : s.queries.size ≤ s'.queries.size)
    (hgrammar : ∀ method, s'.grammarFor (s'.query (r.query id)).grammar method =
      s.grammarFor (s.query id).grammar method) (method : String) :
    Reproduces False (s.compiled [] id method Grammar.selectSql)
      (s'.compiled [] (r.query id) method Grammar.selectSql) := by
  have hdepth : s.attachedDepth + 1 ≤ s'.attachedDepth + 1 :=
    Nat.succ_le_succ (Nat.succ_le_succ (Nat.mul_le_mul_left 3 hsize))
  unfold Store.compiled
  refine .after (Resembles.grammarFor_asksNothing s _ method) (hgrammar method) fun g => ?_
  have hselect : Reproduces False
      ((FluentSql.attachedBy s g (s.oracle []) (s'.attachedDepth + 1)).select id)
      ((FluentSql.attachedBy s' g (s'.oracle []) (s'.attachedDepth + 1)).select (r.query id)) :=
    (h.attachedBy g (.inl rfl)).select id hid
  have hdeeper : (FluentSql.attachedBy s g (s.oracle []) (s.attachedDepth + 1)).select id =
      (FluentSql.attachedBy s g (s.oracle []) (s'.attachedDepth + 1)).select id :=
    hwithin.part_eq g (s.oracle []) hdepth
  rw [← hdeeper] at hselect
  exact hselect

/-- The changed copy resembles the changed query. -/
theorem Clonable.resembles_edit (hf : Query.Adjusts f) :
    Resembles (s.placing q) (fun a => .query a ∈ s.copied q) (s.edit q f).settled
      ((s.withCopy q).edit ((s.placing q).query q) f).settled := by
  have hplain : ∀ a, .query a ∈ s.copied q →
      ∀ other, Handle.bindings other ∉ (s.query a).handles :=
    fun a ha other hmem => (h.handles_copied ha hmem).1
  have hcopyLt := placing_query_lt (mem_copied_self (s := s) (q := q))
  have horiginal : ∀ a, .query a ∈ s.copied q →
      ((s.edit q f).query a).handles ⊆ (s.query a).handles ∧
        (s.edit q f).settled.query a = (s.edit q f).query a := by
    intro a ha
    have hhandles : ((s.edit q f).query a).handles ⊆ (s.query a).handles := by
      by_cases hself : a = q
      · rw [hself, query_edit_self h.lt]
        exact hf.handles _
      · rw [query_edit_of_ne hself]
        exact List.Subset.refl _
    exact ⟨hhandles, settled_query fun other hmem => hplain a ha other (hhandles hmem)⟩
  have hcopy : ∀ a, .query a ∈ s.copied q →
      ((s.withCopy q).edit ((s.placing q).query q) f).query ((s.placing q).query a) =
        ((s.edit q f).query a).rename (s.placing q) := by
    intro a ha
    by_cases hself : a = q
    · rw [hself, query_edit_self hcopyLt, query_edit_self h.lt,
        query_placing h.whole mem_copied_self, hf.rename]
    · rw [query_edit_of_ne fun heq => hself (placing_injective ha mem_copied_self heq),
        query_edit_of_ne hself, query_placing h.whole ha]
  refine
    { faithful := placing_faithful s q
      query := fun a ha => ?_
      attached := fun a ha => ?_
      silent := (h.orderly.edit q f).silent_settled
      silent' := ((h.orderly.withCopy q).edit _ f).silent_settled }
  · obtain ⟨hhandles, hsame⟩ := horiginal a ha
    rw [hsame, settled_query, hcopy a ha]
    intro other hmem
    rw [hcopy a ha, Query.handles_rename] at hmem
    obtain ⟨before, hbefore, hmem⟩ := List.mem_flatMap.1 hmem
    cases before with
    | bindings id => exact hplain a ha id (hhandles hbefore)
    | _ => exact nomatch List.mem_singleton.1 hmem
  · obtain ⟨hhandles, hsame⟩ := horiginal a ha
    rw [hsame]
    exact Meets.attachedIn fun id hid => (h.handles_copied ha (hhandles hid)).2 id rfl

/-- The changed copy has the select statement of the changed query. -/
theorem Clonable.compiled_copy (hf : Query.Adjusts f) :
    Reproduces False ((s.edit q f).settled.compiled [] q "compile_select" Grammar.selectSql)
      (((s.withCopy q).edit ((s.placing q).query q) f).settled.compiled [] ((s.placing q).query q)
        "compile_select" Grammar.selectSql) := by
  refine (h.resembles_edit hf).compiled_within mem_copied_self (h.edit hf).within ?_ (fun _ => ?_) _
  · unfold settled
    dsimp only
    rw [Array.size_map, Array.size_map, size_edit, size_edit]
    unfold Store.withCopy
    rw [size_addCopies]
    exact Nat.le_add_right _ _
  · obtain ⟨g, hg, hlt⟩ := h.whole.grammar
    rw [grammarFor_settled, grammarFor_settled, query_edit_self h.lt,
      query_edit_self (placing_query_lt mem_copied_self), hf.grammar, hf.grammar,
      copy_grammar h.whole, hg]
    have hsame : (s.withCopy q).grammar g = s.grammar g := by
      unfold Store.withCopy addCopies grammar
      dsimp only
      rw [Array.getElem?_append_left hlt]
    unfold grammarFor
    dsimp only
    rw [grammar_edit, grammar_edit, hsame]

/-- A query that is changed while it is compiled has the select statement of the changed query. -/
theorem Clonable.compiled_edit (hf : Query.Adjusts f) :
    Reproduces False
      (s.settled.compiled [] q "compile_select" fun g attached query =>
        g.selectSql attached (f query))
      ((s.edit q f).settled.compiled [] q "compile_select" Grammar.selectSql) := by
  have hsettled : s.settled.query q = s.query q := h.whole.settled_query .refl
  have hedited : (s.edit q f).settled.query q = f (s.query q) :=
    ((h.edit hf).whole.settled_query .refl).trans (query_edit_self h.lt f)
  -- The query does not refer to itself, so all that it refers to stays as it is.
  have hkept : ∀ {id}, s.Refers q id →
      s.settled.query id = s.query id ∧ (s.edit q f).settled.query id = s.query id := by
    intro id hid
    have hne : id ≠ q := fun heq => h.acyclic q .refl (heq ▸ hid)
    have hplain : ∀ other, Handle.bindings other ∉ (s.query id).handles :=
      fun other hmem => h.whole.plain other ((Reaches.refl.refers hid).step hmem)
    have hsame : (s.edit q f).query id = s.query id := query_edit_of_ne hne f
    exact ⟨settled_query hplain, (settled_query (hsame ▸ hplain)).trans hsame⟩
  have hresembles : Resembles {} (s.Refers q) s.settled (s.edit q f).settled :=
    { faithful := fun id => ⟨id, rfl⟩
      query := fun id hid => by
        rw [(hkept hid).1, Query.rename_same]
        exact (hkept hid).2
      attached := fun id hid => by
        rw [(hkept hid).1]
        exact Meets.attachedIn fun inner hinner => hid.tail hinner
      silent := h.orderly.silent_settled
      silent' := (h.orderly.edit q f).silent_settled }
  have hattached : (f (s.query q)).AttachedIn (s.Refers q) :=
    Meets.attachedIn fun id hid => .single (hf.handles _ hid)
  have hdepth : (s.edit q f).settled.attachedDepth = s.settled.attachedDepth := by
    unfold attachedDepth settled
    dsimp only
    rw [Array.size_map, Array.size_map, size_edit]
  have hgrammar : (s.edit q f).settled.grammarFor ((s.edit q f).settled.query q).grammar
      "compile_select" = s.settled.grammarFor (s.settled.query q).grammar "compile_select" := by
    obtain ⟨g, hg, _⟩ := h.whole.grammar
    rw [grammarFor_settled, grammarFor_settled, query_edit_self h.lt, hf.grammar, hg]
    rfl
  unfold Store.compiled
  refine .after (Resembles.grammarFor_asksNothing _ _ _) hgrammar fun g => ?_
  have halike : Attached.Resembles False {} (s.Refers q) (s.settled.attached g [])
      ((s.edit q f).settled.attached g []) := by
    unfold Store.attached
    rw [hdepth]
    exact hresembles.attachedBy g (.inl rfl)
  rw [hsettled, hedited]
  have hselect := selectSql_reproduces g hresembles.faithful halike hattached
  rwa [Query.rename_same] at hselect

end

end Store

end FluentSql
