import FluentSql.Proofs.Building.Compiling
import FluentSql.Proofs.Building.Later
import Mathlib.Algebra.Order.BigOperators.Group.List
import Mathlib.Data.Finset.Lattice.Fold
import Mathlib.Logic.Relation
import Mathlib.Tactic.Ring

/-!
# Queries whose attached queries have changed

A query reads the values of an attached query when it is attached, and its text
whenever it is compiled itself.  If the attached query changes in between, the
two no longer belong together.  They would again if every query around the
changed one read the values once more; the text does not depend on values, so
this tells how many placeholders it has.

* `Store.Holds` says that a query is attached to another one, directly or not.
* `Query.refreshed` is a query that has read the values of what is attached to
  it once more, and `Query.Noted.refresh` says that it is noted.
* `Store.refreshed` does so for all of some queries, round by round: queries
  hold each other.  `Store.refreshed_stable` says when a query has settled.
* `Store.places` counts how often the text of a query holds that of another one,
  and `length_refreshed` what this means for the values.
* `Store.Revalues` relates stores that differ in values only, and
  `Store.Revalues.selectSql` says that the texts are the same.
-/

namespace FluentSql

section

variable {g : Grammar} {p : String} {s s' s1 s2 : Store} {notes notes' : QueryId → Notes}
variable {n : Notes} {q : Query} {a t id : QueryId}

/-! ## Queries that hold a query -/

/-- A query is attached to another one, or to what is attached to it. -/
def Store.Holds (s : Store) : QueryId → QueryId → Prop :=
  Relation.TransGen fun holder id => id ∈ (s.query holder).attachments

/-- What a complete query holds is complete and has a smaller rank. -/
theorem Store.Noted.of_holds (hs : s.Noted g notes) (ht : s.Stands notes t) (h : s.Holds t a) :
    s.Stands notes a ∧ (notes a).rank < (notes t).rank := by
  induction h with
  | single ha => exact (hs.queries t ht).attached _ ha
  | tail _ ha ih =>
    obtain ⟨hstands, hrank⟩ := (hs.queries _ ih.1).attached _ ha
    exact ⟨hstands, Nat.lt_trans hrank ih.2⟩

/-- No complete query holds itself. -/
theorem Store.Noted.not_holds_self (hs : s.Noted g notes) (ht : s.Stands notes t) : ¬s.Holds t t :=
  fun h => Nat.lt_irrefl _ (hs.of_holds ht h).2

/-! ## Values read once more -/

/-- A query with the values that those attached to it are bound to now. -/
def Query.refreshed (s : Store) (notes : QueryId → Notes) (n : Notes) (q : Query) : Query :=
  { q with
    bindings :=
      { q.bindings with
        join := q.joins.flatMap fun id => (notes id).table ++ (s.query id).bindings.flatten
        condition := (List.zipWith (fun c note => c.body.valuesIn s note) q.wheres n.wheres).flatten
        union := (q.unions.filterMap (·.member)).flatMap fun id => (s.query id).bindings.flatten } }

/-- A noted query has read all values. -/
theorem Query.Noted.refreshed_same (h : q.Noted g s notes n) : q.refreshed s notes n = q := by
  unfold Query.refreshed
  rw [← h.join, ← h.condition, ← h.union]

/-- The query that a condition refers to. -/
def Where.attached? (body : Where) : Option QueryId :=
  body.group?.or body.sub?

theorem Query.mem_attachments_of_where {c : Condition} (hc : c ∈ q.wheres)
    (hid : id ∈ c.body.attached?) : id ∈ q.attachments := by
  cases hgroup : c.body.group? with
  | some group =>
    rw [Where.attached?, hgroup] at hid
    cases hid
    exact Query.mem_attachments_group hc hgroup
  | none =>
    rw [Where.attached?, hgroup] at hid
    exact Query.mem_attachments_sub (Query.mem_subQueries_where hc hid)

/-- The values of a condition are those of its note or of the query that it refers to. -/
theorem Where.mem_valuesIn {body : Where} {note : Note} {v : Value} (h : v ∈ body.valuesIn s' note) :
    v ∈ body.valuesIn s note ∨ ∃ id ∈ body.attached?, v ∈ (s'.query id).bindings.flatten := by
  cases body with
  | nested query =>
    have hin : v ∈ (s'.query query).bindings.get .condition := h
    exact .inr ⟨query, rfl, Bindings.mem_flatten hin⟩
  | sub column operator query =>
    exact (List.mem_append.1 h).imp (List.mem_append_left _) fun h => ⟨query, rfl, h⟩
  | «exists» query negated =>
    cases query with
    | none => exact .inl h
    | some query => exact .inr ⟨query, rfl, h⟩
  | _ => exact .inl h

theorem Where.valuesIn_congr {body : Where} {note : Note}
    (h : ∀ id ∈ body.attached?, (s'.query id).bindings = (s.query id).bindings) :
    body.valuesIn s' note = body.valuesIn s note := by
  cases body with
  | nested query => exact congrArg Bindings.condition (h query rfl)
  | sub column operator query => exact congrArg (note.column ++ Bindings.flatten ·) (h query rfl)
  | «exists» query negated =>
    cases query with
    | none => rfl
    | some query => exact congrArg Bindings.flatten (h query rfl)
  | _ => rfl

/-- What is read depends on the values of attached queries and of joined tables only. -/
theorem Query.refreshed_congr
    (h : ∀ id ∈ q.attachments, (s'.query id).bindings = (s.query id).bindings)
    (htables : ∀ id ∈ q.joins, (notes' id).table = (notes id).table) :
    q.refreshed s' notes' n = q.refreshed s notes n := by
  have hjoin : q.joins.flatMap (fun id => (notes' id).table ++ (s'.query id).bindings.flatten) =
      q.joins.flatMap fun id => (notes id).table ++ (s.query id).bindings.flatten :=
    List.flatMap_congr fun id hid => by
      rw [h id (Query.mem_attachments_join hid), htables id hid]
  have hunion : (q.unions.filterMap (·.member)).flatMap
        (fun id => (s'.query id).bindings.flatten) =
      (q.unions.filterMap (·.member)).flatMap fun id => (s.query id).bindings.flatten :=
    List.flatMap_congr fun id hid => by
      rw [h id (Query.mem_attachments_sub (List.mem_append_right _ hid))]
  have hcondition : List.zipWith (fun c note => c.body.valuesIn s' note) q.wheres n.wheres =
      List.zipWith (fun c note => c.body.valuesIn s note) q.wheres n.wheres :=
    zipWith_congr_left fun c hc note =>
      Where.valuesIn_congr fun id hid => h id (Query.mem_attachments_of_where hc hid)
  unfold Query.refreshed
  rw [hjoin, hunion, hcondition]

/-- A noted query that reads the values of what is attached to it once more is noted again. -/
theorem Query.Noted.refresh (h : q.Noted g s notes n) {rank : Nat}
    (hgrammars : s.KeepsGrammars s')
    (htables : ∀ id ∈ q.joins, (notes' id).table = (notes id).table)
    (hattached : ∀ id ∈ q.attachments, s'.Stands notes' id ∧ (notes' id).rank < rank)
    (hdata : ∀ id ∈ q.attachments, ∀ v ∈ (s'.query id).bindings.flatten, v.handles = [])
    (hjoins : ∀ id ∈ q.joins, (s'.query id).OnlyConditions)
    (hwhole : ∀ id ∈ q.subQueries, (notes' id).whole = true) :
    (q.refreshed s' notes' n).Noted g s' notes' { n with rank } := by
  have hold : ∀ group, ∀ v ∈ q.bindings.get group, v.handles = [] :=
    fun _ v hv => h.data v (Bindings.mem_flatten hv)
  have hjoin : ∀ v ∈ (q.refreshed s' notes' n).bindings.join, v.handles = [] := by
    intro v hv
    obtain ⟨id, hid, hv⟩ := List.mem_flatMap.1 hv
    rcases List.mem_append.1 hv with hv | hv
    · refine hold .join v ?_
      show v ∈ q.bindings.join
      rw [h.join]
      exact List.mem_flatMap.2 ⟨id, hid, List.mem_append_left _ (htables id hid ▸ hv)⟩
    · exact hdata id (Query.mem_attachments_join hid) v hv
  have hcondition : ∀ v ∈ (q.refreshed s' notes' n).bindings.condition, v.handles = [] := by
    intro v hv
    obtain ⟨vs, hvs, hv⟩ := List.mem_flatten.1 hv
    rw [← List.map_uncurry_zip_eq_zipWith] at hvs
    obtain ⟨⟨c, note⟩, hzip, rfl⟩ := List.mem_map.1 hvs
    rcases @Where.mem_valuesIn s s' c.body note v hv with hv | ⟨id, hid, hv⟩
    · refine hold .condition v ?_
      show v ∈ q.bindings.condition
      rw [h.condition, ← List.map_uncurry_zip_eq_zipWith]
      exact List.mem_flatten.2 ⟨_, List.mem_map_of_mem hzip, hv⟩
    · exact hdata id (Query.mem_attachments_of_where (List.of_mem_zip hzip).1 hid) v hv
  have hunion : ∀ v ∈ (q.refreshed s' notes' n).bindings.union, v.handles = [] := by
    intro v hv
    obtain ⟨id, hid, hv⟩ := List.mem_flatMap.1 hv
    exact hdata id (Query.mem_attachments_sub (List.mem_append_right _ hid)) v hv
  exact { h with
    grammar := by
      obtain ⟨id, hid, hlt, hg⟩ := h.grammar
      obtain ⟨hlt', hsame⟩ := hgrammars id hlt
      exact ⟨id, hid, hlt', hsame.trans hg⟩
    join := rfl
    condition := rfl
    union := rfl
    attached := hattached
    joins := hjoins
    subQueries := hwhole
    data := by
      intro v hv
      obtain ⟨group, _, hv⟩ := List.mem_flatMap.1 hv
      cases group with
      | join => exact hjoin v hv
      | condition => exact hcondition v hv
      | union => exact hunion v hv
      | select => exact hold .select v hv
      | source => exact hold .source v hv
      | grouping => exact hold .grouping v hv
      | having => exact hold .having v hv
      | order => exact hold .order v hv
      | unionOrder => exact hold .unionOrder v hv }

/-! ## Round by round -/

open Classical in
/-- A store in which some queries read the values of attached queries once more.  A query that reads
those of another one has to wait for it, so all do so in every round. -/
noncomputable def Store.refreshed (s : Store) (around : Set QueryId) (notes : QueryId → Notes) :
    (rounds : Nat) → Store
  | 0 => s
  | rounds + 1 =>
    { s with
      queries := s.queries.mapIdx fun i q =>
        if ⟨i⟩ ∈ around then q.refreshed (s.refreshed around notes rounds) notes (notes ⟨i⟩) else q }

namespace Store

variable {around : Set QueryId} {rounds : Nat}

theorem size_refreshed : (s.refreshed around notes rounds).queries.size = s.queries.size := by
  cases rounds with
  | zero => rfl
  | succ rounds => exact Array.size_mapIdx

theorem connection_refreshed (id : ConnectionId) :
    (s.refreshed around notes rounds).connection id = s.connection id := by
  cases rounds <;> rfl

theorem keepsGrammars_refreshed : s.KeepsGrammars (s.refreshed around notes rounds) := by
  cases rounds <;> exact .refl s

theorem query_refreshed_of_mem (hid : id ∈ around) (hlt : id.index < s.queries.size) :
    (s.refreshed around notes (rounds + 1)).query id =
      (s.query id).refreshed (s.refreshed around notes rounds) notes (notes id) := by
  unfold query
  rw [refreshed, Array.getElem?_mapIdx, Array.getElem?_eq_getElem hlt]
  exact if_pos hid

theorem query_refreshed_of_notMem (hid : id ∉ around) :
    (s.refreshed around notes rounds).query id = s.query id := by
  cases rounds with
  | zero => rfl
  | succ rounds =>
    unfold query refreshed
    rw [Array.getElem?_mapIdx]
    cases s.queries[id.index]? with
    | none => rfl
    | some q => exact if_neg hid

/-- Only values change. -/
theorem query_refreshed_eq (id : QueryId) : (s.refreshed around notes rounds).query id =
    { s.query id with bindings := ((s.refreshed around notes rounds).query id).bindings } := by
  cases rounds with
  | zero => rfl
  | succ rounds =>
    unfold query refreshed
    rw [Array.getElem?_mapIdx]
    cases s.queries[id.index]? with
    | none => rfl
    | some q =>
      simp only [Option.map_some, Option.getD_some]
      split <;> rfl

/-- A query has settled after as many rounds as queries can hold each other inside it. -/
theorem refreshed_stable (hlt : ∀ id ∈ around, id.index < s.queries.size)
    (hrank : ∀ id ∈ around, ∀ a ∈ (s.query id).attachments, a ∈ around →
      (notes a).rank < (notes id).rank) (hid : id ∈ around) (hrounds : (notes id).rank < rounds) :
    (s.refreshed around notes (rounds + 1)).query id =
      (s.refreshed around notes rounds).query id := by
  induction rounds generalizing id with
  | zero => exact absurd hrounds (Nat.not_lt_zero _)
  | succ rounds ih =>
    rw [query_refreshed_of_mem hid (hlt id hid), query_refreshed_of_mem hid (hlt id hid)]
    refine Query.refreshed_congr (fun a ha => ?_) fun _ _ => rfl
    by_cases hin : a ∈ around
    · rw [ih hin (by have := hrank id hid a ha hin; omega)]
    · rw [query_refreshed_of_notMem hin, query_refreshed_of_notMem hin]

/-- The ranks of the queries of a store are bounded. -/
theorem exists_rank_lt (s : Store) (notes : QueryId → Notes) :
    ∃ bound, ∀ id : QueryId, id.index < s.queries.size → (notes id).rank < bound := by
  refine ⟨(Finset.range s.queries.size).sup (fun i => (notes ⟨i⟩).rank) + 1, fun id hid => ?_⟩
  exact Nat.lt_succ_of_le
    (Finset.le_sup (f := fun i => (notes ⟨i⟩).rank) (Finset.mem_range.2 hid))

/-! ## Texts -/

/-- A store has the queries of another one, but for the values that they are bound to. -/
structure Revalues (s s' : Store) : Prop where
  query : ∀ id, s'.query id = { s.query id with bindings := (s'.query id).bindings }
  rest : s' = { s with queries := s'.queries }
  size : s'.queries.size = s.queries.size

/-- Compiling a query reads none of its values, nor what can be copied. -/
theorem selectSql_values (g : Grammar) (attached : Attached) (canCopy : Query → Bool) (q : Query)
    (bindings : Bindings) :
    g.selectSql { attached with canCopy } { q with bindings } = g.selectSql attached q :=
  rfl

section

variable (h : s.Revalues s')
include h

theorem Revalues.attachedBy (g : Grammar) (oracle : Oracle) (depth : Nat) :
    attachedBy s' g oracle depth =
      { FluentSql.attachedBy s g oracle depth with canCopy := s'.canCopy } := by
  induction depth with
  | zero => rfl
  | succ depth ih =>
    have hselect : (fun id => g.selectSql (FluentSql.attachedBy s' g oracle depth) (s'.query id)) =
        fun id => g.selectSql (FluentSql.attachedBy s g oracle depth) (s.query id) := by
      funext id
      rw [ih, h.query id]
      exact selectSql_values g _ _ _ _
    have hconditions :
        (fun id => g.conditionsSql (FluentSql.attachedBy s' g oracle depth) (s'.query id).wheres) =
        fun id => g.conditionsSql (FluentSql.attachedBy s g oracle depth) (s.query id).wheres := by
      funext id
      rw [ih, h.query id]
      rfl
    have hjoin : (fun id => g.joinSql (FluentSql.attachedBy s' g oracle depth) (s'.query id)) =
        fun id => g.joinSql (FluentSql.attachedBy s g oracle depth) (s.query id) := by
      funext id
      rw [ih, h.query id]
      rfl
    dsimp only [FluentSql.attachedBy]
    rw [hselect, hconditions, hjoin]

theorem Revalues.classOf : s'.classOf = s.classOf := by
  funext id
  unfold Store.classOf
  rw [h.query]
  rfl

theorem Revalues.oracle (known : KnownAnswers) : s'.oracle known = s.oracle known := by
  have hextension : s'.extension? = s.extension? := by
    rw [h.rest]
    rfl
  unfold Store.oracle
  rw [h.classOf, hextension]

theorem Revalues.grammarFor (compiler : Compiler) (method : String) :
    s'.grammarFor compiler method = s.grammarFor compiler method := by
  cases compiler with
  | grammar id =>
    rw [h.rest]
    rfl
  | connection id => rfl
  | query id =>
    exact congrArg (fun c => Except.error (Failure.unknownMethod c method)) (congrFun h.classOf id)

/-- Values have no part in the text of a query. -/
theorem Revalues.selectSql (id : QueryId) : s'.selectSql id = s.selectSql id := by
  unfold Store.selectSql compiled attached
  rw [h.grammarFor, attachedDepth, h.size, h.oracle, h.query]
  refine congrArg (s.grammarFor (s.query id).grammar "compile_select" >>= ·) (funext fun g => ?_)
  rw [h.attachedBy]
  exact selectSql_values g _ _ _ _

end

theorem revalues_refreshed : s.Revalues (s.refreshed around notes rounds) where
  query := query_refreshed_eq
  rest := by cases rounds <;> rfl
  size := size_refreshed

theorem selectSql_refreshed (id : QueryId) :
    (s.refreshed around notes rounds).selectSql id = s.selectSql id :=
  revalues_refreshed.selectSql id

end Store

/-! ## How often a query is held -/

/-- The places of a query in a condition, by those in the text of each query and those in the
conditions of each query. -/
def Where.places (whole inner : QueryId → Nat) : Where → Nat
  | nested query => inner query
  | sub _ _ query => whole query
  | «exists» (some query) _ => whole query
  | _ => 0

/-- The places of a query in the conditions of a query. -/
def Query.conditionPlaces (whole inner : QueryId → Nat) (q : Query) : Nat :=
  (q.wheres.map (·.body.places whole inner)).sum

/-- The places of a query in the text of a query. -/
def Query.places (whole inner : QueryId → Nat) (q : Query) : Nat :=
  (q.joins.map whole).sum + q.conditionPlaces whole inner +
    ((q.unions.filterMap (·.member)).map whole).sum

/-- How often a query stands in the text of each query, and how often it stands in the conditions of
each, down to a depth. -/
def Store.places (s : Store) (a : QueryId) : (depth : Nat) → (QueryId → Nat) × (QueryId → Nat)
  | 0 => (fun id => if id = a then 1 else 0, fun _ => 0)
  | depth + 1 =>
    let (whole, inner) := s.places a depth
    (fun id => if id = a then 1 else (s.query id).places whole inner,
      fun id => (s.query id).conditionPlaces whole inner)

/-- A query that holds another one to select from it has a place for it each time. -/
theorem Query.count_le_places {whole inner : QueryId → Nat} (ha : whole a = 1) :
    q.subQueries.count a ≤ q.places whole inner := by
  have hcount : ∀ ids : List QueryId, ids.count a ≤ (ids.map whole).sum := by
    intro ids
    induction ids with
    | nil => exact Nat.le_refl _
    | cons id ids ih =>
      rw [List.count_cons, List.map_cons, List.sum_cons]
      split
      · rename_i heq
        rw [eq_of_beq heq, ha]
        omega
      · omega
  have hwheres : ∀ cs : List Condition,
      ((cs.filterMap (·.body.sub?)).map whole).sum ≤ (cs.map (·.body.places whole inner)).sum := by
    intro cs
    induction cs with
    | nil => exact Nat.le_refl _
    | cons c cs ih =>
      rw [List.map_cons, List.sum_cons]
      cases hsub : c.body.sub? with
      | none =>
        rw [List.filterMap_cons, hsub]
        exact Nat.le_add_left_of_le ih
      | some id =>
        have hplaces : c.body.places whole inner = whole id := by
          cases hbody : c.body with
          | sub column operator query =>
            rw [hbody] at hsub
            cases hsub
            rfl
          | «exists» query negated =>
            rw [hbody] at hsub
            cases hsub
            rfl
          | _ =>
            rw [hbody] at hsub
            exact nomatch hsub
        rw [List.filterMap_cons, hsub, List.map_cons, List.sum_cons, hplaces]
        exact Nat.add_le_add_left ih _
  have hfirst := hcount (q.wheres.filterMap (·.body.sub?))
  have hsecond := hcount (q.unions.filterMap (·.member))
  have hthird := hwheres q.wheres
  unfold subQueries places conditionPlaces
  rw [List.count_append]
  omega

/-- What holds no query that has a place for another one has none itself. -/
theorem Query.places_eq_zero {whole inner : QueryId → Nat}
    (h : ∀ id ∈ q.attachments, whole id = 0 ∧ inner id = 0) :
    q.conditionPlaces whole inner = 0 ∧ q.places whole inner = 0 := by
  have hjoins : (q.joins.map whole).sum = 0 := by
    refine List.sum_eq_zero_iff.2 fun w hw => ?_
    obtain ⟨id, hid, rfl⟩ := List.mem_map.1 hw
    exact (h id (Query.mem_attachments_join hid)).1
  have hunions : ((q.unions.filterMap (·.member)).map whole).sum = 0 := by
    refine List.sum_eq_zero_iff.2 fun w hw => ?_
    obtain ⟨id, hid, rfl⟩ := List.mem_map.1 hw
    exact (h id (Query.mem_attachments_sub (List.mem_append_right _ hid))).1
  have hwheres : q.conditionPlaces whole inner = 0 := by
    refine List.sum_eq_zero_iff.2 fun w hw => ?_
    obtain ⟨c, hc, rfl⟩ := List.mem_map.1 hw
    have hids : ∀ id ∈ c.body.attached?, whole id = 0 ∧ inner id = 0 :=
      fun id hid => h id (Query.mem_attachments_of_where hc hid)
    cases hbody : c.body with
    | nested query => exact (hids query (by rw [hbody]; rfl)).2
    | sub column operator query => exact (hids query (by rw [hbody]; rfl)).1
    | «exists» query negated =>
      cases query with
      | none => rfl
      | some query => exact (hids query (by rw [hbody]; rfl)).1
    | _ => rfl
  refine ⟨hwheres, ?_⟩
  rw [places, hjoins, hwheres, hunions]

theorem Store.places_self {depth : Nat} : (s.places a depth).1 a = 1 := by
  cases depth <;> exact if_pos rfl

/-- A query has no place in the text of a query that does not hold it. -/
theorem Store.places_eq_zero {depth : Nat} (hne : id ≠ a) (h : ¬s.Holds id a) :
    (s.places a depth).1 id = 0 ∧ (s.places a depth).2 id = 0 := by
  induction depth generalizing id with
  | zero => exact ⟨if_neg hne, rfl⟩
  | succ depth ih =>
    have hzero := @Query.places_eq_zero (s.query id) (s.places a depth).1 (s.places a depth).2
      fun x hx => ih (fun hxa => h (.single (hxa ▸ hx))) fun hholds => h (.head hx hholds)
    exact ⟨(if_neg hne).trans hzero.2, hzero.1⟩

/-! ## How many values are read -/

section

variable {old new : Nat} {whole inner : QueryId → Nat}

theorem sum_shifted {α : Type} {xs : List α} {f f' w : α → Nat}
    (h : ∀ x ∈ xs, f' x + w x * old = f x + w x * new) :
    (xs.map f').sum + (xs.map w).sum * old = (xs.map f).sum + (xs.map w).sum * new := by
  induction xs with
  | nil => simp
  | cons x xs ih =>
    have hx := h x List.mem_cons_self
    have hxs := ih fun y hy => h y (List.mem_cons_of_mem x hy)
    simp only [List.map_cons, List.sum_cons, Nat.add_mul]
    omega

/-- The values of the groups, one after another. -/
theorem Bindings.length_flatten (b : Bindings) : b.flatten.length =
    b.select.length + b.source.length + b.join.length + b.condition.length + b.grouping.length +
      b.having.length + b.order.length + b.union.length + b.unionOrder.length := by
  simp only [flatten, flattenGroups, BindingGroup.all, get, List.flatMap_cons, List.flatMap_nil,
    List.length_append, List.length_nil]
  omega

theorem length_conditions_shifted {cs : List Condition} {ns : List Note}
    (hlength : cs.length = ns.length)
    (h : ∀ c ∈ cs, ∀ note, (c.body.valuesIn s' note).length + c.body.places whole inner * old =
      (c.body.valuesIn s note).length + c.body.places whole inner * new) :
    (List.zipWith (fun c note => c.body.valuesIn s' note) cs ns).flatten.length +
        (cs.map (·.body.places whole inner)).sum * old =
      (List.zipWith (fun c note => c.body.valuesIn s note) cs ns).flatten.length +
        (cs.map (·.body.places whole inner)).sum * new := by
  induction cs generalizing ns with
  | nil => simp
  | cons c cs ih =>
    cases ns with
    | nil => exact absurd hlength (Nat.succ_ne_zero _)
    | cons note ns =>
      have hc := h c List.mem_cons_self note
      have hcs := ih (Nat.succ.inj hlength) fun c hc => h c (List.mem_cons_of_mem _ hc)
      simp only [List.zipWith_cons_cons, List.flatten_cons, List.length_append, List.map_cons,
        List.sum_cons, Nat.add_mul]
      omega

/-- If every attached query has as many new values as it has places for a query, for each of the new
values of that query, then so does the query that reads them. -/
theorem Query.length_refreshed (hlength : q.wheres.length = n.wheres.length)
    (hwhole : ∀ id ∈ q.attachments, (s'.query id).bindings.flatten.length + whole id * old =
      (s.query id).bindings.flatten.length + whole id * new)
    (hinner : ∀ id ∈ q.conditionGroups, (s'.query id).bindings.condition.length + inner id * old =
      (s.query id).bindings.condition.length + inner id * new) :
    (q.refreshed s' notes n).bindings.flatten.length + q.places whole inner * old =
        (q.refreshed s notes n).bindings.flatten.length + q.places whole inner * new ∧
      (q.refreshed s' notes n).bindings.condition.length + q.conditionPlaces whole inner * old =
        (q.refreshed s notes n).bindings.condition.length + q.conditionPlaces whole inner * new := by
  have hjoins : (q.joins.map fun id =>
        ((notes id).table ++ (s'.query id).bindings.flatten).length).sum +
        (q.joins.map whole).sum * old =
      (q.joins.map fun id => ((notes id).table ++ (s.query id).bindings.flatten).length).sum +
        (q.joins.map whole).sum * new := by
    refine sum_shifted fun id hid => ?_
    have hid := hwhole id (Query.mem_attachments_join hid)
    rw [List.length_append, List.length_append]
    omega
  have hunions : ((q.unions.filterMap (·.member)).map fun id =>
        (s'.query id).bindings.flatten.length).sum +
        ((q.unions.filterMap (·.member)).map whole).sum * old =
      ((q.unions.filterMap (·.member)).map fun id => (s.query id).bindings.flatten.length).sum +
        ((q.unions.filterMap (·.member)).map whole).sum * new :=
    sum_shifted fun id hid => hwhole id (Query.mem_attachments_sub (List.mem_append_right _ hid))
  have hcondition : ∀ c ∈ q.wheres, ∀ note,
      (c.body.valuesIn s' note).length + c.body.places whole inner * old =
        (c.body.valuesIn s note).length + c.body.places whole inner * new := by
    intro c hc note
    have hids : ∀ id ∈ c.body.attached?, id ∈ q.attachments :=
      fun id hid => Query.mem_attachments_of_where hc hid
    cases hbody : c.body with
    | nested query => exact hinner query (List.mem_filterMap.2 ⟨c, hc, by rw [hbody]; rfl⟩)
    | sub column operator query =>
      have hquery := hwhole query (hids query (by rw [hbody]; rfl))
      simp only [Where.valuesIn, Where.places, List.length_append]
      omega
    | «exists» query negated =>
      cases query with
      | none => simp only [Where.valuesIn, Where.places]; omega
      | some query => exact hwhole query (hids query (by rw [hbody]; rfl))
    | _ => simp only [Where.valuesIn, Where.places]; omega
  have hconditions := length_conditions_shifted hlength hcondition
  rw [Bindings.length_flatten, Bindings.length_flatten]
  simp only [refreshed, places, conditionPlaces, List.length_flatMap, Nat.add_mul]
  refine ⟨?_, hconditions⟩
  omega

end

end

end FluentSql
