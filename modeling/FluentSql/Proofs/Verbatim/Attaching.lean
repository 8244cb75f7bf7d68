import FluentSql.Proofs.Building.Refreshing
import FluentSql.Proofs.Operators.Membership
import FluentSql.Proofs.Verbatim.Statements

/-!
# Fragments in the queries of a store

A statement is compiled from its query and from the queries that are attached to
it, directly or not.  All others may change, and so may the query itself as long
as it does not hold itself.  So a fragment that is put in a place of a query
stands in the statement once.

* `Attached.Agree` says that some queries are compiled alike;
  `Attached.Agree.selectSql`, `Attached.Agree.joinSql` and `Attached.Agree.change`
  that this is enough for a query to which no others are attached.
* `QueryPlace.select_verbatim`, `QueryPlace.change_verbatim` and `QueryPlace.join_verbatim` are
  the statements of a store around a fragment.
-/

namespace FluentSql

/-! ## Attached queries that are compiled alike -/

/-- The queries that are compiled inside a query, but for its joins. -/
def Query.innerQueries (q : Query) : List QueryId :=
  q.conditionGroups ++ q.subQueries

/-- Two ways to compile attached queries by which some of them are compiled alike. -/
structure Attached.Agree (met : QueryId → Prop) (a a' : Attached) : Prop where
  select : ∀ id, met id → a.select id = a'.select id
  conditions : ∀ id, met id → a.conditions id = a'.conditions id
  join : ∀ id, met id → a.join id = a'.join id
  canCopy : a.canCopy = a'.canCopy
  oracle : a.oracle = a'.oracle

theorem Query.mem_innerQueries {q : Query} {c : Condition} {id : QueryId} (hc : c ∈ q.wheres)
    (hid : id ∈ c.body.attached?) : id ∈ q.innerQueries := by
  unfold innerQueries conditionGroups
  cases hgroup : c.body.group? with
  | some group =>
    rw [Where.attached?, hgroup] at hid
    cases hid
    exact List.mem_append_left _ (List.mem_filterMap.2 ⟨c, hc, hgroup⟩)
  | none =>
    rw [Where.attached?, hgroup] at hid
    exact List.mem_append_right _ (mem_subQueries_where hc hid)

theorem Query.mem_attachments_inner {q : Query} {id : QueryId} (hid : id ∈ q.innerQueries) :
    id ∈ q.attachments := by
  rw [attachments, List.append_assoc]
  exact List.mem_append_right _ hid

namespace Attached.Agree

variable {met : QueryId → Prop} {a a' : Attached} {g : Grammar} {q : Query}

theorem joinAs (h : Agree met a a') {join : QueryId} (hjoin : ¬met join)
    (sql : Except Failure String) : Agree met a (a'.joinAs join sql) := by
  refine ⟨h.select, h.conditions, fun id hid => ?_, h.canCopy, h.oracle⟩
  have hne : id ≠ join := fun heq => hjoin (heq ▸ hid)
  rw [h.join id hid]
  exact (Function.update_of_ne hne ..).symm

theorem whereSql (h : Agree met a a') {body : Where} (hbody : ∀ id ∈ body.attached?, met id) :
    g.whereSql a body = g.whereSql a' body := by
  cases body with
  | nested query => exact congrArg (· >>= _) (h.conditions query (hbody query rfl))
  | sub column operator query => exact congrArg (· >>= _) (h.select query (hbody query rfl))
  | «exists» query negated =>
    cases query with
    | none => rfl
    | some id => exact congrArg (· >>= _) (h.select id (hbody id rfl))
  | jsonContains column value negated =>
    exact congrArg (g.jsonContainsSql · column (Grammar.parameter value) >>= _) h.oracle
  | jsonLength column operator value =>
    exact congrArg (g.jsonLengthSql · column operator (Grammar.parameter value)) h.oracle
  | _ => rfl

variable (h : Agree met a a') (hinner : ∀ id ∈ q.innerQueries, met id)

include h hinner

theorem conditionsSql : g.conditionsSql a q.wheres = g.conditionsSql a' q.wheres := by
  refine (conditionsSql_alike carried_eq (List.forall₂_same.2 fun c hc => ⟨rfl, ?_⟩)).eq
  rw [h.whereSql fun id hid => hinner id (Query.mem_innerQueries hc hid)]
  exact .same fun _ _ => rfl

variable (hjoins : ∀ id ∈ q.joins, a.join id = a'.join id)

include hjoins

/-- A query to which no others are attached is compiled alike in all clauses. -/
theorem clauses : q.Matches False Eq g g a a' q := by
  refine q.matches_of_attached (fun id hid => ?_) (fun c hc => ?_) fun u hu => ?_
  · rw [hjoins id hid]
    exact .same fun _ _ => rfl
  · rw [h.whereSql fun id hid => hinner id (Query.mem_innerQueries hc hid)]
    exact .same fun _ _ => rfl
  · cases hmember : u.member with
    | none => exact .error _
    | some id =>
      have hid : id ∈ q.innerQueries := List.mem_append_right _
        (Query.mem_subQueries.2 (.inr ⟨u, hu, hmember⟩))
      show Alike _ _ (a.select id) (a'.select id)
      rw [h.select id (hinner id hid)]
      exact .same fun _ _ => rfl

theorem selectSql : g.selectSql a q = g.selectSql a' q :=
  ((h.clauses hinner hjoins).selectSql_alike carried_eq (.same fun _ _ => rfl)).eq

theorem joinSql : g.joinSql a q = g.joinSql a' q :=
  ((h.clauses hinner hjoins).joinSql_alike carried_eq).eq

theorem change (change : Change) : change.sql g a q = change.sql g a' q := by
  have hmatches : q.Matches False Eq g g a a' q := h.clauses hinner hjoins
  have hwheres : g.wheresSql a q = g.wheresSql a' q :=
    (wheresSql_alike carried_eq rfl hmatches.wheres).eq
  have hjoined : Grammar.joinsSql a q.joins = Grammar.joinsSql a' q.joins :=
    (hmatches.joinsSql_alike carried_eq).eq
  have haddress : ∀ address, g.addressCondition a q address = g.addressCondition a' q address := by
    intro address
    have hselect : g.selectSql a (q.addressed address) = g.selectSql a' (q.addressed address) :=
      h.selectSql hinner hjoins
    unfold Query.addressed at hselect
    unfold Grammar.addressCondition
    rw [h.canCopy]
    simp only [hselect]
  cases change with
  | update values =>
    show g.updateSql a q values = g.updateSql a' q values
    unfold Grammar.updateSql
    simp only [h.oracle, hwheres, hjoined, haddress]
  | delete =>
    show g.deleteSql a q = g.deleteSql a' q
    unfold Grammar.deleteSql
    simp only [h.oracle, hwheres, hjoined, haddress]

end Attached.Agree

/-- The queries of two stores that are the same, with all that is attached to them, are compiled
alike. -/
theorem attachedBy_agree {s s' : Store} {met : QueryId → Prop} (g : Grammar) (oracle : Oracle)
    (hsame : ∀ id, met id → s.query id = s'.query id)
    (hclosed : ∀ id, met id → ∀ inner ∈ (s'.query id).attachments, met inner)
    (hcopy : s.canCopy = s'.canCopy) (depth : Nat) :
    Attached.Agree met (attachedBy s g oracle depth) (attachedBy s' g oracle depth) := by
  induction depth with
  | zero => exact ⟨fun _ _ => rfl, fun _ _ => rfl, fun _ _ => rfl, hcopy, rfl⟩
  | succ depth ih =>
    have hinner : ∀ id, met id → ∀ inner ∈ (s'.query id).innerQueries, met inner :=
      fun id hid inner hinner => hclosed id hid inner (Query.mem_attachments_inner hinner)
    have hjoins : ∀ id, met id → ∀ join ∈ (s'.query id).joins,
        (attachedBy s g oracle depth).join join = (attachedBy s' g oracle depth).join join :=
      fun id hid join hjoin => ih.join join (hclosed id hid join (Query.mem_attachments_join hjoin))
    refine ⟨fun id hid => ?_, fun id hid => ?_, fun id hid => ?_, hcopy, rfl⟩
    · show g.selectSql _ (s.query id) = _
      rw [hsame id hid]
      exact ih.selectSql (hinner id hid) (hjoins id hid)
    · show g.conditionsSql _ (s.query id).wheres = _
      rw [hsame id hid]
      exact ih.conditionsSql (hinner id hid)
    · show g.joinSql _ (s.query id) = _
      rw [hsame id hid]
      exact ih.joinSql (hinner id hid) (hjoins id hid)

theorem canCopy_attachedBy (s : Store) (g : Grammar) (oracle : Oracle) (depth : Nat) :
    (attachedBy s g oracle depth).canCopy = s.canCopy := by
  cases depth <;> rfl

/-! ## Stores with data in a place -/

section

variable {v w : Value} {place : QueryPlace} {q : Query}

theorem ConditionGap.attached_fill (gap : ConditionGap) :
    (gap.fill v).group? = (gap.fill w).group? ∧ (gap.fill v).sub? = (gap.fill w).sub? := by
  cases gap <;> exact ⟨rfl, rfl⟩

namespace QueryPlace

theorem innerQueries_put :
    (place.put v q).innerQueries = (place.put w q).innerQueries := by
  cases place with
  | condition before after boolean gap =>
    obtain ⟨hgroup, hsub⟩ := gap.attached_fill (v := v) (w := w)
    simp only [put, Query.innerQueries, Query.conditionGroups, Query.subQueries,
      List.filterMap_append, List.filterMap_cons, hgroup, hsub]
  | _ => rfl

theorem attachments_put : (place.put v q).attachments = (place.put w q).attachments := by
  rw [Query.attachments, Query.attachments, List.append_assoc, List.append_assoc, joins_put,
    joins_put]
  exact congrArg (q.joins ++ ·) innerQueries_put

theorem isJoin_put : (place.put v q).isJoin = (place.put w q).isJoin := by
  cases place <;> rfl

theorem bindings_put : (place.put v q).bindings = q.bindings := by
  cases place <;> rfl

theorem grammar_put : (place.put v q).grammar = q.grammar := by
  cases place <;> rfl

end QueryPlace

namespace Store

variable {s s' : Store}

theorem reachFrom_congr (h : s.handlesOf = s'.handlesOf) (fuel : Nat)
    (seen frontier : List Handle) :
    s.reachFrom fuel seen frontier = s'.reachFrom fuel seen frontier := by
  induction fuel generalizing seen frontier with
  | zero => rfl
  | succ fuel ih =>
    unfold reachFrom
    simp only [h, ih]

/-- The store with another query in the place of one. -/
def replace (s : Store) (t : QueryId) (q : Query) : Store :=
  s.edit t fun _ => q

variable {t id : QueryId}

/-- A change of a query puts the changed one in its place. -/
theorem edit_eq_replace (s : Store) (t : QueryId) (f : Query → Query) :
    s.edit t f = s.replace t (f (s.query t)) := by
  unfold replace edit
  congr 1
  refine Array.ext ?_ fun i hi hi' => ?_
  · simp only [Array.size_modify]
  · simp only [Array.getElem_modify]
    split
    · rename_i hindex
      subst hindex
      have hlt : t.index < s.queries.size := by simpa only [Array.size_modify] using hi
      unfold query
      rw [Array.getElem?_eq_getElem hlt]
      rfl
    · rfl

theorem query_replace (h : t.index < s.queries.size) (q : Query) : (s.replace t q).query t = q :=
  query_edit_self h _

theorem query_replace_of_ne (h : id ≠ t) (q : Query) : (s.replace t q).query id = s.query id :=
  query_edit_of_ne h _

theorem size_replace (s : Store) (t : QueryId) (q : Query) :
    (s.replace t q).queries.size = s.queries.size :=
  size_edit ..

/-- What two queries have in common is the same in the stores that have one of them. -/
theorem read_replace {α : Type} {q q' : Query} (read : Query → α) (h : read q = read q')
    (id : QueryId) : read ((s.replace t q).query id) = read ((s.replace t q').query id) := by
  by_cases hid : id = t
  · subst hid
    by_cases hlt : id.index < s.queries.size
    · rw [query_replace hlt, query_replace hlt, h]
    · have hnone : ∀ q, (s.replace id q).query id = default := fun q =>
        query_of_le (by rw [size_replace]; exact Nat.le_of_not_lt hlt)
      rw [hnone, hnone]
  · rw [query_replace_of_ne hid, query_replace_of_ne hid]

section

variable (hv : v.handles = []) (hw : w.handles = [])

include hv hw

/-- What can be copied does not depend on the data in a place. -/
theorem canCopy_replace :
    (s.replace t (place.put v q)).canCopy = (s.replace t (place.put w q)).canCopy := by
  have hhandles : (s.replace t (place.put v q)).handlesOf =
      (s.replace t (place.put w q)).handlesOf := by
    funext handle
    cases handle with
    | query id => exact read_replace Query.handles (place.handles_put hv hw q) id
    | bindings id =>
      exact read_replace (fun q => Value.handlesOfAll q.bindings.flatten)
        (by rw [QueryPlace.bindings_put, QueryPlace.bindings_put]) id
    | _ => rfl
  have hsize : (s.replace t (place.put v q)).size = (s.replace t (place.put w q)).size := by
    unfold size
    rw [size_replace, size_replace]
    rfl
  funext query
  unfold canCopy
  simp only [hsize, reachFrom_congr hhandles]

/-- Whatever data is put in a place of a query, the queries to which it is not attached are compiled
alike. -/
theorem attachedBy_replace (g : Grammar) (known : KnownAnswers) {met : QueryId → Prop}
    (hmet : ∀ id, met id → id ≠ t ∧
      ∀ inner ∈ ((s.replace t (place.put w q)).query id).attachments, met inner) (depth : Nat) :
    Attached.Agree met
      (attachedBy (s.replace t (place.put v q)) g ((s.replace t (place.put v q)).oracle known)
        depth)
      (attachedBy (s.replace t (place.put w q)) g ((s.replace t (place.put w q)).oracle known)
        depth) := by
  have horacle : (s.replace t (place.put v q)).oracle known =
      (s.replace t (place.put w q)).oracle known := by
    funext id request
    have hclass : (s.replace t (place.put v q)).classOf id =
        (s.replace t (place.put w q)).classOf id := by
      unfold classOf
      rw [read_replace Query.isJoin QueryPlace.isJoin_put id]
    unfold oracle
    rw [hclass]
    rfl
  rw [horacle]
  refine attachedBy_agree g _ (fun id hid => ?_) (fun id hid => (hmet id hid).2)
    (canCopy_replace hv hw) depth
  rw [query_replace_of_ne (hmet id hid).1, query_replace_of_ne (hmet id hid).1]

omit hv hw in
/-- A method is asked of the same grammar. -/
theorem grammarFor_replace (compiler : Compiler) (method : String) :
    (s.replace t (place.put v q)).grammarFor compiler method =
      (s.replace t (place.put w q)).grammarFor compiler method := by
  cases compiler with
  | query other =>
    show Except.error (Failure.unknownMethod _ _) = Except.error (Failure.unknownMethod _ _)
    unfold classOf
    rw [read_replace Query.isJoin QueryPlace.isJoin_put other]
  | _ => rfl

end

end Store

end

/-! ## Statements of a store -/

namespace QueryPlace

variable {place : QueryPlace} {q : Query} {s : Store} {t : QueryId}

/-- What is compiled of a query and of what is attached to it is written around a fragment in a
place, if it is for each way to compile attached queries. -/
theorem compiled_verbatim {f : Grammar → Attached → Query → Except Failure String}
    (hagree : ∀ {g met a a' query}, Attached.Agree met a a' →
      (∀ id ∈ Query.innerQueries query, met id) →
      (∀ id ∈ query.joins, a.join id = a'.join id) → f g a query = f g a' query)
    (hlt : t.index < s.queries.size)
    (hholds : ¬(s.replace t (place.put (fragment "") q)).Holds t t) (known : KnownAnswers)
    (method : String)
    (hf : ∀ g, s.grammarFor q.grammar method = .ok g →
      Verbatim fun v => f g ((s.replace t (place.put (fragment "") q)).attached g known)
        (place.put v q)) :
    Verbatim fun v => (s.replace t (place.put v q)).compiled known t method f := by
  have hgrammar : ∀ g,
      (s.replace t (place.put (fragment "") q)).grammarFor q.grammar method = .ok g →
        s.grammarFor q.grammar method = .ok g := by
    intro g hg
    cases hcompiler : q.grammar with
    | query other =>
      rw [hcompiler] at hg
      exact nomatch hg
    | _ => rwa [hcompiler] at hg
  refine (verbatim_from _ fun g hg => hf g (hgrammar g hg)).congr fun text => ?_
  unfold Store.compiled
  rw [Store.query_replace hlt, grammar_put,
    Store.grammarFor_replace (v := fragment text) (w := fragment "")]
  refine congrArg (_ >>= ·) (funext fun g => ?_)
  have hattached : Attached.Agree ((s.replace t (place.put (fragment "") q)).Holds t)
      ((s.replace t (place.put (fragment text) q)).attached g known)
      ((s.replace t (place.put (fragment "") q)).attached g known) := by
    unfold Store.attached Store.attachedDepth
    rw [Store.size_replace, Store.size_replace]
    refine Store.attachedBy_replace rfl rfl g known (fun id hid => ⟨?_, fun _ => hid.tail⟩) _
    rintro rfl
    exact hholds hid
  have hmet : ∀ id ∈ (place.put (fragment text) q).attachments,
      (s.replace t (place.put (fragment "") q)).Holds t id := by
    intro id hid
    refine .single ?_
    rw [Store.query_replace hlt]
    rwa [attachments_put (w := fragment "")] at hid
  exact hagree hattached (fun id hid => hmet id (Query.mem_attachments_inner hid)) fun id hid =>
    hattached.join id (hmet id (Query.mem_attachments_join hid))

/-- A select statement is written around a fragment in a place, if the place is written and the
query does not hold itself. -/
theorem select_verbatim (hlt : t.index < s.queries.size) (hshown : place.Shown q)
    (hholds : ¬(s.replace t (place.put (fragment "") q)).Holds t t) (known : KnownAnswers)
    (method : String) :
    Verbatim fun v => (s.replace t (place.put v q)).compiled known t method Grammar.selectSql :=
  compiled_verbatim (f := Grammar.selectSql) (fun h hinner hjoins => h.selectSql hinner hjoins) hlt
    hholds known method fun g _ => (selectSql_gapped g _ hshown).verbatim

/-- An update or a delete is written around a fragment in a place, if the place is written and the
query does not hold itself. -/
theorem change_verbatim (hlt : t.index < s.queries.size) (change : Change)
    (hchanged : ∀ g, s.grammarFor q.grammar change.method = .ok g → place.Changed g q)
    (hholds : ¬(s.replace t (place.put (fragment "") q)).Holds t t) (known : KnownAnswers) :
    Verbatim fun v => (s.replace t (place.put v q)).compiled known t change.method
      fun g attached query => change.sql g attached query :=
  compiled_verbatim (f := fun g attached query => change.sql g attached query)
    (fun h hinner hjoins => h.change hinner hjoins change) hlt hholds known change.method
    fun g hg => (changeSql_gapped (hchanged g hg) (canCopy_attachedBy ..) change).verbatim

end QueryPlace

/-- A join belongs to one query alone, and stands there once. -/
structure Store.JoinsOnce (s : Store) (t join : QueryId) : Prop where
  ne : t ≠ join
  once : (s.query t).joins.count join = 1
  inner : join ∉ (s.query t).innerQueries
  alone : ∀ id, id ≠ t → join ∉ (s.query id).attachments

theorem Store.JoinsOnce.split {s : Store} {t join : QueryId} (h : s.JoinsOnce t join) :
    ∃ before after, (s.query t).joins = before ++ join :: after ∧ join ∉ before ∧ join ∉ after := by
  have hmem : join ∈ (s.query t).joins := List.count_pos_iff.1 (h.once ▸ Nat.one_pos)
  obtain ⟨before, after, hjoins, hbefore⟩ := List.eq_append_cons_of_mem hmem
  refine ⟨before, after, hjoins, hbefore, fun hafter => ?_⟩
  have honce := h.once
  have hagain := List.count_pos_iff.2 hafter
  rw [hjoins, List.count_append, List.count_cons_self] at honce
  omega

namespace QueryPlace

variable {place : QueryPlace} {q : Query} {s : Store} {t join : QueryId}

/-- A select statement is written around a fragment in one of its joins, if the query does not hold
itself. -/
theorem join_verbatim (hlt : join.index < s.queries.size) (hjoined : place.Joined q)
    (honce : (s.replace join (place.put (fragment "") q)).JoinsOnce t join)
    (hholds : ¬(s.replace join (place.put (fragment "") q)).Holds t t) (known : KnownAnswers)
    (method : String) : Verbatim fun v =>
      (s.replace join (place.put v q)).compiled known t method Grammar.selectSql := by
  generalize hu : s.replace join (place.put (fragment "") q) = u at honce hholds
  have hquery : ∀ v, (s.replace join (place.put v q)).query t = u.query t := fun v => by
    rw [← hu, Store.query_replace_of_ne honce.ne, Store.query_replace_of_ne honce.ne]
  obtain ⟨before, after, hjoins, hbefore, hafter⟩ := honce.split
  -- What the query holds, but for the join.
  let met : QueryId → Prop := fun id => id ≠ join ∧ u.Holds t id
  have hmet : ∀ id, met id → id ≠ join ∧ ∀ inner ∈ (u.query id).attachments, met inner := by
    intro id hid
    refine ⟨hid.1, fun inner hinner => ⟨?_, hid.2.tail hinner⟩⟩
    rintro rfl
    exact honce.alone id (fun heq => hholds (heq ▸ hid.2)) hinner
  have hagree : ∀ text g depth, Attached.Agree met
      (attachedBy (s.replace join (place.put (fragment text) q)) g
        ((s.replace join (place.put (fragment text) q)).oracle known) depth)
      (attachedBy u g (u.oracle known) depth) := by
    subst hu
    exact fun text g depth => Store.attachedBy_replace rfl rfl g known hmet depth
  let clause : Grammar → Value → Except Failure String := fun g v =>
    g.joinSql (attachedBy u g (u.oracle known) (3 * s.queries.size)) (place.put v q)
  have hclause : ∀ g, Gapped True (g.Writes place.role) (clause g) :=
    fun g => joinSql_gapped g _ hjoined
  refine (verbatim_from (u.grammarFor (u.query t).grammar method) fun g _ =>
    (joined_gapped g (u.attached g known) (hclause g) hjoins hbefore hafter).verbatim).congr
      fun text => ?_
  have hgrammar : ∀ compiler,
      (s.replace join (place.put (fragment text) q)).grammarFor compiler method =
        u.grammarFor compiler method := by
    subst hu
    exact fun compiler => Store.grammarFor_replace compiler method
  unfold Store.compiled
  rw [hquery, hgrammar]
  refine congrArg (_ >>= ·) (funext fun g => ?_)
  have hheld : u.Holds t join := by
    refine .single (Query.mem_attachments_join ?_)
    rw [hjoins]
    exact List.mem_append_right _ List.mem_cons_self
  have hinside : ∀ id ∈ (place.put (fragment text) q).attachments, met id := by
    intro id hid
    have hid : id ∈ (u.query join).attachments := by
      rw [← hu, Store.query_replace hlt]
      rwa [attachments_put (w := fragment "")] at hid
    refine ⟨?_, hheld.tail hid⟩
    rintro rfl
    exact honce.alone id honce.ne.symm hid
  have hjoin : ((s.replace join (place.put (fragment text) q)).attached g known).join join =
      clause g (fragment text) := by
    have hbelow := hagree text g (3 * s.queries.size)
    unfold Store.attached Store.attachedDepth
    rw [Store.size_replace]
    show g.joinSql _ ((s.replace join (place.put (fragment text) q)).query join) = _
    rw [Store.query_replace hlt]
    exact hbelow.joinSql (fun id hid => hinside id (Query.mem_attachments_inner hid))
      fun id hid => hbelow.join id (hinside id (Query.mem_attachments_join hid))
  have hattached : Attached.Agree met
      ((s.replace join (place.put (fragment text) q)).attached g known)
      ((u.attached g known).joinAs join (clause g (fragment text))) := by
    have hsize : u.attachedDepth =
        (s.replace join (place.put (fragment text) q)).attachedDepth := by
      rw [← hu, Store.attachedDepth, Store.attachedDepth, Store.size_replace, Store.size_replace]
    unfold Store.attached
    rw [hsize]
    exact (hagree text g _).joinAs (fun hself => hself.1 rfl) _
  refine hattached.selectSql (fun id hid => ⟨?_, .single (Query.mem_attachments_inner hid)⟩)
    fun id hid => ?_
  · rintro rfl
    exact honce.inner hid
  · by_cases hsame : id = join
    · subst hsame
      rw [hjoin]
      exact (Attached.joinAs_self ..).symm
    · exact hattached.join id ⟨hsame, .single (Query.mem_attachments_join hid)⟩

end QueryPlace

end FluentSql
