import FluentSql.Proofs.Naming.Mentions
import FluentSql.Proofs.Verbatim.Attaching

/-!
# Fragments where all values are read

A statement is compiled from a store in which the bindings of queries were read
wherever a value shows them.  Reading changes what stands beside a fragment, and
leaves the fragment.

* `QueryPlace.rename` is a place with what stands beside it read, and `QueryPlace.rename_put`
  a query with a fragment in it.
* `QueryPlace.select_settled`, `QueryPlace.change_settled` and `QueryPlace.join_settled` are the
  statements.
-/

namespace FluentSql

variable {r : Renaming} {text : String}

/-! ## Places -/

namespace ConditionGap

/-- Replaces the references beside the gap. -/
def rename (r : Renaming) : ConditionGap → ConditionGap
  | comparedColumn operator value => comparedColumn operator (r.value value)
  | comparedValue column operator => comparedValue (r.value column) operator
  | amongColumn first others negated =>
    amongColumn (r.value first) (others.map r.value) negated
  | amongValue column before after negated =>
    amongValue (r.value column) (before.map r.value) (after.map r.value) negated
  | integersColumn first others negated => integersColumn first others negated
  | nullColumn negated => nullColumn negated
  | betweenColumn values negated => betweenColumn (values.map r.value) negated
  | lowValue column others high negated =>
    lowValue (r.value column) (others.map r.value) (r.value high) negated
  | highValue column low others negated =>
    highValue (r.value column) (r.value low) (others.map r.value) negated
  | dateColumn part operator value => dateColumn part operator (r.value value)
  | dateValue part column operator => dateValue part (r.value column) operator
  | firstColumn operator second => firstColumn operator (r.value second)
  | secondColumn first operator => secondColumn (r.value first) operator
  | subColumn operator query => subColumn (r.value operator) (r.query query)
  | rowColumn before after operator values =>
    rowColumn (before.map r.value) (after.map r.value) (r.value operator) (values.map r.value)
  | rowValue columns operator before after =>
    rowValue (columns.map r.value) (r.value operator) (before.map r.value) (after.map r.value)
  | documentValue column negated => documentValue (r.value column) negated
  | lengthValue column operator => lengthValue (r.value column) operator

theorem rename_fill (gap : ConditionGap) :
    (gap.fill (fragment text)).rename r = (gap.rename r).fill (fragment text) := by
  cases gap <;>
    simp only [fill, rename, Where.rename, List.map_append, List.map_cons, List.map_nil] <;> rfl

end ConditionGap

namespace GroupGap

/-- Replaces the references beside the gap. -/
def rename (r : Renaming) : GroupGap → GroupGap
  | comparedColumn operator value => comparedColumn operator (r.value value)
  | comparedValue column operator => comparedValue (r.value column) operator
  | betweenColumn values negated => betweenColumn (values.map r.value) negated
  | lowValue column others high negated =>
    lowValue (r.value column) (others.map r.value) (r.value high) negated
  | highValue column low others negated =>
    highValue (r.value column) (r.value low) (others.map r.value) negated
  | nullColumn negated => nullColumn negated

theorem rename_fill (gap : GroupGap) :
    (gap.fill (fragment text)).rename r = (gap.rename r).fill (fragment text) := by
  cases gap <;>
    simp only [fill, rename, Having.rename, List.map_append, List.map_cons, List.map_nil] <;> rfl

end GroupGap

namespace QueryPlace

/-- Replaces the references beside the place. -/
def rename (r : Renaming) : QueryPlace → QueryPlace
  | column before after => column (before.map r.value) (after.map r.value)
  | source => source
  | condition before after boolean gap =>
    condition (before.map fun c => ⟨r.value c.boolean, c.body.rename r⟩)
      (after.map fun c => ⟨r.value c.boolean, c.body.rename r⟩) (r.value boolean) (gap.rename r)
  | group before after => group (before.map r.value) (after.map r.value)
  | groupCondition before after boolean gap =>
    groupCondition (before.map fun c => ⟨r.value c.boolean, c.body.rename r⟩)
      (after.map fun c => ⟨r.value c.boolean, c.body.rename r⟩) (r.value boolean) (gap.rename r)
  | order before after direction =>
    order (before.map (Order.rename r)) (after.map (Order.rename r)) direction
  | unionOrder before after direction =>
    unionOrder (before.map (Order.rename r)) (after.map (Order.rename r)) direction
  | joined type => joined (r.value type)

variable {place : QueryPlace} {q : Query}

theorem rename_put : (place.put (fragment text) q).rename r =
    (place.rename r).put (fragment text) (q.rename r) := by
  cases place <;>
    simp only [put, rename, Query.rename, Option.map_some, List.map_append, List.map_cons,
      ConditionGap.rename_fill, GroupGap.rename_fill] <;> rfl

theorem Shown.rename (h : place.Shown q) (r : Renaming) : (place.rename r).Shown (q.rename r) := by
  cases place with
  | column before after =>
    have hnone : q.listed.aggregate = none := h
    show (q.rename r).listed.aggregate = none
    rw [Query.listed, (q.rowsAlike_rename r).isUnion]
    rw [Query.listed] at hnone
    split
    · rfl
    · rename_i hunion
      rw [if_neg hunion] at hnone
      exact congrArg (Option.map _) hnone
  | unionOrder before after direction => exact (q.rowsAlike_rename r).isUnion.trans h
  | joined type => exact h
  | _ => trivial

theorem Restricts.rename {g : Grammar} (h : place.Restricts g q) (r : Renaming) :
    (place.rename r).Restricts g (q.rename r) := by
  have haddress : g.addressColumn? (q.rename r) = g.addressColumn? q :=
    (q.rowsAlike_rename r).addressColumn
  have haddressed : (g.addressColumn? q).isSome = true →
      (g.addressColumn? (q.rename r)).isSome = true :=
    fun h => haddress ▸ h
  cases place with
  | order before after direction =>
    exact h.imp haddressed (And.imp_right (q.rowsAlike_rename r).joins.2)
  | group before after => exact haddressed h
  | groupCondition before after boolean gap => exact haddressed h
  | unionOrder before after direction =>
    exact ⟨haddressed h.1, (q.rowsAlike_rename r).isUnion.trans h.2⟩
  | _ => exact h

theorem Changed.rename {g : Grammar} (h : place.Changed g q) (r : Renaming) :
    (place.rename r).Changed g (q.rename r) := by
  obtain h | ⟨rfl, haddress, hjoins⟩ := h
  · exact .inl (h.rename r)
  · exact .inr ⟨rfl, (q.rowsAlike_rename r).addressColumn.trans haddress,
      (q.rowsAlike_rename r).joins.2 hjoins⟩

theorem Joined.rename (h : place.Joined q) (r : Renaming) :
    (place.rename r).Joined (q.rename r) := by
  cases place with
  | condition before after boolean gap =>
    have hjoin : q.isJoin = true := h
    show (q.rename r).isJoin = true
    rw [← hjoin]
    unfold Query.isJoin Query.rename
    cases q.kind <;> rfl
  | _ => exact h

end QueryPlace

/-! ## Stores -/

namespace Store

/-- What takes the place of the bindings of queries. -/
def reading (s : Store) : Renaming where
  bindings id := s.shown (.object (.bindings id))

variable {s : Store} {t join : QueryId} {q q' : Query}

theorem query_settled_eq (s : Store) (id : QueryId) :
    s.settled.query id = (s.query id).rename s.reading :=
  s.query_settled id

theorem joins_reading (q : Query) : (q.rename s.reading).joins = q.joins :=
  List.map_id q.joins

theorem innerQueries_reading (q : Query) :
    (q.rename s.reading).innerQueries = q.innerQueries := by
  have hbody : ∀ body : Where, (body.rename s.reading).group? = body.group? ∧
      (body.rename s.reading).sub? = body.sub? := by
    intro body
    cases body with
    | «exists» query negated => exact ⟨rfl, Option.map_id_apply⟩
    | _ => exact ⟨rfl, rfl⟩
  have hmember : ∀ u : Union, u.member.map s.reading.query = u.member :=
    fun u => Option.map_id_apply
  simp only [Query.innerQueries, Query.conditionGroups, Query.subQueries, Query.rename,
    List.filterMap_map, Function.comp_def, hbody, hmember]

theorem attachments_reading (q : Query) : (q.rename s.reading).attachments = q.attachments := by
  have hinner := innerQueries_reading (s := s) q
  unfold Query.innerQueries at hinner
  rw [Query.attachments, Query.attachments, List.append_assoc, List.append_assoc, joins_reading,
    hinner]

/-- Queries hold the same ones where values are read. -/
theorem holds_settled : s.settled.Holds = s.Holds := by
  unfold Holds
  simp only [query_settled_eq, attachments_reading]

theorem JoinsOnce.settled (h : s.JoinsOnce t join) : s.settled.JoinsOnce t join where
  ne := h.ne
  once := by rw [query_settled_eq, joins_reading, h.once]
  inner := by
    rw [query_settled_eq, innerQueries_reading]
    exact h.inner
  alone id hid := by
    rw [query_settled_eq, attachments_reading]
    exact h.alone id hid

/-- Values are read from the bindings of queries alone. -/
theorem shown_replace (hbindings : q'.bindings = q.bindings) (v : Value) :
    (s.replace t q').shown v = (s.replace t q).shown v := by
  refine @shown_congr _ _ (fun _ => True) ?_ (fun id _ => ?_) (fun _ _ _ _ => trivial) _
    fun _ _ => trivial
  · rw [size_replace, size_replace]
  · exact read_replace Query.bindings hbindings id

theorem reading_replace (hbindings : q'.bindings = q.bindings) :
    (s.replace t q').reading = (s.replace t q).reading := by
  unfold reading
  simp only [shown_replace hbindings]

theorem settled_replace (hbindings : q'.bindings = q.bindings) : (s.replace t q').settled =
    (s.replace t q).settled.replace t (q'.rename (s.replace t q).reading) := by
  have hsettled : ∀ s : Store,
      s.settled = { s with queries := s.queries.map (·.rename s.reading) } := fun _ => rfl
  rw [hsettled, hsettled, reading_replace hbindings]
  unfold replace edit
  dsimp only
  congr 1
  refine Array.ext ?_ fun i hi hi' => ?_
  · simp only [Array.size_map, Array.size_modify]
  · simp only [Array.getElem_map, Array.getElem_modify]
    split <;> rfl

theorem size_settled (s : Store) : s.settled.queries.size = s.queries.size :=
  Array.size_map

end Store

/-! ## Statements -/

namespace QueryPlace

variable {place : QueryPlace} {q : Query} {s : Store} {t join : QueryId}

/-- Where values are read, a fragment is in the same place of its query. -/
theorem settled_put (place : QueryPlace) (q : Query) (s : Store) (t : QueryId) (text : String) :
    (s.replace t (place.put (fragment text) q)).settled =
      (s.replace t q).settled.replace t ((place.rename (s.replace t q).reading).put (fragment text)
        (q.rename (s.replace t q).reading)) := by
  rw [Store.settled_replace place.bindings_put, rename_put]

theorem holds_put (hholds : ¬(s.replace t (place.put (fragment "") q)).Holds join join) :
    ¬((s.replace t q).settled.replace t ((place.rename (s.replace t q).reading).put (fragment "")
      (q.rename (s.replace t q).reading))).Holds join join := by
  rw [← settled_put, Store.holds_settled]
  exact hholds

theorem lt_settled (hlt : t.index < s.queries.size) (q : Query) (id : QueryId) :
    t.index < (s.replace id q).settled.queries.size := by
  rwa [Store.size_settled, Store.size_replace]

/-- A select statement is written around a fragment in a place, if the place is written and the
query does not hold itself. -/
theorem select_settled (hlt : t.index < s.queries.size) (hshown : place.Shown q)
    (hholds : ¬(s.replace t (place.put (fragment "") q)).Holds t t) (known : KnownAnswers)
    (method : String) : Verbatim fun v =>
      (s.replace t (place.put v q)).settled.compiled known t method Grammar.selectSql :=
  (select_verbatim (lt_settled hlt q t) (hshown.rename _) (holds_put hholds) known method).congr
    fun text => by rw [settled_put]

/-- An update or a delete is written around a fragment in a place, if the place is written and the
query does not hold itself. -/
theorem change_settled (hlt : t.index < s.queries.size) (change : Change)
    (hchanged : ∀ g, s.grammarFor q.grammar change.method = .ok g → place.Changed g q)
    (hholds : ¬(s.replace t (place.put (fragment "") q)).Holds t t) (known : KnownAnswers) :
    Verbatim fun v => (s.replace t (place.put v q)).settled.compiled known t change.method
      fun g attached query => change.sql g attached query := by
  refine (change_verbatim (lt_settled hlt q t) change (fun g hg => ?_) (holds_put hholds)
    known).congr fun text => by rw [settled_put]
  refine (hchanged g ?_).rename _
  cases hcompiler : q.grammar with
  | grammar id =>
    rw [Query.rename, hcompiler] at hg
    exact hg
  | connection id =>
    rw [Query.rename, hcompiler] at hg
    cases hg
  | query id =>
    rw [Query.rename, hcompiler] at hg
    cases hg

/-- A select statement is written around a fragment in one of its joins, if the query does not hold
itself. -/
theorem join_settled (hlt : join.index < s.queries.size) (hjoined : place.Joined q)
    (honce : (s.replace join (place.put (fragment "") q)).JoinsOnce t join)
    (hholds : ¬(s.replace join (place.put (fragment "") q)).Holds t t) (known : KnownAnswers)
    (method : String) : Verbatim fun v =>
      (s.replace join (place.put v q)).settled.compiled known t method Grammar.selectSql := by
  refine (join_verbatim (lt_settled hlt q join) (hjoined.rename _) ?_ (holds_put hholds) known
    method).congr fun text => by rw [settled_put]
  rw [← settled_put]
  exact honce.settled

end QueryPlace

end FluentSql
