import FluentSql.Proofs.Filling
import FluentSql.Proofs.References
import FluentSql.Store.Reference
import FluentSql.Value.Json
import Mathlib.Data.List.Forall2

/-!
# What placeholders stand for

A query keeps its clauses apart from the values of its placeholders, so the
clauses alone do not say which value a placeholder stands for.  Here every
clause gets a note: the values of the placeholders in its text.  A query is
noted if its notes fit its clauses, and if its binding groups are the values
of its notes in order.

* `Note` are the values of one condition, `Notes` those of a query.
* `ColumnHolds`, `TableHolds`, `ParamHolds`, `WhereHolds` and `HavingHolds` say
  that a note fits a clause.  A structured clause has the values that it
  compares with.  A fragment of SQL has as many values as placeholders.
* `Query.Noted` says that the notes of a query fit it, and `Store.Noted` that
  those of all queries of a store do.  A query that is attached to another
  contributes the values that it is bound to.
* `Query.inlined` and `Store.inlined` write the values into the clauses, each
  in the place of its placeholder.
-/

namespace FluentSql

open Name

/-! ## Notes -/

/-- The values of the placeholders in one condition. -/
structure Note where
  /-- The values of the placeholders in its column. -/
  column : List Value := []
  /-- The values of the placeholders in each of its values. -/
  values : List (List Value) := []

/-- The values of the placeholders in the clauses of a query. -/
structure Notes where
  /-- Those of the joined table. -/
  table : List Value := []
  /-- Those of the entries of the select list. -/
  columns : List (List Value) := []
  /-- Those of the source. -/
  source : List Value := []
  /-- Those of the conditions. -/
  wheres : List Note := []
  /-- Those of the columns to group by. -/
  groups : List (List Value) := []
  /-- Those of the conditions on groups. -/
  havings : List Note := []
  /-- Those of the orderings. -/
  orders : List (List Value) := []
  /-- Those of the orderings of the union. -/
  unionOrders : List (List Value) := []
  /-- Whether the source is noted too.  The query of a group of conditions has the source of the
  query around it, but not the values of that source. -/
  whole : Bool := true
  /-- Whether the query is complete.  In the middle of a call it may be bound to the values of a
  clause that it does not have yet. -/
  closed : Bool := true
  /-- A number that is greater than those of all attached queries. -/
  rank : Nat := 0

/-! ## Clauses and their values -/

/-- The keys of a reference hold no single quotes, in PostgreSQL. -/
def NameFree (g : Grammar) (s : String) : Prop :=
  g.dialect = .postgres → ∀ p, g.tablePrefix = .text p →
    ∀ key ∈ tableKeysOf p.toList s.toList ++ keysOf s.toList, '\'' ∉ key

/-- A word without points and arrows is free of single quotes in its keys: it has none. -/
theorem nameFree_of_word (g : Grammar) {s : String} (hdot : '.' ∉ s.toList)
    (harrow : '-' ∉ s.toList) : NameFree g s := by
  intro _ p _ key hkey
  rw [tableKeysOf, tableOf?_of_dotless hdot, keysOf_of_arrowless harrow] at hkey
  cases hkey

/-- What stands for a column, and the values of the placeholders in it.  Only a fragment has
any. -/
def ColumnHolds (g : Grammar) (v : Value) (vs : List Value) : Prop :=
  v.handles = [] ∧
    match v with
    | .raw w => Reads w.display.toList vs.length
    | v => vs = [] ∧ NameFree g v.display

/-- What stands for a table, and the values of the placeholders in it. -/
def TableHolds (g : Grammar) (v : Value) (vs : List Value) : Prop :=
  v.handles = [] ∧
    match v with
    | .raw w => Reads w.display.toList vs.length
    | v => vs = [] ∧ ∀ t, g.tablePrefix.plus v = .ok t → NameFree g t.display

/-- What stands for a value, and the values of the placeholders in it: `bound` is what is bound for
a value that is no fragment. -/
def ParamHolds (bound : Value → Except Failure Value) (v : Value) (vs : List Value) : Prop :=
  v.handles = [] ∧
    match v with
    | .raw w => Reads w.display.toList vs.length
    | v => ∃ w, bound v = .ok w ∧ vs = [w]

/-- The values that are bound for a value: a fragment of SQL has none. -/
def Value.bound (v : Value) : List Value :=
  if v.isRaw then [] else [v]

/-- The values that are no fragments are those that are bound for each. -/
theorem filter_raw_eq (vs : List Value) :
    vs.filter (!·.isRaw) = (vs.map Value.bound).flatten := by
  induction vs with
  | nil => rfl
  | cons v vs ih =>
    rw [List.map_cons, List.flatten_cons, List.filter_cons, ih]
    unfold Value.bound
    cases v.isRaw <;> rfl

/-- What a JSON comparison binds. -/
def boundJson (v : Value) : Except Failure Value :=
  v.json.map .text

/-- What a comparison of a length binds. -/
def boundLength (v : Value) : Except Failure Value :=
  v.toInt.map .int

/-- A value compared by itself, and a note with its values. -/
def OneParamHolds (bound : Value → Except Failure Value) (v : Value) (note : Note) : Prop :=
  ∃ vs, note.values = [vs] ∧ ParamHolds bound v vs

/-- The values between which a column is, and a note with theirs. -/
def EndsHold (values : List Value) (note : Note) : Prop :=
  ∃ first last vs ws, values.head? = some first ∧ values.getLast? = some last ∧
    note.values = [vs, ws] ∧ ParamHolds .ok first vs ∧ ParamHolds .ok last ws ∧
    ∀ v ∈ values, v.handles = []

/-- A word of SQL: it has neither references nor placeholders. -/
def WordHolds (v : Value) : Prop :=
  v.handles = [] ∧ Sealed v.display.toList

/-- A condition and a note that fits it. -/
def WhereHolds (g : Grammar) (note : Note) : Where → Prop
  | .raw sql => sql.handles = [] ∧ note.column = [] ∧
      ∃ vs, note.values = [vs] ∧ Reads sql.display.toList vs.length
  | .basic column operator value => ColumnHolds g column note.column ∧ Sealed operator.toList ∧
      OneParamHolds .ok value note
  | .among column values _ => ColumnHolds g column [] ∧ note.column = [] ∧
      List.Forall₂ (ParamHolds .ok) values note.values
  | .amongIntegers column _ _ => ColumnHolds g column [] ∧ note = {}
  | .null column _ => ColumnHolds g column note.column ∧ note.values = []
  | .between column values _ => ColumnHolds g column note.column ∧ EndsHold values note
  | .datePart _ column operator value => ColumnHolds g column note.column ∧
      Sealed operator.toList ∧ OneParamHolds .ok value note
  | .columnPair first operator second => ColumnHolds g first [] ∧ Sealed operator.toList ∧
      ColumnHolds g second [] ∧ note = {}
  | .nested _ => note = {}
  | .sub column operator _ => ColumnHolds g column note.column ∧ WordHolds operator ∧
      note.values = []
  | .exists query _ => query.isSome ∧ note = {}
  | .rowValues columns operator values => (∀ c ∈ columns, ColumnHolds g c []) ∧
      WordHolds operator ∧ note.column = [] ∧ List.Forall₂ (ParamHolds .ok) values note.values
  | .jsonContains column value _ => ColumnHolds g column [] ∧ note.column = [] ∧
      OneParamHolds boundJson value note
  | .jsonLength column operator value => ColumnHolds g column [] ∧ Sealed operator.toList ∧
      note.column = [] ∧ OneParamHolds boundLength value note

/-- A condition on groups and a note that fits it. -/
def HavingHolds (g : Grammar) (note : Note) : Having → Prop
  | .raw sql => sql.handles = [] ∧ note.column = [] ∧
      ∃ vs, note.values = [vs] ∧ Reads sql.display.toList vs.length
  | .basic column operator value => ColumnHolds g column note.column ∧ Sealed operator.toList ∧
      OneParamHolds .ok value note
  | .between column values _ => ColumnHolds g column note.column ∧ EndsHold values note
  | .null column _ => ColumnHolds g column note.column ∧ note.values = []

/-- An ordering and its values. -/
def OrderHolds (g : Grammar) (vs : List Value) : Order → Prop
  | .raw sql => sql.handles = [] ∧ Reads sql.display.toList vs.length
  | .byColumn column _ => ColumnHolds g column vs

/-! ## Attached queries -/

namespace Where

/-- The query whose conditions are the group that a condition is. -/
def group? : Where → Option QueryId
  | nested query => some query
  | _ => none

/-- The query that a condition selects from. -/
def sub? : Where → Option QueryId
  | sub _ _ query => some query
  | «exists» query _ => query
  | _ => none

/-- The values of a condition in its binding group: those of its note, and those that the attached
query is bound to. -/
def valuesIn (s : Store) (note : Note) : Where → List Value
  | nested query => (s.query query).bindings.condition
  | sub _ _ query => note.column ++ (s.query query).bindings.flatten
  | «exists» (some query) _ => (s.query query).bindings.flatten
  | _ => note.column ++ note.values.flatten

end Where

namespace Query

/-- The groups of conditions of a query. -/
def conditionGroups (q : Query) : List QueryId :=
  q.wheres.filterMap (·.body.group?)

/-- The queries that a query selects from: those in its conditions and the members of its
union. -/
def subQueries (q : Query) : List QueryId :=
  q.wheres.filterMap (·.body.sub?) ++ q.unions.filterMap (·.member)

/-- The queries that are attached to a query. -/
def attachments (q : Query) : List QueryId :=
  q.joins ++ q.conditionGroups ++ q.subQueries

theorem mem_subQueries {q : Query} {id : QueryId} :
    id ∈ q.subQueries ↔
      (∃ c ∈ q.wheres, c.body.sub? = some id) ∨ ∃ u ∈ q.unions, u.member = some id := by
  rw [subQueries, List.mem_append, List.mem_filterMap, List.mem_filterMap]

theorem mem_attachments {q : Query} {id : QueryId} :
    id ∈ q.attachments ↔
      id ∈ q.joins ∨ (∃ c ∈ q.wheres, c.body.group? = some id) ∨ id ∈ q.subQueries := by
  rw [attachments, List.mem_append, List.mem_append, conditionGroups, List.mem_filterMap, or_assoc]

theorem mem_attachments_group {q : Query} {c : Condition} {id : QueryId} (hc : c ∈ q.wheres)
    (hid : id ∈ c.body.group?) : id ∈ q.attachments :=
  List.mem_append_left _ (List.mem_append_right _ (List.mem_filterMap.2 ⟨c, hc, hid⟩))

theorem mem_attachments_sub {q : Query} {id : QueryId} (hid : id ∈ q.subQueries) :
    id ∈ q.attachments :=
  List.mem_append_right _ hid

theorem mem_attachments_join {q : Query} {id : QueryId} (hid : id ∈ q.joins) :
    id ∈ q.attachments :=
  List.mem_append_left _ (List.mem_append_left _ hid)

theorem mem_subQueries_where {q : Query} {c : Condition} {id : QueryId} (hc : c ∈ q.wheres)
    (hid : id ∈ c.body.sub?) : id ∈ q.subQueries :=
  List.mem_append_left _ (List.mem_filterMap.2 ⟨c, hc, hid⟩)

theorem mem_subQueries_union {q : Query} {u : Union} {id : QueryId} (hu : u ∈ q.unions)
    (hid : id ∈ u.member) : id ∈ q.subQueries :=
  List.mem_append_right _ (List.mem_filterMap.2 ⟨u, hu, hid⟩)

/-- A query with no values but those of joins and conditions. -/
def OnlyConditions (q : Query) : Prop :=
  q.bindings = { join := q.bindings.join, condition := q.bindings.condition }

end Query

/-! ## Noted queries -/

/-- The kind of a query, and the values of the joined table. -/
def KindHolds (g : Grammar) (vs : List Value) : QueryKind → Prop
  | .statement => vs = []
  | .join type table => WordHolds type ∧ TableHolds g table vs

/-- A function over the rows has no values.  It stands in the place of the select list, which then
has none either, unless it is over a union. -/
def AggregateHolds (g : Grammar) (q : Query) (a : Aggregate) : Prop :=
  WordHolds a.function ∧ (∀ c ∈ a.columns, ColumnHolds g c []) ∧
    (q.isUnion = true ∨ q.bindings.select = [])

/-- A query that is there and complete. -/
def Store.Stands (s : Store) (notes : QueryId → Notes) (id : QueryId) : Prop :=
  id.index < s.queries.size ∧ (notes id).closed = true

/-- The notes of a query fit its clauses, and its binding groups are their values in order. -/
structure Query.Noted (g : Grammar) (s : Store) (notes : QueryId → Notes) (n : Notes) (q : Query) :
    Prop where
  /-- The query compiles by the grammar. -/
  grammar : ∃ id, q.grammar = .grammar id ∧ id.index < s.grammars.size ∧ s.grammar id = g
  aggregate : ∀ a, q.aggregate = some a → AggregateHolds g q a
  kind : KindHolds g n.table q.kind
  columns : List.Forall₂ (ColumnHolds g) (q.columns.getD []) n.columns
  select : q.bindings.select = n.columns.flatten
  sourceData : q.source.handles = []
  source : n.whole = true → TableHolds g q.source n.source ∧ q.bindings.source = n.source
  join : q.bindings.join =
    q.joins.flatMap fun id => (notes id).table ++ (s.query id).bindings.flatten
  wheres : List.Forall₂ (fun c note => WordHolds c.boolean ∧ WhereHolds g note c.body)
    q.wheres n.wheres
  condition : q.bindings.condition =
    (List.zipWith (fun c note => c.body.valuesIn s note) q.wheres n.wheres).flatten
  groups : List.Forall₂ (ColumnHolds g) q.groups n.groups
  grouping : q.bindings.grouping = n.groups.flatten
  havings : List.Forall₂ (fun c note => WordHolds c.boolean ∧ HavingHolds g note c.body)
    q.havings n.havings
  having : q.bindings.having =
    (n.havings.map fun note => note.column ++ note.values.flatten).flatten
  orders : List.Forall₂ (fun order vs => OrderHolds g vs order) q.orders n.orders
  order : q.bindings.order = n.orders.flatten
  unions : ∀ u ∈ q.unions, u.member.isSome ∧ u.keepsAll.handles = []
  union : q.bindings.union =
    (q.unions.filterMap (·.member)).flatMap fun id => (s.query id).bindings.flatten
  unionOrders : List.Forall₂ (fun order vs => OrderHolds g vs order) q.unionOrders n.unionOrders
  unionOrder : q.bindings.unionOrder = n.unionOrders.flatten
  /-- Only a union has an ordering of its own. -/
  unionOnly : q.isUnion = false → q.unionOrders = []
  lock : q.lock.handles = [] ∧ ∀ sql, q.lock = .text sql → Sealed sql.toList
  /-- What is attached stands and has a smaller rank. -/
  attached : ∀ id ∈ q.attachments, s.Stands notes id ∧ (notes id).rank < n.rank
  /-- Joins have no values but those of their conditions. -/
  joins : ∀ id ∈ q.joins, (s.query id).OnlyConditions
  /-- The source of every query that is selected from is noted. -/
  subQueries : ∀ id ∈ q.subQueries, (notes id).whole = true
  /-- The values hold no references. -/
  data : ∀ v ∈ q.bindings.flatten, v.handles = []

/-- A query that is not united has no values of a union. -/
theorem Query.Noted.union_nil {g : Grammar} {s : Store} {notes : QueryId → Notes} {n : Notes}
    {q : Query} (h : q.Noted g s notes n) (hnone : q.unions = []) :
    q.bindings.union = [] ∧ q.bindings.unionOrder = [] := by
  have horders := h.unionOrders
  rw [h.unionOnly (by rw [Query.isUnion, hnone]; rfl), List.forall₂_nil_left_iff] at horders
  rw [h.union, h.unionOrder, hnone, horders]
  exact ⟨rfl, rfl⟩

/-- A query that stays as it is when the values that follow other queries are read. -/
def Query.Still (q : Query) : Prop :=
  ∀ f : QueryId → Value, q.rename { bindings := f } = q

/-- The notes of a store fit all of its complete queries. -/
structure Store.Noted (g : Grammar) (s : Store) (notes : QueryId → Notes) : Prop where
  queries : ∀ id, s.Stands notes id → (s.query id).Noted g s notes (notes id)
  still : ∀ id : QueryId, id.index < s.queries.size → (s.query id).Still
  present : ∀ id : QueryId, id.index < s.queries.size →
    ∀ a ∈ (s.query id).attachments, a.index < s.queries.size
  /-- A connection has a grammar, and no other object in its place. -/
  connections : ∀ c, ∃ id, (s.connection c).grammar = .grammar id

/-! ## Values in place of placeholders -/

variable (lit : Literals)

/-- A fragment with its placeholders filled. -/
def filledText (vs : List Value) (v : Value) : Value :=
  .text (String.ofList (fill none (lit.texts vs) v.display.toList))

namespace Value

/-- A column or a table with its placeholders filled; only a fragment has any. -/
def filled (vs : List Value) : Value → Value
  | raw w => raw (filledText lit vs w)
  | v => v

/-- The fragment that stands for a value once its placeholders are filled. -/
def inlined (vs : List Value) (v : Value) : Value :=
  raw (filledText lit vs (Grammar.parameter v))

end Value

/-- The values of a note written into a condition. -/
def Where.inlined (note : Note) : Where → Where
  | .raw sql => .raw (filledText lit note.values.flatten sql)
  | .basic column operator value =>
    .basic (column.filled lit note.column) operator (value.inlined lit note.values.flatten)
  | .among column values negated =>
    .among column (List.zipWith (fun v vs => v.inlined lit vs) values note.values) negated
  | .null column negated => .null (column.filled lit note.column) negated
  | .between column values negated =>
    .between (column.filled lit note.column)
      (List.zipWith (fun v vs => v.inlined lit vs)
        (values.head?.toList ++ values.getLast?.toList) note.values) negated
  | .datePart part column operator value =>
    .datePart part (column.filled lit note.column) operator
      (value.inlined lit note.values.flatten)
  | .sub column operator query => .sub (column.filled lit note.column) operator query
  | .rowValues columns operator values =>
    .rowValues columns operator (List.zipWith (fun v vs => v.inlined lit vs) values note.values)
  | .jsonContains column value negated =>
    .jsonContains column (value.inlined lit note.values.flatten) negated
  | .jsonLength column operator value =>
    .jsonLength column operator (value.inlined lit note.values.flatten)
  | body => body

/-- The values of a note written into a condition on groups. -/
def Having.inlined (note : Note) : Having → Having
  | .raw sql => .raw (filledText lit note.values.flatten sql)
  | .basic column operator value =>
    .basic (column.filled lit note.column) operator (value.inlined lit note.values.flatten)
  | .between column values negated =>
    .between (column.filled lit note.column)
      (List.zipWith (fun v vs => v.inlined lit vs)
        (values.head?.toList ++ values.getLast?.toList) note.values) negated
  | .null column negated => .null (column.filled lit note.column) negated

/-- The values written into an ordering. -/
def Order.inlined (vs : List Value) : Order → Order
  | .raw sql => .raw (filledText lit vs sql)
  | .byColumn column direction => .byColumn (column.filled lit vs) direction

/-- The values written into the joined table. -/
def QueryKind.inlined (vs : List Value) : QueryKind → QueryKind
  | .statement => .statement
  | .join type table => .join type (table.filled lit vs)

/-- The values of its notes written into the clauses of a query.  Nothing is bound any more. -/
def Query.inlined (n : Notes) (q : Query) : Query :=
  { q with
    bindings := {}
    kind := q.kind.inlined lit n.table
    columns := q.columns.map fun columns =>
      List.zipWith (fun v vs => v.filled lit vs) columns n.columns
    source := q.source.filled lit n.source
    wheres := List.zipWith (fun c note => ⟨c.boolean, c.body.inlined lit note⟩) q.wheres n.wheres
    groups := List.zipWith (fun v vs => v.filled lit vs) q.groups n.groups
    havings :=
      List.zipWith (fun c note => ⟨c.boolean, c.body.inlined lit note⟩) q.havings n.havings
    orders := List.zipWith (fun order vs => order.inlined lit vs) q.orders n.orders
    unionOrders := List.zipWith (fun order vs => order.inlined lit vs) q.unionOrders n.unionOrders }

/-- The values of their notes written into the clauses of all queries. -/
def Store.inlined (notes : QueryId → Notes) (s : Store) : Store :=
  { s with queries := s.queries.mapIdx fun i q => q.inlined lit (notes ⟨i⟩) }

theorem Store.inlined_query {notes : QueryId → Notes} {s : Store} {id : QueryId}
    (h : id.index < s.queries.size) :
    (s.inlined lit notes).query id = (s.query id).inlined lit (notes id) := by
  unfold Store.query Store.inlined
  rw [Array.getElem?_mapIdx, Array.getElem?_eq_getElem h]
  rfl

end FluentSql
