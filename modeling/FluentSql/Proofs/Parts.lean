import Mathlib.Data.List.Chain
import Mathlib.Data.List.Nodup
import Mathlib.Data.List.Perm.Subperm
import Mathlib.Logic.Relation
import FluentSql.Compile.Select

/-!
# What compiling comes upon

A query is compiled as a whole, as a group of conditions, or as a join.  Each of
these writes names and values, and compiles what is attached to the query, as
far as it uses it.  So compiling goes down chains of parts.  A chain in which
nothing stands inside itself is no longer than there are parts, and compiling to
the depth of `Store.attachedDepth` reaches its end.

* `Part` is what is compiled on its own, `Item` what it writes, and
  `Store.items` lists the items of a part.
* `Store.parts` is what is compiled inside a part, and `Store.Visits` what
  compiling it comes upon.
* `Store.Uncircled` says that no part stands inside itself.
* `Store.Within` bounds the chains below a part.
* `within_of_uncircled` and `Within.uncircled` are the two directions.
-/

namespace FluentSql

/-! ## Parts and items -/

/-- What is compiled on its own. -/
inductive Part where
  /-- A query as a select statement. -/
  | select (id : QueryId)
  /-- The conditions of a query as one group. -/
  | conditions (id : QueryId)
  /-- A join condition as a join clause. -/
  | join (id : QueryId)

/-- The query that a part is compiled from. -/
def Part.query : Part → QueryId
  | select id | conditions id | join id => id

/-- The text of a part. -/
def Attached.part (attached : Attached) : Part → Except Failure String
  | .select id => attached.select id
  | .conditions id => attached.conditions id
  | .join id => attached.join id

/-- What a part writes. -/
inductive Item where
  /-- A quoted column. -/
  | column (v : Value)
  /-- A quoted table. -/
  | table (v : Value)
  /-- A fragment among others. -/
  | fragment (v : Value)
  /-- A value in a list. -/
  | value (v : Value)
  /-- A number in digits. -/
  | number (i : Int)
  /-- Containment in the document of a column. -/
  | jsonContains (column : Value)
  /-- The length of the array of a column. -/
  | jsonLength (column : Value)
  /-- Another part. -/
  | part (part : Part)
  /-- Something that is not there. -/
  | missing

/-- The part that an item is. -/
def Item.part? : Item → Option Part
  | part inner => some inner
  | _ => none

/-- What was attached as a query. -/
def Item.selectOf (query : Option QueryId) : Item :=
  query.elim missing fun id => part (.select id)

/-- What a condition writes. -/
def Where.items : Where → List Item
  | raw _ => []
  | basic column _ _ | null column _ | datePart _ column _ _ => [.column column]
  | among column values _ => if values.isEmpty then [] else .column column :: values.map .value
  | amongIntegers column values _ =>
    values.map .number ++ if values.isEmpty then [] else [.column column]
  | between column values _ => if values.isEmpty then [.missing] else [.column column]
  | columnPair first _ second => [.column first, .column second]
  | nested query => [.part (.conditions query)]
  | sub column _ query => [.part (.select query), .column column]
  | «exists» query _ => [.selectOf query]
  | rowValues columns _ values => columns.map .column ++ values.map .value
  | jsonContains column _ _ => [.jsonContains column]
  | jsonLength column _ _ => [.jsonLength column]

/-- What a condition on groups writes. -/
def Having.items : Having → List Item
  | basic column _ _ | null column _ => [.column column]
  | raw _ => []
  | between column values _ => if values.isEmpty then [.missing] else [.column column]

/-- What orderings write. -/
def orderItems (orders : List Order) : List Item :=
  orders.map fun
    | .raw sql => .fragment sql
    | .byColumn column _ => .column column

/-- What a count of rows writes. -/
def countItems (count : Option Nat) : List Item :=
  count.toList.map fun n => .number n

namespace Query

/-- What a group of conditions writes. -/
def conditionItems (q : Query) : List Item :=
  q.wheres.flatMap (·.body.items)

/-- What a join writes. -/
def joinItems (q : Query) : List Item :=
  (match q.kind with
    | .statement => .missing
    | .join _ table => .table table) :: q.joins.map (.part <| .join ·) ++ q.conditionItems

/-- What a union writes after the first of its members. -/
def unionItems (q : Query) : List Item :=
  q.unions.map (.selectOf ·.member) ++
    if q.isUnion then
      orderItems q.unionOrders ++ countItems q.unionLimit ++ countItems q.unionOffset
    else []

/-- What stands in the place of the select list. -/
def listItems (q : Query) : List Item :=
  match q.aggregate with
  | some aggregate => aggregate.columns.map .column
  | none => (q.columns.getD [.text "*"]).map .column

/-- What the clauses of a select statement write, apart from the union. -/
def clauseItems (q : Query) : List Item :=
  q.listItems ++ (if q.source.isPresent then [.table q.source] else []) ++
    q.joins.map (.part <| .join ·) ++ q.conditionItems ++ q.groups.map .column ++
    q.havings.flatMap (·.body.items) ++ orderItems q.orders ++ countItems q.limit ++
    countItems q.offset

/-- What a select statement writes that is not aggregated over a union. -/
def plainItems (q : Query) : List Item :=
  q.clauseItems ++ q.unionItems

/-- What a select statement writes.  An aggregate over a union selects from the union. -/
def statementItems (q : Query) : List Item :=
  match q.aggregate with
  | some aggregate =>
    if q.isUnion then
      aggregate.columns.map .column ++ { q with aggregate := none }.plainItems ++
        [.table (.text "temp_table")]
    else q.plainItems
  | none => q.plainItems

variable {q : Query} {union : Union} {id : QueryId}

/-- A member of a union is compiled inside the select statement, aggregated or not. -/
theorem member_mem_items (h : union ∈ q.unions) (hid : union.member = some id) :
    .part (.select id) ∈ q.statementItems := by
  have hunion : Item.part (.select id) ∈ q.unionItems := by
    refine List.mem_append_left _ (List.mem_map.2 ⟨union, h, ?_⟩)
    rw [hid]
    rfl
  unfold statementItems
  split
  · split
    · exact List.mem_append_left _ (List.mem_append_right _ (List.mem_append_right _ hunion))
    · exact List.mem_append_right _ hunion
  · exact List.mem_append_right _ hunion

end Query

namespace Store

variable (s : Store)

/-- What a part writes. -/
def items : Part → List Item
  | .select id => (s.query id).statementItems
  | .conditions id => (s.query id).conditionItems
  | .join id => (s.query id).joinItems

/-- The parts that are compiled inside a part. -/
def parts (part : Part) : List Part :=
  (s.items part).filterMap Item.part?

/-- A part is compiled inside another one. -/
def Encloses (outer inner : Part) : Prop :=
  inner ∈ s.parts outer

/-- Compiling a part comes upon another one. -/
abbrev Visits (root : Part) : Part → Prop :=
  Relation.ReflTransGen s.Encloses root

/-- No part that compiling comes upon stands inside itself. -/
def Uncircled (root : Part) : Prop :=
  ∀ part, s.Visits root part → ¬Relation.TransGen s.Encloses part part

/-- The chains below a part are shorter than a depth. -/
def Within : (depth : Nat) → Part → Prop
  | 0, _ => False
  | depth + 1, part => ∀ inner ∈ s.parts part, Within depth inner

/-- All parts of the queries of a store. -/
def allParts : List Part :=
  (List.range s.queries.size).flatMap fun index =>
    [.select ⟨index⟩, .conditions ⟨index⟩, .join ⟨index⟩]

variable {s} {root part : Part} {depth : Nat}

theorem mem_parts {inner : Part} : inner ∈ s.parts part ↔ .part inner ∈ s.items part := by
  rw [parts, List.mem_filterMap]
  constructor
  · rintro ⟨item, hitem, hpart⟩
    cases item with
    | part other =>
      cases hpart
      exact hitem
    | _ => exact nomatch hpart
  · exact fun h => ⟨_, h, rfl⟩

/-! ## Chains -/

/-- Below the depth of a part there is a chain as long as the depth. -/
theorem exists_chain_of_not_within (h : ¬s.Within depth part) :
    ∃ chain, chain.length = depth ∧ List.IsChain s.Encloses (part :: chain) := by
  induction depth generalizing part with
  | zero => exact ⟨[], rfl, .singleton part⟩
  | succ depth ih =>
    simp only [Within, not_forall] at h
    obtain ⟨inner, hinner, hdeep⟩ := h
    obtain ⟨chain, hlength, hchain⟩ := ih hdeep
    exact ⟨inner :: chain, congrArg (· + 1) hlength, .cons_cons hinner hchain⟩

/-- A part with others inside is one of a query of the store. -/
theorem mem_allParts (h : s.parts part ≠ []) : part ∈ s.allParts := by
  have hlt : part.query.index < s.queries.size := by
    by_contra hge
    have hquery : s.query part.query = default := by
      rw [query, Array.getElem?_eq_none (Nat.le_of_not_lt hge)]
      rfl
    refine h ?_
    cases part with
    | _ id =>
      have hid : s.query id = default := hquery
      simp only [parts, items, hid]
      rfl
  refine List.mem_flatMap.2 ⟨part.query.index, List.mem_range.2 hlt, ?_⟩
  cases part <;> simp [Part.query]

theorem length_allParts : s.allParts.length = 3 * s.queries.size := by
  rw [allParts, List.length_flatMap]
  simp [Nat.mul_comm]

/-- All but the last of a chain are parts of queries of the store. -/
theorem dropLast_subset_allParts {chain : List Part} (h : List.IsChain s.Encloses chain) :
    chain.dropLast ⊆ s.allParts := by
  induction h with
  | nil => exact List.nil_subset _
  | singleton part => exact List.nil_subset _
  | @cons_cons outer inner chain hinner _ ih =>
    rw [List.dropLast_cons_cons]
    exact List.cons_subset.2 ⟨mem_allParts (List.ne_nil_of_mem hinner), ih⟩

/-- A chain in which nothing stands inside itself has no part twice. -/
theorem Uncircled.nodup {chain : List Part} (h : s.Uncircled root)
    (hchain : List.IsChain s.Encloses (root :: chain)) : (root :: chain).Nodup := by
  have hpairwise : (root :: chain).Pairwise (Relation.TransGen s.Encloses) :=
    (hchain.imp fun _ _ => .single).pairwise
  have hvisited : ∀ part ∈ root :: chain, s.Visits root part := by
    intro part hpart
    rcases List.mem_cons.1 hpart with rfl | hpart
    · exact .refl
    · exact ((List.pairwise_cons.1 hpairwise).1 part hpart).to_reflTransGen
  refine hpairwise.imp_of_mem fun {outer inner} houter _ htrans heq => ?_
  exact h outer (hvisited outer houter) (heq ▸ htrans)

/-! ## The depth -/

/-- If nothing stands inside itself, the depth to which attached queries are compiled is enough. -/
theorem within_of_uncircled (h : s.Uncircled root) : s.Within (s.attachedDepth + 1) root := by
  by_contra hdeep
  obtain ⟨chain, hlength, hchain⟩ := exists_chain_of_not_within hdeep
  have hnodup : (root :: chain).dropLast.Nodup := (h.nodup hchain).sublist (List.dropLast_sublist _)
  have hle := (hnodup.subperm (dropLast_subset_allParts hchain)).length_le
  rw [List.length_dropLast, List.length_cons, hlength, length_allParts, attachedDepth] at hle
  omega

theorem Within.of_transGen (h : s.Within depth root) (hpart : Relation.TransGen s.Encloses root part) :
    ∃ n < depth, s.Within n part := by
  induction hpart with
  | single hinner =>
    cases depth with
    | zero => exact h.elim
    | succ depth => exact ⟨depth, Nat.lt_succ_self _, h _ hinner⟩
  | tail _ hinner ih =>
    obtain ⟨n, hn, hwithin⟩ := ih
    cases n with
    | zero => exact hwithin.elim
    | succ n => exact ⟨n, by omega, hwithin _ hinner⟩

/-- Bounded chains do not go round in a circle. -/
theorem Within.not_circled (h : s.Within depth part) : ¬Relation.TransGen s.Encloses part part := by
  induction depth using Nat.strong_induction_on with
  | _ depth ih =>
    intro hcircle
    obtain ⟨n, hn, hwithin⟩ := h.of_transGen hcircle
    exact ih n hn hwithin hcircle

theorem Within.uncircled (h : s.Within depth root) : s.Uncircled root := by
  intro part hpart
  rcases Relation.reflTransGen_iff_eq_or_transGen.1 hpart with rfl | htrans
  · exact h.not_circled
  · obtain ⟨n, _, hwithin⟩ := h.of_transGen htrans
    exact hwithin.not_circled

/-- A chain of two parts. -/
theorem visits_pair {outer inner : Part} (houter : s.parts outer = [inner])
    (hinner : s.parts inner = []) :
    s.Within 2 outer ∧ ∀ part, s.Visits outer part → part = outer ∨ part = inner := by
  constructor
  · intro next hnext
    rw [houter, List.mem_singleton] at hnext
    subst hnext
    intro last hlast
    rw [hinner] at hlast
    exact nomatch hlast
  · intro part hpart
    rcases hpart.cases_head with rfl | ⟨next, hnext, hpart⟩
    · exact .inl rfl
    · rw [Encloses, houter, List.mem_singleton] at hnext
      subst hnext
      rcases hpart.cases_head with rfl | ⟨last, hlast, _⟩
      · exact .inr rfl
      · rw [Encloses, hinner] at hlast
        exact nomatch hlast

end Store

end FluentSql
