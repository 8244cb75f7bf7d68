import FluentSql.Compile.Where
import FluentSql.Store.Copy

/-!
# Queries as select statements

A select statement is made of components in a fixed order; a component that
the query does not have is left out.

* `Grammar.components` lists the texts of the components.
* `Grammar.plainSelectSql` joins them; `Grammar.selectSql` adds what a
  dialect does with unions, and selects from the union when it is aggregated.
* `attachedBy` compiles the queries that clauses refer to, down to a depth.
  A query is compiled in three ways, as a statement, as a group of conditions
  or as a join, so a chain of attached queries that is longer than three times
  the number of queries goes round in a circle.  `Store.attachedDepth` is enough
  for every other one.
* `Store.compiled` compiles a query of the store, and `Store.selectSql` does so
  as a select statement.
-/

namespace FluentSql

/-- Whether a component is there at all. -/
def Value.isPresent : Value → Bool
  | null => false
  | list [] => false
  | _ => true

namespace Grammar

-- Powers are those of the core library, whatever else is imported.
attribute [local instance (10000)] instPowNat

/-! ## Components -/

/-- An aggregate in place of the select list. -/
def aggregateSql (g : Grammar) (distinct : Bool) (aggregate : Aggregate) :
    Except Failure String := do
  let columns ← g.columnize aggregate.columns
  let columns := if distinct ∧ columns ≠ "*" then "distinct " ++ columns else columns
  return "select " ++ aggregate.function.display ++ "(" ++ columns ++ ") as aggregate"

/-- The select list. -/
def columnsSql (g : Grammar) (distinct : Bool) (columns : List Value) : Except Failure String := do
  return (if distinct then "select distinct " else "select ") ++ (← g.columnize columns)

/-- A text before a value, which must be a text too. -/
def textBefore (word : String) (v : Value) : Except Failure String :=
  return word ++ (← v.asText)

/-- The orderings, with their keyword. -/
def ordersSql (g : Grammar) (orders : List Order) : Except Failure String := do
  let fragments ← orders.mapM fun
    | .raw sql => .ok sql
    | .byColumn column direction => do
      return .text ((← g.wrapped column) ++ " " ++ direction.word)
  return "order by " ++ (← joinTexts ", " fragments)

/-- What rows are ordered by when chance decides. -/
def randomSql (g : Grammar) (seed : Value) : String :=
  if g.dialect = .mysql then "RAND(" ++ seed.display ++ ")" else "RANDOM()"

/-- A number of rows.  One with too many digits has no text. -/
def countText (n : Nat) : Except Failure String :=
  if n < 10 ^ Number.maxNumeralDigits then .ok (Number.natText n) else .error .badValue

/-- The greatest number of rows. -/
def limitSql (n : Nat) : Except Failure String :=
  return "limit " ++ (← countText n)

/-- The number of rows passed over. -/
def offsetSql (n : Nat) : Except Failure String :=
  return "offset " ++ (← countText n)

/-- A clause after a space, if it is there. -/
def trailing {α : Type} (clause : Option α) (sql : α → Except Failure String) :
    Except Failure String :=
  clause.elim (.ok "") fun x => (sql x).map (" " ++ ·)

/-- The clause of a list after a space, unless the list is empty. -/
def trailingOf {α : Type} (items : List α) (sql : List α → Except Failure String) :
    Except Failure String :=
  if items.isEmpty then .ok "" else (sql items).map (" " ++ ·)

/-- A row lock. -/
def lockSql (g : Grammar) (lock : Value) : String :=
  match g.dialect, lock with
  | .sqlite, _ => ""
  | _, .text sql => sql
  | .ansi, _ => ""
  | .mysql, lock => if lock.truthy then "for update" else "lock in share mode"
  | .postgres, lock => if lock.truthy then "for update" else "for share"

/-- Join clauses, with spaces between them. -/
def joinsSql (attached : Attached) (joins : List QueryId) : Except Failure String :=
  return joinWith " " (← joins.mapM attached.join)

/-- A join condition as a join clause.  Joins inside it share the parentheses of its table. -/
def joinSql (g : Grammar) (attached : Attached) (q : Query) : Except Failure String :=
  match q.kind with
  | .statement => .error .missingAttribute
  | .join type table => do
    let table ← g.wrappedTable table
    let table ← if q.joins.isEmpty then .ok table
      else do
        let joins ← joinsSql attached q.joins
        .ok ("(" ++ table ++ " " ++ joins ++ ")")
    let condition ← g.wheresSql attached q
    return Text.trim (type.display ++ " join " ++ table ++ " " ++ condition)

/-- One member of a union with the word before it. -/
def unionSql (g : Grammar) (attached : Attached) (union : Union) : Except Failure String := do
  let select ← attached.selectOf union.member
  let word := if union.keepsAll.truthy then " union all " else " union "
  return word ++ if g.dialect = .mysql then "(" ++ select ++ ")" else select

/-- The members of a union, with its ordering and paging. -/
def unionsSql (g : Grammar) (attached : Attached) (q : Query) : Except Failure String := do
  let members ← q.unions.mapM (g.unionSql attached)
  let orders ← trailingOf q.unionOrders g.ordersSql
  let limit ← trailing q.unionLimit limitSql
  let offset ← trailing q.unionOffset offsetSql
  return Text.trimLeft (String.join members ++ orders ++ limit ++ offset)

/-! ## Statements -/

/-- A component that is there only if a list is not empty. -/
def ifAny {α : Type} (items : List α) (sql : Except Failure String) : Except Failure String :=
  if items.isEmpty then .ok "" else sql

/-- The components of a select statement, in order. -/
def components (g : Grammar) (attached : Attached) (q : Query) : Except Failure (List String) := do
  let columns := q.columns.getD [.text "*"]
  let aggregate ← q.aggregate.elim (.ok "") (g.aggregateSql q.distinct)
  let columns ← ifAny columns
    (if q.aggregate.isSome then .ok "" else g.columnsSql q.distinct columns)
  let source ← if q.source.isPresent then do textBefore "from " (← g.wrapTable q.source) else .ok ""
  let joins ← ifAny q.joins (joinsSql attached q.joins)
  let wheres ← g.wheresSql attached q
  let groups ← ifAny q.groups ((g.columnize q.groups).map ("group by " ++ ·))
  let havings ← ifAny q.havings (g.havingsSql q.havings)
  let orders ← ifAny q.orders (g.ordersSql q.orders)
  let limit ← q.limit.elim (.ok "") limitSql
  let offset ← q.offset.elim (.ok "") offsetSql
  let unions ← if g.dialect = .mysql then .ok "" else ifAny q.unions (g.unionsSql attached q)
  let lock := if q.lock.isPresent then g.lockSql q.lock else ""
  return [aggregate, columns, source, joins, wheres, groups, havings, orders, limit, offset,
    unions, lock]

/-- A select statement that is not aggregated over a union.  MySQL puts every member of a union in
parentheses, the first one too. -/
def plainSelectSql (g : Grammar) (attached : Attached) (q : Query) : Except Failure String := do
  let select := Text.trim (spaced (← g.components attached q))
  if g.dialect = .mysql ∧ q.isUnion then
    return "(" ++ select ++ ") " ++ (← g.unionsSql attached q)
  else return select

/-- A select statement.  An aggregate over a union selects from the union. -/
def selectSql (g : Grammar) (attached : Attached) (q : Query) : Except Failure String :=
  match q.aggregate with
  | some aggregate =>
    if q.isUnion then do
      let head ← g.aggregateSql q.distinct aggregate
      let inner ← g.plainSelectSql attached { q with aggregate := none }
      let name ← g.wrappedTable (.text "temp_table")
      return head ++ " from (" ++ inner ++ ") as " ++ name
    else g.plainSelectSql attached q
  | none => g.plainSelectSql attached q

/-- The question whether a query has rows. -/
def existsSql (g : Grammar) (attached : Attached) (q : Query) : Except Failure String := do
  let select ← g.selectSql attached q
  return "select exists(" ++ select ++ ") as " ++ (← g.wrapped (.text "exists"))

end Grammar

/-! ## Attached queries -/

/-- Compiles attached queries down to a depth; below it, compiling would never end. -/
def attachedBy (s : Store) (g : Grammar) (oracle : Oracle) : (depth : Nat) → Attached
  | 0 =>
    let endless := fun _ => .error (.value .endless)
    { select := endless, conditions := endless, join := endless, canCopy := s.canCopy, oracle }
  | depth + 1 =>
    let deeper := attachedBy s g oracle depth
    { select := fun id => g.selectSql deeper (s.query id)
      conditions := fun id => g.conditionsSql deeper (s.query id).wheres
      join := fun id => g.joinSql deeper (s.query id)
      canCopy := s.canCopy
      oracle }

/-- What is known of the answers of queries: what extensions answered so far. -/
abbrev KnownAnswers := List ((QueryId × Request) × Value)

namespace Store

/-- The answers of queries.  A request for which there is an extension has to be answered by it. -/
def oracle (s : Store) (known : KnownAnswers) : Oracle := fun id request =>
  match known.lookup (id, request) with
  | some answer => .ok answer
  | none =>
    if (s.extension? request.name).isSome then .error (.unanswered id request)
    else .error (.unknownMethod (s.classOf id) request.name)

/-- The depth down to which attached queries are compiled. -/
def attachedDepth (s : Store) : Nat :=
  3 * s.queries.size + 1

/-- Compiles the queries attached to a query of the store. -/
def attached (s : Store) (g : Grammar) (known : KnownAnswers) : Attached :=
  attachedBy s g (s.oracle known) s.attachedDepth

/-- Compiles a query of the store by its own grammar, which must have a method for it. -/
def compiled {α : Type} (s : Store) (known : KnownAnswers) (id : QueryId) (method : String)
    (compile : Grammar → Attached → Query → Except Failure α) : Except Failure α := do
  let g ← s.grammarFor (s.query id).grammar method
  compile g (s.attached g known) (s.query id)

/-- A query of the store as a select statement. -/
def selectSql (s : Store) (id : QueryId) : Except Failure String :=
  s.compiled [] id "compile_select" Grammar.selectSql

end Store

end FluentSql
