import FluentSql.Store.Reference

/-!
# Copies of queries

The copy of a query stands on its own: whatever is attached to it is copied
too, so that later calls on one side are not seen on the other.  The copy
shares only the connection and the grammar of the query.

* `Store.reachable` are the objects that a query refers to, directly or not.
* `Store.canCopy` says whether all of them have copies.
* `Store.copyRenaming` puts the copies in the place of what is copied.
* `QueryId.copy` adds the copies of all of them.
-/

namespace FluentSql

namespace Store

/-- The objects that an object refers to. -/
def handlesOf (s : Store) : Handle → List Handle
  | .query id => (s.query id).handles
  | .bindings id => Value.handlesOfAll (s.query id).bindings.flatten
  | .connection id => [(s.connection id).grammar.handle]
  | .resolver id => Value.handlesOfEntries (s.resolver id).connections
  | _ => []

/-- The number of objects, with the bindings of each query counted on their own. -/
def size (s : Store) : Nat :=
  2 * s.queries.size + s.grammars.size + s.connections.size + s.resolvers.size

/-! ## What is reachable -/

/-- Adds to `seen` what is reachable from `frontier`.  Every round but the last finds a new object,
so `fuel` need not exceed the number of objects. -/
def reachFrom (s : Store) : (fuel : Nat) → (seen frontier : List Handle) → List Handle
  | 0, seen, _ => seen
  | fuel + 1, seen, frontier =>
    let found := ((frontier.flatMap s.handlesOf).filter (· ∉ seen)).eraseDups
    if found.isEmpty then seen else reachFrom s fuel (seen ++ found) found

/-- The objects that a query refers to, directly or not, but for what is shared. -/
def reachable (s : Store) (shared : List Handle) (id : QueryId) : List Handle :=
  (s.reachFrom s.size (shared ++ [.query id]) [.query id]).drop shared.length

/-- What a query shares with its copy. -/
def sharedBy (q : Query) : List Handle :=
  q.connection.toList.map .connection ++ [q.grammar.handle]

/-- Whether everything that a query refers to can be copied.  The registry of extensions cannot. -/
def canCopy (s : Store) (q : Query) : Bool :=
  let shared := sharedBy q
  let own := q.handles.filter (· ∉ shared)
  Handle.extensions ∉ s.reachFrom s.size (shared ++ own) own

/-- The place that a copy gets: behind all objects that are there, in the order in which the objects
were reached. -/
def placeFor {α : Type} [BEq α] (copied : List α) (size : Nat) (index : α → Nat) (id : α) : Nat :=
  match copied.idxOf? id with
  | some n => size + n
  | none => index id

/-- The queries among objects. -/
def queriesIn (handles : List Handle) : List QueryId :=
  handles.filterMap fun | .query id => some id | _ => none

/-- The grammars among objects. -/
def grammarsIn (handles : List Handle) : List GrammarId :=
  handles.filterMap fun | .grammar id => some id | _ => none

/-- The connections among objects. -/
def connectionsIn (handles : List Handle) : List ConnectionId :=
  handles.filterMap fun | .connection id => some id | _ => none

/-- The resolvers among objects. -/
def resolversIn (handles : List Handle) : List ResolverId :=
  handles.filterMap fun | .resolver id => some id | _ => none

/-- Puts the copy of every copied object in its place, but for bindings. -/
def objectRenaming (s : Store) (handles : List Handle) : Renaming where
  query id := ⟨placeFor (queriesIn handles) s.queries.size (·.index) id⟩
  grammar id := ⟨placeFor (grammarsIn handles) s.grammars.size (·.index) id⟩
  connection id := ⟨placeFor (connectionsIn handles) s.connections.size (·.index) id⟩
  resolver id := ⟨placeFor (resolversIn handles) s.resolvers.size (·.index) id⟩

/-- What takes the place of the bindings of a query: those of its copy, or, if it is not copied
itself, a map of what they are now.  Such maps may hold others; `fuel` bounds how deeply. -/
def copiedBindings (s : Store) (handles : List Handle) : (fuel : Nat) → QueryId → Value
  | 0, id => .object (.bindings id)
  | fuel + 1, id =>
    let r := s.objectRenaming handles
    if Handle.query id ∈ handles then .object (.bindings (r.query id))
    else
      let inner := { r with bindings := s.copiedBindings handles fuel }
      inner.value (.map (s.query id).bindings.toEntries)

/-- Puts the copy of everything that is copied in its place. -/
def copyRenaming (s : Store) (handles : List Handle) : Renaming :=
  { s.objectRenaming handles with bindings := s.copiedBindings handles (s.queries.size + 1) }

/-- Adds the copies of some objects. -/
def addCopies (s : Store) (handles : List Handle) : Store :=
  let r := s.copyRenaming handles
  { s with
    queries := s.queries ++ ((queriesIn handles).map fun id => (s.query id).rename r).toArray
    grammars := s.grammars ++ ((grammarsIn handles).map s.grammar).toArray
    connections := s.connections ++ ((connectionsIn handles).map fun id =>
      let c := s.connection id
      { c with grammar := r.compiler c.grammar }).toArray
    resolvers := s.resolvers ++ ((resolversIn handles).map fun id =>
      let resolver := s.resolver id
      { resolver with
        connections := Value.substituteEntries r.handle resolver.connections }).toArray }

end Store

/-- Adds a copy of a query that stands on its own, if there can be one. -/
def QueryId.copy (id : QueryId) : Action QueryId := do
  let s ← get
  let query := s.query id
  if !s.canCopy query then throw .wrongType
  let handles := s.reachable (Store.sharedBy query) id
  set (s.addCopies handles)
  return (s.copyRenaming handles).query id

end FluentSql
