import FluentSql.Store.Reference

/-!
# Values that follow a query

The bindings of a query can be handed on as a value.  Such a value is a map
that follows the query: whoever keeps it sees the query change.  It is read
when it is used.

* `Store.shown` is a value with all such maps read.
* `Store.settled` is a store with all of them read, as it is compiled.
* `Value.now` reads a value that is such a map, and `Value.shown` all maps in
  a value.
-/

namespace FluentSql

namespace Store

/-- A value with the bindings of queries as maps of what they are now.  Bindings that hold
themselves, through those of the queries `around` them, are left as they are; `fuel` bounds how
deeply bindings hold each other. -/
def shownWith (s : Store) : (fuel : Nat) → (around : List QueryId) → Value → Value
  | 0, _, v => v
  | fuel + 1, around, v => v.substitute fun
    | .bindings id =>
      if id ∈ around then .object (.bindings id)
      else
        .map ((s.query id).bindings.toEntries.map fun (name, values) =>
          (name, s.shownWith fuel (id :: around) values))
    | h => .object h

/-- A value with the bindings of queries as maps of what they are now. -/
def shown (s : Store) (v : Value) : Value :=
  s.shownWith (s.queries.size + 1) [] v

/-- The store with all values of its queries read. -/
def settled (s : Store) : Store :=
  let r : Renaming := { bindings := fun id => s.shown (.object (.bindings id)) }
  { s with queries := s.queries.map (·.rename r) }

end Store

namespace Value

/-- A value as it is now, if it follows a query. -/
def now (v : Value) : Action Value := do
  match v with
  | .object (.bindings id) => return .map (← id.read).bindings.toEntries
  | v => return v

/-- A value with everything in it that follows a query as it is now. -/
def shown (v : Value) : Action Value :=
  return (← get).shown v

/-- The elements of a value as it is now. -/
def itemsNow (v : Value) : Action (List Value) := do
  Action.ofExcept (← v.now).items

/-- The text of a value as it is now. -/
def displayNow (v : Value) : Action String :=
  return (← v.shown).display

end Value

end FluentSql
