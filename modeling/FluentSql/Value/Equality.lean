import FluentSql.Value.Display

/-!
# Equality of values and keys of maps

Two numbers are equal when they have the same value, whatever their kinds, and
a truth value counts as the number one or zero.  Lists, tuples and maps are
equal element by element, two raw fragments when they hold equal values, and
references when they name the same object.  A double that stands for no number
equals nothing, itself included; as an element and as a key it still agrees
with itself.

* `Value.equals` is that equality, and `Value.isSameNaN` the exception.
* `Value.keyed` is the finer agreement by which a map finds a key: a raw
  fragment is filed under its text.
* `Value.hashable` says which values may be keys.
* `lookupKey`, `insertKey`, `ofEntries` work on the entries of a map.
-/

namespace FluentSql

open Number

/-- The number that a value stands for. -/
inductive Numeric where
  /-- An integer. -/
  | int (i : Int)
  /-- A double. -/
  | double (x : Double)

/-- Whether two numbers have the same value. -/
def Numeric.equals : Numeric → Numeric → Bool
  | int i, int j => i == j
  | int i, double x => x.equalsInt i
  | double x, int i => x.equalsInt i
  | double x, double y => x.equals y

namespace Value

/-- The number that a value is, a truth value being one or zero. -/
def numeric? : Value → Option Numeric
  | bool b => some (.int (if b then 1 else 0))
  | int i => some (.int i)
  | double x => some (.double x)
  | _ => none

/-- Equality of values that hold no other values. -/
def scalarEquals : Value → Value → Bool
  | null, null => true
  | text s, text t => s == t
  | bytes s, bytes t => s == t
  | date d, date e => d == e
  | dateTime d, dateTime e => d == e
  | time d, time e => d == e
  | object h, object k => h == k
  | v, w =>
    match v.numeric?, w.numeric? with
    | some x, some y => x.equals y
    | _, _ => false

/-- Whether two equal values are filed under the same key. -/
def keyed : Value → Value → Bool
  | raw v, raw w => v.display == w.display
  | tuple (v :: vs), tuple (w :: ws) => keyed v w && keyed (tuple vs) (tuple ws)
  | _, _ => true

/-- Whether two values are one and the same double that stands for no number. -/
def isSameNaN : Value → Value → Bool
  | double x, double y => x.isNaN && x.bits == y.bits
  | raw v, raw w => isSameNaN v w
  | _, _ => false

mutual

/-- Whether two values are equal. -/
def equals : Value → Value → Bool
  | list vs, list ws => listEquals vs ws
  | tuple vs, tuple ws => listEquals vs ws
  | map es, map fs => es.length == fs.length && entriesIn es fs
  | raw v, raw w => equals v w
  | v, w => scalarEquals v w

/-- Whether two lists are equal element by element. -/
def listEquals : List Value → List Value → Bool
  | [], [] => true
  | v :: vs, w :: ws => (equals v w || isSameNaN v w) && listEquals vs ws
  | _, _ => false

/-- Whether every entry of one map is in the other. -/
def entriesIn : List (Value × Value) → List (Value × Value) → Bool
  | [], _ => true
  | (k, v) :: es, fs =>
    fs.any (fun f => (equals k f.1 && keyed k f.1 || isSameNaN k f.1) &&
      (equals v f.2 || isSameNaN v f.2)) && entriesIn es fs

end

mutual

/-- Whether a value may be a key of a map. -/
def hashable : Value → Bool
  | list _ => false
  | map _ => false
  | tuple items => allHashable items
  | object (.bindings _) => false
  | _ => true

/-- Whether all elements of a tuple may be keys. -/
def allHashable : List Value → Bool
  | [] => true
  | v :: rest => hashable v && allHashable rest

end

/-- Whether two values are the same key. -/
def sameKey (v w : Value) : Bool :=
  equals v w && keyed v w || isSameNaN v w

end Value

/-- The value under a key. -/
def lookupKey {α : Type} (key : Value) (entries : List (Value × α)) : Option α :=
  (entries.find? fun entry => key.sameKey entry.1).map (·.2)

/-- Puts a value under a key.  A key that is there keeps its place. -/
def insertKey {α : Type} (key : Value) (value : α) : List (Value × α) → List (Value × α)
  | [] => [(key, value)]
  | (k, v) :: rest =>
    if key.sameKey k then (k, value) :: rest else (k, v) :: insertKey key value rest

/-- The entries of a map from pairs: of two with the same key the first gives the place and the last
the value. -/
def ofEntries (pairs : List (Value × Value)) : List (Value × Value) :=
  pairs.foldl (fun entries pair => insertKey pair.1 pair.2 entries) []

/-- Whether two lists hold the same keys. -/
def sameKeys (keys others : List Value) : Bool :=
  keys.all (fun k => others.any k.sameKey) && others.all fun k => keys.any k.sameKey

end FluentSql
