import FluentSql.Calendar
import FluentSql.Number.Double

/-!
# Values

What a query is built from: the scalars that are bound to placeholders, lists
and maps of them, raw fragments of SQL, and references to the objects of the
store.

* `Handle` names an object of the store, and `Compiler` one that stands where
  a grammar is due.
* `Value` is the type of values, and `Value.truthy` their reading as a
  condition.
* `Value.isQuery`, `isRaw`, `isCallable` and `isQueryable` tell the kinds
  that the clauses treat in their own way.
-/

namespace FluentSql

/-- The number of a query in the store. -/
structure QueryId where
  /-- Its place. -/
  index : Nat
deriving DecidableEq

/-- The number of a grammar in the store. -/
structure GrammarId where
  /-- Its place. -/
  index : Nat
deriving DecidableEq

/-- The number of a connection in the store. -/
structure ConnectionId where
  /-- Its place. -/
  index : Nat
deriving DecidableEq

/-- The number of a resolver in the store. -/
structure ResolverId where
  /-- Its place. -/
  index : Nat
deriving DecidableEq

/-- The number of a callback in the store. -/
structure CallbackId where
  /-- Its place. -/
  index : Nat
deriving DecidableEq

/-- The number of a configuration in the store. -/
structure SettingsId where
  /-- Its place. -/
  index : Nat
deriving DecidableEq

/-- A reference to an object of the store. -/
inductive Handle where
  /-- A query or a join condition. -/
  | query (id : QueryId)
  /-- A grammar. -/
  | grammar (id : GrammarId)
  /-- A connection. -/
  | connection (id : ConnectionId)
  /-- A registry of named connections. -/
  | resolver (id : ResolverId)
  /-- The registry of extensions. -/
  | extensions
  /-- A callback. -/
  | callback (id : CallbackId)
  /-- A configuration. -/
  | settings (id : SettingsId)
  /-- The bindings of a query, which follow it as it changes. -/
  | bindings (id : QueryId)
deriving DecidableEq

/-- What stands where a grammar is due.  Besides a grammar this may be another object that can be
told a table prefix. -/
inductive Compiler where
  /-- A grammar. -/
  | grammar (id : GrammarId)
  /-- A connection, which compiles nothing. -/
  | connection (id : ConnectionId)
  /-- A query with an extension that takes the prefix. -/
  | query (id : QueryId)
deriving DecidableEq

/-- The object that a compiler is. -/
def Compiler.handle : Compiler → Handle
  | grammar id => .grammar id
  | connection id => .connection id
  | query id => .query id

/-- A value. -/
inductive Value where
  /-- The absent value. -/
  | null
  /-- A truth value. -/
  | bool (b : Bool)
  /-- An integer of any size. -/
  | int (i : Int)
  /-- A double-precision number. -/
  | double (x : Number.Double)
  /-- A text. -/
  | text (s : String)
  /-- A sequence of bytes. -/
  | bytes (bs : List UInt8)
  /-- A day. -/
  | date (d : Date)
  /-- A day with a time. -/
  | dateTime (d : DateTime)
  /-- A time of day. -/
  | time (t : TimeOfDay)
  /-- A list. -/
  | list (items : List Value)
  /-- A list that cannot grow, and that may be a key of a map. -/
  | tuple (items : List Value)
  /-- A map in the order of its entries. -/
  | map (entries : List (Value × Value))
  /-- A raw fragment of SQL, which is never quoted or bound. -/
  | raw (value : Value)
  /-- An object of the store. -/
  | object (handle : Handle)

namespace Value

instance : Inhabited Value := ⟨null⟩

/-- Whether the value is the absent one. -/
def isNull : Value → Bool
  | null => true
  | _ => false

/-- Whether the value is a raw fragment. -/
def isRaw : Value → Bool
  | raw _ => true
  | _ => false

/-- Whether the value is a truth value. -/
def isBool : Value → Bool
  | bool _ => true
  | _ => false

/-- Whether the value can be called with a query. -/
def isCallable : Value → Bool
  | object (.callback _) => true
  | _ => false

/-- The query that the value refers to. -/
def query? : Value → Option QueryId
  | object (.query id) => some id
  | _ => none

/-- Whether the value is a query. -/
def isQuery (v : Value) : Bool :=
  v.query?.isSome

/-- Whether the value is a query or builds one. -/
def isQueryable (v : Value) : Bool :=
  v.isQuery || v.isCallable

/-- The text that the value is. -/
def text? : Value → Option String
  | text s => some s
  | _ => none

/-- How a value reads as a condition: absent, zero and empty values are false and all others
true. -/
def truthy : Value → Bool
  | null => false
  | bool b => b
  | int i => i != 0
  | double x => !x.isZero
  | text s => !s.isEmpty
  | bytes bs => !bs.isEmpty
  | list items => !items.isEmpty
  | tuple items => !items.isEmpty
  | map entries => !entries.isEmpty
  | _ => true

/-- A reference to a query. -/
def ofQuery (id : QueryId) : Value := object (.query id)

end Value

end FluentSql
