import FluentSql.Script.ConnectionMethods
import FluentSql.Script.GrammarMethods
import FluentSql.Value.Json

/-!
# Running scripts

A call finds its object in a register, evaluates its arguments from left to
right, and runs the method of that name.  A query that has no such method
runs the extension of that name.

* `Scope` is what a call can name beside the registers.
* `callQuery` and `callObject` find and run a method.
* `Interpreter` evaluates arguments and performs calls.  An interpreter of a
  depth leaves what is nested to one of the depth below;
  `Interpreter.ofDepth` builds it up from one that refuses everything.
-/

namespace FluentSql

/-- What a call can name beside the registers. -/
structure Scope where
  /-- The query on which the running callback was called. -/
  it : Option Value := none
  /-- The further arguments of the running callback. -/
  extra : List Value := []

/-! ## Registers -/

/-- The register of a name.  In a callback, `it` is the query on which it runs. -/
def Scope.register (scope : Scope) (name : String) : Action Value := do
  match (if name = "it" then scope.it else none) <|> (← get).registers.lookup name with
  | some value => return value
  | none => throw (.value .missingKey)

/-- The object of a call: that of the register it names, or the query of the running callback, or
the main query. -/
def Scope.target (scope : Scope) (name : Option String) : Action Value :=
  match name, scope.it with
  | some name, _ => scope.register name
  | none, some it => return it
  | none, none => scope.register "q"

/-- Stores a value in a register. -/
def setRegister (name : String) (value : Value) : Action Unit :=
  modifyThe Store fun s =>
    { s with registers := (name, value) :: s.registers.filter (·.1 != name) }

/-! ## Methods of objects -/

/-- The method that looks at the state of a query and changes nothing. -/
def stateMethod : Method QueryId := ⟨"$state", {}, fun _ _ _ => return .null⟩

/-- The method that sets an attribute of a grammar. -/
def setMethod : Method GrammarId :=
  ⟨"$set", { parameters := [.needed "attribute", .needed "value"] }, fun _ g a => do
    if (a.get "attribute").equals (.text "supports_savepoints") then
      g.modify fun grammar => { grammar with supportsSavepoints := a.get "value" }
    return .null⟩

/-- The method of a raw fragment, which gives what it holds. -/
def fragmentMethod : Method Value := ⟨"get_value", {}, fun _ value _ => return value⟩

/-- Fails as an object does that lacks a method; data cannot be called. -/
def lackingMethod (attributes : List String) (name : String) : Action Value :=
  throw (if attributes.contains name then .wrongType else .missingAttribute)

/-- Calls a method of an object, given its methods and the names of its data. -/
def callMethod {α : Type} (methods : List (Method α)) (attributes : List String) (run : Runner)
    (target : α) (name : String) (placed : List Value) (named : List (String × Value)) :
    Action Value :=
  match Method.find? methods name with
  | some method => method.call run target placed named
  | none => lackingMethod attributes name

/-- Calls a query by a name that is none of its methods: the name of an extension. -/
def callExtension (run : Runner) (q : QueryId) (name : String) (placed : List Value)
    (named : List (String × Value)) : Action Value := do
  if ['_', '_'].isPrefixOf name.toList then throw .missingAttribute
  let s ← get
  if !named.isEmpty && (s.extension? name).isSome then throw .wrongType
  Extensions.call run q name placed

/-- Calls a method or an extension of a query. -/
def callQuery (run : Runner) (q : QueryId) (name : String) (placed : List Value)
    (named : List (String × Value)) : Action Value := do
  let isJoin := ((← get).query q).isJoin
  let methods := stateMethod :: queryMethods ++ if isJoin then joinMethods else []
  let attributes := queryAttributes ++ if isJoin then joinAttributes else []
  match Method.find? methods name with
  | some method => method.call run q placed named
  | none =>
    if attributes.contains name then throw .wrongType
    else callExtension run q name placed named

/-- Calls a method of an object. -/
def callObject (run : Runner) (target : Value) (name : String) (placed : List Value)
    (named : List (String × Value)) : Action Value := do
  match target with
  | .object (.query q) => callQuery run q name placed named
  | .object (.grammar g) => do
    let grammar ← g.read
    callMethod (setMethod :: grammarMethods grammar) (grammarAttributes grammar) run g name placed
      named
  | .object (.connection c) =>
    callMethod connectionMethods connectionAttributes run c name placed named
  | .object (.resolver r) =>
    callMethod resolverMethods resolverAttributes run r name placed named
  | .object .extensions => callMethod extensionMethods [] run () name placed named
  | .raw value => callMethod [fragmentMethod] ["value"] run value name placed named
  | _ => throw .missingAttribute

/-! ## Dates and JSON -/

/-- Whether a number fits the fields of a date. -/
def fitsField (n : Int) : Bool :=
  -2147483648 ≤ n && n ≤ 2147483647

/-- The fields of a date, of which the last ones may be left out as zero. -/
def dateFields (least most : Nat) (fields : List Int) : Except Failure (List Int) :=
  if fields.length < least ∨ most < fields.length then .error .wrongType
  else if fields.all fitsField then
    .ok (fields ++ List.replicate (most - fields.length) 0)
  else .error (.value .overflow)

/-- The day with some fields. -/
def readDate (fields : List Int) : Except Failure Value := do
  match ← dateFields 3 3 fields with
  | [year, month, day] => (Date.ofFields? year month day).elim (.error .badValue) (.ok <| .date ·)
  | _ => .error .wrongType

/-- The time of day with some fields. -/
def readTime (fields : List Int) : Except Failure Value := do
  match ← dateFields 0 3 fields with
  | [hour, minute, second] =>
    (TimeOfDay.ofFields? hour minute second).elim (.error .badValue) (.ok <| .time ·)
  | _ => .error .wrongType

/-- The day with a time with some fields. -/
def readDateTime (fields : List Int) : Except Failure Value := do
  match ← dateFields 3 6 fields with
  | [year, month, day, hour, minute, second] =>
    match Date.ofFields? year month day, TimeOfDay.ofFields? hour minute second with
    | some date, some time => .ok (.dateTime ⟨date, time⟩)
    | _, _ => .error .badValue
  | _ => .error .wrongType

/-- The name of the class of a grammar. -/
def Grammar.className (g : Grammar) : String :=
  if g.namesOnly then "BaseGrammar"
  else
    match g.dialect with
    | .ansi => "Grammar"
    | .mysql => "MySqlGrammar"
    | .postgres => "PostgresGrammar"
    | .sqlite => "SQLiteGrammar"

/-- The name of the kind of an object. -/
def Handle.kindName (s : Store) : Handle → String
  | query q => (s.classOf q).display
  | grammar g => (s.grammar g).className
  | connection _ => "Connection"
  | resolver _ => "ConnectionResolver"
  | extensions => "MacroRegistry"
  | callback _ => "function"
  | settings _ => "Config"
  | bindings _ => "dict"

/-- The name of the kind of a value that has no place in a JSON document. -/
def Value.kindName (s : Store) : Value → String
  | bytes _ => "bytes"
  | date _ => "date"
  | dateTime _ => "datetime"
  | time _ => "time"
  | object handle => handle.kindName s
  | _ => ""

/-- What stands in SQL for a value inside a JSON comparison. -/
def jsonFragment (v : Value) : Action Value := do
  match v.jsonParameter with
  | some value => return .raw value
  | none => throw (.argument (.jsonKind (v.kindName (← get))))

/-! ## Interpreters -/

/-- What evaluates arguments and performs calls. -/
structure Interpreter where
  /-- Evaluates an argument. -/
  evaluate : Scope → Argument → Action Value
  /-- Performs a call. -/
  perform : Scope → Call → Action Value

namespace Interpreter

/-- Performs calls one after another. -/
def performAll (i : Interpreter) (scope : Scope) (calls : List Call) : Action Unit :=
  calls.forM fun call => discard (i.perform scope call)

/-- Runs a callback on a query. -/
def run (i : Interpreter) : Runner := fun id q extra => do
  match (← get).callbacks[id.index]? with
  | none => throw .wrongType
  | some callback =>
    let scope : Scope := { it := some (.ofQuery q), extra }
    i.performAll scope callback.steps
    i.evaluate scope callback.result

/-- Evaluates the entries of a map, each key before its value. -/
def entries (i : Interpreter) (scope : Scope) (pairs : List (Argument × Argument)) :
    Action (List (Value × Value)) :=
  pairs.foldlM (fun entries (key, value) => do
    let key ← i.evaluate scope key
    let value ← i.evaluate scope value
    if !key.hashable then throw .wrongType
    return insertKey key value entries) []

/-- The new query of a script: of its connection, or else of its grammar. -/
def newQuery (scope : Scope) : Action QueryId := do
  match (← get).registers.lookup "conn" with
  | some (.object (.connection c)) => c.query
  | _ =>
    let grammar ← Action.ofExcept (← scope.register "grammar").needCompiler
    Query.create { connection := none, grammar }

/-- Runs calls on a new query and gives the query. -/
def prepare (i : Interpreter) (scope : Scope) (q : QueryId) (steps : List Call) : Action Value := do
  i.performAll { scope with it := some (.ofQuery q) } steps
  return .ofQuery q

/-- Evaluates an argument; what is nested in it is left to an interpreter. -/
def evaluateWith (i : Interpreter) (scope : Scope) : Argument → Action Value
  | .constant value => return value
  | .numeral digits => return .int (← Action.ofExcept (Value.text digits).toInt)
  | .notNumber =>
    modifyGetThe Store fun s =>
      (.double (.nan s.notNumbers), { s with notNumbers := s.notNumbers + 1 })
  | .date fields => Action.ofExcept (readDate fields)
  | .dateTime fields => Action.ofExcept (readDateTime fields)
  | .time fields => Action.ofExcept (readTime fields)
  | .list items => return .list (← items.mapM (i.evaluate scope))
  | .tuple items => return .tuple (← items.mapM (i.evaluate scope))
  | .map pairs => return .map (← i.entries scope pairs)
  | .raw value => return .raw (← i.evaluate scope value)
  | .json value => do jsonFragment (← i.evaluate scope value)
  | .register name => scope.register name
  | .extra index fallback =>
    match scope.extra[index]? with
    | some value => return value
    | none => i.evaluate scope fallback
  | .callback steps result => return .object (.callback (← Callback.create ⟨steps, result⟩))
  | .query steps => do i.prepare scope (← newQuery scope) steps
  | .queryOf dialect tablePrefix steps => do
    let c ← ConnectionOptions.connect { dialect, tablePrefix }
    i.prepare scope (← c.query) steps
  | .connection options => return .object (.connection (← options.connect))
  | .settings env => do
    let settings ← Action.ofExcept (Settings.ofEnvironment env)
    return .object (.settings (← Settings.create settings))

/-- Performs a call; what is nested in its arguments, and the callbacks that it runs, are left to an
interpreter. -/
def performWith (i : Interpreter) (scope : Scope) (call : Call) : Action Value := do
  let target ← scope.target call.target
  let placed ← call.arguments.mapM (i.evaluate scope)
  let named ← call.named.mapM fun (name, argument) => do return (name, ← i.evaluate scope argument)
  let value ← callObject i.run target call.method placed named
  if let some name := call.result then setRegister name value
  return value

/-- The interpreter of a depth. -/
def ofDepth : Nat → Interpreter
  | 0 => ⟨fun _ _ => throw (.value .endless), fun _ _ => throw (.value .endless)⟩
  | depth + 1 => ⟨(ofDepth depth).evaluateWith, (ofDepth depth).performWith⟩

/-- The depth to which calls may be nested. -/
def depthLimit : Nat := 1000

/-- The interpreter of scripts. -/
def standard : Interpreter := ofDepth depthLimit

end Interpreter

end FluentSql
