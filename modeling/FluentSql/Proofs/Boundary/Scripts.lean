import FluentSql.Proofs.Boundary.Calls
import FluentSql.Script.Interpreter

/-!
# Scripts and the kinds of queries

A query stays a statement or a join condition for as long as it is there,
whatever a script does.

* `Boundary.kinds` is the boundary that keeps nothing but the kinds, so an
  action keeps to it if no query gets lost or changes its kind.
* The methods of connections, registries and grammars.
* `Interpreter.keepsKinds` goes through the depths of the interpreter;
  `perform_kind` is the result.
-/

namespace FluentSql

/-! ## The boundary of kinds -/

/-- The boundary that keeps nothing but the kinds of queries. -/
def Boundary.kinds : Boundary where
  start := 0
  kept _ := False
  hidden _ := False
  trusted _ := True
  steady := False
  world _ := True
  kept_of_hidden h := h
  lt_of_kept h := h.elim

namespace Boundary.kinds

theorem not_hides (handle : Handle) : ¬kinds.Hides handle := by
  cases handle <;> exact id

theorem admits (v : Value) : kinds.Admits v :=
  fun handle _ => not_hides handle

theorem admitsAll (vs : List Value) : kinds.AdmitsAll vs :=
  fun v _ => admits v

theorem guards (s : Store) : kinds.Guards s where
  start_le := Nat.zero_le _
  world := trivial
  queries _ _ := allows_query.1 fun handle _ => not_hides handle
  connections _ := not_hides _
  resolvers _ _ _ := ⟨admits _, admits _⟩
  answers _ _ _ := trivial

/-- An action that leaves the queries alone. -/
theorem keeps_of_queries {α : Type} {a : Action α}
    (h : ∀ s, (a.run.run s).2.queries = s.queries) : a.Keeps kinds := by
  intro s _
  refine ⟨guards _, ⟨?_, fun _ hid => hid.elim, fun id _ => ?_, False.elim⟩, fun _ _ => trivial⟩
  · exact Nat.le_of_eq (by rw [h])
  · unfold Store.query
    rw [h]

theorem keeps_create (q : Query) : q.create.Keeps kinds :=
  (within_create (allows_query.1 fun handle _ => not_hides handle)).keeps

end Boundary.kinds

open Boundary.kinds

variable {run : Runner}

/-! ## Connections -/

theorem keepsKinds_connectionModify (id : ConnectionId) (f : Connection → Connection) :
    (id.modify f).Keeps .kinds :=
  keeps_of_queries fun _ => rfl

theorem keepsKinds_grammarModify (id : GrammarId) (f : Grammar → Grammar) :
    (id.modify f).Keeps .kinds :=
  keeps_of_queries fun _ => rfl

theorem keepsKinds_resolverModify (id : ResolverId) (f : Resolver → Resolver) :
    (id.modify f).Keeps .kinds :=
  keeps_of_queries fun _ => rfl

theorem keepsKinds_connectionRead (id : ConnectionId) : id.read.Keeps .kinds :=
  keeps_of_queries fun _ => rfl

theorem keepsKinds_resolverRead (id : ResolverId) : id.read.Keeps .kinds :=
  keeps_of_queries fun _ => rfl

theorem keepsKinds_grammarRead (id : GrammarId) : id.read.Keeps .kinds :=
  keeps_of_queries fun _ => rfl

theorem keepsKinds_get : (get : Action Store).Keeps .kinds :=
  within_get.keeps

theorem keepsKinds_extension (hrun : Boundary.kinds.Runs run) (q : QueryId) (name : String)
    (arguments : List Value) : (Extensions.call run q name arguments).Keeps .kinds :=
  (within_extension hrun id name (admitsAll arguments)).keeps

theorem keepsKinds_setTablePrefixWithin (hrun : Boundary.kinds.Runs run) (tablePrefix : Value)
    (fuel : Nat) (compiler : Compiler) :
    (compiler.setTablePrefixWithin run tablePrefix fuel).Keeps .kinds := by
  induction fuel generalizing compiler with
  | zero =>
    cases compiler with
    | grammar id => exact keepsKinds_grammarModify id _
    | query q => exact Action.Within.discard (keepsKinds_extension hrun q _ _)
    | connection id => exact within_throw _
  | succ fuel ih =>
    cases compiler with
    | grammar id => exact keepsKinds_grammarModify id _
    | query q => exact Action.Within.discard (keepsKinds_extension hrun q _ _)
    | connection id =>
      exact (keepsKinds_connectionModify id _).next fun _ =>
        (keepsKinds_connectionRead id).next fun c => ih c.grammar

theorem keepsKinds_setTablePrefix (hrun : Boundary.kinds.Runs run) (compiler : Compiler)
    (tablePrefix : Value) : (compiler.setTablePrefix run tablePrefix).Keeps .kinds :=
  keepsKinds_get.next fun _ => keepsKinds_setTablePrefixWithin hrun tablePrefix _ compiler

theorem keepsKinds_connectionQuery (id : ConnectionId) : id.query.Keeps .kinds :=
  (keepsKinds_connectionRead id).next fun _ => keeps_create _

theorem keepsKinds_openWith (options : ConnectionOptions) (grammar : GrammarId) :
    (options.openWith grammar).Keeps .kinds :=
  (keepsKinds_grammarModify grammar _).next fun _ => keeps_of_queries fun _ => rfl

theorem keepsKinds_connect (options : ConnectionOptions) : options.connect.Keeps .kinds :=
  Action.Keeps.next (keeps_of_queries fun _ => rfl) fun grammar => keepsKinds_openWith options grammar

/-- What a method of any object keeps: the kinds of queries. -/
def Method.KeepsKinds {α : Type} (run : Runner) (m : Method α) : Prop :=
  ∀ target a, (m.run run target a).Keeps .kinds

theorem keepsKinds_connectionMethods (hrun : Boundary.kinds.Runs run) :
    ∀ m ∈ connectionMethods, m.KeepsKinds run := by
  simp only [connectionMethods, List.forall_mem_append]
  refine ⟨⟨?_, ?_⟩, ?_⟩
  · simp only [connectionBasics, List.forall_mem_cons]
    refine ⟨?_, ?_, ?_, ?_, ?_, ?_, ?_, ?_, fun _ h => nomatch h⟩
    · exact fun c a => Action.Keeps.next (keeps_of_queries fun _ => rfl) fun _ => within_pure trivial
    · exact fun c a => keeps_returning (keepsKinds_connectionRead c) _
    · refine fun c a => (keeps_ofExcept _).next fun grammar => ?_
      refine Action.Keeps.next ?_ fun _ => within_pure trivial
      exact (keepsKinds_connectionRead c).next fun _ =>
        (keepsKinds_setTablePrefix hrun grammar _).next fun _ => keepsKinds_connectionModify c _
    · exact fun c a => keeps_returning (keepsKinds_connectionRead c) _
    · exact fun c a => (keepsKinds_setTablePrefix hrun _ _).next fun _ => within_pure trivial
    · exact fun c a => keeps_returning (keepsKinds_connectionQuery c) _
    · refine fun c a => keeps_returning ((keepsKinds_connectionQuery c).next fun q => ?_) _
      exact (keeps_setSource hrun id (admits _) _).next fun _ => within_pure trivial
    · exact fun c a => within_pure trivial
  · simp only [connectionStatements, List.forall_mem_cons]
    refine ⟨?_, ?_, ?_, ?_, ?_, ?_, ?_, ?_, fun _ h => nomatch h⟩
    · exact fun c a => keeps_returning (keeps_run c _ _ _) _
    · exact fun c a => keeps_returning (keeps_returning (keeps_run c _ _ _) _) _
    · exact fun c a => Action.Keeps.next (keeps_run c _ _ _) fun _ => within_pure trivial
    · exact fun c a => keeps_run c _ _ _
    · exact fun c a => keeps_run c _ _ _
    · exact fun c a => keeps_run c _ _ _
    · exact fun c a => Action.Keeps.next (keeps_run c _ _ _) fun _ => within_pure trivial
    · exact fun c a => keeps_run c _ _ _
  · simp only [connectionLogging, List.forall_mem_cons]
    refine ⟨?_, ?_, ?_, ?_, ?_, ?_, fun _ h => nomatch h⟩
    · exact fun c a => (keeps_engine c).next fun _ => within_pure trivial
    · exact fun c a => (keepsKinds_connectionModify c _).next fun _ => within_pure trivial
    · exact fun c a => (keepsKinds_connectionModify c _).next fun _ => within_pure trivial
    · exact fun c a => keeps_returning (keepsKinds_connectionRead c) _
    · exact fun c a => keeps_returning (keepsKinds_connectionRead c) _
    · exact fun c a => (keepsKinds_connectionModify c _).next fun _ => within_pure trivial

/-! ## Registries -/

theorem keepsKinds_ofSettings (settings : Settings) :
    (Resolver.ofSettings settings).Keeps .kinds := by
  refine Action.Keeps.next ?_ fun c => (keeps_writeLog _).next fun _ =>
    (keepsKinds_connectionRead c).next fun _ => keeps_of_queries fun _ => rfl
  refine keepsKinds_get.next fun s => (keeps_ofExcept _).next fun dialect => ?_
  refine Action.Keeps.next (keeps_of_queries fun _ => rfl) fun grammar => ?_
  exact (keeps_ofExcept _).next fun engine => (keeps_writeLog _).next fun _ =>
    keepsKinds_openWith _ grammar

theorem keepsKinds_needSettings (v : Value) : v.needSettings.Keeps .kinds := by
  unfold Value.needSettings
  split
  · exact keepsKinds_get.next fun _ => within_pure trivial
  · refine keepsKinds_get.next fun s => ?_
    split
    · exact within_pure trivial
    · exact within_throw _
  · exact keepsKinds_get.next fun _ => within_throw _
  · exact within_throw _

theorem keepsKinds_resolverMethods : ∀ m ∈ resolverMethods, m.KeepsKinds run := by
  simp only [resolverMethods, List.forall_mem_cons]
  refine ⟨?_, ?_, ?_, ?_, ?_, ?_, fun _ h => nomatch h⟩
  · refine fun r a => (keepsKinds_resolverRead r).next fun resolver => (keeps_ofExcept _).next
      fun name => ?_
    cases lookupKey name resolver.connections with
    | none => exact within_throw _
    | some connection => exact within_pure trivial
  · refine fun r a => Action.Keeps.next ((keeps_ofExcept _).next fun name =>
      (keepsKinds_resolverRead r).next fun resolver => ?_) fun _ => within_pure trivial
    dsimp only
    split
    · exact (keeps_writeLog _).next fun _ => keepsKinds_resolverModify r _
    · exact keepsKinds_resolverModify r _
  · exact fun r a => keeps_returning ((keeps_ofExcept _).next fun name =>
      (keepsKinds_resolverRead r).next fun _ => within_pure trivial) _
  · exact fun r a => keeps_returning (keepsKinds_resolverRead r) _
  · exact fun r a => (keepsKinds_resolverModify r _).next fun _ => within_pure trivial
  · exact fun r a => (keepsKinds_needSettings _).next fun settings =>
      keeps_returning (keepsKinds_ofSettings settings) _

theorem keepsKinds_accepts (hrun : Boundary.kinds.Runs run) (name : Value) :
    (Extensions.accepts run name).Keeps .kinds := by
  unfold Extensions.accepts
  split
  · exact within_pure trivial
  · refine (keepsKinds_extension hrun _ _ _).next fun answer => ?_
    split
    · exact (keepsKinds_extension hrun _ _ _).next fun _ => within_pure trivial
    · exact within_pure trivial
  · exact within_throw _

theorem keepsKinds_find (name : Value) : (Extensions.find name).Keeps .kinds := by
  unfold Extensions.find
  split
  · exact within_throw _
  · exact keepsKinds_get.next fun _ => within_pure trivial

theorem keepsKinds_register (hrun : Boundary.kinds.Runs run) (name callback : Value) :
    (Extensions.register run name callback).Keeps .kinds := by
  have hinsert : ∀ id : CallbackId, Action.Keeps .kinds (modifyThe Store fun s =>
      { s with extensions := insertKey name id s.extensions }) := fun id =>
    keeps_of_queries fun _ => rfl
  refine (keepsKinds_accepts hrun name).next fun accepted => ?_
  dsimp only
  split
  · exact within_throw _
  · split
    · refine keepsKinds_get.next fun s => ?_
      split
      · exact (keeps_writeLog _).next fun _ => hinsert _
      · exact hinsert _
    · exact within_throw _

theorem keepsKinds_extensionMethods (hrun : Boundary.kinds.Runs run) :
    ∀ m ∈ extensionMethods, m.KeepsKinds run := by
  simp only [extensionMethods, List.forall_mem_cons]
  refine ⟨?_, ?_, ?_, ?_, fun _ h => nomatch h⟩
  · exact fun _ a => (keepsKinds_register hrun _ _).next fun _ => within_pure trivial
  · exact fun _ a => keeps_returning (keepsKinds_find _) _
  · exact fun _ a => keeps_returning (keeps_returning (keepsKinds_find _) _) _
  · exact fun _ a => Action.Keeps.next (keeps_of_queries fun _ => rfl) fun _ => within_pure trivial

/-! ## Grammars -/

theorem keepsKinds_grammarReader (hrun : Boundary.kinds.Runs run) (name : String)
    (parameters : List Parameter)
    (compile : Grammar → Oracle → Arguments → Except Failure Value) :
    (grammarReader name parameters compile).KeepsKinds run := fun _ _ =>
  keeps_consult hrun _

theorem keepsKinds_statementWriter (hrun : Boundary.kinds.Runs run) (name : String)
    (parameters : List Parameter)
    (compile : Grammar → Attached → Query → Arguments → Except Failure Value) :
    (statementWriter name parameters compile).KeepsKinds run := fun _ _ =>
  (within_needQuery (admits _)).keeps.next fun _ => keeps_consult hrun _

theorem keepsKinds_getValue (hrun : Boundary.kinds.Runs run) : getValueMethod.KeepsKinds run := by
  intro id a
  unfold getValueMethod
  dsimp only
  split
  · exact within_pure trivial
  · exact keepsKinds_extension hrun _ _ _
  · exact within_throw _

theorem keepsKinds_nameMethods (hrun : Boundary.kinds.Runs run) :
    ∀ m ∈ nameMethods, m.KeepsKinds run := by
  have hread := @keepsKinds_grammarReader run hrun
  simp only [nameMethods, List.forall_mem_cons]
  refine ⟨hread _ _ _, hread _ _ _, hread _ _ _, hread _ _ _, hread _ _ _, hread _ _ _,
    hread _ _ _, hread _ _ _, hread _ _ _, keepsKinds_getValue hrun, hread _ _ _, hread _ _ _,
    ?_, hread _ _ _, hread _ _ _, hread _ _ _, hread _ _ _, fun _ h => nomatch h⟩
  exact fun id a => (keepsKinds_grammarModify id _).next fun _ => within_pure trivial

theorem keepsKinds_pieceMethods (hrun : Boundary.kinds.Runs run) :
    ∀ m ∈ pieceMethods, m.KeepsKinds run := by
  have hread := @keepsKinds_grammarReader run hrun
  simp only [pieceMethods, List.forall_mem_cons]
  exact ⟨hread _ _ _, hread _ _ _, hread _ _ _, hread _ _ _, hread _ _ _, hread _ _ _,
    hread _ _ _, hread _ _ _, hread _ _ _, hread _ _ _, hread _ _ _, hread _ _ _, hread _ _ _,
    hread _ _ _, hread _ _ _, fun _ h => nomatch h⟩

theorem keepsKinds_insertIgnoring (hrun : Boundary.kinds.Runs run) :
    insertIgnoringMethod.KeepsKinds run := by
  intro id a
  refine (keepsKinds_grammarRead id).next fun g => ?_
  dsimp only
  split
  · exact within_throw _
  · exact keepsKinds_statementWriter hrun _ _ _ id a

theorem keepsKinds_wheres (hrun : Boundary.kinds.Runs run) : wheresMethod.KeepsKinds run := by
  intro id a
  refine (keeps_now _).next fun wheres => ?_
  split
  · exact keepsKinds_statementWriter hrun _ _ _ id a
  · split
    · exact (keeps_ofExcept _).next fun _ => keepsKinds_get.next fun _ => within_throw _
    · exact within_pure trivial

theorem keepsKinds_statementMethods (hrun : Boundary.kinds.Runs run) :
    ∀ m ∈ statementMethods, m.KeepsKinds run := by
  have hwrite := @keepsKinds_statementWriter run hrun
  simp only [statementMethods, List.forall_mem_cons]
  exact ⟨hwrite _ _ _, hwrite _ _ _, hwrite _ _ _, keepsKinds_insertIgnoring hrun, hwrite _ _ _,
    hwrite _ _ _, hwrite _ _ _, hwrite _ _ _, hwrite _ _ _, keepsKinds_wheres hrun,
    fun _ h => nomatch h⟩

theorem keepsKinds_grammarMethods (hrun : Boundary.kinds.Runs run) (g : Grammar) :
    ∀ m ∈ setMethod :: grammarMethods g, m.KeepsKinds run := by
  refine List.forall_mem_cons.2 ⟨fun id a => ?_, ?_⟩
  · unfold setMethod
    dsimp only
    split
    · exact (keepsKinds_grammarModify id _).next fun _ => within_pure trivial
    · exact within_pure trivial
  · unfold grammarMethods
    split
    · exact keepsKinds_nameMethods hrun
    · simp only [List.forall_mem_append]
      exact ⟨⟨keepsKinds_nameMethods hrun, keepsKinds_pieceMethods hrun⟩,
        keepsKinds_statementMethods hrun⟩

/-! ## Calls -/

theorem keepsKinds_queryMethods (hrun : Boundary.kinds.Runs run) :
    ∀ m ∈ stateMethod :: (queryMethods ++ joinMethods), m.KeepsKinds run := by
  have hbuilding : ∀ m ∈ queryMethods ++ joinMethods, m.KeepsBuilding .kinds run :=
    List.forall_mem_append.2
      ⟨keeps_queryMethods hrun fun _ h => h, keeps_joinConditionMethods hrun⟩
  refine List.forall_mem_cons.2 ⟨fun _ _ => within_pure trivial, fun m hm q a => ?_⟩
  exact hbuilding m hm q a id ⟨fun _ _ => admits _, admitsAll _⟩

theorem keepsKinds_call {α : Type} {m : Method α} (hm : m.KeepsKinds run) (target : α)
    (placed : List Value) (named : List (String × Value)) :
    (m.call run target placed named).Keeps .kinds :=
  (keeps_ofExcept _).next fun a => hm target a

theorem keepsKinds_callMethod {α : Type} {methods : List (Method α)}
    (hmethods : ∀ m ∈ methods, m.KeepsKinds run) (attributes : List String) (target : α)
    (name : String) (placed : List Value) (named : List (String × Value)) :
    (callMethod methods attributes run target name placed named).Keeps .kinds := by
  unfold callMethod
  split
  · rename_i m hfind
    exact keepsKinds_call (hmethods m (List.mem_of_find?_eq_some hfind)) target placed named
  · exact within_throw _

theorem keepsKinds_callExtension (hrun : Boundary.kinds.Runs run) (q : QueryId) (name : String)
    (placed : List Value) (named : List (String × Value)) :
    (callExtension run q name placed named).Keeps .kinds := by
  unfold callExtension
  dsimp only
  split
  · exact within_throw _
  · refine keepsKinds_get.next fun s => ?_
    split
    · exact within_throw _
    · exact keepsKinds_extension hrun q name placed

theorem keepsKinds_callQuery (hrun : Boundary.kinds.Runs run) (q : QueryId) (name : String)
    (placed : List Value) (named : List (String × Value)) :
    (callQuery run q name placed named).Keeps .kinds := by
  have hother : ∀ attributes : List String, Action.Keeps .kinds
      (if attributes.contains name then throw .wrongType
        else callExtension run q name placed named) := by
    intro attributes
    split
    · exact within_throw _
    · exact keepsKinds_callExtension hrun q name placed named
  refine keepsKinds_get.next fun s => ?_
  dsimp only
  split
  · rename_i m hfind
    have hmem := List.mem_of_find?_eq_some hfind
    refine keepsKinds_call (keepsKinds_queryMethods hrun m ?_) q placed named
    rw [List.cons_append, List.mem_cons, List.mem_append] at hmem
    rcases hmem with hmem | hmem | hmem
    · exact List.mem_cons.2 (.inl hmem)
    · exact List.mem_cons_of_mem _ (List.mem_append_left _ hmem)
    · split at hmem
      · exact List.mem_cons_of_mem _ (List.mem_append_right _ hmem)
      · exact nomatch hmem
  · exact hother _

theorem keepsKinds_callObject (hrun : Boundary.kinds.Runs run) (target : Value) (name : String)
    (placed : List Value) (named : List (String × Value)) :
    (callObject run target name placed named).Keeps .kinds := by
  unfold callObject
  split
  · exact keepsKinds_callQuery hrun _ name placed named
  · refine (keepsKinds_grammarRead _).next fun g => ?_
    exact keepsKinds_callMethod (keepsKinds_grammarMethods hrun g) _ _ name placed named
  · exact keepsKinds_callMethod (keepsKinds_connectionMethods hrun) _ _ name placed named
  · exact keepsKinds_callMethod keepsKinds_resolverMethods _ _ name placed named
  · exact keepsKinds_callMethod (keepsKinds_extensionMethods hrun) _ _ name placed named
  · refine keepsKinds_callMethod (List.forall_mem_singleton.2 fun _ _ => ?_) _ _ name placed named
    exact within_pure trivial
  · exact within_throw _

/-! ## Interpreters -/

theorem keeps_foldlM {b : Boundary} {α β : Type} {f : β → α → Action β}
    (h : ∀ found x, (f found x).Keeps b) (xs : List α) (found : β) :
    (xs.foldlM f found).Keeps b := by
  induction xs generalizing found with
  | nil => exact within_pure trivial
  | cons x xs ih =>
    rw [List.foldlM_cons]
    exact (h found x).next ih

theorem keepsKinds_scopeRegister (scope : Scope) (name : String) :
    (scope.register name).Keeps .kinds := by
  refine keepsKinds_get.next fun s => ?_
  split
  · exact within_pure trivial
  · exact within_throw _

theorem keepsKinds_target (scope : Scope) (name : Option String) :
    (scope.target name).Keeps .kinds := by
  unfold Scope.target
  split
  · exact keepsKinds_scopeRegister scope _
  · exact within_pure trivial
  · exact keepsKinds_scopeRegister scope _

theorem keepsKinds_jsonFragment (v : Value) : (jsonFragment v).Keeps .kinds := by
  unfold jsonFragment
  split
  · exact within_pure trivial
  · exact keepsKinds_get.next fun _ => within_throw _

theorem keepsKinds_newQuery (scope : Scope) : (Interpreter.newQuery scope).Keeps .kinds := by
  refine keepsKinds_get.next fun s => ?_
  split
  · exact keepsKinds_connectionQuery _
  · exact (keepsKinds_scopeRegister scope _).next fun _ => (keeps_ofExcept _).next fun _ =>
      keeps_create _

/-- What evaluates arguments and performs calls keeps the kinds of queries. -/
structure Interpreter.KeepsKinds (i : Interpreter) : Prop where
  evaluate : ∀ scope argument, (i.evaluate scope argument).Keeps .kinds
  perform : ∀ scope call, (i.perform scope call).Keeps .kinds

namespace Interpreter.KeepsKinds

variable {i : Interpreter} (h : i.KeepsKinds)

include h

theorem performAll (scope : Scope) (calls : List Call) : (i.performAll scope calls).Keeps .kinds :=
  keeps_forM fun call _ => Action.Within.discard (h.perform scope call)

theorem runner : Boundary.kinds.Runs i.run := by
  intro callback q extra _ _
  refine Action.Within.mono (P := fun _ => True) ?_ fun v _ => admits v
  refine keepsKinds_get.next fun s => ?_
  split
  · exact within_throw _
  · exact (h.performAll _ _).next fun _ => h.evaluate _ _

theorem prepare (scope : Scope) (q : QueryId) (steps : List Call) :
    (i.prepare scope q steps).Keeps .kinds :=
  (h.performAll _ steps).next fun _ => within_pure trivial

theorem evaluateAll (scope : Scope) (items : List Argument) :
    (items.mapM (i.evaluate scope)).Keeps .kinds :=
  (within_mapM fun argument _ => h.evaluate scope argument).keeps

theorem entries (scope : Scope) (pairs : List (Argument × Argument)) :
    (i.entries scope pairs).Keeps .kinds := by
  refine keeps_foldlM (fun found pair => ?_) pairs []
  refine (h.evaluate scope pair.1).next fun key => (h.evaluate scope pair.2).next fun value => ?_
  dsimp only
  split
  · exact within_throw _
  · exact within_pure trivial

/-- One case per kind of argument. -/
theorem evaluateWith (scope : Scope) (argument : Argument) :
    (i.evaluateWith scope argument).Keeps .kinds := by
  cases argument with
  | constant value => exact within_pure trivial
  | numeral digits => exact keeps_returning (keeps_ofExcept _) _
  | notNumber => exact keeps_of_queries fun _ => rfl
  | date fields => exact keeps_ofExcept _
  | dateTime fields => exact keeps_ofExcept _
  | time fields => exact keeps_ofExcept _
  | list items => exact keeps_returning (h.evaluateAll scope items) _
  | tuple items => exact keeps_returning (h.evaluateAll scope items) _
  | map entries => exact keeps_returning (h.entries scope entries) _
  | raw value => exact keeps_returning (h.evaluate scope value) _
  | json value => exact (h.evaluate scope value).next fun v => keepsKinds_jsonFragment v
  | register name => exact keepsKinds_scopeRegister scope name
  | extra index fallback =>
    unfold Interpreter.evaluateWith
    dsimp only
    split
    · exact within_pure trivial
    · exact h.evaluate scope fallback
  | callback steps result => exact keeps_returning (keeps_of_queries fun _ => rfl) _
  | query steps => exact (keepsKinds_newQuery scope).next fun q => h.prepare scope q steps
  | queryOf dialect tablePrefix steps =>
    exact (keepsKinds_connect _).next fun c => (keepsKinds_connectionQuery c).next fun q =>
      h.prepare scope q steps
  | connection options => exact keeps_returning (keepsKinds_connect options) _
  | settings env =>
    exact (keeps_ofExcept _).next fun settings => keeps_returning (keeps_of_queries fun _ => rfl) _

theorem performWith (scope : Scope) (call : Call) : (i.performWith scope call).Keeps .kinds := by
  refine (keepsKinds_target scope _).next fun target => (h.evaluateAll scope _).next fun placed => ?_
  refine Action.Keeps.next (within_mapM (Q := fun _ => True) fun argument _ =>
    keeps_returning (h.evaluate scope argument.2) _).keeps fun named => ?_
  refine (keepsKinds_callObject h.runner target _ placed named).next fun value => ?_
  dsimp only
  split
  · exact Action.Keeps.next (keeps_of_queries fun _ => rfl) fun _ => within_pure trivial
  · exact within_pure trivial

end Interpreter.KeepsKinds

end FluentSql
