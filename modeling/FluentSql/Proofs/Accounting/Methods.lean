import FluentSql.Proofs.Accounting.Calls
import FluentSql.Script.Interpreter

/-!
# Connections, registries and grammars in the ledger

Every method of every object accounts for what it does.  Only three methods of
a connection switch or empty its log, each by its own event.

* The methods of connections: `accounts_connectionMethods`.
* Those of the registries of connections and of extensions.
* Those of grammars, which leave the ledger alone but for the extensions that
  they call.
-/

namespace FluentSql

variable {calls : String → Prop} {run : Runner}

/-! ## Connections -/

theorem accounts_grammarRead (id : GrammarId) : id.read.Accounts calls :=
  accounts_quiet (fun _ => rfl) fun _ => rfl

theorem accounts_connectionRead (id : ConnectionId) : id.read.Accounts calls :=
  accounts_quiet (fun _ => rfl) fun _ => rfl

theorem accounts_resolverRead (id : ResolverId) : id.read.Accounts calls :=
  accounts_quiet (fun _ => rfl) fun _ => rfl

theorem accounts_createGrammar (g : Grammar) : g.create.Accounts calls :=
  accounts_quiet (fun _ => rfl) fun _ => rfl

theorem accounts_setTablePrefixWithin (hrun : run.Accounts calls) (tablePrefix : Value)
    (fuel : Nat) (compiler : Compiler) :
    (compiler.setTablePrefixWithin run tablePrefix fuel).Accounts calls := by
  induction fuel generalizing compiler with
  | zero =>
    cases compiler with
    | grammar id => exact accounts_grammarModify id _
    | query q => exact Action.Accounts.discard (accounts_extension hrun q _ _)
    | connection id => exact accounts_throw _
  | succ fuel ih =>
    cases compiler with
    | grammar id => exact accounts_grammarModify id _
    | query q => exact Action.Accounts.discard (accounts_extension hrun q _ _)
    | connection id =>
      refine Action.Accounts.next (accounts_connectionModify id ?_) fun _ =>
        (accounts_connectionRead id).next fun c => ih c.grammar
      exact fun _ => rfl

theorem accounts_setTablePrefix (hrun : run.Accounts calls) (compiler : Compiler)
    (tablePrefix : Value) : (compiler.setTablePrefix run tablePrefix).Accounts calls :=
  accounts_get.next fun _ => accounts_setTablePrefixWithin hrun tablePrefix _ compiler

theorem accounts_connectionQuery (id : ConnectionId) : id.query.Accounts calls :=
  (accounts_connectionRead id).next fun _ => accounts_create _

theorem accounts_openWith (options : ConnectionOptions) (grammar : GrammarId) :
    (options.openWith grammar).Accounts calls :=
  (accounts_grammarModify grammar _).next fun _ => accounts_open rfl

theorem accounts_connect (options : ConnectionOptions) : options.connect.Accounts calls :=
  (accounts_createGrammar _).next fun grammar => accounts_openWith options grammar

theorem accounts_useGrammar (hrun : run.Accounts calls) (id : ConnectionId) (grammar : Compiler) :
    (id.useGrammar run grammar).Accounts calls :=
  (accounts_connectionRead id).next fun _ => (accounts_setTablePrefix hrun grammar _).next fun _ =>
    accounts_connectionModify id fun _ => rfl

theorem accounts_useDefaultGrammar (id : ConnectionId) :
    id.useDefaultGrammar.Accounts calls :=
  (accounts_connectionRead id).next fun _ => (accounts_createGrammar _).next fun _ =>
    accounts_connectionModify id fun _ => rfl

theorem accounts_table (hrun : run.Accounts calls) (id : ConnectionId) (table name : Value) :
    (id.table run table name).Accounts calls :=
  (accounts_connectionQuery id).next fun q => (accounts_setSource hrun q _ _).next fun _ =>
    accounts_pure _

theorem accounts_engine (id : ConnectionId) : id.engine.Accounts calls := by
  refine (accounts_connectionRead id).next fun c => ?_
  split
  · exact accounts_pure _
  · exact (accounts_displayNow _).next fun _ => accounts_throw _

theorem accounts_statement (id : ConnectionId) (sql bindings : Value) :
    (id.statement sql bindings).Accounts calls :=
  accounts_run id _ _ _

theorem accounts_quietly {action : Action Unit} (h : action.Accounts calls) :
    (Action.quietly action).Accounts calls :=
  h.next fun _ => accounts_pure _

theorem accounts_connectionMethods (hrun : run.Accounts calls) :
    ∀ m ∈ connectionMethods, calls m.name → m.Accounts calls run := by
  simp only [connectionMethods, List.forall_mem_append]
  refine ⟨⟨?_, ?_⟩, ?_⟩
  · simp only [connectionBasics, List.forall_mem_cons]
    refine ⟨?_, ?_, ?_, ?_, ?_, ?_, ?_, ?_, fun _ h => nomatch h⟩
    · exact fun _ c _ => accounts_quietly (accounts_useDefaultGrammar c)
    · exact fun _ c _ => accounts_returning (accounts_connectionRead c) _
    · exact fun _ c _ => (accounts_ofExcept _).next fun grammar =>
        (accounts_useGrammar hrun c grammar).next fun _ => accounts_pure _
    · exact fun _ c _ => accounts_returning (accounts_connectionRead c) _
    · exact fun _ c _ => (accounts_setTablePrefix hrun _ _).next fun _ => accounts_pure _
    · exact fun _ c _ => accounts_returning (accounts_connectionQuery c) _
    · exact fun _ c _ => accounts_returning (accounts_table hrun c _ _) _
    · exact fun _ c _ => accounts_pure _
  · simp only [connectionStatements, List.forall_mem_cons]
    refine ⟨?_, ?_, ?_, ?_, ?_, ?_, ?_, ?_, fun _ h => nomatch h⟩
    · exact fun _ c _ => accounts_returning (accounts_run c _ _ _) _
    · exact fun _ c _ => accounts_returning (accounts_returning (accounts_run c _ _ _) _) _
    · exact fun _ c _ => (accounts_statement c _ _).next fun _ => accounts_pure _
    · exact fun _ c _ => accounts_run c _ _ _
    · exact fun _ c _ => accounts_run c _ _ _
    · exact fun _ c _ => accounts_run c _ _ _
    · exact fun _ c _ => (accounts_statement c _ _).next fun _ => accounts_pure _
    · exact fun _ c _ => accounts_run c _ _ _
  · simp only [connectionLogging, List.forall_mem_cons]
    refine ⟨?_, ?_, ?_, ?_, ?_, ?_, fun _ h => nomatch h⟩
    · exact fun _ c _ => (accounts_engine c).next fun _ => accounts_pure _
    · exact fun h c _ => accounts_quietly (accounts_setLogging c true h)
    · exact fun h c _ => accounts_quietly (accounts_setLogging c false h)
    · exact fun _ c _ => accounts_returning (accounts_connectionRead c) _
    · exact fun _ c _ => accounts_returning (accounts_connectionRead c) _
    · exact fun h c _ => accounts_quietly (accounts_flushQueryLog c h)

/-! ## Registries -/

theorem accounts_ofSettings (settings : Settings) :
    (Resolver.ofSettings settings).Accounts calls := by
  refine Action.Accounts.next ?_ fun c => (accounts_writeLog _).next fun _ =>
    (accounts_connectionRead c).next fun _ => accounts_quiet (fun _ => rfl) fun _ => rfl
  refine accounts_get.next fun s => (accounts_ofExcept _).next fun dialect => ?_
  refine (accounts_createGrammar _).next fun grammar => ?_
  exact (accounts_ofExcept _).next fun engine => (accounts_writeLog _).next fun _ =>
    accounts_openWith _ grammar

theorem accounts_needSettings (v : Value) : v.needSettings.Accounts calls := by
  unfold Value.needSettings
  split
  · exact accounts_get.next fun _ => accounts_pure _
  · refine accounts_get.next fun s => ?_
    split
    · exact accounts_pure _
    · exact accounts_throw _
  · exact accounts_get.next fun _ => accounts_throw _
  · exact accounts_throw _

theorem accounts_resolverMethods : ∀ m ∈ resolverMethods, m.Accounts calls run := by
  simp only [resolverMethods, List.forall_mem_cons]
  refine ⟨?_, ?_, ?_, ?_, ?_, ?_, fun _ h => nomatch h⟩
  · refine fun r a => (accounts_resolverRead r).next fun resolver => (accounts_ofExcept _).next
      fun name => ?_
    cases lookupKey name resolver.connections with
    | none => exact accounts_throw _
    | some connection => exact accounts_pure _
  · refine fun r a => Action.Accounts.next ((accounts_ofExcept _).next fun name =>
      (accounts_resolverRead r).next fun resolver => ?_) fun _ => accounts_pure _
    dsimp only
    split
    · exact (accounts_writeLog _).next fun _ => accounts_resolverModify r _
    · exact accounts_resolverModify r _
  · exact fun r a => accounts_returning ((accounts_ofExcept _).next fun name =>
      (accounts_resolverRead r).next fun _ => accounts_pure _) _
  · exact fun r a => accounts_returning (accounts_resolverRead r) _
  · exact fun r a => (accounts_resolverModify r _).next fun _ => accounts_pure _
  · exact fun r a => (accounts_needSettings _).next fun settings =>
      accounts_returning (accounts_ofSettings settings) _

theorem accounts_accepts (hrun : run.Accounts calls) (name : Value) :
    (Extensions.accepts run name).Accounts calls := by
  unfold Extensions.accepts
  split
  · exact accounts_pure _
  · refine (accounts_extension hrun _ _ _).next fun answer => ?_
    split
    · exact (accounts_extension hrun _ _ _).next fun _ => accounts_pure _
    · exact accounts_pure _
  · exact accounts_throw _

theorem accounts_findExtension (name : Value) : (Extensions.find name).Accounts calls := by
  unfold Extensions.find
  split
  · exact accounts_throw _
  · exact accounts_get.next fun _ => accounts_pure _

theorem accounts_register (hrun : run.Accounts calls) (name callback : Value) :
    (Extensions.register run name callback).Accounts calls := by
  have hinsert : ∀ id : CallbackId, Action.Accounts calls (modifyThe Store fun s =>
      { s with extensions := insertKey name id s.extensions }) := fun id =>
    accounts_quiet (fun _ => rfl) fun _ => rfl
  refine (accounts_accepts hrun name).next fun accepted => ?_
  dsimp only
  split
  · exact accounts_throw _
  · split
    · refine accounts_get.next fun s => ?_
      split
      · exact (accounts_writeLog _).next fun _ => hinsert _
      · exact hinsert _
    · exact accounts_throw _

theorem accounts_extensionMethods (hrun : run.Accounts calls) :
    ∀ m ∈ extensionMethods, m.Accounts calls run := by
  simp only [extensionMethods, List.forall_mem_cons]
  refine ⟨?_, ?_, ?_, ?_, fun _ h => nomatch h⟩
  · exact fun _ a => (accounts_register hrun _ _).next fun _ => accounts_pure _
  · exact fun _ a => accounts_returning (accounts_findExtension _) _
  · exact fun _ a => accounts_returning (accounts_returning (accounts_findExtension _) _) _
  · exact fun _ a => Action.Accounts.next (accounts_quiet (fun _ => rfl) fun _ => rfl) fun _ =>
      accounts_pure _

/-! ## Grammars -/

theorem accounts_grammarReader (hrun : run.Accounts calls) (name : String)
    (parameters : List Parameter)
    (compile : Grammar → Oracle → Arguments → Except Failure Value) :
    (grammarReader name parameters compile).Accounts calls run := fun _ _ =>
  accounts_consult hrun _

theorem accounts_statementWriter (hrun : run.Accounts calls) (name : String)
    (parameters : List Parameter)
    (compile : Grammar → Attached → Query → Arguments → Except Failure Value) :
    (statementWriter name parameters compile).Accounts calls run := fun _ _ =>
  (accounts_needQuery _).next fun _ => accounts_consult hrun _

theorem accounts_getValue (hrun : run.Accounts calls) : getValueMethod.Accounts calls run := by
  intro id a
  unfold getValueMethod
  dsimp only
  split
  · exact accounts_pure _
  · exact accounts_extension hrun _ _ _
  · exact accounts_throw _

theorem accounts_nameMethods (hrun : run.Accounts calls) :
    ∀ m ∈ nameMethods, m.Accounts calls run := by
  have hread := @accounts_grammarReader calls run hrun
  simp only [nameMethods, List.forall_mem_cons]
  refine ⟨hread _ _ _, hread _ _ _, hread _ _ _, hread _ _ _, hread _ _ _, hread _ _ _,
    hread _ _ _, hread _ _ _, hread _ _ _, accounts_getValue hrun, hread _ _ _, hread _ _ _,
    ?_, hread _ _ _, hread _ _ _, hread _ _ _, hread _ _ _, fun _ h => nomatch h⟩
  exact fun id a => (accounts_grammarModify id _).next fun _ => accounts_pure _

theorem accounts_pieceMethods (hrun : run.Accounts calls) :
    ∀ m ∈ pieceMethods, m.Accounts calls run := by
  have hread := @accounts_grammarReader calls run hrun
  simp only [pieceMethods, List.forall_mem_cons]
  exact ⟨hread _ _ _, hread _ _ _, hread _ _ _, hread _ _ _, hread _ _ _, hread _ _ _,
    hread _ _ _, hread _ _ _, hread _ _ _, hread _ _ _, hread _ _ _, hread _ _ _, hread _ _ _,
    hread _ _ _, hread _ _ _, fun _ h => nomatch h⟩

theorem accounts_insertIgnoring (hrun : run.Accounts calls) :
    insertIgnoringMethod.Accounts calls run := by
  intro id a
  refine (accounts_grammarRead id).next fun g => ?_
  dsimp only
  split
  · exact accounts_throw _
  · exact accounts_statementWriter hrun _ _ _ id a

theorem accounts_wheres (hrun : run.Accounts calls) : wheresMethod.Accounts calls run := by
  intro id a
  refine (accounts_now _).next fun wheres => ?_
  split
  · exact accounts_statementWriter hrun _ _ _ id a
  · split
    · exact (accounts_ofExcept _).next fun _ => accounts_get.next fun _ => accounts_throw _
    · exact accounts_pure _

theorem accounts_statementMethods (hrun : run.Accounts calls) :
    ∀ m ∈ statementMethods, m.Accounts calls run := by
  have hwrite := @accounts_statementWriter calls run hrun
  simp only [statementMethods, List.forall_mem_cons]
  exact ⟨hwrite _ _ _, hwrite _ _ _, hwrite _ _ _, accounts_insertIgnoring hrun, hwrite _ _ _,
    hwrite _ _ _, hwrite _ _ _, hwrite _ _ _, hwrite _ _ _, accounts_wheres hrun,
    fun _ h => nomatch h⟩

theorem accounts_grammarMethods (hrun : run.Accounts calls) (g : Grammar) :
    ∀ m ∈ setMethod :: grammarMethods g, m.Accounts calls run := by
  refine List.forall_mem_cons.2 ⟨fun id a => ?_, ?_⟩
  · unfold setMethod
    dsimp only
    split
    · exact (accounts_grammarModify id _).next fun _ => accounts_pure _
    · exact accounts_pure _
  · unfold grammarMethods
    split
    · exact accounts_nameMethods hrun
    · simp only [List.forall_mem_append]
      exact ⟨⟨accounts_nameMethods hrun, accounts_pieceMethods hrun⟩,
        accounts_statementMethods hrun⟩

end FluentSql
