import FluentSql.Proofs.Accounting.Methods
import FluentSql.Script.Session

/-!
# Scripts and the ledger

Whatever a script calls accounts for what it does.  Logs are switched and
emptied only if the call itself, or a callback that there is, names the methods
that do so.

* `accounts_callObject` is about a call with evaluated arguments.
* `Interpreter.Accounts` is about what evaluates arguments and performs calls.
  One depth of the interpreter follows from the one below.
* `Interpreter.accounts` is the result.
-/

namespace FluentSql

variable {calls : String → Prop} {run : Runner}

/-! ## Calls -/

theorem accounts_methodCall {α : Type} {m : Method α} (hm : m.Accounts calls run) (target : α)
    (placed : List Value) (named : List (String × Value)) :
    (m.call run target placed named).Accounts calls :=
  (accounts_ofExcept _).next fun a => hm target a

theorem accounts_callMethod {α : Type} {methods : List (Method α)} {name : String}
    (hmethods : ∀ m ∈ methods, m.name = name → m.Accounts calls run) (attributes : List String)
    (target : α) (placed : List Value) (named : List (String × Value)) :
    (callMethod methods attributes run target name placed named).Accounts calls := by
  unfold callMethod
  split
  · rename_i m hfind
    have hname : m.name = name := by simpa using List.find?_some hfind
    have hm := hmethods m (List.mem_of_find?_eq_some hfind) hname
    exact accounts_methodCall hm target placed named
  · exact accounts_throw _

theorem accounts_callExtension (hrun : run.Accounts calls) (q : QueryId) (name : String)
    (placed : List Value) (named : List (String × Value)) :
    (callExtension run q name placed named).Accounts calls := by
  unfold callExtension
  dsimp only
  split
  · exact accounts_throw _
  · refine accounts_get.next fun s => ?_
    split
    · exact accounts_throw _
    · exact accounts_extension hrun q name placed

theorem accounts_callQuery (hrun : run.Accounts calls) (q : QueryId) (name : String)
    (placed : List Value) (named : List (String × Value)) :
    (callQuery run q name placed named).Accounts calls := by
  have hother : ∀ attributes : List String, Action.Accounts calls
      (if attributes.contains name then throw .wrongType
        else callExtension run q name placed named) := by
    intro attributes
    split
    · exact accounts_throw _
    · exact accounts_callExtension hrun q name placed named
  refine accounts_get.next fun s => ?_
  dsimp only
  split
  · rename_i m hfind
    have hmem := List.mem_of_find?_eq_some hfind
    refine accounts_methodCall ?_ q placed named
    rw [List.cons_append, List.mem_cons, List.mem_append] at hmem
    rcases hmem with rfl | hmem | hmem
    · exact fun _ _ => accounts_pure _
    · exact accounts_queryMethods hrun m (List.mem_append_left _ hmem)
    · split at hmem
      · exact accounts_queryMethods hrun m (List.mem_append_right _ hmem)
      · exact nomatch hmem
  · exact hother _

theorem accounts_callObject (hrun : run.Accounts calls) (target : Value) {name : String}
    (hname : calls name) (placed : List Value) (named : List (String × Value)) :
    (callObject run target name placed named).Accounts calls := by
  unfold callObject
  split
  · exact accounts_callQuery hrun _ name placed named
  · refine (accounts_grammarRead _).next fun g => ?_
    exact accounts_callMethod (fun m hm _ => accounts_grammarMethods hrun g m hm) _ _ placed named
  · exact accounts_callMethod
      (fun m hm heq => accounts_connectionMethods hrun m hm (heq ▸ hname)) _ _ placed named
  · exact accounts_callMethod (fun m hm _ => accounts_resolverMethods m hm) _ _ placed named
  · exact accounts_callMethod (fun m hm _ => accounts_extensionMethods hrun m hm) _ _ placed named
  · exact accounts_callMethod (List.forall_mem_singleton.2 fun _ _ _ => accounts_pure _)
      _ _ placed named
  · exact accounts_throw _

/-! ## The parts of a call -/

theorem accounts_scopeRegister (scope : Scope) (name : String) :
    (scope.register name).Accounts calls := by
  refine accounts_get.next fun s => ?_
  split
  · exact accounts_pure _
  · exact accounts_throw _

theorem accounts_target (scope : Scope) (name : Option String) :
    (scope.target name).Accounts calls := by
  unfold Scope.target
  split
  · exact accounts_scopeRegister scope _
  · exact accounts_pure _
  · exact accounts_scopeRegister scope _

theorem accounts_setRegister (name : String) (value : Value) :
    (setRegister name value).Accounts calls :=
  accounts_quiet (fun _ => rfl) fun _ => rfl

theorem accounts_jsonFragment (v : Value) : (jsonFragment v).Accounts calls := by
  unfold jsonFragment
  split
  · exact accounts_pure _
  · exact accounts_get.next fun _ => accounts_throw _

theorem accounts_scriptQuery (scope : Scope) : (Interpreter.newQuery scope).Accounts calls := by
  refine accounts_get.next fun s => ?_
  split
  · exact accounts_connectionQuery _
  · exact (accounts_scopeRegister scope _).next fun _ => (accounts_ofExcept _).next fun _ =>
      accounts_create _

/-- A new callback, which names methods of the kind only. -/
theorem accounts_createCallback {callback : Callback} (h : ∀ name ∈ callback.methods, calls name) :
    callback.create.Accounts calls := by
  refine fun s hs => ⟨fun other hother => ?_, [], .refl _ _⟩
  obtain hold | rfl := Array.mem_push.1 hother
  · exact hs other hold
  · exact h

/-! ## What arguments and calls name -/

section

variable {α : Type} {name : String}

theorem Argument.mem_methodsOfAll {items : List Argument} {argument : Argument}
    (h : argument ∈ items) (hname : name ∈ argument.methods) : name ∈ methodsOfAll items := by
  induction items with
  | nil => exact nomatch h
  | cons first items ih =>
    obtain rfl | h := List.mem_cons.1 h
    · exact List.mem_append_left _ hname
    · exact List.mem_append_right _ (ih h)

theorem Argument.mem_methodsOfEntries {entries : List (Argument × Argument)}
    {entry : Argument × Argument} (h : entry ∈ entries)
    (hname : name ∈ entry.1.methods ∨ name ∈ entry.2.methods) :
    name ∈ methodsOfEntries entries := by
  induction entries with
  | nil => exact nomatch h
  | cons first entries ih =>
    obtain rfl | h := List.mem_cons.1 h
    · rw [methodsOfEntries, ← List.append_assoc]
      exact List.mem_append_left _ (List.mem_append.2 hname)
    · exact List.mem_append_right _ (List.mem_append_right _ (ih h))

theorem Argument.mem_methodsOfNamed {named : List (String × Argument)}
    {argument : String × Argument} (h : argument ∈ named)
    (hname : name ∈ argument.2.methods) : name ∈ methodsOfNamed named := by
  induction named with
  | nil => exact nomatch h
  | cons first named ih =>
    obtain rfl | h := List.mem_cons.1 h
    · exact List.mem_append_left _ hname
    · exact List.mem_append_right _ (ih h)

theorem Call.mem_methodsOfAll {steps : List Call} {call : Call} (h : call ∈ steps)
    (hname : name ∈ call.methods) : name ∈ methodsOfAll steps := by
  induction steps with
  | nil => exact nomatch h
  | cons first steps ih =>
    obtain rfl | h := List.mem_cons.1 h
    · exact List.mem_append_left _ hname
    · exact List.mem_append_right _ (ih h)

end

/-! ## Interpreters -/

/-- What evaluates arguments and performs calls accounts for what it does, if they name methods of
the kind only. -/
structure Interpreter.Accounts (calls : String → Prop) (i : Interpreter) : Prop where
  evaluate : ∀ scope argument, (∀ name ∈ argument.methods, calls name) →
    (i.evaluate scope argument).Accounts calls
  perform : ∀ scope call, (∀ name ∈ call.methods, calls name) →
    (i.perform scope call).Accounts calls

namespace Interpreter.Accounts

variable {i : Interpreter} (h : i.Accounts calls)

include h

theorem performAll (scope : Scope) {steps : List Call}
    (hsteps : ∀ name ∈ Call.methodsOfAll steps, calls name) :
    (i.performAll scope steps).Accounts calls :=
  accounts_forM fun call hcall => Action.Accounts.discard
    (h.perform scope call fun name hname => hsteps name (Call.mem_methodsOfAll hcall hname))

/-- Callbacks are those of the store, which name methods of the kind only. -/
theorem runner : Runner.Accounts calls i.run := by
  intro id q extra s hs
  have hran : (i.run id q extra).runOn s = _ := Action.runOn_bind_ok (Action.get_runOn s)
  rw [hran]
  split
  · exact accounts_throw _ s hs
  · rename_i callback hcallback
    have hnames := hs callback (Array.mem_of_getElem? hcallback)
    exact ((h.performAll _ fun name hname => hnames name (List.mem_append_left _ hname)).next
      fun _ => h.evaluate _ _ fun name hname => hnames name (List.mem_append_right _ hname)) s hs

theorem prepare (scope : Scope) (q : QueryId) {steps : List Call}
    (hsteps : ∀ name ∈ Call.methodsOfAll steps, calls name) :
    (i.prepare scope q steps).Accounts calls :=
  (h.performAll _ hsteps).next fun _ => accounts_pure _

theorem evaluateAll (scope : Scope) {items : List Argument}
    (hitems : ∀ name ∈ Argument.methodsOfAll items, calls name) :
    (items.mapM (i.evaluate scope)).Accounts calls :=
  accounts_mapM fun argument hargument => h.evaluate scope argument
    fun name hname => hitems name (Argument.mem_methodsOfAll hargument hname)

theorem entries (scope : Scope) {pairs : List (Argument × Argument)}
    (hpairs : ∀ name ∈ Argument.methodsOfEntries pairs, calls name) :
    (i.entries scope pairs).Accounts calls := by
  refine accounts_foldlM (fun found pair hpair => ?_) []
  have hkey := h.evaluate scope pair.1
    fun name hname => hpairs name (Argument.mem_methodsOfEntries hpair (.inl hname))
  have hvalue := h.evaluate scope pair.2
    fun name hname => hpairs name (Argument.mem_methodsOfEntries hpair (.inr hname))
  refine hkey.next fun key => hvalue.next fun value => ?_
  dsimp only
  split
  · exact accounts_throw _
  · exact accounts_pure _

/-- One case per kind of argument. -/
theorem evaluateWith (scope : Scope) (argument : Argument)
    (hnames : ∀ name ∈ argument.methods, calls name) :
    (i.evaluateWith scope argument).Accounts calls := by
  cases argument with
  | constant value => exact accounts_pure _
  | numeral digits => exact accounts_returning (accounts_ofExcept _) _
  | notNumber => exact accounts_quiet (fun _ => rfl) fun _ => rfl
  | date fields => exact accounts_ofExcept _
  | dateTime fields => exact accounts_ofExcept _
  | time fields => exact accounts_ofExcept _
  | list items => exact accounts_returning (h.evaluateAll scope hnames) _
  | tuple items => exact accounts_returning (h.evaluateAll scope hnames) _
  | map entries => exact accounts_returning (h.entries scope hnames) _
  | raw value => exact accounts_returning (h.evaluate scope value hnames) _
  | json value => exact (h.evaluate scope value hnames).next fun v => accounts_jsonFragment v
  | register name => exact accounts_scopeRegister scope name
  | extra index fallback =>
    unfold Interpreter.evaluateWith
    dsimp only
    split
    · exact accounts_pure _
    · exact h.evaluate scope fallback hnames
  | callback steps result =>
    exact accounts_returning (@accounts_createCallback calls ⟨steps, result⟩ hnames) _
  | query steps => exact (accounts_scriptQuery scope).next fun q => h.prepare scope q hnames
  | queryOf dialect tablePrefix steps =>
    exact (accounts_connect _).next fun c => (accounts_connectionQuery c).next fun q =>
      h.prepare scope q hnames
  | connection options => exact accounts_returning (accounts_connect options) _
  | settings env =>
    exact (accounts_ofExcept _).next fun settings =>
      accounts_returning (accounts_quiet (fun _ => rfl) fun _ => rfl) _

theorem performWith (scope : Scope) (call : Call) (hnames : ∀ name ∈ call.methods, calls name) :
    (i.performWith scope call).Accounts calls := by
  obtain ⟨method, target, arguments, named, result⟩ := call
  obtain ⟨hmethod, harguments⟩ := List.forall_mem_cons.1 hnames
  obtain ⟨hplaced, hnamed⟩ := List.forall_mem_append.1 harguments
  refine (accounts_target scope _).next fun object => (h.evaluateAll scope hplaced).next
    fun placed => ?_
  refine Action.Accounts.next (accounts_mapM fun argument hargument => accounts_returning
    (h.evaluate scope argument.2 fun name hname =>
      hnamed name (Argument.mem_methodsOfNamed hargument hname)) _) fun named => ?_
  refine (accounts_callObject h.runner object hmethod placed named).next fun value => ?_
  dsimp only
  split
  · exact (accounts_setRegister _ _).next fun _ => accounts_pure _
  · exact accounts_pure _

end Interpreter.Accounts

end FluentSql
