import FluentSql.Proofs.Accounting.Ledger
import FluentSql.Proofs.Building.Data
import FluentSql.Proofs.Edits.Basic

/-!
# Actions and the ledger

Whatever an action does to the ledger of a store is a list of events, of which
only the last may be what the action fails with.  Logs are switched and
emptied only where a script calls the methods that do so.

There are three groups.

* `Store.ledger` is the ledger of a store.
* `Call.methods` are the methods that a call names, and `Store.CallsOnly` is
  about those that the callbacks of a store name.
* `Action.Accounts` says that an action does to the ledger what some events do.
  It is kept by the ways in which actions are put together.
-/

namespace FluentSql

/-! ## The ledger of a store -/

/-- The journal of a connection. -/
def Connection.journal (c : Connection) : Journal :=
  ⟨c.engine, c.logging, c.queryLog⟩

namespace Store

/-- The ledger of a store. -/
def ledger (s : Store) : Ledger :=
  ⟨s.connections.map Connection.journal, s.sent⟩

theorem size_ledger (s : Store) : s.ledger.journals.size = s.connections.size :=
  Array.size_map

theorem journal_ledger (s : Store) (c : ConnectionId) :
    s.ledger.journal c = (s.connection c).journal := by
  unfold ledger Ledger.journal connection
  rw [Array.getElem?_map]
  cases s.connections[c.index]? <;> rfl

/-- A change of a connection changes its journal. -/
theorem ledger_modify (s : Store) (c : ConnectionId) {f : Connection → Connection}
    {g : Journal → Journal} (h : ∀ c, (f c).journal = g c.journal) :
    ({ s with connections := s.connections.modify c.index f } : Store).ledger =
      s.ledger.modify c g := by
  unfold ledger Ledger.modify
  congr 1
  refine Array.ext (by simp only [Array.size_map, Array.size_modify]) fun i hi hi' => ?_
  simp only [Array.getElem_map, Array.getElem_modify]
  split
  · exact h _
  · rfl

end Store

/-! ## The methods that scripts name -/

mutual

/-- The methods that an argument names, those of the scripts in it among them. -/
def Argument.methods : Argument → List String
  | .list items | .tuple items => Argument.methodsOfAll items
  | .map entries => Argument.methodsOfEntries entries
  | .raw value | .json value | .extra _ value => value.methods
  | .callback steps result => Call.methodsOfAll steps ++ result.methods
  | .query steps | .queryOf _ _ steps => Call.methodsOfAll steps
  | _ => []

/-- The methods that some arguments name. -/
def Argument.methodsOfAll : List Argument → List String
  | [] => []
  | argument :: items => argument.methods ++ Argument.methodsOfAll items

/-- The methods that the entries of a map name. -/
def Argument.methodsOfEntries : List (Argument × Argument) → List String
  | [] => []
  | (key, value) :: entries => key.methods ++ (value.methods ++ Argument.methodsOfEntries entries)

/-- The methods that arguments by name name. -/
def Argument.methodsOfNamed : List (String × Argument) → List String
  | [] => []
  | (_, argument) :: named => argument.methods ++ Argument.methodsOfNamed named

/-- The methods that a call names: its own and those of its arguments. -/
def Call.methods : Call → List String
  | .mk method _ arguments named _ =>
    method :: (Argument.methodsOfAll arguments ++ Argument.methodsOfNamed named)

/-- The methods that some calls name. -/
def Call.methodsOfAll : List Call → List String
  | [] => []
  | call :: calls => call.methods ++ Call.methodsOfAll calls

end

/-- The methods that a callback names. -/
def Callback.methods (callback : Callback) : List String :=
  Call.methodsOfAll callback.steps ++ callback.result.methods

/-- The methods that the callbacks of a store name. -/
def Store.callbackMethods (s : Store) : List String :=
  s.callbacks.toList.flatMap Callback.methods

/-- The callbacks of a store name methods of some kind only. -/
def Store.CallsOnly (calls : String → Prop) (s : Store) : Prop :=
  ∀ callback ∈ s.callbacks, ∀ name ∈ callback.methods, calls name

theorem Store.callsOnly_of_callbacks {calls : String → Prop} {s s' : Store}
    (h : s'.callbacks = s.callbacks) (hs : s.CallsOnly calls) : s'.CallsOnly calls := by
  unfold CallsOnly
  rwa [h]

/-! ## Running actions one after another -/

section

variable {α β : Type} {a : Action α} {f : α → Action β} {s s1 : Store}

theorem Action.runOn_bind_ok {v : α} (h : a.runOn s = (.ok v, s1)) :
    (a >>= f).runOn s = (f v).runOn s1 := by
  rw [Action.runOn_bind, h]

theorem Action.runOn_bind_error {e : Failure} (h : a.runOn s = (.error e, s1)) :
    (a >>= f).runOn s = (.error e, s1) := by
  rw [Action.runOn_bind, h]

theorem Action.get_runOn (s : Store) : (get : Action Store).runOn s = (.ok s, s) := rfl

end

/-! ## Actions that account for what they do -/

/-- The failure of a result. -/
def failureOf {α : Type} : Except Failure α → Option Failure
  | .error e => some e
  | .ok _ => none

/-- The events lead from one ledger to another in a call with an outcome, and logs are switched and
emptied by methods of some kind only. -/
structure Ledger.Explains (calls : String → Prop) (l : Ledger) (outcome : Option Failure)
    (events : List Event) (l' : Ledger) : Prop where
  passes : l.Passes events l'
  ends : Event.Ends outcome events
  called : ∀ e ∈ events, ∀ name ∈ e.method?, calls name

/-- What the action does to the ledger is explained by events, whether it succeeds or fails. -/
def Action.Accounts {α : Type} (calls : String → Prop) (a : Action α) : Prop :=
  ∀ s, s.CallsOnly calls → (a.runOn s).2.CallsOnly calls ∧
    ∃ events, s.ledger.Explains calls (failureOf (a.runOn s).1) events (a.runOn s).2.ledger

/-- Callbacks account for what they do. -/
def Runner.Accounts (calls : String → Prop) (run : Runner) : Prop :=
  ∀ callback q extra, (run callback q extra).Accounts calls

section Combinators

variable {calls : String → Prop} {α β : Type} {a : Action α} {f : α → Action β}

theorem Ledger.Explains.refl (l : Ledger) (outcome : Option Failure) :
    l.Explains calls outcome [] l :=
  ⟨rfl, trivial, fun _ h => nomatch h⟩

theorem Ledger.Explains.trans {l l' l'' : Ledger} {outcome : Option Failure}
    {events events' : List Event} (h : l.Explains calls none events l')
    (h' : l'.Explains calls outcome events' l'') :
    l.Explains calls outcome (events ++ events') l'' :=
  ⟨h.passes.append h'.passes, Event.ends_append h.ends h'.ends,
    List.forall_mem_append.2 ⟨h.called, h'.called⟩⟩

/-- One event. -/
theorem Ledger.Explains.single {l : Ledger} {outcome : Option Failure} {e : Event} (h : e.Fits l)
    (hends : e.failure? = none ∨ e.failure? = outcome)
    (hcalled : ∀ name ∈ e.method?, calls name) :
    l.Explains calls outcome [e] (e.apply l) :=
  ⟨.single h, Event.ends_singleton hends, List.forall_mem_singleton.2 hcalled⟩

/-- An action that leaves the ledger and the callbacks alone, whether it succeeds or fails. -/
theorem accounts_quiet (h : ∀ s, (a.runOn s).2.ledger = s.ledger)
    (hcallbacks : ∀ s, (a.runOn s).2.callbacks = s.callbacks) : a.Accounts calls := by
  refine fun s hs => ⟨Store.callsOnly_of_callbacks (hcallbacks s) hs, [], ?_⟩
  rw [h]
  exact .refl _ _

theorem accounts_pure (v : α) : (pure v : Action α).Accounts calls :=
  accounts_quiet (fun _ => rfl) fun _ => rfl

theorem accounts_throw (e : Failure) : (throw e : Action α).Accounts calls :=
  accounts_quiet (fun _ => rfl) fun _ => rfl

theorem accounts_ofExcept (r : Except Failure α) : (Action.ofExcept r).Accounts calls :=
  accounts_quiet (fun _ => rfl) fun _ => rfl

theorem accounts_get : (get : Action Store).Accounts calls :=
  accounts_quiet (fun _ => rfl) fun _ => rfl

theorem Action.Accounts.next (ha : a.Accounts calls) (hf : ∀ v, (f v).Accounts calls) :
    (a >>= f).Accounts calls := by
  intro s hs
  rw [Action.runOn_bind]
  obtain ⟨hcalls, events, hevents⟩ := ha s hs
  cases hr : (a.runOn s).1 with
  | error e =>
    rw [hr] at hevents
    exact ⟨hcalls, events, hevents⟩
  | ok v =>
    rw [hr] at hevents
    obtain ⟨hcalls', events', hevents'⟩ := hf v _ hcalls
    exact ⟨hcalls', events ++ events', hevents.trans hevents'⟩

theorem Action.Accounts.map (ha : a.Accounts calls) (g : α → β) : (g <$> a).Accounts calls := by
  rw [map_eq_pure_bind]
  exact ha.next fun v => accounts_pure (g v)

theorem Action.Accounts.discard (ha : a.Accounts calls) : (discard a).Accounts calls :=
  ha.map _

theorem accounts_returning (ha : a.Accounts calls) (g : α → β) :
    Action.Accounts calls (do return g (← a)) :=
  ha.next fun _ => accounts_pure _

theorem accounts_forM {xs : List α} {f : α → Action PUnit}
    (h : ∀ x ∈ xs, (f x).Accounts calls) : (xs.forM f).Accounts calls := by
  induction xs with
  | nil => exact accounts_pure _
  | cons x xs ih =>
    show Action.Accounts calls (f x >>= fun _ => xs.forM f)
    exact (h x List.mem_cons_self).next fun _ => ih fun y hy => h y (List.mem_cons_of_mem x hy)

theorem accounts_mapM {xs : List α} {f : α → Action β} (h : ∀ x ∈ xs, (f x).Accounts calls) :
    (xs.mapM f).Accounts calls := by
  induction xs with
  | nil => exact accounts_pure _
  | cons x xs ih =>
    rw [List.mapM_cons]
    exact (h x List.mem_cons_self).next fun _ =>
      (ih fun y hy => h y (List.mem_cons_of_mem x hy)).next fun _ => accounts_pure _

theorem accounts_forIn {xs : List α} {f : α → Action (ForInStep PUnit)}
    (h : ∀ x, (f x).Accounts calls) :
    Action.Accounts calls (forIn xs PUnit.unit fun x _ => f x) := by
  induction xs with
  | nil => exact accounts_pure _
  | cons x xs ih =>
    rw [List.forIn_cons]
    refine (h x).next fun step => ?_
    cases step with
    | done => exact accounts_pure _
    | yield => exact ih

theorem accounts_foldlM {xs : List α} {f : β → α → Action β}
    (h : ∀ found, ∀ x ∈ xs, (f found x).Accounts calls) (found : β) :
    (xs.foldlM f found).Accounts calls := by
  induction xs generalizing found with
  | nil => exact accounts_pure _
  | cons x xs ih =>
    rw [List.foldlM_cons]
    exact (h found x List.mem_cons_self).next
      (ih fun found y hy => h found y (List.mem_cons_of_mem x hy))

end Combinators

/-! ## Primitive actions -/

section Primitives

variable {calls : String → Prop}

theorem accounts_edit (t : QueryId) (f : Query → Query) : (t.modify f).Accounts calls :=
  accounts_quiet (fun _ => rfl) fun _ => rfl

theorem accounts_create (q : Query) : q.create.Accounts calls :=
  accounts_quiet (fun _ => rfl) fun _ => rfl

theorem accounts_writeLog (record : LogRecord) : record.write.Accounts calls :=
  accounts_quiet (fun _ => rfl) fun _ => rfl

theorem accounts_grammarModify (id : GrammarId) (f : Grammar → Grammar) :
    (id.modify f).Accounts calls :=
  accounts_quiet (fun _ => rfl) fun _ => rfl

theorem accounts_resolverModify (id : ResolverId) (f : Resolver → Resolver) :
    (id.modify f).Accounts calls :=
  accounts_quiet (fun _ => rfl) fun _ => rfl

/-- A change of a connection beside its journal. -/
theorem accounts_connectionModify (id : ConnectionId) {f : Connection → Connection}
    (h : ∀ c, (f c).journal = c.journal) : (id.modify f).Accounts calls := by
  refine accounts_quiet (fun s => ?_) fun _ => rfl
  show ({ s with connections := s.connections.modify id.index f } : Store).ledger = s.ledger
  rw [s.ledger_modify id (g := fun j => j) h, Ledger.modify_same]

/-- New connections, with empty logs or with the journals of others. -/
theorem Ledger.opens {l : Ledger} {js : List Journal}
    (h : ∀ j ∈ js, j.entries = [] ∨ ∃ c : ConnectionId, c.index < l.journals.size ∧ j = l.journal c)
    (outcome : Option Failure) :
    ∃ events, l.Explains calls outcome events { l with journals := l.journals ++ js.toArray } := by
  induction js generalizing l with
  | nil =>
    refine ⟨[], ?_⟩
    rw [Array.append_empty]
    exact .refl l outcome
  | cons j js ih =>
    obtain ⟨hhead, htail⟩ := List.forall_mem_cons.1 h
    have hfits : Event.Fits l (.opened ⟨l.journals.size⟩ j) :=
      ⟨rfl, hhead.imp_right fun ⟨c, _, hj⟩ => ⟨c, hj⟩⟩
    obtain ⟨events, hevents⟩ := ih (l := { l with journals := l.journals.push j }) fun j' hj' => by
      refine (htail j' hj').imp_right fun ⟨c, hc, hj⟩ => ⟨c, ?_, ?_⟩
      · rw [Array.size_push]
        omega
      · unfold journal
        rw [Array.getElem?_push, if_neg (Nat.ne_of_lt hc)]
        exact hj
    have hopened : l.Explains calls none [.opened ⟨l.journals.size⟩ j] _ :=
      .single hfits (.inl rfl) fun _ hname => nomatch hname
    refine ⟨.opened ⟨l.journals.size⟩ j :: events, ?_⟩
    have hall := hopened.trans hevents
    have hjournals : l.journals.push j ++ js.toArray = l.journals ++ (j :: js).toArray := by simp
    rwa [hjournals] at hall

/-- A new connection, whose log is empty. -/
theorem accounts_open {c : Connection} (h : c.queryLog = []) : c.create.Accounts calls := by
  refine fun s hs => ⟨hs, ?_⟩
  have hledger : (c.create.runOn s).2.ledger =
      { s.ledger with journals := s.ledger.journals ++ [c.journal].toArray } := by
    show (⟨(s.connections.push c).map Connection.journal, s.sent⟩ : Ledger) = _
    rw [Array.map_push, Array.push_eq_append]
    rfl
  rw [hledger]
  exact Ledger.opens (List.forall_mem_singleton.2 (.inl h)) _

/-- A copy of a query, which may copy connections that the query refers to. -/
theorem accounts_copy (q : QueryId) : q.copy.Accounts calls := by
  intro s hs
  have hcopied : (q.copy.runOn s).2 = s ∨ ∃ handles, (q.copy.runOn s).2 = s.addCopies handles := by
    unfold QueryId.copy
    rw [Action.runOn_bind_ok (Action.get_runOn s)]
    dsimp only
    split
    · exact .inl rfl
    · exact .inr ⟨_, rfl⟩
  obtain hsame | ⟨handles, hcopies⟩ := hcopied
  · rw [hsame]
    exact ⟨hs, [], .refl _ _⟩
  · have hledger : (s.addCopies handles).ledger =
        { s.ledger with
          journals := s.ledger.journals ++
            ((Store.connectionsIn handles).map fun id => (s.connection id).journal).toArray } := by
      unfold Store.ledger Store.addCopies
      simp [Connection.journal, Function.comp_def]
    rw [hcopies, hledger]
    refine ⟨hs, Ledger.opens (fun j hj => ?_) _⟩
    obtain ⟨id, _, rfl⟩ := List.mem_map.1 hj
    rw [← s.journal_ledger]
    by_cases hlt : id.index < s.ledger.journals.size
    · exact .inr ⟨id, hlt, rfl⟩
    · exact .inl (by rw [Ledger.journal_of_le (Nat.le_of_not_lt hlt)])

/-- A change of a journal by a method, in a connection that there is. -/
theorem accounts_journal (id : ConnectionId) {f : Connection → Connection}
    {g : Journal → Journal} {e : Event} {name : String} (hf : ∀ c, (f c).journal = g c.journal)
    (hfits : ∀ l : Ledger, id.index < l.journals.size → e.Fits l)
    (happly : ∀ l, e.apply l = l.modify id g) (hfailure : e.failure? = none)
    (hname : e.method? = some name) (hcalls : calls name) : (id.modify f).Accounts calls := by
  intro s hs
  have hledger : ((id.modify f).runOn s).2.ledger = s.ledger.modify id g := s.ledger_modify id hf
  refine ⟨hs, ?_⟩
  rw [hledger]
  by_cases hlt : id.index < s.connections.size
  · refine ⟨[e], happly s.ledger ▸ .single (hfits _ (s.size_ledger ▸ hlt)) (.inl hfailure) ?_⟩
    rw [hname]
    rintro _ ⟨⟩
    exact hcalls
  · rw [Ledger.modify_of_le (s.size_ledger ▸ Nat.le_of_not_lt hlt)]
    exact ⟨[], .refl _ _⟩

theorem accounts_setLogging (id : ConnectionId) (logging : Bool)
    (h : calls (if logging then "enable_query_log" else "disable_query_log")) :
    (id.setLogging logging).Accounts calls :=
  accounts_journal id (e := .switched id logging) (g := fun j => { j with logging })
    (fun _ => rfl) (fun _ hlt => hlt) (fun _ => rfl) rfl (by cases logging <;> rfl) h

theorem accounts_flushQueryLog (id : ConnectionId) (h : calls "flush_query_log") :
    id.flushQueryLog.Accounts calls :=
  accounts_journal id (e := .flushed id) (g := fun j => { j with entries := [] })
    (fun _ => rfl) (fun _ hlt => hlt) (fun _ => rfl) rfl rfl h

end Primitives

end FluentSql
