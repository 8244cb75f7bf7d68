import FluentSql.Proofs.Building.SelectList
import FluentSql.Proofs.Operators.Basic
import FluentSql.Proofs.Regular

/-!
# Comparisons of columns

Two columns are compared in a condition of a query, in a condition of a join,
or in a join that is made for it.  A word between them that is no operator is
taken for the second column, and the second column is lost.

* `ColumnCall` are the calls that compare two columns, and
  `ColumnCall.perform_runOn` is all that one of them does.
* `columnComparison_keeps_iff` is the result: both columns are kept only if the
  query knows the operator.
-/

namespace FluentSql

/-- A value that names one column: no list or map of conditions, and no object. -/
def Value.isColumn : Value → Bool
  | .list _ | .tuple _ | .map _ | .object _ => false
  | _ => true

/-- A call that compares two columns, without the columns and the operator. -/
inductive ColumnCall where
  /-- Adds a condition to the query. -/
  | condition (boolean : Value)
  /-- Adds a condition to a join. -/
  | on (boolean : Value)
  /-- Joins a table. -/
  | join (table type : Value)

namespace ColumnCall

/-- Makes a call. -/
def perform (run : Runner) (q : QueryId) (first operator second : Value) :
    ColumnCall → Action Unit
  | condition boolean => q.whereColumn run first operator second boolean
  | on boolean => q.on run first operator second boolean
  | join table type => q.join run table first operator second type false

/-- The join condition that a call makes, with its conditions. -/
def newJoin (query : Query) (table type : Value) (wheres : List Condition) : Query :=
  { kind := .join type table, connection := query.connection, grammar := query.grammar, wheres }

/-- The store to which a call has added a condition. -/
def added (s : Store) (q : QueryId) (body : Where) : ColumnCall → Store
  | condition boolean | on boolean => s.edit q (·.addWhere boolean body)
  | join table type =>
    (s.add (newJoin (s.query q) table type [⟨.text "and", body⟩])).edit q fun query =>
      { query with joins := query.joins ++ [s.next] }

/-- The store that a call leaves when it is rejected. -/
def rejected (s : Store) (q : QueryId) : ColumnCall → Store
  | condition _ | on _ => s
  | join table type => s.add (newJoin (s.query q) table type [])

section

variable {run : Runner} {q : QueryId} {s : Store} {first : Value}

theorem whereColumn_runOn (hfirst : first.isColumn) (q : QueryId) (operator second boolean : Value)
    (s : Store) : (q.whereColumn run first operator second boolean).runOn s =
      match s.columnPair q first operator second with
      | .ok body => (.ok (), s.edit q (·.addWhere boolean body))
      | .error e => (.error e, s) := by
  have hsingle : (q.whereColumn run first operator second boolean).runOn s =
      (q.whereColumnSingle first operator second boolean).runOn s := by
    cases first <;> first | rfl | exact nomatch hfirst
  exact hsingle.trans (whereColumnSingle_runOn q first operator second boolean s)

theorem on_runOn (hfirst : first.isColumn) (q : QueryId) (operator second boolean : Value)
    (s : Store) : (q.on run first operator second boolean).runOn s =
      match s.columnPair q first operator second with
      | .ok body => (.ok (), s.edit q (·.addWhere boolean body))
      | .error e => (.error e, s) := by
  have hcallable : first.isCallable = false := by
    cases first <;> first | rfl | exact nomatch hfirst
  unfold QueryId.on
  rw [hcallable]
  exact whereColumn_runOn hfirst q operator second boolean s

/-- A join condition is attached with its values, of which a comparison of columns has none. -/
theorem attachJoin_runOn (hq : q.index < s.queries.size) {join : Query}
    (hbindings : join.bindings = {}) :
    (q.attachJoin s.next).runOn (s.add join) = (.ok (), (s.add join).edit q fun query =>
      { query with joins := query.joins ++ [s.next] }) := by
  have hne : s.next ≠ q := fun heq => absurd hq (heq ▸ Nat.lt_irrefl _)
  have hnone : (((s.add join).edit q fun query =>
      { query with joins := query.joins ++ [s.next] }).query s.next).bindings.flatten = [] := by
    rw [Store.query_edit_of_ne hne, Store.query_add_next, hbindings]
    rfl
  show Ran (q.attachJoin s.next) (s.add join) () _
  unfold QueryId.attachJoin QueryId.bindings QueryId.bind
  simp only [ran_bind, ran_modify, ran_read, ran_pure]
  refine ⟨(), _, rfl, [], _, ⟨_, _, ⟨rfl, rfl⟩, hnone.symm, rfl⟩, ?_⟩
  rw [Store.edit_edit]
  exact congrArg (Store.edit _ q) (funext fun query => (Query.bind_nil _ _).symm)

/-- A call adds the one condition and nothing else, or is rejected. -/
theorem perform_runOn (hq : q.index < s.queries.size) (hfirst : first.isColumn)
    (operator second : Value) (call : ColumnCall) :
    (call.perform run q first operator second).runOn s =
      match s.columnPair q first operator second with
      | .ok body => (.ok (), call.added s q body)
      | .error e => (.error e, call.rejected s q) := by
  cases call with
  | condition boolean => exact whereColumn_runOn hfirst q operator second boolean s
  | on boolean => exact on_runOn hfirst q operator second boolean s
  | join table type =>
    have hcallable : first.isCallable = false := by
      cases first <;> first | rfl | exact nomatch hfirst
    have hpair : (s.add (newJoin (s.query q) table type [])).columnPair s.next first operator
        second = s.columnPair q first operator second := by
      unfold Store.columnPair Store.isOperator
      rw [Store.query_add_next]
      rfl
    show (q.join run table first operator second type false).runOn s = _
    unfold QueryId.join
    rw [Action.runOn_bind]
    show Action.runOn _ (s.add (newJoin (s.query q) table type [])) = _
    rw [hcallable]
    show Action.runOn (s.next.on run first operator second (.text "and") >>= _) _ = _
    rw [Action.runOn_bind, on_runOn hfirst, hpair]
    cases s.columnPair q first operator second with
    | error e => rfl
    | ok body =>
      dsimp only
      rw [Store.edit_add]
      exact attachJoin_runOn hq rfl

theorem added_injective (hq : q.index < s.queries.size) (call : ColumnCall) {body body' : Where}
    (h : call.added s q body = call.added s q body') : body = body' := by
  have hadded : ∀ boolean, s.edit q (·.addWhere boolean body) = s.edit q (·.addWhere boolean body') →
      body = body' := by
    intro boolean heq
    have hquery := congrArg (fun t : Store => (t.query q).wheres) heq
    simp only [Store.query_edit_self hq, Query.addWhere, List.append_cancel_left_eq] at hquery
    exact congrArg Condition.body (List.head_eq_of_cons_eq hquery)
  cases call with
  | condition boolean => exact hadded boolean h
  | on boolean => exact hadded boolean h
  | join table type =>
    have hne : s.next ≠ q := fun heq => absurd hq (heq ▸ Nat.lt_irrefl _)
    have hquery := congrArg (fun t : Store => (t.query s.next).wheres) h
    simp only [added, Store.query_edit_of_ne hne, Store.query_add_next, newJoin] at hquery
    exact congrArg Condition.body (List.head_eq_of_cons_eq hquery)

/-- A call adds the comparison of both columns with the operator in lower case, or is rejected for an
argument. -/
def Keeps (run : Runner) (s : Store) (q : QueryId) (first : Value) (word : String)
    (second : Value) (call : ColumnCall) : Prop :=
  (call.perform run q first (.text word) second).runOn s =
      (.ok (), call.added s q (.columnPair first (Text.lower word) second)) ∨
    ∃ fault, ((call.perform run q first (.text word) second).runOn s).1 = .error (.argument fault)

/-- A word that is no operator is compared with the first column. -/
theorem perform_unknown (hq : q.index < s.queries.size) (hfirst : first.isColumn) {word : String}
    (h : s.isOperator q word = .ok false) (second : Value) (call : ColumnCall) :
    (call.perform run q first (.text word) second).runOn s =
      (.ok (), call.added s q (.columnPair first "=" (.text word))) := by
  rw [call.perform_runOn hq hfirst, Store.columnPair_unknown h]

/-- The clause that is added then is another one, as the word is not equality. -/
theorem not_keeps_of_unknown (hq : q.index < s.queries.size) (hfirst : first.isColumn)
    {word : String} (h : s.isOperator q word = .ok false) (second : Value) (call : ColumnCall) :
    ¬call.Keeps run s q first word second := by
  unfold Keeps
  rw [perform_unknown hq hfirst h]
  rintro (hkept | ⟨fault, hfault⟩)
  · have hbody := call.added_injective hq (congrArg Prod.snd hkept)
    have hequality : "=" = Text.lower word := (Where.columnPair.inj hbody).2.1
    have hcommon : s.isOperator q word = .ok true :=
      Store.isOperator_common (hequality ▸ (by decide))
    exact absurd (h.symm.trans hcommon) nofun
  · exact nomatch hfault

end

end ColumnCall

/-- A grammar that cannot be asked for its operators is no matter of arguments. -/
theorem Store.isOperator_ne_argument {s : Store} {q : QueryId} {word : String}
    (fault : ArgumentFault) : s.isOperator q word ≠ .error (.argument fault) := by
  unfold Store.isOperator FluentSql.isOperator Store.operatorsOf Store.grammarFor
  split
  · exact nofun
  · split
    · dsimp only
      split <;> exact nofun
    · exact nofun
    · exact nofun

/-- A comparison of two columns keeps both of them only if the query knows the operator.  A word that
is no operator is itself compared with the first column, and what was given as the second one is
lost. -/
theorem columnComparison_keeps_iff (run : Runner) (call : ColumnCall) {s : Store} {q : QueryId}
    (hq : q.index < s.queries.size) {first second : Value} (hfirst : first.isColumn)
    (hsecond : second.isNull = false) (word : String) :
    (call.Keeps run s q first word second ↔ s.isOperator q word = .ok true) ∧
      (s.isOperator q word = .ok false → (call.perform run q first (.text word) second).runOn s =
        (.ok (), call.added s q (.columnPair first "=" (.text word)))) ∧
      ∀ e, s.isOperator q word = .error e →
        (call.perform run q first (.text word) second).runOn s = (.error e, call.rejected s q) := by
  have hrun : (call.perform run q first (.text word) second).runOn s = _ :=
    call.perform_runOn hq hfirst (.text word) second
  have herror : ∀ e, s.isOperator q word = .error e →
      (call.perform run q first (.text word) second).runOn s = (.error e, call.rejected s q) := by
    intro e h
    rw [hrun, Store.columnPair_error h]
  refine ⟨⟨fun hkeeps => ?_, fun h => .inl ?_⟩, fun h => call.perform_unknown hq hfirst h second,
    herror⟩
  · cases h : s.isOperator q word with
    | error e =>
      unfold ColumnCall.Keeps at hkeeps
      rw [herror e h] at hkeeps
      obtain hkept | ⟨fault, hfault⟩ := hkeeps
      · exact nomatch congrArg Prod.fst hkept
      · exact absurd (h.trans (congrArg _ (Except.error.inj hfault)))
          (Store.isOperator_ne_argument fault)
    | ok known =>
      cases known with
      | true => rfl
      | false => exact absurd hkeeps (call.not_keeps_of_unknown hq hfirst h second)
  · rw [hrun, Store.columnPair_known h hsecond]

/-- A join on an equality keeps both of its columns. -/
theorem columnComparison_keeps_iff_join :
    (ColumnCall.join (.text "contacts") (.text "inner")).Keeps Runner.idle (Store.ofTable "users") ⟨0⟩
      (.text "users.id") "=" (.text "contacts.user_id") :=
  (@columnComparison_keeps_iff Runner.idle (.join (.text "contacts") (.text "inner"))
    (Store.ofTable "users") ⟨0⟩ (by decide) (.text "users.id") (.text "contacts.user_id") rfl rfl
    "=").1.2 (Store.isOperator_common (by decide +kernel))

/-- A mistyped operator takes the place of the second column, without a failure. -/
theorem columnComparison_loses_column :
    ¬(ColumnCall.condition (.text "and")).Keeps Runner.idle (Store.ofTable "users") ⟨0⟩
        (.text "id") "==" (.text "owner") ∧
      (((ColumnCall.condition (.text "and")).perform Runner.idle ⟨0⟩ (.text "id") (.text "==")
        (.text "owner")).runOn (Store.ofTable "users")).2.selectSql ⟨0⟩ =
          .ok "select * from \"users\" where \"id\" = \"==\"" := by
  have hunknown : (Store.ofTable "users").isOperator ⟨0⟩ "==" = .ok false := rfl
  have hq : (⟨0⟩ : QueryId).index < (Store.ofTable "users").queries.size := by decide
  refine ⟨ColumnCall.not_keeps_of_unknown hq rfl hunknown _ _, ?_⟩
  rw [ColumnCall.perform_unknown hq rfl hunknown]
  rfl

end FluentSql
