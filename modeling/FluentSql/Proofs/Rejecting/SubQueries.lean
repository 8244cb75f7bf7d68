import FluentSql.Proofs.Building.Call
import FluentSql.Proofs.Preserving
import FluentSql.Proofs.Rejecting.Basic

/-!
# Rejected calls with sub-queries

A sub-query that is written into the text of its query is compiled at once,
and its values are bound.  Some calls do this before they look at the rest of
their arguments.  When such a call is then rejected, the values stay in the
query, without the text to which they belong.

* `FluentCall.registered` are the values that a call binds while it may still
  be rejected, and `FluentCall.cleared` is what it removes first.
* `Action.Spares` is an action that leaves a query as it was if it is
  rejected; `Action.Registers` one that leaves it with some values bound.
* `rejectedCall_leaves_iff` is the result.  A join, a selected sub-query, a
  sub-query as the source, a list of values and a union leave no trace.
-/

namespace FluentSql

/-! ## What calls do first -/

/-- Compiles a sub-query and gives its values. -/
def QueryId.createdValues (run : Runner) (q : QueryId) (query : Value) : Action (List Value) := do
  let sub ← q.createSub run query
  return sub.bindings

/-- Adds an ordering, with the values of its sub-query in a group. -/
def QueryId.orderByIn (run : Runner) (q : QueryId) (group : BindingGroup) (column word : Value) :
    Action Unit := do
  let column ← if column.isQueryable then do
      let sub ← q.createSub run column
      q.bind group sub.bindings
      pure (.raw (.text ("(" ++ sub.sql ++ ")")))
    else pure column
  let direction ← QueryId.direction run word
  q.modify (·.addOrder (.byColumn column direction))

theorem QueryId.orderBy_eq (run : Runner) (q : QueryId) (column word : Value) :
    q.orderBy run column word =
      q.read >>= fun query => q.orderByIn run query.orderGroup column word := rfl

/-- What a comparison does until it binds the values of a sub-query that stands for a column. -/
def QueryId.comparedValues (run : Runner) (q : QueryId) (column : Value)
    (operator value : Option Value) : Action (List Value) := do
  let column ← column.now
  if QueryId.isConditionList column then return []
  else if column.isCallable && operator.isNone then return []
  else do
    let _ ← q.comparison operator value
    if column.isQuery then q.createdValues run column else return []

namespace FluentCall

/-- The calls that take a sub-query, or that replace a clause. -/
def takesSubQuery : FluentCall → Bool
  | orderBy .. | reorder .. | join .. | joinSub .. | selectSub .. | fromSub .. | whereIn ..
  | «where» .. | union .. => true
  | _ => false

/-- The direction of an ordering. -/
def direction? : FluentCall → Option Value
  | orderBy _ word | reorder _ word => some word
  | _ => none

/-- What a call does until it binds the values of a sub-query, if it does so before it has looked at
all of its arguments. -/
def registering (run : Runner) (q : QueryId) : FluentCall → Action (List Value)
  | orderBy column _ | reorder column _ =>
    if column.isQueryable then q.createdValues run column else return []
  | joinSub query name .. => do
    let sub ← q.createSub run query
    let _ ← q.wrappedTable name
    return sub.bindings
  | «where» column operator value _ => q.comparedValues run column operator value
  | _ => return []

/-- The query after what a call removes from it first. -/
def cleared : FluentCall → Query → Query
  | reorder .., query => query.dropOrders
  | _, query => query

/-- The group in which a call binds the values of its sub-query. -/
def registeredIn (query : Query) : FluentCall → BindingGroup
  | orderBy .. | reorder .. => query.orderGroup
  | joinSub .. => .join
  | _ => .condition

/-- The values that a call binds while it may still be rejected. -/
def registered (run : Runner) (q : QueryId) (s : Store) (c : FluentCall) : List Value :=
  ((c.registering run q).runOn (s.edit q c.cleared)).1.toOption.getD []

theorem registered_of_pure {run : Runner} {q : QueryId} {s : Store} {c : FluentCall}
    (h : c.registering run q = pure []) : c.registered run q s = [] := by
  unfold registered
  rw [h]
  rfl

/-- A call that removes nothing compiles its sub-query in the store as it is. -/
theorem registered_of_kept {run : Runner} {q : QueryId} {s : Store} {c : FluentCall}
    (h : ∀ query, c.cleared query = query) :
    c.registered run q s = ((c.registering run q).runOn s).1.toOption.getD [] := by
  unfold registered
  rw [Store.edit_same h]

/-- Nothing is left of a rejected call: it has bound no values and, if it removes every ordering
first, there was none, and there were no values for one beside those that it has bound. -/
def LeavesNothing (run : Runner) (q : QueryId) (s : Store) (c : FluentCall) : Prop :=
  match c with
  | reorder .. => (s.query q).orders = [] ∧ (s.query q).unionOrders = [] ∧
      (s.query q).bindings = ((s.query q).dropOrders.bind (s.query q).orderGroup
        (c.registered run q s)).bindings
  | _ => c.registered run q s = []

end FluentCall

/-! ## What is left -/

/-- Binding values changes a query unless there are none. -/
theorem Query.bind_eq_self_iff (query : Query) (group : BindingGroup) (vs : List Value) :
    query.bind group vs = query ↔ vs = [] := by
  refine ⟨fun h => ?_, fun h => ?_⟩
  · have hget : (query.bind group vs).bindings.get group = query.bindings.get group := by rw [h]
    unfold Query.bind Bindings.extend at hget
    rwa [Bindings.get_set_self, List.append_right_eq_self] at hget
  · rw [h, Query.bind_nil]

/-- Dropping the orderings and binding values for new ones changes a query unless there was nothing
else. -/
theorem Query.dropOrders_bind_eq_self_iff (query : Query) (group : BindingGroup)
    (vs : List Value) : query.dropOrders.bind group vs = query ↔
      query.orders = [] ∧ query.unionOrders = [] ∧
        query.bindings = (query.dropOrders.bind group vs).bindings := by
  refine ⟨fun h => ?_, fun ⟨horders, hunionOrders, hbindings⟩ => ?_⟩
  · have horders : query.orders = (query.dropOrders.bind group vs).orders := by rw [h]
    have hunionOrders : query.unionOrders = (query.dropOrders.bind group vs).unionOrders := by
      rw [h]
    exact ⟨horders, hunionOrders, by rw [h]⟩
  · have heq : query.dropOrders.bind group vs =
        { query with
          orders := []
          unionOrders := []
          bindings := (query.dropOrders.bind group vs).bindings } := rfl
    rw [heq, ← hbindings]
    cases query
    cases horders
    cases hunionOrders
    rfl

/-! ## Rejected actions -/

/-- If the action is rejected, a query is as before. -/
def Action.Spares {α : Type} (b : Boundary) (q : QueryId) (a : Action α) : Prop :=
  ∀ t, b.Guards t → ∀ fault, (a.runOn t).1 = .error (.argument fault) →
    (a.runOn t).2.query q = t.query q

/-- If the action is rejected, the values that another action gives are bound in a query. -/
def Action.Registers (b : Boundary) (q : QueryId) (group : BindingGroup) (a : Action Unit)
    (registering : Action (List Value)) : Prop :=
  ∀ t, b.Guards t → ∀ fault, (a.runOn t).1 = .error (.argument fault) →
    (a.runOn t).2.query q =
      (t.query q).bind group ((registering.runOn t).1.toOption.getD [])

section

variable {b : Boundary} {q : QueryId} {group : BindingGroup} {α β : Type} {P : α → Prop}

theorem Action.Within.spares {a : Action α} (ha : a.Within b P) (hq : b.kept q) : a.Spares b q :=
  fun t ht _ _ => (ha t ht).2.1.kept q hq

/-- What keeps to the boundary may come before. -/
theorem Action.Within.spares_bind {a : Action α} {f : α → Action β} (ha : a.Within b P)
    (hq : b.kept q) (hf : ∀ v, P v → (f v).Spares b q) : (a >>= f).Spares b q := by
  intro t ht fault hfail
  obtain ⟨hguards, hstep, hresult⟩ := ha t ht
  rw [Action.runOn_bind] at hfail ⊢
  cases hr : (a.runOn t).1 with
  | error e => exact hstep.kept q hq
  | ok v =>
    rw [hr] at hfail
    exact (hf v (hresult v hr) _ hguards fault hfail).trans (hstep.kept q hq)

theorem Action.Finishes.spares {a : Action Unit} (ha : a.Finishes q) : a.Spares b q := by
  intro t _ fault hfail
  obtain ⟨f, hf⟩ := ha t
  rw [hf] at hfail
  exact nomatch hfail

theorem Action.Spares.registers {a : Action Unit} (ha : a.Spares b q) :
    a.Registers b q group (pure []) := fun t ht fault hfail =>
  (ha t ht fault hfail).trans (Query.bind_nil _ group).symm

/-- What keeps to the boundary is done before the values are bound. -/
theorem Action.Within.registers_bind {a : Action α} {f : α → Action Unit}
    {registering : α → Action (List Value)} (ha : a.Within b P) (hq : b.kept q)
    (hf : ∀ v, P v → (f v).Registers b q group (registering v)) :
    (a >>= f).Registers b q group (a >>= registering) := by
  intro t ht fault hfail
  obtain ⟨hguards, hstep, hresult⟩ := ha t ht
  rw [Action.runOn_bind] at hfail ⊢
  rw [Action.runOn_bind]
  cases hr : (a.runOn t).1 with
  | error e => exact (hstep.kept q hq).trans (Query.bind_nil _ group).symm
  | ok v =>
    rw [hr] at hfail
    have hkept : (a.runOn t).2.query q = t.query q := hstep.kept q hq
    exact (hf v (hresult v hr) _ hguards fault hfail).trans
      (congrArg (fun query : Query => query.bind group _) hkept)

end

section

variable {run : Runner} {world : Array Callback → Prop} {s : Store} {q : QueryId}
variable {group : BindingGroup}

/-- A query may be bound to more values. -/
theorem Preserving.guards_edit {t : Store} (ht : (Preserving.boundary run world s).Guards t)
    (f : Query → Query) : (Preserving.boundary run world s).Guards (t.edit q f) := by
  obtain ⟨hsize, hworld, hanswers⟩ := (Preserving.guards_iff run world s).1 ht
  exact (Preserving.guards_iff run world s).2
    ⟨Nat.le_trans hsize (Nat.le_of_eq (Store.size_edit t q f).symm), hworld, hanswers⟩

/-- Values are bound, and what is rejected comes after. -/
theorem registers_bind (hq : q.index < s.queries.size) {vs : List Value} {rest : Action Unit}
    (hrest : rest.Spares (Preserving.boundary run world s) q) :
    Action.Registers (Preserving.boundary run world s) q group (q.bind group vs >>= fun _ => rest)
      (pure vs) := by
  intro t ht fault hfail
  have hlt := Nat.lt_of_lt_of_le hq ht.start_le
  exact (hrest _ (Preserving.guards_edit ht _) fault hfail).trans (Store.query_edit_self hlt _)

/-! ## Calls that leave no trace -/

theorem finishes_bind_values (q sub : QueryId) (group : BindingGroup) :
    (sub.bindings >>= q.bind group : Action Unit).Finishes q := fun _ => ⟨_, rfl⟩

theorem finishes_attachJoin (q join : QueryId) : (q.attachJoin join).Finishes q :=
  (finishes_modify _).next (finishes_bind_values q join _)

theorem Value.itemsNow_list (vs : List Value) : (Value.list vs).itemsNow = pure vs := rfl

theorem finishes_selectRaw_list (q : QueryId) (sql : Value) (vs : List Value) :
    (q.selectRaw sql (.list vs)).Finishes q := by
  refine (finishes_modify _).next ?_
  rw [Value.itemsNow_list, pure_bind]
  split
  · exact finishes_modify _
  · exact finishes_pure

theorem finishes_fromRaw_list (q : QueryId) (sql : Value) (vs : List Value) :
    (q.fromRaw sql (.list vs)).Finishes q := by
  refine (finishes_modify _).next ?_
  rw [Value.itemsOrNone_list, pure_bind]
  exact finishes_modify _

section

variable (hrun : run.ActsOnReceiver world) (hq : q.index < s.queries.size)

include hrun hq

theorem spares_join (table first operator second type : Value) (byValue : Bool) :
    (q.join run table first operator second type byValue).Spares
      (Preserving.boundary run world s) q := by
  have hruns := Preserving.runs run world s hrun
  have hany := Preserving.admits run world s
  refine (within_newJoin not_false (hany type) (hany table)).spares_bind hq fun join hjoin => ?_
  have hattach := (finishes_attachJoin q join).spares (b := Preserving.boundary run world s)
  dsimp only
  split
  · exact (within_call hruns hjoin first Boundary.admitsAll_nil).discard.spares_bind hq
      fun _ _ => hattach
  · split
    · exact (keeps_where hruns hjoin (hany first) (fun v _ => hany v) (fun v _ => hany v)
        (hany _)).spares_bind hq fun _ _ => hattach
    · exact (keeps_on hruns hjoin (hany first) (hany operator) (hany second)
        (hany _)).spares_bind hq fun _ _ => hattach

theorem spares_selectSub (query name : Value) :
    (q.selectSub run query name).Spares (Preserving.boundary run world s) q :=
  (within_createSub (Preserving.runs run world s hrun) not_false
    (Preserving.admits run world s query)).spares_bind hq fun _ _ =>
      (keeps_wrapped q name).spares_bind hq fun _ _ => (finishes_selectRaw_list q _ _).spares

theorem spares_fromSub (query name : Value) :
    (q.fromSub run query name).Spares (Preserving.boundary run world s) q :=
  (within_createSub (Preserving.runs run world s hrun) not_false
    (Preserving.admits run world s query)).spares_bind hq fun _ _ =>
      (keeps_wrappedTable q name).spares_bind hq fun _ _ => (finishes_fromRaw_list q _ _).spares

theorem spares_whereIn (column values boolean : Value) (negated : Bool) :
    (q.whereIn run column values boolean negated).Spares (Preserving.boundary run world s) q := by
  have hany := Preserving.admits run world s values
  have hadd : ∀ vs, Action.Finishes q (do
      q.addWhere boolean (.among column vs negated)
      q.bindValues .condition vs) := fun vs => (finishes_modify _).next (finishes_modify _)
  unfold QueryId.whereIn
  split
  · refine (within_createSub (Preserving.runs run world s hrun) not_false hany).spares_bind hq
      fun sub _ => ?_
    refine Action.Finishes.spares ((finishes_modify _).next ?_)
    rw [pure_bind]
    exact hadd _
  · exact (within_itemsNow hany).spares_bind hq fun vs _ => (hadd vs).spares

/-- What is no query can be united with nothing, but that is not how a call is rejected. -/
theorem spares_union (query keepsAll : Value) :
    (q.union run query keepsAll).Spares (Preserving.boundary run world s) q := by
  have hunite : ∀ query : Value, Action.Spares (Preserving.boundary run world s) q (do
      q.modify fun current =>
        { current with unions := current.unions ++ [⟨query.query?, keepsAll⟩] }
      let member ← query.needQuery
      q.bind .union (← member.bindings)) := by
    intro query t _ fault hfail
    unfold Value.needQuery at hfail
    cases hquery : query.query? with
    | none =>
      rw [hquery] at hfail
      exact nomatch hfail
    | some member =>
      rw [hquery] at hfail
      exact nomatch hfail
  unfold QueryId.union
  split
  · refine (within_newQuery not_false).spares_bind hq fun member hmember => ?_
    refine (within_call (Preserving.runs run world s hrun) hmember query
      Boundary.admitsAll_nil).spares_bind hq fun _ _ => ?_
    exact (within_pure (P := fun _ => True) trivial).spares_bind hq fun _ _ => hunite _
  · exact (within_pure (P := fun _ => True) trivial).spares_bind hq fun _ _ => hunite _

/-- A group is collected on a query of its own. -/
theorem spares_groupBuiltBy (boolean : Value) {build : QueryId → Action Unit}
    (hbuild : ∀ nested, ¬(Preserving.boundary run world s).kept nested →
      (build nested).Keeps (Preserving.boundary run world s)) :
    (q.groupBuiltBy run boolean build).Spares (Preserving.boundary run world s) q := by
  refine (within_forNestedWhere (Preserving.runs run world s hrun) not_false).spares_bind hq
    fun nested hnested => (hbuild nested hnested).spares_bind hq fun _ _ => ?_
  refine (within_read not_false).spares_bind hq fun group _ => ?_
  split
  · exact finishes_pure.spares
  · exact ((finishes_modify _).next (finishes_modify _)).spares

/-! ## Calls that bind first -/

/-- What a direction is asked for changes no other query. -/
theorem direction_keeps {word : Value} (hword : word ≠ .ofQuery q) {t : Store}
    (ht : (Preserving.boundary run world s).Guards t) :
    ((QueryId.direction run word).runOn t).2.query q = t.query q := by
  have hlt := Nat.lt_of_lt_of_le hq ht.start_le
  have hread : ∀ (v : Value) (t' : Store), (Action.runOn
      ((v.text?.bind Direction.ofWord?).elim (throw (.argument .direction)) pure) t').2 = t' := by
    intro v t'
    cases v.text?.bind Direction.ofWord? with
    | none => rfl
    | some _ => rfl
  unfold QueryId.direction
  dsimp only
  split
  · exact congrArg (·.query q) (hread (.text _) t)
  · rename_i bs
    exact congrArg (·.query q) (hread (.bytes bs) t)
  · rename_i sub
    have hcall : ((Extensions.call run sub "lower" []).runOn t).2.query q = t.query q := by
      unfold Extensions.call
      rw [Action.runOn_bind, show (get : Action Store).runOn t = (.ok t, t) from rfl]
      dsimp only
      split
      · rename_i callback _
        exact (hrun callback sub [] t ht.world).2.query q hlt fun heq => hword (heq ▸ rfl)
      · rfl
    rw [Action.runOn_bind]
    cases hr : ((Extensions.call run sub "lower" []).runOn t).1 with
    | error e => exact hcall
    | ok v => exact (congrArg (·.query q) (hread v _)).trans hcall
  · rfl

/-- An ordering is added once its direction is known. -/
theorem spares_addOrder (column : Value) {word : Value} (hword : word ≠ .ofQuery q) :
    Action.Spares (Preserving.boundary run world s) q (do
      let direction ← QueryId.direction run word
      q.modify (·.addOrder (.byColumn column direction))) := by
  intro t ht fault hfail
  have hkept := direction_keeps hrun hq hword ht
  rw [Action.runOn_bind] at hfail ⊢
  cases hr : ((QueryId.direction run word).runOn t).1 with
  | error e => exact hkept
  | ok direction =>
    rw [hr] at hfail
    exact nomatch hfail

theorem registers_orderByIn (column : Value) {word : Value} (hword : word ≠ .ofQuery q) :
    (q.orderByIn run group column word).Registers (Preserving.boundary run world s) q group
      (if column.isQueryable then q.createdValues run column else pure []) := by
  unfold QueryId.orderByIn
  dsimp only
  split
  · refine (within_createSub (Preserving.runs run world s hrun) not_false
      (Preserving.admits run world s column)).registers_bind hq fun sub _ => ?_
    refine registers_bind hq ?_
    rw [pure_bind]
    exact spares_addOrder hrun hq _ hword
  · rw [pure_bind]
    exact (spares_addOrder hrun hq _ hword).registers

theorem orderBy_leaves (column : Value) {word : Value} (hword : word ≠ .ofQuery q) {t : Store}
    (ht : (Preserving.boundary run world s).Guards t) {fault : ArgumentFault}
    (hfail : ((q.orderBy run column word).runOn t).1 = .error (.argument fault)) :
    ((q.orderBy run column word).runOn t).2.query q =
      (t.query q).bind (t.query q).orderGroup
        (((if column.isQueryable then q.createdValues run column
          else pure [] : Action (List Value)).runOn t).1.toOption.getD []) := by
  have hread : (q.orderBy run column word).runOn t =
      (q.orderByIn run (t.query q).orderGroup column word).runOn t := by
    rw [QueryId.orderBy_eq, Action.runOn_bind]
    rfl
  rw [hread] at hfail ⊢
  exact registers_orderByIn hrun hq column hword t ht fault hfail

theorem registers_joinSub (query name first operator second type : Value) (byValue : Bool) :
    (q.joinSub run query name first operator second type byValue).Registers
      (Preserving.boundary run world s) q .join (do
        let sub ← q.createSub run query
        let _ ← q.wrappedTable name
        return sub.bindings) :=
  (within_createSub (Preserving.runs run world s hrun) not_false
    (Preserving.admits run world s query)).registers_bind hq fun _ _ =>
      (keeps_wrappedTable q name).registers_bind hq fun _ _ =>
        registers_bind hq (spares_join hrun hq _ _ _ _ _ _)

/-- A list of conditions is collected on a query of its own. -/
theorem spares_whereGroup (kind : QueryId.ComparisonKind) (fuel : Nat)
    (conditions boolean : Value) :
    (QueryId.whereGroup run kind fuel q conditions boolean).Spares
      (Preserving.boundary run world s) q := by
  have hruns := Preserving.runs run world s hrun
  have hany := Preserving.admits run world s
  cases fuel with
  | zero => exact (within_throw (P := fun _ => True) _).spares hq
  | succ fuel =>
    refine spares_groupBuiltBy hrun hq boolean fun nested hnested => ?_
    refine keeps_forM fun arguments _ => (keeps_ofExcept arguments).next fun vs => ?_
    cases vs with
    | nil => exact within_throw _
    | cons column rest =>
      refine (within_now (hany column)).bind fun column _ => ?_
      split
      · exact keeps_whereGroup hruns kind fuel hnested (hany _) (hany _)
      · exact keeps_compareSingle hruns hnested kind fun v _ => hany v

theorem registers_where (column : Value) (operator value : Option Value) (boolean : Value) :
    (q.where run column operator value boolean).Registers (Preserving.boundary run world s) q
      .condition (q.comparedValues run column operator value) := by
  have hruns := Preserving.runs run world s hrun
  have hany := Preserving.admits run world s
  -- Of what follows the comparison, only the callback of a sub-query can fail.
  have hcompared : ∀ (column : Value) (comparison : Comparison),
      Action.Spares (Preserving.boundary run world s) q (
        if comparison.value.isQueryable then
          q.whereSub run column (.text comparison.operator) comparison.value boolean
        else if comparison.value.isNull then
          q.whereNull column boolean (comparison.operator != "=")
        else do
          let value := QueryId.jsonWord column comparison.value
          q.addWhere boolean (.basic column comparison.operator value)
          q.bindValue .condition value) := by
    intro column comparison
    split
    · exact (within_resolveSub hruns not_false (hany _)).spares_bind hq fun sub _ =>
        ((finishes_modify _).next (finishes_bind_values q sub _)).spares
    · split
      · exact (finishes_forM fun _ => finishes_modify _).spares
      · refine Action.Finishes.spares ((finishes_modify _).next ?_)
        unfold QueryId.bindValue
        split
        · exact finishes_pure
        · exact finishes_modify _
  refine (within_now (hany column)).registers_bind hq fun column _ => ?_
  split
  · exact (spares_whereGroup hrun hq _ _ column boolean).registers
  · unfold QueryId.whereSingle
    split
    · refine Action.Spares.registers (spares_groupBuiltBy hrun hq boolean fun nested hnested => ?_)
      exact (within_call hruns hnested column Boundary.admitsAll_nil).discard
    · refine (within_comparison (fun v _ => hany v) fun v _ => hany v).registers_bind hq
        fun comparison _ => ?_
      dsimp only
      split
      · refine (within_createSub hruns not_false (hany column)).registers_bind hq fun sub _ => ?_
        refine registers_bind hq ?_
        rw [pure_bind]
        exact hcompared _ comparison
      · rw [pure_bind]
        exact (hcompared column comparison).registers

/-! ## The result -/

/-- What is left of a rejected call: what it removes first is gone, and what it binds first is
bound. -/
theorem rejectedCall_leaves {c : FluentCall} (hc : c.takesSubQuery)
    (hself : c.direction? ≠ some (.ofQuery q)) (hworld : world s.callbacks)
    (hanswers : ∀ (request : Request) callback, s.extension? request.name = some callback →
      run.LeavesQueries world callback) {fault : ArgumentFault}
    (hfail : ((c.perform run q).runOn s).1 = .error (.argument fault)) :
    ((c.perform run q).runOn s).2.query q =
      (c.cleared (s.query q)).bind (c.registeredIn (c.cleared (s.query q)))
        (c.registered run q s) := by
  have hguards := (Preserving.guards_iff run world s).2 ⟨Nat.le_refl _, hworld, hanswers⟩
  have hsame : ∀ t : Store, t.edit q (fun query => query) = t := fun t =>
    Store.edit_same fun _ => rfl
  -- A call that binds nothing first leaves the query as it was.
  have hspared : (∀ query, c.cleared query = query) → c.registering run q = pure [] →
      (c.perform run q).Spares (Preserving.boundary run world s) q →
      ((c.perform run q).runOn s).2.query q = (c.cleared (s.query q)).bind
        (c.registeredIn (c.cleared (s.query q))) (c.registered run q s) := by
    intro hkept hpure hspares
    rw [FluentCall.registered_of_pure hpure, Query.bind_nil, hkept]
    exact hspares s hguards fault hfail
  cases c with
  | orderBy column word =>
    have hword : word ≠ .ofQuery q := fun heq => hself (congrArg some heq)
    rw [FluentCall.registered_of_kept fun _ => rfl]
    exact orderBy_leaves hrun hq column hword hguards hfail
  | joinSub query name first operator second type byValue =>
    rw [FluentCall.registered_of_kept fun _ => rfl]
    exact registers_joinSub hrun hq query name first operator second type byValue s hguards fault
      hfail
  | «where» column operator value boolean =>
    rw [FluentCall.registered_of_kept fun _ => rfl]
    exact registers_where hrun hq column operator value boolean s hguards fault hfail
  | reorder column word =>
    have hword : word ≠ .ofQuery q := fun heq => hself (congrArg some heq)
    have hreorder : ((q.reorder run column word).runOn s) =
        (if column.isNull then pure () else q.orderBy run column word : Action Unit).runOn
          (s.edit q Query.dropOrders) := by
      unfold QueryId.reorder
      rw [Action.runOn_bind]
      rfl
    have hdropped : (s.edit q Query.dropOrders).query q = (s.query q).dropOrders :=
      Store.query_edit_self hq _
    show ((q.reorder run column word).runOn s).2.query q = _
    replace hfail : ((q.reorder run column word).runOn s).1 = .error (.argument fault) := hfail
    rw [hreorder] at hfail ⊢
    split at hfail
    · exact nomatch hfail
    · rename_i hnull
      rw [if_neg hnull, orderBy_leaves hrun hq column hword
        (Preserving.guards_edit hguards _) hfail, hdropped]
      rfl
  | join table first operator second type byValue =>
    exact hspared (fun _ => rfl) rfl (spares_join hrun hq table first operator second type byValue)
  | selectSub query name => exact hspared (fun _ => rfl) rfl (spares_selectSub hrun hq query name)
  | fromSub query name => exact hspared (fun _ => rfl) rfl (spares_fromSub hrun hq query name)
  | whereIn column values boolean negated =>
    exact hspared (fun _ => rfl) rfl (spares_whereIn hrun hq column values boolean negated)
  | union query keepsAll => exact hspared (fun _ => rfl) rfl (spares_union hrun hq query keepsAll)
  | _ => exact nomatch hc

/-- A call that takes a sub-query or replaces clauses, and that is rejected, leaves in its query
exactly what it removes and binds before it has looked at all of its arguments.  So it leaves no
trace if and only if that is nothing.  Callbacks change only the query that they receive. -/
theorem rejectedCall_leaves_iff {c : FluentCall} (hc : c.takesSubQuery)
    (hself : c.direction? ≠ some (.ofQuery q)) (hworld : world s.callbacks)
    (hanswers : ∀ (request : Request) callback, s.extension? request.name = some callback →
      run.LeavesQueries world callback) {fault : ArgumentFault}
    (hfail : ((c.perform run q).runOn s).1 = .error (.argument fault)) :
    ((c.perform run q).runOn s).2.query q =
        (c.cleared (s.query q)).bind (c.registeredIn (c.cleared (s.query q)))
          (c.registered run q s) ∧
      (((c.perform run q).runOn s).2.query q = s.query q ↔ c.LeavesNothing run q s) := by
  have hleft := rejectedCall_leaves hrun hq hc hself hworld hanswers hfail
  have hbound := Query.bind_eq_self_iff (s.query q) (c.registeredIn (s.query q))
    (c.registered run q s)
  refine ⟨hleft, ?_⟩
  rw [hleft]
  cases c with
  | reorder column word => exact Query.dropOrders_bind_eq_self_iff _ _ _
  | orderBy _ _ | join _ _ _ _ _ _ | joinSub _ _ _ _ _ _ _ | selectSub _ _ | fromSub _ _
  | whereIn _ _ _ _ | «where» _ _ _ _ | union _ _ => exact hbound
  | _ => exact nomatch hc

end

end

/-! ## A rejected ordering -/

namespace RejectedOrdering

/-- A query with a condition, to order by. -/
def paid : Query where
  connection := none
  grammar := .grammar ⟨0⟩
  source := .text "users"
  wheres := [⟨.text "and", .basic (.text "paid") "=" (.int 1)⟩]
  bindings := { condition := [.int 1] }

/-- A query of orders, and the one to order by. -/
def store : Store :=
  (Store.ofTable "orders").add paid

/-- Every callback drops duplicate rows. -/
def run : Runner := fun _ q _ => q.after q.distinct

theorem actsOnReceiver : run.ActsOnReceiver fun _ => True := fun _ q _ s _ =>
  ⟨trivial, s.onlyChanged_edit q fun _ => rfl⟩

end RejectedOrdering

/-- Orderings that are not there can be replaced in vain. -/
theorem rejectedCall_leaves_iff_name :
    (((FluentCall.reorder (.text "name") (.text "sideways")).perform RejectedOrdering.run ⟨0⟩).runOn
      RejectedOrdering.store).2.query ⟨0⟩ = RejectedOrdering.store.query ⟨0⟩ := by
  have hanswers : ∀ (request : Request) (callback : CallbackId),
      RejectedOrdering.store.extension? request.name = some callback →
        RejectedOrdering.run.LeavesQueries (fun _ => True) callback := fun _ _ h => nomatch h
  have hfail : (((FluentCall.reorder (.text "name") (.text "sideways")).perform
      RejectedOrdering.run ⟨0⟩).runOn RejectedOrdering.store).1 =
        .error (.argument .direction) := rfl
  exact (rejectedCall_leaves_iff RejectedOrdering.actsOnReceiver (by decide) rfl
    (by simp [FluentCall.direction?, Value.ofQuery]) trivial hanswers hfail).2.2 ⟨rfl, rfl, rfl⟩

/-- What comes of ordering by the sub-query sideways. -/
def RejectedOrdering.outcome : Except Failure Unit × Store :=
  ((FluentCall.orderBy (.ofQuery ⟨1⟩) (.text "sideways")).perform run ⟨0⟩).runOn store

/-- Whether a direction is refused. -/
def refusesDirection : Except Failure Unit → Bool
  | .error (.argument .direction) => true
  | _ => false

theorem eq_error_of_refusesDirection {x : Except Failure Unit} (h : refusesDirection x = true) :
    x = .error (.argument .direction) := by
  unfold refusesDirection at h
  split at h
  · rfl
  · cases h

/-- A query cannot be ordered sideways by a sub-query, but it is left with the value of the
sub-query and with no placeholder for it. -/
theorem ordering_leaves_value :
    RejectedOrdering.outcome.1 = .error (.argument .direction) ∧
      (RejectedOrdering.outcome.2.query ⟨0⟩).bindings.flatten.length = 1 ∧
      RejectedOrdering.outcome.2.query ⟨0⟩ ≠ RejectedOrdering.store.query ⟨0⟩ := by
  have hfail : RejectedOrdering.outcome.1 = .error (.argument .direction) :=
    eq_error_of_refusesDirection (by decide +kernel)
  have hlength : (RejectedOrdering.outcome.2.query ⟨0⟩).bindings.flatten.length = 1 := by
    decide +kernel
  refine ⟨hfail, hlength, fun heq => ?_⟩
  rw [heq] at hlength
  cases hlength

end FluentSql
