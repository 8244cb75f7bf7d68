import FluentSql.Proofs.Preserving
import FluentSql.Proofs.Rejecting.Conditions
import FluentSql.Proofs.Traversing

/-!
# Rejected predicates leave no trace

A call that adds conditions to rows or to groups, given no query and no
callback, either does what it is asked or leaves every query as it was.

* `predicateCalls` are the names of these calls.
* `Signature.mem_values_of_bind` says where the arguments of a method come
  from.
* `rejectedPredicate_leaves_store` is the result.
-/

namespace FluentSql

/-- The calls that compare columns, rows, parts of dates and groups. -/
def predicateCalls : List String := [
  "where", "or_where", "where_not", "where_column", "or_where_column",
  "where_in", "or_where_in", "where_not_in", "or_where_not_in",
  "where_integer_in_raw", "where_integer_not_in_raw",
  "where_between", "or_where_between", "where_not_between", "or_where_not_between",
  "where_date", "where_time", "where_day", "where_month", "where_year",
  "or_where_date", "or_where_time", "where_row_values", "or_where_row_values",
  "having", "or_having", "having_between"]

/-! ## Arguments -/

/-- A value that is matched with a parameter is an argument by place or by name, or what stands for
one that is left out. -/
theorem Signature.mem_values_of_bind {signature : Signature} {placed : List Value}
    {named : List (String × Value)} {a : Arguments} (h : signature.bind placed named = .ok a)
    {x : String × Value} (hx : x ∈ a.values) :
    x.2 ∈ placed ∨ x.2 ∈ named.map (·.2) ∨
      ∃ parameter ∈ signature.parameters, parameter.omission = .value x.2 := by
  have hcompleted : ∀ parameter ∈ signature.parameters, ∀ found,
      complete named parameter = .ok found → x ∈ found → x.2 ∈ named.map (·.2) ∨
        ∃ parameter ∈ signature.parameters, parameter.omission = .value x.2 := by
    intro parameter hparameter found hfound hx
    unfold complete at hfound
    split at hfound
    · rename_i value hvalue
      cases hfound
      obtain ⟨before, after, hnamed, _⟩ := List.lookup_eq_some_iff.1 hvalue
      rw [List.mem_singleton.1 hx, hnamed]
      exact .inl (List.mem_map_of_mem (List.mem_append_right _ List.mem_cons_self))
    · rename_i value _ hvalue
      cases hfound
      rw [List.mem_singleton.1 hx]
      exact .inr ⟨parameter, hparameter, hvalue⟩
    · cases hfound
      exact nomatch hx
    · exact nomatch hfound
  unfold bind at h
  dsimp only at h
  split at h
  · exact nomatch h
  · split at h
    · exact nomatch h
    · obtain ⟨others, hothers, h⟩ := Name.bind_eq_ok h
      cases h
      obtain hx | hx := List.mem_append.1 hx
      · obtain ⟨pair, hpair, rfl⟩ := List.mem_map.1 hx
        exact .inl (List.of_mem_zip hpair).2
      · obtain ⟨found, hfound, hx⟩ := List.mem_flatten.1 hx
        obtain ⟨parameter, hparameter, hcomplete⟩ :=
          exists_of_forall₂ (mapM_eq_ok_iff.1 hothers).flip hfound
        exact .inr (hcompleted parameter (List.mem_of_mem_drop hparameter) found hcomplete hx)

namespace Arguments

/-- There is no query and no callback among the arguments of a call. -/
def AreInert (a : Arguments) : Prop :=
  ∀ x ∈ a.values, x.2.isInert

variable {a : Arguments}

theorem AreInert.get? (h : a.AreInert) (name : String) : ∀ v ∈ a.get? name, v.isInert := by
  intro v hv
  obtain ⟨before, after, hvalues, _⟩ := List.lookup_eq_some_iff.1 hv
  refine h (name, v) ?_
  rw [hvalues]
  exact List.mem_append_right _ List.mem_cons_self

theorem AreInert.get (h : a.AreInert) (name : String) : (a.get name).isInert := by
  unfold Arguments.get
  cases hget : a.get? name with
  | none => rfl
  | some v => exact h.get? name v hget

end Arguments

/-- What stands for the arguments that are left out of a call is no query and no callback. -/
def Method.hasInertDefaults (m : Method QueryId) : Bool :=
  m.signature.parameters.all fun parameter =>
    match parameter.omission with
    | .value v => v.isInert
    | _ => true

theorem inertDefaults_queryMethods : ∀ m ∈ queryMethods, m.hasInertDefaults := by
  rw [← List.all_eq_true]
  unfold queryMethods
  simp only [List.all_append, Bool.and_eq_true]
  exact ⟨⟨⟨⟨⟨⟨⟨⟨⟨⟨⟨rfl, rfl⟩, rfl⟩, rfl⟩, rfl⟩, rfl⟩, rfl⟩, rfl⟩, rfl⟩, rfl⟩, rfl⟩, rfl⟩

theorem areInert_of_bind {m : Method QueryId} (hm : m.hasInertDefaults) {placed : List Value}
    {named : List (String × Value)} (hplaced : ∀ v ∈ placed, v.isInert)
    (hnamed : ∀ x ∈ named, x.2.isInert) {a : Arguments}
    (h : m.signature.bind placed named = .ok a) : a.AreInert := by
  intro x hx
  obtain hx | hx | ⟨parameter, hparameter, hvalue⟩ := Signature.mem_values_of_bind h hx
  · exact hplaced _ hx
  · obtain ⟨y, hy, heq⟩ := List.mem_map.1 hx
    exact heq ▸ hnamed y hy
  · have hdefault := List.all_eq_true.1 hm parameter hparameter
    rw [hvalue] at hdefault
    exact hdefault

/-! ## Methods -/

/-- If the method is one of the predicates, it leaves no trace when it fails. -/
def Method.RejectsCleanly (run : Runner) (m : Method QueryId) : Prop :=
  m.name ∈ predicateCalls → ∀ q a s e, a.AreInert → ((m.run run q a).runOn s).1 = .error e →
    s.SameBelow s.queries.size ((m.run run q a).runOn s).2

section

variable {run : Runner}

theorem rejectsCleanly_of_not_mem {m : Method QueryId} (h : m.name ∉ predicateCalls) :
    m.RejectsCleanly run := fun hname => absurd hname h

theorem rejectsCleanly_builder {name : String} {parameters : List Parameter}
    {build : Runner → QueryId → Arguments → Action Unit}
    (h : ∀ n q a, a.AreInert → (build run q a).ChangesLast n q) :
    (builder name parameters build).RejectsCleanly run := by
  intro _ q a s e ha hfail
  have hlast := h s.queries.size q a ha
  unfold builder QueryId.after at hfail ⊢
  dsimp only at hfail ⊢
  rw [Action.runOn_bind] at hfail ⊢
  cases hr : ((build run q a).runOn s).1 with
  | error e' => exact hlast.of_error hr
  | ok v =>
    rw [hr] at hfail
    exact nomatch hfail

theorem rejectsCleanly_comparisonMethods : ∀ m ∈ comparisonMethods, m.RejectsCleanly run := by
  simp only [comparisonMethods, List.forall_mem_cons]
  refine ⟨?_, ?_, ?_, ?_, ?_, ?_, ?_, ?_, ?_, ?_, ?_, fun _ h => by cases h⟩
  · exact rejectsCleanly_builder fun _ _ _ ha =>
      changesLast_where (ha.get _) (ha.get? _) (ha.get? _)
  · exact rejectsCleanly_builder fun _ _ _ ha =>
      changesLast_where (ha.get _) (ha.get? _) (ha.get? _)
  · exact rejectsCleanly_builder fun _ _ _ ha =>
      changesLast_whereNot (ha.get _) (ha.get? _) (ha.get? _)
  · exact rejectsCleanly_builder fun _ _ _ ha => changesLast_whereColumn (ha.get _)
  · exact rejectsCleanly_builder fun _ _ _ ha => changesLast_whereColumn (ha.get _)
  all_goals exact rejectsCleanly_of_not_mem (by decide)

theorem rejectsCleanly_membershipMethods : ∀ m ∈ membershipMethods, m.RejectsCleanly run := by
  simp only [membershipMethods, List.forall_mem_cons]
  refine ⟨?_, ?_, ?_, ?_, ?_, ?_, ?_, ?_, ?_, ?_, ?_, ?_, ?_, ?_, fun _ h => by cases h⟩
  · exact rejectsCleanly_builder fun _ _ _ ha => changesLast_whereIn (ha.get _) _
  · exact rejectsCleanly_builder fun _ _ _ ha => changesLast_whereIn (ha.get _) _
  · exact rejectsCleanly_builder fun _ _ _ ha => changesLast_whereIn (ha.get _) _
  · exact rejectsCleanly_builder fun _ _ _ ha => changesLast_whereIn (ha.get _) _
  · exact rejectsCleanly_builder fun _ _ _ _ => changesLast_whereIntegerIn _ _ _ _ _
  · exact rejectsCleanly_builder fun _ _ _ _ => changesLast_whereIntegerIn _ _ _ _ _
  · exact rejectsCleanly_of_not_mem (by decide)
  · exact rejectsCleanly_of_not_mem (by decide)
  · exact rejectsCleanly_of_not_mem (by decide)
  · exact rejectsCleanly_of_not_mem (by decide)
  · exact rejectsCleanly_builder fun _ _ _ _ => changesLast_whereBetween _ _ _ _ _
  · exact rejectsCleanly_builder fun _ _ _ _ => changesLast_whereBetween _ _ _ _ _
  · exact rejectsCleanly_builder fun _ _ _ _ => changesLast_whereBetween _ _ _ _ _
  · exact rejectsCleanly_builder fun _ _ _ _ => changesLast_whereBetween _ _ _ _ _

theorem rejectsCleanly_furtherWhereMethods : ∀ m ∈ furtherWhereMethods, m.RejectsCleanly run := by
  have hpart : ∀ m ∈ [DatePart.date, .time, .day, .month, .year].map datePartMethod,
      m.RejectsCleanly run := by
    intro m hm
    obtain ⟨part, _, rfl⟩ := List.mem_map.1 hm
    exact rejectsCleanly_builder fun _ _ _ ha =>
      changesLast_whereDatePart part (ha.get _) (ha.get? _)
  have horPart : ∀ m ∈ [DatePart.date, .time].map orDatePartMethod, m.RejectsCleanly run := by
    intro m hm
    obtain ⟨part, _, rfl⟩ := List.mem_map.1 hm
    exact rejectsCleanly_builder fun _ _ _ ha =>
      changesLast_whereDatePart part (ha.get _) (ha.get? _)
  unfold furtherWhereMethods
  simp only [List.forall_mem_append]
  refine ⟨⟨hpart, horPart⟩, ?_⟩
  simp only [List.forall_mem_cons]
  refine ⟨?_, ?_, ?_, ?_, ?_, ?_, ?_, ?_, ?_, ?_, ?_, ?_, fun _ h => nomatch h⟩
  case refine_6 =>
    exact rejectsCleanly_builder fun _ _ _ _ => changesLast_whereRowValues _ _ _ _ _
  case refine_7 =>
    exact rejectsCleanly_builder fun _ _ _ _ => changesLast_whereRowValues _ _ _ _ _
  all_goals exact rejectsCleanly_of_not_mem (by decide)

theorem rejectsCleanly_groupMethods : ∀ m ∈ groupMethods, m.RejectsCleanly run := by
  simp only [groupMethods, List.forall_mem_cons]
  refine ⟨?_, ?_, ?_, ?_, ?_, ?_, ?_, ?_, ?_, fun _ h => by cases h⟩
  case refine_3 => exact rejectsCleanly_builder fun _ _ _ _ => changesLast_having _ _ _ _ _
  case refine_4 => exact rejectsCleanly_builder fun _ _ _ _ => changesLast_having _ _ _ _ _
  case refine_7 => exact rejectsCleanly_builder fun _ _ _ _ => changesLast_havingBetween _ _ _ _ _
  all_goals exact rejectsCleanly_of_not_mem (by decide)

/-- No predicate is among some methods. -/
theorem rejectsCleanly_others {methods : List (Method QueryId)}
    (h : methods.all fun m => !predicateCalls.contains m.name) :
    ∀ m ∈ methods, m.RejectsCleanly run := by
  intro m hm
  refine rejectsCleanly_of_not_mem fun hname => ?_
  have hother := List.all_eq_true.1 h m hm
  rw [List.contains_iff_mem.2 hname] at hother
  exact nomatch hother

theorem rejectsCleanly_queryMethods : ∀ m ∈ queryMethods, m.RejectsCleanly run := by
  unfold queryMethods
  simp only [List.forall_mem_append]
  exact ⟨⟨⟨⟨⟨⟨⟨⟨⟨⟨⟨rejectsCleanly_others rfl, rejectsCleanly_others rfl⟩,
    rejectsCleanly_comparisonMethods⟩, rejectsCleanly_membershipMethods⟩,
    rejectsCleanly_furtherWhereMethods⟩, rejectsCleanly_groupMethods⟩, rejectsCleanly_others rfl⟩,
    rejectsCleanly_others rfl⟩, rejectsCleanly_others rfl⟩, rejectsCleanly_others rfl⟩,
    rejectsCleanly_others rfl⟩, rejectsCleanly_others rfl⟩

end

theorem isSome_find?_of_predicate :
    ∀ name ∈ predicateCalls, (Method.find? queryMethods name).isSome := by
  decide +kernel

/-- A predicate is called as a method of its query, and not as an extension. -/
theorem callQuery_of_predicate {name : String} (hname : name ∈ predicateCalls) (run : Runner)
    (q : QueryId) (placed : List Value) (named : List (String × Value)) (s : Store) :
    ∃ m ∈ queryMethods, m.name = name ∧
      (callQuery run q name placed named).runOn s = (m.call run q placed named).runOn s := by
  obtain ⟨m, hfind⟩ := Option.isSome_iff_exists.1 (isSome_find?_of_predicate name hname)
  have hfound : m.name == name :=
    List.find?_some (p := fun m : Method QueryId => m.name == name) hfind
  refine ⟨m, List.mem_of_find?_eq_some hfind, eq_of_beq hfound, ?_⟩
  have hstate : (stateMethod.name == name) = false := by
    refine beq_false_of_ne fun heq => ?_
    exact absurd hname (heq ▸ (by decide : stateMethod.name ∉ predicateCalls))
  have hmethods : ∀ others, Method.find? (stateMethod :: queryMethods ++ others) name = some m := by
    intro others
    unfold Method.find? at hfind ⊢
    rw [List.cons_append, List.find?_cons_of_neg (by simp [hstate]), List.find?_append, hfind]
    rfl
  have hcall : callQuery run q name placed named =
      (get >>= fun _ => m.call run q placed named : Action Value) := by
    unfold callQuery
    refine bind_congr fun s => ?_
    dsimp only
    rw [hmethods]
  rw [hcall]
  rfl

/-! ## The result -/

/-- A predicate that is given no query and no callback, neither as an argument nor anywhere in its
lists and maps of conditions, leaves no trace when it fails: every query is as before, with all of
its fields and all groups of its bindings, and so is everything else in the store. -/
theorem rejectedPredicate_leaves_store {name : String} (hname : name ∈ predicateCalls)
    {placed : List Value} (hplaced : ∀ v ∈ placed, v.isInert) {named : List (String × Value)}
    (hnamed : ∀ x ∈ named, x.2.isInert) (run : Runner) (q : QueryId) {s : Store} {e : Failure}
    (hfail : ((callQuery run q name placed named).runOn s).1 = .error e) :
    s.SameBelow s.queries.size ((callQuery run q name placed named).runOn s).2 := by
  obtain ⟨m, hm, rfl, hcall⟩ := callQuery_of_predicate hname run q placed named s
  rw [hcall] at hfail ⊢
  unfold Method.call at hfail ⊢
  rw [Action.runOn_bind] at hfail ⊢
  cases hbind : m.signature.bind placed named with
  | error e' => exact .refl s
  | ok a =>
    rw [hbind] at hfail
    have ha := areInert_of_bind (inertDefaults_queryMethods m hm) hplaced hnamed hbind
    exact rejectsCleanly_queryMethods m hm hname q a s e ha hfail

/-- The first condition of a list is not added if the second one has no operator that is known. -/
theorem rejectedPredicate_leaves_store_list :
    (Store.ofTable "users").SameBelow 1
      ((callQuery (fun _ _ _ => pure .null) ⟨0⟩ "where" [.list [.list [.text "a", .int 1],
        .list [.text "b", .text "sideways", .int 2]]] []).runOn (Store.ofTable "users")).2 := by
  have hfail : ((callQuery (fun _ _ _ => pure .null) ⟨0⟩ "where" [.list [.list [.text "a", .int 1],
      .list [.text "b", .text "sideways", .int 2]]] []).runOn (Store.ofTable "users")).1 =
        .error (.argument (.operator "'sideways'")) := by
    rfl
  exact rejectedPredicate_leaves_store (by decide) (by decide) (by decide) _ ⟨0⟩ hfail

end FluentSql
