import FluentSql.Proofs.Boundary.Executing
import FluentSql.Script.QueryMethods

/-!
# Calls within a boundary

Every method of a query keeps to a boundary.  A method that builds asks that
its query is not kept; one that compiles, runs or copies only asks that it is
not hidden.

* `Boundary.AdmitsArguments` is about the arguments of a call, and
  `admits_bound` about how they are matched with parameters.
* `Method.KeepsBuilding` and `Method.KeepsReading` say what a method asks.
* The families of methods, and with them `keeps_readingCall` and
  `keeps_call`.
-/

namespace FluentSql

variable {b : Boundary} {run : Runner} {q : QueryId}

/-! ## Arguments -/

/-- The arguments of a call refer to nothing hidden. -/
structure Boundary.AdmitsArguments (b : Boundary) (a : Arguments) : Prop where
  values : ∀ argument ∈ a.values, b.Admits argument.2
  rest : b.AdmitsAll a.rest

namespace Boundary.AdmitsArguments

variable {a : Arguments} (h : b.AdmitsArguments a)

include h

theorem get? (name : String) : ∀ v ∈ a.get? name, b.Admits v := by
  intro v hv
  obtain ⟨before, after, hvalues, _⟩ := List.lookup_eq_some_iff.1 hv
  refine h.values (name, v) ?_
  rw [hvalues]
  exact List.mem_append_right _ List.mem_cons_self

theorem get (name : String) : b.Admits (a.get name) :=
  admits_getD (h.get? name) Boundary.admits_null

end Boundary.AdmitsArguments

/-- Whether the value that stands for an argument left out refers to no object. -/
def Parameter.isPlain (parameter : Parameter) : Bool :=
  match parameter.omission with
  | .value value => value.handles.isEmpty
  | _ => true

theorem Parameter.admits_default {parameter : Parameter} (h : parameter.isPlain) {v : Value}
    (hv : parameter.omission = .value v) : b.Admits v := by
  unfold Parameter.isPlain at h
  rw [hv] at h
  intro handle hmem
  rw [List.isEmpty_iff.1 h] at hmem
  exact nomatch hmem

theorem admits_completed {named : List (String × Value)} (hnamed : ∀ x ∈ named, b.Admits x.2)
    {parameter : Parameter} (hplain : parameter.isPlain) {found : List (String × Value)}
    (h : Signature.complete named parameter = .ok found) : ∀ x ∈ found, b.Admits x.2 := by
  unfold Signature.complete at h
  split at h
  · rename_i value hvalue
    cases h
    obtain ⟨before, after, heq, _⟩ := List.lookup_eq_some_iff.1 hvalue
    refine List.forall_mem_singleton.2 (hnamed (parameter.name, value) ?_)
    rw [heq]
    exact List.mem_append_right _ List.mem_cons_self
  · rename_i value _ hvalue
    cases h
    exact List.forall_mem_singleton.2 (Parameter.admits_default hplain hvalue)
  · cases h
    exact fun _ hx => nomatch hx
  · exact nomatch h

theorem admits_allCompleted {named : List (String × Value)}
    (hnamed : ∀ x ∈ named, b.Admits x.2) {parameters : List Parameter}
    (hplain : ∀ p ∈ parameters, p.isPlain) {found : List (List (String × Value))}
    (h : parameters.mapM (Signature.complete named) = .ok found) :
    ∀ x ∈ found.flatten, b.Admits x.2 := by
  induction parameters generalizing found with
  | nil =>
    cases h
    exact fun _ hx => nomatch hx
  | cons parameter parameters ih =>
    rw [List.mapM_cons] at h
    obtain ⟨first, hfirst, h⟩ := Name.bind_eq_ok h
    obtain ⟨others, hothers, h⟩ := Name.bind_eq_ok h
    cases h
    obtain ⟨hhead, htail⟩ := List.forall_mem_cons.1 hplain
    exact List.forall_mem_append.2 ⟨admits_completed hnamed hhead hfirst, ih htail hothers⟩

/-- Arguments that refer to nothing hidden do so too when they are matched with parameters. -/
theorem admits_bound {signature : Signature} (hplain : ∀ p ∈ signature.parameters, p.isPlain)
    {placed : List Value} {named : List (String × Value)} (hplaced : b.AdmitsAll placed)
    (hnamed : ∀ x ∈ named, b.Admits x.2) {a : Arguments}
    (h : signature.bind placed named = .ok a) : b.AdmitsArguments a := by
  unfold Signature.bind at h
  dsimp only at h
  split at h
  · exact nomatch h
  · split at h
    · exact nomatch h
    · obtain ⟨others, hothers, h⟩ := Name.bind_eq_ok h
      cases h
      refine ⟨List.forall_mem_append.2 ⟨fun x hx => ?_, ?_⟩, fun v hv => ?_⟩
      · obtain ⟨pair, hpair, rfl⟩ := List.mem_map.1 hx
        exact hplaced _ (List.of_mem_zip hpair).2
      · exact admits_allCompleted hnamed (fun p hp => hplain p (List.mem_of_mem_drop hp)) hothers
      · exact hplaced v (List.mem_of_mem_drop hv)

/-- The defaults of some methods refer to no objects. -/
def plainMethods {α : Type} (methods : List (Method α)) : Bool :=
  methods.all fun method => method.signature.parameters.all Parameter.isPlain

theorem plain_queryMethods : plainMethods queryMethods = true := by
  unfold queryMethods plainMethods
  simp only [List.all_append, Bool.and_eq_true]
  exact ⟨⟨⟨⟨⟨⟨⟨⟨⟨⟨⟨rfl, rfl⟩, rfl⟩, rfl⟩, rfl⟩, rfl⟩, rfl⟩, rfl⟩, rfl⟩, rfl⟩, rfl⟩, rfl⟩

theorem plain_joinMethods : plainMethods joinMethods = true := rfl

/-! ## Methods that compile, run and copy -/

/-- The method keeps to a boundary if its query is not hidden. -/
def Method.KeepsReading (b : Boundary) (run : Runner) (m : Method QueryId) : Prop :=
  ∀ q a, ¬b.hidden q → b.AdmitsArguments a → (m.run run q a).Keeps b

theorem keeps_returning {α β : Type} {action : Action α} (h : action.Keeps b) (f : α → β) :
    Action.Keeps b (do return f (← action)) :=
  h.next fun _ => within_pure trivial

theorem keeps_compilingMethods (hrun : b.Runs run) :
    ∀ m ∈ compilingMethods, m.KeepsReading b run := by
  simp only [compilingMethods, List.forall_mem_cons]
  refine ⟨?_, ?_, ?_, ?_, ?_, ?_, ?_, ?_, ?_, fun _ h => nomatch h⟩
  · exact fun q a _ _ => keeps_returning (keeps_toSql hrun q) _
  · exact fun q a _ _ => (keeps_toSql hrun q).next fun _ => keeps_returning (keeps_bindings q) _
  · exact fun q a _ _ => keeps_returning (keeps_toExistsSql hrun q) _
  · exact fun q a _ _ => keeps_returning (keeps_insertStatement hrun q _ _ _) _
  · exact fun q a _ _ => keeps_returning (keeps_insertStatement hrun q _ _ _) _
  · exact fun q a _ _ => keeps_returning (keeps_toInsertGetIdSql hrun q _ _) _
  · exact fun q a _ _ => keeps_returning (keeps_toUpdateSql hrun q _) _
  · exact fun q a h ha => keeps_returning (keeps_toDeleteSql hrun h (ha.get "id")) _
  · exact fun q a _ _ => keeps_returning (keeps_toTruncateSql hrun q) _

theorem keeps_readingMethods (hrun : b.Runs run) :
    ∀ m ∈ readingMethods, m.KeepsReading b run := by
  have haggregate : ∀ (function : String) (q : QueryId) (a : Arguments), ¬b.hidden q →
      b.AdmitsArguments a →
      (q.aggregate run (.text function) (.list [a.get "column"])).Keeps b :=
    fun function q a h ha => keeps_aggregate hrun h (Boundary.admits_text _)
      (by simpa using ha.get "column")
  simp only [readingMethods, List.forall_mem_cons]
  refine ⟨?_, ?_, ?_, ?_, ?_, ?_, ?_, ?_, ?_, ?_, ?_, ?_, ?_, ?_, ?_, fun _ h => nomatch h⟩
  · exact fun q a _ _ => keeps_returning (keeps_get hrun q _) _
  · exact fun q a h _ => keeps_returning (keeps_first hrun h _) _
  · exact fun q a h ha => keeps_returning (keeps_find hrun h (ha.get "id") _) _
  · exact fun q a h _ => keeps_value hrun h _
  · exact fun q a _ _ => keeps_returning (keeps_pluck hrun q _) _
  · exact fun q a _ _ => keeps_returning (keeps_hasRows hrun q) _
  · exact fun q a _ _ => keeps_returning (keeps_hasRows hrun q) _
  · exact fun q a h ha => keeps_returning (keeps_count hrun h (ha.get "columns")) _
  · exact haggregate "min"
  · exact haggregate "max"
  · exact fun q a h ha => keeps_sum hrun h (ha.get "column")
  · exact haggregate "avg"
  · exact haggregate "avg"
  · exact fun q a h ha => keeps_aggregate hrun h (ha.get "function") (ha.get "columns")
  · exact fun q a h ha => keeps_returning
      (within_forAggregate h (ha.get "function") (ha.get "columns")).keeps _

theorem keeps_changingMethods (hrun : b.Runs run) :
    ∀ m ∈ changingMethods, m.KeepsReading b run := by
  simp only [changingMethods, List.forall_mem_cons]
  refine ⟨?_, ?_, ?_, ?_, ?_, ?_, ?_, ?_, ?_, fun _ h => nomatch h⟩
  · exact fun q a _ _ => (keeps_insert hrun q _).next fun _ => within_pure trivial
  · exact fun q a _ _ => keeps_insertOrIgnore hrun q _
  · exact fun q a _ _ => keeps_insertGetId hrun q _ _
  · exact fun q a h ha => keeps_insertUsing hrun h _ (ha.get "query")
  · exact fun q a _ _ => keeps_update hrun q _
  · exact fun q a _ _ => keeps_step hrun q _ _ _ _
  · exact fun q a _ _ => keeps_step hrun q _ _ _ _
  · exact fun q a h ha => keeps_delete hrun h (ha.get "id")
  · exact fun q a _ _ => (keeps_truncate hrun q).next fun _ => within_pure trivial

theorem keeps_copyingMethods : ∀ m ∈ copyingMethods, m.KeepsReading b run := by
  simp only [copyingMethods, List.forall_mem_cons]
  refine ⟨?_, ?_, ?_, ?_, ?_, ?_, fun _ h => nomatch h⟩
  · exact fun q a _ _ => within_pure trivial
  · exact fun q a h _ => keeps_returning (within_newQuery h).keeps _
  · exact fun q a h _ => keeps_returning (within_newStatement h).keeps _
  · exact fun q a h _ => keeps_returning (within_copy h).keeps _
  · exact fun q a h _ => keeps_returning (keeps_copyWithout h _) _
  · exact fun q a h _ => keeps_returning (keeps_copyWithoutBindings h _) _

/-- The method keeps to a boundary if its query is not kept. -/
def Method.KeepsBuilding (b : Boundary) (run : Runner) (m : Method QueryId) : Prop :=
  ∀ q a, ¬b.kept q → b.AdmitsArguments a → (m.run run q a).Keeps b

theorem Method.KeepsReading.building {m : Method QueryId} (h : m.KeepsReading b run) :
    m.KeepsBuilding b run := fun q a hq ha => h q a (Boundary.not_hidden_of_not_kept hq) ha

theorem keeps_builder {name : String} {parameters : List Parameter}
    {build : Runner → QueryId → Arguments → Action Unit}
    (h : ∀ q a, ¬b.kept q → b.AdmitsArguments a → (build run q a).Keeps b) :
    (builder name parameters build).KeepsBuilding b run := fun q a hq ha =>
  (h q a hq ha).next fun _ => within_pure trivial

theorem keeps_builderOfMany {name : String} {build : Runner → QueryId → List Value → Action Unit}
    (h : ∀ q vs, ¬b.kept q → b.AdmitsAll vs → (build run q vs).Keeps b) :
    (builderOfMany name build).KeepsBuilding b run := fun q a hq ha =>
  (h q a.rest hq ha.rest).next fun _ => within_pure trivial

theorem keeps_selectMethods (hrun : b.Runs run) :
    ∀ m ∈ selectMethods, m.KeepsBuilding b run := by
  simp only [selectMethods, List.forall_mem_cons]
  refine ⟨?_, ?_, ?_, ?_, ?_, ?_, ?_, ?_, fun _ h => nomatch h⟩
  · exact keeps_builderOfMany fun q vs hq hvs => keeps_select hrun hq hvs
  · exact keeps_builderOfMany fun q vs hq hvs => keeps_addSelect hrun hq hvs
  · exact keeps_builder fun q a hq ha => keeps_selectRaw hq (ha.get _) (ha.get _)
  · exact keeps_builder fun q a hq ha => keeps_selectSub hrun hq (ha.get _) _
  · exact keeps_builder fun q a hq _ => keeps_distinct hq
  · exact keeps_builder fun q a hq ha => keeps_setSource hrun hq (ha.get _) _
  · exact keeps_builder fun q a hq ha => keeps_fromSub hrun hq (ha.get _) _
  · exact keeps_builder fun q a hq ha => keeps_fromRaw hq (ha.get _) (ha.get _)

theorem Boundary.AdmitsArguments.condition {a : Arguments} (h : b.AdmitsArguments a) :
    b.AdmitsCondition (a.get "first") (a.get "operator") (a.get "second") :=
  ⟨h.get _, h.get _, h.get _⟩

theorem keeps_joinMethodsOf (hrun : b.Runs run) (word : String) :
    ∀ m ∈ joinMethodsOf word, m.KeepsBuilding b run := by
  simp only [joinMethodsOf, List.forall_mem_cons]
  refine ⟨?_, ?_, ?_, fun _ h => nomatch h⟩
  · exact keeps_builder fun q a hq ha =>
      keeps_join hrun hq (ha.get _) ha.condition (Boundary.admits_text _) _
  · exact keeps_builder fun q a hq ha =>
      keeps_join hrun hq (ha.get _) ha.condition (Boundary.admits_text _) _
  · exact keeps_builder fun q a hq ha =>
      keeps_joinSub hrun hq (ha.get _) ha.condition (Boundary.admits_text _) _

theorem keeps_joiningMethods (hrun : b.Runs run) :
    ∀ m ∈ joiningMethods, m.KeepsBuilding b run := by
  simp only [joiningMethods, List.forall_mem_append, List.forall_mem_cons]
  refine ⟨⟨⟨⟨?_, ?_, ?_, fun _ h => nomatch h⟩, keeps_joinMethodsOf hrun _⟩,
    keeps_joinMethodsOf hrun _⟩, ?_, ?_, fun _ h => nomatch h⟩
  · exact keeps_builder fun q a hq ha =>
      keeps_join hrun hq (ha.get _) ha.condition (ha.get _) _
  · exact keeps_builder fun q a hq ha =>
      keeps_join hrun hq (ha.get _) ha.condition (ha.get _) _
  · exact keeps_builder fun q a hq ha =>
      keeps_joinSub hrun hq (ha.get _) ha.condition (ha.get _) _
  · exact keeps_builder fun q a hq ha => keeps_crossJoin hrun hq (ha.get _) ha.condition
  · exact fun q a _ ha => (within_needQuery (ha.get _)).bind fun parent hparent =>
      keeps_returning (within_newJoin hparent (ha.get _) (ha.get _)).keeps _

theorem keeps_comparisonMethods (hrun : b.Runs run) :
    ∀ m ∈ comparisonMethods, m.KeepsBuilding b run := by
  simp only [comparisonMethods, List.forall_mem_cons]
  refine ⟨?_, ?_, ?_, ?_, ?_, ?_, ?_, ?_, ?_, ?_, ?_, fun _ h => nomatch h⟩
  · exact keeps_builder fun q a hq ha =>
      keeps_where hrun hq (ha.get _) (ha.get? _) (ha.get? _) (ha.get _)
  · exact keeps_builder fun q a hq ha =>
      keeps_where hrun hq (ha.get _) (ha.get? _) (ha.get? _) (Boundary.admits_text _)
  · exact keeps_builder fun q a hq ha =>
      keeps_whereNot hrun hq (ha.get _) (ha.get? _) (ha.get? _) _
  · exact keeps_builder fun q a hq ha =>
      keeps_whereColumn hrun hq (ha.get _) (ha.get _) (ha.get _) (ha.get _)
  · exact keeps_builder fun q a hq ha =>
      keeps_whereColumn hrun hq (ha.get _) (ha.get _) (ha.get _) (Boundary.admits_text _)
  · exact keeps_builder fun q a hq ha => keeps_whereRaw hq (ha.get _) (ha.get _) (ha.get _)
  · exact keeps_builder fun q a hq ha =>
      keeps_whereRaw hq (ha.get _) (ha.get _) (Boundary.admits_text _)
  · exact keeps_builder fun q a hq ha => keeps_whereNested hrun hq _ (ha.get _)
  · exact fun q a hq _ => keeps_returning
      (within_forNestedWhere hrun (Boundary.not_hidden_of_not_kept hq)).keeps _
  · exact keeps_builder fun q a hq ha => (within_needQuery (ha.get _)).bind fun nested hnested =>
      keeps_addNested hq hnested (ha.get _)
  · exact keeps_builder fun q a hq ha =>
      keeps_whereSub hrun hq (ha.get _) (ha.get _) (ha.get _) (ha.get _)

theorem keeps_membershipMethods (hrun : b.Runs run) :
    ∀ m ∈ membershipMethods, m.KeepsBuilding b run := by
  simp only [membershipMethods, List.forall_mem_cons]
  refine ⟨?_, ?_, ?_, ?_, ?_, ?_, ?_, ?_, ?_, ?_, ?_, ?_, ?_, ?_, fun _ h => nomatch h⟩
  · exact keeps_builder fun q a hq ha => keeps_whereIn hrun hq (ha.get _) (ha.get _) (ha.get _) _
  · exact keeps_builder fun q a hq ha =>
      keeps_whereIn hrun hq (ha.get _) (ha.get _) (Boundary.admits_text _) _
  · exact keeps_builder fun q a hq ha => keeps_whereIn hrun hq (ha.get _) (ha.get _) (ha.get _) _
  · exact keeps_builder fun q a hq ha =>
      keeps_whereIn hrun hq (ha.get _) (ha.get _) (Boundary.admits_text _) _
  · exact keeps_builder fun q a hq ha =>
      keeps_whereIntegerIn hq (ha.get _) (ha.get _) (ha.get _) _
  · exact keeps_builder fun q a hq ha =>
      keeps_whereIntegerIn hq (ha.get _) (ha.get _) (ha.get _) _
  · exact keeps_builder fun q a hq ha => keeps_whereNull hq (ha.get _) (ha.get _) _
  · exact keeps_builder fun q a hq ha =>
      keeps_whereNull hq (ha.get _) (Boundary.admits_text _) _
  · exact keeps_builder fun q a hq ha => keeps_whereNull hq (ha.get _) (ha.get _) _
  · exact keeps_builder fun q a hq ha =>
      keeps_whereNull hq (ha.get _) (Boundary.admits_text _) _
  · exact keeps_builder fun q a hq ha => keeps_whereBetween hq (ha.get _) (ha.get _) (ha.get _) _
  · exact keeps_builder fun q a hq ha =>
      keeps_whereBetween hq (ha.get _) (ha.get _) (Boundary.admits_text _) _
  · exact keeps_builder fun q a hq ha => keeps_whereBetween hq (ha.get _) (ha.get _) (ha.get _) _
  · exact keeps_builder fun q a hq ha =>
      keeps_whereBetween hq (ha.get _) (ha.get _) (Boundary.admits_text _) _

theorem keeps_datePartMethod (hrun : b.Runs run) (hsealed : ∀ id, b.kept id → b.hidden id)
    (part : DatePart) : (datePartMethod part).KeepsBuilding b run :=
  keeps_builder fun _ _ hq ha =>
    keeps_whereDatePart hrun hsealed hq part (ha.get _) (ha.get _) (ha.get? _) (ha.get _)

theorem keeps_orDatePartMethod (hrun : b.Runs run) (hsealed : ∀ id, b.kept id → b.hidden id)
    (part : DatePart) : (orDatePartMethod part).KeepsBuilding b run :=
  keeps_builder fun _ _ hq ha =>
    keeps_whereDatePart hrun hsealed hq part (ha.get _) (ha.get _) (ha.get? _)
      (Boundary.admits_text _)

theorem keeps_furtherWhereMethods (hrun : b.Runs run) (hsealed : ∀ id, b.kept id → b.hidden id) :
    ∀ m ∈ furtherWhereMethods, m.KeepsBuilding b run := by
  unfold furtherWhereMethods
  simp only [List.forall_mem_append]
  refine ⟨⟨List.forall_mem_map.2 fun part _ => keeps_datePartMethod hrun hsealed part,
    List.forall_mem_map.2 fun part _ => keeps_orDatePartMethod hrun hsealed part⟩, ?_⟩
  simp only [List.forall_mem_cons]
  refine ⟨?_, ?_, ?_, ?_, ?_, ?_, ?_, ?_, ?_, ?_, ?_, ?_, fun _ h => nomatch h⟩
  · exact keeps_builder fun q a hq ha => keeps_whereExists hrun hq (ha.get _) (ha.get _) _
  · exact keeps_builder fun q a hq ha =>
      keeps_whereExists hrun hq (ha.get _) (Boundary.admits_text _) _
  · exact keeps_builder fun q a hq ha => keeps_whereExists hrun hq (ha.get _) (ha.get _) _
  · exact keeps_builder fun q a hq ha =>
      keeps_whereExists hrun hq (ha.get _) (Boundary.admits_text _) _
  · exact keeps_builder fun q a hq ha => keeps_addWhereExists hq (ha.get _) (ha.get _) _
  · exact keeps_builder fun q a hq ha =>
      keeps_whereRowValues hq (ha.get _) (ha.get _) (ha.get _) (ha.get _)
  · exact keeps_builder fun q a hq ha =>
      keeps_whereRowValues hq (ha.get _) (ha.get _) (ha.get _) (Boundary.admits_text _)
  · exact keeps_builder fun q a hq ha =>
      keeps_whereJsonContains hq (ha.get _) (ha.get _) (ha.get _) _
  · exact keeps_builder fun q a hq ha =>
      keeps_whereJsonContains hq (ha.get _) (ha.get _) (Boundary.admits_text _) _
  · exact keeps_builder fun q a hq ha =>
      keeps_whereJsonContains hq (ha.get _) (ha.get _) (ha.get _) _
  · exact keeps_builder fun q a hq ha =>
      keeps_whereJsonLength hq (ha.get _) (ha.get _) (ha.get? _) (ha.get _)
  · exact keeps_builder fun q a hq ha =>
      keeps_whereJsonLength hq (ha.get _) (ha.get _) (ha.get? _) (Boundary.admits_text _)

theorem keeps_groupMethods : ∀ m ∈ groupMethods, m.KeepsBuilding b run := by
  simp only [groupMethods, List.forall_mem_cons]
  refine ⟨?_, ?_, ?_, ?_, ?_, ?_, ?_, ?_, ?_, fun _ h => nomatch h⟩
  · exact keeps_builderOfMany fun q vs hq hvs => keeps_groupBy hq hvs
  · exact keeps_builder fun q a hq ha => keeps_groupByRaw hq (ha.get _) (ha.get _)
  · exact keeps_builder fun q a hq ha =>
      keeps_having hq (ha.get _) (ha.get? _) (ha.get? _) (ha.get _)
  · exact keeps_builder fun q a hq ha =>
      keeps_having hq (ha.get _) (ha.get? _) (ha.get? _) (Boundary.admits_text _)
  · exact keeps_builder fun q a hq ha => keeps_havingRaw hq (ha.get _) (ha.get _) (ha.get _)
  · exact keeps_builder fun q a hq ha =>
      keeps_havingRaw hq (ha.get _) (ha.get _) (Boundary.admits_text _)
  · exact keeps_builder fun q a hq ha => keeps_havingBetween hq (ha.get _) (ha.get _) (ha.get _) _
  · exact keeps_builder fun q a hq ha => keeps_havingNull hq (ha.get _) (ha.get _) _
  · exact keeps_builder fun q a hq ha => keeps_havingNull hq (ha.get _) (ha.get _) _

theorem keeps_orderMethods (hrun : b.Runs run) (hsealed : ∀ id, b.kept id → b.hidden id) :
    ∀ m ∈ orderMethods, m.KeepsBuilding b run := by
  have horder : ∀ (word : String) (q : QueryId) (a : Arguments), ¬b.kept q →
      b.AdmitsArguments a → (q.orderBy run (a.get "column") (.text word)).Keeps b :=
    fun word q a hq ha => keeps_orderBy hrun hsealed hq (ha.get _) (Boundary.admits_text _)
  simp only [orderMethods, List.forall_mem_cons]
  refine ⟨?_, ?_, ?_, ?_, ?_, ?_, ?_, ?_, ?_, ?_, ?_, ?_, ?_, ?_, ?_, ?_, ?_, ?_,
    fun _ h => nomatch h⟩
  · exact keeps_builder fun q a hq ha => keeps_orderBy hrun hsealed hq (ha.get _) (ha.get _)
  · exact keeps_builder (horder "desc")
  · exact keeps_builder (horder "desc")
  · exact keeps_builder (horder "asc")
  · exact keeps_builder fun q a hq _ => keeps_inRandomOrder hq _
  · exact keeps_builder fun q a hq ha => keeps_orderByRaw hq (ha.get _) (ha.get _)
  · exact keeps_builder fun q a hq ha => keeps_reorder hrun hsealed hq (ha.get _) (ha.get _)
  · exact keeps_builder fun q a hq _ => keeps_offset hq _
  · exact keeps_builder fun q a hq _ => keeps_offset hq _
  · exact keeps_builder fun q a hq _ => keeps_limit hq _
  · exact keeps_builder fun q a hq _ => keeps_limit hq _
  · exact keeps_builder fun q a hq _ => keeps_forPage hq _ _
  · exact keeps_builder fun q a hq ha => keeps_union hrun hq (ha.get _) (ha.get _)
  · exact keeps_builder fun q a hq ha => keeps_union hrun hq (ha.get _) (Boundary.admits_bool _)
  · exact keeps_builder fun q a hq ha => keeps_lock hq (ha.get _)
  · exact keeps_builder fun q a hq _ => keeps_lock hq (Boundary.admits_bool _)
  · exact keeps_builder fun q a hq _ => keeps_lock hq (Boundary.admits_bool _)
  · exact fun q a hq ha => (within_whenever hrun hq (ha.get _) _ _).keeps

theorem keeps_bindingMethods : ∀ m ∈ bindingMethods, m.KeepsBuilding b run := by
  simp only [bindingMethods, List.forall_mem_cons]
  refine ⟨?_, ?_, ?_, ?_, ?_, fun _ h => nomatch h⟩
  · exact fun q a _ _ => keeps_returning (keeps_bindings q) _
  · exact fun q a _ _ => within_pure trivial
  · exact keeps_builder fun q a hq ha => keeps_setBindings hq (ha.get _) _
  · exact keeps_builder fun q a hq ha => keeps_addBinding hq (ha.get _) _
  · exact keeps_builder fun q a hq ha => keeps_mergeBindings hq (ha.get _)

theorem keeps_joinConditionMethods (hrun : b.Runs run) :
    ∀ m ∈ joinMethods, m.KeepsBuilding b run := by
  simp only [joinMethods, List.forall_mem_cons]
  refine ⟨?_, ?_, fun _ h => nomatch h⟩
  · exact keeps_builder fun q a hq ha =>
      keeps_on hrun hq (ha.get _) (ha.get _) (ha.get _) (ha.get _)
  · exact keeps_builder fun q a hq ha =>
      keeps_on hrun hq (ha.get _) (ha.get _) (ha.get _) (Boundary.admits_text _)

theorem keeps_queryMethods (hrun : b.Runs run) (hsealed : ∀ id, b.kept id → b.hidden id) :
    ∀ m ∈ queryMethods, m.KeepsBuilding b run := by
  simp only [queryMethods, List.forall_mem_append]
  exact ⟨⟨⟨⟨⟨⟨⟨⟨⟨⟨⟨keeps_selectMethods hrun, keeps_joiningMethods hrun⟩,
    keeps_comparisonMethods hrun⟩, keeps_membershipMethods hrun⟩,
    keeps_furtherWhereMethods hrun hsealed⟩, keeps_groupMethods⟩,
    keeps_orderMethods hrun hsealed⟩, keeps_bindingMethods⟩,
    fun m hm => (keeps_compilingMethods hrun m hm).building⟩,
    fun m hm => (keeps_readingMethods hrun m hm).building⟩,
    fun m hm => (keeps_changingMethods hrun m hm).building⟩,
    fun m hm => (keeps_copyingMethods m hm).building⟩

/-! ## Calls -/

theorem keeps_boundCall {m : Method QueryId} (hplain : ∀ p ∈ m.signature.parameters, p.isPlain)
    (hm : ∀ a, b.AdmitsArguments a → (m.run run q a).Keeps b) {placed : List Value}
    {named : List (String × Value)} (hplaced : b.AdmitsAll placed)
    (hnamed : ∀ x ∈ named, b.Admits x.2) : (m.call run q placed named).Keeps b :=
  (within_ofExcept fun _ ha => admits_bound hplain hplaced hnamed ha).bind hm

theorem plain_of_mem {methods : List (Method QueryId)} (h : plainMethods methods = true)
    {m : Method QueryId} (hm : m ∈ methods) : ∀ p ∈ m.signature.parameters, p.isPlain :=
  List.all_eq_true.1 (List.all_eq_true.1 h m hm)

/-- A call of any method of a query or a join condition. -/
theorem keeps_call (hrun : b.Runs run) (hsealed : ∀ id, b.kept id → b.hidden id)
    {m : Method QueryId} (hm : m ∈ queryMethods ++ joinMethods) (hq : ¬b.kept q)
    {placed : List Value} {named : List (String × Value)} (hplaced : b.AdmitsAll placed)
    (hnamed : ∀ x ∈ named, b.Admits x.2) : (m.call run q placed named).Keeps b := by
  have hplain : plainMethods (queryMethods ++ joinMethods) = true := by
    unfold plainMethods
    rw [List.all_append, Bool.and_eq_true]
    exact ⟨plain_queryMethods, plain_joinMethods⟩
  refine keeps_boundCall (plain_of_mem hplain hm) (fun a ha => ?_) hplaced hnamed
  rcases List.mem_append.1 hm with hm | hm
  · exact keeps_queryMethods hrun hsealed m hm q a hq ha
  · exact keeps_joinConditionMethods hrun m hm q a hq ha

end FluentSql
