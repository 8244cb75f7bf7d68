import FluentSql.Fluent.Order
import FluentSql.Proofs.Operators.Basic

/-!
# Operators that calls keep

A fluent call adds conditions whose operators its query knows, whatever its
arguments are and whether it succeeds or fails, as long as its callbacks do.

* `Where.operators` and `Having.operators` are the operators that a condition
  writes, and `Store.OperatorsKnown` says that all queries know theirs.
  `Grammar.hasWord_whereSql` finds them in its text.
* `Store.OperatorsKept` relates the stores before and after.
* `Action.KeepsOperators` says that an action keeps operators known if a query
  knows some of them.
* The calls in families, as in the modules under `FluentSql.Fluent`.  Two
  calls write an operator that they have not looked at: `whereSub` and
  `whereRowValues`.
-/

namespace FluentSql

/-! ## Operators of queries -/

/-- The operators that a condition writes. -/
def Where.operators : Where → List Value
  | basic _ operator _ | datePart _ _ operator _ | columnPair _ operator _
  | jsonLength _ operator _ => [.text operator]
  | sub _ operator _ | rowValues _ operator _ => [operator]
  | _ => []

/-- The operators that a condition on groups writes. -/
def Having.operators : Having → List Value
  | basic _ operator _ => [.text operator]
  | _ => []

/-- A text has a word between two blanks. -/
def HasWord (word sql : String) : Prop :=
  ∃ before after, sql = before ++ " " ++ word ++ " " ++ after

namespace Grammar

variable {g : Grammar} {column value : Value} {word sql : String}

theorem hasWord_comparisonSql (h : g.comparisonSql column word value = .ok sql) :
    HasWord word sql := by
  obtain ⟨first, _, h⟩ := Name.bind_eq_ok h
  cases h
  exact ⟨first, _, rfl⟩

theorem hasWord_basicSql (h : g.basicSql column word value = .ok sql) : HasWord word sql := by
  unfold basicSql at h
  split at h
  · obtain ⟨first, _, h⟩ := Name.bind_eq_ok h
    cases h
    exact ⟨first ++ "::text", (parameter value).display, by simp [← String.toList_inj]⟩
  · exact hasWord_comparisonSql h

theorem hasWord_datePartSql {part : DatePart}
    (h : g.datePartSql part column word value = .ok sql) : HasWord word sql := by
  obtain ⟨first, _, h⟩ := Name.bind_eq_ok h
  cases h
  split
  · exact ⟨first ++ "::date", (parameter value).display, by simp [← String.toList_inj]⟩
  · exact ⟨first ++ "::time", (parameter value).display, by simp [← String.toList_inj]⟩
  next part _ _ _ _ _ =>
    exact ⟨"extract(" ++ part.name ++ " from " ++ first ++ ")", (parameter value).display, by
      simp [← String.toList_inj]⟩
  next part _ _ _ =>
    exact ⟨"strftime('" ++ part.pattern ++ "', " ++ first ++ ")",
      "cast(" ++ (parameter value).display ++ " as text)", by simp [← String.toList_inj]⟩
  next part _ _ _ _ _ _ =>
    exact ⟨part.name ++ "(" ++ first ++ ")", (parameter value).display, by
      simp [← String.toList_inj]⟩

theorem hasWord_jsonLengthSql {oracle : Oracle}
    (h : g.jsonLengthSql oracle column word value = .ok sql) : HasWord word sql := by
  unfold jsonLengthSql at h
  split at h
  · exact nomatch h
  · obtain ⟨⟨field, path⟩, _, h⟩ := Name.bind_eq_ok h
    cases h
    exact ⟨"json_length(" ++ field.display ++ path ++ ")", value.display, by
      simp [← String.toList_inj]⟩
  · obtain ⟨wrapped, _, h⟩ := Name.bind_eq_ok h
    obtain ⟨first, _, h⟩ := Name.bind_eq_ok h
    cases h
    exact ⟨"json_array_length((" ++ first ++ ")::json)", value.display, by
      simp [← String.toList_inj]⟩
  · obtain ⟨⟨field, path⟩, _, h⟩ := Name.bind_eq_ok h
    cases h
    exact ⟨"json_array_length(" ++ field.display ++ path ++ ")", value.display, by
      simp [← String.toList_inj]⟩

/-- The operators of a condition stand in its text as they are. -/
theorem hasWord_whereSql {attached : Attached} {body : Where} {operator : Value}
    (hmem : operator ∈ body.operators) (h : g.whereSql attached body = .ok sql) :
    HasWord operator.display sql := by
  cases body with
  | basic column word value =>
    obtain rfl := List.mem_singleton.1 hmem
    exact hasWord_basicSql h
  | datePart part column word value =>
    obtain rfl := List.mem_singleton.1 hmem
    exact hasWord_datePartSql h
  | columnPair first word second =>
    obtain rfl := List.mem_singleton.1 hmem
    obtain ⟨first, _, h⟩ := Name.bind_eq_ok h
    obtain ⟨second, _, h⟩ := Name.bind_eq_ok h
    cases h
    exact ⟨first, second, rfl⟩
  | sub column operator query =>
    obtain rfl := List.mem_singleton.1 hmem
    obtain ⟨select, _, h⟩ := Name.bind_eq_ok h
    obtain ⟨first, _, h⟩ := Name.bind_eq_ok h
    cases h
    exact ⟨first, "(" ++ select ++ ")", by simp [← String.toList_inj]⟩
  | rowValues columns operator values =>
    obtain rfl := List.mem_singleton.1 hmem
    obtain ⟨columns, _, h⟩ := Name.bind_eq_ok h
    obtain ⟨values, _, h⟩ := Name.bind_eq_ok h
    cases h
    exact ⟨"(" ++ columns ++ ")", "(" ++ values ++ ")", by simp [← String.toList_inj]⟩
  | jsonLength column word value =>
    obtain rfl := List.mem_singleton.1 hmem
    exact hasWord_jsonLengthSql h
  | _ => exact nomatch hmem

end Grammar

/-- The operators that the conditions of a query write. -/
def Query.operators (q : Query) : List Value :=
  q.wheres.flatMap (·.body.operators) ++ q.havings.flatMap (·.body.operators)

namespace Store

/-- Every query knows the operators of its conditions. -/
def OperatorsKnown (s : Store) : Prop :=
  ∀ id, ∀ operator ∈ (s.query id).operators, s.Knows id operator

/-- The queries of a store are asked for their operators as before, and they know those of their
conditions if they did before. -/
structure OperatorsKept (s s' : Store) : Prop where
  size_le : s.queries.size ≤ s'.queries.size
  added : ∀ id : QueryId, id.index < s.queries.size →
    s'.operatorsOf (s'.query id).grammar = s.operatorsOf (s.query id).grammar
  known : s.OperatorsKnown → s'.OperatorsKnown

variable {s s' s'' : Store} {q : QueryId}

namespace OperatorsKept

theorem refl (s : Store) : s.OperatorsKept s := ⟨Nat.le_refl _, fun _ _ => rfl, id⟩

theorem trans (h : s.OperatorsKept s') (h' : s'.OperatorsKept s'') : s.OperatorsKept s'' where
  size_le := Nat.le_trans h.size_le h'.size_le
  added id hid := (h'.added id (Nat.lt_of_lt_of_le hid h.size_le)).trans (h.added id hid)
  known := h'.known ∘ h.known

theorem lt (h : s.OperatorsKept s') (hq : q.index < s.queries.size) :
    q.index < s'.queries.size :=
  Nat.lt_of_lt_of_le hq h.size_le

theorem isOperator (h : s.OperatorsKept s') (hq : q.index < s.queries.size) (word : String) :
    s'.isOperator q word = s.isOperator q word := by
  unfold Store.isOperator
  rw [h.added q hq]

theorem knows_iff (h : s.OperatorsKept s') (hq : q.index < s.queries.size) (operator : Value) :
    s'.Knows q operator ↔ s.Knows q operator := by
  unfold Knows
  simp only [h.isOperator hq]

end OperatorsKept

theorem operatorsOf_edit {f : Query → Query}
    (hgrammar : ∀ query, (f query).grammar = query.grammar) (id : QueryId) :
    (s.edit q f).operatorsOf ((s.edit q f).query id).grammar =
      s.operatorsOf (s.query id).grammar := by
  have hsame : ((s.edit q f).query id).grammar = (s.query id).grammar := by
    obtain heq | ⟨_, _, heq⟩ := s.query_edit_cases q f id <;> rw [heq]
    exact hgrammar _
  rw [hsame]
  rfl

theorem knows_edit_iff {f : Query → Query}
    (hgrammar : ∀ query, (f query).grammar = query.grammar) {id : QueryId} {operator : Value} :
    (s.edit q f).Knows id operator ↔ s.Knows id operator := by
  unfold Knows Store.isOperator
  rw [operatorsOf_edit hgrammar]

/-- A change of a query that leaves its grammar, and adds operators that it knows only. -/
theorem operatorsKept_edit {f : Query → Query} (hgrammar : ∀ query, (f query).grammar = query.grammar)
    (hoperators : q.index < s.queries.size → ∀ operator ∈ (f (s.query q)).operators,
      operator ∈ (s.query q).operators ∨ s.Knows q operator) : s.OperatorsKept (s.edit q f) := by
  refine ⟨Nat.le_of_eq (s.size_edit q f).symm, fun id _ => operatorsOf_edit hgrammar id,
    fun h id operator hmem => (knows_edit_iff hgrammar).2 ?_⟩
  obtain heq | ⟨rfl, hlt, heq⟩ := s.query_edit_cases q f id <;> rw [heq] at hmem
  · exact h id operator hmem
  · obtain hold | hnew := hoperators hlt operator hmem
    · exact h id operator hold
    · exact hnew

/-- A new query is there. -/
theorem next_lt_add (s : Store) (query : Query) : s.next.index < (s.add query).queries.size := by
  rw [size_add]
  exact Nat.lt_succ_self _

/-- A new query without conditions. -/
theorem operatorsKept_add {query : Query} (hnone : query.operators = []) :
    s.OperatorsKept (s.add query) := by
  have hadded : ∀ id : QueryId, id.index < s.queries.size →
      (s.add query).operatorsOf ((s.add query).query id).grammar =
        s.operatorsOf (s.query id).grammar := by
    intro id hid
    rw [query_add_of_lt hid]
    rfl
  refine ⟨by rw [size_add]; omega, hadded, fun h id operator hmem => ?_⟩
  by_cases hid : id.index < s.queries.size
  · rw [query_add_of_lt hid] at hmem
    obtain ⟨word, rfl, hword⟩ := h id operator hmem
    refine ⟨word, rfl, ?_⟩
    unfold Store.isOperator at hword ⊢
    rwa [hadded id hid]
  · have hno : operator ∈ ([] : List Value) := by
      obtain heq | heq := s.query_add_cases query id <;> rw [heq] at hmem
      · rwa [query_of_le (Nat.le_of_not_lt hid)] at hmem
      · rwa [hnone] at hmem
    exact nomatch hno

end Store

/-! ## Actions that keep operators known -/

/-- The action keeps operators known, whether it succeeds or fails, if a query is there and knows
some of them. -/
def Action.KeepsOperators {α : Type} (t : QueryId) (operators : List Value) (a : Action α) : Prop :=
  ∀ s : Store, t.index < s.queries.size → (∀ operator ∈ operators, s.Knows t operator) →
    s.OperatorsKept (a.runOn s).2

/-- Callbacks keep operators known when they are run on a query that is there, and extensions on any
query. -/
structure Runner.KeepsOperators (run : Runner) : Prop where
  calls : ∀ callback q extra, (run callback q extra).KeepsOperators q []
  answers : ∀ (s : Store) name callback, s.extension? name = some callback →
    ∀ q extra, s.OperatorsKept ((run callback q extra).runOn s).2

section Combinators

variable {α β : Type} {a : Action α} {f : α → Action β} {t : QueryId} {operators : List Value}

/-- An action after another, in one store. -/
theorem operatorsKept_bind {s : Store} (ha : s.OperatorsKept (a.runOn s).2)
    (hf : ∀ v s', a.runOn s = (.ok v, s') → s.OperatorsKept s' →
      s'.OperatorsKept ((f v).runOn s').2) : s.OperatorsKept ((a >>= f).runOn s).2 := by
  rw [Action.runOn_bind]
  cases hr : (a.runOn s).1 with
  | error e => exact ha
  | ok v => exact ha.trans (hf v _ (Prod.ext hr rfl) ha)

/-- What a query knows it knows also after an action that keeps operators known. -/
theorem Action.KeepsOperators.next (ha : a.KeepsOperators t operators)
    (hf : ∀ v, (f v).KeepsOperators t operators) : (a >>= f).KeepsOperators t operators :=
  fun s ht hknows => operatorsKept_bind (ha s ht hknows) fun v s' _ hkept =>
    hf v s' (hkept.lt ht) fun operator hmem =>
      (hkept.knows_iff ht operator).2 (hknows operator hmem)

/-- An action that needs no operator of the query. -/
theorem Action.KeepsOperators.kept (ha : a.KeepsOperators t []) {s : Store}
    (ht : t.index < s.queries.size) : s.OperatorsKept (a.runOn s).2 :=
  ha s ht fun _ hmem => nomatch hmem

/-- An action that succeeds has kept operators known. -/
theorem Action.KeepsOperators.of_ran (ha : a.KeepsOperators t []) {s s' : Store} {v : α}
    (h : Ran a s v s') (ht : t.index < s.queries.size) : s.OperatorsKept s' := by
  have hkept := ha.kept ht
  rwa [show a.runOn s = (.ok v, s') from h] at hkept

/-- A query may also know more operators. -/
theorem Action.KeepsOperators.mono {operators' : List Value} (ha : a.KeepsOperators t operators)
    (h : operators ⊆ operators') : a.KeepsOperators t operators' :=
  fun s ht hknows => ha s ht fun operator hmem => hknows operator (h hmem)

/-- What only reads the store keeps all of it. -/
theorem operators_quiet (h : ∀ s, (a.runOn s).2 = s) : a.KeepsOperators t operators :=
  fun s _ _ => (h s).symm ▸ .refl s

theorem operators_pure (v : α) : (pure v : Action α).KeepsOperators t operators :=
  operators_quiet fun _ => rfl

theorem operators_throw (e : Failure) : (throw e : Action α).KeepsOperators t operators :=
  operators_quiet fun _ => rfl

theorem operators_ofExcept (r : Except Failure α) :
    (Action.ofExcept r).KeepsOperators t operators :=
  operators_quiet fun _ => rfl

theorem operators_get : (get : Action Store).KeepsOperators t operators :=
  operators_quiet fun _ => rfl

theorem Action.KeepsOperators.map (ha : a.KeepsOperators t operators) (g : α → β) :
    (g <$> a).KeepsOperators t operators := by
  rw [map_eq_pure_bind]
  exact ha.next fun v => operators_pure (g v)

theorem operators_forM {xs : List α} {f : α → Action PUnit}
    (h : ∀ x ∈ xs, (f x).KeepsOperators t operators) : (xs.forM f).KeepsOperators t operators := by
  induction xs with
  | nil => exact operators_pure _
  | cons x xs ih =>
    show Action.KeepsOperators t operators (f x >>= fun _ => xs.forM f)
    exact (h x List.mem_cons_self).next fun _ => ih fun y hy => h y (List.mem_cons_of_mem x hy)

theorem operators_mapM {xs : List α} {f : α → Action β}
    (h : ∀ x, (f x).KeepsOperators t operators) : (xs.mapM f).KeepsOperators t operators := by
  induction xs with
  | nil => exact operators_pure _
  | cons x xs ih =>
    rw [List.mapM_cons]
    exact (h x).next fun _ => ih.next fun _ => operators_pure _

end Combinators

section

variable {run : Runner} {q t : QueryId} {operators : List Value}

/-! ## Changes of queries -/

/-- A change that neither adds an operator nor touches the grammar. -/
theorem operators_modify {f : Query → Query} (hgrammar : ∀ query, (f query).grammar = query.grammar)
    (hoperators : ∀ query, (f query).operators = query.operators) :
    (q.modify f).KeepsOperators t operators := fun _ _ _ =>
  Store.operatorsKept_edit hgrammar fun _ _ hmem => .inl (hoperators _ ▸ hmem)

theorem operators_bind (q : QueryId) (group : BindingGroup) (values : List Value) :
    (q.bind group values).KeepsOperators t operators :=
  operators_modify (fun _ => rfl) fun _ => rfl

theorem operators_bindValue (q : QueryId) (group : BindingGroup) (value : Value) :
    (q.bindValue group value).KeepsOperators t operators := by
  unfold QueryId.bindValue
  split
  · exact operators_pure _
  · exact operators_bind q group _

theorem Query.operators_addWhere (query : Query) (boolean : Value) (body : Where) (operator : Value) :
    operator ∈ (query.addWhere boolean body).operators ↔
      operator ∈ query.operators ∨ operator ∈ body.operators := by
  simp only [operators, addWhere, List.flatMap_append, List.flatMap_singleton, List.mem_append]
  tauto

theorem Query.operators_addHaving (query : Query) (boolean : Value) (body : Having)
    (operator : Value) : operator ∈ (query.addHaving boolean body).operators ↔
      operator ∈ query.operators ∨ operator ∈ body.operators := by
  simp only [operators, addHaving, List.flatMap_append, List.flatMap_singleton, List.mem_append]
  tauto

/-- A condition without an operator may be added to any query. -/
theorem operators_addWhere (q : QueryId) (boolean : Value) {body : Where}
    (h : body.operators = []) : (q.addWhere boolean body).KeepsOperators t operators :=
  operators_modify (fun _ => rfl) fun query => by
    simp [Query.operators, Query.addWhere, h]

/-- A condition with operators is added to a query that knows them. -/
theorem operators_addWhere_known (boolean : Value) {body : Where}
    (h : ∀ operator ∈ body.operators, operator ∈ operators) :
    (t.addWhere boolean body).KeepsOperators t operators := fun _ _ hknows =>
  Store.operatorsKept_edit (fun _ => rfl) fun _ operator hmem =>
    ((Query.operators_addWhere _ _ _ operator).1 hmem).imp_right fun hbody =>
      hknows operator (h operator hbody)

theorem operators_addHaving (q : QueryId) (boolean : Value) {body : Having}
    (h : body.operators = []) : (q.addHaving boolean body).KeepsOperators t operators :=
  operators_modify (fun _ => rfl) fun query => by
    simp [Query.operators, Query.addHaving, h]

theorem operators_addHaving_known (boolean : Value) {body : Having}
    (h : ∀ operator ∈ body.operators, operator ∈ operators) :
    (t.addHaving boolean body).KeepsOperators t operators := fun _ _ hknows =>
  Store.operatorsKept_edit (fun _ => rfl) fun _ operator hmem =>
    ((Query.operators_addHaving _ _ _ operator).1 hmem).imp_right fun hbody =>
      hknows operator (h operator hbody)

/-! ## Reading -/

theorem operators_read (q : QueryId) : q.read.KeepsOperators t operators :=
  operators_quiet fun _ => rfl

theorem operators_now (v : Value) : v.now.KeepsOperators t operators := by
  unfold Value.now
  split
  · exact (operators_read _).next fun _ => operators_pure _
  · exact operators_pure _

theorem operators_shown (v : Value) : v.shown.KeepsOperators t operators :=
  operators_quiet fun _ => rfl

theorem operators_displayNow (v : Value) : v.displayNow.KeepsOperators t operators :=
  operators_quiet fun _ => rfl

theorem operators_itemsNow (v : Value) : v.itemsNow.KeepsOperators t operators :=
  (operators_now v).next fun _ => operators_ofExcept _

theorem operators_itemsOrNone (v : Value) : v.itemsOrNone.KeepsOperators t operators := by
  unfold Value.itemsOrNone
  split
  · exact operators_itemsNow v
  · exact operators_pure _

theorem operators_bindings (q : QueryId) : q.bindings.KeepsOperators t operators :=
  operators_quiet fun _ => rfl

theorem operators_needQuery (v : Value) : v.needQuery.KeepsOperators t operators := by
  unfold Value.needQuery
  cases v.query? with
  | none => exact operators_throw _
  | some id => exact operators_pure _

theorem operators_grammarFor (q : QueryId) (method : String) :
    (q.grammarFor method).KeepsOperators t operators :=
  operators_quiet fun _ => rfl

theorem operators_wrapped (q : QueryId) (v : Value) : (q.wrapped v).KeepsOperators t operators :=
  (operators_grammarFor q _).next fun _ => (operators_shown v).next fun _ => operators_ofExcept _

theorem operators_wrappedTable (q : QueryId) (v : Value) :
    (q.wrappedTable v).KeepsOperators t operators :=
  (operators_grammarFor q _).next fun _ => (operators_shown v).next fun _ => operators_ofExcept _

/-- After a comparison its operator is known. -/
theorem operators_comparison {α : Type} {operator value : Option Value} {f : Comparison → Action α}
    (h : ∀ c, (f c).KeepsOperators t (.text c.operator :: operators)) :
    (t.comparison operator value >>= f).KeepsOperators t operators := by
  intro s ht hknows
  obtain ⟨read, hrun⟩ := comparison_runOn t operator value s
  refine operatorsKept_bind (by rw [hrun]; exact .refl s) fun c s' hc _ => ?_
  obtain ⟨rfl, hknown⟩ := knows_of_comparison hc
  exact h c s' ht (List.forall_mem_cons.2 ⟨hknown, hknows⟩)

/-! ## Compiling -/

theorem operators_call (hrun : run.KeepsOperators) (callback : Value) (extra : List Value) :
    (callback.call run t extra).KeepsOperators t operators := by
  unfold Value.call
  split
  · exact (hrun.calls _ t extra).mono (List.nil_subset _)
  · exact operators_throw _

theorem operators_extension (hrun : run.KeepsOperators) (q : QueryId) (name : String)
    (arguments : List Value) :
    (Extensions.call run q name arguments).KeepsOperators t operators := by
  intro s ht hknows
  refine operatorsKept_bind (.refl s) fun s1 s' hran _ => ?_
  cases hran
  split
  · exact hrun.answers s name _ ‹_› q arguments
  · exact .refl s

section

variable {α : Type}

theorem operators_consultFrom (hrun : run.KeepsOperators)
    (compile : Store → KnownAnswers → Except Failure α) (fuel : Nat) (known : KnownAnswers) :
    (consultFrom run compile fuel known).KeepsOperators t operators := by
  induction fuel generalizing known with
  | zero => exact operators_throw _
  | succ fuel ih =>
    refine operators_get.next fun s => ?_
    split
    · exact (operators_extension hrun _ _ _).next fun _ => (operators_shown _).next fun _ => ih _
    · exact operators_ofExcept _

theorem operators_compile (hrun : run.KeepsOperators) (q : QueryId) (method : String)
    (f : Grammar → Attached → Query → Except Failure α) :
    (q.compile run method f).KeepsOperators t operators :=
  operators_consultFrom hrun _ _ _

end

/-! ## Sub-queries -/

section

variable {α : Type} {f : QueryId → Action α}

theorem operators_create_bind {query : Query} (hnone : query.operators = [])
    (h : ∀ new, (f new).KeepsOperators new []) : (query.create >>= f).KeepsOperators t operators := by
  intro s ht hknows
  refine operatorsKept_bind (Store.operatorsKept_add hnone) fun new s' hran _ => ?_
  cases hran
  exact h s.next (s.add query) (s.next_lt_add query) fun _ hmem => nomatch hmem

theorem operators_newStatement_bind (h : ∀ new, (f new).KeepsOperators new []) :
    (q.newStatement >>= f).KeepsOperators t operators := by
  unfold QueryId.newStatement
  rw [bind_assoc]
  exact (operators_read q).next fun _ => operators_create_bind rfl h

theorem operators_newQuery_bind (h : ∀ new, (f new).KeepsOperators new []) :
    (q.newQuery >>= f).KeepsOperators t operators := by
  unfold QueryId.newQuery
  rw [bind_assoc]
  exact (operators_read q).next fun _ => operators_create_bind rfl h

theorem operators_newJoin_bind (type table : Value) (h : ∀ new, (f new).KeepsOperators new []) :
    (q.newJoin type table >>= f).KeepsOperators t operators := by
  unfold QueryId.newJoin
  rw [bind_assoc]
  exact (operators_read q).next fun _ => operators_create_bind rfl h

end

theorem operators_asSub (hrun : run.KeepsOperators) (q : QueryId) :
    (q.asSub run).KeepsOperators t operators :=
  (operators_compile hrun q _ _).next fun _ => (operators_bindings q).next fun _ => operators_pure _

theorem operators_createSub (hrun : run.KeepsOperators) (q : QueryId) (query : Value) :
    (q.createSub run query).KeepsOperators t operators := by
  unfold QueryId.createSub
  split
  · exact operators_asSub hrun _
  · exact operators_newStatement_bind fun sub => (hrun.calls _ sub []).next fun _ =>
      operators_asSub hrun sub
  · exact (operators_displayNow _).next fun _ => operators_pure _
  · exact (operators_displayNow _).next fun _ => operators_pure _
  · exact operators_throw _

theorem operators_resolveSub (hrun : run.KeepsOperators) (q : QueryId) (query : Value) :
    (q.resolveSub run query).KeepsOperators t operators := by
  unfold QueryId.resolveSub
  split
  · exact operators_pure _
  · exact operators_newStatement_bind fun sub => (hrun.calls _ sub []).next fun _ =>
      operators_pure _
  · exact operators_throw _

/-! ## Select list and source -/

theorem operators_addColumns (q : QueryId) (columns : List Value) :
    (q.addColumns columns).KeepsOperators t operators :=
  operators_modify (fun _ => rfl) fun _ => rfl

theorem operators_selectRaw (q : QueryId) (sql bindings : Value) :
    (q.selectRaw sql bindings).KeepsOperators t operators := by
  refine (operators_addColumns q _).next fun _ => ?_
  split
  · exact (operators_itemsNow _).next fun _ => operators_bind q _ _
  · exact operators_pure _

theorem operators_selectSub (hrun : run.KeepsOperators) (q : QueryId) (query name : Value) :
    (q.selectSub run query name).KeepsOperators t operators :=
  (operators_createSub hrun q query).next fun _ => (operators_wrapped q name).next fun _ =>
    operators_selectRaw q _ _

theorem operators_selectAs (hrun : run.KeepsOperators) (q : QueryId) (name value : Value) :
    (q.selectAs run name value).KeepsOperators t operators := by
  unfold QueryId.selectAs
  split
  · exact operators_selectSub hrun q _ _
  · exact (operators_displayNow _).next fun _ => (operators_displayNow _).next fun _ =>
      operators_addColumns q _

theorem operators_addSelect (hrun : run.KeepsOperators) (q : QueryId) (columns : List Value) :
    (q.addSelect run columns).KeepsOperators t operators := by
  refine (operators_addColumns q _).next fun _ => operators_forM fun column _ => ?_
  refine (operators_now column).next fun v => ?_
  split
  · exact operators_forM fun _ _ => operators_selectAs hrun q _ _
  · exact operators_addColumns q _

theorem operators_select (hrun : run.KeepsOperators) (q : QueryId) (columns : List Value) :
    (q.select run columns).KeepsOperators t operators := by
  have hclear : Action.KeepsOperators t operators
      (q.modify fun query => { query.rebind .select [] with columns := some [] }) :=
    operators_modify (fun _ => rfl) fun _ => rfl
  exact hclear.next fun _ => operators_addSelect hrun q _

theorem operators_setTable (q : QueryId) (source : Value) :
    Action.KeepsOperators t operators (q.modify fun query => { query with source }) :=
  operators_modify (fun _ => rfl) fun _ => rfl

theorem operators_fromRaw (q : QueryId) (sql bindings : Value) :
    (q.fromRaw sql bindings).KeepsOperators t operators :=
  (operators_setTable q _).next fun _ => (operators_itemsOrNone _).next fun _ =>
    operators_bind q _ _

theorem operators_fromSub (hrun : run.KeepsOperators) (q : QueryId) (query name : Value) :
    (q.fromSub run query name).KeepsOperators t operators :=
  (operators_createSub hrun q query).next fun _ => (operators_wrappedTable q name).next fun _ =>
    operators_fromRaw q _ _

theorem operators_setSource (hrun : run.KeepsOperators) (q : QueryId) (table name : Value) :
    (q.setSource run table name).KeepsOperators t operators := by
  unfold QueryId.setSource
  split
  · split
    · exact operators_throw _
    · exact operators_fromSub hrun q table name
  · split
    · exact (operators_displayNow _).next fun _ => (operators_displayNow _).next fun _ =>
        operators_setTable q _
    · exact operators_setTable q _

/-! ## Conditions -/

theorem operators_addNested (q nested : QueryId) (boolean : Value) :
    (q.addNested nested boolean).KeepsOperators t operators := by
  refine (operators_read nested).next fun group => ?_
  split
  · exact operators_pure _
  · exact (operators_addWhere q _ rfl).next fun _ => operators_bind q _ _

/-- A group is built on a new query. -/
theorem operators_groupBuiltBy (hrun : run.KeepsOperators) (q : QueryId) (boolean : Value)
    {build : QueryId → Action Unit} (hbuild : ∀ nested, (build nested).KeepsOperators nested []) :
    (q.groupBuiltBy run boolean build).KeepsOperators t operators := by
  unfold QueryId.groupBuiltBy QueryId.forNestedWhere
  simp only [bind_assoc, pure_bind]
  exact operators_newQuery_bind fun nested => (operators_read q).next fun _ =>
    (operators_setSource hrun nested _ _).next fun _ => (hbuild nested).next fun _ =>
      operators_addNested q nested boolean

theorem operators_whereNested (hrun : run.KeepsOperators) (q : QueryId) (callback boolean : Value) :
    (q.whereNested run callback boolean).KeepsOperators t operators :=
  operators_groupBuiltBy hrun q boolean fun _ => (operators_call hrun callback []).map _

theorem operators_whereNull (q : QueryId) (columns boolean : Value) (negated : Bool) :
    (q.whereNull columns boolean negated).KeepsOperators t operators :=
  operators_forM fun _ _ => operators_addWhere q boolean rfl

/-- A sub-query may be compared by an operator that is known. -/
theorem operators_whereSub (hrun : run.KeepsOperators) {operator : Value}
    (hoperator : operator ∈ operators) (column query boolean : Value) :
    (t.whereSub run column operator query boolean).KeepsOperators t operators :=
  (operators_resolveSub hrun t query).next fun _ =>
    (operators_addWhere_known _ fun _ hmem => List.mem_singleton.1 hmem ▸ hoperator).next fun _ =>
      (operators_bindings _).next fun _ => operators_bind t _ _

theorem operators_whereSingle (hrun : run.KeepsOperators) (column : Value)
    (operator value : Option Value) (boolean : Value) :
    (t.whereSingle run column operator value boolean).KeepsOperators t operators := by
  have hadd : ∀ (comparison : Comparison) (column : Value), Action.KeepsOperators t
      (.text comparison.operator :: operators)
      (if comparison.value.isQueryable then
        t.whereSub run column (.text comparison.operator) comparison.value boolean
      else if comparison.value.isNull then
        t.whereNull column boolean (comparison.operator != "=")
      else do
        let value := QueryId.jsonWord column comparison.value
        t.addWhere boolean (.basic column comparison.operator value)
        t.bindValue .condition value) := by
    intro comparison column
    split
    · exact operators_whereSub hrun List.mem_cons_self _ _ _
    · split
      · exact operators_whereNull t _ _ _
      · exact (operators_addWhere_known _ fun _ hmem =>
          List.mem_singleton.1 hmem ▸ List.mem_cons_self).next fun _ => operators_bindValue t _ _
  unfold QueryId.whereSingle
  split
  · exact operators_whereNested hrun t _ _
  · refine operators_comparison fun comparison => ?_
    dsimp only
    split
    · exact (operators_createSub hrun t _).next fun sub => (operators_bind t _ _).next fun _ =>
        hadd comparison _
    · exact hadd comparison _

/-- Two columns are compared by an operator that is known, or by equality. -/
theorem Store.knows_columnPair {s : Store} {first operator second : Value} {body : Where}
    (h : s.columnPair q first operator second = .ok body) :
    ∀ operator ∈ body.operators, s.Knows q operator := by
  have hadd : ∀ word second, s.Knows q (.text word) →
      (if second.isNull then .error (.argument .secondColumnMissing)
        else .ok (.columnPair first word second) : Except Failure Where) = .ok body →
      ∀ operator ∈ body.operators, s.Knows q operator := by
    intro word second hknows heq operator hmem
    split at heq
    · exact nomatch heq
    · cases heq
      exact List.mem_singleton.1 hmem ▸ hknows
  have hequality := hadd "=" operator Store.knows_equality
  unfold Store.columnPair at h
  cases operator with
  | text word =>
    obtain ⟨known, hknown, h⟩ := Name.bind_eq_ok h
    cases known with
    | false => exact hequality h
    | true => exact hadd _ second (Store.knows_lower hknown) h
  | _ => exact hequality h

theorem operators_whereColumnSingle (first operator second boolean : Value) :
    (t.whereColumnSingle first operator second boolean).KeepsOperators t operators := by
  intro s ht _
  rw [whereColumnSingle_runOn]
  cases hpair : s.columnPair t first operator second with
  | error e => exact .refl s
  | ok body =>
    have hadd : Action.KeepsOperators t body.operators (t.addWhere boolean body) :=
      operators_addWhere_known boolean fun _ hmem => hmem
    exact hadd s ht (Store.knows_columnPair hpair)

theorem operators_compareSingle (hrun : run.KeepsOperators) (kind : QueryId.ComparisonKind)
    (arguments : List Value) : (t.compareSingle run kind arguments).KeepsOperators t operators := by
  unfold QueryId.compareSingle
  split
  · exact operators_throw _
  · split
    · exact operators_throw _
    · cases kind with
      | values => exact operators_whereSingle hrun _ _ _ _
      | columns => exact operators_whereColumnSingle _ _ _ _

theorem operators_whereGroup (hrun : run.KeepsOperators) (kind : QueryId.ComparisonKind)
    (fuel : Nat) (q : QueryId) (conditions boolean : Value) :
    (QueryId.whereGroup run kind fuel q conditions boolean).KeepsOperators t operators := by
  induction fuel generalizing t operators q conditions boolean with
  | zero => exact operators_throw _
  | succ fuel ih =>
    refine operators_groupBuiltBy hrun q boolean fun nested => operators_forM fun arguments _ => ?_
    refine (operators_ofExcept arguments).next fun arguments => ?_
    split
    · refine (operators_now _).next fun column => ?_
      split
      · exact ih _ _ _
      · exact operators_compareSingle hrun kind _
    · exact operators_throw _

theorem operators_where (hrun : run.KeepsOperators) (column : Value)
    (operator value : Option Value) (boolean : Value) :
    (t.where run column operator value boolean).KeepsOperators t operators := by
  refine (operators_now column).next fun column => ?_
  split
  · exact operators_whereGroup hrun _ _ t _ _
  · exact operators_whereSingle hrun _ _ _ _

theorem operators_whereColumn (hrun : run.KeepsOperators) (first operator second boolean : Value) :
    (t.whereColumn run first operator second boolean).KeepsOperators t operators := by
  refine (operators_now first).next fun first => ?_
  split
  · exact operators_whereGroup hrun _ _ t _ _
  · exact operators_whereColumnSingle _ _ _ _

theorem operators_whereNot (hrun : run.KeepsOperators) (q : QueryId) (column : Value)
    (operator value : Option Value) (boolean : Value) :
    (q.whereNot run column operator value boolean).KeepsOperators t operators := by
  refine (operators_ofExcept _).next fun word => ?_
  split
  · exact operators_whereNested hrun q _ _
  · exact operators_groupBuiltBy hrun q _ fun _ => operators_where hrun _ _ _ _

theorem operators_whereRaw (q : QueryId) (sql bindings boolean : Value) :
    (q.whereRaw sql bindings boolean).KeepsOperators t operators :=
  (operators_addWhere q _ rfl).next fun _ => (operators_itemsOrNone _).next fun _ =>
    operators_bind q _ _

theorem operators_whereIn (hrun : run.KeepsOperators) (q : QueryId)
    (column values boolean : Value) (negated : Bool) :
    (q.whereIn run column values boolean negated).KeepsOperators t operators := by
  have hadd : ∀ vs : List Value, Action.KeepsOperators t operators (do
      q.addWhere boolean (.among column vs negated)
      q.bindValues .condition vs) := fun vs =>
    (operators_addWhere q _ rfl).next fun _ => operators_bind q _ _
  unfold QueryId.whereIn
  dsimp only
  split
  · exact (operators_createSub hrun q _).next fun _ => (operators_bind q _ _).next fun _ => hadd _
  · exact (operators_itemsNow _).next hadd

theorem operators_rawInteger (v : Value) : (QueryId.rawInteger v).KeepsOperators t operators := by
  unfold QueryId.rawInteger
  split
  · exact (operators_shown v).next fun _ => operators_throw _
  · exact (operators_shown v).next fun _ => operators_throw _
  · exact operators_ofExcept _

theorem operators_whereIntegerIn (q : QueryId) (column values boolean : Value) (negated : Bool) :
    (q.whereIntegerIn column values boolean negated).KeepsOperators t operators :=
  (operators_itemsNow values).next fun _ => (operators_mapM operators_rawInteger).next fun _ =>
    operators_addWhere q _ rfl

theorem operators_whereBetween (q : QueryId) (column values boolean : Value) (negated : Bool) :
    (q.whereBetween column values boolean negated).KeepsOperators t operators :=
  (operators_itemsNow values).next fun _ => (operators_ofExcept _).next fun _ =>
    (operators_addWhere q _ rfl).next fun _ => operators_bind q _ _

theorem operators_writtenDatePart (hrun : run.KeepsOperators) (part : DatePart) (value : Value) :
    (QueryId.writtenDatePart run part value).KeepsOperators t operators := by
  unfold QueryId.writtenDatePart
  split
  · refine operators_get.next fun s => ?_
    split
    · exact operators_extension hrun _ _ _
    · exact operators_pure _
  · split
    · exact (operators_shown _).next fun _ => operators_pure _
    · exact operators_pure _

theorem operators_whereDatePart (hrun : run.KeepsOperators) (part : DatePart)
    (column operator : Value) (value : Option Value) (boolean : Value) :
    (t.whereDatePart run part column operator value boolean).KeepsOperators t operators :=
  operators_comparison fun _ => (operators_writtenDatePart hrun part _).next fun _ =>
    (operators_addWhere_known _ fun _ hmem =>
      List.mem_singleton.1 hmem ▸ List.mem_cons_self).next fun _ => operators_bindValue t _ _

theorem operators_addWhereExists (q : QueryId) (query boolean : Value) (negated : Bool) :
    (q.addWhereExists query boolean negated).KeepsOperators t operators :=
  (operators_addWhere q _ rfl).next fun _ => (operators_needQuery _).next fun _ =>
    (operators_bindings _).next fun _ => operators_bind q _ _

theorem operators_whereExists (hrun : run.KeepsOperators) (q : QueryId) (query boolean : Value)
    (negated : Bool) : (q.whereExists run query boolean negated).KeepsOperators t operators :=
  (operators_resolveSub hrun q query).next fun _ => operators_addWhereExists q _ _ _

/-- Rows may be compared by an operator that is known. -/
theorem operators_whereRowValues {operator : Value} (hoperator : operator ∈ operators)
    (columns values boolean : Value) :
    (t.whereRowValues columns operator values boolean).KeepsOperators t operators := by
  refine (operators_itemsNow columns).next fun cs => (operators_itemsNow values).next fun vs => ?_
  dsimp only
  split
  · exact operators_throw _
  · exact (operators_addWhere_known _ fun _ hmem =>
      List.mem_singleton.1 hmem ▸ hoperator).next fun _ => operators_bind t _ _

theorem operators_whereJsonContains (q : QueryId) (column value boolean : Value) (negated : Bool) :
    (q.whereJsonContains column value boolean negated).KeepsOperators t operators := by
  refine (operators_addWhere q _ rfl).next fun _ => ?_
  split
  · exact operators_pure _
  · exact (operators_grammarFor q _).next fun _ => (operators_shown _).next fun _ =>
      (operators_ofExcept _).next fun _ => operators_bind q _ _

theorem operators_whereJsonLength (column operator : Value) (value : Option Value)
    (boolean : Value) :
    (t.whereJsonLength column operator value boolean).KeepsOperators t operators := by
  refine operators_comparison fun comparison => (operators_addWhere_known _ fun _ hmem =>
    List.mem_singleton.1 hmem ▸ List.mem_cons_self).next fun _ => ?_
  split
  · exact operators_pure _
  · exact (operators_ofExcept _).next fun _ => operators_bind t _ _

/-! ## Joins -/

theorem operators_on (hrun : run.KeepsOperators) (first operator second boolean : Value) :
    (t.on run first operator second boolean).KeepsOperators t operators := by
  unfold QueryId.on
  split
  · exact operators_whereNested hrun t _ _
  · exact operators_whereColumn hrun _ _ _ _

theorem operators_addJoin (q join : QueryId) : Action.KeepsOperators t operators
    (q.modify fun query => { query with joins := query.joins ++ [join] }) :=
  operators_modify (fun _ => rfl) fun _ => rfl

theorem operators_attachJoin (q join : QueryId) :
    (q.attachJoin join).KeepsOperators t operators :=
  (operators_addJoin q join).next fun _ => (operators_bindings join).next fun _ =>
    operators_bind q _ _

theorem operators_join (hrun : run.KeepsOperators) (q : QueryId)
    (table first operator second type : Value) (byValue : Bool) :
    (q.join run table first operator second type byValue).KeepsOperators t operators := by
  refine operators_newJoin_bind type table fun join => ?_
  dsimp only
  split
  · exact ((operators_call hrun first []).map _).next fun _ => operators_attachJoin q join
  · split
    · exact (operators_where hrun _ _ _ _).next fun _ => operators_attachJoin q join
    · exact (operators_on hrun _ _ _ _).next fun _ => operators_attachJoin q join

theorem operators_joinSub (hrun : run.KeepsOperators) (q : QueryId)
    (query name first operator second type : Value) (byValue : Bool) :
    (q.joinSub run query name first operator second type byValue).KeepsOperators t operators :=
  (operators_createSub hrun q query).next fun _ => (operators_wrappedTable q name).next fun _ =>
    (operators_bind q _ _).next fun _ => operators_join hrun q _ _ _ _ _ _

theorem operators_crossJoin (hrun : run.KeepsOperators) (q : QueryId)
    (table first operator second : Value) :
    (q.crossJoin run table first operator second).KeepsOperators t operators := by
  unfold QueryId.crossJoin
  split
  · exact operators_newJoin_bind _ _ fun join => operators_addJoin q join
  · exact operators_join hrun q _ _ _ _ _ _

/-! ## Grouping -/

theorem operators_addGroups (q : QueryId) (columns : List Value) :
    Action.KeepsOperators t operators
      (q.modify fun query => { query with groups := query.groups ++ columns }) :=
  operators_modify (fun _ => rfl) fun _ => rfl

theorem operators_groupByRaw (q : QueryId) (sql bindings : Value) :
    (q.groupByRaw sql bindings).KeepsOperators t operators :=
  (operators_addGroups q _).next fun _ => (operators_itemsOrNone _).next fun _ =>
    operators_bind q _ _

theorem operators_having (column : Value) (operator value : Option Value) (boolean : Value) :
    (t.having column operator value boolean).KeepsOperators t operators :=
  operators_comparison fun _ => (operators_addHaving_known _ fun _ hmem =>
    List.mem_singleton.1 hmem ▸ List.mem_cons_self).next fun _ => operators_bindValue t _ _

theorem operators_havingRaw (q : QueryId) (sql bindings boolean : Value) :
    (q.havingRaw sql bindings boolean).KeepsOperators t operators :=
  (operators_addHaving q _ rfl).next fun _ => (operators_itemsOrNone _).next fun _ =>
    operators_bind q _ _

theorem operators_havingBetween (q : QueryId) (column values boolean : Value) (negated : Bool) :
    (q.havingBetween column values boolean negated).KeepsOperators t operators :=
  (operators_itemsNow values).next fun _ => (operators_ofExcept _).next fun _ =>
    (operators_addHaving q _ rfl).next fun _ => operators_bind q _ _

theorem operators_havingNull (q : QueryId) (columns boolean : Value) (negated : Bool) :
    (q.havingNull columns boolean negated).KeepsOperators t operators :=
  operators_forM fun _ _ => operators_addHaving q _ rfl

/-! ## Ordering and paging -/

theorem operators_direction (hrun : run.KeepsOperators) (word : Value) :
    (QueryId.direction run word).KeepsOperators t operators := by
  have hread : ∀ v : Value, Action.KeepsOperators t operators
      ((v.text?.bind Direction.ofWord?).elim (throw (.argument .direction)) pure) := by
    intro v
    cases v.text?.bind Direction.ofWord? with
    | none => exact operators_throw _
    | some direction => exact operators_pure _
  unfold QueryId.direction
  dsimp only
  split
  · exact (operators_pure _).next hread
  · exact (operators_pure _).next hread
  · exact (operators_extension hrun _ _ _).next hread
  · exact operators_throw _

theorem operators_addOrder (q : QueryId) (order : Order) :
    Action.KeepsOperators t operators (q.modify (·.addOrder order)) := by
  refine operators_modify (fun query => ?_) fun query => ?_
  all_goals
    unfold Query.addOrder
    split <;> rfl

theorem operators_orderBy (hrun : run.KeepsOperators) (q : QueryId) (column word : Value) :
    (q.orderBy run column word).KeepsOperators t operators := by
  have hadd : ∀ column, Action.KeepsOperators t operators (do
      let direction ← QueryId.direction run word
      q.modify (·.addOrder (.byColumn column direction))) := fun column =>
    (operators_direction hrun word).next fun _ => operators_addOrder q _
  refine (operators_read q).next fun query => ?_
  dsimp only
  split
  · exact (operators_createSub hrun q column).next fun _ => (operators_bind q _ _).next fun _ =>
      hadd _
  · exact hadd column

theorem operators_orderByRaw (q : QueryId) (sql bindings : Value) :
    (q.orderByRaw sql bindings).KeepsOperators t operators :=
  (operators_addOrder q _).next fun _ => (operators_itemsOrNone bindings).next fun _ =>
    (operators_read q).next fun _ => operators_bind q _ _

theorem operators_inRandomOrder (q : QueryId) (seed : Value) :
    (q.inRandomOrder seed).KeepsOperators t operators :=
  (operators_grammarFor q _).next fun _ => (operators_shown seed).next fun _ =>
    operators_orderByRaw q _ _

theorem operators_reorder (hrun : run.KeepsOperators) (q : QueryId) (column word : Value) :
    (q.reorder run column word).KeepsOperators t operators := by
  have hdrop : Action.KeepsOperators t operators (q.modify Query.dropOrders) :=
    operators_modify (fun _ => rfl) fun _ => rfl
  refine hdrop.next fun _ => ?_
  split
  · exact operators_pure _
  · exact operators_orderBy hrun q _ _

theorem operators_offset (q : QueryId) (value : Value) :
    (q.offset value).KeepsOperators t operators := by
  refine (operators_ofExcept _).next fun n =>
    operators_modify (fun query => ?_) fun query => ?_
  all_goals
    unfold Query.setOffset
    split <;> rfl

theorem operators_limit (q : QueryId) (value : Value) :
    (q.limit value).KeepsOperators t operators := by
  unfold QueryId.limit
  split
  · exact operators_pure _
  · refine (operators_ofExcept _).next fun n => ?_
    split
    · refine operators_modify (fun query => ?_) fun query => ?_
      all_goals
        unfold Query.setLimit
        split <;> rfl
    · exact operators_pure _

theorem operators_forPage (q : QueryId) (page perPage : Value) :
    (q.forPage page perPage).KeepsOperators t operators :=
  (operators_ofExcept _).next fun _ => (operators_ofExcept _).next fun _ =>
    (operators_offset q _).next fun _ => operators_limit q _

theorem operators_union (hrun : run.KeepsOperators) (q : QueryId) (query keepsAll : Value) :
    (q.union run query keepsAll).KeepsOperators t operators := by
  have hunite : ∀ (t : QueryId) operators (member : Union), Action.KeepsOperators t operators
      (q.modify fun current => { current with unions := current.unions ++ [member] }) :=
    fun _ _ _ => operators_modify (fun _ => rfl) fun _ => rfl
  have hattach : ∀ (t : QueryId) operators (query : Value), Action.KeepsOperators t operators (do
      q.modify fun current =>
        { current with unions := current.unions ++ [⟨query.query?, keepsAll⟩] }
      let member ← query.needQuery
      q.bind .union (← member.bindings)) := fun t operators query =>
    (hunite t operators _).next fun _ => (operators_needQuery query).next fun member =>
      (operators_bindings member).next fun _ => operators_bind q _ _
  unfold QueryId.union
  dsimp only
  split
  · simp only [pure_bind]
    exact operators_newQuery_bind fun member => (operators_call hrun query []).next fun _ =>
      hattach _ _ _
  · exact (operators_pure _).next (hattach t operators)

end

end FluentSql
