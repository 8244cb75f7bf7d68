import FluentSql.Proofs.Edits.Building
import FluentSql.Proofs.Inserting

/-!
# Operators

The operator of a comparison is written into the SQL as it is given, so a call
first looks whether the grammar of its query knows it.

* `Store.Knows` says that a query knows an operator, and `Store.Refuses` that
  a failure is due to one that it does not know.
* `comparison_unknown`, `comparison_alone` and `knows_of_comparison` say what
  becomes of the arguments of a comparison with a value.
* `Store.columnPair` is the condition that a comparison of columns adds, and
  `whereColumnSingle_runOn` says that it is added.
-/

namespace FluentSql

/-! ## Operators that a query knows -/

namespace Store

/-- Whether a word is an operator for a query, in upper or lower case. -/
def isOperator (s : Store) (q : QueryId) (word : String) : Except Failure Bool :=
  FluentSql.isOperator (s.operatorsOf (s.query q).grammar) (Text.lower word)

/-- The query knows an operator: its grammar adds it, or every query knows it. -/
def Knows (s : Store) (q : QueryId) (operator : Value) : Prop :=
  ∃ word, operator = .text word ∧ s.isOperator q word = .ok true

/-- A failure refuses an operator: it names the operator, unless the grammar of the query cannot even
be asked for those that it adds. -/
def Refuses (s : Store) (q : QueryId) (operator : Value) (e : Failure) : Prop :=
  s.operatorsOf (s.query q).grammar = .error e ∨
    ∃ literal, e = .argument (.operator literal) ∧
      ∀ word, operator = .text word → literal = (Value.text word).literal

end Store

/-- The words that are operators for some query are written in lower case. -/
theorem Text.lower_of_operator :
    (∀ word ∈ Dialect.commonOperators, Text.lower word = word) ∧
      ∀ d : Dialect, ∀ word ∈ d.operators, Text.lower word = word := by
  refine ⟨by decide +kernel, fun d => ?_⟩
  cases d <;> decide +kernel

section

variable {s : Store} {q : QueryId}

/-- A grammar adds the operators of its dialect. -/
theorem Store.operatorsOf_eq_ok {compiler : Compiler} {words : List String}
    (h : s.operatorsOf compiler = .ok words) :
    words = Dialect.commonOperators ∨ ∃ d : Dialect, words = d.operators := by
  cases compiler with
  | grammar id =>
    obtain ⟨g, _, rfl⟩ := Name.map_eq_ok h
    exact .inr ⟨g.dialect, rfl⟩
  | connection id => exact nomatch h
  | query id => exact .inl (Except.ok.inj h).symm

theorem mem_of_isOperator {compiler : Compiler} {word : String}
    (h : isOperator (s.operatorsOf compiler) word = .ok true) :
    word ∈ Dialect.commonOperators ∨ ∃ d : Dialect, word ∈ d.operators := by
  unfold isOperator at h
  split at h
  · rename_i hcommon
    exact .inl (List.contains_iff_mem.1 hcommon)
  · obtain ⟨words, hwords, hword⟩ := Name.map_eq_ok h
    have hmem : word ∈ words := List.contains_iff_mem.1 hword.symm
    obtain rfl | ⟨d, rfl⟩ := Store.operatorsOf_eq_ok hwords
    · exact .inl hmem
    · exact .inr ⟨d, hmem⟩

/-- A known operator stays one when it is written in lower case. -/
theorem Store.knows_lower {word : String} (h : s.isOperator q word = .ok true) :
    s.Knows q (.text (Text.lower word)) := by
  refine ⟨_, rfl, ?_⟩
  have hlower : Text.lower (Text.lower word) = Text.lower word := by
    obtain hcommon | ⟨d, hadded⟩ := mem_of_isOperator h
    · exact Text.lower_of_operator.1 _ hcommon
    · exact Text.lower_of_operator.2 d _ hadded
  unfold Store.isOperator
  rw [hlower]
  exact h

theorem Store.isOperator_common {word : String} (h : Text.lower word ∈ Dialect.commonOperators) :
    s.isOperator q word = .ok true :=
  if_pos (List.contains_iff_mem.2 h)

/-- Every query knows equality. -/
theorem Store.knows_equality : s.Knows q (.text "=") :=
  ⟨"=", rfl, Store.isOperator_common (by decide +kernel)⟩

/-! ## Comparisons with values -/

variable {operator value : Value}

theorem Comparison.check_operator {added : Except Failure (List String)} {c : Comparison}
    (h : Comparison.check added operator value = .ok c) :
    ∃ word, operator = .text word ∧ c.operator = Text.lower word ∧
      FluentSql.isOperator added (Text.lower word) = .ok true := by
  unfold Comparison.check at h
  split at h
  · rename_i word
    obtain ⟨known, hknown, h⟩ := Name.bind_eq_ok h
    split at h
    · exact nomatch h
    · rename_i htrue
      split at h
      · exact nomatch h
      · cases h
        exact ⟨word, rfl, rfl, hknown.trans (congrArg _ (by simpa using htrue))⟩
  · exact nomatch h

/-- The arguments of a comparison are looked at, and nothing is changed. -/
theorem comparison_runOn (q : QueryId) (operator value : Option Value) (s : Store) :
    ∃ read, (q.comparison operator value).runOn s =
      (Comparison.ofArguments (s.operatorsOf (s.query q).grammar) read value, s) := by
  cases operator with
  | none => exact ⟨none, rfl⟩
  | some operator =>
    cases value with
    | none => exact ⟨some operator, rfl⟩
    | some value => exact ⟨some (s.shown operator), rfl⟩

/-- The operator of a comparison is one that the query knows. -/
theorem knows_of_comparison {operator value : Option Value} {c : Comparison} {s' : Store}
    (h : Ran (q.comparison operator value) s c s') :
    s' = s ∧ s.Knows q (.text c.operator) := by
  obtain ⟨read, hrun⟩ := comparison_runOn q operator value s
  obtain ⟨harguments, rfl⟩ := Prod.mk.inj (hrun.symm.trans h)
  obtain ⟨operator, value, hcheck⟩ : ∃ operator value,
      Comparison.check (s.operatorsOf (s.query q).grammar) operator value = .ok c := by
    cases value with
    | none => exact ⟨.text "=", read.getD .null, harguments⟩
    | some v => exact ⟨read.getD (.text "="), v, harguments⟩
  obtain ⟨word, _, hword, hknown⟩ := Comparison.check_operator hcheck
  exact ⟨rfl, hword ▸ Store.knows_lower hknown⟩

/-- A comparison without a value takes its operator as the value, and asks for equality. -/
theorem comparison_alone (q : QueryId) (operator : Value) :
    q.comparison (some operator) none = q.comparison (some (.text "=")) (some operator) := rfl

/-- A failure to tell whether a word is an operator is one of the grammar. -/
theorem Store.operatorsOf_of_isOperator {word : String} {e : Failure}
    (h : s.isOperator q word = .error e) : s.operatorsOf (s.query q).grammar = .error e := by
  unfold Store.isOperator FluentSql.isOperator at h
  split at h
  · exact nomatch h
  · cases hadded : s.operatorsOf (s.query q).grammar with
    | error e' =>
      rw [hadded] at h
      exact congrArg _ (Except.error.inj h)
    | ok words =>
      rw [hadded] at h
      exact nomatch h

/-- An operator that the query does not know is refused before the value is looked at. -/
theorem comparison_unknown (h : ¬s.Knows q operator) (value : Value) :
    ∃ e, s.Refuses q operator e ∧
      (q.comparison (some operator) (some value)).runOn s = (.error e, s) := by
  obtain ⟨e, hrefuses, hcheck⟩ : ∃ e, s.Refuses q operator e ∧
      Comparison.check (s.operatorsOf (s.query q).grammar) (s.shown operator) value = .error e := by
    cases hshown : s.shown operator with
    | text word =>
      obtain rfl := Store.shown_eq_text hshown
      unfold Comparison.check
      show ∃ e, _ ∧ (s.isOperator q word >>= _) = _
      cases hknown : s.isOperator q word with
      | error e => exact ⟨e, .inl (Store.operatorsOf_of_isOperator hknown), rfl⟩
      | ok known =>
        cases known with
        | false => exact ⟨_, .inr ⟨_, rfl, fun _ heq => congrArg Value.literal heq⟩, rfl⟩
        | true => exact absurd ⟨word, rfl, hknown⟩ h
    | _ =>
      refine ⟨_, .inr ⟨_, rfl, fun word heq => ?_⟩, rfl⟩
      subst heq
      exact nomatch hshown
  refine ⟨e, hrefuses, ?_⟩
  show (Comparison.check (s.operatorsOf (s.query q).grammar) (s.shown operator) value, s) = _
  rw [hcheck]

/-! ## Comparisons of columns -/

namespace Store

/-- The condition that a comparison of columns adds.  What is no operator is the second column. -/
def columnPair (s : Store) (q : QueryId) (first operator second : Value) :
    Except Failure Where := do
  let known ← match operator with
    | .text word => s.isOperator q word
    | _ => .ok false
  let (operator, second) :=
    match known, operator with
    | true, .text word => (Text.lower word, second)
    | _, operator => ("=", operator)
  if second.isNull then .error (.argument .secondColumnMissing)
  else .ok (.columnPair first operator second)

variable {first second : Value} {word : String}

theorem columnPair_known (h : s.isOperator q word = .ok true) (hsecond : second.isNull = false) :
    s.columnPair q first (.text word) second =
      .ok (.columnPair first (Text.lower word) second) := by
  unfold columnPair
  simp only [h]
  exact if_neg (hsecond ▸ nofun)

/-- An operator that the query does not know is compared with the first column. -/
theorem columnPair_unknown (h : s.isOperator q word = .ok false) :
    s.columnPair q first (.text word) second = .ok (.columnPair first "=" (.text word)) := by
  unfold columnPair
  simp only [h]
  rfl

theorem columnPair_error {e : Failure} (h : s.isOperator q word = .error e) :
    s.columnPair q first (.text word) second = .error e := by
  unfold columnPair
  simp only [h]
  rfl

end Store

/-- A comparison of columns adds its condition, or fails without a trace. -/
theorem whereColumnSingle_runOn (q : QueryId) (first operator second boolean : Value) (s : Store) :
    (q.whereColumnSingle first operator second boolean).runOn s =
      match s.columnPair q first operator second with
      | .ok body => (.ok (), s.edit q (·.addWhere boolean body))
      | .error e => (.error e, s) := by
  have hadd : ∀ operator second, (do
      if second.isNull then throw (.argument .secondColumnMissing)
      q.addWhere boolean (.columnPair first operator second) : Action Unit).runOn s =
        match (if second.isNull then .error (.argument .secondColumnMissing)
          else .ok (.columnPair first operator second) : Except Failure Where) with
        | .ok body => (.ok (), s.edit q (·.addWhere boolean body))
        | .error e => (.error e, s) := by
    intro operator second
    split <;> rfl
  have hequality := hadd "=" operator
  unfold QueryId.whereColumnSingle Store.columnPair
  rw [Action.runOn_bind]
  show Action.runOn _ s = _
  cases operator with
  | text word =>
    show Action.runOn (Action.ofExcept (s.isOperator q word) >>= _) s = _
    cases hknown : s.isOperator q word with
    | error e =>
      simp only [hknown]
      rfl
    | ok known =>
      simp only [hknown]
      cases known with
      | false => exact hequality
      | true => exact hadd (Text.lower word) second
  | _ => exact hequality

end

end FluentSql
