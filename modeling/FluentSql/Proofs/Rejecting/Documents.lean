import FluentSql.Proofs.Operators.Membership

/-!
# Conditions on JSON documents

A condition on a JSON column is added first, and the value that it is bound to
is made afterwards: a document for what a column contains, an integer for the
length of an array.  If there is no such value the call fails, and the
condition stays without one.

* `Value.IsDocument` are the values with a JSON document, and `json_ok_iff`
  says that these are the ones.
* `Store.addConverted` is what becomes of a condition and a value that is made
  after it; `whereJsonContains_runOn` and `whereJsonLength_runOn` say that both
  calls are of this kind.
* `Store.Together` says that a condition and its value come together.
* `documents_together_iff` says for which values they do.
-/

namespace FluentSql

open Number

/-! ## Values with a document -/

namespace Value

/-- What can name an entry of a JSON object. -/
inductive IsEntryName : Value → Prop where
  | null : IsEntryName null
  | bool (b : Bool) : IsEntryName (bool b)
  | int {i : Int} (h : (natDigits i.natAbs).length ≤ maxNumeralDigits) : IsEntryName (int i)
  | double (x : Double) : IsEntryName (double x)
  | text (s : String) : IsEntryName (text s)

/-- What is a JSON document: a scalar, or a list or a map of documents. -/
inductive IsDocument : Value → Prop where
  | null : IsDocument null
  | bool (b : Bool) : IsDocument (bool b)
  | int {i : Int} (h : (natDigits i.natAbs).length ≤ maxNumeralDigits) : IsDocument (int i)
  | double (x : Double) : IsDocument (double x)
  | text (s : String) : IsDocument (text s)
  | list {items : List Value} (h : ∀ v ∈ items, IsDocument v) : IsDocument (list items)
  | tuple {items : List Value} (h : ∀ v ∈ items, IsDocument v) : IsDocument (tuple items)
  | map {entries : List (Value × Value)} (hnames : ∀ entry ∈ entries, IsEntryName entry.1)
      (h : ∀ entry ∈ entries, IsDocument entry.2) : IsDocument (map entries)

/-- A computation that goes on without fail succeeds if it starts to. -/
private theorem exists_map_ok {α β : Type} {x : Except Failure α} {f : α → β} :
    (∃ b, (do return f (← x) : Except Failure β) = .ok b) ↔ ∃ a, x = .ok a := by
  cases x with
  | error e => exact iff_of_false (fun ⟨_, h⟩ => nomatch h) fun ⟨_, h⟩ => nomatch h
  | ok a => exact iff_of_true ⟨f a, rfl⟩ ⟨a, rfl⟩

theorem integer_ok_iff {i : Int} :
    (∃ s, Json.integer i = .ok s) ↔ (natDigits i.natAbs).length ≤ maxNumeralDigits := by
  unfold Json.integer
  split
  · rename_i h
    exact iff_of_true ⟨_, rfl⟩ h
  · rename_i h
    exact iff_of_false (fun ⟨_, hs⟩ => nomatch hs) h

theorem key_ok_iff {k : Value} : (∃ s, Json.key k = .ok s) ↔ k.IsEntryName := by
  cases k with
  | null => exact iff_of_true ⟨_, rfl⟩ .null
  | bool b => exact iff_of_true ⟨_, rfl⟩ (.bool b)
  | double x => exact iff_of_true ⟨_, rfl⟩ (.double x)
  | text s => exact iff_of_true ⟨_, rfl⟩ (.text s)
  | int i => exact integer_ok_iff.trans ⟨.int, fun | .int h => h⟩
  | _ => exact iff_of_false (fun ⟨_, h⟩ => nomatch h) fun h => nomatch h

mutual

/-- A document is written for a value exactly if the value is one. -/
theorem json_ok_iff (v : Value) : (∃ s, v.json = .ok s) ↔ v.IsDocument := by
  cases v with
  | null => exact iff_of_true ⟨_, rfl⟩ .null
  | bool b => exact iff_of_true ⟨_, rfl⟩ (.bool b)
  | double x => exact iff_of_true ⟨_, rfl⟩ (.double x)
  | text s => exact iff_of_true ⟨_, rfl⟩ (.text s)
  | int i => exact integer_ok_iff.trans ⟨.int, fun | .int h => h⟩
  | list items =>
    rw [json, exists_map_ok, jsonItems_ok_iff items]
    exact ⟨.list, fun | .list h => h⟩
  | tuple items =>
    rw [json, exists_map_ok, jsonItems_ok_iff items]
    exact ⟨.tuple, fun | .tuple h => h⟩
  | map entries =>
    rw [json, exists_map_ok, jsonEntries_ok_iff entries]
    exact ⟨fun h => .map (fun e he => (h e he).1) fun e he => (h e he).2,
      fun | .map hnames h => fun e he => ⟨hnames e he, h e he⟩⟩
  | object handle =>
    refine iff_of_false ?_ fun h => nomatch h
    rintro ⟨_, h⟩
    cases handle <;> exact nomatch h
  | _ => exact iff_of_false (fun ⟨_, h⟩ => nomatch h) fun h => nomatch h

theorem jsonItems_ok_iff (vs : List Value) :
    (∃ documents, jsonItems vs = .ok documents) ↔ ∀ v ∈ vs, v.IsDocument := by
  cases vs with
  | nil => exact iff_of_true ⟨_, rfl⟩ nofun
  | cons v vs =>
    rw [List.forall_mem_cons, ← json_ok_iff v, ← jsonItems_ok_iff vs, jsonItems]
    cases v.json with
    | error e => exact iff_of_false (fun ⟨_, h⟩ => nomatch h) fun h => nomatch h.1.choose_spec
    | ok document => exact exists_map_ok.trans ⟨fun h => ⟨⟨_, rfl⟩, h⟩, fun h => h.2⟩

theorem jsonEntries_ok_iff (entries : List (Value × Value)) :
    (∃ documents, jsonEntries entries = .ok documents) ↔
      ∀ entry ∈ entries, entry.1.IsEntryName ∧ entry.2.IsDocument := by
  cases entries with
  | nil => exact iff_of_true ⟨_, rfl⟩ nofun
  | cons entry entries =>
    rw [List.forall_mem_cons, ← key_ok_iff, ← json_ok_iff entry.2, ← jsonEntries_ok_iff entries,
      jsonEntries]
    cases Json.key entry.1 with
    | error e => exact iff_of_false (fun ⟨_, h⟩ => nomatch h) fun h => nomatch h.1.1.choose_spec
    | ok name =>
      cases entry.2.json with
      | error e => exact iff_of_false (fun ⟨_, h⟩ => nomatch h) fun h => nomatch h.1.2.choose_spec
      | ok document => exact exists_map_ok.trans ⟨fun h => ⟨⟨⟨_, rfl⟩, ⟨_, rfl⟩⟩, h⟩, fun h => h.2⟩

end

end Value

/-! ## Conditions whose value is made afterwards -/

section

variable {s : Store} {q : QueryId} {column operator value boolean : Value} {body : Where}

/-- Adding a condition without values binds nothing. -/
theorem Store.withCondition_nil (s : Store) (q : QueryId) (boolean : Value) (body : Where) :
    s.withCondition q boolean body [] = s.edit q (·.addWhere boolean body) :=
  congrArg (s.edit q) (funext fun _ => Query.bind_nil _ _)

/-- What becomes of a store when a condition is added and its value is made afterwards.  There is
none if the condition is fixed, and it may be that it cannot be made. -/
def Store.addConverted (s : Store) (q : QueryId) (boolean : Value) (body : Where) (fixed : Bool)
    (made : Except Failure Value) : Except Failure Unit × Store :=
  if fixed then (.ok (), s.withCondition q boolean body [])
  else match made with
    | .ok v => (.ok (), s.withCondition q boolean body [v])
    | .error e => (.error e, s.withCondition q boolean body [])

/-- The document of a value as the grammar of a query writes it. -/
def Store.documentFor (s : Store) (q : QueryId) (value : Value) : Except Failure String := do
  let _ ← s.grammarFor (s.query q).grammar "prepare_binding_for_json_contains"
  (s.shown value).json

/-- A grammar is asked in the same way once a condition was added. -/
theorem Store.grammarFor_added (s : Store) (compiler : Compiler) (method : String) :
    (s.withCondition q boolean body []).grammarFor compiler method =
      s.grammarFor compiler method := by
  have hclass : ∀ id, (s.withCondition q boolean body []).classOf id = s.classOf id := by
    intro id
    unfold Store.classOf Store.withCondition
    obtain heq | ⟨_, _, heq⟩ := s.query_edit_cases q
      (fun query => (query.addWhere boolean body).bind .condition []) id <;> rw [heq]
    rfl
  cases compiler with
  | query id =>
    have heq := hclass id
    exact congrArg (fun c => Except.error (Failure.unknownMethod c method)) heq
  | _ => rfl

/-- What a grammar makes of a value is the same once a condition was added. -/
theorem documentFor_withCondition :
    (s.withCondition q boolean body []).documentFor q value = s.documentFor q value := by
  have hgrammar : ((s.withCondition q boolean body []).query q).grammar = (s.query q).grammar := by
    unfold Store.withCondition
    obtain heq | ⟨_, _, heq⟩ := s.query_edit_cases q
      (fun query => (query.addWhere boolean body).bind .condition []) q <;> rw [heq]
    rfl
  have hshown : (s.withCondition q boolean body []).shown value = s.shown value := by
    rw [Store.shown_withCondition, Store.edit_same fun _ => Query.bind_nil _ _]
  unfold Store.documentFor
  rw [hgrammar, hshown, Store.grammarFor_added]

/-- A value that is made afterwards is bound as if it had come with the condition. -/
theorem Store.withCondition_bind (s : Store) (q : QueryId) (boolean : Value) (body : Where)
    (values : List Value) :
    (s.withCondition q boolean body []).edit q (·.bind .condition values) =
      s.withCondition q boolean body values := by
  unfold Store.withCondition
  rw [Store.edit_edit]
  exact congrArg (s.edit q) (funext fun query =>
    congrArg (fun added : Query => added.bind .condition values) (Query.bind_nil _ _))

/-- The document of a value is bound, if there is one. -/
theorem bindDocument_runOn (q : QueryId) (value : Value) (s : Store) :
    Action.runOn (do
      let _ ← q.grammarFor "prepare_binding_for_json_contains"
      q.bind .condition [.text (← Action.ofExcept (← value.shown).json)]) s =
      match s.documentFor q value with
      | .error e => (.error e, s)
      | .ok document => (.ok (), s.edit q (·.bind .condition [.text document])) := by
  have hgrammar : (q.grammarFor "prepare_binding_for_json_contains").runOn s =
      (s.grammarFor (s.query q).grammar "prepare_binding_for_json_contains", s) := rfl
  have hshown : value.shown.runOn s = (.ok (s.shown value), s) := rfl
  unfold Store.documentFor
  rw [Action.runOn_bind, hgrammar]
  cases s.grammarFor (s.query q).grammar "prepare_binding_for_json_contains" with
  | error e => rfl
  | ok g =>
    dsimp only
    rw [Action.runOn_bind, hshown]
    show Action.runOn (do
      q.bind .condition [.text (← Action.ofExcept (s.shown value).json)]) s =
        match (s.shown value).json with
        | .error e => (.error e, s)
        | .ok document => (.ok (), s.edit q (·.bind .condition [.text document]))
    cases (s.shown value).json with
    | error e => rfl
    | ok document => rfl

/-- The condition is added first, and its document is made in the store that has it. -/
theorem whereJsonContains_runOn (q : QueryId) (column value boolean : Value) (negated : Bool)
    (s : Store) :
    (q.whereJsonContains column value boolean negated).runOn s =
      s.addConverted q boolean (.jsonContains column value negated) value.isRaw
        ((s.documentFor q value).map .text) := by
  have hadded := s.withCondition_nil q boolean (.jsonContains column value negated)
  unfold QueryId.whereJsonContains
  rw [Action.runOn_bind]
  show Action.runOn _ (s.edit q (·.addWhere boolean (.jsonContains column value negated))) = _
  rw [← hadded]
  unfold Store.addConverted
  cases value.isRaw with
  | true => rfl
  | false =>
    refine (bindDocument_runOn q value _).trans ?_
    rw [documentFor_withCondition]
    cases s.documentFor q value with
    | error e => rfl
    | ok document => exact congrArg (Prod.mk _) (s.withCondition_bind q boolean _ _)

/-- The condition is added once its comparison was read, and its length is made afterwards. -/
theorem whereJsonLength_runOn (q : QueryId) (column operator : Value) (value : Option Value)
    (boolean : Value) (s : Store) :
    (q.whereJsonLength column operator value boolean).runOn s =
      match ((q.comparison (some operator) value).runOn s).1 with
      | .error e => (.error e, s)
      | .ok c => s.addConverted q boolean (.jsonLength column c.operator c.value) c.value.isRaw
          (c.value.toInt.map .int) := by
  obtain ⟨read, hrun⟩ := comparison_runOn q (some operator) value s
  unfold QueryId.whereJsonLength
  rw [Action.runOn_bind, hrun]
  cases Comparison.ofArguments (s.operatorsOf (s.query q).grammar) read value with
  | error e => rfl
  | ok c =>
    have hadded := s.withCondition_nil q boolean (.jsonLength column c.operator c.value)
    dsimp only
    rw [Action.runOn_bind]
    show Action.runOn _ (s.edit q (·.addWhere boolean (.jsonLength column c.operator c.value))) = _
    rw [← hadded]
    unfold Store.addConverted
    cases c.value.isRaw with
    | true => rfl
    | false =>
      cases c.value.toInt with
      | error e => rfl
      | ok i => exact congrArg (Prod.mk _) (s.withCondition_bind q boolean _ _)

/-! ## Conditions with their values -/

/-- A call adds one condition with its value, or with none if the value is a fragment, or else it
fails and its query is as it was. -/
def Store.Together (s : Store) (q : QueryId) (boolean : Value) (body : Where) (fixed : Bool)
    (outcome : Except Failure Unit × Store) : Prop :=
  (∃ values, outcome = (.ok (), s.withCondition q boolean body values) ∧
      values.length = if fixed then 0 else 1) ∨
    ∃ e, outcome.1 = .error e ∧ outcome.2.query q = s.query q

/-- A query with one more condition is another one. -/
theorem query_withCondition_ne (hq : q.index < s.queries.size) (values : List Value) :
    (s.withCondition q boolean body values).query q ≠ s.query q := by
  rw [Store.query_withCondition_self hq]
  intro heq
  have hlength := congrArg (fun query : Query => query.wheres.length) heq
  simp [Query.addWhere, Query.bind] at hlength

/-- A condition and a value that is made after it come together exactly if the value is made or not
needed. -/
theorem together_addConverted_iff (hq : q.index < s.queries.size) (fixed : Bool)
    (made : Except Failure Value) :
    s.Together q boolean body fixed (s.addConverted q boolean body fixed made) ↔
      fixed = true ∨ ∃ v, made = .ok v := by
  cases fixed with
  | true => exact iff_of_true (.inl ⟨[], rfl, rfl⟩) (.inl rfl)
  | false =>
    cases made with
    | ok v => exact iff_of_true (.inl ⟨[v], rfl, rfl⟩) (.inr ⟨v, rfl⟩)
    | error e =>
      refine iff_of_false ?_ ?_
      · rintro (⟨values, hadded, _⟩ | ⟨_, _, hsame⟩)
        · cases hadded
        · exact query_withCondition_ne hq [] hsame
      · rintro (hfixed | ⟨v, hmade⟩)
        · cases hfixed
        · cases hmade

/-- A condition whose value was not made stays alone. -/
theorem addConverted_alone (hq : q.index < s.queries.size) {fixed : Bool}
    {made : Except Failure Value}
    (h : ¬s.Together q boolean body fixed (s.addConverted q boolean body fixed made)) :
    ∃ e, s.addConverted q boolean body fixed made =
      (.error e, s.edit q (·.addWhere boolean body)) := by
  rw [together_addConverted_iff hq, not_or] at h
  unfold Store.addConverted
  rw [if_neg h.1]
  cases made with
  | ok v => exact absurd ⟨v, rfl⟩ h.2
  | error e => exact ⟨e, congrArg (Prod.mk _) (s.withCondition_nil q boolean body)⟩

/-- A grammar makes a document of a value exactly if it can be asked to and the value is one. -/
theorem documentFor_ok_iff :
    (∃ v, (s.documentFor q value).map Value.text = .ok v) ↔
      (∃ g, s.grammarFor (s.query q).grammar "prepare_binding_for_json_contains" = .ok g) ∧
        (s.shown value).IsDocument := by
  rw [← Value.json_ok_iff]
  unfold Store.documentFor
  cases s.grammarFor (s.query q).grammar "prepare_binding_for_json_contains" with
  | error e =>
    refine iff_of_false ?_ ?_
    · rintro ⟨v, h⟩
      cases h
    · rintro ⟨⟨g, h⟩, _⟩
      cases h
  | ok g =>
    show (∃ v, (s.shown value).json.map Value.text = .ok v) ↔ _
    cases (s.shown value).json with
    | error e =>
      refine iff_of_false ?_ ?_
      · rintro ⟨v, h⟩
        cases h
      · rintro ⟨_, v, h⟩
        cases h
    | ok document => exact iff_of_true ⟨_, rfl⟩ ⟨⟨g, rfl⟩, document, rfl⟩

/-- A value has a length to compare with exactly if it reads as an integer. -/
theorem length_ok_iff :
    (∃ v, value.toInt.map Value.int = .ok v) ↔ ∃ i, value.toInt = .ok i := by
  cases value.toInt with
  | error e =>
    refine iff_of_false ?_ ?_
    · rintro ⟨v, h⟩
      cases h
    · rintro ⟨i, h⟩
      cases h
  | ok i => exact iff_of_true ⟨_, rfl⟩ ⟨i, rfl⟩

/-- A condition on a JSON column comes with its value exactly if that is a fragment, or has a
document if it is looked for in the column, or reads as an integer if it is compared with a length.
Otherwise the call fails and the condition stays without a value.  Only a comparison that is refused
leaves no trace. -/
theorem documents_together_iff (hq : q.index < s.queries.size) :
    (∀ column value boolean negated,
      (s.Together q boolean (.jsonContains column value negated) value.isRaw
          ((q.whereJsonContains column value boolean negated).runOn s) ↔
        value.isRaw = true ∨
          (∃ g, s.grammarFor (s.query q).grammar "prepare_binding_for_json_contains" = .ok g) ∧
            (s.shown value).IsDocument) ∧
      (¬s.Together q boolean (.jsonContains column value negated) value.isRaw
          ((q.whereJsonContains column value boolean negated).runOn s) →
        ∃ e, (q.whereJsonContains column value boolean negated).runOn s =
          (.error e, s.edit q (·.addWhere boolean (.jsonContains column value negated))))) ∧
    ∀ column operator value boolean,
      (∀ e, ((q.comparison (some operator) value).runOn s).1 = .error e →
        (q.whereJsonLength column operator value boolean).runOn s = (.error e, s)) ∧
      ∀ c, ((q.comparison (some operator) value).runOn s).1 = .ok c →
        (s.Together q boolean (.jsonLength column c.operator c.value) c.value.isRaw
            ((q.whereJsonLength column operator value boolean).runOn s) ↔
          c.value.isRaw = true ∨ ∃ i, c.value.toInt = .ok i) ∧
        (¬s.Together q boolean (.jsonLength column c.operator c.value) c.value.isRaw
            ((q.whereJsonLength column operator value boolean).runOn s) →
          ∃ e, (q.whereJsonLength column operator value boolean).runOn s =
            (.error e, s.edit q (·.addWhere boolean (.jsonLength column c.operator c.value)))) := by
  refine ⟨fun column value boolean negated => ?_, fun column operator value boolean => ⟨?_, ?_⟩⟩
  · rw [whereJsonContains_runOn, ← documentFor_ok_iff]
    exact ⟨together_addConverted_iff hq _ _, addConverted_alone hq⟩
  · intro e he
    rw [whereJsonLength_runOn, he]
  · intro c hc
    rw [whereJsonLength_runOn, hc, ← length_ok_iff]
    exact ⟨together_addConverted_iff hq _ _, addConverted_alone hq⟩

/-- A list of a number and nothing comes with its document. -/
theorem documents_together_iff_tags :
    (Store.ofTable "posts").Together ⟨0⟩ (.text "or")
      (.jsonContains (.text "tags") (.list [.int 1, .null]) true) false
      ((QueryId.whereJsonContains ⟨0⟩ (.text "tags") (.list [.int 1, .null]) (.text "or")
        true).runOn (Store.ofTable "posts")) := by
  have hitems : ∀ v ∈ [Value.int 1, .null], v.IsDocument := by
    intro v hv
    rcases List.mem_pair.1 hv with rfl | rfl
    · exact .int (by decide)
    · exact .null
  have hshown : (Store.ofTable "posts").shown (.list [.int 1, .null]) = .list [.int 1, .null] :=
    Store.shown_data _ rfl
  have hgrammar : (Store.ofTable "posts").grammarFor ((Store.ofTable "posts").query ⟨0⟩).grammar
      "prepare_binding_for_json_contains" = .ok { dialect := .sqlite } := rfl
  refine ((documents_together_iff (by decide)).1 _ _ _ _).1.2 (.inr ⟨⟨_, hgrammar⟩, ?_⟩)
  rw [hshown]
  exact .list hitems

end

/-- A numeral starts with a digit. -/
theorem readNat_of_not_digit {c : Char} {cs : List Char} (h : ¬Text.isDigit c = true) :
    readNat (c :: cs) = none := by
  have hnone : Text.decimalDigit? c = none := by
    refine Option.not_isSome_iff_eq_none.1 fun hsome => h ?_
    rw [Text.isDigit, hsome, Bool.true_or]
  unfold readNat
  dsimp only
  rw [hnone]
  rfl

/-- What comes of comparing the length of an array with a word. -/
def lengthWithWord : Except Failure Unit × Store :=
  (QueryId.whereJsonLength ⟨0⟩ (.text "tags") (.text ">") (some (.text "many")) (.text "and")).runOn
    (Store.ofTable "posts")

/-- The length of an array cannot be compared with a word, but the condition is there, and has no
value. -/
theorem length_condition_alone :
    lengthWithWord.1 = .error (.value .badValue) ∧
      (lengthWithWord.2.query ⟨0⟩).wheres =
        [⟨.text "and", .jsonLength (.text "tags") ">" (.text "many")⟩] ∧
      (lengthWithWord.2.query ⟨0⟩).bindings.flatten = [] ∧
      lengthWithWord.2.query ⟨0⟩ ≠ (Store.ofTable "posts").query ⟨0⟩ := by
  have hcomparison : ((QueryId.comparison ⟨0⟩ (some (.text ">")) (some (.text "many"))).runOn
      (Store.ofTable "posts")).1 = .ok ⟨">", .text "many"⟩ := rfl
  have hletter : ¬Text.isDigit 'm' = true := fun hdigit => absurd (digit_cases hdigit) (by decide)
  have hword : (("many".toList.dropWhile isNumeralBlank).reverse.dropWhile isNumeralBlank).reverse =
      ['m', 'a', 'n', 'y'] := by decide +kernel
  have hread : readInt "many".toList = none := by
    unfold readInt
    rw [hword]
    show (readNat ['m', 'a', 'n', 'y']).map (fun n => (n : Int)) = none
    rw [readNat_of_not_digit hletter]
    rfl
  have hmade : (Value.text "many").toInt = .error (.value .badValue) := by
    rw [Value.toInt, hread]
    rfl
  have hrun : lengthWithWord = (.error (.value .badValue), (Store.ofTable "posts").withCondition ⟨0⟩
      (.text "and") (.jsonLength (.text "tags") ">" (.text "many")) []) := by
    unfold lengthWithWord
    rw [whereJsonLength_runOn, hcomparison]
    dsimp only
    rw [hmade]
    rfl
  have hquery : 0 < (Store.ofTable "posts").queries.size := by decide
  rw [hrun]
  exact ⟨rfl, rfl, rfl, query_withCondition_ne hquery []⟩

end FluentSql
