import FluentSql.Proofs.Fetching.Inquiries
import FluentSql.Proofs.Joining
import FluentSql.Proofs.Operators.Corresponding
import FluentSql.Proofs.Regular
import FluentSql.Proofs.Verbatim.Calls

/-!
# Maps of conditions

A map of conditions adds one group, and so does the list of its entries, each
compared for equality.  The entries of a map are joined by the word of the
whole call, those of a list by `and`, unless they have words of their own.

* `QueryId.addListed` is what becomes of one condition of a list, and
  `whereGroup_of_fits` says that more room for lists within lists changes
  nothing.
* `addConditions_map` says that a map is the list of its entries with the word
  of the call, and `addConditions_and` that the word may be left out if it is
  `and`.
* `Action.OnlyJoins` says that a word is written to one condition and nowhere
  else, and `groupBuiltBy_plain` what becomes of entries without queries.
* `map_means_entries` is the result.
-/

namespace FluentSql

open QueryId

namespace QueryId

variable {run : Runner} {kind : ComparisonKind} {q : QueryId} {fuel fuel' : Nat}
  {conditions boolean : Value} {entries : List (Value × Value)}

/-! ## One condition of a list -/

/-- Adds one condition of a list: a comparison, or a list of conditions in turn. -/
def addListed (run : Runner) (kind : ComparisonKind) (fuel : Nat) (q : QueryId)
    (arguments : List Value) : Action Unit :=
  match arguments with
  | column :: rest => do
    let column ← column.now
    if isConditionList column && rest.length ≤ 3 then
      whereGroup run kind fuel q column ((rest[2]?).getD (.text "and"))
    else q.compareSingle run kind (column :: rest)
  | [] => throw .wrongType

theorem whereGroup_succ (run : Runner) (kind : ComparisonKind) (fuel : Nat) (q : QueryId)
    (conditions boolean : Value) : whereGroup run kind (fuel + 1) q conditions boolean =
      q.groupBuiltBy run boolean fun nested =>
        (conditionArguments conditions boolean).forM fun arguments =>
          Action.ofExcept arguments >>= nested.addListed run kind fuel := by
  rfl

theorem forM_congr {α β : Type} {xs : List α} {ys : List β} {f : α → Action PUnit}
    {f' : β → Action PUnit} (h : List.Forall₂ (fun x y => f x = f' y) xs ys) :
    xs.forM f = ys.forM f' := by
  induction h with
  | nil => rfl
  | @cons x y xs ys hx _ ih =>
    show (f x >>= fun _ => xs.forM f) = (f' y >>= fun _ => ys.forM f')
    rw [hx, ih]

/-! ## How deeply lists are nested -/

theorem depth_le_depthOfAll {vs : List Value} {v : Value} (h : v ∈ vs) :
    depth v ≤ depthOfAll vs := by
  induction vs with
  | nil => exact nomatch h
  | cons w vs ih =>
    rw [depthOfAll]
    rcases List.mem_cons.1 h with rfl | h
    · exact Nat.le_max_left _ _
    · exact (ih h).trans (Nat.le_max_right _ _)

theorem depth_le_depthOfEntries {e : Value × Value} (h : e ∈ entries) :
    depth e.1 ≤ depthOfEntries entries := by
  induction entries with
  | nil => exact nomatch h
  | cons w entries ih =>
    obtain ⟨k, v⟩ := w
    rw [depthOfEntries]
    rcases List.mem_cons.1 h with rfl | h
    · exact (Nat.le_max_left _ _).trans (Nat.le_max_left _ _)
    · exact (ih h).trans (Nat.le_max_right _ _)

/-- The elements of a value are no deeper than the value. -/
theorem depth_le_of_mem_items {v w : Value} {vs : List Value} (hvs : v.items = .ok vs)
    (hw : w ∈ vs) : depth w ≤ depth v := by
  cases v with
  | text s =>
    cases hvs
    obtain ⟨c, _, rfl⟩ := List.mem_map.1 hw
    exact Nat.le_refl _
  | bytes bs =>
    cases hvs
    obtain ⟨b, _, rfl⟩ := List.mem_map.1 hw
    exact Nat.le_refl _
  | list items =>
    cases hvs
    exact (depth_le_depthOfAll hw).trans (Nat.le_succ _)
  | tuple items =>
    cases hvs
    exact (depth_le_depthOfAll hw).trans (Nat.le_succ _)
  | map entries =>
    cases hvs
    obtain ⟨e, he, rfl⟩ := List.mem_map.1 hw
    exact (depth_le_depthOfEntries he).trans (Nat.le_succ _)
  | _ => exact nomatch hvs

/-- There is room for all lists within a value.  The bindings of a query hold no list of
conditions, whatever is bound. -/
def Fits (fuel : Nat) (conditions : Value) : Prop :=
  depth conditions < fuel ∨ 0 < fuel ∧ ∃ b : Bindings, conditions = .map b.toEntries

/-- What a value may be read as now. -/
inductive ReadsAs : Value → Value → Prop where
  | same (v : Value) : ReadsAs v v
  | bindings (id : QueryId) (b : Bindings) : ReadsAs (.object (.bindings id)) (.map b.toEntries)

theorem now_congr {α : Type} {v : Value} {f f' : Value → Action α}
    (h : ∀ w, ReadsAs v w → f w = f' w) : v.now >>= f = v.now >>= f' := by
  unfold Value.now
  split
  · rename_i id
    rw [bind_assoc, bind_assoc]
    exact congrArg (id.read >>= ·) (funext fun query => h _ (.bindings id query.bindings))
  · rw [pure_bind, pure_bind]
    exact h v (.same v)

/-- The column of a condition is less deep than the list of conditions. -/
theorem depth_column_lt {column : Value} {rest : List Value}
    (harguments : .ok (column :: rest) ∈ conditionArguments conditions boolean) :
    depth column < depth conditions := by
  have hitems : ∀ items : List Value, .ok (column :: rest) ∈ items.map Value.items →
      depth column ≤ depthOfAll items := by
    intro items h
    obtain ⟨item, hitem, heq⟩ := List.mem_map.1 h
    exact (depth_le_of_mem_items heq List.mem_cons_self).trans (depth_le_depthOfAll hitem)
  cases conditions with
  | map entries =>
    obtain ⟨e, he, heq⟩ := List.mem_map.1 harguments
    cases heq
    exact Nat.lt_succ_of_le (depth_le_depthOfEntries he)
  | list items => exact Nat.lt_succ_of_le (hitems items harguments)
  | tuple items => exact Nat.lt_succ_of_le (hitems items harguments)
  | _ => exact nomatch harguments

/-- There is room for what the column of a condition is read as. -/
theorem fits_column (h : Fits (fuel + 1) conditions) {column : Value} {rest : List Value}
    (harguments : .ok (column :: rest) ∈ conditionArguments conditions boolean) {w : Value}
    (hw : ReadsAs column w) (hlist : isConditionList w = true) : Fits fuel w := by
  obtain hdepth | ⟨_, b, rfl⟩ := h
  · have hcolumn : depth column < fuel :=
      (depth_column_lt harguments).trans_le (Nat.le_of_lt_succ hdepth)
    cases hw with
    | same => exact .inl hcolumn
    | bindings id b => exact .inr ⟨Nat.zero_lt_of_lt hcolumn, b, rfl⟩
  · -- The bindings of a query are named by texts.
    obtain ⟨e, he, heq⟩ := List.mem_map.1 harguments
    obtain ⟨group, _, rfl⟩ := List.mem_map.1 he
    cases heq
    cases hw
    exact nomatch hlist

/-- What becomes of a list of conditions does not depend on how much room there is for lists in
it. -/
theorem whereGroup_of_fits (run : Runner) (kind : ComparisonKind) (q : QueryId) (boolean : Value)
    (h : Fits fuel conditions) (h' : Fits fuel' conditions) :
    whereGroup run kind fuel q conditions boolean =
      whereGroup run kind fuel' q conditions boolean := by
  induction fuel generalizing fuel' q conditions boolean with
  | zero => exact absurd h (by rintro (h | ⟨h, _⟩) <;> exact Nat.not_lt_zero _ h)
  | succ fuel ih =>
    cases fuel' with
    | zero => exact absurd h' (by rintro (h | ⟨h, _⟩) <;> exact Nat.not_lt_zero _ h)
    | succ fuel' =>
      rw [whereGroup_succ, whereGroup_succ]
      refine congrArg (q.groupBuiltBy run boolean) (funext fun nested => ?_)
      refine forM_congr (List.forall₂_same.2 fun arguments harguments => ?_)
      match arguments with
      | .error e => rfl
      | .ok [] => rfl
      | .ok (column :: rest) =>
        refine now_congr fun w hw => ?_
        split
        · rename_i hlist
          have hcolumn := (Bool.and_eq_true_iff.1 hlist).1
          exact ih nested _ (fits_column h harguments hw hcolumn)
            (fits_column h' harguments hw hcolumn)
        · rfl

/-! ## Entries -/

/-- Adds a list or a map of conditions of some kind. -/
def addConditions (run : Runner) (kind : ComparisonKind) (q : QueryId)
    (conditions boolean : Value) : Action Unit :=
  match kind with
  | .values => q.where run conditions none none boolean
  | .columns => q.whereColumn run conditions .null .null boolean

/-- An entry of a map as a condition. -/
def entryCondition (e : Value × Value) : Value :=
  .list [e.1, .text "=", e.2]

/-- An entry of a map as a condition with a word of its own. -/
def wordedCondition (word : Value) (e : Value × Value) : Value :=
  .list [e.1, .text "=", e.2, word]

theorem addConditions_eq (run : Runner) (q : QueryId) (boolean : Value)
    (hlist : isConditionList conditions = true) (h : Fits fuel conditions) :
    q.addConditions run kind conditions boolean =
      whereGroup run kind fuel q conditions boolean := by
  have hfits : Fits (depth conditions + 1) conditions := .inl (Nat.lt_succ_self _)
  have hnow : conditions.now = pure conditions := by
    cases conditions with
    | object handle => exact nomatch hlist
    | _ => rfl
  cases kind with
  | values =>
    unfold addConditions QueryId.where
    rw [hnow, pure_bind, if_pos hlist]
    exact whereGroup_of_fits run .values q boolean hfits h
  | columns =>
    unfold addConditions QueryId.whereColumn
    rw [hnow, pure_bind, if_pos hlist]
    exact whereGroup_of_fits run .columns q boolean hfits h

/-- Lists of conditions are added alike if their conditions are, one by one. -/
theorem addConditions_congr {conditions' : Value} (run : Runner) (kind : ComparisonKind)
    (q : QueryId) (hlist : isConditionList conditions = true)
    (hlist' : isConditionList conditions' = true)
    (h : ∀ fuel (nested : QueryId),
      ((conditionArguments conditions boolean).forM fun arguments =>
        Action.ofExcept arguments >>= nested.addListed run kind fuel) =
      (conditionArguments conditions' boolean).forM fun arguments =>
        Action.ofExcept arguments >>= nested.addListed run kind fuel) :
    q.addConditions run kind conditions boolean = q.addConditions run kind conditions' boolean := by
  have hfits : Fits (depth conditions + depth conditions' + 1) conditions := .inl (by omega)
  have hfits' : Fits (depth conditions + depth conditions' + 1) conditions' := .inl (by omega)
  rw [addConditions_eq run q boolean hlist hfits, addConditions_eq run q boolean hlist' hfits',
    whereGroup_succ, whereGroup_succ]
  exact congrArg (q.groupBuiltBy run boolean) (funext fun nested => h _ nested)

/-- A map of conditions is the list of its entries with the word of the call. -/
theorem addConditions_map (run : Runner) (kind : ComparisonKind) (q : QueryId)
    (entries : List (Value × Value)) (boolean : Value) :
    q.addConditions run kind (.map entries) boolean =
      q.addConditions run kind (.list (entries.map (wordedCondition boolean))) boolean := by
  refine addConditions_congr run kind q rfl rfl fun fuel nested => ?_
  refine forM_congr (List.forall₂_map_left_iff.2 (List.forall₂_map_right_iff.2
    (List.forall₂_map_right_iff.2 (List.forall₂_same.2 fun e _ => rfl))))

/-- A word of its own makes no difference to a condition if it is `and`. -/
theorem addConditions_and (run : Runner) (kind : ComparisonKind) (q : QueryId)
    (entries : List (Value × Value)) (boolean : Value) :
    q.addConditions run kind (.list (entries.map (wordedCondition (.text "and")))) boolean =
      q.addConditions run kind (.list (entries.map entryCondition)) boolean := by
  refine addConditions_congr run kind q rfl rfl fun fuel nested => ?_
  refine forM_congr (List.forall₂_map_left_iff.2 (List.forall₂_map_left_iff.2
    (List.forall₂_map_right_iff.2 (List.forall₂_map_right_iff.2
      (List.forall₂_same.2 fun e _ => ?_)))))
  cases kind <;> rfl

end QueryId

/-! ## Words that are only written -/

/-- A word is written to one condition, which is added last, or it is not used. -/
def Action.OnlyJoins (q : QueryId) (a : Value → Action Unit) : Prop :=
  ∀ s, (∃ r, ∀ word, (a word).runOn s = r) ∨
    ∃ (t : Store) (body : Where) (values : List Value), ∀ word,
      (a word).runOn s = (.ok (), t.withCondition q word body values)

section

variable {α : Type} {run : Runner} {q nested : QueryId} {column : Value}

theorem onlyJoins_const (a : Action Unit) : Action.OnlyJoins q fun _ => a :=
  fun _ => .inl ⟨_, fun _ => rfl⟩

theorem Action.OnlyJoins.after {a : α → Value → Action Unit} (c : Action α)
    (h : ∀ v, Action.OnlyJoins q (a v)) :
    Action.OnlyJoins q fun word => c >>= fun v => a v word := by
  intro s
  cases hran : c.runOn s with
  | mk result t =>
    cases result with
    | error e => exact .inl ⟨_, fun word => Action.runOn_bind_error hran⟩
    | ok v =>
      obtain ⟨r, hr⟩ | ⟨u, body, values, hadded⟩ := h v t
      · exact .inl ⟨r, fun word => (Action.runOn_bind_ok hran).trans (hr word)⟩
      · exact .inr ⟨u, body, values, fun word => (Action.runOn_bind_ok hran).trans (hadded word)⟩

theorem onlyJoins_whereSub (run : Runner) (column operator query : Value) :
    Action.OnlyJoins q fun word => q.whereSub run column operator query word := by
  intro s
  cases hsub : (q.resolveSub run query).runOn s with
  | mk result t =>
    cases result with
    | error e => exact .inl ⟨_, fun word => Action.runOn_bind_error hsub⟩
    | ok sub => exact .inr ⟨t, _, _, fun word => whereSub_ran hsub column operator word⟩

theorem addNested_runOn (q nested : QueryId) (boolean : Value) (s : Store) :
    (q.addNested nested boolean).runOn s = (.ok (),
      if (s.query nested).wheres.isEmpty then s
      else s.withCondition q boolean (.nested nested) (s.query nested).bindings.condition) :=
  ran_addNested.2 rfl

theorem onlyJoins_addNested (q nested : QueryId) : Action.OnlyJoins q (q.addNested nested) := by
  intro s
  cases hempty : (s.query nested).wheres.isEmpty with
  | true => exact .inl ⟨(.ok (), s), fun word => by rw [addNested_runOn, hempty]; rfl⟩
  | false => exact .inr ⟨s, .nested nested, _, fun word => by rw [addNested_runOn, hempty]; rfl⟩

theorem onlyJoins_groupBuiltBy (run : Runner) (q : QueryId) (build : QueryId → Action Unit) :
    Action.OnlyJoins q fun word => q.groupBuiltBy run word build :=
  .after _ fun nested => .after (build nested) fun _ => onlyJoins_addNested q nested

theorem onlyJoins_addCompared (run : Runner) (hcolumn : isConditionList column = false)
    (c : Comparison) : Action.OnlyJoins q fun word => q.addCompared run word column c := by
  unfold QueryId.addCompared
  split
  · exact onlyJoins_whereSub run column _ _
  · split
    · exact fun s => .inr ⟨s, _, [], fun word => whereNull_runOn q word hcolumn _ s⟩
    · exact fun s => .inr ⟨s, _, _, fun word => addBasic_runOn q word column _ c.operator s⟩

theorem onlyJoins_whereSingle (run : Runner) (hcolumn : isConditionList column = false)
    (operator value : Option Value) :
    Action.OnlyJoins q fun word => q.whereSingle run column operator value word := by
  unfold QueryId.whereSingle
  split
  · exact onlyJoins_groupBuiltBy run q _
  · refine .after _ fun c => ?_
    cases column.isQuery with
    | false => exact onlyJoins_addCompared run hcolumn c
    | true =>
      exact .after _ fun sub => .after _ fun _ => onlyJoins_addCompared run rfl c

theorem onlyJoins_whereColumnSingle (first operator second : Value) :
    Action.OnlyJoins q fun word => q.whereColumnSingle first operator second word := by
  intro s
  cases hpair : s.columnPair q first operator second with
  | error e =>
    refine .inl ⟨(.error e, s), fun word => ?_⟩
    rw [whereColumnSingle_runOn, hpair]
  | ok body =>
    refine .inr ⟨s, body, [], fun word => ?_⟩
    rw [whereColumnSingle_runOn, hpair, Store.withCondition_nil]

/-- A condition whose column is a name, and no list or map of conditions, is added by its word. -/
theorem onlyJoins_compareSingle (run : Runner) (kind : ComparisonKind)
    (hcolumn : isConditionList column = false) (operator value : Value) :
    Action.OnlyJoins q fun word => q.compareSingle run kind [column, operator, value, word] := by
  cases kind with
  | values => exact onlyJoins_whereSingle run hcolumn (some operator) (some value)
  | columns => exact onlyJoins_whereColumnSingle column operator value

/-- A key of a map may be a tuple, and then is a list of conditions. -/
theorem onlyJoins_entry (run : Runner) (kind : ComparisonKind) (fuel : Nat) {e : Value × Value}
    (he : e.1.hashable = true) :
    Action.OnlyJoins q fun word => q.addListed run kind fuel [e.1, .text "=", e.2, word] := by
  obtain ⟨k, v⟩ := e
  cases k with
  | list items => exact nomatch he
  | map entries => exact nomatch he
  | tuple items =>
    cases fuel with
    | zero => exact onlyJoins_const (throw _)
    | succ fuel =>
      exact onlyJoins_groupBuiltBy run q fun nested => (items.map Value.items).forM
        fun arguments => Action.ofExcept arguments >>= nested.addListed run kind fuel
  | object handle =>
    cases handle with
    | bindings id => exact nomatch he
    | _ => exact onlyJoins_compareSingle run kind rfl (.text "=") v
  | _ => exact onlyJoins_compareSingle run kind rfl (.text "=") v

theorem onlyJoins_entries (run : Runner) (kind : ComparisonKind) (fuel : Nat)
    {entries : List (Value × Value)} (hlength : entries.length ≤ 1)
    (hkeys : ∀ e ∈ entries, e.1.hashable = true) :
    Action.OnlyJoins q fun word => entries.forM fun e =>
      q.addListed run kind fuel [e.1, .text "=", e.2, word] := by
  match entries with
  | [] => exact onlyJoins_const (pure ())
  | [e] =>
    have hsingle : (fun word => [e].forM fun e =>
        q.addListed run kind fuel [e.1, .text "=", e.2, word]) =
          fun word => q.addListed run kind fuel [e.1, .text "=", e.2, word] :=
      funext fun _ => bind_pure_unit
    rw [hsingle]
    exact onlyJoins_entry run kind fuel (hkeys e List.mem_cons_self)

end

/-! ## Conditions with one word -/

/-- The query with more conditions, all of them with one word. -/
def Query.addAll (word : Value) (q : Query) (added : List (Where × List Value)) : Query :=
  added.foldl (fun q a => (q.addWhere word a.1).bind .condition a.2) q

theorem Query.wheres_addAll (word : Value) (q : Query) (added : List (Where × List Value)) :
    (q.addAll word added).wheres = q.wheres ++ added.map fun a => ⟨word, a.1⟩ := by
  induction added generalizing q with
  | nil => exact (List.append_nil _).symm
  | cons a added ih => exact (ih _).trans (List.append_assoc q.wheres [⟨word, a.1⟩] _)

theorem Query.joinedBy_addAll (word word' : Value) (q : Query) (added : List (Where × List Value)) :
    (q.addAll word' added).joinedBy word = (q.joinedBy word).addAll word added := by
  induction added generalizing q with
  | nil => rfl
  | cons a added ih =>
    refine (ih _).trans (congrArg (addAll word · added) ?_)
    unfold joinedBy bind addWhere
    rw [List.map_append]
    rfl

/-- Conditions that are added to no others may have another word. -/
theorem Store.joinedBy_addAll {s : Store} {q : QueryId} (h : (s.query q).wheres = [])
    (word word' : Value) (added : List (Where × List Value)) :
    (s.edit q (·.addAll word' added)).joinedBy q word = s.edit q (·.addAll word added) := by
  have hnone : (s.query q).joinedBy word = s.query q := by
    unfold Query.joinedBy
    rw [h, List.map_nil, ← h]
  unfold Store.joinedBy
  rw [Store.edit_edit]
  refine Store.edit_congr ((Query.joinedBy_addAll ..).trans ?_)
  rw [hnone]

/-! ## Groups -/

section

variable {run : Runner} {kind : ComparisonKind} {q nested : QueryId} {s s' : Store}
  {entries : List (Value × Value)} {boolean word : Value}

theorem Store.next_ne (hq : q.index < s.queries.size) : s.next ≠ q :=
  fun heq => Nat.lt_irrefl _ (heq ▸ hq : s.next.index < s.queries.size)

/-- The query of a group is the next one of the store, and has no conditions yet. -/
theorem forNestedWhere_next (h : (q.forNestedWhere run).runOn s = (.ok nested, s')) :
    nested = s.next ∧ s.next.index < s'.queries.size ∧ (s'.query s.next).wheres = [] := by
  have hran : Ran (q.forNestedWhere run) s nested s' := h
  unfold QueryId.forNestedWhere QueryId.newQuery at hran
  simp only [ran_bind, ran_read, ran_create, ran_pure] at hran
  obtain ⟨_, _, ⟨_, _, ⟨rfl, rfl⟩, rfl, rfl⟩, _, _, ⟨rfl, rfl⟩, _, _, hset, rfl, rfl⟩ := hran
  unfold QueryId.setSource at hset
  split at hset
  · cases hset
  · simp only [Value.truthy, Bool.false_eq_true, if_false, ran_bind, ran_pure, ran_modify] at hset
    obtain ⟨_, _, ⟨rfl, rfl⟩, rfl⟩ := hset
    rw [Store.edit_add, Store.query_add_next]
    exact ⟨rfl, (Nat.lt_succ_self _).trans_eq (Store.size_add _ _).symm, rfl⟩

/-- A group cannot be made, whatever is built, or is built on an empty query. -/
theorem groupBuiltBy_runOn (run : Runner) (q : QueryId) (boolean : Value) (s : Store) :
    (∃ e t, ∀ build, (q.groupBuiltBy run boolean build).runOn s = (.error e, t)) ∨
      ∃ t, s.next.index < t.queries.size ∧ (t.query s.next).wheres = [] ∧
        ∀ build, (q.groupBuiltBy run boolean build).runOn s =
          (build s.next >>= fun _ => q.addNested s.next boolean).runOn t := by
  cases hran : (q.forNestedWhere run).runOn s with
  | mk result t =>
    cases result with
    | error e => exact .inl ⟨e, t, fun build => Action.runOn_bind_error hran⟩
    | ok nested =>
      obtain ⟨rfl, hlt, hnone⟩ := forNestedWhere_next hran
      exact .inr ⟨t, hlt, hnone, fun build => Action.runOn_bind_ok hran⟩

/-- Adding a group leaves the query of the group as it is. -/
theorem addNested_query (h : nested ≠ q) (boolean : Value) (s : Store) :
    (((q.addNested nested boolean).runOn s).2.query nested) = s.query nested := by
  rw [addNested_runOn]
  dsimp only
  split
  · rfl
  · exact Store.query_withCondition_of_ne h

/-- A group is added alike whatever the words in it are. -/
theorem addNested_joinedBy (h : nested ≠ q) (boolean word : Value) (s : Store) :
    (q.addNested nested boolean).runOn (s.joinedBy nested word) =
      (((q.addNested nested boolean).runOn s).1,
        ((q.addNested nested boolean).runOn s).2.joinedBy nested word) := by
  have hempty : ((s.joinedBy nested word).query nested).wheres.isEmpty =
      (s.query nested).wheres.isEmpty :=
    Store.read_joinedBy (f := fun query => query.wheres.isEmpty) List.isEmpty_map nested
  have hbindings : ((s.joinedBy nested word).query nested).bindings = (s.query nested).bindings :=
    Store.read_joinedBy (f := Query.bindings) rfl nested
  rw [addNested_runOn, addNested_runOn, hempty, hbindings]
  dsimp only
  split
  · rfl
  · exact congrArg (Prod.mk _) (Store.edit_comm h _ _)

/-- If there is one condition after one was added, there was none before. -/
theorem Store.isAlone_withCondition {body : Where} {values : List Value}
    (hq : q.index < s.queries.size) (hword : word ∈ joiningWords)
    (hone : ((s.withCondition q word body values).query q).wheres.length ≤ 1) :
    (s.query q).wheres = [] ∧ ((s.withCondition q word body values).query q).IsAlone := by
  have hwheres : ((s.withCondition q word body values).query q).wheres =
      (s.query q).wheres ++ [⟨word, body⟩] :=
    congrArg Query.wheres (Store.query_withCondition_self hq)
  have hnone : (s.query q).wheres = [] := by
    rw [hwheres, List.length_append, List.length_singleton] at hone
    exact List.length_eq_zero_iff.1 (by omega)
  refine ⟨hnone, hone, fun c hc => ?_⟩
  rw [hwheres, hnone] at hc
  exact List.mem_singleton.1 hc ▸ hword

/-- A group of one condition reads the same whatever the word of the condition is. -/
theorem Action.OnlyJoins.groupBuiltBy {build : QueryId → Value → Action Unit}
    (hbuild : ∀ nested, Action.OnlyJoins nested (build nested)) (hq : q.index < s.queries.size)
    {word word' : Value} (hword : word ∈ joiningWords) (hword' : word' ∈ joiningWords)
    (hone : (((q.groupBuiltBy run boolean (build · word')).runOn s).2.query
      s.next).wheres.length ≤ 1) :
    ((q.groupBuiltBy run boolean (build · word)).runOn s).1 =
        ((q.groupBuiltBy run boolean (build · word')).runOn s).1 ∧
      ((q.groupBuiltBy run boolean (build · word)).runOn s).2.ReadsLike
        ((q.groupBuiltBy run boolean (build · word')).runOn s).2 := by
  have hne : s.next ≠ q := Store.next_ne hq
  obtain ⟨e, t, hgroup⟩ | ⟨t, _, _, hgroup⟩ := groupBuiltBy_runOn run q boolean s
  · rw [hgroup, hgroup]
    exact ⟨rfl, .refl t⟩
  rw [hgroup] at hone
  rw [hgroup, hgroup]
  obtain ⟨r, hran⟩ | ⟨u, body, values, hran⟩ := hbuild s.next t
  · -- Nothing is done with the word.
    have hsame : ((build s.next word >>= fun _ => q.addNested s.next boolean).runOn t) =
        (build s.next word' >>= fun _ => q.addNested s.next boolean).runOn t := by
      rw [Action.runOn_bind, Action.runOn_bind, hran, hran]
    rw [hsame]
    exact ⟨rfl, .refl _⟩
  · rw [Action.runOn_bind_ok (hran word')] at hone
    rw [Action.runOn_bind_ok (hran word), Action.runOn_bind_ok (hran word')]
    rw [addNested_query hne] at hone
    by_cases hlt : s.next.index < u.queries.size
    · obtain ⟨hnone, halone⟩ := Store.isAlone_withCondition hlt hword' hone
      have hwords : u.withCondition s.next word body values =
          (u.withCondition s.next word' body values).joinedBy s.next word :=
        (Store.joinedBy_addAll hnone word word' [(body, values)]).symm
      rw [hwords, addNested_joinedBy hne]
      refine ⟨rfl, Store.readsLike_joinedBy ?_ hword⟩
      rwa [addNested_query hne]
    · -- There is no group to which the condition could have been added.
      have hsame : ∀ word, u.withCondition s.next word body values = u := fun word =>
        Store.edit_of_le (Nat.le_of_not_lt hlt) _
      rw [hsame, hsame]
      exact ⟨rfl, .refl _⟩

end

/-! ## Plain entries -/

/-- An entry whose key is one column, and that has no queries in it. -/
structure IsPlainEntry (e : Value × Value) : Prop where
  /-- The key stands for one column. -/
  key : e.1.IsSingle
  /-- The key is no sub-query. -/
  column : e.1.isQuery = false
  /-- The value is no sub-query. -/
  value : e.2.isQueryable = false

/-- What a plain entry adds: a condition and its values. -/
def entryAdds (kind : ComparisonKind) (e : Value × Value) : Except Failure (Where × List Value) :=
  match kind with
  | .values =>
    if e.2.isNull then .ok (.null e.1 false, [])
    else .ok (.basic e.1 "=" (jsonWord e.1 e.2), (jsonWord e.1 e.2).bound)
  | .columns =>
    if e.2.isNull then .error (.argument .secondColumnMissing)
    else .ok (.columnPair e.1 "=" e.2, [])

section

variable {run : Runner} {kind : ComparisonKind} {q nested : QueryId} {s s' : Store} {fuel : Nat}
  {e : Value × Value} {entries : List (Value × Value)} {boolean word : Value}

theorem addListed_plain (run : Runner) (kind : ComparisonKind) (fuel : Nat) (he : IsPlainEntry e)
    (nested : QueryId) (word : Value) (s : Store) :
    (nested.addListed run kind fuel [e.1, .text "=", e.2, word]).runOn s =
      match entryAdds kind e with
      | .error f => (.error f, s)
      | .ok a => (.ok (), s.withCondition nested word a.1 a.2) := by
  have hsingle : isConditionList e.1 = false := he.key.1
  unfold QueryId.addListed
  rw [Action.runOn_bind_ok (he.key.now_runOn s), hsingle]
  cases kind with
  | values =>
    have hequals : Ran (nested.comparison (some (.text "=")) (some e.2)) s ⟨"=", e.2⟩ s :=
      ran_comparison_equals.2 ⟨rfl, rfl⟩
    have hadded : (nested.whereSingle run e.1 (some (.text "=")) (some e.2) word).runOn s =
        (nested.addCompared run word e.1 ⟨"=", e.2⟩).runOn s :=
      whereSingle_of_column run nested word (Bool.and_false _) he.column
        (congrArg Prod.fst hequals)
    refine hadded.trans ?_
    unfold QueryId.addCompared entryAdds
    dsimp only
    rw [he.value, if_neg Bool.false_ne_true]
    cases e.2.isNull with
    | true => exact whereNull_runOn nested word hsingle false s
    | false => exact addBasic_runOn nested word e.1 _ "=" s
  | columns =>
    have hpair : s.columnPair nested e.1 (.text "=") e.2 =
        if e.2.isNull then .error (.argument .secondColumnMissing)
        else .ok (.columnPair e.1 "=" e.2) := by
      have hknown : s.isOperator nested "=" = .ok true := rfl
      unfold Store.columnPair
      simp only [hknown]
      rfl
    refine (whereColumnSingle_runOn nested e.1 (.text "=") e.2 word s).trans ?_
    unfold entryAdds
    rw [hpair]
    dsimp only
    cases e.2.isNull with
    | true => rfl
    | false => exact congrArg (Prod.mk _) (Store.withCondition_nil s nested word _).symm

theorem forM_plain (run : Runner) (kind : ComparisonKind) (fuel : Nat) (nested : QueryId)
    (hplain : ∀ e ∈ entries, IsPlainEntry e) :
    ∃ (r : Except Failure Unit) (added : List (Where × List Value)),
      (r = .ok () → added.length = entries.length) ∧ ∀ word s,
        (entries.forM fun e => nested.addListed run kind fuel [e.1, .text "=", e.2, word]).runOn s =
          (r, s.edit nested (·.addAll word added)) := by
  induction entries with
  | nil =>
    refine ⟨.ok (), [], fun _ => rfl, fun word s => ?_⟩
    exact congrArg (Prod.mk _) (Store.edit_same fun _ => rfl).symm
  | cons e entries ih =>
    obtain ⟨r, rest, hlength, hrest⟩ :=
      ih fun other hother => hplain other (List.mem_cons_of_mem _ hother)
    have hfirst := addListed_plain run kind fuel (hplain e List.mem_cons_self) nested
    cases hadds : entryAdds kind e with
    | error f =>
      rw [hadds] at hfirst
      refine ⟨.error f, [], nofun, fun word s => ?_⟩
      exact (Action.runOn_bind_error (hfirst word s)).trans
        (congrArg (Prod.mk _) (Store.edit_same fun _ => rfl).symm)
    | ok a =>
      rw [hadds] at hfirst
      refine ⟨r, a :: rest, fun h => congrArg (· + 1) (hlength h), fun word s => ?_⟩
      refine (Action.runOn_bind_ok (hfirst word s)).trans ((hrest word _).trans ?_)
      exact congrArg (Prod.mk r) (s.edit_edit nested _ _)

/-- A group of plain entries differs in its words from one with other words. -/
theorem groupBuiltBy_plain (hplain : ∀ e ∈ entries, IsPlainEntry e) (hq : q.index < s.queries.size)
    (word word' : Value)
    (hran : (q.groupBuiltBy run boolean fun nested => entries.forM fun e =>
      nested.addListed run kind fuel [e.1, .text "=", e.2, word']).runOn s = (.ok (), s')) :
    (q.groupBuiltBy run boolean fun nested => entries.forM fun e =>
        nested.addListed run kind fuel [e.1, .text "=", e.2, word]).runOn s =
          (.ok (), s'.joinedBy s.next word) ∧
      (s'.query s.next).wheres.length = entries.length ∧
      ∀ c ∈ (s'.query s.next).wheres, c.boolean = word' := by
  have hne : s.next ≠ q := Store.next_ne hq
  obtain ⟨r, added, hlength, hforM⟩ := forM_plain run kind fuel s.next hplain
  obtain ⟨e, t, hgroup⟩ | ⟨t, hlt, hnone, hgroup⟩ := groupBuiltBy_runOn run q boolean s
  · rw [hgroup] at hran
    exact nomatch hran
  cases r with
  | error e =>
    rw [hgroup, Action.runOn_bind_error (hforM word' t)] at hran
    exact nomatch hran
  | ok u =>
    rw [hgroup, Action.runOn_bind_ok (hforM word' t)] at hran
    have hquery : (s'.query s.next).wheres = added.map fun a => ⟨word', a.1⟩ := by
      have hkept := addNested_query hne boolean (t.edit s.next (·.addAll word' added))
      rw [hran, Store.query_edit_self hlt] at hkept
      rw [hkept, Query.wheres_addAll, hnone, List.nil_append]
    rw [hquery, List.length_map]
    refine ⟨?_, hlength rfl, fun c hc => ?_⟩
    · rw [hgroup, Action.runOn_bind_ok (hforM word t), ← Store.joinedBy_addAll hnone word word',
        addNested_joinedBy hne, hran]
    · obtain ⟨_, _, rfl⟩ := List.mem_map.1 hc
      rfl

end

/-! ## Maps beside lists -/

section

variable {run : Runner} {kind : ComparisonKind} {q : QueryId} {s : Store}
  {entries : List (Value × Value)} {boolean : Value}

/-- Entries with words of their own are listed with room for all of them. -/
theorem addConditions_worded (run : Runner) (kind : ComparisonKind) (q : QueryId)
    (entries : List (Value × Value)) (boolean word word' : Value) :
    ∃ fuel, ∀ w ∈ [word, word'],
      q.addConditions run kind (.list (entries.map (wordedCondition w))) boolean =
        q.groupBuiltBy run boolean fun nested => entries.forM fun e =>
          nested.addListed run kind fuel [e.1, .text "=", e.2, w] := by
  let list w := Value.list (entries.map (wordedCondition w))
  refine ⟨depth (list word) + depth (list word'), fun w hw => ?_⟩
  have hfits : Fits (depth (list word) + depth (list word') + 1) (list w) := by
    refine .inl (Nat.lt_succ_of_le ?_)
    rcases List.mem_pair.1 hw with rfl | rfl
    · exact Nat.le_add_right _ _
    · exact Nat.le_add_left _ _
  rw [addConditions_eq run q boolean rfl hfits, whereGroup_succ]
  refine congrArg (q.groupBuiltBy run boolean) (funext fun nested => ?_)
  exact forM_congr (List.forall₂_map_left_iff.2 (List.forall₂_map_left_iff.2
    (List.forall₂_same.2 fun e _ => rfl)))

/-- A map of no more than one entry reads as the list of its entries, if nothing else is added to
the group. -/
theorem map_single (hboolean : boolean ∈ joiningWords) (hq : q.index < s.queries.size)
    (hlength : entries.length ≤ 1) (hkeys : ∀ e ∈ entries, e.1.hashable = true)
    (hone : (((q.addConditions run kind (.list (entries.map entryCondition))
      boolean).runOn s).2.query s.next).wheres.length ≤ 1) :
    ((q.addConditions run kind (.map entries) boolean).runOn s).1 =
        ((q.addConditions run kind (.list (entries.map entryCondition)) boolean).runOn s).1 ∧
      ((q.addConditions run kind (.map entries) boolean).runOn s).2.ReadsLike
        ((q.addConditions run kind (.list (entries.map entryCondition)) boolean).runOn s).2 := by
  obtain ⟨fuel, hworded⟩ := addConditions_worded run kind q entries boolean boolean (.text "and")
  rw [addConditions_map, hworded _ List.mem_cons_self]
  rw [← addConditions_and, hworded _ (List.mem_cons_of_mem _ List.mem_cons_self)] at hone ⊢
  exact Action.OnlyJoins.groupBuiltBy (fun nested =>
    onlyJoins_entries run kind fuel hlength hkeys) hq hboolean List.mem_cons_self hone

/-- A map of plain entries makes the conditions that the list makes, with other words. -/
theorem map_plain (hboolean : boolean ∈ joiningWords) (hq : q.index < s.queries.size)
    (hplain : ∀ e ∈ entries, IsPlainEntry e) {listed : Store}
    (hlisted : (q.addConditions run kind (.list (entries.map entryCondition)) boolean).runOn s =
      (.ok (), listed)) :
    let mapped := listed.joinedBy s.next boolean
    (q.addConditions run kind (.map entries) boolean).runOn s = (.ok (), mapped) ∧
      ∀ (g : Grammar) (attached : Attached) (sql : String),
        g.conditionsSql attached (listed.query s.next).wheres = .ok sql →
          (g.conditionsSql attached (mapped.query s.next).wheres = .ok sql ↔
            boolean = .text "and" ∨ entries.length ≤ 1) := by
  obtain ⟨fuel, hworded⟩ := addConditions_worded run kind q entries boolean boolean (.text "and")
  rw [← addConditions_and, hworded _ (List.mem_cons_of_mem _ List.mem_cons_self)] at hlisted
  obtain ⟨hran, hlength, hwords⟩ := groupBuiltBy_plain hplain hq boolean (.text "and") hlisted
  rw [addConditions_map, hworded _ List.mem_cons_self]
  refine ⟨hran, fun g attached sql hsql => ?_⟩
  rw [Store.query_joinedBy_self, ← hlength]
  exact Grammar.conditionsSql_joinedBy_iff hboolean hwords hsql

end

/-- A map of conditions is the list of its entries, each with the word of the call.  Without the
words the list means the same if the word is `and`.  If it is not, the two read the same if there is
one entry and nothing else in the group, and if there are more entries, all of them plain, the two
groups are written differently. -/
theorem map_means_entries (run : Runner) (kind : ComparisonKind) (q : QueryId)
    (entries : List (Value × Value)) :
    let map := q.addConditions run kind (.map entries)
    let listed := q.addConditions run kind (.list (entries.map entryCondition))
    (∀ boolean, map boolean =
        q.addConditions run kind (.list (entries.map (wordedCondition boolean))) boolean) ∧
      map (.text "and") = listed (.text "and") ∧
      ∀ s : Store, q.index < s.queries.size → ∀ boolean ∈ joiningWords,
        (entries.length ≤ 1 → (∀ e ∈ entries, e.1.hashable = true) →
          (((listed boolean).runOn s).2.query s.next).wheres.length ≤ 1 →
            ((map boolean).runOn s).1 = ((listed boolean).runOn s).1 ∧
              ((map boolean).runOn s).2.ReadsLike ((listed boolean).runOn s).2) ∧
        ((∀ e ∈ entries, IsPlainEntry e) → ∀ s', (listed boolean).runOn s = (.ok (), s') →
          let mapped := s'.joinedBy s.next boolean
          (map boolean).runOn s = (.ok (), mapped) ∧
            (∀ id, (mapped.query id).bindings = (s'.query id).bindings) ∧
            ∀ (g : Grammar) (attached : Attached) (sql : String),
              g.conditionsSql attached (s'.query s.next).wheres = .ok sql →
                (g.conditionsSql attached (mapped.query s.next).wheres = .ok sql ↔
                  boolean = .text "and" ∨ entries.length ≤ 1)) := by
  refine ⟨addConditions_map run kind q entries, ?_, fun s hq boolean hboolean => ⟨?_, ?_⟩⟩
  · exact (addConditions_map run kind q entries _).trans (addConditions_and run kind q entries _)
  · exact map_single hboolean hq
  · intro hplain s' hlisted
    obtain ⟨hmap, hsql⟩ := map_plain hboolean hq hplain hlisted
    exact ⟨hmap, Store.read_joinedBy (f := Query.bindings) rfl, hsql⟩

/-- Two columns with a value each. -/
def twoEntries : List (Value × Value) :=
  [(.text "a", .int 1), (.text "b", .int 2)]

/-- Adds conditions after `or` to a query of a table. -/
def orConditions (conditions : Value) : Except Failure Unit × Store :=
  (QueryId.addConditions Runner.idle .values ⟨0⟩ conditions (.text "or")).runOn (Store.ofTable "t")

/-- The conditions of the group that was added to a query of a table. -/
def groupSql (s : Store) : Except Failure String :=
  let g : Grammar := { dialect := .sqlite }
  g.conditionsSql ((Store.ofTable "t").attached g []) (s.query ⟨1⟩).wheres

/-- The group of two entries after `or` is not written as the one of their list. -/
theorem map_means_entries_two : ∃ s', orConditions (.map twoEntries) = (.ok (), s') ∧
    groupSql s' ≠ .ok "\"a\" = ? and \"b\" = ?" := by
  have hplain : ∀ e ∈ twoEntries, IsPlainEntry e := by
    intro e he
    rcases List.mem_pair.1 he with rfl | rfl <;> exact ⟨⟨rfl, nofun⟩, rfl, rfl⟩
  have hlisted : (orConditions (.list (twoEntries.map entryCondition))).1.toOption = some () := by
    decide +kernel
  have hsql : (groupSql (orConditions (.list (twoEntries.map entryCondition))).2).toOption =
      some "\"a\" = ? and \"b\" = ?" := by
    decide +kernel
  obtain ⟨_, _, hmeans⟩ := map_means_entries Runner.idle .values ⟨0⟩ twoEntries
  obtain ⟨hmap, _, hgroup⟩ := (hmeans (Store.ofTable "t") (by decide) (.text "or")
    (List.mem_cons_of_mem _ List.mem_cons_self)).2 hplain _ (Prod.ext (ok_of_toOption hlisted) rfl)
  refine ⟨_, hmap, fun heq => ?_⟩
  obtain hword | hlength := (hgroup _ _ _ (ok_of_toOption hsql)).1 heq
  · exact absurd (Value.text.inj hword) (by decide)
  · exact absurd hlength (by decide)

/-- A map after `or` is joined by `or`, and the list of its entries by `and`. -/
theorem or_map_disagrees :
    let text conditions : Option String :=
      ((do
        QueryId.where Runner.idle ⟨0⟩ (.text "x") (some (.int 0)) none (.text "and")
        QueryId.addConditions Runner.idle .values ⟨0⟩ conditions (.text "or")
        QueryId.toSql Runner.idle ⟨0⟩).runOn (Store.ofTable "t")).1.toOption
    text (.map twoEntries) =
        some "select * from \"t\" where \"x\" = ? or (\"a\" = ? or \"b\" = ?)" ∧
      text (.list (twoEntries.map entryCondition)) =
        some "select * from \"t\" where \"x\" = ? or (\"a\" = ? and \"b\" = ?)" := by
  decide +kernel

end FluentSql
