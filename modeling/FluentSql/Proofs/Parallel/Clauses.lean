import FluentSql.Proofs.Asking
import FluentSql.Proofs.Parallel.Basic

/-!
# Clauses in parallel

The clauses of two queries are compiled alike, piece by piece, if their
columns, values and words are.

* `Wraps` relates two columns by how the two grammars quote them, and
  `Binds` two values by what stands for them.
* The conditions on rows: one lemma for each kind that reads the same in
  every dialect, then the lists of them.
* The conditions on groups, the orderings, the paging, the aggregate and the
  select list.
-/

namespace FluentSql

variable {lax : Prop} {R : String → String → Prop} {g g' : Grammar} {attached attached' : Attached}

/-! ## Columns and values -/

/-- Two columns are quoted alike. -/
def Wraps (lax : Prop) (R : String → String → Prop) (g g' : Grammar) (v v' : Value) : Prop :=
  Alike lax (Written R) (g.wrap v) (g'.wrap v')

/-- What stands for two values is written alike. -/
def Binds (R : String → String → Prop) (v v' : Value) : Prop :=
  Written R (Grammar.parameter v) (Grammar.parameter v')

theorem Wraps.wrapped {v v' : Value} (h : Wraps lax R g g' v v') :
    Alike lax R (g.wrapped v) (g'.wrapped v') :=
  h.map fun _ _ h => h.display

section

variable (hR : Carried R)

include hR

theorem columnize_alike {columns columns' : List Value}
    (h : List.Forall₂ (Wraps lax R g g') columns columns') :
    Alike lax R (g.columnize columns) (g'.columnize columns') :=
  (Alike.mapM h fun _ _ h => h).bind fun _ _ h => joinTexts_alike hR (by decide) h

theorem parameterize_alike {values values' : List Value} (h : List.Forall₂ (Binds R) values values') :
    Alike lax R (Grammar.parameterize values) (Grammar.parameterize values') := by
  refine joinTexts_alike hR (by decide) ?_
  rw [List.forall₂_map_left_iff, List.forall₂_map_right_iff]
  exact h

/-! ## Conditions on rows -/

theorem plain_negatable {word : String} (h : Plain word) (negated : Bool) :
    R (negatable negated word) (negatable negated word) := by
  cases negated with
  | false => exact hR.plain h
  | true => exact hR.before (by decide) (hR.plain h)

theorem comparisonSql_alike {column column' value value' : Value} {operator operator' : String}
    (hcolumn : Wraps lax R g g' column column') (hoperator : R operator operator')
    (hvalue : Binds R value value') :
    Alike lax R (g.comparisonSql column operator value) (g'.comparisonSql column' operator' value') :=
  hcolumn.wrapped.bind fun _ _ h => .ok (hR.space (hR.space h hoperator) hvalue.display)

theorem amongSql_alike {column column' : Value} {values values' : Except Failure String}
    {isEmpty isEmpty' : Bool} (hcolumn : Wraps lax R g g' column column')
    (hvalues : Alike lax R values values') (hempty : isEmpty = isEmpty') (negated : Bool) :
    Alike lax R (g.amongSql column values isEmpty negated)
      (g'.amongSql column' values' isEmpty' negated) := by
  subst hempty
  unfold Grammar.amongSql
  split
  · exact .ok (hR.plain (by cases negated <;> decide))
  · refine hcolumn.wrapped.bind fun _ _ h => hvalues.bind fun _ _ hvalues => .ok ?_
    exact hR.spaceEnclosed (hR.space h (plain_negatable hR (by decide) negated)) hvalues

theorem plainNullSql_alike {column column' : Value} (hcolumn : Wraps lax R g g' column column')
    (negated : Bool) : Alike lax R (g.plainNullSql column negated) (g'.plainNullSql column' negated) :=
  hcolumn.wrapped.bind fun _ _ h => .ok (hR.after (by cases negated <;> decide) h)

theorem betweenSql_alike {column column' : Value} {values values' : List Value}
    (hcolumn : Wraps lax R g g' column column') (hvalues : List.Forall₂ (Binds R) values values')
    (negated : Bool) :
    Alike lax R (g.betweenSql column values negated) (g'.betweenSql column' values' negated) := by
  have hfirst := head?_of_forall₂ hvalues
  have hlast := getLast?_of_forall₂ hvalues
  unfold Grammar.betweenSql
  revert hfirst hlast
  generalize values.head? = first, values'.head? = first', values.getLast? = last,
    values'.getLast? = last'
  intro hfirst hlast
  cases hfirst with
  | none => exact .error _
  | some hfirst =>
    cases hlast with
    | none => exact .error _
    | some hlast =>
      refine hcolumn.wrapped.bind fun _ _ h => .ok ?_
      have hword := hR.space h (plain_negatable hR (show Plain "between" by decide) negated)
      exact hR.append (hR.after (by decide) (hR.space hword hfirst.display)) hlast.display

theorem columnPairSql_alike {first first' second second' : Value} {operator operator' : String}
    (hfirst : Wraps lax R g g' first first') (hoperator : R operator operator')
    (hsecond : Wraps lax R g g' second second') :
    Alike lax R (g.whereSql attached (.columnPair first operator second))
      (g'.whereSql attached' (.columnPair first' operator' second')) :=
  hfirst.wrapped.bind fun _ _ h => hsecond.wrapped.bind fun _ _ h' =>
    .ok (hR.space (hR.space h hoperator) h')

theorem nestedSql_alike {query query' : QueryId}
    (h : Alike lax R (attached.conditions query) (attached'.conditions query')) :
    Alike lax R (g.whereSql attached (.nested query)) (g'.whereSql attached' (.nested query')) :=
  h.bind fun _ _ h => .ok (hR.enclosed h)

theorem subSql_alike {column column' operator operator' : Value} {query query' : QueryId}
    (hcolumn : Wraps lax R g g' column column') (hoperator : R operator.display operator'.display)
    (h : Alike lax R (attached.select query) (attached'.select query')) :
    Alike lax R (g.whereSql attached (.sub column operator query))
      (g'.whereSql attached' (.sub column' operator' query')) :=
  h.bind fun _ _ h => hcolumn.wrapped.bind fun _ _ hcolumn =>
    .ok (hR.spaceEnclosed (hR.space hcolumn hoperator) h)

theorem existsSql_alike {query query' : Option QueryId} (negated : Bool)
    (h : Alike lax R (attached.selectOf query) (attached'.selectOf query')) :
    Alike lax R (g.whereSql attached (.exists query negated))
      (g'.whereSql attached' (.exists query' negated)) :=
  h.bind fun _ _ h => .ok (hR.spaceEnclosed (plain_negatable hR (by decide) negated) h)

theorem rowValuesSql_alike {columns columns' : List Value} {operator operator' : Value}
    {values values' : List Value} (hcolumns : List.Forall₂ (Wraps lax R g g') columns columns')
    (hoperator : R operator.display operator'.display)
    (hvalues : List.Forall₂ (Binds R) values values') :
    Alike lax R (g.whereSql attached (.rowValues columns operator values))
      (g'.whereSql attached' (.rowValues columns' operator' values')) := by
  refine (columnize_alike hR hcolumns).bind fun _ _ hcolumns =>
    (parameterize_alike hR hvalues).bind fun _ _ hvalues => .ok ?_
  exact hR.spaceEnclosed (hR.enclosedSpace hcolumns hoperator) hvalues

/-- Lists of conditions with their joining words. -/
theorem conditionsSql_alike {conditions conditions' : List Condition}
    (h : List.Forall₂ (fun c c' => R c.boolean.display c'.boolean.display ∧
      Alike lax R (g.whereSql attached c.body) (g'.whereSql attached' c'.body))
      conditions conditions') :
    Alike lax R (g.conditionsSql attached conditions) (g'.conditionsSql attached' conditions') := by
  refine (Alike.mapM (Q := WithWord R) h fun c c' h => ?_).bind fun _ _ h => .ok (hR.dropFirst h)
  exact h.2.bind fun _ _ htext => .ok ⟨_, _, _, _, h.1, htext, rfl, rfl⟩

omit hR in
theorem plain_keyword (q : Query) : Plain (q.keyword ++ " ") := by
  unfold Query.keyword
  split <;> decide

theorem wheresSql_alike {q q' : Query} (hkeyword : q.keyword = q'.keyword)
    (h : List.Forall₂ (fun c c' => R c.boolean.display c'.boolean.display ∧
      Alike lax R (g.whereSql attached c.body) (g'.whereSql attached' c'.body)) q.wheres q'.wheres) :
    Alike lax R (g.wheresSql attached q) (g'.wheresSql attached' q') := by
  unfold Grammar.wheresSql
  rw [hkeyword, isEmpty_eq_of_forall₂ h]
  split
  · exact .ok hR.empty
  · exact (conditionsSql_alike hR h).bind fun _ _ h => .ok (hR.before (plain_keyword q') h)

/-! ## Conditions on groups -/

theorem havingsSql_alike {conditions conditions' : List GroupCondition}
    (h : List.Forall₂ (fun c c' => R c.boolean.display c'.boolean.display ∧
      Alike lax R (g.havingSql c.body) (g'.havingSql c'.body)) conditions conditions') :
    Alike lax R (g.havingsSql conditions) (g'.havingsSql conditions') := by
  refine (Alike.mapM (Q := WithWord R) h fun c c' h => ?_).bind fun _ _ h => .ok ?_
  · exact h.2.bind fun _ _ htext => .ok ⟨_, _, _, _, h.1, htext, rfl, rfl⟩
  · exact hR.before (by decide) (hR.dropFirst h)

/-! ## Orderings and paging -/

/-- Two orderings are by related texts, or by columns that are quoted alike. -/
inductive Order.Matches (lax : Prop) (R : String → String → Prop) (g g' : Grammar) :
    Order → Order → Prop where
  | byColumn {column column' : Value} (h : Wraps lax R g g' column column')
      (direction : Direction) :
      Order.Matches lax R g g' (.byColumn column direction) (.byColumn column' direction)
  | raw {sql sql' : Value} (h : Written R sql sql') : Order.Matches lax R g g' (.raw sql) (.raw sql')

theorem ordersSql_alike {orders orders' : List Order}
    (h : List.Forall₂ (Order.Matches lax R g g') orders orders') :
    Alike lax R (g.ordersSql orders) (g'.ordersSql orders') := by
  refine (Alike.mapM (Q := Written R) h fun o o' h => ?_).bind fun _ _ h =>
    (joinTexts_alike hR (by decide) h).bind fun _ _ h => .ok (hR.before (by decide) h)
  cases h with
  | byColumn h direction =>
    refine h.wrapped.bind fun _ _ h => .ok (written_text (hR.space h (hR.plain ?_)))
    cases direction <;> decide
  | raw h => exact .ok h

omit hR in
/-- Digits are neither quotes nor parentheses. -/
theorem plain_natText (n : Nat) : Plain (Number.natText n) := by
  intro c hc
  rw [Number.natText, String.toList_ofList] at hc
  have hdigit : c.isDigit = true := Nat.isDigit_of_mem_toDigits (by decide) (by decide) hc
  refine ⟨?_, ?_, ?_⟩
  · rw [Bool.eq_false_iff]
    intro hq
    simp only [isQuote, Bool.or_eq_true, beq_iff_eq] at hq
    rcases hq with (rfl | rfl) | rfl <;> exact absurd hdigit (by decide)
  · rintro rfl
    exact absurd hdigit (by decide)
  · rintro rfl
    exact absurd hdigit (by decide)

theorem intText_carried (i : Int) : R (Number.intText i) (Number.intText i) := by
  unfold Number.intText
  split
  · exact hR.before (by decide) (hR.plain (plain_natText _))
  · exact hR.plain (plain_natText _)

theorem integersSql_alike (values : List Int) :
    Alike lax R (Grammar.integersSql values) (Grammar.integersSql values) := by
  have hinteger : ∀ i j, i = j → Alike lax R (Grammar.integerText i) (Grammar.integerText j) := by
    rintro i _ rfl
    unfold Grammar.integerText
    split
    · exact .ok (intText_carried hR i)
    · exact .error _
  exact (Alike.mapM (List.forall₂_same.2 fun _ _ => rfl) hinteger).bind fun _ _ h =>
    .ok (hR.joinWith (by decide) h)

/-- A number of rows after its keyword. -/
theorem countText_alike {word : String} (hword : Plain word) (n : Nat) :
    Alike lax R (do return word ++ (← Grammar.countText n))
      (do return word ++ (← Grammar.countText n)) := by
  unfold Grammar.countText
  split
  · exact .ok (hR.before hword (hR.plain (plain_natText n)))
  · exact .error _

theorem limitSql_alike (n : Nat) : Alike lax R (Grammar.limitSql n) (Grammar.limitSql n) :=
  countText_alike hR (by decide) n

theorem offsetSql_alike (n : Nat) : Alike lax R (Grammar.offsetSql n) (Grammar.offsetSql n) :=
  countText_alike hR (by decide) n

theorem trailing_alike {α : Type} {clause : Option α} {sql sql' : α → Except Failure String}
    (h : ∀ x, Alike lax R (sql x) (sql' x)) :
    Alike lax R (Grammar.trailing clause sql) (Grammar.trailing clause sql') := by
  cases clause with
  | none => exact .ok hR.empty
  | some x => exact (h x).map fun _ _ h => hR.before (by decide) h

theorem trailingOf_alike {α : Type} {items items' : List α}
    {sql sql' : List α → Except Failure String} (hempty : items.isEmpty = items'.isEmpty)
    (h : Alike lax R (sql items) (sql' items')) :
    Alike lax R (Grammar.trailingOf items sql) (Grammar.trailingOf items' sql') := by
  unfold Grammar.trailingOf
  rw [hempty]
  split
  · exact .ok hR.empty
  · exact h.map fun _ _ h => hR.before (by decide) h

theorem ifAny_alike {α β : Type} {items : List α} {items' : List β} {x y : Except Failure String}
    (hempty : items.isEmpty = items'.isEmpty) (h : Alike lax R x y) :
    Alike lax R (Grammar.ifAny items x) (Grammar.ifAny items' y) := by
  unfold Grammar.ifAny
  rw [hempty]
  split
  · exact .ok hR.empty
  · exact h

/-! ## Aggregates and select lists -/

/-- Two aggregates are of the same function over columns that are quoted alike. -/
structure Aggregate.Matches (lax : Prop) (R : String → String → Prop) (g g' : Grammar)
    (a a' : Aggregate) : Prop where
  function : R a.function.display a'.function.display
  columns : List.Forall₂ (Wraps lax R g g') a.columns a'.columns

theorem aggregateSql_alike {distinct distinct' : Bool} (hdistinct : distinct = distinct')
    {a a' : Aggregate} (h : a.Matches lax R g g' a') :
    Alike lax R (g.aggregateSql distinct a) (g'.aggregateSql distinct' a') := by
  subst hdistinct
  refine (columnize_alike hR h.columns).bind fun columns columns' hcolumns => .ok ?_
  have hsplit : ∀ f cs : String, "select " ++ f ++ "(" ++ cs ++ ") as aggregate" =
      "select " ++ f ++ ("(" ++ cs ++ ")") ++ " as aggregate" := by
    intro f cs
    simp only [String.append_assoc]
    rfl
  have hlist : R (if distinct ∧ columns ≠ "*" then "distinct " ++ columns else columns)
      (if distinct ∧ columns' ≠ "*" then "distinct " ++ columns' else columns') := by
    simp only [ne_eq, hR.isStar hcolumns]
    split
    · exact hR.before (by decide) hcolumns
    · exact hcolumns
  show R (_ ++ _ ++ _ ++ _ ++ _) _
  rw [hsplit, hsplit]
  exact hR.after (by decide) (hR.append (hR.before (by decide) h.function) (hR.enclosed hlist))

theorem columnsSql_alike (distinct : Bool) {columns columns' : List Value}
    (h : List.Forall₂ (Wraps lax R g g') columns columns') :
    Alike lax R (g.columnsSql distinct columns) (g'.columnsSql distinct columns') :=
  (columnize_alike hR h).bind fun _ _ h => .ok (hR.before (by cases distinct <;> decide) h)

theorem sourceSql_alike {source source' : Value} (hpresent : source.isPresent = source'.isPresent)
    (h : Alike lax (Written R) (g.wrapTable source) (g'.wrapTable source')) :
    Alike lax R (g.sourceSql source) (g'.sourceSql source') := by
  unfold Grammar.sourceSql
  rw [hpresent]
  split
  · exact h.bind fun _ _ h => h.text.bind fun _ _ h => .ok (hR.before (by decide) h)
  · exact .ok hR.empty

end

end FluentSql
