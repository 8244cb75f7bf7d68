import FluentSql.Proofs.Verbatim.Frames

/-!
# Clauses around a value

A clause writes each of its columns and values once, as the grammar writes it:
a column in quotes, a table in quotes with the prefix, a value as a placeholder,
and a raw fragment as it is.  What stands around it is the same for all of them.

* `Role` is what a value stands for, and `Grammar.Writes` how it is written.
* A `fragment` is written as it is in every role, and a statement with one gap
  for it is `Verbatim`.
* `ConditionGap` and `GroupGap` are the places for a value in a condition.
* `Grammar.whereSql_gapped` and `Grammar.havingSql_gapped` are the conditions, and
  the theorems after them the clauses.
-/

namespace FluentSql

/-! ## Values in their roles -/

/-- What a value stands for. -/
inductive Role where
  /-- A column. -/
  | column
  /-- A table. -/
  | table
  /-- A value. -/
  | value

/-- What is written for data that stands for a column, a table or a value.  A path into a JSON
column is no column. -/
structure Grammar.Writes (g : Grammar) (role : Role) (v : Value) (text : String) : Prop where
  /-- The value is data. -/
  data : v.handles = []
  /-- It is written as the text. -/
  written : match role with
    | .column => g.wrap v = .ok (.text text) ∧ ∀ s, v = .text s → Name.hasArrow s.toList = false
    | .table => g.wrapTable v = .ok (.text text) ∧ v.isPresent = true
    | .value => Grammar.parameter v = .text text

/-- A fragment of SQL. -/
def fragment (text : String) : Value :=
  .raw (.text text)

/-- A fragment is written as it is, whatever it stands for. -/
theorem Grammar.writes_fragment (g : Grammar) (role : Role) (text : String) :
    g.Writes role (fragment text) text := by
  refine ⟨rfl, ?_⟩
  cases role with
  | column => exact ⟨rfl, fun _ h => nomatch h⟩
  | table => exact ⟨rfl, rfl⟩
  | value => rfl

/-- A statement is written around a fragment: the fragment stands in it as it is, and what stands
before and behind it does not depend on the fragment.  Or there is no statement, whatever the
fragment. -/
def Verbatim (f : Value → Except Failure String) : Prop :=
  ∃ frame : Except Failure Frame, ∀ text, Closes text →
    f (fragment text) = frame.map (·.fill text)

section

variable {f f' : Value → Except Failure String}

/-- What is written around the values in a role is written around fragments. -/
theorem Gapped.verbatim {solid : Prop} {g : Grammar} {role : Role}
    (h : Gapped solid (g.Writes role) f) : Verbatim f := by
  obtain ⟨frame, _, hframe⟩ := h
  exact ⟨frame, fun text hcloses => hframe _ text (g.writes_fragment role text) hcloses⟩

theorem Verbatim.congr (h : Verbatim f) (hsame : ∀ text, f' (fragment text) = f (fragment text)) :
    Verbatim f' := by
  obtain ⟨frame, hframe⟩ := h
  exact ⟨frame, fun text hcloses => (hsame text).trans (hframe text hcloses)⟩

/-- What is computed before, without the fragment, is a part of the frame. -/
theorem verbatim_from {α : Type} (x : Except Failure α) {f : α → Value → Except Failure String}
    (h : ∀ a, x = .ok a → Verbatim (f a)) : Verbatim fun v => x >>= fun a => f a v := by
  cases x with
  | error e => exact ⟨.error e, fun _ _ => rfl⟩
  | ok a => exact h a rfl

end

section

variable {g : Grammar} {v : Value} {text : String}

theorem Grammar.Writes.wrapped (h : g.Writes .column v text) : g.wrapped v = .ok text := by
  rw [Grammar.wrapped, h.written.1]
  rfl

theorem Grammar.Writes.wrappedTable (h : g.Writes .table v text) : g.wrappedTable v = .ok text := by
  rw [Grammar.wrappedTable, h.written.1]
  rfl

theorem Grammar.Writes.display (h : g.Writes .value v text) :
    (Grammar.parameter v).display = text := by
  rw [show Grammar.parameter v = .text text from h.written]
  rfl

/-- A column that is no path is written without a look at the dialect. -/
theorem Grammar.Writes.nullSql (h : g.Writes .column v text) (negated : Bool) :
    g.nullSql v negated = g.plainNullSql v negated := by
  unfold Grammar.nullSql
  split
  · rename_i s _
    rw [if_neg (by rw [h.written.2 s rfl]; exact Bool.false_ne_true)]
  · rfl

end

section

variable (g : Grammar)

theorem Grammar.wrapped_gapped : Gapped False (g.Writes .column) g.wrapped :=
  gapped_between "" "" False.elim fun _ text h => by
    rw [h.wrapped, String.empty_append, String.append_empty]

theorem Grammar.wrappedTable_gapped : Gapped False (g.Writes .table) g.wrappedTable :=
  gapped_between "" "" False.elim fun _ text h => by
    rw [h.wrappedTable, String.empty_append, String.append_empty]

/-- A value between two texts. -/
theorem Grammar.parameter_gapped {k : String → String} (a b : String)
    (hk : ∀ text, k text = a ++ text ++ b) :
    Gapped False (g.Writes .value) fun v => pure (k (Grammar.parameter v).display) :=
  gapped_between a b False.elim fun _ text h => by
    rw [h.display, hk]
    rfl

/-- One of several columns. -/
theorem Grammar.columnize_gapped (before after : List Value) :
    Gapped False (g.Writes .column) fun v => g.columnize (before ++ v :: after) := by
  refine g.wrapped_gapped.texts (x := id) ?_ ", " before after
  intro v text h
  rw [h.wrapped]
  exact h.written.1

/-- One of several values. -/
theorem Grammar.parameterize_gapped (before after : List Value) :
    Gapped False (g.Writes .value) fun v => Grammar.parameterize (before ++ v :: after) := by
  have hvalue : Gapped False (g.Writes .value) fun v =>
      (pure (Grammar.parameter v).display : Except Failure String) :=
    g.parameter_gapped "" "" fun text => by rw [String.empty_append, String.append_empty]
  refine (hvalue.texts (F := fun v => pure (Grammar.parameter v)) (x := id) ?_ ", " before
    after).congr ?_
  · intro v text h
    rw [h.display]
    exact congrArg Except.ok h.written
  · intro v _ _
    rw [List.mapM_pure]
    rfl

end

/-! ## Conditions on rows -/

/-- A condition without one of its columns or values. -/
inductive ConditionGap where
  /-- The column that is compared with a value. -/
  | comparedColumn (operator : String) (value : Value)
  /-- The value that a column is compared with. -/
  | comparedValue (column : Value) (operator : String)
  /-- The column that is among values. -/
  | amongColumn (first : Value) (others : List Value) (negated : Bool)
  /-- One of the values that a column is among. -/
  | amongValue (column : Value) (before after : List Value) (negated : Bool)
  /-- The column that is among integers. -/
  | integersColumn (first : Int) (others : List Int) (negated : Bool)
  /-- The column that has no value. -/
  | nullColumn (negated : Bool)
  /-- The column that is between the first and the last of some values. -/
  | betweenColumn (values : List Value) (negated : Bool)
  /-- The first of the values. -/
  | lowValue (column : Value) (others : List Value) (high : Value) (negated : Bool)
  /-- The last of the values. -/
  | highValue (column low : Value) (others : List Value) (negated : Bool)
  /-- The column of dates. -/
  | dateColumn (part : DatePart) (operator : String) (value : Value)
  /-- The value that a part of a date is compared with. -/
  | dateValue (part : DatePart) (column : Value) (operator : String)
  /-- The first of two columns. -/
  | firstColumn (operator : String) (second : Value)
  /-- The second of two columns. -/
  | secondColumn (first : Value) (operator : String)
  /-- The column that is compared with the result of a query. -/
  | subColumn (operator : Value) (query : QueryId)
  /-- One of a row of columns. -/
  | rowColumn (before after : List Value) (operator : Value) (values : List Value)
  /-- One of a row of values. -/
  | rowValue (columns : List Value) (operator : Value) (before after : List Value)
  /-- The document that a JSON column contains. -/
  | documentValue (column : Value) (negated : Bool)
  /-- The number that the length of a JSON array is compared with. -/
  | lengthValue (column : Value) (operator : String)

namespace ConditionGap

/-- What the missing value stands for. -/
def role : ConditionGap → Role
  | comparedColumn .. | amongColumn .. | integersColumn .. | nullColumn _ | betweenColumn ..
  | dateColumn .. | firstColumn .. | secondColumn .. | subColumn .. | rowColumn .. => .column
  | comparedValue .. | amongValue .. | lowValue .. | highValue .. | dateValue .. | rowValue ..
  | documentValue .. | lengthValue .. => .value

/-- The condition with a value in the gap. -/
def fill (v : Value) : ConditionGap → Where
  | comparedColumn operator value => .basic v operator value
  | comparedValue column operator => .basic column operator v
  | amongColumn first others negated => .among v (first :: others) negated
  | amongValue column before after negated => .among column (before ++ v :: after) negated
  | integersColumn first others negated => .amongIntegers v (first :: others) negated
  | nullColumn negated => .null v negated
  | betweenColumn values negated => .between v values negated
  | lowValue column others high negated => .between column (v :: others ++ [high]) negated
  | highValue column low others negated => .between column (low :: others ++ [v]) negated
  | dateColumn part operator value => .datePart part v operator value
  | dateValue part column operator => .datePart part column operator v
  | firstColumn operator second => .columnPair v operator second
  | secondColumn first operator => .columnPair first operator v
  | subColumn operator query => .sub v operator query
  | rowColumn before after operator values => .rowValues (before ++ v :: after) operator values
  | rowValue columns operator before after => .rowValues columns operator (before ++ v :: after)
  | documentValue column negated => .jsonContains column v negated
  | lengthValue column operator => .jsonLength column operator v

end ConditionGap

section

variable (g : Grammar) (attached : Attached)

theorem Grammar.comparisonSql_column (operator : String) (value : Value) :
    Gapped False (g.Writes .column) fun v => g.comparisonSql v operator value :=
  g.wrapped_gapped.around "" (" " ++ operator ++ " " ++ (parameter value).display) False.elim
    fun text => by simp only [String.empty_append, String.append_assoc]

theorem Grammar.comparisonSql_value (column : Value) (operator : String) :
    Gapped False (g.Writes .value) fun v => g.comparisonSql column operator v :=
  gapped_from _ fun first _ =>
    g.parameter_gapped (first ++ " " ++ operator ++ " ") "" fun text => by rw [String.append_empty]

theorem Grammar.betweenSql_column (values : List Value) (negated : Bool) :
    Gapped False (g.Writes .column) fun v => g.betweenSql v values negated := by
  unfold betweenSql
  cases values.head? with
  | none => exact gapped_error _
  | some low =>
    cases values.getLast? with
    | none => exact gapped_error _
    | some high =>
      exact g.wrapped_gapped.around "" (" " ++ negatable negated "between" ++ " " ++
        (parameter low).display ++ " and " ++ (parameter high).display) False.elim
        fun text => by simp only [String.empty_append, String.append_assoc]

/-- A column between two values, of which one is written as the text. -/
theorem Grammar.betweenSql_value (column : Value) (negated : Bool) (ends : Value → List Value)
    {a b : String} (hends : ∀ v text, g.Writes .value v text → ∃ low high,
      (ends v).head? = some low ∧ (ends v).getLast? = some high ∧
      (parameter low).display ++ " and " ++ (parameter high).display = a ++ text ++ b) :
    Gapped False (g.Writes .value) fun v => g.betweenSql column (ends v) negated := by
  have hsplit : Gapped False (g.Writes .value) fun v => g.wrapped column >>= fun first =>
      pure (first ++ " " ++ negatable negated "between" ++ " " ++
        (a ++ (parameter v).display ++ b)) :=
    gapped_from _ fun first _ =>
      gapped_between (first ++ " " ++ negatable negated "between" ++ " " ++ a) b False.elim
        fun v text hv => by
          rw [hv.display]
          simp only [String.append_assoc]
          rfl
  refine hsplit.congr fun v text hv => ?_
  obtain ⟨low, high, hlow, hhigh, hboth⟩ := hends v text hv
  unfold betweenSql
  rw [hlow, hhigh, hv.display, ← hboth]
  simp only [String.append_assoc]

theorem Grammar.betweenSql_low (column : Value) (others : List Value) (high : Value)
    (negated : Bool) : Gapped False (g.Writes .value) fun v =>
      g.betweenSql column (v :: others ++ [high]) negated := by
  refine g.betweenSql_value (a := "") (b := " and " ++ (parameter high).display) column negated
    (fun v => v :: others ++ [high]) fun v text h => ⟨v, high, rfl, ?_, ?_⟩
  · exact List.getLast?_concat
  · rw [h.display]
    simp only [String.empty_append, String.append_assoc]

theorem Grammar.betweenSql_high (column low : Value) (others : List Value) (negated : Bool) :
    Gapped False (g.Writes .value) fun v =>
      g.betweenSql column (low :: others ++ [v]) negated := by
  refine g.betweenSql_value (a := (parameter low).display ++ " and ") (b := "") column negated
    (fun v => low :: others ++ [v]) fun v text h => ⟨low, v, rfl, ?_, ?_⟩
  · exact List.getLast?_concat
  · rw [h.display, String.append_empty]

theorem Grammar.plainNullSql_column (negated : Bool) :
    Gapped False (g.Writes .column) fun v => g.plainNullSql v negated :=
  g.wrapped_gapped.around "" (if negated then " is not null" else " is null") False.elim
    fun text => by rw [String.empty_append]

/-- A part of a date of a column. -/
theorem Grammar.datePartSql_column (part : DatePart) (operator : String) (value : Value) :
    Gapped False (g.Writes .column) fun v => g.datePartSql part v operator value := by
  refine g.wrapped_gapped.bind fun fr _ => ?_
  generalize (parameter value).display = shown
  -- A cast of the column, or a function of it.
  have hcast : ∀ cast : String, Gapped False (fun v text : String => v = text) fun v =>
      pure (fr.fill v ++ cast ++ operator ++ " " ++ shown) := fun cast =>
    fr.gapped "" (cast ++ operator ++ " " ++ shown) False.elim fun text => by
      simp only [String.empty_append, String.append_assoc]
  have hcall : ∀ head middle last : String,
      Gapped False (fun v text : String => v = text) fun v =>
        pure (head ++ fr.fill v ++ ") " ++ operator ++ middle ++ shown ++ last) :=
    fun head middle last =>
      fr.gapped head (") " ++ operator ++ middle ++ shown ++ last) False.elim fun text => by
        simp only [String.append_assoc]
  have hplain : ∀ head : String, Gapped False (fun v text : String => v = text) fun v =>
      pure (head ++ fr.fill v ++ ") " ++ operator ++ " " ++ shown) := fun head =>
    (hcall head " " "").congr fun v _ _ => by rw [String.append_empty]
  cases g.dialect with
  | postgres =>
    cases part with
    | date => exact hcast "::date "
    | time => exact hcast "::time "
    | day => exact hplain ("extract(" ++ DatePart.day.name ++ " from ")
    | month => exact hplain ("extract(" ++ DatePart.month.name ++ " from ")
    | year => exact hplain ("extract(" ++ DatePart.year.name ++ " from ")
  | sqlite => exact hcall ("strftime('" ++ part.pattern ++ "', ") " cast(" " as text)"
  | _ => exact hplain (part.name ++ "(")

/-- A value that a part of a date is compared with. -/
theorem Grammar.datePartSql_value (part : DatePart) (column : Value) (operator : String) :
    Gapped False (g.Writes .value) fun v => g.datePartSql part column operator v := by
  refine gapped_from _ fun first _ => ?_
  have hlast : ∀ front : String, Gapped False (g.Writes .value) fun v =>
      (pure (front ++ operator ++ " " ++ (parameter v).display) : Except Failure String) :=
    fun front => g.parameter_gapped (front ++ operator ++ " ") "" fun text => by
      rw [String.append_empty]
  cases g.dialect with
  | postgres =>
    cases part with
    | date => exact hlast (first ++ "::date ")
    | time => exact hlast (first ++ "::time ")
    | day => exact hlast ("extract(" ++ DatePart.day.name ++ " from " ++ first ++ ") ")
    | month => exact hlast ("extract(" ++ DatePart.month.name ++ " from " ++ first ++ ") ")
    | year => exact hlast ("extract(" ++ DatePart.year.name ++ " from " ++ first ++ ") ")
  | sqlite =>
    exact g.parameter_gapped
      ("strftime('" ++ part.pattern ++ "', " ++ first ++ ") " ++ operator ++ " cast(") " as text)"
      fun text => rfl
  | _ => exact hlast (part.name ++ "(" ++ first ++ ") ")

/-- A document that a JSON column contains. -/
theorem Grammar.jsonContainsSql_value (oracle : Oracle) (column : Value) :
    Gapped False (g.Writes .value) fun v => g.jsonContainsSql oracle column (parameter v) := by
  unfold jsonContainsSql
  cases g.dialect with
  | mysql =>
    refine gapped_from _ fun ⟨field, path⟩ _ => ?_
    exact gapped_between ("json_contains(" ++ field.display ++ ", ") (path ++ ")") False.elim
      fun v text hv => by
        rw [hv.display]
        simp only [String.append_assoc]
        rfl
  | postgres =>
    exact gapped_from _ fun name _ => gapped_from _ fun column _ =>
      g.parameter_gapped ("(" ++ column ++ ")::jsonb @> ") "" fun text => by
        rw [String.append_empty]
  | ansi => exact gapped_error _
  | sqlite => exact gapped_error _

/-- A number that the length of a JSON array is compared with. -/
theorem Grammar.jsonLengthSql_value (oracle : Oracle) (column : Value) (operator : String) :
    Gapped False (g.Writes .value) fun v =>
      g.jsonLengthSql oracle column operator (parameter v) := by
  have hlast : ∀ front : String, Gapped False (g.Writes .value) fun v =>
      (pure (front ++ (parameter v).display) : Except Failure String) :=
    fun front => g.parameter_gapped front "" fun text => by rw [String.append_empty]
  unfold jsonLengthSql
  cases g.dialect with
  | ansi => exact gapped_error _
  | mysql =>
    exact gapped_from _ fun ⟨field, path⟩ _ =>
      hlast ("json_length(" ++ field.display ++ path ++ ") " ++ operator ++ " ")
  | postgres =>
    exact gapped_from _ fun name _ => gapped_from _ fun column _ =>
      hlast ("json_array_length((" ++ column ++ ")::json) " ++ operator ++ " ")
  | sqlite =>
    exact gapped_from _ fun ⟨field, path⟩ _ =>
      hlast ("json_array_length(" ++ field.display ++ path ++ ") " ++ operator ++ " ")

/-- A condition has the column or the value in one place. -/
theorem Grammar.whereSql_gapped (gap : ConditionGap) :
    Gapped False (g.Writes gap.role) fun v => g.whereSql attached (gap.fill v) := by
  have hamong : ∀ (values : Except Failure String) (negated : Bool),
      Gapped False (g.Writes .column) fun v => g.amongSql v values false negated :=
    fun values negated => g.wrapped_gapped.bind fun fr _ => gapped_from values fun listed _ =>
      fr.gapped "" (" " ++ negatable negated "in" ++ " (" ++ listed ++ ")") False.elim
        fun text => by simp only [String.empty_append, String.append_assoc]
  cases gap with
  | comparedColumn operator value =>
    show Gapped _ _ fun v => g.basicSql v operator value
    unfold basicSql
    split
    · exact g.wrapped_gapped.around "" ("::text " ++ operator ++ " " ++ (parameter value).display)
        False.elim fun text => by simp only [String.empty_append, String.append_assoc]
    · exact g.comparisonSql_column operator value
  | comparedValue column operator =>
    show Gapped _ _ fun v => g.basicSql column operator v
    unfold basicSql
    split
    · exact gapped_from _ fun first _ =>
        g.parameter_gapped (first ++ "::text " ++ operator ++ " ") "" fun text => by
          rw [String.append_empty]
    · exact g.comparisonSql_value column operator
  | amongColumn first others negated => exact hamong (parameterize (first :: others)) negated
  | amongValue column before after negated =>
    have hlisted : Gapped False (g.Writes .value) fun v => g.wrapped column >>= fun first =>
        parameterize (before ++ v :: after) >>= fun listed =>
          pure (first ++ " " ++ negatable negated "in" ++ " (" ++ listed ++ ")") :=
      gapped_from _ fun first _ => (g.parameterize_gapped before after).around
        (first ++ " " ++ negatable negated "in" ++ " (") ")" False.elim fun text => rfl
    refine hlisted.congr fun v _ _ => ?_
    have hsome : (before ++ v :: after).isEmpty = false := by cases before <;> rfl
    show g.amongSql column _ (before ++ v :: after).isEmpty negated = _
    rw [hsome]
    rfl
  | integersColumn first others negated =>
    exact gapped_from (integersSql (first :: others)) fun integers _ =>
      hamong (.ok integers) negated
  | nullColumn negated =>
    exact (g.plainNullSql_column negated).congr fun v text h => h.nullSql negated
  | betweenColumn values negated => exact g.betweenSql_column values negated
  | lowValue column others high negated => exact g.betweenSql_low column others high negated
  | highValue column low others negated => exact g.betweenSql_high column low others negated
  | dateColumn part operator value => exact g.datePartSql_column part operator value
  | dateValue part column operator => exact g.datePartSql_value part column operator
  | firstColumn operator second =>
    exact g.wrapped_gapped.bind fun fr _ => gapped_from (g.wrapped second) fun second _ =>
      fr.gapped "" (" " ++ operator ++ " " ++ second) False.elim fun text => by
        simp only [String.empty_append, String.append_assoc]
  | secondColumn first operator =>
    exact gapped_from _ fun first _ =>
      g.wrapped_gapped.around (first ++ " " ++ operator ++ " ") "" False.elim fun text => by
        rw [String.append_empty]
  | subColumn operator query =>
    exact gapped_from _ fun select _ => g.wrapped_gapped.around ""
      (" " ++ operator.display ++ " (" ++ select ++ ")") False.elim fun text => by
        simp only [String.empty_append, String.append_assoc]
  | rowColumn before after operator values =>
    exact (g.columnize_gapped before after).bind fun fr _ => gapped_from (parameterize values)
      fun listed _ => fr.gapped "(" (") " ++ operator.display ++ " (" ++ listed ++ ")") False.elim
        fun text => by simp only [String.append_assoc]
  | rowValue columns operator before after =>
    exact gapped_from _ fun listed _ => (g.parameterize_gapped before after).around
      ("(" ++ listed ++ ") " ++ operator.display ++ " (") ")" False.elim fun text => rfl
  | documentValue column negated =>
    exact (g.jsonContainsSql_value attached.oracle column).around
      (if negated then "not " else "") "" False.elim fun text => by rw [String.append_empty]
  | lengthValue column operator => exact g.jsonLengthSql_value attached.oracle column operator

/-- One of several conditions. -/
theorem Grammar.conditionsSql_gapped (before after : List Condition) (boolean : Value)
    (gap : ConditionGap) : Gapped False (g.Writes gap.role) fun v =>
      g.conditionsSql attached (before ++ ⟨boolean, gap.fill v⟩ :: after) :=
  Gapped.conjoined (fun c : Condition => c.boolean.display)
    (F := fun c => g.whereSql attached c.body) (x := fun v => ⟨boolean, gap.fill v⟩)
    (w := boolean.display) (fun _ => rfl) (g.whereSql_gapped attached gap) before after

theorem Query.keyword_visible (q : Query) : Visible q.keyword := by
  unfold Query.keyword
  split
  · exact ⟨'o', by decide, by decide⟩
  · exact ⟨'w', by decide, by decide⟩

/-- The conditions of a query stand behind their keyword. -/
theorem Grammar.wheresSql_gapped (q : Query) (before after : List Condition) (boolean : Value)
    (gap : ConditionGap) : Gapped True (g.Writes gap.role) fun v =>
      g.wheresSql attached { q with wheres := before ++ ⟨boolean, gap.fill v⟩ :: after } := by
  refine ((g.conditionsSql_gapped attached before after boolean gap).around (q.keyword ++ " ") ""
    (fun _ => .inl (q.keyword_visible.append _)) fun text => by rw [String.append_empty]).congr
      fun v _ _ => ?_
  have hsome : (before ++ (⟨boolean, gap.fill v⟩ : Condition) :: after).isEmpty = false := by
    cases before <;> rfl
  unfold wheresSql
  rw [hsome]
  rfl

end

/-! ## Conditions on groups -/

/-- A condition on groups without one of its columns or values. -/
inductive GroupGap where
  /-- The column that is compared with a value. -/
  | comparedColumn (operator : String) (value : Value)
  /-- The value that a column is compared with. -/
  | comparedValue (column : Value) (operator : String)
  /-- The column that is between the first and the last of some values. -/
  | betweenColumn (values : List Value) (negated : Bool)
  /-- The first of the values. -/
  | lowValue (column : Value) (others : List Value) (high : Value) (negated : Bool)
  /-- The last of the values. -/
  | highValue (column low : Value) (others : List Value) (negated : Bool)
  /-- The column that has no value. -/
  | nullColumn (negated : Bool)

namespace GroupGap

/-- What the missing value stands for. -/
def role : GroupGap → Role
  | comparedColumn .. | betweenColumn .. | nullColumn _ => .column
  | comparedValue .. | lowValue .. | highValue .. => .value

/-- The condition with a value in the gap. -/
def fill (v : Value) : GroupGap → Having
  | comparedColumn operator value => .basic v operator value
  | comparedValue column operator => .basic column operator v
  | betweenColumn values negated => .between v values negated
  | lowValue column others high negated => .between column (v :: others ++ [high]) negated
  | highValue column low others negated => .between column (low :: others ++ [v]) negated
  | nullColumn negated => .null v negated

end GroupGap

section

variable (g : Grammar)

/-- A condition on groups has the column or the value in one place. -/
theorem Grammar.havingSql_gapped (gap : GroupGap) :
    Gapped False (g.Writes gap.role) fun v => g.havingSql (gap.fill v) := by
  cases gap with
  | comparedColumn operator value => exact g.comparisonSql_column operator value
  | comparedValue column operator => exact g.comparisonSql_value column operator
  | betweenColumn values negated => exact g.betweenSql_column values negated
  | lowValue column others high negated => exact g.betweenSql_low column others high negated
  | highValue column low others negated => exact g.betweenSql_high column low others negated
  | nullColumn negated => exact g.plainNullSql_column negated

/-- The conditions on groups stand behind their keyword. -/
theorem Grammar.havingsSql_gapped (before after : List GroupCondition) (boolean : Value)
    (gap : GroupGap) : Gapped True (g.Writes gap.role) fun v =>
      g.havingsSql (before ++ ⟨boolean, gap.fill v⟩ :: after) := by
  have hconditions := Gapped.conjoined (fun c : GroupCondition => c.boolean.display)
    (F := fun c => g.havingSql c.body) (x := fun v => ⟨boolean, gap.fill v⟩)
    (w := boolean.display) (fun _ => rfl) (g.havingSql_gapped gap) before after
  have hkeyword : Visible "having " := ⟨'h', by decide, by decide⟩
  refine (hconditions.around "having " "" (fun _ => .inl hkeyword) fun text => by
    rw [String.append_empty]).congr fun v _ _ => ?_
  unfold havingsSql
  simp only [bind_assoc, pure_bind]

/-! ## Lists of columns -/

theorem Grammar.columnsSql_gapped (distinct : Bool) (before after : List Value) :
    Gapped True (g.Writes .column) fun v => g.columnsSql distinct (before ++ v :: after) := by
  refine (g.columnize_gapped before after).around
    (if distinct then "select distinct " else "select ") "" (fun _ => .inl ?_)
    fun text => by rw [String.append_empty]
  split
  · exact ⟨'s', by decide, by decide⟩
  · exact ⟨'s', by decide, by decide⟩

theorem Grammar.groupsSql_gapped (before after : List Value) :
    Gapped True (g.Writes .column) fun v =>
      (g.columnize (before ++ v :: after)).map ("group by " ++ ·) :=
  (g.columnize_gapped before after).map "group by " ""
    (fun _ => .inl ⟨'g', by decide, by decide⟩) fun text => by rw [String.append_empty]

/-- The text of an ordering. -/
def Grammar.orderText (g : Grammar) : Order → Except Failure Value
  | .raw sql => .ok sql
  | .byColumn column direction => do
    return .text ((← g.wrapped column) ++ " " ++ direction.word)

/-- One of several orderings. -/
theorem Grammar.ordersSql_gapped (before after : List Order) (direction : Direction) :
    Gapped True (g.Writes .column) fun v =>
      g.ordersSql (before ++ .byColumn v direction :: after) := by
  have hone : Gapped False (g.Writes .column) fun v => g.wrapped v >>= fun text =>
      pure (text ++ " " ++ direction.word) :=
    g.wrapped_gapped.around "" (" " ++ direction.word) False.elim fun text => by
      simp only [String.empty_append, String.append_assoc]
  have hall := hone.texts (F := g.orderText) (x := fun v => .byColumn v direction)
    (fun v _ _ => by
      show (g.wrapped v >>= _) = _
      cases g.wrapped v <;> rfl) ", " before after
  refine (hall.around "order by " "" (fun _ => .inl ⟨'o', by decide, by decide⟩) fun text => by
    rw [String.append_empty]).congr fun v _ _ => ?_
  unfold ordersSql
  simp only [bind_assoc]
  rfl

end

end FluentSql
