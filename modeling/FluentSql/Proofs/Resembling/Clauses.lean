import FluentSql.Proofs.Asking
import FluentSql.Proofs.Renaming

/-!
# Clauses in which objects are replaced

A clause in which other objects of the same kinds take the place of its own has
the same text: the text of an object shows no more than its kind.

* `Handle.Faithful` says that every object is replaced by one that is shown in
  the same way, and `Renaming.Faithful` that bindings are replaced by bindings.
* `Value.display_substitute` is the text of a value.
* `Renaming.Faithful.wrapped`, `columnize` and `parameterize` are columns,
  tables and values in SQL.
* `Renaming.Faithful.basicSql` and the lemmas after it are the clauses to which
  no query is attached.
-/

namespace FluentSql

/-! ## Texts of values -/

/-- Every object is replaced by one that is shown in the same way. -/
def Handle.Faithful (f : Handle → Value) : Prop :=
  ∀ h, ∃ h', f h = .object h' ∧ h'.display = h.display

namespace Value

theorem literals_append (vs ws : List Value) : literals (vs ++ ws) = literals vs ++ literals ws := by
  induction vs with
  | nil => rfl
  | cons v vs ih => rw [List.cons_append, literals, literals, ih, List.cons_append]

/-- The literal of a tuple is made of those of its elements. -/
theorem literal_tuple_congr : ∀ {vs ws : List Value}, literals vs = literals ws →
    literal (tuple vs) = literal (tuple ws)
  | [], [], _ => rfl
  | [_], [_], h => by
    simp only [literals, List.cons.injEq, and_true] at h
    simp only [literal, h]
  | _ :: _ :: _, _ :: _ :: _, h => by
    simp only [literal]
    rw [h]
  | [], _ :: _, h => nomatch h
  | _ :: _, [], h => nomatch h
  | [_], _ :: _ :: _, h => nomatch (List.cons.inj h).2
  | _ :: _ :: _, [_], h => nomatch (List.cons.inj h).2

variable {f : Handle → Value}

mutual

theorem literal_substitute (hf : Handle.Faithful f) (v : Value) :
    (v.substitute f).literal = v.literal := by
  cases v with
  | list items =>
    simp only [substitute, literal]
    rw [literals_substitute hf items]
  | tuple items => exact literal_tuple_congr (literals_substitute hf items)
  | map entries =>
    simp only [substitute, literal]
    rw [entryLiterals_substitute hf entries]
  | raw value =>
    simp only [substitute, literal]
    rw [literal_substitute hf value]
  | object handle =>
    obtain ⟨handle', hhandle, hdisplay⟩ := hf handle
    simp only [substitute, hhandle, literal, hdisplay]
  | _ => rfl

theorem literals_substitute (hf : Handle.Faithful f) (vs : List Value) :
    literals (substituteAll f vs) = literals vs := by
  cases vs with
  | nil => rfl
  | cons v vs =>
    rw [substituteAll, literals, literals, literal_substitute hf v, literals_substitute hf vs]

theorem entryLiterals_substitute (hf : Handle.Faithful f) (entries : List (Value × Value)) :
    entryLiterals (substituteEntries f entries) = entryLiterals entries := by
  cases entries with
  | nil => rfl
  | cons entry entries =>
    rw [substituteEntries, entryLiterals, entryLiterals, literal_substitute hf entry.1,
      literal_substitute hf entry.2, entryLiterals_substitute hf entries]

end

theorem display_substitute (hf : Handle.Faithful f) (v : Value) :
    (v.substitute f).display = v.display := by
  cases v with
  | raw value => exact display_substitute hf value
  | list items => exact literal_substitute hf (.list items)
  | tuple items => exact literal_substitute hf (.tuple items)
  | map entries => exact literal_substitute hf (.map entries)
  | object handle =>
    obtain ⟨handle', hhandle, hdisplay⟩ := hf handle
    show (f handle).display = handle.display
    rw [hhandle]
    exact hdisplay
  | _ => rfl

end Value

/-- Bindings are replaced by bindings, so every object is replaced by one of its kind. -/
def Renaming.Faithful (r : Renaming) : Prop :=
  ∀ id, ∃ other, r.bindings id = .object (.bindings other)

namespace Renaming.Faithful

variable {r : Renaming} (hr : r.Faithful) {g : Grammar}

include hr

theorem handle : Handle.Faithful r.handle := by
  intro h
  cases h with
  | bindings id =>
    obtain ⟨other, hother⟩ := hr id
    exact ⟨.bindings other, hother, rfl⟩
  | _ => exact ⟨_, rfl, rfl⟩

@[simp] theorem display (v : Value) : (r.value v).display = v.display :=
  Value.display_substitute hr.handle v

/-- A value of each kind is replaced by one of its kind. -/
theorem object (h : Handle) : ∃ h', r.value (.object h) = .object h' :=
  let ⟨h', hh, _⟩ := hr.handle h
  ⟨h', hh⟩

theorem asText (v : Value) : (r.value v).asText = v.asText := by
  cases v with
  | object h =>
    obtain ⟨h', hh⟩ := hr.object h
    rw [hh]
    rfl
  | _ => rfl

theorem truthy (v : Value) : (r.value v).truthy = v.truthy := by
  cases v with
  | object h =>
    obtain ⟨h', hh⟩ := hr.object h
    rw [hh]
    rfl
  | list items => cases items <;> rfl
  | tuple items => cases items <;> rfl
  | map entries => cases entries <;> rfl
  | _ => rfl

theorem isPresent (v : Value) : (r.value v).isPresent = v.isPresent := by
  cases v with
  | object h =>
    obtain ⟨h', hh⟩ := hr.object h
    rw [hh]
    rfl
  | list items => cases items <;> rfl
  | _ => rfl

/-- A value that is no text is replaced by one that is none. -/
theorem ne_text {v : Value} (h : ∀ s, v ≠ .text s) (s : String) : r.value v ≠ .text s := by
  intro hs
  have htext := hr.asText v
  rw [hs] at htext
  cases v with
  | text t => exact h t rfl
  | _ => exact nomatch htext

omit hr in
/-- What is computed one by one from clauses in which objects are replaced. -/
theorem mapM_values {α : Type} {f : α → Except Failure Value} {rename : α → α}
    (h : ∀ x, f (rename x) = (f x).map r.value) (xs : List α) :
    (xs.map rename).mapM f = (xs.mapM f).map (·.map r.value) := by
  induction xs with
  | nil => rfl
  | cons x xs ih =>
    rw [List.map_cons, List.mapM_cons, List.mapM_cons, ih, h]
    cases f x with
    | error e => rfl
    | ok w => cases xs.mapM f <;> rfl

theorem joinTexts (separator : String) (vs : List Value) :
    FluentSql.joinTexts separator (vs.map r.value) = FluentSql.joinTexts separator vs := by
  have htexts : (vs.map r.value).mapM Value.asText = vs.mapM Value.asText := by
    induction vs with
    | nil => rfl
    | cons v vs ih => rw [List.map_cons, List.mapM_cons, List.mapM_cons, ih, hr.asText]
  unfold FluentSql.joinTexts
  rw [htexts]

/-! ## Columns and tables -/

theorem isRaw (v : Value) : (r.value v).isRaw = v.isRaw := by
  cases v with
  | object h =>
    obtain ⟨h', hh⟩ := hr.object h
    rw [hh]
    rfl
  | _ => rfl

private theorem plus_display (p v : Value) :
    (p.plus (r.value v)).map Value.display = (p.plus v).map Value.display := by
  cases v with
  | list items =>
    cases p with
    | list ps =>
      refine congrArg Except.ok ?_
      show Value.literal (.list (ps ++ Value.substituteAll r.handle items)) =
        Value.literal (.list (ps ++ items))
      simp only [Value.literal, Value.literals_append, Value.literals_substitute hr.handle]
    | _ => rfl
  | tuple items =>
    cases p with
    | tuple ps =>
      refine congrArg Except.ok (Value.literal_tuple_congr ?_)
      simp only [Value.literals_append, Value.literals_substitute hr.handle]
    | _ => rfl
  | map entries => cases p <;> rfl
  | raw value => cases p <;> rfl
  | object h =>
    obtain ⟨h', hh⟩ := hr.object h
    rw [hh]
    cases p <;> rfl
  | _ => rfl

omit hr in
private theorem isRaw_plus {p v w : Value} (h : p.plus v = .ok w) : w.isRaw = false := by
  have harithmetic : ∀ {x y : Numeric} {i : Int → Int → Int} {d},
      Value.arithmetic i d x y = .ok w → w.isRaw = false := by
    intro x y i d h
    unfold Value.arithmetic at h
    split at h
    · cases h
      rfl
    · obtain ⟨_, _, h⟩ := Name.bind_eq_ok h
      obtain ⟨_, _, h⟩ := Name.bind_eq_ok h
      cases h
      rfl
  unfold Value.plus at h
  split at h
  · cases h; rfl
  · cases h; rfl
  · cases h; rfl
  · cases h; rfl
  · split at h
    · exact harithmetic h
    · exact nomatch h

omit hr in
private theorem wrapAs_eq (g : Grammar) (aliasToo : Bool) {v : Value} (h : v.isRaw = false) :
    g.wrapAs aliasToo v = (g.wrapText aliasToo v.display).map .text := by
  cases v with
  | raw w => exact nomatch h
  | _ => rfl

omit hr in
private theorem wrapTable_eq (g : Grammar) {v : Value} (h : v.isRaw = false) :
    g.wrapTable v = ((g.tablePrefix.plus v).map Value.display >>= fun s =>
      (g.wrapText true s).map .text) := by
  have hplus : g.wrapTable v = (g.tablePrefix.plus v >>= g.wrapAs true) := by
    cases v with
    | raw w => exact nomatch h
    | _ => rfl
  rw [hplus]
  cases hsum : g.tablePrefix.plus v with
  | error e => rfl
  | ok w => exact wrapAs_eq g true (isRaw_plus hsum)

omit hr in
private theorem map_text (x : Except Failure String) :
    (x.map Value.text).map r.value = x.map .text := by
  cases x <;> rfl

theorem wrap (g : Grammar) (v : Value) : g.wrap (r.value v) = (g.wrap v).map r.value := by
  cases hv : v.isRaw with
  | true =>
    cases v with
    | raw w => rfl
    | _ => exact nomatch hv
  | false =>
    unfold Grammar.wrap
    rw [wrapAs_eq g _ hv, wrapAs_eq g _ ((hr.isRaw v).trans hv), hr.display, map_text]

theorem wrapTable (g : Grammar) (v : Value) :
    g.wrapTable (r.value v) = (g.wrapTable v).map r.value := by
  cases hv : v.isRaw with
  | true =>
    cases v with
    | raw w => rfl
    | _ => exact nomatch hv
  | false =>
    rw [wrapTable_eq g hv, wrapTable_eq g ((hr.isRaw v).trans hv), hr.plus_display]
    cases (g.tablePrefix.plus v).map Value.display with
    | error e => rfl
    | ok s => exact (map_text _).symm

private theorem map_display (x : Except Failure Value) :
    (x.map r.value).map Value.display = x.map Value.display := by
  cases x with
  | error e => rfl
  | ok v => exact congrArg Except.ok (hr.display v)

@[simp] theorem wrapped (g : Grammar) (v : Value) : g.wrapped (r.value v) = g.wrapped v := by
  unfold Grammar.wrapped
  rw [hr.wrap, hr.map_display]

@[simp] theorem wrappedTable (g : Grammar) (v : Value) :
    g.wrappedTable (r.value v) = g.wrappedTable v := by
  unfold Grammar.wrappedTable
  rw [hr.wrapTable, hr.map_display]

@[simp] theorem columnize (g : Grammar) (columns : List Value) :
    g.columnize (columns.map r.value) = g.columnize columns := by
  unfold Grammar.columnize
  rw [mapM_values (hr.wrap g)]
  cases columns.mapM g.wrap with
  | error e => rfl
  | ok ws => exact hr.joinTexts _ ws

/-! ## Values -/

theorem parameter (v : Value) :
    Grammar.parameter (r.value v) = r.value (Grammar.parameter v) := by
  cases v with
  | object h =>
    obtain ⟨h', hh⟩ := hr.object h
    rw [hh]
    rfl
  | _ => rfl

@[simp] theorem parameterize (vs : List Value) :
    Grammar.parameterize (vs.map r.value) = Grammar.parameterize vs := by
  have hparameters : (vs.map r.value).map Grammar.parameter =
      (vs.map Grammar.parameter).map r.value := by
    rw [List.map_map, List.map_map]
    exact List.map_congr_left fun v _ => hr.parameter v
  unfold Grammar.parameterize
  rw [hparameters, hr.joinTexts]

@[simp] theorem parameter_display (v : Value) :
    (Grammar.parameter (r.value v)).display = (Grammar.parameter v).display := by
  rw [hr.parameter, hr.display]

/-! ## Clauses -/

theorem comparisonSql (g : Grammar) (column : Value) (operator : String) (value : Value) :
    g.comparisonSql (r.value column) operator (r.value value) =
      g.comparisonSql column operator value := by
  simp only [Grammar.comparisonSql, hr.wrapped, hr.parameter_display]

theorem basicSql (g : Grammar) (column : Value) (operator : String) (value : Value) :
    g.basicSql (r.value column) operator (r.value value) = g.basicSql column operator value := by
  simp only [Grammar.basicSql, hr.comparisonSql, hr.wrapped, hr.parameter_display]

theorem amongSql (g : Grammar) (column : Value) (values : Except Failure String)
    (isEmpty negated : Bool) :
    g.amongSql (r.value column) values isEmpty negated = g.amongSql column values isEmpty negated := by
  simp only [Grammar.amongSql, hr.wrapped]

theorem plainNullSql (g : Grammar) (column : Value) (negated : Bool) :
    g.plainNullSql (r.value column) negated = g.plainNullSql column negated := by
  simp only [Grammar.plainNullSql, hr.wrapped]

theorem nullSql (g : Grammar) (column : Value) (negated : Bool) :
    g.nullSql (r.value column) negated = g.nullSql column negated := by
  have hplain : ∀ v : Value, (∀ s, v ≠ .text s) → g.nullSql v negated = g.plainNullSql v negated := by
    intro v hv
    unfold Grammar.nullSql
    split
    · exact absurd rfl (hv _)
    · rfl
  have hother : (∀ s, column ≠ .text s) → g.nullSql (r.value column) negated =
      g.nullSql column negated := by
    intro hcolumn
    rw [hplain column hcolumn, hplain (r.value column) (hr.ne_text hcolumn), hr.plainNullSql]
  cases column with
  | text s => rfl
  | _ => exact hother fun _ h => nomatch h

theorem betweenSql (g : Grammar) (column : Value) (values : List Value) (negated : Bool) :
    g.betweenSql (r.value column) (values.map r.value) negated =
      g.betweenSql column values negated := by
  unfold Grammar.betweenSql
  rw [List.head?_map, List.getLast?_map]
  cases values.head? with
  | none => rfl
  | some first =>
    cases values.getLast? with
    | none => rfl
    | some last => simp only [Option.map_some, hr.wrapped, hr.parameter_display]

theorem datePartSql (g : Grammar) (part : DatePart) (column : Value) (operator : String)
    (value : Value) : g.datePartSql part (r.value column) operator (r.value value) =
      g.datePartSql part column operator value := by
  simp only [Grammar.datePartSql, hr.wrapped, hr.parameter_display]

theorem havingSql (g : Grammar) (body : Having) :
    g.havingSql (body.rename r) = g.havingSql body := by
  cases body with
  | basic column operator value => exact hr.comparisonSql g column operator value
  | raw sql => exact congrArg Except.ok (hr.display sql)
  | between column values negated => exact hr.betweenSql g column values negated
  | null column negated => exact hr.plainNullSql g column negated

theorem havingsSql (g : Grammar) (conditions : List GroupCondition) :
    g.havingsSql (conditions.map fun c => ⟨r.value c.boolean, c.body.rename r⟩) =
      g.havingsSql conditions := by
  simp only [Grammar.havingsSql, List.mapM_map, Function.comp_def, hr.display, hr.havingSql]

theorem aggregateSql (g : Grammar) (distinct : Bool) (aggregate : Aggregate) :
    g.aggregateSql distinct ⟨r.value aggregate.function, aggregate.columns.map r.value⟩ =
      g.aggregateSql distinct aggregate := by
  simp only [Grammar.aggregateSql, hr.columnize, hr.display]

theorem columnsSql (g : Grammar) (distinct : Bool) (columns : List Value) :
    g.columnsSql distinct (columns.map r.value) = g.columnsSql distinct columns := by
  simp only [Grammar.columnsSql, hr.columnize]

theorem ordersSql (g : Grammar) (orders : List Order) :
    g.ordersSql (orders.map (Order.rename r)) = g.ordersSql orders := by
  have hfragments : ∀ {f : Order → Except Failure Value},
      (∀ order, f (order.rename r) = (f order).map r.value) →
      ((orders.map (Order.rename r)).mapM f >>= fun vs =>
          Except.map ("order by " ++ ·) (FluentSql.joinTexts ", " vs)) =
        (orders.mapM f >>= fun vs =>
          Except.map ("order by " ++ ·) (FluentSql.joinTexts ", " vs)) := by
    intro f hf
    rw [mapM_values hf]
    cases orders.mapM f with
    | error e => rfl
    | ok vs => exact congrArg (Except.map _) (hr.joinTexts _ vs)
  refine hfragments fun order => ?_
  cases order with
  | byColumn column direction =>
    simp only [Order.rename, hr.wrapped]
    cases g.wrapped column <;> rfl
  | raw sql => rfl

theorem sourceSql (g : Grammar) (source : Value) :
    g.sourceSql (r.value source) = g.sourceSql source := by
  unfold Grammar.sourceSql
  rw [hr.isPresent, hr.wrapTable]
  cases g.wrapTable source with
  | error e => rfl
  | ok v =>
    show (if _ then Grammar.textBefore "from " (r.value v) else _) =
      (if _ then Grammar.textBefore "from " v else _)
    simp only [Grammar.textBefore, hr.asText]

theorem selectList (g : Grammar) (q : Query) : g.selectList (q.rename r) = g.selectList q := by
  have hcolumns : (q.rename r).columns.getD [.text "*"] =
      (q.columns.getD [.text "*"]).map r.value := by
    show (q.columns.map (·.map r.value)).getD _ = _
    cases q.columns <;> rfl
  have haggregate : (q.rename r).aggregate.isSome = q.aggregate.isSome := Option.isSome_map
  unfold Grammar.selectList Grammar.ifAny
  dsimp only
  rw [hcolumns, List.isEmpty_map, haggregate, hr.columnsSql]
  rfl

theorem aggregateOf (g : Grammar) (q : Query) :
    (q.rename r).aggregate.elim (.ok "") (g.aggregateSql q.distinct) =
      q.aggregate.elim (.ok "") (g.aggregateSql q.distinct) := by
  show (q.aggregate.map _).elim _ _ = _
  cases q.aggregate with
  | none => rfl
  | some aggregate => exact hr.aggregateSql g q.distinct aggregate

omit hr in
private theorem lockSql_eq (g : Grammar) {lock : Value} (h : ∀ s, lock ≠ .text s) :
    g.lockSql lock = match g.dialect with
      | .sqlite | .ansi => ""
      | .mysql => if lock.truthy then "for update" else "lock in share mode"
      | .postgres => if lock.truthy then "for update" else "for share" := by
  unfold Grammar.lockSql
  cases lock with
  | text s => exact absurd rfl (h s)
  | _ => cases g.dialect <;> rfl

theorem lockSql (g : Grammar) (lock : Value) : g.lockSql (r.value lock) = g.lockSql lock := by
  have hother : (∀ s, lock ≠ .text s) → g.lockSql (r.value lock) = g.lockSql lock := by
    intro hlock
    rw [lockSql_eq g hlock, lockSql_eq g (hr.ne_text hlock), hr.truthy]
  cases lock with
  | text s => rfl
  | _ => exact hother fun _ h => nomatch h

end Renaming.Faithful

end FluentSql
