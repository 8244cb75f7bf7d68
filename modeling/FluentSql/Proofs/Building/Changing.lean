import FluentSql.Proofs.Alignment.Changing
import FluentSql.Proofs.Building.Call
import FluentSql.Proofs.Building.Copying

/-!
# Updates and deletes of noted queries

An update binds the assigned values and those of the query, a delete those of
the query alone.  A delete that is restricted to one id is that of a copy,
which has got one more condition.

* `Store.Noted.canCopy_inlined` says that a noted query can be copied, also
  with its values written in.
* `Grammar.updateBindings_eq` and `Grammar.deleteBindings_eq` are the bound
  values.
* `QueryId.toUpdateSql_aligned` and `QueryId.delete_aligned` are the two
  statements.
* `QueryId.ran_restrict` is the restriction to one id, and
  `Store.Noted.restrict` says that the copy is noted.
-/

namespace FluentSql

open Name

section

variable {g : Grammar} {p : String} {lit : Literals} {s s' : Store} {notes : QueryId → Notes}
variable {q : Query} {n : Notes} {t : QueryId} {run : Runner}

/-! ## Copies with values written in -/

theorem handles_inlinedAll {values : List Value} {vss : List (List Value)} :
    Value.handlesOfAll (List.zipWith (fun v vs => v.inlined lit vs) values vss) = [] := by
  refine Value.handlesOfAll_eq_nil.2 fun v hv => ?_
  obtain ⟨i, hi⟩ := List.getElem?_of_mem hv
  obtain ⟨w, vs, _, _, rfl⟩ := List.getElem?_zipWith_eq_some.1 hi
  rfl

theorem Value.handles_filled (v : Value) (vs : List Value) :
    (v.filled lit vs).handles ⊆ v.handles := by
  cases v with
  | raw w => exact fun x hx => nomatch hx
  | _ => exact List.Subset.refl _

/-- Filling the placeholders of some columns adds no references. -/
theorem handles_filledAll (columns : List Value) (vss : List (List Value)) :
    Value.handlesOfAll (List.zipWith (fun v vs => v.filled lit vs) columns vss) ⊆
      Value.handlesOfAll columns := by
  induction columns generalizing vss with
  | nil => exact List.Subset.refl _
  | cons v columns ih =>
    cases vss with
    | nil => exact List.nil_subset _
    | cons vs vss =>
      refine List.append_subset.2 ⟨?_, ?_⟩
      · exact List.subset_append_of_subset_left _ (v.handles_filled vs)
      · exact List.subset_append_of_subset_right _ (ih vss)

private theorem append_subset_append {α : Type} {a b c d : List α} (h : a ⊆ c) (h' : b ⊆ d) :
    a ++ b ⊆ c ++ d :=
  List.append_subset.2
    ⟨List.subset_append_of_subset_left _ h, List.subset_append_of_subset_right _ h'⟩

/-- What is written into clauses adds no references, if it adds none to one clause. -/
private theorem flatMap_zipWith_subset {α β γ : Type} (f : α → β → α) (handles : α → List γ)
    (hf : ∀ x note, handles (f x note) ⊆ handles x) (xs : List α) (notes : List β) :
    (List.zipWith f xs notes).flatMap handles ⊆ xs.flatMap handles := by
  induction xs generalizing notes with
  | nil => exact List.Subset.refl _
  | cons x xs ih =>
    cases notes with
    | nil => exact List.nil_subset _
    | cons note notes =>
      rw [List.zipWith_cons_cons, List.flatMap_cons, List.flatMap_cons]
      exact append_subset_append (hf x note) (ih notes)

theorem Where.handles_inlined (body : Where) (note : Note) :
    (body.inlined lit note).handles ⊆ body.handles := by
  cases body with
  | raw sql => exact List.nil_subset _
  | basic column operator value =>
    exact append_subset_append (column.handles_filled _) (List.nil_subset _)
  | among column values negated =>
    refine append_subset_append (List.Subset.refl _) ?_
    rw [handles_inlinedAll]
    exact List.nil_subset _
  | null column negated => exact column.handles_filled _
  | between column values negated =>
    refine append_subset_append (column.handles_filled _) ?_
    rw [handles_inlinedAll]
    exact List.nil_subset _
  | datePart part column operator value =>
    exact append_subset_append (column.handles_filled _) (List.nil_subset _)
  | sub column operator query =>
    refine append_subset_append (append_subset_append ?_ ?_) ?_
    · exact column.handles_filled _
    · exact List.Subset.refl _
    · exact List.Subset.refl _
  | rowValues columns operator values =>
    refine append_subset_append (List.Subset.refl _) ?_
    rw [handles_inlinedAll]
    exact List.nil_subset _
  | jsonContains column value negated =>
    exact append_subset_append (List.Subset.refl _) (List.nil_subset _)
  | jsonLength column operator value =>
    exact append_subset_append (List.Subset.refl _) (List.nil_subset _)
  | amongIntegers column values negated => exact List.Subset.refl _
  | columnPair first operator second => exact List.Subset.refl _
  | nested query => exact List.Subset.refl _
  | «exists» query negated => exact List.Subset.refl _

theorem Having.handles_inlined (body : Having) (note : Note) :
    (body.inlined lit note).handles ⊆ body.handles := by
  cases body with
  | raw sql => exact List.nil_subset _
  | basic column operator value =>
    exact append_subset_append (column.handles_filled _) (List.nil_subset _)
  | between column values negated =>
    refine append_subset_append (column.handles_filled _) ?_
    rw [handles_inlinedAll]
    exact List.nil_subset _
  | null column negated => exact column.handles_filled _

theorem Order.handles_inlined (order : Order) (vs : List Value) :
    (order.inlined lit vs).handles ⊆ order.handles := by
  cases order with
  | raw sql => exact List.nil_subset _
  | byColumn column direction => exact column.handles_filled _

/-- Writing its values into a query adds no references. -/
theorem Query.handles_inlined (q : Query) (n : Notes) : (q.inlined lit n).handles ⊆ q.handles := by
  have hkind : (q.inlined lit n).kind.handles ⊆ q.kind.handles := by
    unfold Query.inlined
    cases q.kind with
    | statement => exact List.Subset.refl _
    | join type table => exact append_subset_append (List.Subset.refl _) (table.handles_filled _)
  have hcolumns : Value.handlesOfAll ((q.inlined lit n).columns.getD []) ⊆
      Value.handlesOfAll (q.columns.getD []) := by
    unfold Query.inlined
    cases q.columns with
    | none => exact List.Subset.refl _
    | some columns => exact handles_filledAll columns n.columns
  have hwheres := flatMap_zipWith_subset
    (fun (c : Condition) (note : Note) => ⟨c.boolean, c.body.inlined lit note⟩)
    (fun c => c.boolean.handles ++ c.body.handles)
    (fun c note => append_subset_append (List.Subset.refl _) (c.body.handles_inlined note))
    q.wheres n.wheres
  have hhavings := flatMap_zipWith_subset
    (fun (c : GroupCondition) (note : Note) => ⟨c.boolean, c.body.inlined lit note⟩)
    (fun c => c.boolean.handles ++ c.body.handles)
    (fun c note => append_subset_append (List.Subset.refl _) (c.body.handles_inlined note))
    q.havings n.havings
  have horders := flatMap_zipWith_subset (fun (order : Order) vs => order.inlined lit vs)
    Order.handles fun order vs => order.handles_inlined vs
  unfold Query.handles
  refine append_subset_append (append_subset_append (append_subset_append (append_subset_append
    (append_subset_append (append_subset_append (append_subset_append (append_subset_append
    (append_subset_append (append_subset_append (append_subset_append (append_subset_append
    (append_subset_append (append_subset_append hkind ?_) ?_) ?_) ?_) hcolumns) ?_) ?_) hwheres)
    (handles_filledAll _ _)) hhavings) (horders _ _)) ?_) (horders _ _)) ?_
  · exact List.Subset.refl _
  · exact List.Subset.refl _
  · exact List.nil_subset _
  · exact List.Subset.refl _
  · exact q.source.handles_filled _
  · exact List.Subset.refl _
  · exact List.Subset.refl _
  · exact List.Subset.refl _

/-- All that is reachable from a noted query with its values written in can be copied. -/
theorem Store.Noted.canCopy_inlined (hs : s.Noted g notes) (ht : s.Stands notes t) :
    (s.inlined lit notes).canCopy ((s.query t).inlined lit (notes t)) = true := by
  let P : Handle → Prop
    | .query id => s.Stands notes id
    | .grammar _ | .connection _ => True
    | _ => False
  have hquery : ∀ id, s.Stands notes id → ∀ x ∈ ((s.query id).inlined lit (notes id)).handles,
      P x := by
    intro id hid x hx
    rcases (hs.queries id hid).mem_handles (Query.handles_inlined _ _ hx) with
      ⟨a, ha, rfl⟩ | ⟨a, rfl⟩ | ⟨a, rfl⟩
    · exact ((hs.queries id hid).attached a ha).1
    · exact trivial
    · exact trivial
  have hstep : ∀ x, P x → ∀ y ∈ (s.inlined lit notes).handlesOf x, P y := by
    intro x hx y hy
    cases x with
    | query id =>
      rw [Store.handlesOf, Store.inlined_query lit hx.1] at hy
      exact hquery id hx y hy
    | connection id =>
      obtain ⟨gid, hgid⟩ := hs.connections id
      rw [Store.handlesOf] at hy
      have hgrammar : ((s.inlined lit notes).connection id).grammar = .grammar gid := hgid
      rw [hgrammar, List.mem_singleton] at hy
      rw [hy]
      exact trivial
    | grammar id => cases hy
    | _ => exact hx.elim
  unfold Store.canCopy
  refine decide_eq_true fun hin => ?_
  have hown : ∀ x ∈ ((s.query t).inlined lit (notes t)).handles.filter
      (· ∉ Store.sharedBy ((s.query t).inlined lit (notes t))), P x := fun x hx =>
    hquery t ht x (List.mem_filter.1 hx).1
  have hshared : ∀ x ∈ Store.sharedBy ((s.query t).inlined lit (notes t)), P x := by
    intro x hx
    refine hquery t ht x ?_
    unfold Query.handles
    simp only [List.mem_append]
    rcases List.mem_append.1 hx with hx | hx
    · simp only [hx, true_or, or_true]
    · simp only [hx, true_or, or_true]
  exact Store.reachFrom_forall hstep
    (fun x hx => (List.mem_append.1 hx).elim (hshared x) (hown x)) hown _ hin

/-! ## Bound values -/

theorem Value.sameKey_text (a b : String) : (Value.text a).sameKey (.text b) = (a == b) := by
  have hnan : (Value.text a).isSameNaN (.text b) = false := by simp only [isSameNaN]
  have hkeyed : (Value.text a).keyed (.text b) = true := by simp only [keyed]
  rw [sameKey, hnan, hkeyed, Bool.or_false, Bool.and_true]
  rfl

/-- The values of a group stand under its name. -/
theorem lookupKey_group (b : Bindings) (group : BindingGroup) :
    lookupKey (.text group.name) b.toEntries = some (.list (b.get group)) := by
  have hname : ∀ other : BindingGroup, (group.name == other.name) = decide (other = group) := by
    intro other
    cases group <;> cases other <;> rfl
  unfold lookupKey Bindings.toEntries
  rw [List.find?_map]
  simp only [Function.comp_def, Value.sameKey_text, hname]
  cases group <;> rfl

namespace Grammar

theorem deleteBindings_eq (oracle : Oracle) (b : Bindings) :
    deleteBindings oracle (.map b.toEntries) = .ok (deleteValues b) := rfl

theorem updateBindings_eq (oracle : Oracle) (b : Bindings) (entries : List (Value × Value)) :
    g.updateBindings oracle (.map b.toEntries) (.map entries) =
      .ok (g.updateValues b (assignedValues entries)) := by
  have hrest : bindingsBut ["select", "join"] b.toEntries =
      .ok (b.flattenGroups ((BindingGroup.all.erase .select).erase .join)) := rfl
  have hjoin : (Value.map b.toEntries).subscript (.text "join") = .ok (.list b.join) := by
    show (lookupKey (.text BindingGroup.join.name) b.toEntries).elim _ Except.ok = _
    rw [lookupKey_group]
    rfl
  unfold updateBindings updateValues
  rw [← boundValues_eq]
  split
  · rfl
  · show (do
      let rest ← bindingsBut ["select", "join"] b.toEntries
      let joins ← (← (Value.map b.toEntries).subscript (.text "join")).items
      return joins ++ boundValues (entries.map Prod.snd) ++ rest) = _
    rw [hrest, hjoin]
    rfl

end Grammar

/-- The values of a query in the order of one of its statements. -/
theorem ran_arrange {method : String}
    (hgrammar : s.grammarFor (s.query t).grammar method = .ok g)
    {f : Grammar → Oracle → Value → Except Failure (List Value)} {vs ws : List Value}
    (hf : ∀ oracle, f g oracle (.map (s.query t).bindings.toEntries) = .ok ws) :
    Ran (t.arrange run method f) s vs s' ↔ vs = ws ∧ s' = s := by
  have hok : ∀ known, (do
      let query := s.query t
      let g ← s.grammarFor query.grammar method
      f g (s.oracle known) (.map query.bindings.toEntries)) = .ok ws := by
    intro known
    show (s.grammarFor (s.query t).grammar method >>= fun g =>
      f g (s.oracle known) (.map (s.query t).bindings.toEntries)) = _
    rw [hgrammar]
    exact hf _
  refine (ran_consult ?_).trans (and_congr_left' ?_)
  · rw [hok]
    exact asksNothing_ok ws
  · rw [hok, Except.ok.injEq]
    exact eq_comm

/-! ## Statements -/

/-- The placeholders of a text that was compiled for a query stand for some values, if a compilation
with the values written in is known for every way of writing them. -/
def Store.FitsBy (g : Grammar) (s : Store) (t : QueryId)
    (compiled : Literals → Store → Except Failure String) (sql : String) (vs : List Value) : Prop :=
  ∃ notes, s.Noted g notes ∧ s.Stands notes t ∧
    ∀ lit, ∃ u, compiled lit (s.inlined lit notes) = .ok u ∧ Fills lit sql vs u

/-- What follows a query and is read is no fragment. -/
private theorem parameter_shown (s : Store) {v : Value} (h : ∀ w, v = .raw w → w.handles = []) :
    Grammar.parameter (s.shown v) = Grammar.parameter v := by
  cases v with
  | raw w => rw [s.shown_data (v := .raw w) (h w rfl)]
  | object handle =>
    have hshown : (s.shown (.object handle)).isRaw = false := by
      cases handle <;> rfl
    unfold Grammar.parameter
    cases hv : s.shown (.object handle) with
    | raw w => rw [hv] at hshown; exact nomatch hshown
    | _ => rfl
  | _ => rfl

theorem substituteEntries_eq (f : Handle → Value) (entries : List (Value × Value)) :
    Value.substituteEntries f entries =
      entries.map fun entry => (entry.1.substitute f, entry.2.substitute f) := by
  induction entries with
  | nil => rfl
  | cons entry entries ih =>
    rw [Value.substituteEntries, ih]
    rfl

/-- An update with the assigned values read: they are written as placeholders or fragments, whatever
else they refer to. -/
theorem updateSql_shown (s : Store) {entries : List (Value × Value)}
    (h : ∀ entry ∈ entries, AssignmentHolds g entry) (attached : Attached) (q : Query) :
    g.updateSql attached q (s.shown (.map entries)) = g.updateSql attached q (.map entries) := by
  have hshown : s.shown (.map entries) =
      .map (entries.map fun entry => (s.shown entry.1, s.shown entry.2)) := by
    show Value.map (Value.substituteEntries _ entries) = _
    rw [substituteEntries_eq]
    rfl
  have heach : ∀ {pairs : List (Value × Value)}, (∀ entry ∈ pairs, entry ∈ entries) →
      (pairs.map fun entry => (s.shown entry.1, s.shown entry.2)).mapM
        (fun entry : Value × Value => do
          return (← g.wrapped entry.1) ++ " = " ++ (Grammar.parameter entry.2).display) =
      pairs.mapM fun entry => do
        return (← g.wrapped entry.1) ++ " = " ++ (Grammar.parameter entry.2).display := by
    intro pairs hpairs
    induction pairs with
    | nil => rfl
    | cons entry pairs ih =>
      obtain ⟨hkey, hvalue⟩ := h entry (hpairs entry List.mem_cons_self)
      rw [List.map_cons, List.mapM_cons, List.mapM_cons,
        ih fun entry hentry => hpairs entry (List.mem_cons_of_mem _ hentry),
        s.shown_data hkey.data, parameter_shown s fun w hw => (hvalue w hw).1]
  have hassigned : g.assignmentsSql attached.oracle (s.shown (.map entries)) =
      g.assignmentsSql attached.oracle (.map entries) := by
    rw [hshown]
    exact congrArg (fun r : Except Failure (List String) => do return joinWith ", " (← r))
      (heach fun _ hentry => hentry)
  unfold Grammar.updateSql
  rw [hassigned]

/-- The update of a noted query fits the values that have a place in it. -/
theorem QueryId.toUpdateSql_aligned (hg : g.Compiles p) (hs : s.Noted g notes)
    (ht : s.Stands notes t) (hwhole : (notes t).whole = true) {table : String}
    (hq : (s.query t).Changes g table) {entries : List (Value × Value)}
    (hentries : ∀ entry ∈ entries, AssignmentHolds g entry) {statement : Statement}
    (h : Ran (t.toUpdateSql run (.map entries)) s statement s') :
    s' = s ∧ statement.bindings = g.updateValues (s.query t).bindings (assignedValues entries) ∧
      s.FitsBy g t (fun lit s => s.compiled [] t "compile_update" fun g attached q =>
          g.updateSql attached q (.map (entries.map (inlinedAssignment lit))))
        statement.sql (g.placedInUpdate (s.query t) (assignedValues entries)) := by
  have hmirrors : ∀ lit attached attached', MirrorsAttached lit s notes attached attached' →
      attached'.canCopy = (s.inlined lit notes).canCopy →
      MirrorsFill lit (g.updateSql attached (s.query t) (s.shown (.map entries)))
        (g.placedInUpdate (s.query t) (assignedValues entries))
        (g.updateSql attached' ((s.query t).inlined lit (notes t))
          (.map (entries.map (inlinedAssignment lit)))) := by
    intro lit attached attached' ha hcan
    rw [updateSql_shown s hentries]
    exact updateSql_mirrors hg ha (hs.queries t ht) hwhole hq
      (by rw [hcan]; exact hs.canCopy_inlined ht) hentries
  have hnow : ∀ {v s1 s2}, Ran (Value.map entries).now s1 v s2 ↔ v = .map entries ∧ s2 = s1 :=
    ran_pure
  unfold QueryId.toUpdateSql at h
  simp only [ran_bind, ran_shown, hnow, ran_pure] at h
  obtain ⟨_, s1, ⟨rfl, hs1⟩, sql, _, hcompile, _, _, ⟨rfl, rfl⟩, bindings, _, harrange, rfl, rfl⟩ :=
    h
  subst s1
  have haligned : _ ∧ ∀ lit, ∃ u, (s.inlined lit notes).compiled [] t "compile_update"
      (fun g attached q => g.updateSql attached q (.map (entries.map (inlinedAssignment lit)))) =
        .ok u ∧ Fills lit sql (g.placedInUpdate (s.query t) (assignedValues entries)) u :=
    compile_aligned hg hs ht hmirrors hcompile
  obtain ⟨rfl, hfills⟩ := haligned
  obtain ⟨rfl, rfl⟩ := (ran_arrange ((hs.queries t ht).grammarFor hg _)
    fun oracle => Grammar.updateBindings_eq oracle _ entries).1 harrange
  exact ⟨rfl, rfl, notes, hs, ht, hfills⟩

/-- The delete of the rows of a query, whether or not it was restricted. -/
def QueryId.deleteRows (run : Runner) (t : QueryId) : Action Statement := do
  let sql ← t.compile run "compile_delete" Grammar.deleteSql
  let bindings ← t.arrange run "prepare_bindings_for_delete" fun _ oracle bindings =>
    Grammar.deleteBindings oracle bindings
  return ⟨sql, bindings⟩

/-- The delete of a noted query fits the values that have a place in it. -/
theorem QueryId.deleteRows_aligned (hg : g.Compiles p) (hs : s.Noted g notes)
    (ht : s.Stands notes t) (hwhole : (notes t).whole = true) {table : String}
    (hq : (s.query t).Changes g table)
    (houtside : g.dialect.rowAddress? = none → (s.query t).joins ≠ [] → AsOutside g table)
    {statement : Statement} (h : Ran (t.deleteRows run) s statement s') :
    s' = s ∧ statement.bindings = Grammar.deleteValues (s.query t).bindings ∧
      s.FitsBy g t (fun _ s => s.compiled [] t "compile_delete" Grammar.deleteSql)
        statement.sql (g.placedInDelete (s.query t)) := by
  have hmirrors : ∀ lit attached attached', MirrorsAttached lit s notes attached attached' →
      attached'.canCopy = (s.inlined lit notes).canCopy →
      MirrorsFill lit (g.deleteSql attached (s.query t)) (g.placedInDelete (s.query t))
        (g.deleteSql attached' ((s.query t).inlined lit (notes t))) :=
    fun lit attached attached' ha hcan => deleteSql_mirrors hg ha (hs.queries t ht) hwhole hq
      (by rw [hcan]; exact hs.canCopy_inlined ht) houtside
  unfold QueryId.deleteRows at h
  simp only [ran_bind, ran_pure] at h
  obtain ⟨sql, _, hcompile, bindings, _, harrange, rfl, rfl⟩ := h
  have haligned : _ ∧ ∀ lit, ∃ u, (s.inlined lit notes).compiled [] t "compile_delete"
      Grammar.deleteSql = .ok u ∧ Fills lit sql (g.placedInDelete (s.query t)) u :=
    compile_aligned hg hs ht hmirrors hcompile
  obtain ⟨rfl, hfills⟩ := haligned
  obtain ⟨rfl, rfl⟩ := (ran_arrange ((hs.queries t ht).grammarFor hg _)
    fun oracle => Grammar.deleteBindings_eq oracle _).1 harrange
  exact ⟨rfl, rfl, notes, hs, ht, hfills⟩

/-! ## Restrictions to one id -/

/-- A query with one more condition: that a column equals a value. -/
def Query.restrictedTo (column : String) (id : Value) (q : Query) : Query :=
  let value := QueryId.jsonWord (.text column) id
  (q.addWhere (.text "and") (.basic (.text column) "=" value)).bind .condition value.bound

/-- Every query knows equality, and any value goes with it. -/
theorem ran_comparison_equals {v : Value} {c : Comparison} :
    Ran (t.comparison (some (.text "=")) (some v)) s c s' ↔ c = ⟨"=", v⟩ ∧ s' = s := by
  have hcheck : ∀ added,
      Comparison.ofArguments added (some (s.shown (.text "="))) (some v) = .ok ⟨"=", v⟩ := by
    intro added
    have hlower : Text.lower "=" = "=" := by decide
    have hknown : isOperator added "=" = .ok true := rfl
    rw [s.shown_data rfl]
    show Comparison.check added (.text "=") v = _
    unfold Comparison.check
    dsimp only
    rw [hlower, hknown]
    cases v.isNull <;> rfl
  unfold QueryId.comparison QueryId.addedOperators
  simp only [ran_bind, ran_map, ran_shown, ran_get, ran_pure, ran_ofExcept]
  refine ⟨?_, ?_⟩
  · rintro ⟨_, _, ⟨_, ⟨rfl, rfl⟩, rfl⟩, _, _, ⟨_, _, ⟨rfl, rfl⟩, rfl, rfl⟩, hok, rfl⟩
    rw [hcheck] at hok
    exact ⟨(Except.ok.inj hok).symm, rfl⟩
  · rintro ⟨rfl, rfl⟩
    exact ⟨_, s', ⟨_, ⟨rfl, rfl⟩, rfl⟩, _, s', ⟨s', s', ⟨rfl, rfl⟩, rfl, rfl⟩, hcheck _, rfl⟩

/-- The call that restricts a query to one id adds one condition and its value. -/
theorem QueryId.ran_restrict {column : String} {id : Value} (hnull : id.isNull = false)
    (hquery : id.isQueryable = false) {u : Unit} :
    Ran (t.where run (.text column) (some (.text "=")) (some id) (.text "and")) s u s' ↔
      s' = s.edit t (Query.restrictedTo column id) := by
  have hcall : t.where run (.text column) (some (.text "=")) (some id) (.text "and") = (do
      let c ← t.comparison (some (.text "=")) (some id)
      if c.value.isQueryable then
        t.whereSub run (.text column) (.text c.operator) c.value (.text "and")
      else if c.value.isNull then t.whereNull (.text column) (.text "and") (c.operator != "=")
      else
        let value := jsonWord (.text column) c.value
        t.addWhere (.text "and") (.basic (.text column) c.operator value)
        t.bindValue .condition value) := rfl
  rw [hcall]
  simp only [ran_bind, ran_comparison_equals]
  refine ⟨?_, ?_⟩
  · rintro ⟨_, _, ⟨rfl, rfl⟩, hrest⟩
    simp only [hnull, hquery, Bool.false_eq_true, if_false, addWhere, ran_bind, ran_modify,
      ran_bindValue] at hrest
    obtain ⟨_, _, rfl, rfl⟩ := hrest
    rw [Store.edit_edit]
    rfl
  · rintro rfl
    refine ⟨_, _, ⟨rfl, rfl⟩, ?_⟩
    simp only [hnull, hquery, Bool.false_eq_true, if_false, addWhere, ran_bind, ran_modify,
      ran_bindValue]
    exact ⟨(), _, rfl, by rw [Store.edit_edit]; rfl⟩

/-- A restricted copy of a noted query is noted. -/
theorem Store.Noted.restrict (hg : g.Compiles p) (hs : s.Noted g notes) (ht : s.Stands notes t)
    (hplain : (s.query t).aggregate = none) {column : String} (hcolumn : NameFree g column)
    {id : Value} (hnull : id.isNull = false) (hid : ValueAllowed id) {c : QueryId} {s1 : Store}
    (hcopy : Ran t.copy s c s1) {u : Unit}
    (hwhere : Ran (c.where run (.text column) (some (.text "=")) (some id) (.text "and")) s1 u s') :
    ∃ notes', s'.Noted g notes' ∧ s'.Stands notes' c ∧ (notes' c).whole = (notes t).whole ∧
      ∃ r, s'.query c = ((s.query t).moved r).restrictedTo column id := by
  obtain ⟨notes1, hlater, hstands, hnotes, hnew, hfree, r, hquery⟩ :=
    @Store.Noted.ran_copy g s s1 notes ∅ ∅ t hs ht c hcopy
  have hready : Ready g p run ⟨∅, ∅⟩ s1 notes1 c :=
    { compiles := hg
      noted := hlater.noted
      there := hstands.1
      loose := hfree.loose
      plain := by rw [hquery]; exact hplain
      grammar := (hlater.noted.queries c hstands).grammar
      offered := fun _ hin => nomatch hin
      callbacks := fun _ hin => nomatch hin }
  have hallowed : ConditionAllowed g ⟨∅, ∅⟩ .values (.text column) (some (.text "=")) (some id)
      (.text "and") :=
    .single rfl ⟨⟨rfl, by decide⟩, .inr ⟨.inr ⟨rfl, rfl, hcolumn⟩, .inr hid⟩⟩
  obtain ⟨notes2, hlater2, hstands2⟩ := (hready.where hstands hallowed hwhere).1
  refine ⟨notes2, hlater2.noted, hstands2, ?_, r, ?_⟩
  · rw [(hlater2.kept c hstands.1).whole, hnotes]
  · rw [(QueryId.ran_restrict hnull (Value.isQueryable_data hid.1)).1 hwhere,
      Store.query_edit_self hstands.1, hquery]

/-- A restriction keeps the source, the joins and the limit of a query, and all its values but those
of its conditions. -/
theorem Query.restrictedTo_changes {r : Renaming} {column table : String} {id : Value}
    (h : q.Changes g table) : ((q.moved r).restrictedTo column id).Changes g table :=
  ⟨h.source, h.rows⟩

theorem Query.joins_restrictedTo {r : Renaming} {column : String} {id : Value}
    (h : ((q.moved r).restrictedTo column id).joins ≠ []) : q.joins ≠ [] := by
  rintro hnone
  refine h ?_
  show q.joins.map r.query = []
  rw [hnone]
  rfl

/-- The values of a query that have no place in its deletes have none in those of a restricted
copy. -/
theorem Grammar.unplacedValues_restrictedTo (g : Grammar) (q : Query) (r : Renaming)
    (column : String) (id : Value) :
    g.unplacedValues ((q.moved r).restrictedTo column id) = g.unplacedValues q := by
  have hjoins : ((q.moved r).restrictedTo column id).joins = q.joins.map r.query := rfl
  have haddress : g.addressColumn? ((q.moved r).restrictedTo column id) = g.addressColumn? q := by
    unfold addressColumn?
    rw [hjoins, List.isEmpty_map]
    rfl
  have hunplaced : g.unplaced ((q.moved r).restrictedTo column id) = g.unplaced q := by
    unfold unplaced
    simp only [hjoins, List.map_eq_nil_iff]
  unfold unplacedValues
  rw [haddress, hunplaced]
  congr 1
  refine List.flatMap_congr fun group hgroup => Bindings.get_set_of_ne _ _ ?_
  rintro rfl
  unfold unplaced at hgroup
  split at hgroup <;> exact absurd hgroup (by decide)

/-- The id column of a query on a table given by its name. -/
theorem QueryId.ran_idColumn {table : String} (hsource : (s.query t).source = .text table)
    {v : Value} (h : Ran t.idColumn s v s') :
    v = .text (lastAlias table ++ ".id") ∧ s' = s := by
  unfold QueryId.idColumn QueryId.grammarFor at h
  simp only [ran_bind, ran_get, ran_ofExcept, ran_read, ran_pure] at h
  obtain ⟨_, _, ⟨_, s1, ⟨rfl, rfl⟩, _, rfl⟩, _, _, ⟨rfl, rfl⟩, name, _, hname, rfl, rfl⟩ := h
  rw [hsource] at hname
  obtain ⟨rfl, rfl⟩ := (ran_displayNow rfl).1 hname
  exact ⟨rfl, rfl⟩

/-- The query whose rows a delete removes: the query itself, or a copy of it that is restricted to
one id. -/
def Store.DeleteTarget (s : Store) (t : QueryId) (table : String) (id : Value) (s' : Store)
    (c : QueryId) : Prop :=
  if id.isNull then c = t ∧ s' = s
  else ∃ r, s'.query c = ((s.query t).moved r).restrictedTo (lastAlias table ++ ".id") id

/-- The delete of a noted query fits its values, also if it is restricted to one id. -/
theorem QueryId.toDeleteSql_aligned (hg : g.Compiles p) (hs : s.Noted g notes)
    (ht : s.Stands notes t) (hwhole : (notes t).whole = true)
    (hplain : (s.query t).aggregate = none) {table : String} (hq : (s.query t).Changes g table)
    (houtside : g.dialect.rowAddress? = none → (s.query t).joins ≠ [] → AsOutside g table)
    {id : Value} (hid : ValueAllowed id)
    (hcolumn : id.isNull = false → NameFree g (lastAlias table ++ ".id")) {statement : Statement}
    (h : Ran (t.toDeleteSql run id) s statement s') :
    ∃ c, s.DeleteTarget t table id s' c ∧
      statement.bindings = Grammar.deleteValues (s'.query c).bindings ∧
      s'.FitsBy g c (fun _ s => s.compiled [] c "compile_delete" Grammar.deleteSql)
        statement.sql (g.placedInDelete (s'.query c)) := by
  unfold Store.DeleteTarget
  cases hnull : id.isNull with
  | true =>
    have hrows : Ran (t.deleteRows run) s statement s' := by
      unfold QueryId.toDeleteSql at h
      rwa [hnull] at h
    obtain ⟨rfl, hbindings, hfits⟩ := deleteRows_aligned hg hs ht hwhole hq houtside hrows
    exact ⟨t, ⟨rfl, rfl⟩, hbindings, hfits⟩
  | false =>
    have hrows : Ran (do
        let c ← t.copy
        c.where run (← t.idColumn) (some (.text "=")) (some id) (.text "and")
        c.deleteRows run) s statement s' := by
      unfold QueryId.toDeleteSql at h
      rw [hnull] at h
      exact h
    simp only [ran_bind] at hrows
    obtain ⟨c, s1, hcopy, name, s2, hname, u, s3, hwhere, hdelete⟩ := hrows
    obtain ⟨notes1, hlater, _⟩ := @Store.Noted.ran_copy g s s1 notes ∅ ∅ t hs ht c hcopy
    have hsource : (s1.query t).source = .text table := by
      rw [(hlater.others t ht.1 (Set.notMem_empty t)).1]
      exact hq.source
    obtain ⟨rfl, hsame⟩ := ran_idColumn hsource hname
    subst s2
    obtain ⟨notes3, hnoted, hstands, hwhole3, r, hquery⟩ :=
      hs.restrict hg ht hplain (hcolumn hnull) hnull hid hcopy hwhere
    have hchanges : (s3.query c).Changes g table := by
      rw [hquery]
      exact Query.restrictedTo_changes hq
    obtain ⟨rfl, hbindings, hfits⟩ := deleteRows_aligned hg hnoted hstands (hwhole3.trans hwhole)
      hchanges (fun hnone hjoins => houtside hnone (Query.joins_restrictedTo (hquery ▸ hjoins)))
      hdelete
    exact ⟨c, ⟨r, hquery⟩, hbindings, hfits⟩

end

end FluentSql
