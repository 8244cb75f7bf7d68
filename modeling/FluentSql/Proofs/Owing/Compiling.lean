import FluentSql.Proofs.Changing
import FluentSql.Proofs.Inserting
import FluentSql.Proofs.Owing.Comparing

/-!
# Statements that owe values

A statement does not depend on the values that its query is bound to.  So a
query that owes values has the statements that it has once it is bound to them:
there is a placeholder for each bound value and one for each that is owed.

* `ReadsNoValues` says that a compilation reads values at most to see whether a
  query can be copied, and `Store.Noted.paid_compile` that it gives a placeholder
  for each value that is bound once all is.
* `Owed.asSub`, `Owed.toUpdateSql` and `Owed.deleteRows` count the placeholders
  of a select statement, an update and a delete.
* An update also owes for what it stores.  `Value.standIn` is bound in the place
  of a fragment that is a placeholder; the text is the same.
* `QueryId.inserts_owe` counts those of inserts, whose text is known in full.
-/

namespace FluentSql

/-- A compilation reads the values of its query at most to see whether the query can be copied. -/
def ReadsNoValues (f : Grammar → Attached → Query → Except Failure String) : Prop :=
  ∀ g attached q bindings, f g attached { q with bindings } =
    f g { attached with canCopy := fun _ => attached.canCopy { q with bindings } } q

theorem selectSql_readsNoValues : ReadsNoValues Grammar.selectSql :=
  fun _ _ _ _ => rfl

theorem updateSql_readsNoValues (values : Value) :
    ReadsNoValues fun g attached q => g.updateSql attached q values :=
  fun _ _ _ _ => rfl

theorem deleteSql_readsNoValues : ReadsNoValues Grammar.deleteSql :=
  fun _ _ _ _ => rfl

section

variable {g : Grammar} {p : String} {run : Runner} {s s' : Store} {b : QueryId → Bindings}
variable {notes : QueryId → Notes} {t : QueryId}

/-- A statement has a placeholder for each value of its mirror, if the query is noted once it is
bound to other values. -/
theorem Store.Noted.paid_compile (hg : g.Compiles p) (hs : (s.paid b).Noted g notes)
    (ht : (s.paid b).Stands notes t) {vs : List Value} {method : String}
    {f : Grammar → Attached → Query → Except Failure String}
    (f' : Grammar → Attached → Query → Except Failure String) (hvalues : ReadsNoValues f)
    (hf : ∀ attached attached', MirrorsAttached default (s.paid b) notes attached attached' →
      attached'.canCopy = ((s.paid b).inlined default notes).canCopy →
      MirrorsFill default (f g attached ((s.paid b).query t)) vs
        (f' g attached' (((s.paid b).query t).inlined default (notes t))))
    {sql : String} (h : Ran (t.compile run method f) s sql s') :
    s' = s ∧ Reads sql.toList vs.length := by
  have hsettled := s.revalues_settled (b := b) fun id hid =>
    hs.still id (by rwa [Store.size_paid])
  have hgrammar : s.settled.grammarFor (s.settled.query t).grammar method = .ok g := by
    rw [hsettled.grammarFor, hsettled.query]
    exact (hs.queries t ht).grammarFor hg method
  obtain ⟨canCopy, hcompiled⟩ : ∃ canCopy, s.settled.compiled [] t method f =
      f g { (s.paid b).attached g [] with canCopy } ((s.paid b).query t) := by
    refine ⟨fun _ => s.settled.canCopy (s.settled.query t), ?_⟩
    unfold Store.compiled
    rw [hgrammar]
    show f g (s.settled.attached g []) (s.settled.query t) = _
    rw [hsettled.query t, hvalues]
    unfold Store.attached Store.attachedDepth
    rw [hsettled.size, hsettled.oracle, hsettled.attachedBy]
  have hattached : MirrorsAttached default (s.paid b) notes
      { (s.paid b).attached g [] with canCopy }
      (((s.paid b).inlined default notes).attached g []) := by
    have hdepth : ((s.paid b).inlined default notes).attachedDepth = (s.paid b).attachedDepth :=
      congrArg (3 * · + 1) Array.size_mapIdx
    unfold Store.attached
    rw [hdepth]
    obtain ⟨hselect, hconditions, hjoin⟩ := attachedBy_mirrors hg default hs
      ((s.paid b).oracle []) (((s.paid b).inlined default notes).oracle []) (s.paid b).attachedDepth
    exact ⟨hselect, hconditions, hjoin⟩
  have hmirrors := hf _ _ hattached rfl
  rw [← hcompiled] at hmirrors
  obtain ⟨hok, rfl⟩ := (ran_consult hmirrors.asksNothing).1 h
  obtain ⟨u, _, hfills⟩ := hmirrors.succeeds sql hok
  exact ⟨rfl, hfills.reads⟩

/-! ## Values that are stored -/

/-- A value that can be stored: data, or a fragment that has no placeholders or is one. -/
def Value.Stored (v : Value) : Prop :=
  ValueAllowed v ∨ v = .raw (.text "?")

/-- A value that is bound where one is owed. -/
def Value.standIn (v : Value) : Value :=
  if v.owed = 0 then v else .null

/-- Nothing is owed for a value that may be compared with. -/
theorem ValueAllowed.owed {v : Value} (h : ValueAllowed v) : v.owed = 0 := by
  cases v with
  | raw w => exact (h.2 w rfl).marks_eq
  | _ => rfl

theorem ValueAllowed.closes {v : Value} (h : ValueAllowed v) : v.Closes :=
  ⟨h.1, fun w hw => (h.2 w hw).closed⟩

namespace Value

variable {v : Value}

theorem Stored.closes (h : v.Stored) : v.Closes := by
  obtain h | rfl := h
  · exact h.closes
  · refine ⟨rfl, fun w hw => ?_⟩
    cases hw
    decide

theorem Stored.standIn (h : v.Stored) : ValueAllowed v.standIn := by
  unfold Value.standIn
  obtain h | rfl := h
  · rwa [if_pos h.owed]
  · rw [if_neg (by decide)]
    exact ⟨rfl, fun w hw => nomatch hw⟩

theorem Stored.parameter_standIn (h : v.Stored) :
    (Grammar.parameter v.standIn).display = (Grammar.parameter v).display := by
  unfold Value.standIn
  obtain h | rfl := h
  · rw [if_pos h.owed]
  · rw [if_neg (by decide)]
    rfl

theorem Stored.length_bound_standIn (h : v.Stored) :
    v.standIn.bound.length = v.bound.length + v.owed := by
  unfold Value.standIn
  obtain h | rfl := h
  · rw [if_pos h.owed, h.owed]
    rfl
  · decide

end Value

section

variable {entries : List (Value × Value)}

/-- Assignments to columns of values that can be stored. -/
def AssignsStored (g : Grammar) (entries : List (Value × Value)) : Prop :=
  ∀ entry ∈ entries, ColumnHolds g entry.1 [] ∧ entry.2.Stored

/-- Assignments with stand-ins for their values. -/
def withStandIns (entries : List (Value × Value)) : List (Value × Value) :=
  entries.map fun entry => (entry.1, entry.2.standIn)

theorem AssignsStored.tail {entry : Value × Value} (h : AssignsStored g (entry :: entries)) :
    AssignsStored g entries :=
  fun other hother => h other (List.mem_cons_of_mem _ hother)

theorem AssignsStored.assignments (h : AssignsStored g entries) :
    ∀ entry ∈ withStandIns entries, AssignmentHolds g entry := by
  intro entry hentry
  obtain ⟨entry, hin, rfl⟩ := List.mem_map.1 hentry
  obtain ⟨hcolumn, hvalue⟩ := h entry hin
  refine ⟨hcolumn, fun w hw => ⟨?_, hvalue.standIn.2 w hw⟩⟩
  have hdata := hvalue.standIn.1
  dsimp only at hw
  rw [hw] at hdata
  exact hdata

/-- The text of an update is the same with stand-ins. -/
theorem AssignsStored.updateSql_standIns (h : AssignsStored g entries) (attached : Attached)
    (q : Query) : g.updateSql attached q (.map (withStandIns entries)) =
      g.updateSql attached q (.map entries) := by
  have heach : (withStandIns entries).mapM (fun entry : Value × Value => do
        return (← g.wrapped entry.1) ++ " = " ++ (Grammar.parameter entry.2).display) =
      entries.mapM fun entry => do
        return (← g.wrapped entry.1) ++ " = " ++ (Grammar.parameter entry.2).display := by
    induction entries with
    | nil => rfl
    | cons entry entries ih =>
      have hvalue := (h entry List.mem_cons_self).2
      rw [withStandIns, List.map_cons, List.mapM_cons, List.mapM_cons, hvalue.parameter_standIn,
        ← ih h.tail, withStandIns]
  have hassigned : g.assignmentsSql attached.oracle (.map (withStandIns entries)) =
      g.assignmentsSql attached.oracle (.map entries) :=
    congrArg (fun r : Except Failure (List String) => do return joinWith ", " (← r)) heach
  unfold Grammar.updateSql
  rw [hassigned]

theorem AssignsStored.length_standIns (h : AssignsStored g entries) :
    (assignedValues (withStandIns entries)).length =
      (assignedValues entries).length + (entries.map (·.2.owed)).sum := by
  induction entries with
  | nil => rfl
  | cons entry entries ih =>
    have hhead := (h entry List.mem_cons_self).2.length_bound_standIn
    have htail := ih h.tail
    unfold assignedValues withStandIns at htail ⊢
    simp only [List.map_cons, List.flatten_cons, List.length_append, List.sum_cons, hhead, htail]
    omega

end

/-! ## Statements -/

/-- An update binds the assigned values and all values of its query but those of the select list. -/
theorem Grammar.length_updateValues_select (g : Grammar) (b : Bindings) (assigned : List Value) :
    (g.updateValues b assigned).length + b.select.length =
      b.flatten.length + assigned.length := by
  unfold updateValues
  rw [Bindings.length_flatten]
  split
  · rw [flattenGroups_erase_select]
    simp only [List.length_append]
    omega
  · rw [flattenGroups_erase_join]
    simp only [List.length_append]
    omega

theorem Grammar.length_deleteValues_select (b : Bindings) :
    (deleteValues b).length + b.select.length = b.flatten.length := by
  rw [deleteValues, flattenGroups_erase_select, Bindings.length_flatten]
  simp only [List.length_append]
  omega

namespace Owed

variable {operands : List (BindingGroup × Value)} (h : Owed g s t operands b notes)
include h

theorem there : t.index < s.queries.size := by
  have hthere := h.stands.1
  rwa [Store.size_paid] at hthere

theorem length_flatten :
    (b t).flatten.length =
      (s.query t).bindings.flatten.length + (operands.map (·.2.owed)).sum :=
  Bindings.length_flatten_of_owed h.counts

theorem grammar : ∃ id, (s.query t).grammar = .grammar id ∧ id.index < s.grammars.size ∧
    s.grammar id = g := by
  have hgrammar := (h.noted.queries t h.stands).grammar
  rwa [Store.query_paid h.there] at hgrammar

theorem grammarFor (hg : g.Compiles p) (method : String) :
    s.grammarFor (s.query t).grammar method = .ok g := by
  obtain ⟨id, hgrammar, _, hid⟩ := h.grammar
  rw [hgrammar, Store.grammarFor, hid, hg.full]
  rfl

/-- The table of a query can be written without values. -/
theorem table (hwhole : (notes t).whole = true) {name : String}
    (hsource : (s.query t).source = .text name) : TableHolds g (.text name) [] := by
  have hpaid : ((s.paid b).query t).source = .text name := by
    rw [Store.query_paid h.there]
    exact hsource
  exact (@Query.Noted.source_nil g default _ _ _ _ name (h.noted.queries t h.stands) hwhole hpaid).1

/-- A select statement has a placeholder for each value, and one for each that is owed. -/
theorem asSub (hg : g.Compiles p) (hwhole : (notes t).whole = true) {sub : SubQuery}
    (hran : Ran (t.asSub run) s sub s') :
    marks none sub.sql.toList = sub.bindings.length + (operands.map (·.2.owed)).sum := by
  unfold QueryId.asSub QueryId.bindings at hran
  simp only [ran_bind, ran_read, ran_pure] at hran
  obtain ⟨sql, s1, hsql, _, _, ⟨_, _, ⟨rfl, rfl⟩, rfl, rfl⟩, rfl, rfl⟩ := hran
  obtain ⟨rfl, hreads⟩ := h.noted.paid_compile hg h.stands Grammar.selectSql
    selectSql_readsNoValues (fun _ _ ha _ => selectSql_mirrors hg ha (h.noted.queries t h.stands) hwhole) hsql
  rw [hreads.marks_eq, Store.query_paid h.there, h.length_flatten]

section

variable {table : String} (hg : g.Compiles p) (hwhole : (notes t).whole = true)
variable (hq : (s.query t).Changes g table)
include hg hwhole hq

omit hg in
/-- The query bound to what it owes can be changed as well, and what it is bound to has a place. -/
theorem paid_query (hplaces : g.Places (s.query t))
    (howed : (g.addressColumn? (s.query t)).isSome ∨
      ∀ group ∈ g.unplaced (s.query t), owedIn group operands = 0) :
    ((s.paid b).query t).Changes g table ∧ ((s.paid b).query t).bindings.source = [] ∧
      g.unplacedValues ((s.paid b).query t) = [] := by
  have hnoted := h.noted.queries t h.stands
  have hchanges : ((s.paid b).query t).Changes g table := by
    rw [Store.query_paid h.there]
    exact ⟨hq.source, hq.rows⟩
  refine ⟨hchanges, (@Query.Noted.source_nil g default _ _ _ _ table hnoted hwhole
    hchanges.source).2.1, Grammar.places_iff.1 ?_⟩
  rw [Store.query_paid h.there]
  by_cases haddress : (g.addressColumn? (s.query t)).isSome = true
  · exact .inl haddress
  · refine .inr fun group hgroup => List.length_eq_zero_iff.1 ?_
    have hnone := hplaces.resolve_left haddress group hgroup
    show ((b t).get group).length = 0
    rw [h.counts group, hnone, howed.resolve_left haddress group hgroup]
    rfl

variable (hplaces : g.Places (s.query t))
  (howed : (g.addressColumn? (s.query t)).isSome ∨
    ∀ group ∈ g.unplaced (s.query t), owedIn group operands = 0)
  (hselect : owedIn .select operands = 0)
include hplaces howed hselect

/-- An update has a placeholder for each value, and one for each that is owed. -/
theorem toUpdateSql {entries : List (Value × Value)} (hentries : AssignsStored g entries)
    {statement : Statement} (hran : Ran (t.toUpdateSql run (.map entries)) s statement s') :
    marks none statement.sql.toList = statement.bindings.length +
      (operands.map (·.2.owed)).sum + (entries.map (·.2.owed)).sum := by
  obtain ⟨hchanges, hsource, hunplaced⟩ := h.paid_query hwhole hq hplaces howed
  have hnoted := h.noted.queries t h.stands
  have hselected : (b t).select.length = (s.query t).bindings.select.length :=
    (h.counts .select).trans (by rw [hselect]; rfl)
  have hbound := Grammar.length_updateValues_select g (s.query t).bindings (assignedValues entries)
  have hdata : (Value.map entries).handles = [] := Value.handlesOfEntries_eq_nil.2 fun entry hin =>
    ⟨(hentries entry hin).1.data, (hentries entry hin).2.closes.1⟩
  have hnow : ∀ {v s1 s2}, Ran (Value.map entries).now s1 v s2 ↔ v = .map entries ∧ s2 = s1 :=
    ran_pure
  unfold QueryId.toUpdateSql at hran
  simp only [ran_bind, ran_shown, hnow, ran_pure] at hran
  obtain ⟨_, s1, ⟨rfl, hs1⟩, sql, _, hcompile, _, _, ⟨rfl, rfl⟩, bindings, _, harrange, rfl, rfl⟩ :=
    hran
  subst s1
  rw [s.shown_data hdata] at hcompile
  have hmirrors : ∀ attached attached', MirrorsAttached default (s.paid b) notes attached attached' →
      attached'.canCopy = ((s.paid b).inlined default notes).canCopy →
      MirrorsFill default (g.updateSql attached ((s.paid b).query t) (.map entries))
        (g.placedInUpdate ((s.paid b).query t) (assignedValues (withStandIns entries)))
        (g.updateSql attached' (((s.paid b).query t).inlined default (notes t))
          (.map ((withStandIns entries).map (inlinedAssignment default)))) := by
    intro attached attached' ha hcan
    rw [← hentries.updateSql_standIns]
    exact updateSql_mirrors hg ha hnoted hwhole hchanges
      (by rw [hcan]; exact h.noted.canCopy_inlined h.stands) hentries.assignments
  obtain ⟨rfl, hreads⟩ := h.noted.paid_compile hg h.stands (fun g attached q => g.updateSql attached q
      (.map ((withStandIns entries).map (inlinedAssignment default))))
    (updateSql_readsNoValues (.map entries)) hmirrors hcompile
  obtain ⟨rfl, _⟩ := (ran_arrange (h.grammarFor hg _) fun oracle =>
    Grammar.updateBindings_eq oracle _ entries).1 harrange
  have hpaid := length_updateValues hnoted hsource (assignedValues (withStandIns entries))
  rw [hunplaced, List.length_nil, Store.query_paid h.there] at hpaid
  have hall := Grammar.length_updateValues_select g (b t) (assignedValues (withStandIns entries))
  rw [h.length_flatten, hentries.length_standIns] at hall
  rw [hreads.marks_eq, Store.query_paid h.there]
  dsimp only at hpaid ⊢
  omega

/-- A delete has a placeholder for each value, and one for each that is owed. -/
theorem deleteRows
    (houtside : g.dialect.rowAddress? = none → (s.query t).joins ≠ [] → AsOutside g table)
    {statement : Statement} (hran : Ran (t.deleteRows run) s statement s') :
    marks none statement.sql.toList =
      statement.bindings.length + (operands.map (·.2.owed)).sum := by
  obtain ⟨hchanges, hsource, hunplaced⟩ := h.paid_query hwhole hq hplaces howed
  have hnoted := h.noted.queries t h.stands
  have hselected : (b t).select.length = (s.query t).bindings.select.length :=
    (h.counts .select).trans (by rw [hselect]; rfl)
  have hbound := Grammar.length_deleteValues_select (s.query t).bindings
  have houtside' : g.dialect.rowAddress? = none → ((s.paid b).query t).joins ≠ [] →
      AsOutside g table := by
    rw [Store.query_paid h.there]
    exact houtside
  unfold QueryId.deleteRows at hran
  simp only [ran_bind, ran_pure] at hran
  obtain ⟨sql, _, hcompile, bindings, _, harrange, rfl, rfl⟩ := hran
  obtain ⟨rfl, hreads⟩ := h.noted.paid_compile hg h.stands Grammar.deleteSql
    deleteSql_readsNoValues (fun _ _ ha hcan => deleteSql_mirrors hg ha hnoted hwhole hchanges
      (by rw [hcan]; exact h.noted.canCopy_inlined h.stands) houtside') hcompile
  obtain ⟨rfl, _⟩ := (ran_arrange (h.grammarFor hg _) fun oracle =>
    Grammar.deleteBindings_eq oracle _).1 harrange
  have hpaid := length_deleteValues (g := g) hsource
  rw [hunplaced, List.length_nil, Store.query_paid h.there] at hpaid
  have hall := Grammar.length_deleteValues_select (b t)
  rw [h.length_flatten] at hall
  rw [hreads.marks_eq, Store.query_paid h.there]
  dsimp only at hpaid ⊢
  omega

end

end Owed

/-! ## Inserts -/

/-- A table is the source of a query also once its values are read. -/
theorem Store.settled_source {name : String} (h : (s.query t).source = .text name) :
    (s.settled.query t).source = .text name := by
  rw [query_settled]
  show Renaming.value _ (s.query t).source = _
  rw [h]
  rfl

/-- Fragments with a sealed separator between them have the placeholders of all. -/
theorem reads_joinWith {α : Type} {separator : String} (hsep : Sealed separator.toList)
    {f : α → String} {n : α → Nat} {xs : List α} (h : ∀ x ∈ xs, Reads (f x).toList (n x)) :
    Reads (joinWith separator (xs.map f)).toList (xs.map n).sum := by
  induction xs with
  | nil => exact reads_nil
  | cons x xs ih =>
    have hx := h x List.mem_cons_self
    have hxs := ih fun y hy => h y (List.mem_cons_of_mem x hy)
    cases xs with
    | nil => exact hx
    | cons y ys =>
      show Reads (f x ++ separator ++ joinWith separator ((y :: ys).map f)).toList _
      rw [String.toList_append, String.toList_append]
      exact (hx.append hsep).append hxs

/-- What stands in an insert for a value has the placeholders of its values. -/
theorem Value.Closes.reads_inserted {v : Value} (h : v.Closes) :
    Reads (insertedText v).toList v.paid.length := by
  cases v with
  | raw w => exact ⟨h.2 w rfl, List.length_replicate.symm⟩
  | _ =>
    show Reads "?".toList 1
    decide

theorem reads_insertText {words table : String} {columns : List String} {rows : List (List Value)}
    (hwords : Sealed words.toList) (htable : Sealed table.toList)
    (hcolumns : ∀ c ∈ columns, Sealed c.toList) (hrows : ∀ row ∈ rows, ∀ v ∈ row, v.Closes) :
    Reads (insertText words table columns rows).toList (rows.flatten.map Value.paid).flatten.length := by
  have hcomma : Sealed ", ".toList := by decide
  have hnames : Sealed (joinWith ", " columns).toList := by
    have hall := reads_joinWith hcomma (f := id) (n := fun _ => 0) hcolumns
    rwa [List.map_id, List.sum_map_zero] at hall
  have hrow : ∀ row ∈ rows, Reads ("(" ++ joinWith ", " (row.map insertedText) ++ ")").toList
      (row.map fun v => v.paid.length).sum := by
    intro row hrow
    have hopen : Sealed "(".toList := by decide
    have hclose : Sealed ")".toList := by decide
    have hvalues := reads_joinWith hcomma fun v hv => (hrows row hrow v hv).reads_inserted
    rw [String.toList_append, String.toList_append]
    exact ((hopen.append_reads_iff _ _).2 hvalues).append hclose
  have hvalues := reads_joinWith hcomma hrow
  have hcount : (rows.flatten.map Value.paid).flatten.length =
      (rows.map fun row => (row.map fun v => v.paid.length).sum).sum := by
    rw [List.length_flatten, List.map_map, List.map_flatten, List.sum_flatten, List.map_map]
    rfl
  have hhead : Sealed (words ++ " into " ++ table ++ " (" ++ joinWith ", " columns ++
      ") values ").toList := by
    simp only [String.toList_append]
    exact ((((hwords.append (by decide)).append htable).append (by decide)).append hnames).append
      (by decide)
  rw [hcount]
  unfold insertText
  rw [String.toList_append]
  exact (hhead.append_reads_iff _ _).2 hvalues

/-- What returns the id of a new row has no placeholders. -/
theorem Grammar.returningText_sealed (hg : g.Compiles p) {sequence : Value}
    (hsequence : sequence = .null ∨ ColumnHolds g sequence []) {text : String}
    (h : g.returningText (s.shown sequence) = .ok text) : Sealed text.toList := by
  have hdata : sequence.handles = [] := by
    obtain rfl | hcolumn := hsequence
    · rfl
    · exact hcolumn.data
  have hcolumn : ColumnHolds g (if sequence.truthy then sequence else .text "id") [] := by
    split
    · rename_i htruthy
      refine hsequence.resolve_left ?_
      rintro rfl
      exact nomatch htruthy
    · exact ⟨rfl, rfl, nameFree_of_word g (by decide) (by decide)⟩
  rw [s.shown_data hdata, returningText] at h
  split at h
  · obtain ⟨column, hok, rfl⟩ := Name.map_eq_ok h
    obtain ⟨_, _, hfills⟩ := (wrapped_self default hg hcolumn).succeeds column hok
    rw [String.toList_append]
    exact Sealed.append (by decide) hfills.reads
  · cases h
    decide

section

variable {table : String} {columns : List String} {rows : List (List Value)}
variable (hg : g.Compiles p) (htable : TableHolds g (.text table) [])
  (hcolumns : ∀ c ∈ columns, NameFree g c) (hrows : ∀ row ∈ rows, ∀ v ∈ row, v.Closes)
include hg htable hcolumns hrows

theorem Grammar.reads_insertedSql {words sql : String} {ending : Except Failure String}
    (hwords : Sealed words.toList) (hending : ∀ e, ending = .ok e → Sealed e.toList)
    (h : g.insertedSql words ending (.text table) columns rows = .ok sql) :
    Reads sql.toList (rows.flatten.map Value.paid).flatten.length := by
  obtain ⟨quotedTable, hquotedTable, h⟩ := Name.bind_eq_ok h
  obtain ⟨quoted, hquoted, h⟩ := Name.bind_eq_ok h
  obtain ⟨e, he, h⟩ := Name.bind_eq_ok h
  cases h
  obtain ⟨_, _, hfills⟩ := (wrappedTable_self default hg htable).succeeds quotedTable hquotedTable
  have hnames : ∀ c ∈ quoted, Sealed c.toList := by
    intro c hc
    obtain ⟨name, hname, hc⟩ := exists_of_forall₂ (mapM_eq_ok_iff.1 hquoted).flip hc
    exact Grammar.wrapText_sealed hg (hcolumns name hname) hc
  rw [String.toList_append]
  exact (reads_insertText hwords hfills.reads hnames hrows).append (hending e he)

/-- The three inserts of some rows have the placeholders of their values. -/
theorem Grammar.reads_inserts {sequence : Value}
    (hsequence : sequence = .null ∨ ColumnHolds g sequence []) {sql : Except Failure String}
    (hsql : sql ∈ [g.insertedSql "insert" (.ok "") (.text table) columns rows,
      g.insertedIgnoringSql (.text table) columns rows,
      g.insertedSql "insert" (g.returningText (s.shown sequence)) (.text table) columns rows])
    {text : String} (htext : sql = .ok text) :
    Reads text.toList (rows.flatten.map Value.paid).flatten.length := by
  have hbare : ∀ e : String, Except.ok "" = (.ok e : Except Failure String) → Sealed e.toList := by
    rintro _ ⟨⟩
    decide
  simp only [List.mem_cons, List.not_mem_nil, or_false] at hsql
  subst htext
  rcases hsql with hsql | hsql | hsql
  · exact Grammar.reads_insertedSql hg htable hcolumns hrows (by decide) hbare hsql.symm
  · unfold Grammar.insertedIgnoringSql at hsql
    split at hsql
    · exact nomatch hsql
    · exact Grammar.reads_insertedSql hg htable hcolumns hrows (by decide) hbare hsql.symm
    · exact Grammar.reads_insertedSql hg htable hcolumns hrows (by decide) hbare hsql.symm
    · refine Grammar.reads_insertedSql hg htable hcolumns hrows (by decide) ?_ hsql.symm
      rintro _ ⟨⟩
      decide
  · exact Grammar.reads_insertedSql hg htable hcolumns hrows (by decide)
      (fun _ => Grammar.returningText_sealed hg hsequence) hsql.symm

/-- An insert has a placeholder for each value, and one for each that is owed. -/
theorem QueryId.inserts_owe {id : GrammarId} {records : List Value} {sequence : Value}
    (hgrammar : (s.query t).grammar = .grammar id) (hid : s.grammar id = g)
    (hsource : (s.settled.query t).source = .text table)
    (htabulates : s.Tabulates columns records rows)
    (hsequence : sequence = .null ∨ ColumnHolds g sequence []) :
    ∀ outcome ∈ t.inserts run (.list records) sequence s, ∀ statement, outcome.1 = .ok statement →
      marks none statement.sql.toList =
        statement.bindings.length + (rows.flatten.map Value.owed).sum := by
  subst hid
  intro outcome houtcome statement hstatement
  by_cases hinlines : ∃ row ∈ rows, ∃ v ∈ row, ¬v.Inlines
  · exact absurd hstatement (QueryId.inserts_not_inlined run htabulates hgrammar hg.full sequence
      hinlines outcome houtcome statement)
  · have hall : ∀ row ∈ rows, ∀ v ∈ row, v.Inlines := by
      intro row hrow v hv
      by_contra hnot
      exact hinlines ⟨row, hrow, v, hv, hnot⟩
    rw [QueryId.inserts_inlined run htabulates hgrammar hg.full hall, hsource] at houtcome
    obtain ⟨sql, hsql, rfl⟩ := List.mem_map.1 houtcome
    obtain ⟨text, htext, rfl⟩ := Name.map_eq_ok hstatement
    have hreads := Grammar.reads_inserts hg htable hcolumns hrows hsequence hsql htext
    rw [hreads.marks_eq, Value.length_paid_flatten, ← filter_raw_eq]

end

end

end FluentSql
