import FluentSql.Proofs.Owing.Compiling
import FluentSql.Script.Interpreter

/-!
# JSON documents in the place of values

A JSON document can be given where a value is compared with or stored.  What
stands for it is a fragment: the word for a truth value, and a placeholder for
any other document.  Nothing is bound for a fragment, so such a placeholder has
no value.

* `Value.StandsFor` says what a script writes for a document.
* `OwesDocuments` says that a statement has a placeholder for each bound value
  and one more for each document that is no truth value.  So it has one for each
  value alone exactly if all documents are truth values.
* `documents_aligned_iff` is the result, for select statements, updates, deletes
  and inserts of the queries that a program of fluent calls builds.
* `document_placeholder_unbound` is a query with a document that is compared
  with.
-/

namespace FluentSql

/-! ## What stands for a document -/

namespace Value

variable {v document : Value} {vs : List Value}

/-- A value stands for a JSON document that is no fragment itself. -/
def StandsFor (v document : Value) : Prop :=
  document.isRaw = false ∧ ∀ s, Ran (jsonFragment document) s v s

/-- A value that may be compared with or stored, or what stands for a document. -/
def AllowedOrDocument (v : Value) : Prop :=
  ValueAllowed v ∨ ∃ document, v.StandsFor document

theorem ran_jsonFragment {s s' : Store} : Ran (jsonFragment document) s v s' ↔
    (∃ w, document.jsonParameter = some w ∧ v = .raw w) ∧ s' = s := by
  unfold jsonFragment
  cases document.jsonParameter with
  | none => simp
  | some w => simp

/-- A truth value is a word, and any other document is a placeholder. -/
theorem StandsFor.word_or_placeholder (h : v.StandsFor document) :
    (∃ b, document = .bool b ∧ v = .raw (.text (if b then "true" else "false"))) ∨
      (∀ b, document ≠ .bool b) ∧ v = .raw (.text "?") := by
  obtain ⟨hraw, hran⟩ := h
  obtain ⟨⟨w, hw, rfl⟩, _⟩ := ran_jsonFragment.1 (hran (.ofQueries #[]))
  cases document with
  | raw u => exact nomatch hraw
  | bool b =>
    cases hw
    exact .inl ⟨b, rfl, rfl⟩
  | object handle =>
    cases handle with
    | bindings id =>
      cases hw
      exact .inr ⟨fun _ hb => (nomatch hb), rfl⟩
    | _ => exact nomatch hw
  | null | int _ | double _ | text _ | list _ | tuple _ | map _ =>
    cases hw
    exact .inr ⟨fun _ hb => (nomatch hb), rfl⟩
  | _ => exact nomatch hw

theorem StandsFor.stored (h : v.StandsFor document) : v.Stored := by
  obtain ⟨b, rfl, rfl⟩ | ⟨_, rfl⟩ := h.word_or_placeholder
  · refine .inl ⟨rfl, fun w hw => ?_⟩
    cases hw
    cases b <;> decide
  · exact .inr rfl

/-- A value is owed for each document that is no truth value. -/
theorem StandsFor.owed_eq_zero_iff (h : v.StandsFor document) :
    v.owed = 0 ↔ ∃ b, document = .bool b := by
  obtain ⟨b, rfl, rfl⟩ | ⟨hother, rfl⟩ := h.word_or_placeholder
  · exact ⟨fun _ => ⟨b, rfl⟩, fun _ => by cases b <;> decide⟩
  · exact ⟨fun hnone => absurd hnone (by decide), fun ⟨b, hb⟩ => absurd hb (hother b)⟩

theorem AllowedOrDocument.stored (h : v.AllowedOrDocument) : v.Stored := by
  obtain h | ⟨document, h⟩ := h
  · exact .inl h
  · exact h.stored

theorem AllowedOrDocument.owed_eq_zero_iff (h : v.AllowedOrDocument) :
    v.owed = 0 ↔ ∀ document, v.StandsFor document → ∃ b, document = .bool b := by
  refine ⟨fun hnone document hdocument => hdocument.owed_eq_zero_iff.1 hnone, fun hall => ?_⟩
  obtain h | ⟨document, h⟩ := h
  · exact h.owed
  · exact h.owed_eq_zero_iff.2 (hall document h)

end Value

/-- A statement with some values among its literals has a placeholder for each bound value, and for
each document among them that is no truth value. -/
structure OwesDocuments (sql : String) (bindings vs : List Value) : Prop where
  counts : marks none sql.toList = bindings.length + (vs.map Value.owed).sum
  aligned_iff : marks none sql.toList = bindings.length ↔
    ∀ v ∈ vs, ∀ document, v.StandsFor document → ∃ b, document = .bool b

theorem OwesDocuments.of_counts {sql : String} {bindings vs : List Value}
    (hvs : ∀ v ∈ vs, v.AllowedOrDocument)
    (h : marks none sql.toList = bindings.length + (vs.map Value.owed).sum) :
    OwesDocuments sql bindings vs := by
  refine ⟨h, ?_⟩
  rw [h, Nat.add_eq_left, List.sum_eq_zero_iff, List.forall_mem_map]
  exact forall₂_congr fun v hv => (hvs v hv).owed_eq_zero_iff

section

variable {g : Grammar} {p : String} {run : Runner} {depth : Nat} {s s1 s2 : Store}
variable {notes : QueryId → Notes} {made : Set QueryId} {t : QueryId} {table : String}
variable {operands : List (BindingGroup × Value)}

/-- Comparisons are conditions, conditions on groups or conditions of joins. -/
theorem Comparisons.groups (h : Comparisons g run t s operands s1) :
    ∀ operand ∈ operands, operand.1 ∈ [.join, .condition, .having] := by
  induction h with
  | start => exact fun _ hin => nomatch hin
  | @call _ _ _ _ call _ _ _ ih =>
    intro operand hin
    rcases List.mem_append.1 hin with hin | hin
    · exact ih operand hin
    · obtain ⟨v, _, rfl⟩ := List.mem_map.1 hin
      unfold FluentCall.operandGroup
      dsimp only
      split <;> decide

/-- Nothing is owed in a group without comparisons. -/
theorem owedIn_eq_zero {group : BindingGroup} (h : ∀ operand ∈ operands, operand.1 ≠ group) :
    owedIn group operands = 0 := by
  refine List.sum_eq_zero fun n hn => ?_
  obtain ⟨operand, hin, rfl⟩ := List.mem_map.1 hn
  exact if_neg (h operand hin)

/-- Of the groups that have no place in an update or a delete, only that of the conditions on groups
has comparisons. -/
theorem Comparisons.unplaced (h : Comparisons g run t s operands s1) {q : Query}
    (hnone : ∀ operand ∈ operands, operand.1 ≠ .having) :
    ∀ group ∈ g.unplaced q, owedIn group operands = 0 := by
  intro group hgroup
  refine owedIn_eq_zero fun operand hin hsame => ?_
  subst hsame
  have hplaced : operand.1 ∉ [BindingGroup.grouping, .order, .union, .unionOrder] := by
    have hin := h.groups operand hin
    revert hin
    cases operand.1 <;> decide
  unfold Grammar.unplaced at hgroup
  have hother := hnone operand hin
  split at hgroup <;> simp_all

/-- The comparisons of a program, after it has built a query. -/
theorem Comparisons.owed (hg : g.Compiles p) (hempty : s.queries = #[])
    (hconnections : ∀ c, ∃ id, (s.connection c).grammar = .grammar id)
    (h : Builds g run (run.Building g depth) ∅ none s made s1) (ht : t ∈ made)
    (hfree : s1.Unattached t) (hrun : Comparisons g run t s1 operands s2)
    (hoperands : ∀ operand ∈ operands, operand.2.AllowedOrDocument) :
    ∃ b notes, Owed g s2 t operands b notes ∧ (notes t).whole = true := by
  obtain ⟨notes, hnoted, hstands, hwhole, hplain⟩ := h.noted hg hempty hconnections ht
  have hready : Ready g p run ⟨∅, ∅⟩ s1 notes t :=
    { compiles := hg
      noted := hnoted
      there := hstands.1
      loose := hfree.loose
      plain := hplain
      grammar := (hnoted.queries t hstands).grammar
      offered := fun id hid => nomatch hid
      callbacks := fun callback hin => nomatch hin }
  obtain ⟨b, notes', hlater, howed⟩ :=
    hrun.owe hready hstands fun operand hin => (hoperands operand hin).stored.closes
  exact ⟨b, notes', howed, (hlater.kept t hstands.1).whole.trans hwhole⟩

/-- A program of fluent calls builds a query, and then compares columns with values, some of which are
JSON documents.  Its statements have one placeholder for each bound value exactly if all of these
documents, and all that an update or an insert stores, are truth values. -/
theorem documents_aligned_iff (hg : g.Compiles p) (hempty : s.queries = #[])
    (hconnections : ∀ c, ∃ id, (s.connection c).grammar = .grammar id)
    (h : Builds g run (run.Building g depth) ∅ none s made s1) (ht : t ∈ made)
    (hfree : s1.Unattached t) (hrun : Comparisons g run t s1 operands s2)
    (hoperands : ∀ operand ∈ operands, operand.2.AllowedOrDocument) :
    (∀ sub s3, Ran (t.asSub run) s2 sub s3 →
      OwesDocuments sub.sql sub.bindings (operands.map Prod.snd)) ∧
    ∀ table, (s2.query t).OnTable g table →
      (g.Places (s2.query t) →
        ((g.addressColumn? (s2.query t)).isSome ∨ ∀ operand ∈ operands, operand.1 ≠ .having) →
        (∀ entries : List (Value × Value),
          (∀ entry ∈ entries, ColumnHolds g entry.1 [] ∧ entry.2.AllowedOrDocument) →
          ∀ statement s3, Ran (t.toUpdateSql run (.map entries)) s2 statement s3 →
            OwesDocuments statement.sql statement.bindings
              (operands.map Prod.snd ++ entries.map Prod.snd)) ∧
        ∀ statement s3, Ran (t.toDeleteSql run .null) s2 statement s3 →
          OwesDocuments statement.sql statement.bindings (operands.map Prod.snd)) ∧
      ∀ columns records rows sequence, s2.Tabulates columns records rows →
        (∀ c ∈ columns, NameFree g c) → (∀ row ∈ rows, ∀ v ∈ row, v.AllowedOrDocument) →
        (sequence = .null ∨ ColumnHolds g sequence []) →
        ∀ outcome ∈ t.inserts run (.list records) sequence s2,
          ∀ statement, outcome.1 = .ok statement →
            OwesDocuments statement.sql statement.bindings rows.flatten := by
  obtain ⟨b, notes, howed, hwhole⟩ := hrun.owed hg hempty hconnections h ht hfree hoperands
  have hcompared : ∀ v ∈ operands.map Prod.snd, v.AllowedOrDocument := List.forall_mem_map.2 hoperands
  have hsum : ((operands.map Prod.snd).map Value.owed).sum = (operands.map (·.2.owed)).sum := by
    rw [List.map_map]
    rfl
  have hselect : owedIn .select operands = 0 := owedIn_eq_zero fun operand hin hgroup => by
    have hgroups := hrun.groups operand hin
    rw [hgroup] at hgroups
    exact absurd hgroups (by decide)
  refine ⟨fun sub s3 hran => .of_counts hcompared ?_, fun table htable =>
    ⟨fun hplaces hhaving => ?_, ?_⟩⟩
  · rw [hsum]
    exact howed.asSub hg hwhole hran
  · have hunplaced := hhaving.imp_right (hrun.unplaced (g := g) (q := s2.query t))
    refine ⟨fun entries hentries statement s3 hran => .of_counts ?_ ?_,
      fun statement s3 hran => .of_counts hcompared ?_⟩
    · intro v hv
      rcases List.mem_append.1 hv with hv | hv
      · exact hcompared v hv
      · obtain ⟨entry, hentry, rfl⟩ := List.mem_map.1 hv
        exact (hentries entry hentry).2
    · have hstored : AssignsStored g entries := fun entry hentry =>
        ⟨(hentries entry hentry).1, (hentries entry hentry).2.stored⟩
      have hassigned : ((entries.map Prod.snd).map Value.owed).sum =
          (entries.map (·.2.owed)).sum := by
        rw [List.map_map]
        rfl
      rw [List.map_append, List.sum_append, hsum, hassigned, ← Nat.add_assoc]
      exact howed.toUpdateSql hg hwhole htable.changes hplaces hunplaced hselect hstored hran
    · have hrows : Ran (t.deleteRows run) s2 statement s3 := hran
      rw [hsum]
      exact howed.deleteRows hg hwhole htable.changes hplaces hunplaced hselect htable.outside hrows
  · intro columns records rows sequence htabulates hcolumns hrows hsequence outcome houtcome
      statement hstatement
    obtain ⟨id, hgrammar, _, hid⟩ := howed.grammar
    refine .of_counts (fun v hv => ?_) (QueryId.inserts_owe hg (howed.table hwhole htable.source)
      hcolumns (fun row hrow v hv => (hrows row hrow v hv).stored.closes) hgrammar hid
      (Store.settled_source htable.source) htabulates hsequence outcome houtcome statement
      hstatement)
    obtain ⟨row, hrow, hv⟩ := List.mem_flatten.1 hv
    exact hrows row hrow v hv

end

/-! ## A document in a program -/

theorem Value.standsFor_five : (Value.raw (.text "?")).StandsFor (.int 5) :=
  ⟨rfl, fun _ => rfl⟩

namespace OrdersProgram

/-- The limited query after a comparison with a document. -/
def compared : Query :=
  { limited with
    wheres := limited.wheres ++ [⟨.text "and", .basic (.text "total") "=" (.raw (.text "?"))⟩] }

/-- The comparison, as a run of its own. -/
theorem comparisons : Comparisons { dialect := .sqlite } run ⟨0⟩ (.ofQueries #[limited, group])
    [(.condition, .raw (.text "?"))] (.ofQueries #[compared, group]) := by
  have hcolumns : ConditionColumns { dialect := .sqlite } (.text "total") (.text "and") :=
    .single rfl ⟨rfl, rfl, fun h => nomatch h⟩ ⟨rfl, by decide⟩
  have hcall : (FluentCall.where (.text "total") (some (.raw (.text "?"))) none (.text "and")).Compares
      { dialect := .sqlite } := hcolumns
  exact .call .start hcall rfl

end OrdersProgram

open OrdersProgram in
/-- A document is compared with and another one is stored: the update has four placeholders and two
bound values. -/
theorem documents_aligned_iff_orders :
    ∃ statement s3, Ran (QueryId.toUpdateSql run ⟨0⟩ (.map [(.text "total", .raw (.text "?"))]))
        (.ofQueries #[compared, group]) statement s3 ∧
      statement.sql = "update \"orders\" set \"total\" = ? where \"rowid\" in (select " ++
        "\"orders\".\"rowid\" from \"orders\" where (total > ?) and \"total\" = ? " ++
        "order by rank = ? limit 3)" ∧
      statement.bindings.map Value.display = ["7", "5"] ∧
      OwesDocuments statement.sql statement.bindings [.raw (.text "?"), .raw (.text "?")] := by
  have hevaluated : (((QueryId.toUpdateSql run ⟨0⟩
      (.map [(.text "total", .raw (.text "?"))])).run.run
      (.ofQueries #[compared, group])).1.toOption.map fun statement =>
        (statement.sql, statement.bindings.map Value.display)) =
      some ("update \"orders\" set \"total\" = ? where \"rowid\" in (select " ++
        "\"orders\".\"rowid\" from \"orders\" where (total > ?) and \"total\" = ? " ++
        "order by rank = ? limit 3)", ["7", "5"]) := by
    decide +kernel
  obtain ⟨statement, s3, hran, hresult⟩ := exists_ran hevaluated
  obtain ⟨hsql, hbindings⟩ := Prod.mk.inj hresult
  have hdocument : (Value.raw (.text "?")).AllowedOrDocument := .inr ⟨_, Value.standsFor_five⟩
  have hentries : ∀ entry ∈ [(Value.text "total", Value.raw (.text "?"))],
      ColumnHolds { dialect := .sqlite } entry.1 [] ∧ entry.2.AllowedOrDocument := by
    intro entry hentry
    rw [List.mem_singleton.1 hentry]
    exact ⟨⟨rfl, rfl, fun h => nomatch h⟩, hdocument⟩
  have haligned := documents_aligned_iff grammar_compiles rfl (fun _ => ⟨⟨0⟩, rfl⟩) builds_limited
    (Set.mem_insert _ _) (unattached (by decide)) comparisons
    (List.forall_mem_singleton.2 hdocument)
  exact ⟨statement, s3, hran, hsql, hbindings,
    ((haligned.2 "orders" (onTable rfl)).1 (.inl rfl) (.inl rfl)).1 _ hentries statement s3 hran⟩

/-- A comparison with a document that is a number: the statement has a placeholder, and nothing is
bound for it. -/
theorem document_placeholder_unbound :
    ∃ v, v.StandsFor (.int 5) ∧ ∃ sub s1,
      Ran (do
        QueryId.where Runner.idle ⟨0⟩ (.text "total") (some v) none (.text "and")
        QueryId.asSub Runner.idle ⟨0⟩) (Store.ofTable "orders") sub s1 ∧
      marks none sub.sql.toList = 1 ∧ sub.bindings.length = 0 := by
  have hevaluated : (((do
      QueryId.where Runner.idle ⟨0⟩ (.text "total") (some (.raw (.text "?"))) none (.text "and")
      QueryId.asSub Runner.idle ⟨0⟩ : Action SubQuery).run.run
        (Store.ofTable "orders")).1.toOption.map fun sub =>
          (marks none sub.sql.toList, sub.bindings.length)) = some (1, 0) := by
    decide +kernel
  obtain ⟨sub, s1, hran, hresult⟩ := exists_ran hevaluated
  obtain ⟨hmarks, hlength⟩ := Prod.mk.inj hresult
  exact ⟨_, Value.standsFor_five, sub, s1, hran, hmarks, hlength⟩

end FluentSql
