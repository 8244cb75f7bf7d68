import FluentSql.Compile.Statement
import FluentSql.Proofs.Asking
import FluentSql.Proofs.Filling

/-!
# Where conditions stand

The conditions of a query are a part of its select statement and of its
delete.  What is made of them is joined, trimmed and put into further
statements, and stays in one piece.

* `StandsIn` says that a condition stands in a statement, but for blanks at its
  end.
* `StandsIn.append`, `StandsIn.after`, `StandsIn.trim` and `stands_spaced` say
  what it survives.
* `components_ok` takes a select statement apart, and `selectSql_listed` leads to
  the query whose select list it has.
* `selectSql_stands` and `deleteSql_stands` are the two statements.
-/

namespace FluentSql

/-! ## Conditions in statements -/

/-- A condition stands in a statement, perhaps without blanks at its end. -/
def StandsIn (condition sql : String) : Prop :=
  (Text.trimRight condition).toList <:+: sql.toList

/-- A text that starts with no blank. -/
def Opens (text : String) : Prop :=
  ∃ c rest, text.toList = c :: rest ∧ Text.isBlank c = false

section

variable {a b condition sql : String}

theorem toList_trimRight (s : String) :
    (Text.trimRight s).toList = (Text.dropBlanks s.toList.reverse).reverse :=
  String.toList_ofList

/-- What trimming leaves is at the front of the text. -/
theorem trimRight_front (s : String) : (Text.trimRight s).toList <+: s.toList := by
  rw [toList_trimRight, ← List.reverse_suffix, List.reverse_reverse]
  exact List.dropWhile_suffix _

theorem stands_self (condition : String) : StandsIn condition condition :=
  (trimRight_front condition).isInfix

theorem StandsIn.append (h : StandsIn condition sql) (b : String) : StandsIn condition (sql ++ b) := by
  unfold StandsIn
  rw [String.toList_append]
  exact h.trans (List.prefix_append _ _).isInfix

theorem StandsIn.after (h : StandsIn condition sql) (a : String) : StandsIn condition (a ++ sql) := by
  unfold StandsIn
  rw [String.toList_append]
  exact h.trans (List.suffix_append _ _).isInfix

/-- A text that stands between others keeps standing there when these are trimmed at the front, as it
starts with no blank itself. -/
theorem dropBlanks_append {c : Char} (hc : Text.isBlank c = false) (before rest : List Char) :
    ∃ before', Text.dropBlanks (before ++ c :: rest) = before' ++ c :: rest := by
  induction before with
  | nil => exact ⟨[], List.dropWhile_cons_of_neg (by rw [hc]; exact Bool.false_ne_true)⟩
  | cons b before ih =>
    cases hb : Text.isBlank b with
    | true =>
      obtain ⟨before', hbefore⟩ := ih
      exact ⟨before', (List.dropWhile_cons_of_pos hb).trans hbefore⟩
    | false =>
      exact ⟨b :: before, List.dropWhile_cons_of_neg (by rw [hb]; exact Bool.false_ne_true)⟩

/-- A text that starts with no blank is not trimmed away at the end, nor is anything before it. -/
theorem opens_trimRight (hopens : Opens condition) : Opens (Text.trimRight condition) := by
  obtain ⟨c, rest, hcondition, hc⟩ := hopens
  obtain ⟨before, hbefore⟩ := dropBlanks_append hc rest.reverse []
  refine ⟨c, before.reverse, ?_, hc⟩
  rw [toList_trimRight, hcondition, List.reverse_cons, hbefore, List.reverse_append]
  rfl

theorem StandsIn.trimLeft (hopens : Opens condition) (h : StandsIn condition sql) :
    StandsIn condition (Text.trimLeft sql) := by
  obtain ⟨c, rest, hcondition, hc⟩ := opens_trimRight hopens
  obtain ⟨before, after, hsql⟩ := h
  obtain ⟨before', hbefore⟩ := dropBlanks_append hc before (rest ++ after)
  refine ⟨before', after, ?_⟩
  rw [Text.trimLeft, String.toList_ofList, ← hsql, hcondition]
  simp only [List.append_assoc, List.cons_append, hbefore]

theorem StandsIn.trimRight (hopens : Opens condition) (h : StandsIn condition sql) :
    StandsIn condition (Text.trimRight sql) := by
  obtain ⟨c, rest, hcondition, hc⟩ := opens_trimRight hopens
  -- Read from the end, what is left of the condition starts with no blank either.
  have hend : ∃ d more, (Text.trimRight condition).toList.reverse = d :: more ∧
      Text.isBlank d = false := by
    have hne : condition.toList.reverse.dropWhile Text.isBlank ≠ [] := by
      intro hnil
      rw [toList_trimRight, Text.dropBlanks, hnil] at hcondition
      cases hcondition
    refine ⟨_, (condition.toList.reverse.dropWhile Text.isBlank).tail, ?_,
      List.head_dropWhile_not Text.isBlank hne⟩
    rw [toList_trimRight, List.reverse_reverse]
    exact (List.cons_head_tail hne).symm
  obtain ⟨d, more, hreverse, hd⟩ := hend
  obtain ⟨before, after, hsql⟩ := h
  obtain ⟨after', hafter⟩ := dropBlanks_append hd after.reverse (more ++ before.reverse)
  refine ⟨before, after'.reverse, ?_⟩
  rw [toList_trimRight sql, ← hsql, List.reverse_append, List.reverse_append, hreverse,
    List.cons_append, hafter, ← List.cons_append, ← hreverse, List.reverse_append,
    List.reverse_append, List.reverse_reverse, List.reverse_reverse]

theorem StandsIn.trim (hopens : Opens condition) (h : StandsIn condition sql) :
    StandsIn condition (Text.trim sql) := by
  rw [trim_eq]
  exact (h.trimLeft hopens).trimRight hopens

/-- A fragment stands in what is joined from it. -/
theorem stands_joinWith {separator : String} {fragments : List String} (h : condition ∈ fragments) :
    StandsIn condition (joinWith separator fragments) := by
  induction fragments with
  | nil => exact nomatch h
  | cons first rest ih =>
    cases rest with
    | nil =>
      rw [List.mem_singleton.1 h]
      exact stands_self first
    | cons second rest =>
      rcases List.mem_cons.1 h with rfl | h
      · exact ((stands_self condition).append _).append _
      · exact (ih h).after _

theorem stands_spaced {fragments : List String} (hopens : Opens condition)
    (h : condition ∈ fragments) : StandsIn condition (spaced fragments) := by
  refine stands_joinWith (List.mem_filter.2 ⟨h, ?_⟩)
  obtain ⟨c, rest, hcondition, _⟩ := hopens
  cases hempty : condition.isEmpty with
  | false => rfl
  | true =>
    rw [String.isEmpty_iff.1 hempty] at hcondition
    exact nomatch hcondition

end

section

variable {g : Grammar} {attached : Attached} {q : Query} {sql condition : String}

theorem opens_wheresSql (h : g.wheresSql attached q = .ok condition) (hne : q.wheres ≠ []) :
    Opens condition := by
  unfold Grammar.wheresSql at h
  rw [if_neg fun hempty => hne (List.isEmpty_iff.1 hempty)] at h
  obtain ⟨text, _, h⟩ := Name.bind_eq_ok h
  obtain rfl := Except.ok.inj h
  have hkeyword : Opens q.keyword := by
    unfold Query.keyword
    split
    · exact ⟨'o', ['n'], rfl, by decide⟩
    · exact ⟨'w', ['h', 'e', 'r', 'e'], rfl, by decide⟩
  obtain ⟨c, rest, hword, hc⟩ := hkeyword
  refine ⟨c, rest ++ " ".toList ++ text.toList, ?_, hc⟩
  rw [String.toList_append, String.toList_append, hword]
  rfl

/-- A component that starts with no blank stands in the select statement that is made of it. -/
theorem plainSelectSql_component (h : g.plainSelectSql attached q = .ok sql)
    (hopens : Opens condition)
    (hmem : ∀ fragments, g.components attached q = .ok fragments → condition ∈ fragments) :
    StandsIn condition sql := by
  obtain ⟨fragments, hfragments, h⟩ := Name.bind_eq_ok h
  have hselect : StandsIn condition (Text.trim (spaced fragments)) :=
    (stands_spaced hopens (hmem fragments hfragments)).trim hopens
  dsimp only at h
  split at h
  · obtain ⟨unions, _, h⟩ := Name.bind_eq_ok h
    obtain rfl := Except.ok.inj h
    exact ((hselect.after _).append _).append _
  · obtain rfl := Except.ok.inj h
    exact hselect

/-- The query with its own select list: an aggregate over a union selects from the rows of the
union. -/
def Query.listed (q : Query) : Query :=
  if q.isUnion then { q with aggregate := none } else q

/-- The query with its own select list is written in its select statement. -/
theorem selectSql_listed (h : g.selectSql attached q = .ok sql) :
    ∃ before inner after, g.plainSelectSql attached q.listed = .ok inner ∧
      sql = before ++ inner ++ after := by
  have hwhole : ∀ q' : Query, q' = q.listed → g.plainSelectSql attached q' = .ok sql →
      ∃ before inner after, g.plainSelectSql attached q.listed = .ok inner ∧
        sql = before ++ inner ++ after :=
    fun q' hsame hq' => ⟨"", sql, "", hsame ▸ hq', by rw [String.append_empty, String.empty_append]⟩
  unfold Grammar.selectSql at h
  split at h
  · split at h
    · rename_i hunion
      obtain ⟨head, _, h⟩ := Name.bind_eq_ok h
      obtain ⟨inner, hinner, h⟩ := Name.bind_eq_ok h
      obtain ⟨name, _, h⟩ := Name.bind_eq_ok h
      obtain rfl := Except.ok.inj h
      refine ⟨head ++ " from (", inner, ") as " ++ name, ?_, by simp only [String.append_assoc]⟩
      rw [Query.listed, if_pos hunion]
      exact hinner
    · rename_i hunion
      exact hwhole q (if_neg hunion).symm h
  · rename_i hnone
    refine hwhole q ?_ h
    rw [Query.listed, ← hnone, ite_self]

/-- The components that there are. -/
theorem components_ok {fragments : List String} (h : g.components attached q = .ok fragments) :
    ∃ aggregate columns source joins wheres groups havings orders limit offset unions lock,
      fragments = [aggregate, columns, source, joins, wheres, groups, havings, orders, limit, offset,
        unions, lock] ∧
      q.aggregate.elim (.ok "") (g.aggregateSql q.distinct) = .ok aggregate ∧
      g.selectList q = .ok columns ∧ g.sourceSql q.source = .ok source ∧
      g.wheresSql attached q = .ok wheres ∧
      q.limit.elim (.ok "") Grammar.limitSql = .ok limit := by
  rw [Grammar.components_eq] at h
  obtain ⟨_, haggregate, h⟩ := Name.bind_eq_ok h
  obtain ⟨_, hcolumns, h⟩ := Name.bind_eq_ok h
  obtain ⟨_, hsource, h⟩ := Name.bind_eq_ok h
  obtain ⟨_, _, h⟩ := Name.bind_eq_ok h
  obtain ⟨_, hwheres, h⟩ := Name.bind_eq_ok h
  obtain ⟨_, _, h⟩ := Name.bind_eq_ok h
  obtain ⟨_, _, h⟩ := Name.bind_eq_ok h
  obtain ⟨_, _, h⟩ := Name.bind_eq_ok h
  obtain ⟨_, hlimit, h⟩ := Name.bind_eq_ok h
  obtain ⟨_, _, h⟩ := Name.bind_eq_ok h
  obtain ⟨_, _, h⟩ := Name.bind_eq_ok h
  obtain rfl := Except.ok.inj h
  exact ⟨_, _, _, _, _, _, _, _, _, _, _, _, rfl, haggregate, hcolumns, hsource, hwheres, hlimit⟩

/-- The conditions of a query stand in its select statement. -/
theorem selectSql_stands (h : g.selectSql attached q = .ok sql) (hne : q.wheres ≠ []) :
    ∃ condition, g.wheresSql attached q = .ok condition ∧ StandsIn condition sql := by
  obtain ⟨before, inner, after, hinner, rfl⟩ := selectSql_listed h
  have hsame : g.wheresSql attached q.listed = g.wheresSql attached q := by
    rw [Query.listed]
    split <;> rfl
  obtain ⟨fragments, hfragments, _⟩ := Name.bind_eq_ok hinner
  obtain ⟨_, _, _, _, condition, _, _, _, _, _, _, _, hlist, _, _, _, hcondition, _⟩ :=
    components_ok hfragments
  rw [hsame] at hcondition
  refine ⟨condition, hcondition, .append (.after ?_ before) after⟩
  refine plainSelectSql_component hinner (opens_wheresSql hcondition hne) fun others hothers => ?_
  rw [← Except.ok.inj (hfragments.symm.trans hothers), hlist]
  simp

theorem changeTail_stands {text : String} (hopens : Opens condition) (h : StandsIn condition text)
    (hsql : g.changeTail q text = .ok sql) : StandsIn condition sql := by
  unfold Grammar.changeTail at hsql
  split at hsql
  · obtain ⟨orders, _, hsql⟩ := Name.bind_eq_ok hsql
    obtain ⟨limit, _, hsql⟩ := Name.bind_eq_ok hsql
    obtain rfl := Except.ok.inj hsql
    exact ((h.trimRight hopens).append _).append _
  · obtain rfl := Except.ok.inj hsql
    exact h

/-- The conditions of a query stand in its delete, also where the rows are selected by their
address. -/
theorem deleteSql_stands (h : g.deleteSql attached q = .ok sql) (hne : q.wheres ≠ []) :
    ∃ condition, g.wheresSql attached q = .ok condition ∧ StandsIn condition sql := by
  unfold Grammar.deleteSql at h
  obtain ⟨table, _, h⟩ := Name.bind_eq_ok h
  dsimp only at h
  split at h
  · rename_i address _
    obtain ⟨text, htext, h⟩ := Name.bind_eq_ok h
    obtain rfl := Except.ok.inj h
    unfold Grammar.addressCondition at htext
    dsimp only at htext
    split at htext
    · exact nomatch htext
    · obtain ⟨select, hselect, htext⟩ := Name.bind_eq_ok htext
      obtain ⟨name, _, htext⟩ := Name.bind_eq_ok htext
      obtain rfl := Except.ok.inj htext
      obtain ⟨condition, hcondition, hstands⟩ := selectSql_stands hselect hne
      exact ⟨condition, hcondition, ((hstands.after _).append _).after _⟩
  · obtain ⟨condition, hcondition, h⟩ := Name.bind_eq_ok h
    have hopens := opens_wheresSql hcondition hne
    refine ⟨condition, hcondition, ?_⟩
    split at h
    · obtain ⟨text, htext, h⟩ := Name.bind_eq_ok h
      obtain rfl := Except.ok.inj h
      exact (changeTail_stands hopens ((stands_self condition).after _) htext).trim hopens
    · obtain ⟨target, _, h⟩ := Name.bind_eq_ok h
      obtain ⟨joins, _, h⟩ := Name.bind_eq_ok h
      obtain rfl := Except.ok.inj h
      exact ((stands_self condition).after _).trim hopens

end

end FluentSql
