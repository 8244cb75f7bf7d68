import FluentSql.Proofs.Building.Copying
import FluentSql.Proofs.Fetching.Listing

/-!
# Aggregates over a union

An aggregate over a union selects from the union.  It is compiled on a copy,
which keeps the union but loses the ordering that its first select has, unless
there are groups.  The text then is that of the union just if there is no
ordering to lose.  The rows are those of the union just if the select takes all
of its rows anyway: what a limit takes is decided by the ordering.

* `Query.united` is the union that is selected from, and
  `Grammar.aggregateOver` the statement.
* `Grammar.selectSql_united` compares the texts, by the characters that can be
  seen in them.
* `Query.Takes` are the rows that a first select may take, and
  `Query.takes_united_iff` compares them.
* `QueryId.forAggregate_union_iff` is the result.
-/

namespace FluentSql

/-- The union that an aggregate is taken over.  Without groups it loses the ordering of its first
select. -/
def Query.united (q : Query) : Query :=
  let union := { q with aggregate := none }
  if q.groups.isEmpty then union.unordered else union

/-- An aggregate over the rows of a select. -/
def Grammar.aggregateOver (g : Grammar) (distinct : Bool) (a : Aggregate)
    (select : Except Failure String) : Except Failure String := do
  let head ← g.aggregateSql distinct a
  let inner ← select
  let name ← g.wrappedTable (.text "temp_table")
  return head ++ " from (" ++ inner ++ ") as " ++ name

/-! ## The copy -/

namespace Query

theorem adjusts_unlist : Adjusts ({ · with columns := none }) where
  handles q := handles_subset q.limit (fun _ hv => hv) (.inl rfl)
    (.inr fun _ hv => absurd hv List.not_mem_nil) (List.Subset.refl _)
  rename _ _ := rfl
  kind _ := rfl
  connection _ := rfl
  grammar _ := rfl
  data _ h := h

theorem adjusts_unorder : Adjusts ({ · with orders := [] }) where
  handles q := handles_subset q.limit (fun _ hv => hv) (.inl rfl) (.inl rfl) (List.nil_subset _)
  rename _ _ := rfl
  kind _ := rfl
  connection _ := rfl
  grammar _ := rfl
  data _ h := h

theorem adjusts_aggregate {a : Aggregate} (hfunction : a.function.handles = [])
    (hcolumns : ∀ v ∈ a.columns, v.handles = []) : Adjusts ({ · with aggregate := some a }) where
  handles q := by
    refine handles_subset q.limit (fun _ hv => hv) (.inr fun b hb => ?_) (.inl rfl)
      (List.Subset.refl _)
    cases Option.mem_some.1 hb
    exact ⟨hfunction, hcolumns⟩
  rename q r := by
    unfold rename
    dsimp only [Option.map_some]
    rw [r.value_data hfunction, r.values_data hcolumns]
  kind _ := rfl
  connection _ := rfl
  grammar _ := rfl
  data _ h := h

theorem adjusts_aggregated {a : Aggregate} (hfunction : a.function.handles = [])
    (hcolumns : ∀ v ∈ a.columns, v.handles = []) : Adjusts (aggregated a) := by
  have hunlisted : Adjusts unlisted :=
    .ite (p := isUnion) isUnion_rename .same ((adjusts_rebind .select).comp adjusts_unlist)
  have hunordered : Adjusts fun q => if q.groups.isEmpty then q.unordered else q :=
    .ite (p := fun q => q.groups.isEmpty) (fun _ _ => List.isEmpty_map)
      ((adjusts_rebind .order).comp adjusts_unorder) .same
  exact (hunlisted.comp (adjusts_aggregate hfunction hcolumns)).comp hunordered

theorem aggregated_of_isUnion {q : Query} (h : q.isUnion = true) (a : Aggregate) :
    q.aggregated a = { q.united with aggregate := some a } := by
  unfold aggregated unlisted united
  rw [if_pos h]
  dsimp only
  split <;> rfl

theorem isUnion_united (q : Query) : q.united.isUnion = q.isUnion := by
  unfold united
  dsimp only
  split <;> rfl

theorem aggregate_united (q : Query) : q.united.aggregate = none := by
  unfold united
  dsimp only
  split <;> rfl

theorem distinct_united (q : Query) : q.united.distinct = q.distinct := by
  unfold united
  dsimp only
  split <;> rfl

end Query

section

variable {g : Grammar} {attached : Attached} {q : Query} {sql : String}

theorem Grammar.selectSql_plain (h : q.aggregate = none) :
    g.selectSql attached q = g.plainSelectSql attached q := by
  unfold selectSql
  rw [h]

/-- An aggregate over a union selects from the union. -/
theorem Grammar.selectSql_of_isUnion (h : q.isUnion = true) {a : Aggregate}
    (ha : q.aggregate = some a) : g.selectSql attached q =
      g.aggregateOver q.distinct a (g.plainSelectSql attached { q with aggregate := none }) := by
  unfold selectSql
  rw [ha]
  exact if_pos h

theorem Grammar.selectSql_aggregated_union (h : q.isUnion = true) (a : Aggregate) :
    g.selectSql attached (q.aggregated a) =
      g.aggregateOver q.distinct a (g.selectSql attached q.united) := by
  have hover : g.selectSql attached { q.united with aggregate := some a } =
      g.aggregateOver q.united.distinct a
        (g.plainSelectSql attached { q.united with aggregate := none }) :=
    selectSql_of_isUnion (q := { q.united with aggregate := some a }) (q.isUnion_united.trans h) rfl
  have hsame : { q.united with aggregate := none } = q.united := by
    rw [← q.aggregate_united]
  rw [q.aggregated_of_isUnion h, hover, hsame, q.distinct_united,
    selectSql_plain q.aggregate_united]

/-! ## Texts -/

/-- The number of characters of a text that can be seen. -/
def Text.ink (s : String) : Nat :=
  s.toList.countP fun c => !isBlank c

theorem Text.ink_append (a b : String) : ink (a ++ b) = ink a + ink b := by
  unfold ink
  rw [String.toList_append, List.countP_append]

theorem Text.countP_dropBlanks (cs : List Char) :
    (dropBlanks cs).countP (fun c => !isBlank c) = cs.countP fun c => !isBlank c := by
  have hfront : (cs.takeWhile isBlank).countP (fun c => !isBlank c) = 0 :=
    List.countP_eq_zero.2 fun c hc => by rw [List.mem_takeWhile_imp hc]; exact Bool.false_ne_true
  conv_rhs => rw [← List.takeWhile_append_dropWhile (p := isBlank) (l := cs), List.countP_append,
    hfront, Nat.zero_add]
  rfl

/-- Trimming takes only what cannot be seen. -/
theorem Text.ink_trim (s : String) : ink (trim s) = ink s := by
  unfold ink trim
  rw [String.toList_ofList, List.countP_reverse, countP_dropBlanks, List.countP_reverse,
    countP_dropBlanks]

theorem Text.ink_joinWith (fragments : List String) :
    ink (joinWith " " fragments) = (fragments.map ink).sum := by
  have hspace : ink " " = 0 := by decide
  induction fragments with
  | nil => rfl
  | cons first rest ih =>
    rw [List.map_cons, List.sum_cons, ← ih]
    cases rest with
    | nil => rfl
    | cons second rest =>
      rw [joinWith, ink_append, ink_append, hspace, Nat.add_zero]
      rintro ⟨⟩

theorem Text.ink_spaced (fragments : List String) :
    ink (spaced fragments) = (fragments.map ink).sum := by
  unfold spaced
  rw [ink_joinWith]
  induction fragments with
  | nil => rfl
  | cons first rest ih =>
    by_cases hempty : first.isEmpty
    · rw [List.filter_cons_of_neg (by simp [hempty]), ih, String.isEmpty_iff.1 hempty]
      exact (Nat.zero_add _).symm
    · rw [List.filter_cons_of_pos (by simpa using hempty), List.map_cons, List.map_cons,
        List.sum_cons, List.sum_cons, ih]

theorem Text.ink_pos (h : Visible sql) : 0 < ink sql := by
  obtain ⟨c, hc, hblank⟩ := h
  exact List.countP_pos_iff.2 ⟨c, hc, by rw [hblank]; rfl⟩

/-- An ordering is one of the components of a statement. -/
theorem Grammar.components_unordered {fragments : List String}
    (h : g.components attached q = .ok fragments) : ∃ before orders after,
      fragments = before ++ orders :: after ∧
      g.components attached q.unordered = .ok (before ++ "" :: after) ∧
      ifAny q.orders (g.ordersSql q.orders) = .ok orders := by
  have hsame : g.components attached q.unordered = (do
      let aggregate ← q.aggregate.elim (.ok "") (g.aggregateSql q.distinct)
      let columns ← g.selectList q
      let source ← g.sourceSql q.source
      let joins ← ifAny q.joins (joinsSql attached q.joins)
      let wheres ← g.wheresSql attached q
      let groups ← ifAny q.groups ((g.columnize q.groups).map ("group by " ++ ·))
      let havings ← ifAny q.havings (g.havingsSql q.havings)
      let limit ← q.limit.elim (.ok "") limitSql
      let offset ← q.offset.elim (.ok "") offsetSql
      let unions ← g.unionComponent attached q
      return [aggregate, columns, source, joins, wheres, groups, havings, "", limit, offset,
        unions, if q.lock.isPresent then g.lockSql q.lock else ""]) := components_eq _ _ _
  rw [components_eq] at h
  obtain ⟨aggregate, haggregate, h⟩ := Name.bind_eq_ok h
  obtain ⟨columns, hcolumns, h⟩ := Name.bind_eq_ok h
  obtain ⟨source, hsource, h⟩ := Name.bind_eq_ok h
  obtain ⟨joins, hjoins, h⟩ := Name.bind_eq_ok h
  obtain ⟨wheres, hwheres, h⟩ := Name.bind_eq_ok h
  obtain ⟨groups, hgroups, h⟩ := Name.bind_eq_ok h
  obtain ⟨havings, hhavings, h⟩ := Name.bind_eq_ok h
  obtain ⟨orders, horders, h⟩ := Name.bind_eq_ok h
  obtain ⟨limit, hlimit, h⟩ := Name.bind_eq_ok h
  obtain ⟨offset, hoffset, h⟩ := Name.bind_eq_ok h
  obtain ⟨unions, hunions, h⟩ := Name.bind_eq_ok h
  obtain rfl := Except.ok.inj h
  refine ⟨[aggregate, columns, source, joins, wheres, groups, havings], orders, _, rfl, ?_, horders⟩
  rw [hsame, haggregate, hcolumns, hsource, hjoins, hwheres, hgroups, hhavings, hlimit, hoffset,
    hunions]
  rfl

/-- Without its ordering a statement is compiled if it is compiled with it.  Less of it can be seen
then, unless there was none. -/
theorem Grammar.plainSelectSql_unordered (h : g.plainSelectSql attached q = .ok sql) :
    ∃ unordered, g.plainSelectSql attached q.unordered = .ok unordered ∧
      (q.orders = [] → unordered = sql) ∧
      (q.orders ≠ [] → Text.ink unordered < Text.ink sql) := by
  obtain ⟨fragments, hfragments, h⟩ := Name.bind_eq_ok h
  obtain ⟨before, orders, after, rfl, hunordered, horders⟩ := components_unordered hfragments
  have hnone : q.orders = [] → orders = "" := by
    intro hnil
    rw [hnil] at horders
    exact (Except.ok.inj horders).symm
  have hless : q.orders ≠ [] → Text.ink (Text.trim (spaced (before ++ "" :: after))) <
      Text.ink (Text.trim (spaced (before ++ orders :: after))) := by
    intro hsome
    have hvisible : 0 < Text.ink orders := by
      rw [ifAny, if_neg (by rw [List.isEmpty_iff]; exact hsome)] at horders
      obtain ⟨fragments, _, horders⟩ := Name.bind_eq_ok horders
      obtain ⟨list, _, horders⟩ := Name.bind_eq_ok horders
      obtain rfl := Except.ok.inj horders
      exact Text.ink_pos (Visible.append ⟨'o', List.mem_cons_self, by decide⟩ list)
    simp only [Text.ink_trim, Text.ink_spaced, List.map_append, List.map_cons, List.sum_append,
      List.sum_cons]
    exact Nat.add_lt_add_left (Nat.add_lt_add_right hvisible _) _
  have hunions : g.unionsSql attached q.unordered = g.unionsSql attached q := rfl
  unfold plainSelectSql
  rw [hunordered]
  dsimp only at h
  split at h
  · rename_i hmysql
    obtain ⟨unions, heq, h⟩ := Name.bind_eq_ok h
    obtain rfl := Except.ok.inj h
    refine ⟨"(" ++ Text.trim (spaced (before ++ "" :: after)) ++ ") " ++ unions, ?_, fun hnil => ?_,
      fun hsome => ?_⟩
    · exact (if_pos hmysql).trans (by rw [hunions, heq]; rfl)
    · rw [hnone hnil]
    · simp only [Text.ink_append]
      have := hless hsome
      omega
  · rename_i hmysql
    obtain rfl := Except.ok.inj h
    exact ⟨_, if_neg hmysql, fun hnil => by rw [hnone hnil], hless⟩

/-- The union that is selected from is written like the query itself if this has no ordering for its
own rows, or groups; and if it is no aggregate. -/
theorem Grammar.selectSql_united (hunion : q.isUnion = true) (h : g.selectSql attached q = .ok sql) :
    ∃ inner, g.selectSql attached q.united = .ok inner ∧
      (inner = sql ↔ q.aggregate = none ∧ (q.orders = [] ∨ q.groups ≠ [])) := by
  have hplain : ∀ union, g.plainSelectSql attached { q with aggregate := none } = .ok union →
      ∃ inner, g.selectSql attached q.united = .ok inner ∧ Text.ink inner ≤ Text.ink union ∧
        (inner = union ↔ q.orders = [] ∨ q.groups ≠ []) := by
    intro union hsql
    rw [selectSql_plain q.aggregate_united]
    unfold Query.united
    dsimp only
    split
    · rename_i hgroups
      obtain ⟨inner, hinner, hnone, hless⟩ := plainSelectSql_unordered hsql
      have hno : ¬q.groups ≠ [] := not_not.2 (List.isEmpty_iff.1 hgroups)
      refine ⟨inner, hinner, ?_, fun heq => ?_, fun hor => hnone (hor.resolve_right hno)⟩
      · by_cases hnil : q.orders = []
        · rw [hnone hnil]
        · exact Nat.le_of_lt (hless hnil)
      · by_contra hsome
        have hlt := hless fun hnil => hsome (.inl hnil)
        rw [heq] at hlt
        exact Nat.lt_irrefl _ hlt
    · rename_i hgroups
      exact ⟨union, hsql, Nat.le_refl _,
        iff_of_true rfl (.inr fun hnil => hgroups (List.isEmpty_iff.2 hnil))⟩
  cases haggregate : q.aggregate with
  | none =>
    have hsame : { q with aggregate := none } = q := by
      rw [← haggregate]
    rw [selectSql_plain haggregate, ← hsame] at h
    obtain ⟨inner, hinner, _, hiff⟩ := hplain sql h
    exact ⟨inner, hinner, hiff.trans (and_iff_right rfl).symm⟩
  | some a =>
    rw [selectSql_of_isUnion hunion haggregate] at h
    obtain ⟨head, hhead, h⟩ := Name.bind_eq_ok h
    obtain ⟨union, hsql, h⟩ := Name.bind_eq_ok h
    obtain ⟨name, _, h⟩ := Name.bind_eq_ok h
    obtain rfl := Except.ok.inj h
    obtain ⟨inner, hinner, hle, _⟩ := hplain union hsql
    refine ⟨inner, hinner, iff_of_false (fun heq => ?_) fun h => nomatch h.1⟩
    have hlength := congrArg Text.ink heq
    have hfrom : 0 < Text.ink " from (" := by decide
    simp only [Text.ink_append] at hlength
    omega

end

/-! ## Rows -/

namespace Query

section

variable {R K : Type} {q : Query}

/-- The rows that the first select of a query takes, of all of its rows in some order. -/
def page (q : Query) (rows : List R) : List R :=
  q.limit.elim id List.take (rows.drop (q.offset.getD 0))

/-- The first select of a query may take these of its rows.  The ordering puts the rows into an order
by a key; what it leaves open the database decides. -/
def Takes [LinearOrder K] (q : Query) (key : R → K) (rows page : Multiset R) : Prop :=
  ∃ ordered : List R, ↑ordered = rows ∧
    (q.orders ≠ [] → ordered.Pairwise fun a b => key a ≤ key b) ∧ ↑(q.page ordered) = page

/-- The first select of a query takes some of its rows, and perhaps not all. -/
def IsPaged (q : Query) : Prop :=
  q.limit ≠ some 0 ∧ (q.limit ≠ none ∨ q.offset.getD 0 ≠ 0)

theorem page_united (rows : List R) : q.united.page rows = q.page rows := by
  unfold united
  dsimp only
  split <;> rfl

theorem orders_united (h : q.orders = [] ∨ q.groups ≠ []) : q.united.orders = q.orders := by
  unfold united
  dsimp only
  split
  · rename_i hgroups
    exact (h.resolve_right (not_not.2 (List.isEmpty_iff.1 hgroups))).symm
  · rfl

/-- Rows that differ have one order only, so just one page of them can be taken. -/
theorem takes_ordered_iff [LinearOrder K] (horders : q.orders ≠ []) {rows : List K}
    (h : rows.Pairwise (· ≤ ·)) {page : Multiset K} :
    q.Takes id ↑rows page ↔ page = ↑(q.page rows) := by
  constructor
  · rintro ⟨ordered, hrows, hordered, rfl⟩
    have hsorted : ordered.Pairwise (· ≤ ·) := hordered horders
    have hsame := List.Perm.eq_of_pairwise (fun _ _ _ _ => le_antisymm) hsorted h
      (Multiset.coe_eq_coe.1 hrows)
    rw [hsame]
  · rintro rfl
    exact ⟨rows, rfl, fun _ => h, rfl⟩

/-- If all rows are taken, or none, then the order makes no difference. -/
theorem takes_of_not_isPaged [LinearOrder K] (h : ¬q.IsPaged) {key : R → K}
    {rows page : Multiset R} :
    q.Takes key rows page ↔ page = if q.limit = some 0 then 0 else rows := by
  have hpage : ∀ ordered : List R,
      (↑(q.page ordered) : Multiset R) = if q.limit = some 0 then 0 else ↑ordered := by
    intro ordered
    unfold Query.page
    by_cases hnothing : q.limit = some 0
    · rw [if_pos hnothing, hnothing]
      rfl
    · have hall : q.limit = none ∧ q.offset.getD 0 = 0 := by
        unfold IsPaged at h
        tauto
      rw [if_neg hnothing, hall.1, hall.2]
      rfl
  constructor
  · rintro ⟨ordered, rfl, _, rfl⟩
    exact hpage ordered
  · rintro rfl
    obtain ⟨listed, rfl⟩ := Quot.exists_rep rows
    let le : R → R → Bool := fun a b => key a ≤ key b
    have htrans : ∀ a b c, le a b = true → le b c = true → le a c = true := fun a b c hab hbc =>
      decide_eq_true ((of_decide_eq_true hab).trans (of_decide_eq_true hbc))
    have htotal : ∀ a b, (le a b || le b a) = true := fun a b => by
      simpa [le] using le_total (key a) (key b)
    have hordered : (listed.mergeSort le).Pairwise fun a b => key a ≤ key b :=
      (List.pairwise_mergeSort htrans htotal listed).imp of_decide_eq_true
    have hsame := Multiset.coe_eq_coe.2 (List.mergeSort_perm listed le)
    refine ⟨listed.mergeSort le, hsame, fun _ => hordered, ?_⟩
    rw [hpage, hsame]
    rfl

/-- A page of ordered rows that is not taken of all orders of them. -/
theorem IsPaged.exists_page (h : q.IsPaged) : ∃ rows other : List Bool,
    rows.Pairwise (· ≤ ·) ∧ other.Perm rows ∧ ¬(q.page other).Perm (q.page rows) := by
  -- One row is last in the ordering, and comes where the page begins or before it otherwise.
  obtain ⟨hsome, hpaged⟩ := h
  unfold Query.page
  have hfalse : ∀ n, (List.replicate n false).Pairwise (· ≤ ·) := fun n =>
    List.pairwise_replicate.2 (.inr (le_refl _))
  have hordered : ∀ n, (List.replicate n false ++ [true]).Pairwise (· ≤ ·) := fun n =>
    List.pairwise_append.2 ⟨hfalse n, List.pairwise_singleton _ _, fun a _ b hb => by
      rw [List.mem_singleton.1 hb]
      exact Bool.le_true a⟩
  cases hlimit : q.limit with
  | none =>
    obtain ⟨n, hn⟩ := Nat.exists_eq_succ_of_ne_zero (hpaged.resolve_left fun h => h hlimit)
    refine ⟨List.replicate (n + 1) false ++ [true], true :: List.replicate (n + 1) false,
      hordered (n + 1), (List.perm_append_singleton true _).symm, ?_⟩
    have hlast : (List.replicate (n + 1) false ++ [true]).drop (n + 1) = [true] :=
      List.drop_left' List.length_replicate
    have hother : (true :: List.replicate (n + 1) false).drop (n + 1) = [false] := by
      rw [List.drop_succ_cons, List.drop_replicate, Nat.add_sub_cancel_left]
      rfl
    rw [hn]
    show ¬((true :: List.replicate (n + 1) false).drop (n + 1)).Perm
      ((List.replicate (n + 1) false ++ [true]).drop (n + 1))
    rw [hlast, hother]
    decide
  | some limit =>
    obtain ⟨m, rfl⟩ := Nat.exists_eq_succ_of_ne_zero fun h => hsome (h ▸ hlimit)
    generalize q.offset.getD 0 = n
    have hsplit : List.replicate (n + (m + 1)) false ++ [true] =
        List.replicate n false ++ (List.replicate (m + 1) false ++ [true]) := by
      rw [← List.append_assoc, ← List.replicate_add]
    have hfirst : ((List.replicate (n + (m + 1)) false ++ [true]).drop n).take (m + 1) =
        List.replicate (m + 1) false := by
      rw [hsplit, List.drop_left' List.length_replicate, List.take_left' List.length_replicate]
    have hother : ((List.replicate n false ++ true :: List.replicate (m + 1) false).drop n).take
        (m + 1) = true :: (List.replicate (m + 1) false).take m := by
      rw [List.drop_left' List.length_replicate, List.take_succ_cons]
    refine ⟨List.replicate (n + (m + 1)) false ++ [true],
      List.replicate n false ++ true :: List.replicate (m + 1) false, hordered _, ?_, ?_⟩
    · rw [hsplit]
      exact (List.perm_append_singleton true _).symm.append_left _
    · show ¬(((List.replicate n false ++ true :: List.replicate (m + 1) false).drop n).take
        (m + 1)).Perm (((List.replicate (n + (m + 1)) false ++ [true]).drop n).take (m + 1))
      rw [hfirst, hother]
      intro hperm
      exact nomatch List.eq_of_mem_replicate (hperm.subset List.mem_cons_self)

/-- The union that is selected from takes the rows of the query itself, whatever these are and
whatever key they are ordered by, just if it keeps the ordering, or there is none, or it makes no
difference. -/
theorem takes_united_iff (q : Query) :
    (∀ (R K : Type) [LinearOrder K] (key : R → K) (rows page : Multiset R),
      q.united.Takes key rows page ↔ q.Takes key rows page) ↔
        q.orders = [] ∨ q.groups ≠ [] ∨ ¬q.IsPaged := by
  constructor
  · intro hsame
    by_contra hnone
    obtain ⟨horders, hgroups, hpaged⟩ : q.orders ≠ [] ∧ q.groups = [] ∧ q.IsPaged := by
      tauto
    obtain ⟨rows, other, hordered, hperm, hother⟩ := hpaged.exists_page
    have hunordered : q.united.orders = [] := by
      unfold united
      rw [hgroups]
      rfl
    have htakes : q.united.Takes id ↑rows ↑(q.page other) :=
      ⟨other, Multiset.coe_eq_coe.2 hperm, fun h => absurd hunordered h, by rw [page_united]⟩
    rw [hsame, takes_ordered_iff horders hordered] at htakes
    exact hother (Multiset.coe_eq_coe.1 htakes)
  · intro hor R K _ key rows page
    rw [← or_assoc] at hor
    rcases hor with hkept | hpaged
    · unfold Takes
      simp only [page_united, orders_united hkept]
    · have hpaged' : ¬q.united.IsPaged := by
        unfold united
        dsimp only
        split <;> exact hpaged
      have hlimit : q.united.limit = q.limit := by
        unfold united
        dsimp only
        split <;> rfl
      rw [takes_of_not_isPaged hpaged', takes_of_not_isPaged hpaged, hlimit]

end

end Query

/-! ## The result -/

section

variable {s : Store} {q : QueryId} {function columns : Value} {cs : List Value}

/-- What is compiled of a query depends on this query alone. -/
theorem Store.compiled_congr {α : Type} {f f' : Grammar → Attached → Query → Except Failure α}
    (h : ∀ g attached, f g attached (s.query q) = f' g attached (s.query q)) (known : KnownAnswers)
    (method : String) : s.compiled known q method f = s.compiled known q method f' := by
  unfold compiled
  cases s.grammarFor (s.query q).grammar method with
  | error e => rfl
  | ok g => exact h g _

/-- The statement of an aggregate over the union of a query. -/
def Store.aggregateSql (s : Store) (q : QueryId) (a : Aggregate) : Except Failure String :=
  s.compiled [] q "compile_select" fun g attached query =>
    g.aggregateOver query.distinct a (g.selectSql attached query.united)

/-- The statement of the union that an aggregate is taken over. -/
def Store.unitedSql (s : Store) (q : QueryId) : Except Failure String :=
  s.compiled [] q "compile_select" fun g attached query => g.selectSql attached query.united

theorem QueryId.ran_forAggregate (h : s.Clonable q) (hdata : columns.handles = [])
    (hitems : columns.items = .ok cs) : Ran (q.forAggregate function columns) s
      ((s.placing q).query q)
      ((s.withCopy q).edit ((s.placing q).query q) (Query.aggregated ⟨function, cs⟩)) := by
  unfold forAggregate
  simp only [ran_bind, ran_modify, ran_itemsNow hdata, ran_pure]
  refine ⟨_, _, h.ran_copy, (), _, rfl, cs, _, ⟨hitems, rfl⟩, (), _, rfl, (), _, rfl, rfl, ?_⟩
  rw [Store.edit_edit, Store.edit_edit]
  rfl

/-- A union that is changed to an aggregate while it is compiled is compiled to the aggregate over
it. -/
theorem Store.Clonable.compiled_aggregated (h : s.Clonable q) (hunion : (s.query q).isUnion = true)
    (a : Aggregate) : s.settled.compiled [] q "compile_select" (fun g attached query =>
      g.selectSql attached (query.aggregated a)) = s.settled.aggregateSql q a := by
  refine Store.compiled_congr (fun g attached => ?_) [] _
  rw [h.whole.settled_query .refl]
  exact Grammar.selectSql_aggregated_union hunion a

/-- The copy is compiled to the aggregate over the union, without a question. -/
theorem Store.Clonable.toSql_aggregated (run : Runner) (h : s.Clonable q)
    (hunion : (s.query q).isUnion = true) {a : Aggregate} (hf : Query.Adjusts (Query.aggregated a))
    {c : QueryId} {t : Store} (hc : c = (s.placing q).query q)
    (ht : t = (s.withCopy q).edit c (Query.aggregated a)) :
    (c.toSql run).runOn t = (s.settled.aggregateSql q a, t) := by
  subst hc ht
  have hasks := (h.compiled_edit hf).asksNothing
  have hsql := (h.compiled_edit hf).eq.trans (h.compiled_copy hf).eq
  rw [hsql] at hasks
  rw [h.compiled_aggregated hunion a] at hsql
  rw [hsql]
  exact QueryId.toSql_runOn run _ hasks

/-- An aggregate over a union of a query is compiled to the aggregate over the rows of a select, in
parentheses and with a name.  If the query is compiled, this select is.  It is written like the query
just if this is no aggregate itself, and has no ordering for the rows of its first select, or groups.
Its first select takes the rows that the query takes, whatever they are and whatever key they are
ordered by, just if there is no such ordering, or there are groups, or they are not paged. -/
theorem QueryId.forAggregate_union_iff (run : Runner) (h : s.Clonable q)
    (hunion : (s.query q).isUnion = true) (hfunction : function.handles = [])
    (hcolumns : columns.handles = []) (hitems : columns.items = .ok cs) :
    ∃ c t, Ran (q.forAggregate function columns) s c t ∧
      (c.toSql run).runOn t = (s.settled.aggregateSql q ⟨function, cs⟩, t) ∧
      (q.toSql run).runOn s = (s.settled.selectSql q, s) ∧
      (∀ sql, s.settled.selectSql q = .ok sql → ∃ inner, s.settled.unitedSql q = .ok inner ∧
        (inner = sql ↔ (s.query q).aggregate = none ∧
          ((s.query q).orders = [] ∨ (s.query q).groups ≠ []))) ∧
      ((∀ (R K : Type) [LinearOrder K] (key : R → K) (rows page : Multiset R),
        (s.query q).united.Takes key rows page ↔ (s.query q).Takes key rows page) ↔
          (s.query q).orders = [] ∨ (s.query q).groups ≠ [] ∨ ¬(s.query q).IsPaged) := by
  have hf := Query.adjusts_aggregated (a := ⟨function, cs⟩) hfunction
    (Value.items_data hcolumns hitems)
  have hsettled : s.settled.query q = s.query q := h.whole.settled_query .refl
  refine ⟨_, _, ran_forAggregate h hcolumns hitems, h.toSql_aggregated run hunion hf rfl rfl,
    toSql_runOn run q h.asks_listed, fun sql hsql => ?_, Query.takes_united_iff _⟩
  unfold Store.selectSql Store.compiled at hsql
  obtain ⟨g, hg, hsql⟩ := Name.bind_eq_ok hsql
  rw [hsettled] at hsql hg
  obtain ⟨inner, hinner, hiff⟩ := Grammar.selectSql_united hunion hsql
  refine ⟨inner, ?_, hiff⟩
  unfold Store.unitedSql Store.compiled
  rw [hsettled, hg]
  exact hinner

end

/-- A store with a query in MySQL whose first row is united with the rows of a second query.  The
rows may be grouped. -/
def Store.ofPage (grouped : Bool) : Store :=
  { Store.ofTable "a" with
    grammars := #[{ dialect := .mysql }]
    queries := #[
      { connection := none, grammar := .grammar ⟨0⟩, source := .text "a"
        groups := if grouped then [.text "x"] else []
        orders := [.byColumn (.text "x") .ascending], limit := some 1
        unions := [⟨some ⟨1⟩, .bool false⟩] },
      { connection := none, grammar := .grammar ⟨0⟩, source := .text "b" }] }

theorem Store.clonable_ofPage (grouped : Bool) : (Store.ofPage grouped).Clonable ⟨0⟩ := by
  refine .of_later ⟨fun _ => ⟨⟨0⟩, rfl⟩, fun _ _ h => (nomatch h), fun _ => rfl⟩
    ⟨⟨0⟩, rfl, Nat.zero_lt_one⟩ Nat.zero_lt_two ?_ nofun nofun
  have hfirst : ((Store.ofPage grouped).query ⟨0⟩).handles = [.grammar ⟨0⟩, .query ⟨1⟩] := by
    cases grouped <;> rfl
  have hsecond : ((Store.ofPage grouped).query ⟨1⟩).handles = [.grammar ⟨0⟩] := by
    cases grouped <;> rfl
  rintro ⟨_ | _ | n⟩ hlt x hx
  · rcases List.mem_pair.1 (hfirst ▸ hx) with rfl | rfl
    · exact ⟨trivial, nofun⟩
    · refine ⟨trivial, fun b hb => ?_⟩
      obtain rfl := Handle.query.inj hb
      exact ⟨Nat.zero_lt_one, Nat.one_lt_two⟩
  · obtain rfl := List.mem_singleton.1 (hsecond ▸ hx)
    exact ⟨trivial, nofun⟩
  · have hsmall : n + 1 + 1 < 2 := hlt
    omega

/-- With groups the first select keeps its ordering. -/
theorem QueryId.forAggregate_union_iff_grouped :
    let s := Store.ofPage true
    ∃ c t, Ran (QueryId.forAggregate ⟨0⟩ (.text "count") (.list [.text "*"])) s c t ∧
      ((c.toSql Runner.idle).runOn t).1.toOption = some ("select count(*) as aggregate from (" ++
        "(select * from `a` group by `x` order by `x` asc limit 1) union (select * from `b`)" ++
          ") as `temp_table`") ∧
      ∀ (R K : Type) [LinearOrder K] (key : R → K) (rows page : Multiset R),
        (s.query ⟨0⟩).united.Takes key rows page ↔ (s.query ⟨0⟩).Takes key rows page := by
  intro s
  have hfunction : (Value.text "count").handles = [] := rfl
  have hcolumns : (Value.list [.text "*"]).handles = [] := rfl
  have hitems : (Value.list [.text "*"]).items = .ok [.text "*"] := rfl
  obtain ⟨c, t, hran, haggregate, _, _, hrows⟩ := QueryId.forAggregate_union_iff Runner.idle
    (Store.clonable_ofPage true) rfl hfunction hcolumns hitems
  refine ⟨c, t, hran, ?_, hrows.2 (.inr (.inl (List.cons_ne_nil _ _)))⟩
  have hsql : ((Store.ofPage true).settled.aggregateSql ⟨0⟩
      ⟨.text "count", [.text "*"]⟩).toOption = some ("select count(*) as aggregate from (" ++
        "(select * from `a` group by `x` order by `x` asc limit 1) union (select * from `b`)" ++
          ") as `temp_table`") := by decide +kernel
  rw [haggregate]
  exact hsql

/-- Without groups the first select loses the ordering that decides which row it takes, and may take
another one. -/
theorem QueryId.forAggregate_drops_order :
    let s := Store.ofPage false
    let text : Action String → Option String := fun sql => (sql.runOn s).1.toOption
    text (QueryId.toSql Runner.idle ⟨0⟩) =
        some "(select * from `a` order by `x` asc limit 1) union (select * from `b`)" ∧
      text (QueryId.forAggregate ⟨0⟩ (.text "count") (.list [.text "*"]) >>= fun c =>
        c.toSql Runner.idle) = some ("select count(*) as aggregate from (" ++
          "(select * from `a` limit 1) union (select * from `b`)) as `temp_table`") ∧
      (s.query ⟨0⟩).united.Takes id {1, 2} ({2} : Multiset Nat) ∧
      ¬(s.query ⟨0⟩).Takes id {1, 2} ({2} : Multiset Nat) := by
  intro s text
  have hordered : [1, 2].Pairwise (· ≤ ·) := by decide
  refine ⟨by decide +kernel, by decide +kernel, ⟨[2, 1], by decide, fun h => absurd rfl h, rfl⟩,
    fun htakes => ?_⟩
  have hpage := (Query.takes_ordered_iff (List.cons_ne_nil _ _) hordered).1 htakes
  exact absurd hpage (by decide)

end FluentSql
