import FluentSql.Compile.Statement
import FluentSql.Proofs.Alignment.Selecting
import FluentSql.Proofs.Building.Noting

/-!
# Updates and deletes with and without their values

An update and a delete use some clauses of a query and leave out the others.
Their values are those of the clauses that they use, in an order of their own:
in an update the values of joins stand before the assigned ones, unless the
rows are selected by their address.

* `Grammar.updateValues` and `Grammar.deleteValues` are the values that are
  bound, in order.
* `Grammar.placedInUpdate` and `Grammar.placedInDelete` are those among them
  that have a place in the statement, and `Grammar.unplacedValues` the others.
  `Grammar.Places` says that there are no others.
* `AsOutside` is about the table of a delete with joins, whose name is cut out
  of the quoted table.
* `updateSql_mirrors` and `deleteSql_mirrors` are the two statements.
-/

namespace FluentSql

open Name

variable {g : Grammar} {p : String} {lit : Literals} {s : Store} {notes : QueryId → Notes}
variable {attached attached' : Attached} {q : Query} {n : Notes}

/-! ## Values in order -/

namespace Grammar

/-- The groups of values that have no place in an update or a delete that does not select its rows
by their address.  Without joins, MySQL keeps the ordering. -/
def unplaced (g : Grammar) (q : Query) : List BindingGroup :=
  if g.dialect = .mysql ∧ q.joins = [] then [.grouping, .having, .union, .unionOrder]
  else [.grouping, .having, .order, .union, .unionOrder]

/-- The values of a query have a place in its updates and deletes: its rows are selected by their
address, or there are no values of the clauses that are left out. -/
def Places (g : Grammar) (q : Query) : Prop :=
  (g.addressColumn? q).isSome ∨ ∀ group ∈ g.unplaced q, q.bindings.get group = []

/-- The values that have no place in the updates and deletes of a query. -/
def unplacedValues (g : Grammar) (q : Query) : List Value :=
  if (g.addressColumn? q).isSome then [] else q.bindings.flattenGroups (g.unplaced q)

/-- The values of the ordering, if it is kept where rows are not selected by their address. -/
def keptOrder (g : Grammar) (q : Query) : List Value :=
  if g.dialect = .mysql ∧ q.joins = [] then q.bindings.order else []

/-- The values of an update in the order in which they are bound, given the assigned ones. -/
def updateValues (g : Grammar) (b : Bindings) (assigned : List Value) : List Value :=
  if g.dialect.rowAddress?.isSome then
    assigned ++ b.flattenGroups (BindingGroup.all.erase .select)
  else b.join ++ assigned ++ b.flattenGroups ((BindingGroup.all.erase .select).erase .join)

/-- The values of a delete in the order in which they are bound. -/
def deleteValues (b : Bindings) : List Value :=
  b.flattenGroups (BindingGroup.all.erase .select)

/-- The values that have a place in an update, from left to right. -/
def placedInUpdate (g : Grammar) (q : Query) (assigned : List Value) : List Value :=
  if (g.addressColumn? q).isSome then g.updateValues q.bindings assigned
  else q.bindings.join ++ assigned ++ (q.bindings.condition ++ g.keptOrder q)

/-- The values that have a place in a delete, from left to right. -/
def placedInDelete (g : Grammar) (q : Query) : List Value :=
  if (g.addressColumn? q).isSome then deleteValues q.bindings
  else q.bindings.join ++ (q.bindings.condition ++ g.keptOrder q)

theorem addressColumn?_eq_none (h : g.addressColumn? q = none) :
    g.dialect.rowAddress? = none ∨ q.joins = [] := by
  unfold addressColumn? at h
  cases hjoins : q.joins with
  | nil => exact .inr rfl
  | cons id joins =>
    rw [hjoins] at h
    exact .inl h

theorem keptOrder_eq_nil (h : q.joins ≠ []) : g.keptOrder q = [] :=
  if_neg fun hkept => h hkept.2

theorem places_iff : g.Places q ↔ g.unplacedValues q = [] := by
  unfold Places unplacedValues
  split
  · rename_i haddress
    exact iff_of_true (.inl haddress) rfl
  · rename_i hnone
    rw [Bindings.flattenGroups, List.flatMap_eq_nil_iff]
    exact ⟨fun h => h.resolve_left hnone, .inr⟩

/-- There are no values of the clauses that are left out, where rows are not selected by their
address. -/
theorem Places.unplaced (h : g.Places q) (hnone : g.addressColumn? q = none) :
    q.bindings.grouping = [] ∧ q.bindings.having = [] ∧ q.bindings.order = g.keptOrder q ∧
      q.bindings.union = [] ∧ q.bindings.unionOrder = [] := by
  have hempty := h.resolve_left (by rw [hnone]; exact Bool.false_ne_true)
  unfold Grammar.unplaced at hempty
  unfold keptOrder
  split at hempty
  · rename_i hkept
    rw [if_pos hkept]
    exact ⟨hempty .grouping (by decide), hempty .having (by decide), rfl,
      hempty .union (by decide), hempty .unionOrder (by decide)⟩
  · rename_i hdropped
    rw [if_neg hdropped]
    exact ⟨hempty .grouping (by decide), hempty .having (by decide), hempty .order (by decide),
      hempty .union (by decide), hempty .unionOrder (by decide)⟩

/-- The values of the clauses after the conditions are those of the ordering that is kept, and those
without a place. -/
theorem length_after_conditions (hnone : g.addressColumn? q = none) :
    (q.bindings.grouping ++ (q.bindings.having ++ (q.bindings.order ++
        (q.bindings.union ++ q.bindings.unionOrder)))).length =
      (g.keptOrder q).length + (g.unplacedValues q).length := by
  unfold unplacedValues keptOrder unplaced
  rw [hnone, Option.isSome_none, if_neg Bool.false_ne_true]
  split <;>
    simp only [Bindings.flattenGroups, List.flatMap_cons, List.flatMap_nil, Bindings.get,
      List.length_append, List.length_nil] <;>
    omega

end Grammar

/-- The values of all groups but that of the select list. -/
theorem flattenGroups_erase_select (b : Bindings) :
    b.flattenGroups (BindingGroup.all.erase .select) =
      b.source ++ (b.join ++ (b.condition ++ (b.grouping ++ (b.having ++ (b.order ++
        (b.union ++ b.unionOrder)))))) := by
  have hgroups : BindingGroup.all.erase .select =
      [.source, .join, .condition, .grouping, .having, .order, .union, .unionOrder] := by decide
  rw [hgroups]
  simp only [Bindings.flattenGroups, List.flatMap_cons, List.flatMap_nil, Bindings.get,
    List.append_nil]

/-- The same without those of the joins. -/
theorem flattenGroups_erase_join (b : Bindings) :
    b.flattenGroups ((BindingGroup.all.erase .select).erase .join) =
      b.source ++ (b.condition ++ (b.grouping ++ (b.having ++ (b.order ++
        (b.union ++ b.unionOrder))))) := by
  have hgroups : (BindingGroup.all.erase .select).erase .join =
      [.source, .condition, .grouping, .having, .order, .union, .unionOrder] := by decide
  rw [hgroups]
  simp only [Bindings.flattenGroups, List.flatMap_cons, List.flatMap_nil, Bindings.get,
    List.append_nil]

theorem flatten_rebind_select (q : Query) :
    (q.rebind .select []).bindings.flatten = Grammar.deleteValues q.bindings := by
  have hgroups : BindingGroup.all = .select :: BindingGroup.all.erase .select := by decide
  rw [Bindings.flatten, hgroups, Bindings.flattenGroups, List.flatMap_cons]
  refine (List.nil_append _).trans (List.flatMap_congr fun group hgroup => ?_)
  refine Bindings.get_set_of_ne _ _ ?_
  rintro rfl
  exact absurd hgroup (by decide)

theorem Query.Noted.join_nil (h : q.Noted g s notes n) (hnone : q.joins = []) :
    q.bindings.join = [] := by
  rw [h.join, hnone, List.flatMap_nil]

/-! ## Assignments -/

/-- An assignment to a column: a fragment that is assigned has no placeholders. -/
def AssignmentHolds (g : Grammar) (entry : Value × Value) : Prop :=
  ColumnHolds g entry.1 [] ∧ ∀ w, entry.2 = .raw w → WordHolds w

/-- An assignment with its value written in. -/
def inlinedAssignment (lit : Literals) (entry : Value × Value) : Value × Value :=
  (entry.1, entry.2.inlined lit entry.2.bound)

/-- The values that are bound for assignments. -/
def assignedValues (entries : List (Value × Value)) : List Value :=
  (entries.map fun entry => entry.2.bound).flatten

theorem boundValues_eq (entries : List (Value × Value)) :
    Grammar.boundValues (entries.map (·.2)) = assignedValues entries := by
  rw [Grammar.boundValues, filter_raw_eq, List.map_map]
  rfl

private theorem assigned_fills {v : Value} (h : ∀ w, v = .raw w → WordHolds w) :
    Fills lit (Grammar.parameter v).display v.bound
      (Grammar.parameter (v.inlined lit v.bound)).display := by
  refine (valueFills_filledText ?_).1
  cases v with
  | raw w => exact (h w rfl).2
  | _ =>
    show Reads "?".toList 1
    decide

theorem assignmentsSql_mirrors (hg : g.Compiles p) {entries : List (Value × Value)}
    (h : ∀ entry ∈ entries, AssignmentHolds g entry) (oracle oracle' : Oracle) :
    MirrorsFill lit (g.assignmentsSql oracle (.map entries)) (assignedValues entries)
      (g.assignmentsSql oracle' (.map (entries.map (inlinedAssignment lit)))) := by
  have hall : Mirrors (fun ts us => FillsAll lit ts (entries.map fun entry => entry.2.bound) us)
      (entries.mapM fun entry => do
        return (← g.wrapped entry.1) ++ " = " ++ (Grammar.parameter entry.2).display)
      ((entries.map (inlinedAssignment lit)).mapM fun entry => do
        return (← g.wrapped entry.1) ++ " = " ++ (Grammar.parameter entry.2).display) := by
    rw [List.mapM_map]
    refine mirrors_mapM_same fun entry hentry => ?_
    obtain ⟨hcolumn, hvalue⟩ := h entry hentry
    refine (wrapped_self lit hg hcolumn).bind fun t u htu => .ok ?_
    exact (htu.append_sealed (b := " = ") (by decide)).append (assigned_fills hvalue)
  exact hall.bind fun ts us hts => .ok (fills_joinWith (by decide) hts)

/-! ## The tail of a statement -/

theorem changeTail_mirrors (hg : g.Compiles p) (h : q.Noted g s notes n) (hjoins : q.joins = [])
    {t u : String} {vs : List Value} (htu : Fills lit t vs u) :
    MirrorsFill lit (g.changeTail q t) (vs ++ g.keptOrder q)
      (g.changeTail (q.inlined lit n) u) := by
  unfold Grammar.changeTail
  split
  · rename_i hmysql
    rw [Grammar.keptOrder, if_pos ⟨hmysql, hjoins⟩]
    have horders : MirrorsFill lit (Grammar.trailingOf q.orders g.ordersSql) q.bindings.order
        (Grammar.trailingOf (q.inlined lit n).orders g.ordersSql) := by
      rw [h.order]
      exact trailingOf_mirrors (length_zipWith_notes h.orders) (flatten_of_nil h.orders)
        (ordersSql_mirrors hg h.orders)
    refine horders.bind fun t' u' h' => ?_
    refine (trailing_self (limitSql_self lit) q.limit).bind fun t'' u'' h'' => .ok ?_
    have hall := (htu.trimRight.append h').append h''
    rwa [List.append_nil] at hall
  · rename_i hother
    rw [Grammar.keptOrder, if_neg fun hkept => hother hkept.1, List.append_nil]
    exact .ok htu

/-! ## Rows by their address -/

/-- A query that selects one column instead of its select list, without the values of that. -/
theorem selectColumn_mirrors (hg : g.Compiles p)
    (ha : MirrorsAttached lit s notes attached attached') (h : q.Noted g s notes n)
    (hwhole : n.whole = true) {name : String} (hname : ColumnHolds g (.text name) []) :
    MirrorsFill lit (g.selectSql attached { q with columns := some [.text name] })
      (Grammar.deleteValues q.bindings)
      (g.selectSql attached' { q.inlined lit n with columns := some [.text name] }) := by
  -- What a query selects does not depend on the values that it is bound to.
  have hselect : g.selectSql attached { q.rebind .select [] with columns := some [.text name] } =
      g.selectSql attached { q with columns := some [.text name] } := rfl
  have hinlined : ({ q.rebind .select [] with columns := some [.text name] } : Query).inlined lit
      { n with columns := [[]] } = { q.inlined lit n with columns := some [.text name] } := rfl
  have hmirrors := selectSql_mirrors hg ha (h.selectColumn hname) hwhole
  rw [hselect, hinlined] at hmirrors
  rw [← flatten_rebind_select]
  exact hmirrors

theorem addressCondition_mirrors (hg : g.Compiles p)
    (ha : MirrorsAttached lit s notes attached attached') (h : q.Noted g s notes n)
    (hwhole : n.whole = true) {source : String} (hsource : q.source = .text source)
    (hcopy : attached'.canCopy (q.inlined lit n) = true) {address : String}
    (haddress : ColumnHolds g (.text address) [])
    (hcolumn : ColumnHolds g (.text (lastAlias source ++ "." ++ address)) []) :
    MirrorsFill lit (g.addressCondition attached q address) (Grammar.deleteValues q.bindings)
      (g.addressCondition attached' (q.inlined lit n) address) := by
  have hname : q.source.display = source := by
    rw [hsource]
    rfl
  have hinlined : (q.inlined lit n).source.display = source := by
    show (q.source.filled lit n.source).display = source
    rw [hsource]
    rfl
  unfold Grammar.addressCondition
  rw [hname, hinlined, hcopy]
  dsimp only
  cases attached.canCopy q with
  | false => exact .error (value_ne_unanswered _) _
  | true =>
    refine (selectColumn_mirrors hg ha h hwhole hcolumn).bind fun t u htu => ?_
    refine (wrapped_self lit hg haddress).bind fun t' u' h' => .ok ?_
    have hhead := (h'.sealed_append (a := "where ") (by decide)).append_sealed (b := " in (")
      (by decide)
    exact (hhead.append htu).append_sealed (by decide)

/-! ## The table of a delete with joins -/

/-- What is left after the last occurrence of a text is the whole, or it follows an occurrence. -/
theorem afterLastFrom_spec (part : List Char) (hpart : part ≠ []) (current : List Char) (skip : Nat)
    (cs : List Char) :
    Grammar.afterLastFrom part current skip cs = current.reverse ++ cs.drop skip ∨
      ∃ before, cs = before ++ part ++ Grammar.afterLastFrom part current skip cs := by
  induction cs generalizing current skip with
  | nil => exact .inl (by rw [List.drop_nil, List.append_nil, Grammar.afterLastFrom])
  | cons c rest ih =>
    have hlater : ∀ {result : List Char}, (∃ before, rest = before ++ part ++ result) →
        ∃ before, c :: rest = before ++ part ++ result := by
      rintro result ⟨before, hrest⟩
      exact ⟨c :: before, congrArg _ hrest⟩
    cases skip with
    | succ skip => exact (ih current skip).imp_right hlater
    | zero =>
      unfold Grammar.afterLastFrom
      dsimp only
      split
      · rename_i hprefix
        rcases ih [] (part.length - 1) with hwhole | hoccurs
        · refine .inr ⟨[], ?_⟩
          obtain ⟨tail, htail⟩ := List.isPrefixOf_iff_prefix.1 hprefix
          obtain ⟨d, part, rfl⟩ := List.exists_cons_of_ne_nil hpart
          rw [List.cons_append] at htail
          obtain ⟨rfl, hrest⟩ := List.cons.inj htail
          rw [hwhole, ← hrest, List.length_cons, Nat.add_sub_cancel, List.drop_left]
          rfl
        · exact .inr (hlater hoccurs)
      · rcases ih (c :: current) 0 with hwhole | hoccurs
        · refine .inl ?_
          rw [hwhole, List.drop_zero, List.drop_zero, List.reverse_cons, List.append_assoc]
          rfl
        · exact .inr (hlater hoccurs)

/-- Where the quoted table has ` as ` in it, this is outside quotes. -/
def AsOutside (g : Grammar) (table : String) : Prop :=
  ∀ quoted before after, g.wrapTable (.text table) = .ok (.text quoted) →
    quoted.toList = before ++ " as ".toList ++ after → openQuote none before = none

theorem quotedAlias_self (lit : Literals) {quoted : String} (hsealed : Sealed quoted.toList)
    (houtside : ∀ before after, quoted.toList = before ++ " as ".toList ++ after →
      openQuote none before = none) (oracle oracle' : Oracle) :
    MirrorsFill lit (Grammar.quotedAlias oracle (.text quoted)) []
      (Grammar.quotedAlias oracle' (.text quoted)) := by
  refine .ok (fills_sealed ?_)
  rw [String.toList_ofList]
  rcases afterLastFrom_spec " as ".toList (by decide) [] 0 quoted.toList with
    hwhole | ⟨before, hoccurs⟩
  · rw [hwhole]
    exact hsealed
  · have hclosed := houtside before _ hoccurs
    rw [hoccurs, List.append_assoc] at hsealed
    have hbefore : Sealed before := by
      refine ⟨hclosed, ?_⟩
      have hmarks := hsealed.marks_eq
      rw [marks_append] at hmarks
      exact (Nat.add_eq_zero_iff.1 hmarks).1
    have hword : Sealed " as ".toList := by decide
    exact (hword.append_reads_iff _ 0).1 ((hbefore.append_reads_iff _ 0).1 hsealed)

/-- The quoted table of a name, which mirrors itself. -/
theorem wrapTable_self (hg : g.Compiles p) {table : String} (h : TableHolds g (.text table) []) :
    Mirrors (fun v w => v = w ∧ ∃ quoted, v = .text quoted ∧ Sealed quoted.toList ∧
        g.wrapTable (.text table) = .ok (.text quoted))
      (g.wrapTable (.text table)) (g.wrapTable (.text table)) := by
  have hname : NameFree g (p ++ table) := by
    obtain ⟨-, -, hfree⟩ := h
    rw [hg.tablePrefix] at hfree
    exact hfree (.text (p ++ table)) rfl
  have hwrap : g.wrapTable (.text table) = (g.wrapText true (p ++ table)).map Value.text := by
    unfold Grammar.wrapTable
    rw [hg.tablePrefix]
    rfl
  rw [hwrap]
  refine mirrors_self ((g.wrapText_asksNothing true _).map _) fun v hv => ?_
  cases hquoted : g.wrapText true (p ++ table) with
  | error e => rw [hquoted] at hv; exact nomatch hv
  | ok quoted =>
    rw [hquoted] at hv
    cases hv
    exact ⟨quoted, rfl, Grammar.wrapText_sealed hg hname hquoted, rfl⟩

/-! ## Statements -/

/-- A query whose rows can be changed: its source is a table given by its name, and the column with
the address of a row can be referred to. -/
structure Query.Changes (g : Grammar) (q : Query) (table : String) : Prop where
  source : q.source = .text table
  rows : ∀ address, g.dialect.rowAddress? = some address →
    NameFree g (lastAlias table ++ "." ++ address)

variable {table : String}

/-- A source given by its name has no values. -/
theorem Query.Noted.source_nil (h : q.Noted g s notes n) (hwhole : n.whole = true)
    (hsource : q.source = .text table) :
    TableHolds g (.text table) [] ∧ q.bindings.source = [] ∧
      (q.inlined lit n).source = .text table := by
  obtain ⟨htable, hvalues⟩ := h.source hwhole
  rw [hsource] at htable
  have hnone : n.source = [] := htable.2.1
  refine ⟨hnone ▸ htable, hvalues.trans hnone, ?_⟩
  show q.source.filled lit n.source = .text table
  rw [hsource]
  rfl

/-- The values of an update, where rows are not selected by their address: those that have a place
stand before those of the clauses that are left out. -/
theorem updateValues_eq (h : q.Noted g s notes n) (hnone : g.addressColumn? q = none)
    (hsource : q.bindings.source = []) (assigned : List Value) :
    g.updateValues q.bindings assigned =
      q.bindings.join ++ assigned ++ (q.bindings.condition ++ (q.bindings.grouping ++
        (q.bindings.having ++ (q.bindings.order ++
          (q.bindings.union ++ q.bindings.unionOrder))))) := by
  unfold Grammar.updateValues
  split
  · rename_i haddress
    have hjoins := (Grammar.addressColumn?_eq_none hnone).resolve_left fun habsent => by
      rw [habsent] at haddress
      exact Bool.false_ne_true haddress
    rw [flattenGroups_erase_select, hsource, h.join_nil hjoins]
    rfl
  · rw [flattenGroups_erase_join, hsource]
    rfl

/-- An update binds the values that have a place in it and those that have none. -/
theorem length_updateValues (h : q.Noted g s notes n) (hsource : q.bindings.source = [])
    (assigned : List Value) :
    (g.updateValues q.bindings assigned).length =
      (g.placedInUpdate q assigned).length + (g.unplacedValues q).length := by
  unfold Grammar.placedInUpdate
  cases haddress : g.addressColumn? q with
  | some address =>
    rw [Grammar.unplacedValues, haddress]
    rfl
  | none =>
    have hleft := Grammar.length_after_conditions haddress
    rw [updateValues_eq h haddress hsource, if_neg (by decide)]
    simp only [List.length_append] at hleft ⊢
    omega

/-- A delete binds the values that have a place in it and those that have none. -/
theorem length_deleteValues (hsource : q.bindings.source = []) :
    (Grammar.deleteValues q.bindings).length =
      (g.placedInDelete q).length + (g.unplacedValues q).length := by
  unfold Grammar.placedInDelete
  cases haddress : g.addressColumn? q with
  | some address =>
    rw [Grammar.unplacedValues, haddress]
    rfl
  | none =>
    have hleft := Grammar.length_after_conditions haddress
    rw [Grammar.deleteValues, flattenGroups_erase_select, hsource, if_neg (by decide)]
    simp only [List.length_append, List.length_nil] at hleft ⊢
    omega

/-- Where all values have a place, an update binds those that have one. -/
theorem updateValues_eq_placed (h : q.Noted g s notes n) (hsource : q.bindings.source = [])
    (hplaces : g.Places q) (assigned : List Value) :
    g.updateValues q.bindings assigned = g.placedInUpdate q assigned := by
  unfold Grammar.placedInUpdate
  split
  · rfl
  · rename_i hnone
    have hnone := Option.not_isSome_iff_eq_none.1 hnone
    obtain ⟨hgrouping, hhaving, horder, hunion, hunionOrder⟩ := hplaces.unplaced hnone
    rw [updateValues_eq h hnone hsource, hgrouping, hhaving, horder, hunion, hunionOrder]
    simp only [List.nil_append, List.append_nil]

/-- Where all values have a place, a delete binds those that have one. -/
theorem deleteValues_eq_placed (hsource : q.bindings.source = []) (hplaces : g.Places q) :
    Grammar.deleteValues q.bindings = g.placedInDelete q := by
  unfold Grammar.placedInDelete
  split
  · rfl
  · rename_i hnone
    obtain ⟨hgrouping, hhaving, horder, hunion, hunionOrder⟩ :=
      hplaces.unplaced (Option.not_isSome_iff_eq_none.1 hnone)
    rw [Grammar.deleteValues, flattenGroups_erase_select, hsource, hgrouping, hhaving, horder,
      hunion, hunionOrder]
    simp only [List.nil_append, List.append_nil]

/-- The address of a row stands for no values. -/
theorem address_holds {address : String} (h : g.dialect.rowAddress? = some address) :
    ColumnHolds g (.text address) [] := by
  have hword : '.' ∉ address.toList ∧ '-' ∉ address.toList := by
    cases hd : g.dialect <;> rw [hd] at h <;> cases h <;> decide
  exact ⟨rfl, rfl, nameFree_of_word g hword.1 hword.2⟩

theorem addressColumn?_eq_some {address : String} (h : g.addressColumn? q = some address) :
    g.dialect.rowAddress? = some address := by
  unfold Grammar.addressColumn? at h
  split at h
  · exact h
  · exact nomatch h

section

variable (hg : g.Compiles p) (ha : MirrorsAttached lit s notes attached attached')
variable (h : q.Noted g s notes n) (hwhole : n.whole = true) (hq : q.Changes g table)
variable (hcopy : attached'.canCopy (q.inlined lit n) = true)
include hg ha h hwhole hq hcopy

/-- The condition that a row is among those of a query whose rows can be changed. -/
private theorem rows_mirrors {address : String} (haddress : g.addressColumn? q = some address) :
    MirrorsFill lit (g.addressCondition attached q address) (Grammar.deleteValues q.bindings)
      (g.addressCondition attached' (q.inlined lit n) address) := by
  have hrow := addressColumn?_eq_some haddress
  exact addressCondition_mirrors hg ha h hwhole hq.source hcopy (address_holds hrow)
    ⟨rfl, rfl, hq.rows address hrow⟩

theorem updateSql_mirrors {entries : List (Value × Value)}
    (hentries : ∀ entry ∈ entries, AssignmentHolds g entry) :
    MirrorsFill lit (g.updateSql attached q (.map entries))
      (g.placedInUpdate q (assignedValues entries))
      (g.updateSql attached' (q.inlined lit n) (.map (entries.map (inlinedAssignment lit)))) := by
  obtain ⟨htable, hvalues, hinlined⟩ := @Query.Noted.source_nil g lit s notes q n table h hwhole
    hq.source
  have hcolumn : g.addressColumn? (q.inlined lit n) = g.addressColumn? q := rfl
  have hjoins : (q.inlined lit n).joins = q.joins := rfl
  unfold Grammar.updateSql
  rw [hq.source, hinlined, hcolumn, hjoins]
  refine (wrappedTable_self lit hg htable).bind fun t u htu => ?_
  refine (assignmentsSql_mirrors hg hentries _ _).bind fun t' u' h' => ?_
  have hhead : Fills lit ("update " ++ t ++ " set " ++ t') (assignedValues entries)
      ("update " ++ u ++ " set " ++ u') :=
    ((htu.sealed_append (by decide)).append_sealed (by decide)).append h'
  cases haddress : g.addressColumn? q with
  | some address =>
    have hvalues : g.placedInUpdate q (assignedValues entries) =
        assignedValues entries ++ Grammar.deleteValues q.bindings := by
      rw [Grammar.placedInUpdate, haddress, Grammar.updateValues, addressColumn?_eq_some haddress]
      rfl
    rw [hvalues]
    refine (rows_mirrors hg ha h hwhole hq hcopy haddress).bind fun t'' u'' h'' => .ok ?_
    exact (hhead.append_sealed (b := " ") (by decide)).append h''
  | none =>
    rw [Grammar.placedInUpdate, haddress, if_neg (by decide)]
    refine (wheresSql_mirrors hg ha h).bind fun c c' hc => ?_
    dsimp only
    split
    · rename_i hempty
      have hnone := List.isEmpty_iff.1 hempty
      rw [h.join_nil hnone, List.nil_append, ← List.append_assoc]
      refine (changeTail_mirrors hg h hnone ?_).bind fun _ _ htu => .ok htu.trim
      exact (hhead.append_sealed (b := " ") (by decide)).append hc
    · rename_i hsome
      rw [Grammar.keptOrder_eq_nil fun hnone => hsome (List.isEmpty_iff.2 hnone), List.append_nil]
      refine (joinsSql_mirrors ha h).bind fun j j' hj => .ok ?_
      have htable := (htu.sealed_append (a := "update ") (by decide)).append_sealed (b := " ")
        (by decide)
      have hset := ((htable.append hj).append_sealed (b := " set ") (by decide)).append h'
      exact ((hset.append_sealed (b := " ") (by decide)).append hc).trim

theorem deleteSql_mirrors
    (houtside : g.dialect.rowAddress? = none → q.joins ≠ [] → AsOutside g table) :
    MirrorsFill lit (g.deleteSql attached q) (g.placedInDelete q)
      (g.deleteSql attached' (q.inlined lit n)) := by
  obtain ⟨htable, hvalues, hinlined⟩ := @Query.Noted.source_nil g lit s notes q n table h hwhole
    hq.source
  have hcolumn : g.addressColumn? (q.inlined lit n) = g.addressColumn? q := rfl
  have hjoins : (q.inlined lit n).joins = q.joins := rfl
  unfold Grammar.deleteSql
  rw [hq.source, hinlined, hcolumn, hjoins]
  refine (wrapTable_self hg htable).bind ?_
  rintro _ _ ⟨rfl, quoted, rfl, hsealed, hok⟩
  have hhead : Fills lit ("delete from " ++ quoted ++ " ") [] ("delete from " ++ quoted ++ " ") :=
    fills_sealed (by
      simp only [String.toList_append]
      exact ((Sealed.append (by decide) hsealed).append (by decide)))
  cases haddress : g.addressColumn? q with
  | some address =>
    rw [Grammar.placedInDelete, haddress]
    refine (rows_mirrors hg ha h hwhole hq hcopy haddress).bind fun t u htu => .ok ?_
    exact hhead.append htu
  | none =>
    rw [Grammar.placedInDelete, haddress, if_neg (by decide)]
    refine (wheresSql_mirrors hg ha h).bind fun c c' hc => ?_
    dsimp only
    split
    · rename_i hempty
      have hnone := List.isEmpty_iff.1 hempty
      rw [h.join_nil hnone, List.nil_append]
      exact (changeTail_mirrors hg h hnone (hhead.append hc)).bind fun _ _ htu => .ok htu.trim
    · rename_i hsome
      have hsome : q.joins ≠ [] := fun hnone => hsome (List.isEmpty_iff.2 hnone)
      have hplain := (Grammar.addressColumn?_eq_none haddress).resolve_right hsome
      rw [Grammar.keptOrder_eq_nil hsome, List.append_nil]
      refine (quotedAlias_self lit hsealed (fun before after => houtside hplain hsome _ _ _ hok)
        _ _).bind fun a a' ha' => ?_
      refine (joinsSql_mirrors ha h).bind fun j j' hj => .ok ?_
      have htarget := (ha'.sealed_append (a := "delete ") (by decide)).append_sealed (b := " from ")
        (by decide)
      have hfrom := (htarget.append_sealed (b := quoted) hsealed).append_sealed (b := " ") (by decide)
      exact (((hfrom.append hj).append_sealed (b := " ") (by decide)).append hc).trim

end

end FluentSql
