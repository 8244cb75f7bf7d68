import FluentSql.Proofs.Accounting.Basic
import FluentSql.Proofs.Building.Changing
import FluentSql.Proofs.Keywords
import FluentSql.Proofs.Standing
import FluentSql.Proofs.Supporting

/-!
# Limits on updates and deletes

A query that is limited to some rows can be updated and deleted.  PostgreSQL and
SQLite select the rows by their address, with the limit inside, and MySQL has
the limit at the end of the statement, unless there are joins.  Everywhere else
the limit is left out without a word, and the statement reaches all rows.

* `HasLimit` says that a select statement has a limit, and `Limited` that an
  update or a delete has one.
* `Grammar.KeepsLimit` are the queries whose limit a dialect writes.
* `Change.sql_limited` and `Change.sql_unlimited` are the compiled statements.
* `Change.sql_explained` says why there may be none.
* `QueryId.change_limited` is the result; `change_drops_limit` is a delete with a
  join in MySQL.
-/

namespace FluentSql

/-! ## Texts around a clause -/

/-- A text that ends with no blank. -/
def Closes (text : String) : Prop :=
  ∃ front c, text.toList = front ++ [c] ∧ Text.isBlank c = false

section

variable {a b : String}

theorem Opens.append (h : Opens a) (b : String) : Opens (a ++ b) := by
  obtain ⟨c, rest, ha, hc⟩ := h
  exact ⟨c, rest ++ b.toList, by rw [String.toList_append, ha, List.cons_append], hc⟩

theorem Closes.after (h : Closes b) (a : String) : Closes (a ++ b) := by
  obtain ⟨front, c, hb, hc⟩ := h
  exact ⟨a.toList ++ front, c, by rw [String.toList_append, hb, List.append_assoc], hc⟩

theorem Opens.trimLeft (h : Opens a) : Text.trimLeft a = a := by
  obtain ⟨c, rest, ha, hc⟩ := h
  rw [Text.trimLeft, Text.dropBlanks, ha,
    List.dropWhile_cons_of_neg (by rw [hc]; exact Bool.false_ne_true), ← ha, String.ofList_toList]

/-- Blanks at the end are taken only from what stands behind a text that ends with none. -/
theorem Closes.trimRight_append (h : Closes a) (b : String) :
    Text.trimRight (a ++ b) = a ++ Text.trimRight b := by
  obtain ⟨front, c, ha, hc⟩ := h
  have hstop : List.dropWhile Text.isBlank (c :: front.reverse) = c :: front.reverse :=
    List.dropWhile_cons_of_neg (by rw [hc]; exact Bool.false_ne_true)
  apply String.toList_inj.1
  rw [String.toList_append, toList_trimRight, toList_trimRight, String.toList_append, ha,
    List.reverse_append, List.reverse_append, List.reverse_singleton, List.singleton_append,
    Text.dropBlanks, List.dropWhile_append, Text.dropBlanks, hstop]
  split
  · rename_i hempty
    rw [List.isEmpty_iff.1 hempty]
    simp
  · simp

theorem Closes.trim (hopens : Opens a) (hcloses : Closes a) : Text.trim a = a := by
  have hright := hcloses.trimRight_append ""
  rw [show Text.trimRight "" = "" from rfl, String.append_empty] at hright
  rw [trim_eq, hopens.trimLeft, hright]

/-- Fragments in a row, with a separator between the two parts. -/
theorem joinWith_append (separator : String) {xs ys : List String} (hx : xs ≠ []) (hy : ys ≠ []) :
    joinWith separator (xs ++ ys) =
      joinWith separator xs ++ separator ++ joinWith separator ys := by
  induction xs with
  | nil => exact absurd rfl hx
  | cons first rest ih =>
    cases rest with
    | nil =>
      obtain ⟨y, ys, rfl⟩ := List.exists_cons_of_ne_nil hy
      rfl
    | cons second rest =>
      have hrest := ih (List.cons_ne_nil second rest)
      simp only [List.cons_append, joinWith] at hrest ⊢
      rw [hrest]
      simp only [String.append_assoc]

end

/-! ## Limits -/

/-- The limit as a clause. -/
def limitClause (n : Nat) : String :=
  "limit " ++ Number.natText n

/-- What stands behind a clause: nothing, or other clauses after a space. -/
def ClausesAfter (after : String) : Prop :=
  after = "" ∨ ∃ rest, after = " " ++ rest

/-- A select statement has a limit among its clauses. -/
def HasLimit (n : Nat) (sql : String) : Prop :=
  ∃ before after, sql = before ++ " " ++ limitClause n ++ after ∧ ClausesAfter after

/-- A statement ends with a limit, or with a sub-select that has one. -/
def Limited (n : Nat) (sql : String) : Prop :=
  (∃ before, sql = before ++ " " ++ limitClause n) ∨
    ∃ before select, sql = before ++ " in (" ++ select ++ ")" ∧ HasLimit n select

section

variable {n : Nat} {sql : String}

theorem isBlank_of_isDigit {c : Char} (h : c.isDigit = true) : Text.isBlank c = false := by
  obtain ⟨hlow, hhigh⟩ := Char.isDigit_iff_toNat.1 h
  rw [show '0'.toNat = 48 from rfl] at hlow
  rw [show '9'.toNat = 57 from rfl] at hhigh
  unfold Text.isBlank
  simp only [Bool.or_eq_false_iff, Bool.and_eq_false_iff, decide_eq_false_iff_not,
    beq_eq_false_iff_ne]
  omega

theorem closes_limitClause (n : Nat) : Closes (limitClause n) := by
  refine Closes.after ?_ "limit "
  have hne : Number.natDigits n ≠ [] := Nat.toDigits_ne_nil
  refine ⟨_, _, String.toList_ofList.trans (List.dropLast_append_getLast hne).symm, ?_⟩
  exact isBlank_of_isDigit
    (Nat.isDigit_of_mem_toDigits (by decide) (by decide) (List.getLast_mem hne))

theorem limitSql_eq (h : Grammar.limitSql n = .ok sql) : sql = limitClause n := by
  obtain ⟨text, htext, h⟩ := Name.bind_eq_ok h
  cases h
  unfold Grammar.countText at htext
  split at htext
  · cases htext
    rfl
  · exact nomatch htext

theorem ClausesAfter.trimRight {after : String} (h : ClausesAfter after) :
    ClausesAfter (Text.trimRight after) := by
  obtain rfl | ⟨rest, rfl⟩ := h
  · exact .inl rfl
  · have hfront := trimRight_front (" " ++ rest)
    obtain ⟨more, hmore⟩ := hfront
    cases htext : (Text.trimRight (" " ++ rest)).toList with
    | nil => exact .inl (String.toList_eq_nil_iff.1 htext)
    | cons c cs =>
      rw [htext, String.toList_append] at hmore
      have hc : c = ' ' := (List.cons.inj hmore).1
      refine .inr ⟨String.ofList cs, String.toList_inj.1 ?_⟩
      rw [htext, String.toList_append, hc]
      exact congrArg (' ' :: ·) String.toList_ofList.symm

theorem HasLimit.trimmed (h : HasLimit n sql) (hopens : Opens sql) :
    HasLimit n (Text.trim sql) := by
  obtain ⟨before, after, rfl, hafter⟩ := h
  refine ⟨before, Text.trimRight after, ?_, hafter.trimRight⟩
  rw [trim_eq, hopens.trimLeft, ((closes_limitClause n).after _).trimRight_append]

/-- A statement with a limit contains its clause. -/
theorem Limited.contains (h : Limited n sql) : (limitClause n).toList <:+: sql.toList := by
  have hinfix : ∀ a b : String, (limitClause n).toList <:+: (a ++ limitClause n ++ b).toList := by
    intro a b
    rw [String.toList_append, String.toList_append]
    exact ⟨a.toList, b.toList, rfl⟩
  rcases h with ⟨before, rfl⟩ | ⟨before, select, rfl, front, rest, rfl, _⟩
  · have hlast := hinfix (before ++ " ") ""
    rwa [String.append_empty] at hlast
  · have hinner := hinfix (before ++ " in (" ++ (front ++ " ")) (rest ++ ")")
    simpa only [String.append_assoc] using hinner

end

/-! ## Select statements with a limit -/

section

variable {g : Grammar} {attached : Attached} {q : Query} {n : Nat} {sql : String}

/-- A clause between others that are not all empty. -/
theorem spaced_around {before : List String} {clause : String} (after : List String)
    (hbefore : ∃ fragment ∈ before, fragment ≠ "") (hclause : clause ≠ "") :
    ∃ rest, spaced (before ++ clause :: after) = spaced before ++ " " ++ clause ++ rest ∧
      ClausesAfter rest := by
  have hkept : ∀ fragment : String, fragment ≠ "" → (!fragment.isEmpty) = true := by
    intro fragment hne
    rw [Bool.not_eq_true', Bool.eq_false_iff]
    exact fun h => hne (String.isEmpty_iff.1 h)
  have hclause : (clause :: after).filter (fun fragment => !fragment.isEmpty) =
      clause :: after.filter fun fragment => !fragment.isEmpty :=
    List.filter_cons_of_pos (hkept clause hclause)
  unfold spaced
  rw [List.filter_append, hclause]
  obtain ⟨fragment, hmem, hne⟩ := hbefore
  rw [joinWith_append " " (List.ne_nil_of_mem (List.mem_filter.2 ⟨hmem, hkept _ hne⟩))
    (List.cons_ne_nil _ _)]
  cases after.filter fun fragment => !fragment.isEmpty with
  | nil => exact ⟨"", by rw [String.append_empty]; rfl, .inl rfl⟩
  | cons next rest =>
    refine ⟨" " ++ joinWith " " (next :: rest), ?_, .inr ⟨_, rfl⟩⟩
    show _ ++ " " ++ (clause ++ " " ++ joinWith " " (next :: rest)) = _
    simp only [String.append_assoc]

/-- Empty fragments are left out. -/
theorem spaced_empty (fragments : List String) : spaced ("" :: fragments) = spaced fragments := rfl

theorem opens_spaced {first : String} (h : Opens first) (rest : List String) :
    Opens (spaced (first :: rest)) := by
  have hne : (!first.isEmpty) = true := by
    obtain ⟨c, cs, hfirst, _⟩ := h
    rw [Bool.not_eq_true', Bool.eq_false_iff]
    intro hempty
    rw [String.isEmpty_iff.1 hempty] at hfirst
    exact nomatch hfirst
  have hfilter : (first :: rest).filter (fun fragment => !fragment.isEmpty) =
      first :: rest.filter fun fragment => !fragment.isEmpty := List.filter_cons_of_pos hne
  unfold spaced
  rw [hfilter]
  cases rest.filter fun fragment => !fragment.isEmpty with
  | nil => exact h
  | cons second more => exact (h.append _).append _

/-- The limit stands between the select list and the clauses behind it. -/
theorem components_limited {fragments : List String} (hlimit : q.limit = some n)
    (hcolumns : q.columns.getD [.text "*"] ≠ []) (h : g.components attached q = .ok fragments) :
    ∃ before after, fragments = before ++ limitClause n :: after ∧ Opens (spaced before) := by
  obtain ⟨aggregate, columns, source, joins, wheres, groups, havings, orders, limit, _, _, _, rfl,
    haggregate, hlist, _, _, hclause⟩ := components_ok h
  rw [hlimit] at hclause
  obtain rfl := limitSql_eq hclause
  refine ⟨[aggregate, columns, source, joins, wheres, groups, havings, orders], _, rfl, ?_⟩
  have hselect : ∀ rest : String, Opens ("select " ++ rest) := fun rest =>
    Opens.append ⟨'s', "elect ".toList, rfl, by decide⟩ rest
  cases hq : q.aggregate with
  | some function =>
    rw [hq] at haggregate
    obtain ⟨_, _, haggregate⟩ := Name.bind_eq_ok haggregate
    cases haggregate
    exact opens_spaced ((((hselect _).append _).append _).append _) _
  | none =>
    rw [hq] at haggregate
    cases haggregate
    rw [spaced_empty]
    refine opens_spaced ?_ _
    unfold Grammar.selectList Grammar.ifAny at hlist
    rw [if_neg fun hempty => hcolumns (List.isEmpty_iff.1 hempty), hq] at hlist
    obtain ⟨list, _, hlist⟩ := Name.bind_eq_ok hlist
    cases hlist
    split
    · exact Opens.append ⟨'s', "elect distinct ".toList, rfl, by decide⟩ _
    · exact hselect _

theorem selectSql_limited (hlimit : q.limit = some n) (hunion : q.isUnion = false)
    (hcolumns : q.columns.getD [.text "*"] ≠ []) (h : g.selectSql attached q = .ok sql) :
    HasLimit n sql := by
  have hplain : g.plainSelectSql attached q = .ok sql := by
    unfold Grammar.selectSql at h
    split at h
    · rwa [if_neg (by rw [hunion]; exact Bool.false_ne_true)] at h
    · exact h
  obtain ⟨fragments, hfragments, h⟩ := Name.bind_eq_ok hplain
  rw [if_neg (by rw [hunion]; exact fun h => Bool.false_ne_true h.2)] at h
  obtain rfl := Except.ok.inj h
  obtain ⟨before, after, rfl, hopens⟩ := components_limited hlimit hcolumns hfragments
  have hsome : ∃ fragment ∈ before, fragment ≠ "" := by
    by_contra hnone
    have hempty : before.filter (fun fragment => !fragment.isEmpty) = [] := by
      refine List.filter_eq_nil_iff.2 fun fragment hmem => ?_
      rw [Classical.not_not.1 fun hne => hnone ⟨fragment, hmem, hne⟩]
      decide
    obtain ⟨c, rest, htext, _⟩ := hopens
    unfold spaced at htext
    rw [hempty] at htext
    exact nomatch htext
  have hclause : limitClause n ≠ "" := by
    obtain ⟨front, c, hclause, _⟩ := closes_limitClause n
    intro hempty
    rw [hempty] at hclause
    exact List.append_ne_nil_of_right_ne_nil front (List.cons_ne_nil c []) hclause.symm
  obtain ⟨rest, hsql, hrest⟩ := spaced_around after hsome hclause
  refine HasLimit.trimmed ⟨spaced before, rest, hsql, hrest⟩ ?_
  rw [hsql]
  exact ((hopens.append _).append _).append _

end

/-! ## Updates and deletes -/

/-- The query that selects the addresses of its rows. -/
def Query.addressed (q : Query) (address : String) : Query :=
  { q with columns := some [.text (Name.lastAlias q.source.display ++ "." ++ address)] }

/-- The dialect writes the limit of a query into its updates and deletes. -/
def Grammar.KeepsLimit (g : Grammar) (q : Query) : Prop :=
  match g.dialect with
  | .ansi => False
  | .mysql => q.joins = []
  | .postgres | .sqlite => True

instance (g : Grammar) (q : Query) : Decidable (g.KeepsLimit q) := by
  unfold Grammar.KeepsLimit
  cases g.dialect <;> infer_instance

/-- A statement that changes the rows of a query. -/
inductive Change where
  /-- An update with the values of columns. -/
  | update (values : Value)
  /-- A delete. -/
  | delete

namespace Change

/-- The method of a grammar that compiles the statement. -/
def method : Change → String
  | update _ => "compile_update"
  | delete => "compile_delete"

/-- The compiled statement. -/
def sql (g : Grammar) (attached : Attached) (q : Query) : Change → Except Failure String
  | update values => g.updateSql attached q values
  | delete => g.deleteSql attached q

/-- The statement as it is asked of a query. -/
def statement (run : Runner) (q : QueryId) : Change → Action Statement
  | update values => q.toUpdateSql run values
  | delete => q.toDeleteSql run .null

/-- The statement with all maps that follow queries read. -/
def shown (s : Store) : Change → Change
  | update values => update (s.shown values)
  | delete => delete

end Change

section

variable {g : Grammar} {attached : Attached} {q : Query} {n : Nat} {sql : String}

theorem addressCondition_limited (hlimit : q.limit = some n) (hunion : q.isUnion = false)
    {address : String} (h : g.addressCondition attached q address = .ok sql) :
    Limited n sql := by
  unfold Grammar.addressCondition at h
  dsimp only at h
  split at h
  · exact nomatch h
  · obtain ⟨select, hselect, h⟩ := Name.bind_eq_ok h
    obtain ⟨name, _, h⟩ := Name.bind_eq_ok h
    obtain rfl := Except.ok.inj h
    have hselected : HasLimit n select :=
      selectSql_limited (q := q.addressed address) hlimit hunion (List.cons_ne_nil _ _) hselect
    exact .inr ⟨_, select, rfl, hselected⟩

theorem Limited.after (h : Limited n sql) (a : String) : Limited n (a ++ sql) := by
  rcases h with ⟨before, rfl⟩ | ⟨before, select, rfl, hselect⟩
  · exact .inl ⟨a ++ before, by simp only [String.append_assoc]⟩
  · exact .inr ⟨a ++ before, select, by simp only [String.append_assoc], hselect⟩

/-- The limit at the end of a statement survives the trimming. -/
theorem changeTail_limited (hlimit : q.limit = some n) (hd : g.dialect = .mysql) {text : String}
    (hopens : Opens text) (h : g.changeTail q text = .ok sql) : Limited n (Text.trim sql) := by
  unfold Grammar.changeTail at h
  rw [if_pos hd] at h
  obtain ⟨orders, _, h⟩ := Name.bind_eq_ok h
  obtain ⟨limit, htrailing, h⟩ := Name.bind_eq_ok h
  obtain rfl := Except.ok.inj h
  rw [hlimit, Grammar.trailing, Option.elim_some] at htrailing
  obtain ⟨clause, hclause, rfl⟩ := Name.map_eq_ok htrailing
  obtain rfl := limitSql_eq hclause
  have hsql := Closes.trim (((opens_trimRight hopens).append orders).append (" " ++ limitClause n))
    (((closes_limitClause n).after _).after _)
  rw [hsql]
  exact .inl ⟨Text.trimRight text ++ orders, by simp only [String.append_assoc]⟩

/-- Rows are selected by their address if there is a limit and the dialect has addresses. -/
theorem addressColumn?_eq (hlimit : q.limit = some n) :
    g.addressColumn? q = g.dialect.rowAddress? := by
  unfold Grammar.addressColumn?
  rw [hlimit, Option.isSome_some, Bool.or_true, if_pos rfl]

/-- Where the limit is kept and rows have no address, the dialect is MySQL and there are no joins. -/
theorem Grammar.KeepsLimit.of_none (h : g.KeepsLimit q) (hnone : g.dialect.rowAddress? = none) :
    g.dialect = .mysql ∧ q.joins.isEmpty = true := by
  unfold Grammar.KeepsLimit at h
  cases hd : g.dialect with
  | ansi =>
    rw [hd] at h
    exact h.elim
  | mysql =>
    rw [hd] at h
    exact ⟨rfl, List.isEmpty_iff.2 h⟩
  | _ =>
    rw [hd] at hnone
    exact nomatch hnone

/-- Where the limit is kept, the statement has it. -/
theorem Change.sql_limited {change : Change} (hkeeps : g.KeepsLimit q) (hlimit : q.limit = some n)
    (hunion : q.isUnion = false) (h : change.sql g attached q = .ok sql) : Limited n sql := by
  cases change with
  | update values =>
    obtain ⟨table, _, h⟩ := Name.bind_eq_ok h
    obtain ⟨assignments, _, h⟩ := Name.bind_eq_ok h
    rw [addressColumn?_eq hlimit] at h
    cases haddress : g.dialect.rowAddress? with
    | some address =>
      rw [haddress] at h
      obtain ⟨condition, hcondition, h⟩ := Name.bind_eq_ok h
      obtain rfl := Except.ok.inj h
      exact (addressCondition_limited hlimit hunion hcondition).after _
    | none =>
      obtain ⟨hd, hjoins⟩ := hkeeps.of_none haddress
      rw [haddress] at h
      obtain ⟨condition, _, h⟩ := Name.bind_eq_ok h
      rw [if_pos hjoins] at h
      obtain ⟨text, htext, h⟩ := Name.bind_eq_ok h
      obtain rfl := Except.ok.inj h
      refine changeTail_limited hlimit hd ?_ htext
      have hopens : Opens "update " := ⟨'u', "pdate ".toList, rfl, by decide⟩
      exact ((((hopens.append _).append _).append _).append _).append _
  | delete =>
    obtain ⟨table, _, h⟩ := Name.bind_eq_ok h
    dsimp only at h
    rw [addressColumn?_eq hlimit] at h
    cases haddress : g.dialect.rowAddress? with
    | some address =>
      rw [haddress] at h
      obtain ⟨condition, hcondition, h⟩ := Name.bind_eq_ok h
      obtain rfl := Except.ok.inj h
      exact (addressCondition_limited hlimit hunion hcondition).after _
    | none =>
      obtain ⟨hd, hjoins⟩ := hkeeps.of_none haddress
      rw [haddress] at h
      obtain ⟨condition, _, h⟩ := Name.bind_eq_ok h
      rw [if_pos hjoins] at h
      obtain ⟨text, htext, h⟩ := Name.bind_eq_ok h
      obtain rfl := Except.ok.inj h
      refine changeTail_limited hlimit hd ?_ htext
      have hopens : Opens "delete from " := ⟨'d', "elete from ".toList, rfl, by decide⟩
      exact ((hopens.append _).append _).append _

/-- Where it is not, the statement is the one of the query without it. -/
theorem Change.sql_unlimited {change : Change} (hdrops : ¬g.KeepsLimit q) :
    change.sql g attached q = change.sql g attached { q with limit := none } := by
  have hnone : g.dialect.rowAddress? = none := by
    unfold Grammar.KeepsLimit at hdrops
    cases hd : g.dialect with
    | ansi | mysql => rfl
    | _ =>
      rw [hd] at hdrops
      exact absurd trivial hdrops
  have haddress : ∀ query : Query, g.addressColumn? query = none := by
    intro query
    unfold Grammar.addressColumn?
    rw [hnone, ite_self]
  have htail : q.joins.isEmpty = true → ∀ text,
      g.changeTail { q with limit := none } text = g.changeTail q text := by
    intro hjoins text
    unfold Grammar.KeepsLimit at hdrops
    unfold Grammar.changeTail
    cases hd : g.dialect with
    | mysql =>
      rw [hd] at hdrops
      exact absurd (List.isEmpty_iff.1 hjoins) hdrops
    | _ => rfl
  cases change with
  | update values =>
    unfold sql Grammar.updateSql
    simp only [haddress]
    cases hjoins : q.joins.isEmpty with
    | true =>
      simp only [htail hjoins]
      rfl
    | false => rfl
  | delete =>
    unfold sql Grammar.deleteSql
    simp only [haddress]
    cases hjoins : q.joins.isEmpty with
    | true =>
      simp only [htail hjoins]
      rfl
    | false => rfl

end

/-! ## Why there may be no statement -/

/-- What a statement writes to find the rows of a query. -/
def Query.rowItems (g : Grammar) (q : Query) : List Item :=
  match g.addressColumn? q with
  | some address =>
    (q.addressed address).statementItems ++ [.column (.text address)]
  | none => q.conditionItems ++
    if q.joins.isEmpty then
      if g.dialect = .mysql then orderItems q.orders ++ countItems q.limit else []
    else q.joins.map (.part <| .join ·)

namespace Change

/-- The columns to which an update gives values. -/
def columns : Change → List Value
  | update (.map entries) => entries.map (·.1)
  | _ => []

/-- What the statement writes. -/
def items (g : Grammar) (q : Query) (change : Change) : List Item :=
  .table q.source :: (change.columns.map .column ++ q.rowItems g)

/-- The values of an update are given by the names of columns. -/
def Assigns : Change → Prop
  | update values => ∃ entries, values = .map entries ∧ ∀ entry ∈ entries, entry.1.IsReference
  | delete => True

end Change

section

variable {g : Grammar} {p : String} {inner : Part → Reason → Prop} {attached : Attached} {q : Query}
variable (hp : g.tablePrefix = .text p) (hdot : '.' ∉ p.toList)
variable (hinner : ∀ part, Explained (g.Blames p inner) [.part part] (attached.part part))
variable (ho : attached.oracle.Mild)

include hp hdot

namespace Grammar

theorem changeTail_explained (text : String) : Explained (g.Blames p inner)
    (if g.dialect = .mysql then orderItems q.orders ++ countItems q.limit else [])
    (g.changeTail q text) := by
  unfold changeTail
  split
  · refine (trailingOrders_explained hp hdot q.orders).bind fun _ _ => ?_
    exact (count_explained (fun n => (limitSql_explained n).map _) _).bind_ok _
  · exact explained_ok _

include hinner ho in
theorem addressCondition_explained (hcopy : attached.canCopy q = true) (address : String) :
    Explained (g.Blames p inner)
      ((q.addressed address).statementItems ++ [.column (.text address)])
      (g.addressCondition attached q address) := by
  unfold addressCondition
  rw [hcopy]
  exact (selectSql_explained hp hdot hinner ho _).bind fun _ _ =>
    (wrapped_explained hp hdot _).bind_ok _

end Grammar

include hinner ho

/-- A statement fails only for the reasons of what it writes. -/
theorem Change.sql_explained {change : Change} (hassigns : change.Assigns)
    (hsource : q.source.IsReference) (hcopy : attached.canCopy q = true) :
    Explained (g.Blames p inner) (change.items g q) (change.sql g attached q) := by
  have haddress := Grammar.addressCondition_explained hp hdot hinner ho hcopy
  have hwheres := Grammar.wheresSql_explained hp hdot hinner ho q
  have hjoins := Grammar.joinsSql_explained hinner q.joins
  cases change with
  | update values =>
    obtain ⟨entries, rfl, _⟩ := hassigns
    have hassignments : Explained (g.Blames p inner) ((entries.map (·.1)).map .column)
        (g.assignmentsSql attached.oracle (.map entries)) := by
      rw [List.map_map]
      exact (Explained.mapM_single fun entry _ =>
        (Grammar.wrapped_explained hp hdot entry.1).bind_ok _).bind_ok _
    refine (Grammar.wrappedTable_explained hp hdot q.source).bind fun table _ => ?_
    refine hassignments.bind fun assignments _ => ?_
    unfold Query.rowItems
    cases g.addressColumn? q with
    | some address => exact (haddress address).bind_ok _
    | none =>
      refine hwheres.bind fun condition _ => ?_
      split
      · exact (Grammar.changeTail_explained hp hdot _).bind_ok _
      · exact hjoins.bind_ok _
  | delete =>
    refine (Grammar.wrapTable_explained hp hdot q.source).bind fun table htable => ?_
    obtain ⟨name, rfl⟩ := Grammar.isText_of_wrapTable hp hsource htable
    unfold Query.rowItems
    cases g.addressColumn? q with
    | some address => exact (haddress address).bind_ok _
    | none =>
      refine hwheres.bind fun condition _ => ?_
      split
      · exact (Grammar.changeTail_explained hp hdot _).bind_ok _
      · exact hjoins.bind_ok _

end

section

variable {g : Grammar} {p : String} {q : Query} {item : Item}

/-- A query without a union writes its clauses. -/
theorem Query.statementItems_eq (hunion : q.isUnion = false) :
    q.statementItems = q.clauseItems := by
  have hplain : q.plainItems = q.clauseItems := by
    rw [plainItems, Grammar.unionItems_eq_nil hunion, List.append_nil]
  unfold statementItems
  rw [hunion]
  split <;> exact hplain

/-- What stands behind the select list. -/
def Query.restItems (q : Query) : List Item :=
  (if q.source.isPresent then [.table q.source] else []) ++ (q.joins.map (.part <| .join ·) ++
    (q.conditionItems ++ (q.groups.map .column ++ (q.havings.flatMap (·.body.items) ++
      (orderItems q.orders ++ (countItems q.limit ++ countItems q.offset))))))

theorem Query.clauseItems_eq (q : Query) : q.clauseItems = q.listItems ++ q.restItems := by
  simp only [clauseItems, restItems, List.append_assoc]

/-- What finds the rows of a query is written in its select statement too, but for the names of
addresses. -/
theorem Query.mem_rowItems (hunion : q.isUnion = false) (h : item ∈ q.rowItems g) :
    (∃ name, item = .column (.text name)) ∨ item ∈ q.statementItems := by
  rw [statementItems_eq hunion, clauseItems_eq]
  unfold rowItems at h
  split at h
  · rename_i address _
    have hrest : (q.addressed address).restItems = q.restItems := rfl
    rcases List.mem_append.1 h with h | h
    · rw [statementItems_eq (q := q.addressed address) hunion, clauseItems_eq, hrest] at h
      rcases List.mem_append.1 h with h | h
      · unfold listItems at h ⊢
        cases haggregate : q.aggregate with
        | some aggregate =>
          simp only [addressed, haggregate] at h
          exact .inr (List.mem_append_left _ h)
        | none =>
          simp only [addressed, haggregate] at h
          exact .inl ⟨_, List.mem_singleton.1 h⟩
      · exact .inr (List.mem_append_right _ h)
    · exact .inl ⟨_, List.mem_singleton.1 h⟩
  · have hclause : item ∈ q.restItems := by
      unfold restItems
      simp only [List.mem_append] at h ⊢
      rcases h with h | h
      · simp [h]
      · split at h
        · split at h
          · rcases List.mem_append.1 h with h | h <;> simp [h]
          · exact nomatch h
        · simp only [h, true_or, or_true]
    exact .inr (List.mem_append_right _ hclause)

/-- A statement writes names, and what the select statement of the query writes. -/
theorem Change.mem_items {change : Change} (hassigns : change.Assigns)
    (hsource : q.source.IsReference) (hunion : q.isUnion = false) (h : item ∈ change.items g q) :
    item.Writes ∧ item.part? = none ∨ item ∈ q.statementItems := by
  rcases List.mem_cons.1 h with rfl | h
  · exact .inl ⟨hsource, rfl⟩
  rcases List.mem_append.1 h with h | h
  · obtain ⟨column, hcolumn, rfl⟩ := List.mem_map.1 h
    cases change with
    | delete => exact nomatch hcolumn
    | update values =>
      obtain ⟨entries, rfl, hkeys⟩ := hassigns
      obtain ⟨entry, hentry, rfl⟩ := List.mem_map.1 hcolumn
      exact .inl ⟨hkeys entry hentry, rfl⟩
  · rcases Query.mem_rowItems hunion h with ⟨name, rfl⟩ | h
    · exact .inl ⟨.inl ⟨name, rfl⟩, rfl⟩
    · exact .inr h

/-- What can be written fails only for a construct that is lacking. -/
theorem Item.Writes.eq_unsupported (h : item.Writes) {reason : Reason}
    (hgives : g.Gives p item reason) : reason = .unsupported := by
  cases reason with
  | unsupported => rfl
  | unanswered => exact absurd hgives h.not_asks
  | endless => exact hgives.elim
  | fault => exact absurd h hgives

end

/-- If everything that compiling comes upon can be written, and no part stands inside itself, there
is a statement unless the dialect lacks a construct. -/
theorem Store.change_supported {s : Store} {g : Grammar} {p : String} {id : QueryId}
    {change : Change} (hg : s.grammarFor (s.query id).grammar change.method = .ok g)
    (hp : g.tablePrefix = .text p) (hdot : '.' ∉ p.toList)
    (hcircle : s.Uncircled (.select id))
    (hwrites : ∀ part, s.Visits (.select id) part → ∀ item ∈ s.items part, item.Writes)
    (hassigns : change.Assigns) (hsource : (s.query id).source.IsReference)
    (hcopy : s.canCopy (s.query id) = true) (hunion : (s.query id).isUnion = false) :
    (∃ sql, s.compiled [] id change.method (fun g attached q => change.sql g attached q) =
        .ok sql) ∨
      ∃ feature, s.compiled [] id change.method (fun g attached q => change.sql g attached q) =
        .error (.unsupported feature) := by
  have hcompiled : s.compiled [] id change.method (fun g attached q => change.sql g attached q) =
      change.sql g (s.attached g []) (s.query id) := by
    rw [compiled, hg]
    rfl
  have hmild : (s.attached g []).oracle.Mild := by
    rw [attached, oracle_attachedBy]
    exact s.oracle_mild []
  have hexplained : Explained (g.Blames p (s.Fails g p s.attachedDepth))
      (change.items g (s.query id)) (change.sql g (s.attached g []) (s.query id)) :=
    Change.sql_explained hp hdot (attachedBy_explained hp hdot (s.oracle_mild []) s.attachedDepth)
      hmild hassigns hsource hcopy
  rw [hcompiled]
  cases hr : change.sql g (s.attached g []) (s.query id) with
  | ok sql => exact .inl ⟨sql, rfl⟩
  | error e =>
    obtain ⟨item, hitem, hblames⟩ := hexplained.failed e hr
    have hreason : e.reason = .unsupported := by
      rcases Change.mem_items hassigns hsource hunion hitem with ⟨hitem, hpart⟩ | hitem
      · cases hblames with
        | own hgives => exact hitem.eq_unsupported hgives
        | part => cases hpart
      · cases hblames with
        | own hgives => exact (hwrites _ .refl item hitem).eq_unsupported hgives
        | part hfails =>
          have hinner : _ ∈ s.parts (.select id) := mem_parts.2 hitem
          rcases hfails.of_writes fun part hpart => hwrites part (.head hinner hpart) with
            ⟨_, hdeep⟩ | ⟨hreason, _⟩
          · exact absurd (within_of_uncircled hcircle _ hinner) hdeep
          · exact hreason
    obtain ⟨feature, rfl⟩ := Failure.eq_unsupported hreason
    exact .inr ⟨feature, rfl⟩

/-! ## Queries of a store -/

/-- As long as the callbacks that there are satisfy a condition, a run of this one leaves the
queries and the grammars as they are. -/
def Runner.OnlyAnswers (run : Runner) (world : Array Callback → Prop) (callback : CallbackId) :
    Prop :=
  ∀ q extra (s : Store), world s.callbacks →
    world ((run callback q extra).runOn s).2.callbacks ∧
      ((run callback q extra).runOn s).2.grammars = s.grammars ∧
      s.OnlyChanged ((run callback q extra).runOn s).2 fun _ => False

/-- The queries of a store are there in another one, which has the same grammars. -/
structure Store.Remains (s t : Store) : Prop where
  size_le : s.queries.size ≤ t.queries.size
  query : ∀ id : QueryId, id.index < s.queries.size → t.query id = s.query id
  grammars : t.grammars = s.grammars

section

variable {s t : Store} {run : Runner} {id : QueryId} {g : Grammar}

theorem Store.Remains.trans {u : Store} (h : s.Remains t) (h' : t.Remains u) : s.Remains u where
  size_le := Nat.le_trans h.size_le h'.size_le
  query other hother := (h'.query other (Nat.lt_of_lt_of_le hother h.size_le)).trans
    (h.query other hother)
  grammars := h'.grammars.trans h.grammars

/-- A grammar that a method is asked of is the same in both stores. -/
theorem Store.Remains.grammarFor (h : s.Remains t) {c : Compiler} {method : String}
    (hg : t.grammarFor c method = .ok g) : s.grammarFor c method = .ok g := by
  cases c with
  | grammar id =>
    unfold Store.grammarFor Store.grammar at hg ⊢
    rwa [h.grammars] at hg
  | _ => exact nomatch hg

/-- Compiling asks extensions, and gives what is compiled of the queries that there were. -/
theorem ran_consult_remains {world : Array Callback → Prop} {α : Type}
    {compile : Store → KnownAnswers → Except Failure α} {fuel : Nat} {known : KnownAnswers} {v : α}
    (hworld : world s.callbacks)
    (hanswers : ∀ (request : Request) callback, s.extension? request.name = some callback →
      run.OnlyAnswers world callback)
    (h : Ran (consultFrom run compile fuel known) s v t) :
    s.Remains t ∧ ∃ known, compile t known = .ok v := by
  induction fuel generalizing known s with
  | zero => exact absurd h ran_throw
  | succ fuel ih =>
    rw [consultFrom, ran_bind] at h
    obtain ⟨_, _, hget, h⟩ := h
    obtain ⟨rfl, rfl⟩ := ran_get.1 hget
    split at h
    · rename_i request _
      obtain ⟨reply, _, hcall, hreplied⟩ := ran_bind.1 h
      obtain ⟨answer, _, hshown, hrest⟩ := ran_bind.1 hreplied
      obtain ⟨rfl, rfl⟩ := ran_shown.1 hshown
      unfold Extensions.call at hcall
      obtain ⟨_, _, hread, hanswer⟩ := ran_bind.1 hcall
      obtain ⟨rfl, rfl⟩ := ran_get.1 hread
      split at hanswer
      · rename_i callback hcallback
        obtain ⟨hworld', hgrammars, hchanged⟩ :=
          hanswers request callback hcallback _ request.arguments _ hworld
        rw [show (run callback _ request.arguments).runOn _ = (.ok reply, _) from hanswer]
          at hworld' hgrammars hchanged
        obtain ⟨hremains, hcompiled⟩ := ih hworld' (fun request' callback' hlookup =>
          hanswers request' callback' (by
            unfold Store.extension? at hlookup ⊢
            rwa [hchanged.extensions] at hlookup)) hrest
        refine ⟨.trans ⟨hchanged.size_le, ?_, hgrammars⟩ hremains, hcompiled⟩
        exact fun other hother => hchanged.query other hother not_false
      · exact absurd hanswer ran_throw
    · obtain ⟨hok, rfl⟩ := ran_ofExcept.1 h
      exact ⟨⟨Nat.le_refl _, fun _ _ => rfl, rfl⟩, known, hok⟩

/-- A grammar that has a method beside those for names has them all. -/
theorem Store.grammarFor_any {c : Compiler} {method : String} (h : s.grammarFor c method = .ok g)
    (hmethod : method ∉ ["wrap", "wrap_table"]) (other : String) :
    s.grammarFor c other = .ok g := by
  cases c with
  | grammar id =>
    unfold grammarFor at h ⊢
    dsimp only at h ⊢
    cases hnames : (s.grammar id).namesOnly with
    | true =>
      rw [hnames, if_pos ⟨rfl, hmethod⟩] at h
      exact nomatch h
    | false =>
      rw [hnames, if_neg fun h => Bool.false_ne_true h.1] at h
      rw [if_neg fun h => Bool.false_ne_true h.1, h]
  | _ => exact nomatch h

theorem Change.method_shown (change : Change) : (change.shown s).method = change.method := by
  cases change <;> rfl

/-- The names of columns do not change when values are read. -/
theorem Change.Assigns.shown {change : Change} (h : change.Assigns) : (change.shown s).Assigns := by
  cases change with
  | delete => trivial
  | update values =>
    obtain ⟨entries, rfl, hkeys⟩ := h
    have hshown : s.shown (.map entries) =
        .map (entries.map fun entry => (s.shown entry.1, s.shown entry.2)) := by
      show Value.map (Value.substituteEntries _ entries) = _
      rw [substituteEntries_eq]
      rfl
    refine ⟨_, hshown, fun entry hentry => ?_⟩
    obtain ⟨before, hbefore, rfl⟩ := List.mem_map.1 hentry
    have hkey := hkeys before hbefore
    have hdata : before.1.handles = [] := by
      obtain ⟨name, hname⟩ | ⟨_, hraw, name, rfl⟩ := hkey
      · rw [hname]
        rfl
      · rw [hraw]
        rfl
    rwa [s.shown_data hdata]

theorem Change.method_not_mem (change : Change) : change.method ∉ ["wrap", "wrap_table"] := by
  cases change with
  | update values => exact of_decide_eq_true rfl
  | delete => decide

/-- A statement is compiled before its values are arranged. -/
theorem Change.ran_statement {change : Change} {st : Statement} {s' : Store}
    (h : Ran (change.statement run id) s st s') :
    ∃ t, Ran (id.compile run change.method fun g attached query =>
      (change.shown s).sql g attached query) s st.sql t := by
  cases change with
  | update values =>
    unfold statement QueryId.toUpdateSql at h
    simp only [ran_bind, ran_shown, ran_pure] at h
    obtain ⟨_, _, ⟨rfl, rfl⟩, sql, t, hcompile, _, _, _, _, _, _, rfl, rfl⟩ := h
    exact ⟨t, hcompile⟩
  | delete =>
    unfold statement QueryId.toDeleteSql at h
    simp only [show Value.null.isNull = true from rfl, if_true, ran_bind, ran_pure] at h
    obtain ⟨_, _, ⟨rfl, rfl⟩, sql, t, hcompile, _, _, _, rfl, rfl⟩ := h
    exact ⟨t, hcompile⟩

variable (run) in
/-- The values of a query are arranged without a change of the store. -/
theorem QueryId.arrange_runOn {method : String}
    {f : Grammar → Oracle → Value → Except Failure (List Value)} {values : List Value}
    (hg : s.grammarFor (s.query id).grammar method = .ok g)
    (hvalues : f g (s.oracle []) (.map (s.query id).bindings.toEntries) = .ok values) :
    (id.arrange run method f).runOn s = (.ok values, s) := by
  have harranged : (do
      let query := s.query id
      let g ← s.grammarFor query.grammar method
      f g (s.oracle []) (.map query.bindings.toEntries) : Except Failure (List Value)) =
        .ok values := by
    dsimp only
    rw [hg]
    exact hvalues
  unfold arrange
  rw [consult_runOn run (by rw [harranged]; exact asksNothing_ok values), harranged]

variable (run) in
/-- A statement that is compiled at once has its values arranged at once too. -/
theorem Change.runOn_statement {change : Change} (hassigns : change.Assigns)
    (hg : s.grammarFor (s.query id).grammar change.method = .ok g)
    (hasks : AsksNothing (s.settled.compiled [] id change.method fun g attached query =>
      (change.shown s).sql g attached query)) :
    ∃ bindings, (change.statement run id).runOn s =
      ((s.settled.compiled [] id change.method fun g attached query =>
        (change.shown s).sql g attached query).map fun sql => ⟨sql, bindings⟩, s) := by
  have hcompile : (id.compile run change.method fun g attached query =>
      (change.shown s).sql g attached query).runOn s =
        (s.settled.compiled [] id change.method fun g attached query =>
          (change.shown s).sql g attached query, s) := consult_runOn run hasks
  have hany := Store.grammarFor_any hg change.method_not_mem
  generalize s.settled.compiled [] id change.method (fun g attached query =>
    (change.shown s).sql g attached query) = r at hcompile ⊢
  cases change with
  | update values =>
    obtain ⟨entries, rfl, _⟩ := hassigns
    have hshown : (Value.map entries).shown.runOn s = (.ok (s.shown (.map entries)), s) := rfl
    have hnow : (Value.map entries).now.runOn s = (.ok (.map entries), s) := rfl
    have harrange := QueryId.arrange_runOn run (hany "prepare_bindings_for_update")
      (f := fun g oracle bindings => g.updateBindings oracle bindings (.map entries))
      (Grammar.updateBindings_eq _ _ entries)
    refine ⟨g.updateValues (s.query id).bindings (assignedValues entries), ?_⟩
    unfold statement QueryId.toUpdateSql
    rw [Action.runOn_bind_ok hshown]
    cases r with
    | error e => exact Action.runOn_bind_error hcompile
    | ok sql =>
      refine (Action.runOn_bind_ok hcompile).trans ?_
      rw [Action.runOn_bind_ok hnow, Action.runOn_bind_ok harrange]
      rfl
  | delete =>
    have harrange := QueryId.arrange_runOn run (hany "prepare_bindings_for_delete")
      (f := fun _ oracle bindings => Grammar.deleteBindings oracle bindings)
      (Grammar.deleteBindings_eq _ _)
    refine ⟨Grammar.deleteValues (s.query id).bindings, ?_⟩
    show (do
      let sql ← id.compile run "compile_delete" Grammar.deleteSql
      let bindings ← id.arrange run "prepare_bindings_for_delete" fun _ oracle bindings =>
        Grammar.deleteBindings oracle bindings
      return ⟨sql, bindings⟩ : Action Statement).runOn s = _
    cases r with
    | error e => exact Action.runOn_bind_error hcompile
    | ok sql =>
      refine (Action.runOn_bind_ok hcompile).trans ?_
      rw [Action.runOn_bind_ok harrange]
      rfl

/-- A query as it is compiled has the limit of the query, its joins and its unions. -/
theorem Grammar.keepsLimit_settled :
    g.KeepsLimit (t.settled.query id) ↔ g.KeepsLimit (t.query id) := by
  rw [Store.query_settled]
  unfold KeepsLimit
  cases g.dialect with
  | mysql => exact List.map_eq_nil_iff
  | _ => exact Iff.rfl

theorem Store.isUnion_settled : (t.settled.query id).isUnion = (t.query id).isUnion := by
  rw [query_settled]
  unfold Query.isUnion
  cases hunions : (t.query id).unions <;> simp only [Query.rename, hunions, List.map_nil,
    List.map_cons, List.isEmpty_nil, List.isEmpty_cons]

/-- An update or delete of a query that is limited and has no union.  If the dialect keeps its
limit, the statement has it, and if not, it is the one of the query without the limit.  Where all
that is written can be written, there is a statement unless the dialect lacks a construct. -/
theorem QueryId.change_limited {world : Array Callback → Prop} (hworld : world s.callbacks)
    (hanswers : ∀ (request : Request) callback, s.extension? request.name = some callback →
      run.OnlyAnswers world callback)
    (hid : id.index < s.queries.size) (change : Change) {n : Nat}
    (hlimit : (s.query id).limit = some n) (hunion : (s.query id).unions = []) :
    (∀ st s', Ran (change.statement run id) s st s' →
      ∃ g, s.grammarFor (s.query id).grammar change.method = .ok g ∧
        (g.KeepsLimit (s.query id) → Limited n st.sql) ∧
        (¬g.KeepsLimit (s.query id) → ∃ (t : Store) (known : KnownAnswers), s.Remains t ∧
          (change.shown s).sql g (t.settled.attached g known)
            { t.settled.query id with limit := none } = .ok st.sql)) ∧
    ∀ g p, s.grammarFor (s.query id).grammar change.method = .ok g → g.tablePrefix = .text p →
      '.' ∉ p.toList → s.settled.Uncircled (.select id) →
      (∀ part, s.settled.Visits (.select id) part → ∀ item ∈ s.settled.items part, item.Writes) →
      change.Assigns → (s.query id).source.IsReference →
      s.settled.canCopy (s.settled.query id) = true →
      ∃ r, (change.statement run id).runOn s = (r, s) ∧
        ((∃ st, r = .ok st) ∨ ∃ feature, r = .error (.unsupported feature)) := by
  constructor
  · intro st s' hran
    obtain ⟨t, hcompile⟩ := Change.ran_statement hran
    obtain ⟨hremains, known, hcompiled⟩ := ran_consult_remains hworld hanswers hcompile
    have hsame : t.query id = s.query id := hremains.query id hid
    obtain ⟨g, hg, hsql⟩ := Name.bind_eq_ok hcompiled
    rw [Store.grammarFor_settled, hsame] at hg
    refine ⟨g, hremains.grammarFor hg, fun hkeeps => ?_, fun hdrops => ⟨t, known, hremains, ?_⟩⟩
    · have hsettledLimit : (t.settled.query id).limit = some n := by
        rw [Store.query_settled, hsame]
        exact hlimit
      have hsettledKeeps : g.KeepsLimit (t.settled.query id) :=
        Grammar.keepsLimit_settled.2 (hsame ▸ hkeeps)
      refine Change.sql_limited hsettledKeeps hsettledLimit ?_ hsql
      rw [Store.isUnion_settled, hsame, Query.isUnion_eq_false hunion]
    · rw [← hsame, ← Grammar.keepsLimit_settled] at hdrops
      exact (Change.sql_unlimited hdrops).symm.trans hsql
  · intro g p hg hp hdot hcircle hwrites hassigns hsource hcopy
    have hg' : s.settled.grammarFor (s.settled.query id).grammar change.method = .ok g := by
      rw [Store.grammarFor_settled, hg]
    have hsource' : (s.settled.query id).source.IsReference := by
      rw [Store.query_settled]
      obtain ⟨name, hname⟩ | ⟨_, hraw, name, rfl⟩ := hsource
      · exact .inl ⟨name, congrArg _ hname⟩
      · exact .inr ⟨_, congrArg _ hraw, name, rfl⟩
    have hunion' : (s.settled.query id).isUnion = false := by
      rw [Store.isUnion_settled, Query.isUnion_eq_false hunion]
    rw [← change.method_shown (s := s)] at hg'
    have hends := Store.change_supported hg' hp hdot hcircle hwrites hassigns.shown hsource' hcopy
      hunion'
    rw [change.method_shown] at hends
    have hasks : AsksNothing (s.settled.compiled [] id change.method fun g attached query =>
        (change.shown s).sql g attached query) := by
      rcases hends with ⟨sql, hsql⟩ | ⟨feature, hfeature⟩
      · rw [hsql]
        exact asksNothing_ok sql
      · rw [hfeature]
        exact asksNothing_unsupported feature
    obtain ⟨bindings, hstatement⟩ := Change.runOn_statement run hassigns hg hasks
    refine ⟨_, hstatement, hends.imp ?_ ?_⟩
    · rintro ⟨sql, hsql⟩
      exact ⟨_, by rw [hsql]; rfl⟩
    · rintro ⟨feature, hfeature⟩
      exact ⟨feature, by rw [hfeature]; rfl⟩

end

/-- A delete of joined tables that is limited to one row. -/
def limitedJoin : Action Statement := do
  QueryId.setSource Runner.idle ⟨0⟩ (.text "t") .null
  QueryId.join Runner.idle ⟨0⟩ (.text "u") (.text "t.id") (.text "=") (.text "u.id") (.text "inner")
    false
  QueryId.limit ⟨0⟩ (.int 1)
  Change.delete.statement Runner.idle ⟨0⟩

/-- In MySQL it reaches all rows. -/
theorem change_drops_limit : ∃ st s',
    limitedJoin.runOn (Store.ofDialect .mysql "") = (.ok st, s') ∧
      (s'.query ⟨0⟩).limit = some 1 ∧ (s'.query ⟨0⟩).unions = [] ∧ ¬Limited 1 st.sql := by
  have hlimit : ((limitedJoin.runOn (Store.ofDialect .mysql "")).2.query ⟨0⟩).limit = some 1 := by
    decide +kernel
  have hunions : ((limitedJoin.runOn (Store.ofDialect .mysql "")).2.query ⟨0⟩).unions = [] :=
    List.isEmpty_iff.1 (by decide +kernel)
  have hlacks : (limitedJoin.runOn (Store.ofDialect .mysql "")).1.toOption.any (fun st =>
      !decide ((limitClause 1).toList <:+: st.sql.toList)) = true := by decide +kernel
  cases hmade : (limitedJoin.runOn (Store.ofDialect .mysql "")).1 with
  | error e =>
    rw [hmade] at hlacks
    cases hlacks
  | ok st =>
    rw [hmade] at hlacks
    have hlacks : ¬(limitClause 1).toList <:+: st.sql.toList := by
      rw [Except.toOption, Option.any_some, Bool.not_eq_true'] at hlacks
      exact of_decide_eq_false hlacks
    exact ⟨st, _, Prod.ext hmade rfl, hlimit, hunions, fun hlimited => hlacks hlimited.contains⟩

/-- A store with a query that is limited to two rows of a table. -/
def Store.limited : Store :=
  ((QueryId.limit ⟨0⟩ (.int 2)).runOn (Store.ofTable "users")).2

/-- In SQLite the rows are selected by their address, two of them. -/
theorem QueryId.change_limited_users : ∃ st s',
    (Change.delete.statement Runner.idle ⟨0⟩).runOn Store.limited = (.ok st, s') ∧
      Limited 2 st.sql ∧ s' = Store.limited := by
  have hanswers : ∀ (request : Request) callback,
      Store.limited.extension? request.name = some callback →
        Runner.idle.OnlyAnswers (fun _ => True) callback := fun _ _ h => by cases h
  have hid : (⟨0⟩ : QueryId).index < Store.limited.queries.size := by decide
  obtain ⟨hlimited, hends⟩ := QueryId.change_limited trivial hanswers hid .delete (n := 2) rfl rfl
  have hitems : Store.limited.items (.select ⟨0⟩) =
      [.column (.text "*"), .table (.text "users"), .number 2] := rfl
  have hhandles : (Store.limited.query ⟨0⟩).handles = [.grammar ⟨0⟩] := by decide +kernel
  have hgrammar : Store.limited.grammarFor (Store.limited.query ⟨0⟩).grammar "compile_delete" =
      .ok { dialect := .sqlite } := rfl
  have hcopy : Store.limited.settled.canCopy (Store.limited.settled.query ⟨0⟩) = true := by
    decide +kernel
  have hsupported : ((Change.delete.statement Runner.idle ⟨0⟩).runOn
      Store.limited).1.toOption.isSome = true := by decide +kernel
  have hsource : (Store.limited.query ⟨0⟩).source.IsReference := .inl ⟨"users", rfl⟩
  generalize Store.limited = s at *
  rw [← Store.items_settled fun other => by simp [Part.query, hhandles]] at hitems
  have hnone : s.settled.parts (.select ⟨0⟩) = [] := by
    rw [Store.parts, hitems]
    rfl
  have hvisits : ∀ part, s.settled.Visits (.select ⟨0⟩) part → part = .select ⟨0⟩ := by
    intro part hpart
    rcases hpart.cases_head with rfl | ⟨next, hnext, _⟩
    · rfl
    · rw [Store.Encloses, hnone] at hnext
      cases hnext
  have hwithin : s.settled.Within 1 (.select ⟨0⟩) := by
    intro inner hinner
    rw [hnone] at hinner
    cases hinner
  obtain ⟨r, hr, hend⟩ := hends _ "" hgrammar rfl (by decide)
    hwithin.uncircled
    (by
      intro part hpart
      rw [hvisits part hpart, hitems]
      have hcount : (2 : Int).natAbs < 10 ^ Number.maxNumeralDigits :=
        Nat.lt_of_lt_of_le (show 2 < 10 ^ 1 by decide)
          (Nat.pow_le_pow_right (by decide) (by decide))
      simpa [Item.Writes, Value.IsReference, Value.IsText] using hcount)
    trivial hsource hcopy
  rcases hend with ⟨st, rfl⟩ | ⟨feature, rfl⟩
  · refine ⟨st, s, hr, ?_, rfl⟩
    obtain ⟨g, hg, hkept, _⟩ := hlimited st s hr
    cases hgrammar.symm.trans hg
    exact hkept trivial
  · rw [hr] at hsupported
    cases hsupported

end FluentSql
