import FluentSql.Proofs.Edits.Calls
import FluentSql.Proofs.Renaming
import FluentSql.Proofs.Restricting

/-!
# Regular queries

Whatever is called on queries, and whether the calls fail or not, the queries
of a store and everything attached to them stay regular: what belongs to a
union is there only if there is a union, and every condition has what its kind
wants.

* `Query.Regular` is the invariant of a query.  `Query.InRange` lists what its
  types already say.
* `Edit.regular_apply` is one edit, and `Policy.Edited.regular` a whole run of
  edits.
* `Called` are calls one after the other, with callbacks that again only call.
* `Grammar.conditionsSql_eq_empty_iff` says which conditions have no text.
* `called_regular` is the result.
-/

namespace FluentSql

variable {puts : Value → Prop} {s s' : Store}

/-! ## The invariant -/

/-- A query of a store is regular.  Without a union there is no ordering and no paging of one, and
the groups of its bindings hold only what was put there by name. -/
structure Query.Regular (puts : Value → Prop) (s : Store) (q : Query) : Prop where
  unionOrders : q.unions = [] → q.unionOrders = []
  unionPaging : q.unions = [] → q.unionLimit = none ∧ q.unionOffset = none
  unionBindings : q.unions = [] → ∀ group ∈ BindingGroup.ofUnion, ∀ v ∈ q.bindings.get group,
    puts v
  wheres : ∀ c ∈ q.wheres, c.body.Sound s
  havings : ∀ c ∈ q.havings, c.body.Sound

/-- All queries of a store are regular. -/
def Store.Regular (puts : Value → Prop) (s : Store) : Prop :=
  ∀ id, (s.query id).Regular puts s

/-- What the types of a query say: paging is by numbers that are not negative, orderings go one of two
ways, integers that are written into the SQL are integers, and there are nine groups of bindings. -/
structure Query.InRange (q : Query) : Prop where
  paging : ∀ page ∈ [q.limit, q.offset, q.unionLimit, q.unionOffset],
    page = none ∨ ∃ n : Nat, page = some n ∧ 0 ≤ (n : Int)
  directions : ∀ column direction, Order.byColumn column direction ∈ q.orders ++ q.unionOrders →
    direction.word = "asc" ∨ direction.word = "desc"
  integers : ∀ boolean column values negated,
    ⟨boolean, .amongIntegers column values negated⟩ ∈ q.wheres →
      ∀ i ∈ values, (Value.int i).toInt = .ok i
  groups : q.bindings.toEntries.map (·.1) =
    ["select", "from", "join", "where", "group_by", "having", "order", "union",
      "union_order"].map .text

theorem Query.inRange (q : Query) : q.InRange where
  paging page _ := by
    cases page with
    | none => exact .inl rfl
    | some n => exact .inr ⟨n, rfl, Int.natCast_nonneg n⟩
  directions _ direction _ := by
    cases direction with
    | ascending => exact .inl rfl
    | descending => exact .inr rfl
  integers _ _ _ _ _ _ _ := rfl
  groups := rfl

/-- A new query is regular, having no clauses. -/
theorem Query.IsNew.regular {q : Query} (h : q.IsNew) : q.Regular puts s := by
  obtain ⟨kind, connection, grammar, rfl⟩ := h
  refine ⟨fun _ => rfl, fun _ => ⟨rfl, rfl⟩, fun _ group _ v hv => ?_, nofun, nofun⟩
  cases group <;> exact nomatch hv

/-! ## Edits -/

theorem Where.Sound.mono {body : Where} (h : body.Sound s)
    (hkept : ∀ id, (s.query id).wheres ≠ [] → (s'.query id).wheres ≠ []) : body.Sound s' := by
  cases body with
  | nested query => exact hkept query h
  | _ => exact h

theorem Query.Regular.mono {q : Query} (h : q.Regular puts s)
    (hkept : ∀ id, (s.query id).wheres ≠ [] → (s'.query id).wheres ≠ []) : q.Regular puts s' :=
  { h with wheres := fun c hc => (h.wheres c hc).mono hkept }

/-- Other bindings, which hold nothing new in the groups of a union that there is not. -/
theorem Query.Regular.withBindings {q : Query} (h : q.Regular puts s) (bindings : Bindings)
    (hnew : q.unions = [] → ∀ group ∈ BindingGroup.ofUnion, ∀ v ∈ bindings.get group,
      puts v ∨ v ∈ q.bindings.get group) :
    { q with bindings := bindings }.Regular puts s :=
  { h with
    unionBindings := fun hnone group hgroup v hv =>
      (hnew hnone group hgroup v hv).elim id (h.unionBindings hnone group hgroup v) }

theorem Query.Regular.rebind {q : Query} (h : q.Regular puts s) (group : BindingGroup)
    (values : List Value)
    (hnew : q.unions = [] → group ∈ BindingGroup.ofUnion → ∀ v ∈ values,
      puts v ∨ v ∈ q.bindings.get group) : (q.rebind group values).Regular puts s := by
  refine h.withBindings _ fun hnone other hother v hv => ?_
  by_cases heq : other = group
  · subst heq
    rw [Bindings.get_set_self] at hv
    exact hnew hnone hother v hv
  · rw [Bindings.get_set_of_ne _ _ heq] at hv
    exact .inr hv

theorem Query.isUnion_eq_false {q : Query} (h : q.unions = []) : q.isUnion = false := by
  unfold isUnion
  rw [h]
  rfl

/-- What is set for a union if there is one, and for the query itself if not. -/
theorem Query.Regular.ofUnion {q ofUnion ofQuery : Query}
    (hunion : q.unions ≠ [] → ofUnion.Regular puts s) (hquery : ofQuery.Regular puts s) :
    (if q.isUnion then ofUnion else ofQuery).Regular puts s := by
  split
  · rename_i h
    refine hunion fun hnone => ?_
    rw [Query.isUnion_eq_false hnone] at h
    exact nomatch h
  · exact hquery

/-- An edit that fits leaves a query regular.  There is one case for each edit. -/
theorem Edit.regular_apply {p : Policy} {t : QueryId} (e : Edit) (hfits : e.Fits p s t)
    (h : (s.query t).Regular p.puts s) : (e.apply (s.query t)).Regular p.puts s := by
  generalize hq : s.query t = q at h
  cases e with
  | condition boolean body =>
    exact { h with wheres := List.forall_mem_append.2 ⟨h.wheres, List.forall_mem_singleton.2 hfits⟩ }
  | groupCondition boolean body =>
    exact { h with
      havings := List.forall_mem_append.2 ⟨h.havings, List.forall_mem_singleton.2 hfits⟩ }
  | order o =>
    exact .ofUnion (fun hsome => { h with unionOrders := fun hnone => absurd hnone hsome }) { h with }
  | dropOrders =>
    refine { (h.rebind .order [] ?_).rebind .unionOrder [] ?_ with unionOrders := fun _ => rfl }
    · exact fun _ _ _ hv => nomatch hv
    · exact fun _ _ _ hv => nomatch hv
  | unorder => exact { h.rebind .order [] fun _ _ _ hv => nomatch hv with }
  | offset n =>
    exact .ofUnion (fun hsome => { h with unionPaging := fun hnone => absurd hnone hsome }) { h with }
  | limit n =>
    exact .ofUnion (fun hsome => { h with unionPaging := fun hnone => absurd hnone hsome }) { h with }
  | unite member =>
    have hsome : q.unions ++ [member] ≠ [] := List.append_ne_nil_of_right_ne_nil _ (by simp)
    exact { h with
      unionOrders := fun hnone => absurd hnone hsome
      unionPaging := fun hnone => absurd hnone hsome
      unionBindings := fun hnone => absurd hnone hsome }
  | bind group values =>
    refine h.rebind group _ fun hnone hgroup v hv => (List.mem_append.1 hv).elim .inr fun hnew => ?_
    have hpermits : p.Permits q group values := hq ▸ hfits
    exact hpermits hgroup (Query.isUnion_eq_false hnone) v hnew
  | rebind group values =>
    have hpermits : p.Permits q group values := hq ▸ hfits
    exact h.rebind group values fun hnone hgroup => hpermits hgroup (Query.isUnion_eq_false hnone)
  | merge added =>
    refine h.withBindings _ fun hnone group hgroup v hv => ?_
    rw [Bindings.get_merge] at hv
    have hpermits : p.Permits q group (added.get group) := hq ▸ hfits group
    exact (List.mem_append.1 hv).elim .inr
      (hpermits hgroup (Query.isUnion_eq_false hnone) v)
  | _ => exact { h with }

/-! ## Copies -/

/-- The copy of a condition is sound where the copies are. -/
theorem Where.Sound.copied {body : Where} (h : body.Sound s) (handles : List Handle) :
    (body.rename (s.copyRenaming handles)).Sound (s.addCopies handles) := by
  cases body with
  | nested query => exact Store.wheres_copied h
  | between column values negated => exact fun hnil => h (List.map_eq_nil_iff.1 hnil)
  | rowValues columns operator values =>
    show (columns.map _).length = (values.map _).length
    rw [List.length_map, List.length_map]
    exact h
  | _ => exact trivial

theorem Having.Sound.rename {body : Having} (h : body.Sound) (r : Renaming) :
    (body.rename r).Sound := by
  cases body with
  | between column values negated => exact fun hnil => h (List.map_eq_nil_iff.1 hnil)
  | _ => exact trivial

/-- A copy is regular if what was put among the bindings of a union may be copied. -/
theorem Query.Regular.copied {q : Query} (h : q.Regular puts s)
    (hputs : ∀ (r : Renaming) v, puts v → puts (r.value v)) (handles : List Handle) :
    (q.rename (s.copyRenaming handles)).Regular puts (s.addCopies handles) where
  unionOrders hnone := by
    have hnone := h.unionOrders (List.map_eq_nil_iff.1 hnone)
    exact List.map_eq_nil_iff.2 hnone
  unionPaging hnone := h.unionPaging (List.map_eq_nil_iff.1 hnone)
  unionBindings hnone group hgroup v hv := by
    have hv : v ∈ (q.bindings.map (s.copyRenaming handles).value).get group := hv
    rw [Bindings.get_map] at hv
    obtain ⟨before, hbefore, rfl⟩ := List.mem_map.1 hv
    exact hputs _ _ (h.unionBindings (List.map_eq_nil_iff.1 hnone) group hgroup before hbefore)
  wheres c hc := by
    obtain ⟨before, hbefore, rfl⟩ := List.mem_map.1 hc
    exact (h.wheres before hbefore).copied handles
  havings c hc := by
    obtain ⟨before, hbefore, rfl⟩ := List.mem_map.1 hc
    exact (h.havings before hbefore).rename _

/-! ## Runs of edits -/

theorem Edit.kept_wheres (s : Store) (t : QueryId) (e : Edit) (id : QueryId)
    (h : (s.query id).wheres ≠ []) : ((s.edit t e.apply).query id).wheres ≠ [] := by
  rcases s.query_edit_cases t e.apply id with heq | ⟨_, _, heq⟩
  · rwa [heq]
  · rw [heq]
    exact e.wheres_apply h

theorem Store.Regular.edit {p : Policy} {t : QueryId} {e : Edit} (hfits : e.Fits p s t)
    (h : s.Regular p.puts) : (s.edit t e.apply).Regular p.puts := by
  intro id
  refine Query.Regular.mono (s := s) ?_ (e.kept_wheres s t)
  rcases s.query_edit_cases t e.apply id with heq | ⟨rfl, _, heq⟩
  · rw [heq]
    exact h id
  · rw [heq]
    exact e.regular_apply hfits (h id)

/-- Edits that fit leave all queries regular. -/
theorem Policy.Edited.regular {p : Policy} (hputs : ∀ (r : Renaming) v, p.puts v → p.puts (r.value v))
    (hedited : p.Edited s s') (h : s.Regular p.puts) : s'.Regular p.puts := by
  induction hedited with
  | refl => exact h
  | edit _ t e hfits ih => exact ih.edit hfits
  | @add s1 before q hnew ih =>
    intro id
    have hkept : ∀ id, (s1.query id).wheres ≠ [] → ((s1.add q).query id).wheres ≠ [] :=
      fun id hne => by rwa [Store.query_add_of_lt (Store.lt_of_wheres hne)]
    rcases s1.query_add_cases q id with heq | heq
    · rw [heq]
      exact (ih id).mono hkept
    · rw [heq]
      exact hnew.regular
  | @copy s1 before handles ih =>
    intro id
    rcases s1.query_addCopies_cases handles id with heq | ⟨_, source, heq⟩
    · rw [heq]
      exact (ih id).mono fun id hne => by
        rwa [Store.query_addCopies_of_lt (Store.lt_of_wheres hne)]
    · rw [heq]
      exact (ih source).copied hputs handles
  | @beside s1 s2 _ hqueries ih =>
    intro id
    rw [Store.query_of_queries hqueries]
    exact (ih id).mono fun id hne => by rwa [Store.query_of_queries hqueries]

/-! ## Orderings and paging of a query with unions -/

/-- The ordering and the paging that a query has for itself are those of another. -/
structure Query.SameOrdering (q q' : Query) : Prop where
  orders : q'.orders = q.orders
  limit : q'.limit = q.limit
  offset : q'.offset = q.offset

/-- Only an edit that removes orderings changes those that a query with unions has for itself. -/
theorem Edit.sameOrdering_apply {p : Policy} {t : QueryId} {e : Edit} {q : Query}
    (hreorders : ¬p.reorders) (ht : t.index < p.start) (hfits : e.Fits p s t)
    (h : q.isUnion = true) : q.SameOrdering (e.apply q) := by
  cases e with
  | order o =>
    show q.SameOrdering (if q.isUnion then _ else _)
    rw [if_pos h]
    exact ⟨rfl, rfl, rfl⟩
  | offset n =>
    show q.SameOrdering (if q.isUnion then _ else _)
    rw [if_pos h]
    exact ⟨rfl, rfl, rfl⟩
  | limit n =>
    show q.SameOrdering (if q.isUnion then _ else _)
    rw [if_pos h]
    exact ⟨rfl, rfl, rfl⟩
  | dropOrders => exact absurd hfits hreorders
  | unorder => exact absurd ht (Nat.not_lt.2 hfits)
  | _ => exact ⟨rfl, rfl, rfl⟩

theorem Policy.Edited.sameOrdering {p : Policy} (hreorders : ¬p.reorders)
    (hedited : p.Edited s s') {id : QueryId} (hid : id.index < p.start)
    (h : (s.query id).isUnion = true) : (s.query id).SameOrdering (s'.query id) := by
  have hlt := Store.lt_of_isUnion h
  induction hedited with
  | refl => exact ⟨rfl, rfl, rfl⟩
  | @edit s1 before t e hfits ih =>
    rcases s1.query_edit_cases t e.apply id with heq | ⟨rfl, _, heq⟩
    · rwa [heq]
    · rw [heq]
      have hstep := Edit.sameOrdering_apply hreorders hid hfits (before.isUnion h)
      exact ⟨hstep.orders.trans ih.orders, hstep.limit.trans ih.limit,
        hstep.offset.trans ih.offset⟩
  | add before q hnew ih => rwa [Store.query_add_of_lt (Nat.lt_of_lt_of_le hlt before.size_le)]
  | copy before handles ih =>
    rwa [Store.query_addCopies_of_lt (Nat.lt_of_lt_of_le hlt before.size_le)]
  | beside _ hqueries ih => rwa [Store.query_of_queries hqueries]

/-! ## Calls -/

/-- Calls of methods of some names, one after the other, whether they succeed or fail, on queries and
join conditions, with new queries and changes beside the queries in between.  Callbacks and extensions
again only call.  What calls put into a binding group of a union by its name satisfies a condition. -/
inductive Called (allowed : String → Prop) (puts : Value → Prop) : Store → Store → Prop where
  /-- Nothing is called. -/
  | nil (s : Store) : Called allowed puts s s
  /-- A method is called. -/
  | call {s s' : Store} {m : Method QueryId} {run : Runner} {q : QueryId} {placed : List Value}
      {named : List (String × Value)} (hm : m ∈ queryMethods ++ joinMethods)
      (hname : allowed m.name)
      (hrun : ∀ callback q extra s, Called allowed puts s ((run callback q extra).runOn s).2)
      (hputs : m.name ∈ puttingCalls →
        s.PutsOnly puts q ((m.call run q placed named).runOn s).2)
      (rest : Called allowed puts ((m.call run q placed named).runOn s).2 s') :
      Called allowed puts s s'
  /-- A query is made. -/
  | make {s s' : Store} {q : Query} (hnew : q.IsNew) (rest : Called allowed puts (s.add q) s') :
      Called allowed puts s s'
  /-- No query changes. -/
  | beside {s s1 s' : Store} (hqueries : s1.queries = s.queries)
      (rest : Called allowed puts s1 s') : Called allowed puts s s'

theorem Called.trans {allowed : String → Prop} {t : Store} (h : Called allowed puts s s')
    (h' : Called allowed puts s' t) : Called allowed puts s t := by
  induction h with
  | nil s => exact h'
  | call hm hname hrun hputs _ _ ih => exact .call hm hname hrun hputs (ih h')
  | make hnew _ ih => exact .make hnew (ih h')
  | beside hqueries _ ih => exact .beside hqueries (ih h')

/-- One call that puts nothing into a group by its name. -/
theorem Called.one {allowed : String → Prop} {m : Method QueryId} {run : Runner}
    (hm : m ∈ queryMethods ++ joinMethods) (hname : allowed m.name)
    (hputs : m.name ∉ puttingCalls)
    (hrun : ∀ callback q extra s, Called allowed puts s ((run callback q extra).runOn s).2)
    (q : QueryId) (placed : List Value) (s : Store) :
    Called allowed puts s ((m.call run q placed []).runOn s).2 :=
  .call hm hname hrun (fun hmem => absurd hmem hputs) (.nil _)

/-- Calls make edits only. -/
theorem Called.edited {allowed : String → Prop} {p : Policy} (h : Called allowed p.puts s s')
    (hreset : ¬allowed "clone_without") (hreorder : allowed "reorder" → p.reorders)
    (hs : p.start ≤ s.queries.size) : p.Edited s s' := by
  induction h with
  | nil s => exact .refl
  | @call s s' m run q placed named hm hname _ hputs _ ihrun ihrest =>
    have hcall : p.Edited s ((m.call run q placed named).runOn s).2 :=
      edited_call (fun callback q extra s hs => ihrun callback q extra s hs) hm
        (fun heq => hreorder (heq ▸ hname)) (fun heq => hreset (heq ▸ hname)) hs hputs
    exact hcall.trans (ihrest (Nat.le_trans hs hcall.size_le))
  | @make s s' q hnew _ ih =>
    have hmade : p.Edited s (s.add q) := .add .refl q hnew
    exact hmade.trans (ih (Nat.le_trans hs hmade.size_le))
  | @beside s s1 s' hqueries _ ih =>
    have hbeside : p.Edited s s1 := .beside .refl hqueries
    exact hbeside.trans (ih (Nat.le_trans hs hbeside.size_le))

/-! ## Groups without a text -/

/-- A text that is made is not empty. -/
def IsWritten (r : Except Failure String) : Prop :=
  r ≠ .ok ""

theorem isWritten_ok {t : String} (h : t ≠ "") : IsWritten (.ok t) :=
  fun heq => h (Except.ok.inj heq)

theorem isWritten_bind {α : Type} {x : Except Failure α} {f : α → Except Failure String}
    (h : ∀ v, IsWritten (f v)) : IsWritten (x >>= f) := by
  cases x with
  | error e => exact nofun
  | ok v => exact h v

namespace Grammar

variable (g : Grammar)

theorem comparisonSql_isWritten (column : Value) (operator : String) (value : Value) :
    IsWritten (g.comparisonSql column operator value) :=
  isWritten_bind fun _ => isWritten_ok (by simp)

theorem basicSql_isWritten (column : Value) (operator : String) (value : Value) :
    IsWritten (g.basicSql column operator value) := by
  unfold basicSql
  split
  · exact isWritten_bind fun _ => isWritten_ok (by simp)
  · exact g.comparisonSql_isWritten column operator value

theorem amongSql_isWritten (column : Value) (values : Except Failure String)
    (isEmpty negated : Bool) : IsWritten (g.amongSql column values isEmpty negated) := by
  unfold amongSql
  split
  · exact isWritten_ok (by split <;> decide)
  · exact isWritten_bind fun _ => isWritten_bind fun _ => isWritten_ok (by simp)

theorem plainNullSql_isWritten (column : Value) (negated : Bool) :
    IsWritten (g.plainNullSql column negated) := by
  refine isWritten_bind fun _ => isWritten_ok ?_
  cases negated <;> simp

theorem nullSql_isWritten (column : Value) (negated : Bool) :
    IsWritten (g.nullSql column negated) := by
  unfold nullSql
  split
  · split
    · refine isWritten_bind fun _ => isWritten_ok ?_
      cases negated <;> simp
    · exact g.plainNullSql_isWritten _ negated
  · exact g.plainNullSql_isWritten _ negated

theorem betweenSql_isWritten (column : Value) (values : List Value) (negated : Bool) :
    IsWritten (g.betweenSql column values negated) := by
  unfold betweenSql
  split
  · exact isWritten_bind fun _ => isWritten_ok (by simp)
  · exact nofun

theorem datePartSql_isWritten (part : DatePart) (column : Value) (operator : String)
    (value : Value) : IsWritten (g.datePartSql part column operator value) := by
  refine isWritten_bind fun _ => isWritten_ok ?_
  split <;> simp

theorem jsonContainsSql_isWritten (oracle : Oracle) (column value : Value) :
    IsWritten (g.jsonContainsSql oracle column value) := by
  unfold jsonContainsSql
  split
  · exact isWritten_bind fun _ => isWritten_ok (by simp)
  · exact isWritten_bind fun _ => isWritten_bind fun _ => isWritten_ok (by simp)
  · exact nofun

theorem jsonLengthSql_isWritten (oracle : Oracle) (column : Value) (operator : String)
    (value : Value) : IsWritten (g.jsonLengthSql oracle column operator value) := by
  unfold jsonLengthSql
  split
  · exact nofun
  · exact isWritten_bind fun _ => isWritten_ok (by simp)
  · exact isWritten_bind fun _ => isWritten_bind fun _ => isWritten_ok (by simp)
  · exact isWritten_bind fun _ => isWritten_ok (by simp)

/-- Only a fragment may have no text. -/
theorem whereSql_isWritten (attached : Attached) {body : Where} (h : ∀ sql, body ≠ .raw sql) :
    IsWritten (g.whereSql attached body) := by
  cases body with
  | raw sql => exact absurd rfl (h sql)
  | basic column operator value => exact g.basicSql_isWritten _ _ _
  | among column values negated => exact g.amongSql_isWritten _ _ _ _
  | amongIntegers column values negated => exact isWritten_bind fun _ => g.amongSql_isWritten _ _ _ _
  | null column negated => exact g.nullSql_isWritten _ _
  | between column values negated => exact g.betweenSql_isWritten _ _ _
  | datePart part column operator value => exact g.datePartSql_isWritten _ _ _ _
  | columnPair first operator second =>
    exact isWritten_bind fun _ => isWritten_bind fun _ => isWritten_ok (by simp)
  | nested query => exact isWritten_bind fun _ => isWritten_ok (by simp)
  | sub column operator query =>
    exact isWritten_bind fun _ => isWritten_bind fun _ => isWritten_ok (by simp)
  | «exists» query negated => exact isWritten_bind fun _ => isWritten_ok (by simp)
  | rowValues columns operator values =>
    exact isWritten_bind fun _ => isWritten_bind fun _ => isWritten_ok (by simp)
  | jsonContains column value negated =>
    refine fun heq => ?_
    obtain ⟨document, hdocument, heq⟩ := Name.bind_eq_ok heq
    refine g.jsonContainsSql_isWritten attached.oracle column (parameter value) ?_
    rw [hdocument, (String.append_eq_empty_iff.1 (Except.ok.inj heq)).2]
  | jsonLength column operator value => exact g.jsonLengthSql_isWritten _ _ _ _

end Grammar

/-- A condition that prints nothing but its joining word: an empty fragment after `and` or `or`. -/
def Condition.IsBlank (c : Condition) : Prop :=
  (∃ sql, c.body = .raw sql ∧ sql.display = "") ∧
    c.boolean.display.toList.map Char.toLower ∈ ["and".toList, "or".toList]

/-- The words that are dropped before the first condition. -/
theorem dropConjunctionChars_eq_nil_iff (word : List Char) :
    dropConjunctionChars (word ++ [' ']) = [] ↔
      word.map Char.toLower ∈ ["and".toList, "or".toList] := by
  refine ⟨fun h => ?_, fun h => ?_⟩
  · generalize hcs : word ++ [' '] = cs at h
    unfold dropConjunctionChars at h
    split at h
    · rename_i o r rest
      split at h
      · rename_i hword
        subst h
        have hsame : word ++ [' '] = [o, r] ++ [' '] := hcs
        rw [List.append_cancel_right hsame]
        simp [hword]
      · exact nomatch h
    · rename_i a n d rest _
      split at h
      · rename_i hword
        subst h
        have hsame : word ++ [' '] = [a, n, d] ++ [' '] := hcs
        rw [List.append_cancel_right hsame]
        simp [hword]
      · exact nomatch h
    · exact absurd (hcs.trans h) (by simp)
  · simp only [List.mem_cons, List.not_mem_nil, or_false] at h
    rcases h with h | h
    · obtain ⟨a, n, d, rfl⟩ := List.length_eq_three.1 ((List.length_map _).symm.trans (congrArg _ h))
      simp only [List.map_cons, List.map_nil, String.reduceToList, List.cons.injEq, and_true] at h
      have hd : d ≠ ' ' := by
        rintro rfl
        exact absurd h.2.2 (by decide)
      exact (dropConjunctionChars_and [] hd).trans (if_pos h)
    · obtain ⟨o, r, rfl⟩ := List.length_eq_two.1 ((List.length_map _).symm.trans (congrArg _ h))
      simp only [List.map_cons, List.map_nil, String.reduceToList, List.cons.injEq, and_true] at h
      simp [dropConjunctionChars, h]

/-- A joining word before a text is all that is dropped. -/
theorem dropConjunction_eq_empty_iff (word text : String) :
    dropConjunction (word ++ " " ++ text) = "" ↔
      text = "" ∧ word.toList.map Char.toLower ∈ ["and".toList, "or".toList] := by
  rw [dropConjunction_append, String.append_eq_empty_iff, String.ofList_eq_empty_iff,
    dropConjunctionChars_eq_nil_iff, and_comm]

/-- Conditions have no text only if there is one, which is an empty fragment. -/
theorem Grammar.conditionsSql_eq_empty_iff {g : Grammar} {attached : Attached}
    {conditions : List Condition} (h : conditions ≠ []) :
    g.conditionsSql attached conditions = .ok "" ↔ ∃ c, conditions = [c] ∧ c.IsBlank := by
  refine ⟨fun hempty => ?_, ?_⟩
  · obtain ⟨fragments, hfragments, hjoined⟩ := Name.bind_eq_ok hempty
    have hjoined := Except.ok.inj hjoined
    cases conditions with
    | nil => exact absurd rfl h
    | cons c rest =>
      rw [List.mapM_cons] at hfragments
      obtain ⟨fragment, hfragment, hfragments⟩ := Name.bind_eq_ok hfragments
      obtain ⟨others, hothers, hfragments⟩ := Name.bind_eq_ok hfragments
      obtain ⟨text, htext, hfragment⟩ := Name.bind_eq_ok hfragment
      cases hfragment
      cases hfragments
      cases others with
      | nil =>
        obtain ⟨rfl, hword⟩ := (dropConjunction_eq_empty_iff _ _).1 hjoined
        cases rest with
        | cons second rest =>
          rw [List.mapM_cons] at hothers
          obtain ⟨_, _, hothers⟩ := Name.bind_eq_ok hothers
          obtain ⟨_, _, hothers⟩ := Name.bind_eq_ok hothers
          exact nomatch hothers
        | nil =>
          refine ⟨c, rfl, ?_, hword⟩
          by_contra hraw
          refine g.whereSql_isWritten attached (fun sql hbody => hraw ⟨sql, hbody, ?_⟩) htext
          rw [hbody] at htext
          exact Except.ok.inj htext
      | cons second others =>
        have hjoined : dropConjunction (c.boolean.display ++ " " ++
            (text ++ " " ++ joinWith " " (second :: others))) = "" := by
          rw [← hjoined]
          simp only [joinWith, String.append_assoc]
        have hnone := ((dropConjunction_eq_empty_iff _ _).1 hjoined).1
        simp at hnone
  · rintro ⟨c, rfl, ⟨sql, hbody, hsql⟩, hword⟩
    have hsingle : g.conditionsSql attached [c] =
        .ok (dropConjunction (c.boolean.display ++ " " ++ sql.display)) := by
      unfold Grammar.conditionsSql
      rw [List.mapM_cons, hbody]
      rfl
    rw [hsingle, (dropConjunction_eq_empty_iff _ _).2 ⟨hsql, hword⟩]

/-! ## Reachable queries -/

/-- A group prints empty parentheses only if it has one condition, which is an empty fragment. -/
theorem Store.Regular.group_eq_empty_iff (h : s.Regular puts) {id group : QueryId} {c : Condition}
    (hc : c ∈ (s.query id).wheres) (hgroup : c.body = .nested group) (g : Grammar) (oracle : Oracle)
    (depth : Nat) :
    g.whereSql (attachedBy s.settled g oracle (depth + 1)) (.nested group) = .ok "()" ↔
      ∃ only, (s.settled.query group).wheres = [only] ∧ only.IsBlank := by
  have hsome : (s.query group).wheres ≠ [] := by
    have hsound := (h id).wheres c hc
    rwa [hgroup] at hsound
  have hsettled : (s.settled.query group).wheres ≠ [] := by
    rw [Store.query_settled]
    exact Store.wheres_rename_ne_nil hsome
  have hblank : g.conditionsSql (attachedBy s.settled g oracle depth)
      (s.settled.query group).wheres = .ok "" ↔ _ := Grammar.conditionsSql_eq_empty_iff hsettled
  rw [← hblank]
  show (do return "(" ++ (← g.conditionsSql _ _) ++ ")") = Except.ok "()" ↔ _
  cases g.conditionsSql (attachedBy s.settled g oracle depth) (s.settled.query group).wheres with
  | error e => exact iff_of_false nofun nofun
  | ok text =>
    refine ⟨fun heq => ?_, fun heq => ?_⟩
    · have htext : ("(" ++ text) ++ ")" = ("(" ++ "") ++ ")" := Except.ok.inj heq
      rw [String.append_left_inj, String.append_right_inj] at htext
      rw [htext]
    · rw [Except.ok.inj heq]
      rfl

/-- In every store that calls reach from new queries and join conditions, whether the calls succeed or
fail, every query is regular, and so is everything attached to it; a group prints empty parentheses
only if its one condition is an empty fragment.  Once a query is a union it stays one, and no call but
`reorder` changes the ordering and the paging that it has for itself. -/
theorem called_regular {puts : Value → Prop}
    (hputs : ∀ (r : Renaming) v, puts v → puts (r.value v)) {s₀ s : Store}
    (hnew : ∀ id, (s₀.query id).IsNew) (h : Called (· ≠ "clone_without") puts s₀ s) :
    (∀ id, (s.query id).Regular puts s ∧ (s.query id).InRange) ∧
      (∀ id c group, c ∈ (s.query id).wheres → c.body = .nested group →
        ∀ (g : Grammar) oracle depth,
          g.whereSql (attachedBy s.settled g oracle (depth + 1)) (.nested group) = .ok "()" ↔
            ∃ only, (s.settled.query group).wheres = [only] ∧ only.IsBlank) ∧
      ∀ s', Called (fun name => name ≠ "clone_without" ∧ name ≠ "reorder") (fun _ => True) s s' →
        ∀ id, (s.query id).isUnion = true →
          (s'.query id).isUnion = true ∧ (s.query id).SameOrdering (s'.query id) := by
  have hedited : Policy.Edited ⟨0, puts, True⟩ s₀ s :=
    h.edited (p := ⟨0, puts, True⟩) (fun h => h rfl) (fun _ => trivial) (Nat.zero_le _)
  have hregular : s.Regular puts := hedited.regular hputs fun id => (hnew id).regular
  refine ⟨fun id => ⟨hregular id, (s.query id).inRange⟩,
    fun id c group hc hgroup => hregular.group_eq_empty_iff hc hgroup, fun s' h' id hunion => ?_⟩
  have hlater : Policy.Edited ⟨s.queries.size, fun _ => True, False⟩ s s' :=
    h'.edited (p := ⟨s.queries.size, fun _ => True, False⟩) (fun h => h.1 rfl) (fun h => h.2 rfl)
      (Nat.le_refl _)
  exact ⟨hlater.isUnion hunion, hlater.sameOrdering (fun h => h) (Store.lt_of_isUnion hunion) hunion⟩

/-- A store with two new queries. -/
def Store.ofNew : Store :=
  { Store.ofTable "" with
    queries := #[{ connection := none, grammar := .grammar ⟨0⟩ },
      { connection := none, grammar := .grammar ⟨0⟩ }]
    grammars := #[{ dialect := .ansi }] }

theorem Store.ofNew_isNew (id : QueryId) : (Store.ofNew.query id).IsNew := by
  rcases id with ⟨_ | _ | n⟩
  · exact ⟨_, _, _, rfl⟩
  · exact ⟨_, _, _, rfl⟩
  · exact ⟨_, _, _, rfl⟩

/-- A runner for calls that run no callback. -/
def Runner.idle : Runner := fun _ _ _ => pure .null

/-- Callbacks that add one fragment as a condition. -/
def Runner.addingFragment (sql : String) : Runner := fun _ q _ =>
  comparisonMethods[5].call Runner.idle q [.text sql] []

theorem called_idle {allowed : String → Prop} (callback : CallbackId) (q : QueryId)
    (extra : List Value) (s : Store) :
    Called allowed puts s ((Runner.idle callback q extra).runOn s).2 :=
  .nil s

theorem called_addingFragment {allowed : String → Prop} (hallowed : allowed "where_raw")
    (sql : String) (callback : CallbackId) (q : QueryId) (extra : List Value) (s : Store) :
    Called allowed puts s ((Runner.addingFragment sql callback q extra).runOn s).2 :=
  .one (by simp [queryMethods, comparisonMethods]) hallowed (by decide) called_idle q _ s

/-- The store after a query has got a table and a group of conditions with one fragment. -/
def Store.withGroup (sql : String) : Store :=
  let tabled := ((selectMethods[5].call Runner.idle ⟨0⟩ [.text "t"] []).runOn Store.ofNew).2
  ((comparisonMethods[0].call (Runner.addingFragment sql) ⟨0⟩ [.object (.callback ⟨0⟩)] []).runOn
    tabled).2

theorem called_withGroup {allowed : String → Prop}
    (hallowed : ∀ name ∈ ["from_", "where", "where_raw"], allowed name) (sql : String) :
    Called allowed puts Store.ofNew (Store.withGroup sql) :=
  (Called.one (by simp [queryMethods, selectMethods]) (hallowed "from_" (by decide)) (by decide)
    called_idle ⟨0⟩ _ _).trans
    (.one (by simp [queryMethods, comparisonMethods]) (hallowed "where" (by decide)) (by decide)
      (called_addingFragment (hallowed "where_raw" (by decide)) sql) ⟨0⟩ _ _)

/-- The store after the query has also been united with another one.  The ordering that comes first
fails. -/
def Store.withUnion : Store :=
  let failed := ((orderMethods[0].call Runner.idle ⟨0⟩ [.text "a", .text "up"] []).runOn
    (Store.withGroup "x = 1")).2
  ((orderMethods[12].call Runner.idle ⟨0⟩ [.ofQuery ⟨1⟩] []).runOn failed).2

/-- The store after paging of the union. -/
def Store.withUnionLimit : Store :=
  ((orderMethods[9].call Runner.idle ⟨0⟩ [.int 3] []).runOn Store.withUnion).2

theorem called_withUnion : Called (· ≠ "clone_without") puts Store.ofNew Store.withUnion := by
  have hordered : Called (· ≠ "clone_without") puts (Store.withGroup "x = 1")
      ((orderMethods[0].call Runner.idle ⟨0⟩ [.text "a", .text "up"] []).runOn
        (Store.withGroup "x = 1")).2 :=
    .one (by simp [queryMethods, orderMethods]) (by decide) (by decide) called_idle ⟨0⟩ _ _
  have hunited : Called (· ≠ "clone_without") puts _ Store.withUnion :=
    .one (m := orderMethods[12]) (by simp [queryMethods, orderMethods]) (by decide) (by decide)
      called_idle ⟨0⟩ [.ofQuery ⟨1⟩] _
  exact (called_withGroup (by decide) "x = 1").trans (hordered.trans hunited)

/-- The limit is that of the union, and the query keeps having none. -/
theorem called_regular_union :
    (Store.withUnion.query ⟨0⟩).Regular (fun _ => False) Store.withUnion ∧
      (Store.withUnion.query ⟨0⟩).SameOrdering (Store.withUnionLimit.query ⟨0⟩) ∧
      (Store.withUnionLimit.query ⟨0⟩).unionLimit = some 3 := by
  have hcalled : Called (· ≠ "clone_without") (fun _ => False) Store.ofNew Store.withUnion :=
    called_withUnion
  obtain ⟨hqueries, _, hlater⟩ := called_regular (fun _ _ h => h) Store.ofNew_isNew hcalled
  refine ⟨(hqueries ⟨0⟩).1, (hlater Store.withUnionLimit ?_ ⟨0⟩ rfl).2, rfl⟩
  exact .one (m := orderMethods[9]) (by simp [queryMethods, orderMethods]) (by decide) (by decide)
    called_idle ⟨0⟩ _ _

/-- A group with an empty fragment prints empty parentheses, though it has a condition. -/
theorem called_group_without_text : ∃ s, Called (· ≠ "clone_without") (fun _ => False) Store.ofNew s ∧
    (s.query ⟨2⟩).wheres ≠ [] ∧ s.selectSql ⟨0⟩ = .ok "select * from \"t\" where ()" := by
  refine ⟨Store.withGroup "", called_withGroup (by decide) "", ?_, ?_⟩
  · exact List.cons_ne_nil _ _
  · rfl

end FluentSql
