import FluentSql.Proofs.Building.Data
import FluentSql.Proofs.Unions.Reading

/-!
# What a compiled union means

A query that is united with others is a tree of selects.  MySQL puts every
select into parentheses, so the text is read as the tree.  The other dialects
write the members of members one after the other, so the text is read as a
chain: it means the same as the tree only if the parentheses make no
difference.

* `Store.unionTree` is the tree of a query.
* `Query.SelectsPlainly` says that what a query writes beside its union is one
  select with an ordering and a lock.
* `readsFlat_selectSql` and `readsTree_selectSql` are one query, given its
  members, and `Store.readsFlat_attached` and `Store.readsTree_attached` all
  that is attached to it.
* `Store.readRows_compiled` is the result.
-/

namespace FluentSql

open Name

/-! ## Queries as trees -/

/-- Whether a query is compiled to a chain.  An aggregated union is one select from it. -/
def Query.isChain (q : Query) : Bool :=
  q.isUnion && q.aggregate.isNone

/-- The tree of a query, given those of its members. -/
def Query.unionTree (member : QueryId → UnionTree) (q : Query) : UnionTree :=
  if q.isChain then
    .node (q.unions.map fun union => (union.keepsAll.truthy, union.member.elim .leaf member))
  else .leaf

/-- The tree of a query, down to a depth. -/
def Store.unionTreeBy (s : Store) : (depth : Nat) → QueryId → UnionTree
  | 0, _ => .leaf
  | depth + 1, id => (s.query id).unionTree (s.unionTreeBy depth)

/-- The tree of a query. -/
def Store.unionTree (s : Store) (id : QueryId) : UnionTree :=
  (s.query id).unionTree (s.unionTreeBy s.attachedDepth)

/-- A query is a member of another one, or of one of its members. -/
inductive Store.Unites (s : Store) (root : QueryId) : QueryId → Prop where
  | refl : Unites s root root
  | member {id member : QueryId} {union : Union} : Unites s root id → union ∈ (s.query id).unions →
    union.member = some member → Unites s root member

/-- The query without a row lock. -/
def Query.unlocked (q : Query) : Query :=
  { q with lock := .null }

/-- The select of a query itself.  But for MySQL the lock follows the whole chain. -/
def Query.ownSelect (d : Dialect) (q : Query) : Query :=
  if q.isChain then if d = .mysql then q.withoutUnions else q.withoutUnions.unlocked else q

/-- What a query writes beside its union is one select, with an ordering and a lock; and the union is
not paged. -/
structure Query.SelectsPlainly (g : Grammar) (attached : Attached) (q : Query) : Prop where
  select : ∀ sql, g.selectSql attached (q.ownSelect g.dialect) = .ok sql → IsSelect sql
  unpaged : q.unionLimit = none ∧ q.unionOffset = none
  orders : ∀ sql, Grammar.trailingOf q.unionOrders g.ordersSql = .ok sql → IsClause sql
  lock : IsClause (g.lockSql q.lock)

namespace Query

variable {q : Query} {member : QueryId → UnionTree} {d : Dialect}

theorem unionTree_of_isChain (h : q.isChain = true) : q.unionTree member =
    .node (q.unions.map fun union => (union.keepsAll.truthy, union.member.elim .leaf member)) :=
  if_pos h

theorem unionTree_of_not_isChain (h : q.isChain = false) : q.unionTree member = .leaf :=
  if_neg (h ▸ nofun)

theorem isChain_iff : q.isChain = true ↔ q.unions ≠ [] ∧ q.aggregate = none := by
  unfold isChain isUnion
  rw [Bool.and_eq_true, Bool.not_eq_true', List.isEmpty_eq_false_iff, Option.isNone_iff_eq_none]

end Query

/-! ## One query -/

section

variable {g : Grammar} {attached : Attached} {q : Query} {member : QueryId → UnionTree}

/-- The components that a query has for itself, but for the lock. -/
def Grammar.ownComponents (g : Grammar) (attached : Attached) (q : Query) :
    Except Failure (List String) := do
  let aggregate ← q.aggregate.elim (.ok "") (g.aggregateSql q.distinct)
  let columns ← g.selectList q
  let source ← g.sourceSql q.source
  let joins ← ifAny q.joins (joinsSql attached q.joins)
  let wheres ← g.wheresSql attached q
  let groups ← ifAny q.groups ((g.columnize q.groups).map ("group by " ++ ·))
  let havings ← ifAny q.havings (g.havingsSql q.havings)
  let orders ← ifAny q.orders (g.ordersSql q.orders)
  let limit ← q.limit.elim (.ok "") limitSql
  let offset ← q.offset.elim (.ok "") offsetSql
  return [aggregate, columns, source, joins, wheres, groups, havings, orders, limit, offset]

/-- The lock as a component. -/
def Grammar.lockComponent (g : Grammar) (q : Query) : String :=
  if q.lock.isPresent then g.lockSql q.lock else ""

/-- The union and the lock come last. -/
theorem Grammar.components_eq_own (g : Grammar) (attached : Attached) (q : Query) :
    g.components attached q = (do
      let own ← g.ownComponents attached q
      let unions ← g.unionComponent attached q
      return own ++ [unions] ++ [g.lockComponent q]) := by
  rw [components_eq]
  simp only [ownComponents, bind_assoc, pure_bind]
  rfl

/-- Without parentheses, a union is the select of the query itself, the union, and the lock. -/
theorem selectSql_of_isChain (hd : g.dialect ≠ .mysql) (hchain : q.isChain = true) {sql : String}
    (h : g.selectSql attached q = .ok sql) : ∃ own unions,
      g.selectSql attached (q.ownSelect g.dialect) = .ok (Text.trim (spaced own)) ∧
        g.unionsSql attached q = .ok unions ∧
          sql = Text.trim (spaced (own ++ [unions] ++ [g.lockComponent q])) := by
  obtain ⟨hunions, haggregate⟩ := Query.isChain_iff.1 hchain
  have hplain : ∀ q : Query, q.aggregate = none → g.selectSql attached q =
      (g.components attached q).map fun components => Text.trim (spaced components) := by
    intro q haggregate
    unfold Grammar.selectSql
    rw [haggregate]
    unfold Grammar.plainSelectSql
    cases g.components attached q with
    | error e => rfl
    | ok components => exact if_neg fun hmysql => hd hmysql.1
  have hown : q.ownSelect g.dialect = q.withoutUnions.unlocked := by
    unfold Query.ownSelect
    rw [if_pos hchain, if_neg hd]
  have hcomponent : g.unionComponent attached q = g.unionsSql attached q := by
    unfold Grammar.unionComponent Grammar.ifAny
    rw [if_neg hd, if_neg (by rw [List.isEmpty_iff]; exact hunions)]
  have hnone : g.unionComponent attached q.withoutUnions.unlocked = .ok "" :=
    if_neg hd
  rw [hplain q haggregate, Grammar.components_eq_own, hcomponent] at h
  rw [hown, hplain q.withoutUnions.unlocked haggregate, Grammar.components_eq_own, hnone]
  show ∃ own unions, (do
    let own ← g.ownComponents attached q
    return own ++ [""] ++ [""] : Except Failure (List String)).map _ = _ ∧ _
  cases hfront : g.ownComponents attached q with
  | error e => rw [hfront] at h; exact nomatch h
  | ok own =>
    rw [hfront] at h
    cases hunion : g.unionsSql attached q with
    | error e => rw [hunion] at h; exact nomatch h
    | ok unions =>
      rw [hunion] at h
      refine ⟨own, unions, ?_, rfl, (Except.ok.inj h).symm⟩
      have hempty : spaced (own ++ [""] ++ [""]) = spaced own := by
        unfold spaced
        rw [List.filter_append, List.filter_append]
        exact congrArg _ ((List.append_nil _).trans (List.append_nil _))
      exact congrArg (fun text => Except.ok (Text.trim text)) hempty

theorem Query.ownSelect_of_not_isChain (h : q.isChain = false) (d : Dialect) :
    q.ownSelect d = q :=
  if_neg (h ▸ nofun)

/-- What holds of the members of a union, in the trees of the members. -/
theorem members_trees {P : UnionTree → List Char → Prop} {unions : List Union}
    (hmembers : ∀ u ∈ unions, ∀ sql, attached.selectOf u.member = .ok sql →
      P (u.member.elim .leaf member) sql.toList) {members : List (Bool × String)}
    (h : attached.members unions = .ok members) :
    List.Forall₂ (fun (text : Bool × String) (tree : Bool × UnionTree) =>
        text.1 = tree.1 ∧ P tree.2 text.2.toList)
      members (unions.map fun union => (union.keepsAll.truthy, union.member.elim .leaf member)) := by
  rw [List.forall₂_map_right_iff]
  refine List.Forall₂.flip (((List.forall₂_and_left unions members).2
    ⟨hmembers, Attached.members_eq_ok h⟩).imp ?_)
  exact fun u text ⟨hmember, hkeeps, hselect⟩ => ⟨hkeeps, hmember text.2 hselect⟩

theorem beginsBlank_orders {orders : String}
    (h : Grammar.trailingOf q.unionOrders g.ordersSql = .ok orders) : BeginsBlank orders.toList := by
  rcases follows_orders h with hnone | ⟨c, rest, hcs, _⟩
  · exact .inl hnone
  · exact .inr ⟨' ', c :: rest, hcs, by decide⟩

/-- Without parentheses, and without paging, a union is its members and its ordering. -/
theorem unionsSql_flat (hd : g.dialect ≠ .mysql)
    (hunpaged : q.unionLimit = none ∧ q.unionOffset = none) {unions : String}
    (h : g.unionsSql attached q = .ok unions) : ∃ members orders,
      attached.members q.unions = .ok members ∧
        Grammar.trailingOf q.unionOrders g.ordersSql = .ok orders ∧
          unions = Text.trimLeft (joinedMembers members ++ orders) := by
  unfold Grammar.unionsSql at h
  rw [hunpaged.1, hunpaged.2, Grammar.mapM_unionSql (fun select => select)
    fun _ => if_neg hd] at h
  obtain ⟨texts, htexts, h⟩ := bind_eq_ok h
  obtain ⟨orders, horders, h⟩ := bind_eq_ok h
  cases hmembers : attached.members q.unions with
  | error e => rw [hmembers] at htexts; exact nomatch htexts
  | ok members =>
    rw [hmembers] at htexts
    cases htexts
    refine ⟨members, orders, rfl, horders, ?_⟩
    have hnone : joinedMembers members ++ orders ++ "" ++ "" = joinedMembers members ++ orders := by
      rw [String.append_empty, String.append_empty]
    rw [← hnone]
    exact (Except.ok.inj h).symm

/-- A query without parentheses, if its members are chains. -/
theorem readsFlat_selectSql (hd : g.dialect ≠ .mysql) (hq : q.SelectsPlainly g attached)
    (hmembers : ∀ u ∈ q.unions, ∀ sql, attached.selectOf u.member = .ok sql →
      ReadsFlat (u.member.elim .leaf member).flat sql.toList) {sql : String}
    (h : g.selectSql attached q = .ok sql) : ReadsFlat (q.unionTree member).flat sql.toList := by
  cases hchain : q.isChain with
  | false =>
    rw [Query.unionTree_of_not_isChain hchain]
    exact (hq.select sql (by rwa [Query.ownSelect_of_not_isChain hchain])).readsFlat
  | true =>
    obtain ⟨own, unions, hown, hunions, rfl⟩ := selectSql_of_isChain hd hchain h
    obtain ⟨members, orders, hcompiled, horders, rfl⟩ := unionsSql_flat hd hq.unpaged hunions
    have hselect := hq.select _ hown
    have hordering := hq.orders orders horders
    obtain ⟨rest, hself, hnone⟩ := hselect.words
    obtain ⟨hbalanced, hwords⟩ := words_of_trim hselect.balanced
    have hlock : IsClause (g.lockComponent q) := by
      unfold Grammar.lockComponent
      split
      · exact hq.lock
      · exact isClause_empty
    obtain ⟨_, hchained, hread⟩ := flat_members
      (members_trees (P := fun tree cs => ReadsFlat tree.flat cs) hmembers hcompiled)
      (beginsBlank_orders horders) hordering.balanced
    rw [← String.toList_append] at hchained hread
    obtain ⟨hunion, hunionWords⟩ := words_trimLeft hchained
    obtain ⟨hunited, hunitedWords⟩ := words_spaced_concat hbalanced hunion
    obtain ⟨hall, hallWords⟩ := words_spaced_concat hunited hlock.balanced
    rw [Query.unionTree_of_isChain hchain]
    refine ⟨hall.trim, rest ++ (words (joinedMembers members ++ orders).toList ++
      words (g.lockComponent q).toList), ?_, fun more => ?_⟩
    · rw [← (words_of_trim hall.trim).2, hallWords, hunitedWords, hunionWords, hwords, hself]
      simp only [List.append_assoc, List.cons_append]
    · rw [List.append_assoc, unionMembers_append hnone, List.append_assoc, hread,
        unionMembers_append hordering.words, unionMembers_append hlock.words]
      rfl

/-- A query in MySQL, if its members are read as trees. -/
theorem readsTree_selectSql (hd : g.dialect = .mysql) (hq : q.SelectsPlainly g attached)
    (hmembers : ∀ u ∈ q.unions, ∀ sql, attached.selectOf u.member = .ok sql →
      ReadsTree (u.member.elim .leaf member) sql.toList) {sql : String}
    (h : g.selectSql attached q = .ok sql) : ReadsTree (q.unionTree member) sql.toList := by
  cases hchain : q.isChain with
  | false =>
    rw [Query.unionTree_of_not_isChain hchain]
    exact (hq.select sql (by rwa [Query.ownSelect_of_not_isChain hchain])).readsTree
  | true =>
    obtain ⟨hunions, haggregate⟩ := Query.isChain_iff.1 hchain
    rw [Grammar.selectSql_eq_unionParts hd hunions haggregate] at h
    cases hparts : g.unionParts attached q with
    | error e => rw [hparts] at h; exact nomatch h
    | ok parts =>
      rw [hparts] at h
      cases h
      unfold Grammar.unionParts at hparts
      rw [hq.unpaged.1, hq.unpaged.2] at hparts
      obtain ⟨first, hfirst, hparts⟩ := bind_eq_ok hparts
      obtain ⟨members, hcompiled, hparts⟩ := bind_eq_ok hparts
      obtain ⟨orders, horders, hparts⟩ := bind_eq_ok hparts
      cases hparts
      have hown : q.ownSelect g.dialect = q.withoutUnions := by
        unfold Query.ownSelect
        rw [if_pos hchain, if_pos hd]
      have hnone : orders ++ "" ++ "" = orders := by
        rw [String.append_empty, String.append_empty]
      rw [Query.unionTree_of_isChain hchain]
      refine readsTree_text (hq.select first (by rw [hown]; exact hfirst))
        (members_trees hmembers hcompiled) ?_ ?_
      · show IsClause (orders ++ "" ++ "")
        rw [hnone]
        exact hq.orders orders horders
      · show BeginsBlank (orders ++ "" ++ "").toList
        rw [hnone]
        exact beginsBlank_orders horders

end

/-! ## All members -/

section

variable {g : Grammar} {s : Store} {known : KnownAnswers} {root : QueryId}

/-- What is compiled with less room is compiled the same with more. -/
theorem SelectsPlainly.of_deeper {q : Query} {oracle : Oracle} {depth depth' : Nat}
    (hdepth : depth ≤ depth') (h : q.SelectsPlainly g (attachedBy s g oracle depth')) :
    q.SelectsPlainly g (attachedBy s g oracle depth) := by
  refine { h with select := fun sql hsql => h.select sql ?_ }
  have hmatch : (q.ownSelect g.dialect).Matches True Eq g g (attachedBy s g oracle depth)
      (attachedBy s g oracle depth') (q.ownSelect g.dialect) :=
    Query.matches_same (attachedBy_deeper s g oracle hdepth)
      (by rw [oracle_attachedBy, oracle_attachedBy]) _
  have halike := hmatch.selectSql_alike carried_eq (.same fun _ _ => rfl)
  rw [hsql] at halike
  obtain ⟨_, heq, rfl⟩ := halike.of_ok
  exact heq

/-- What holds of a query, if it holds of its members, holds of all that are united. -/
theorem Store.unites_attachedBy {P : UnionTree → List Char → Prop}
    (hplain : ∀ id, s.Unites root id → (s.query id).SelectsPlainly g (s.attached g known))
    (hstep : ∀ (attached : Attached) (q : Query) (member : QueryId → UnionTree),
      q.SelectsPlainly g attached →
        (∀ u ∈ q.unions, ∀ sql, attached.selectOf u.member = .ok sql →
          P (u.member.elim .leaf member) sql.toList) →
        ∀ sql, g.selectSql attached q = .ok sql → P (q.unionTree member) sql.toList)
    {depth : Nat} (hdepth : depth ≤ s.attachedDepth) {id : QueryId} (hid : s.Unites root id)
    {sql : String} (h : g.selectSql (attachedBy s g (s.oracle known) depth) (s.query id) = .ok sql) :
    P ((s.query id).unionTree (s.unionTreeBy depth)) sql.toList := by
  induction depth generalizing id sql with
  | zero =>
    refine hstep _ _ _ (SelectsPlainly.of_deeper hdepth (hplain id hid)) (fun u _ sql hsql => ?_) sql h
    cases hmember : u.member <;> (rw [hmember] at hsql; exact nomatch hsql)
  | succ depth ih =>
    refine hstep _ _ _ (SelectsPlainly.of_deeper hdepth (hplain id hid)) (fun u hu sql hsql => ?_) sql h
    cases hmember : u.member with
    | none => rw [hmember] at hsql; exact nomatch hsql
    | some member =>
      rw [hmember] at hsql
      exact ih (Nat.le_of_succ_le hdepth) (hid.member hu hmember) hsql

end

/-- A compiled union is read as SQL reads it: a chain from left to right, and parentheses as a unit.
In MySQL it then means the tree of the query: its own select and its members from left to right, each
member as one unit.  In the other dialects it does, whatever rows the selects have, just if the
parentheses of the tree make no difference. -/
theorem Store.readRows_compiled (s : Store) (known : KnownAnswers) (id : QueryId) {g : Grammar}
    (hg : s.settled.grammarFor (s.settled.query id).grammar "compile_select" = .ok g)
    (hplain : ∀ other, s.settled.Unites id other →
      (s.settled.query other).SelectsPlainly g (s.settled.attached g known))
    {sql : String} (h : s.settled.compiled known id "compile_select" Grammar.selectSql = .ok sql) :
    (g.dialect = .mysql → ∀ (R : Type) [DecidableEq R] (selects : Nat → Multiset R),
      readRows selects sql = ((s.settled.unionTree id).rows selects 0).1) ∧
    (g.dialect ≠ .mysql →
      ((∀ (R : Type) [DecidableEq R] (selects : Nat → Multiset R),
        readRows selects sql = ((s.settled.unionTree id).rows selects 0).1) ↔
          (s.settled.unionTree id).Flattens)) := by
  unfold Store.compiled at h
  rw [hg] at h
  refine ⟨fun hd R _ selects => ?_, fun hd => ?_⟩
  · have hread := Store.unites_attachedBy (P := ReadsTree) hplain
      (fun _ _ _ hq hmembers _ => readsTree_selectSql hd hq hmembers) (Nat.le_refl _) .refl h
    exact congrArg Prod.fst (congrFun (hread.rows selects _ (Nat.lt_succ_self _)) 0)
  · have hread := Store.unites_attachedBy (P := fun tree cs => ReadsFlat tree.flat cs) hplain
      (fun _ _ _ hq hmembers _ => readsFlat_selectSql hd hq hmembers) (Nat.le_refl _) .refl h
    have hchain : ∀ (R : Type) [DecidableEq R] (selects : Nat → Multiset R),
        readRows selects sql = ((s.settled.unionTree id).flattened.rows selects 0).1 :=
      fun R _ selects => congrArg Prod.fst (congrFun (hread.readFrom_eq selects _) 0)
    rw [← UnionTree.rows_flattened_iff]
    exact ⟨fun hall R _ selects => (hchain R selects).symm.trans (hall R selects),
      fun hall R _ selects => (hchain R selects).trans (hall R selects)⟩

/-- A store with a query that is united with a second one, which is united with a third one. -/
def Store.ofMembers (keepsAll memberKeepsAll : Bool) : Store :=
  { Store.ofTable "a" with
    grammars := #[{ dialect := .ansi }]
    queries := #[
      { connection := none, grammar := .grammar ⟨0⟩, source := .text "a"
        unions := [⟨some ⟨1⟩, .bool keepsAll⟩] },
      { connection := none, grammar := .grammar ⟨0⟩, source := .text "b"
        unions := [⟨some ⟨2⟩, .bool memberKeepsAll⟩] },
      { connection := none, grammar := .grammar ⟨0⟩, source := .text "c" }] }

theorem Store.settled_ofMembers (keepsAll memberKeepsAll : Bool) :
    (Store.ofMembers keepsAll memberKeepsAll).settled = Store.ofMembers keepsAll memberKeepsAll := by
  refine Store.settled_eq fun id _ r => ?_
  rcases id with ⟨_ | _ | _ | n⟩ <;> rfl

theorem Store.unionTree_ofMembers (keepsAll memberKeepsAll : Bool) :
    (Store.ofMembers keepsAll memberKeepsAll).unionTree ⟨0⟩ =
      .node [(keepsAll, .node [(memberKeepsAll, .leaf)])] := rfl

theorem isSelect_of_words {sql : String} (h : Balanced sql.toList ∧
    (words sql.toList).head? = some selectWord ∧ "union".toList ∉ (words sql.toList).tail) :
    IsSelect sql := by
  obtain ⟨hbalanced, hhead, htail⟩ := h
  obtain ⟨rest, hwords⟩ := List.head?_eq_some_iff.1 hhead
  rw [hwords] at htail
  exact ⟨hbalanced, rest, hwords, htail⟩

theorem Store.selectsPlainly_ofMembers (keepsAll memberKeepsAll : Bool) (attached : Attached)
    (id : QueryId) : ((Store.ofMembers keepsAll memberKeepsAll).query id).SelectsPlainly
      { dialect := .ansi } attached := by
  obtain ⟨source, sql, hown, hsql, hselect⟩ : ∃ source sql,
      ((Store.ofMembers keepsAll memberKeepsAll).query id).ownSelect .ansi =
          { connection := none, grammar := .grammar ⟨0⟩, source } ∧
        Grammar.selectSql { dialect := .ansi } attached
          { connection := none, grammar := .grammar ⟨0⟩, source } = .ok sql ∧ IsSelect sql := by
    rcases id with ⟨_ | _ | _ | n⟩
    · exact ⟨.text "a", "select * from \"a\"", rfl, rfl, isSelect_of_words (by decide)⟩
    · exact ⟨.text "b", "select * from \"b\"", rfl, rfl, isSelect_of_words (by decide)⟩
    · exact ⟨.text "c", "select * from \"c\"", rfl, rfl, isSelect_of_words (by decide)⟩
    · exact ⟨.null, "select *", rfl, rfl, isSelect_of_words (by decide)⟩
  refine ⟨fun other hother => ?_, ?_, fun orders horders => ?_, ?_⟩
  · rw [hown, hsql] at hother
    exact Except.ok.inj hother ▸ hselect
  · rcases id with ⟨_ | _ | _ | n⟩ <;> exact ⟨rfl, rfl⟩
  · obtain rfl : "" = orders := by
      rcases id with ⟨_ | _ | _ | n⟩ <;> exact Except.ok.inj horders
    exact isClause_empty
  · have hlock : Grammar.lockSql { dialect := .ansi }
        ((Store.ofMembers keepsAll memberKeepsAll).query id).lock = "" := by
      rcases id with ⟨_ | _ | _ | n⟩ <;> rfl
    rw [hlock]
    exact isClause_empty

set_option maxRecDepth 4000 in
/-- If duplicates are removed everywhere, then the parentheses make no difference. -/
theorem Store.readRows_compiled_members :
    readRows (fun n => ({n} : Multiset Nat))
        "select * from \"a\" union select * from \"b\" union select * from \"c\"" =
      (((Store.ofMembers false false).settled.unionTree ⟨0⟩).rows
        (fun n => ({n} : Multiset Nat)) 0).1 := by
  have hsettled := Store.settled_ofMembers false false
  have hflattens : ((Store.ofMembers false false).settled.unionTree ⟨0⟩).Flattens := by
    rw [hsettled, Store.unionTree_ofMembers]
    exact ⟨[(false, .node [(false, .leaf)])], [], rfl, List.not_mem_nil,
      .inr ⟨[], .node [(false, .leaf)], rfl, rfl⟩⟩
  refine ((Store.readRows_compiled (Store.ofMembers false false) [] ⟨0⟩
    (g := { dialect := .ansi }) ?_ (fun other _ => ?_) ?_).2 (by decide)).2 hflattens Nat _
  · rw [hsettled]
    rfl
  · rw [hsettled]
    exact Store.selectsPlainly_ofMembers false false _ other
  · rw [hsettled]
    rfl

set_option maxRecDepth 4000 in
/-- Without its parentheses, a member that is a union removes the duplicates of what stands before
it. -/
theorem Store.compiled_members_lose_rows :
    (Store.ofMembers true false).settled.compiled [] ⟨0⟩ "compile_select" Grammar.selectSql =
        .ok "select * from \"a\" union all select * from \"b\" union select * from \"c\"" ∧
      readRows (fun _ => ({()} : Multiset Unit))
          "select * from \"a\" union all select * from \"b\" union select * from \"c\"" = {()} ∧
      (((Store.ofMembers true false).settled.unionTree ⟨0⟩).rows
        (fun _ => ({()} : Multiset Unit)) 0).1 = {(), ()} := by
  rw [Store.settled_ofMembers]
  exact ⟨rfl, by decide, by decide⟩

end FluentSql
