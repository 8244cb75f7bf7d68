import FluentSql.Proofs.Parallel.Clauses
import FluentSql.Proofs.Parts

/-!
# Select statements in parallel

* `Query.Matches` says what two queries have in common to be compiled alike.
* `joinSql_alike` to `selectSql_alike` are the statements.
* `Attached.Matches` relates how attached queries are compiled, and
  `attachedBy_alike_at` is the induction on how deep they are.
* `attachedBy_deeper` compares the queries of a store with themselves.
* `Query.mem_statementItems` says that a select statement writes all that its
  joins, its conditions and its union do, and `Store.Within.part_eq` that compiling
  to a depth at which these chains have ended gives what any greater depth gives.
-/

namespace FluentSql

variable {lax : Prop} {R : String → String → Prop} {g g' : Grammar} {attached attached' : Attached}

/-! ## Queries -/

/-- Two queries of one kind, with tables that are quoted alike if they are join conditions. -/
inductive QueryKind.Matches (lax : Prop) (R : String → String → Prop) (g g' : Grammar) :
    QueryKind → QueryKind → Prop where
  | statement : QueryKind.Matches lax R g g' .statement .statement
  | join {type type' table table' : Value} (htype : R type.display type'.display)
      (htable : Alike lax (Written R) (g.wrapTable table) (g'.wrapTable table')) :
      QueryKind.Matches lax R g g' (.join type table) (.join type' table')

/-- Two queries whose clauses are compiled alike, one by one. -/
structure Query.Matches (lax : Prop) (R : String → String → Prop) (g g' : Grammar)
    (attached attached' : Attached) (q q' : Query) : Prop where
  kind : q.kind.Matches lax R g g' q'.kind
  aggregate : Option.Rel (Aggregate.Matches lax R g g') q.aggregate q'.aggregate
  columns : List.Forall₂ (Wraps lax R g g') (q.columns.getD [.text "*"])
    (q'.columns.getD [.text "*"])
  distinct : q.distinct = q'.distinct
  source : q.source.isPresent = q'.source.isPresent ∧
    Alike lax (Written R) (g.wrapTable q.source) (g'.wrapTable q'.source)
  joins : List.Forall₂ (fun id id' => Alike lax R (attached.join id) (attached'.join id'))
    q.joins q'.joins
  wheres : List.Forall₂ (fun c c' => R c.boolean.display c'.boolean.display ∧
    Alike lax R (g.whereSql attached c.body) (g'.whereSql attached' c'.body)) q.wheres q'.wheres
  groups : List.Forall₂ (Wraps lax R g g') q.groups q'.groups
  havings : List.Forall₂ (fun c c' => R c.boolean.display c'.boolean.display ∧
    Alike lax R (g.havingSql c.body) (g'.havingSql c'.body)) q.havings q'.havings
  orders : List.Forall₂ (Order.Matches lax R g g') q.orders q'.orders
  paging : q.limit = q'.limit ∧ q.offset = q'.offset
  unions : List.Forall₂ (fun u u' => u.keepsAll.truthy = u'.keepsAll.truthy ∧
    Alike lax R (attached.selectOf u.member) (attached'.selectOf u'.member)) q.unions q'.unions
  unionOrders : List.Forall₂ (Order.Matches lax R g g') q.unionOrders q'.unionOrders
  unionPaging : q.unionLimit = q'.unionLimit ∧ q.unionOffset = q'.unionOffset
  lock : q.lock.isPresent = q'.lock.isPresent ∧
    (q.lock.isPresent = true → R (g.lockSql q.lock) (g'.lockSql q'.lock))
  parenthesized : q.unions = [] ∨ (g.dialect = .mysql ↔ g'.dialect = .mysql)

namespace Query.Matches

variable {q q' : Query} (h : q.Matches lax R g g' attached attached' q')

include h

theorem keyword : q.keyword = q'.keyword := by
  have hkind := h.kind
  unfold Query.keyword Query.isJoin
  generalize q.kind = kind, q'.kind = kind' at hkind
  cases hkind <;> rfl

theorem isUnion : q.isUnion = q'.isUnion := by
  unfold Query.isUnion
  rw [isEmpty_eq_of_forall₂ h.unions]

theorem withoutAggregate : { q with aggregate := none }.Matches lax R g g' attached attached'
    { q' with aggregate := none } :=
  { h with aggregate := .none }

variable (hR : Carried R)

include hR

/-! ## Joins -/

theorem joinsSql_alike :
    Alike lax R (Grammar.joinsSql attached q.joins) (Grammar.joinsSql attached' q'.joins) :=
  (Alike.mapM h.joins fun _ _ h => h).bind fun _ _ h => .ok (hR.joinWith (by decide) h)

theorem joinSql_alike : Alike lax R (g.joinSql attached q) (g'.joinSql attached' q') := by
  have hkind := h.kind
  have hwheres := wheresSql_alike hR h.keyword h.wheres
  unfold Grammar.joinSql
  generalize q.kind = kind, q'.kind = kind' at hkind ⊢
  cases hkind with
  | statement => exact .error _
  | @join type type' _ _ htype htable =>
    refine (htable.map fun _ _ h => h.display).bind fun table table' htable => ?_
    have hcondition : ∀ t t', R t t' → Alike lax R
        (do
          let condition ← g.wheresSql attached q
          return Text.trim (type.display ++ " join " ++ t ++ " " ++ condition))
        (do
          let condition ← g'.wheresSql attached' q'
          return Text.trim (type'.display ++ " join " ++ t' ++ " " ++ condition)) :=
      fun _ _ ht => hwheres.bind fun _ _ hcondition =>
        .ok (hR.trim (hR.space (hR.append (hR.after (by decide) htype) ht) hcondition))
    dsimp only
    rw [isEmpty_eq_of_forall₂ h.joins]
    split
    · exact hcondition _ _ htable
    · refine (h.joinsSql_alike hR).bind fun _ _ hjoins => hcondition _ _ ?_
      have henclosed := hR.enclosed (hR.space htable hjoins)
      simpa only [String.append_assoc] using henclosed

/-! ## Unions -/

theorem unionsSql_alike (hmysql : g.dialect = .mysql ↔ g'.dialect = .mysql) :
    Alike lax R (g.unionsSql attached q) (g'.unionsSql attached' q') := by
  have hmembers : Alike lax (List.Forall₂ R) (q.unions.mapM (g.unionSql attached))
      (q'.unions.mapM (g'.unionSql attached')) := by
    refine Alike.mapM h.unions fun u u' hu => hu.2.bind fun member member' hmember => .ok ?_
    have hword : ∀ all : Bool, Plain (if all then " union all " else " union ") := by decide
    have hshown : R (if g.dialect = .mysql then "(" ++ member ++ ")" else member)
        (if g'.dialect = .mysql then "(" ++ member' ++ ")" else member') := by
      by_cases hd : g.dialect = .mysql
      · rw [if_pos hd, if_pos (hmysql.1 hd)]
        exact hR.enclosed hmember
      · rw [if_neg hd, if_neg fun hd' => hd (hmysql.2 hd')]
        exact hmember
    exact hu.1 ▸ hR.before (hword _) hshown
  have horders := trailingOf_alike hR (isEmpty_eq_of_forall₂ h.unionOrders)
    (ordersSql_alike hR h.unionOrders)
  have hlimit : Alike lax R (Grammar.trailing q.unionLimit Grammar.limitSql)
      (Grammar.trailing q'.unionLimit Grammar.limitSql) :=
    h.unionPaging.1 ▸ trailing_alike hR (limitSql_alike hR)
  have hoffset : Alike lax R (Grammar.trailing q.unionOffset Grammar.offsetSql)
      (Grammar.trailing q'.unionOffset Grammar.offsetSql) :=
    h.unionPaging.2 ▸ trailing_alike hR (offsetSql_alike hR)
  exact hmembers.bind fun _ _ hmembers => horders.bind fun _ _ horders =>
    hlimit.bind fun _ _ hlimit => hoffset.bind fun _ _ hoffset =>
      .ok (hR.trimLeft (hR.append (hR.append (hR.append (hR.join hmembers) horders) hlimit) hoffset))

theorem unionComponent_alike :
    Alike lax R (g.unionComponent attached q) (g'.unionComponent attached' q') := by
  have hempty := isEmpty_eq_of_forall₂ h.unions
  unfold Grammar.unionComponent
  rcases h.parenthesized with hnone | hmysql
  · have hnone' : q'.unions.isEmpty = true := by
      rw [← hempty, hnone]
      rfl
    have hleft : (if g.dialect = .mysql then .ok "" else
        Grammar.ifAny q.unions (g.unionsSql attached q)) = .ok "" := by
      rw [hnone]
      split <;> rfl
    have hright : (if g'.dialect = .mysql then .ok "" else
        Grammar.ifAny q'.unions (g'.unionsSql attached' q')) = .ok "" := by
      unfold Grammar.ifAny
      rw [if_pos hnone']
      split <;> rfl
    rw [hleft, hright]
    exact .ok hR.empty
  · by_cases hd : g.dialect = .mysql
    · rw [if_pos hd, if_pos (hmysql.1 hd)]
      exact .ok hR.empty
    · rw [if_neg hd, if_neg fun hd' => hd (hmysql.2 hd')]
      exact ifAny_alike hR hempty (h.unionsSql_alike hR hmysql)

/-! ## Statements -/

theorem components_alike :
    Alike lax (List.Forall₂ R) (g.components attached q) (g'.components attached' q') := by
  have haggregate : Alike lax R (q.aggregate.elim (.ok "") (g.aggregateSql q.distinct))
      (q'.aggregate.elim (.ok "") (g'.aggregateSql q'.distinct)) :=
    .elim h.aggregate hR.empty fun _ _ ha => aggregateSql_alike hR h.distinct ha
  have hcolumns : Alike lax R (g.selectList q) (g'.selectList q') := by
    have hsome : q.aggregate.isSome = q'.aggregate.isSome := isSome_eq_of_rel h.aggregate
    refine ifAny_alike hR (isEmpty_eq_of_forall₂ h.columns) ?_
    rw [hsome, h.distinct]
    split
    · exact .ok hR.empty
    · exact columnsSql_alike hR _ h.columns
  have hlimit : Alike lax R (q.limit.elim (.ok "") Grammar.limitSql)
      (q'.limit.elim (.ok "") Grammar.limitSql) :=
    h.paging.1 ▸ .elim (optionRel_same q.limit) hR.empty fun _ _ h => h ▸ limitSql_alike hR _
  have hoffset : Alike lax R (q.offset.elim (.ok "") Grammar.offsetSql)
      (q'.offset.elim (.ok "") Grammar.offsetSql) :=
    h.paging.2 ▸ .elim (optionRel_same q.offset) hR.empty fun _ _ h => h ▸ offsetSql_alike hR _
  have hlock : R (if q.lock.isPresent then g.lockSql q.lock else "")
      (if q'.lock.isPresent then g'.lockSql q'.lock else "") := by
    rw [← h.lock.1]
    split
    · exact h.lock.2 ‹_›
    · exact hR.empty
  rw [Grammar.components_eq, Grammar.components_eq]
  refine haggregate.bind fun _ _ haggregate => hcolumns.bind fun _ _ hcolumns => ?_
  refine (sourceSql_alike hR h.source.1 h.source.2).bind fun _ _ hsource => ?_
  refine (ifAny_alike hR (isEmpty_eq_of_forall₂ h.joins) (h.joinsSql_alike hR)).bind
    fun _ _ hjoins => ?_
  refine (wheresSql_alike hR h.keyword h.wheres).bind fun _ _ hwheres => ?_
  refine (ifAny_alike hR (isEmpty_eq_of_forall₂ h.groups) ((columnize_alike hR h.groups).map
    fun _ _ h => hR.before (by decide) h)).bind fun _ _ hgroups => ?_
  refine (ifAny_alike hR (isEmpty_eq_of_forall₂ h.havings) (havingsSql_alike hR h.havings)).bind
    fun _ _ hhavings => ?_
  refine (ifAny_alike hR (isEmpty_eq_of_forall₂ h.orders) (ordersSql_alike hR h.orders)).bind
    fun _ _ horders => ?_
  refine hlimit.bind fun _ _ hlimit => hoffset.bind fun _ _ hoffset => ?_
  refine (h.unionComponent_alike hR).bind fun _ _ hunions => .ok ?_
  exact .cons haggregate <| .cons hcolumns <| .cons hsource <| .cons hjoins <| .cons hwheres <|
    .cons hgroups <| .cons hhavings <| .cons horders <| .cons hlimit <| .cons hoffset <|
    .cons hunions <| .cons hlock .nil

theorem plainSelectSql_alike :
    Alike lax R (g.plainSelectSql attached q) (g'.plainSelectSql attached' q') := by
  refine (h.components_alike hR).bind fun _ _ hcomponents => ?_
  have hselect := hR.trim (hR.spaced hcomponents)
  have hiff : (g.dialect = .mysql ∧ q.isUnion = true) ↔ (g'.dialect = .mysql ∧ q'.isUnion = true) := by
    rw [← h.isUnion]
    rcases h.parenthesized with hnone | hmysql
    · have hplain : ¬q.isUnion = true := by
        unfold Query.isUnion
        rw [hnone]
        exact nofun
      exact iff_of_false (fun h => hplain h.2) fun h => hplain h.2
    · exact and_congr_left' hmysql
  by_cases hd : g.dialect = .mysql ∧ q.isUnion = true
  · have hmysql : g.dialect = .mysql ↔ g'.dialect = .mysql :=
      iff_of_true hd.1 (hiff.1 hd).1
    dsimp only
    rw [if_pos hd, if_pos (hiff.1 hd)]
    exact (h.unionsSql_alike hR hmysql).bind fun _ _ hunions =>
      .ok (hR.enclosedSpace hselect hunions)
  · dsimp only
    rw [if_neg hd, if_neg fun hd' => hd (hiff.2 hd')]
    exact .ok hselect

/-- The table of an aggregated union is quoted alike. -/
theorem selectSql_alike
    (htable : Alike lax R (g.wrappedTable (.text "temp_table"))
      (g'.wrappedTable (.text "temp_table"))) :
    Alike lax R (g.selectSql attached q) (g'.selectSql attached' q') := by
  have hplain := h.plainSelectSql_alike hR
  have hinner := h.withoutAggregate.plainSelectSql_alike hR
  have haggregate := h.aggregate
  have hunion := h.isUnion
  have hdistinct := h.distinct
  unfold Grammar.selectSql
  generalize q.aggregate = a, q'.aggregate = a' at haggregate ⊢
  cases haggregate with
  | none => exact hplain
  | some haggregate =>
    dsimp only
    rw [hunion]
    split
    · refine (aggregateSql_alike hR hdistinct haggregate).bind fun _ _ hhead =>
        hinner.bind fun _ _ hinner => htable.bind fun _ _ htable => .ok ?_
      have hsplit : ∀ a b c : String, a ++ " from (" ++ b ++ ") as " ++ c =
          a ++ " from " ++ ("(" ++ b ++ ")") ++ " as " ++ c := by
        intro a b c
        simp only [String.append_assoc]
        rfl
      rw [hsplit, hsplit]
      exact hR.append (hR.after (by decide) (hR.append (hR.after (by decide) hhead)
        (hR.enclosed hinner))) htable
    · exact hplain

end Query.Matches

/-! ## Attached queries -/

/-- Two ways to compile attached queries, of which some are compiled alike, and some at least as
groups of conditions. -/
structure Attached.Matches (lax : Prop) (R : String → String → Prop)
    (met grouped : QueryId → QueryId → Prop) (attached attached' : Attached) : Prop where
  select : ∀ id id', met id id' → Alike lax R (attached.select id) (attached'.select id')
  conditions : ∀ id id', grouped id id' →
    Alike lax R (attached.conditions id) (attached'.conditions id')
  join : ∀ id id', met id id' → Alike lax R (attached.join id) (attached'.join id')

theorem Attached.Matches.selectOf {met grouped : QueryId → QueryId → Prop}
    (h : Attached.Matches lax R met grouped attached attached') {query query' : Option QueryId}
    (hquery : Option.Rel met query query') :
    Alike lax R (attached.selectOf query) (attached'.selectOf query') := by
  cases hquery with
  | none => exact .error _
  | some hid => exact h.select _ _ hid

/-- Attached queries are compiled alike down to corresponding depths if, at such depths, the queries
match wherever those attached to them do. -/
theorem attachedBy_alike_at (hR : Carried R) {s s' : Store} {oracle oracle' : Oracle}
    {met grouped : QueryId → QueryId → Prop} {corresponds : Nat → Nat → Prop}
    (hzero : ∀ depth', corresponds 0 depth' → depth' = 0 ∨ lax)
    (hsucc : ∀ depth depth', corresponds (depth + 1) depth' →
      ∃ deeper, depth' = deeper + 1 ∧ corresponds depth deeper)
    (htable : Alike lax R (g.wrappedTable (.text "temp_table"))
      (g'.wrappedTable (.text "temp_table")))
    (hqueries : ∀ depth depth', corresponds depth depth' →
      Attached.Matches lax R met grouped (attachedBy s g oracle depth)
        (attachedBy s' g' oracle' depth') → ∀ id id', met id id' →
          (s.query id).Matches lax R g g' (attachedBy s g oracle depth)
            (attachedBy s' g' oracle' depth') (s'.query id'))
    (hgroups : ∀ depth depth', corresponds depth depth' →
      Attached.Matches lax R met grouped (attachedBy s g oracle depth)
        (attachedBy s' g' oracle' depth') → ∀ id id', grouped id id' →
          List.Forall₂ (fun c c' => R c.boolean.display c'.boolean.display ∧
            Alike lax R (g.whereSql (attachedBy s g oracle depth) c.body)
              (g'.whereSql (attachedBy s' g' oracle' depth') c'.body))
            (s.query id).wheres (s'.query id').wheres)
    {depth depth' : Nat} (hdepth : corresponds depth depth') :
    Attached.Matches lax R met grouped (attachedBy s g oracle depth)
      (attachedBy s' g' oracle' depth') := by
  induction depth generalizing depth' with
  | zero =>
    obtain rfl | hlax := hzero depth' hdepth
    · exact ⟨fun _ _ _ => .error _, fun _ _ _ => .error _, fun _ _ _ => .error _⟩
    · exact ⟨fun _ _ _ => .endless hlax _, fun _ _ _ => .endless hlax _,
        fun _ _ _ => .endless hlax _⟩
  | succ depth ih =>
    obtain ⟨deeper, rfl, hinner⟩ := hsucc depth depth' hdepth
    have hmatch := hqueries depth deeper hinner (ih hinner)
    exact ⟨fun id id' hid => (hmatch id id' hid).selectSql_alike hR htable,
      fun id id' hid => conditionsSql_alike hR (hgroups depth deeper hinner (ih hinner) id id' hid),
      fun id id' hid => (hmatch id id' hid).joinSql_alike hR⟩

/-- Attached queries are compiled alike down to the same depth, or down to a greater one, if the
queries match wherever those attached to them do. -/
theorem attachedBy_alike (hR : Carried R) {s s' : Store} {oracle oracle' : Oracle}
    {met grouped : QueryId → QueryId → Prop}
    (htable : Alike lax R (g.wrappedTable (.text "temp_table"))
      (g'.wrappedTable (.text "temp_table")))
    (hqueries : ∀ attached attached', Attached.Matches lax R met grouped attached attached' →
      attached.oracle = oracle → attached'.oracle = oracle' → ∀ id id', met id id' →
        (s.query id).Matches lax R g g' attached attached' (s'.query id'))
    (hgroups : ∀ attached attached', Attached.Matches lax R met grouped attached attached' →
      attached.oracle = oracle → attached'.oracle = oracle' → ∀ id id', grouped id id' →
        List.Forall₂ (fun c c' => R c.boolean.display c'.boolean.display ∧
          Alike lax R (g.whereSql attached c.body) (g'.whereSql attached' c'.body))
          (s.query id).wheres (s'.query id').wheres)
    {depth depth' : Nat} (hdepth : depth = depth' ∨ lax ∧ depth ≤ depth') :
    Attached.Matches lax R met grouped (attachedBy s g oracle depth)
      (attachedBy s' g' oracle' depth') := by
  have hat := @attachedBy_alike_at lax R g g' hR s s' oracle oracle' met grouped
    fun depth depth' => depth = depth' ∨ lax ∧ depth ≤ depth'
  refine hat (fun _ h => h.imp Eq.symm And.left) (fun depth depth' h => ?_) htable
    (fun _ _ _ h => hqueries _ _ h (oracle_attachedBy ..) (oracle_attachedBy ..))
    (fun _ _ _ h => hgroups _ _ h (oracle_attachedBy ..) (oracle_attachedBy ..)) hdepth
  cases depth' with
  | zero => exact absurd h (by omega)
  | succ deeper =>
    exact ⟨deeper, rfl, h.imp Nat.succ.inj (And.imp_right Nat.le_of_succ_le_succ)⟩

/-! ## Compiling deeper -/

theorem carried_eq : Carried (Eq : String → String → Prop) where
  append h h' := h ▸ h' ▸ rfl
  plain _ := rfl
  enclosed h := h ▸ rfl
  isEmpty h := h ▸ rfl
  isStar h := h ▸ Iff.rfl
  trimLeft h := h ▸ rfl
  trimRight h := h ▸ rfl
  dropConjunction hword h := hword ▸ h ▸ rfl

theorem written_same (v : Value) : Written Eq v v :=
  ⟨rfl, .same fun _ _ => rfl⟩

theorem wraps_same (g : Grammar) (v : Value) : Wraps lax Eq g g v v :=
  .same fun w _ => written_same w

theorem Order.matches_same (o : Order) : Order.Matches lax Eq g g o o := by
  cases o with
  | byColumn column direction => exact .byColumn (wraps_same g column) direction
  | raw sql => exact .raw (written_same sql)

/-- A condition is compiled alike if the parts in it are. -/
theorem whereSql_of_parts {body : Where}
    (h : ∀ part, .part part ∈ body.items → Alike lax Eq (attached.part part) (attached'.part part))
    (horacle : attached.oracle = attached'.oracle) :
    Alike lax Eq (g.whereSql attached body) (g.whereSql attached' body) := by
  have hR := carried_eq
  cases body with
  | nested query => exact nestedSql_alike hR (h (.conditions query) List.mem_cons_self)
  | sub column operator query =>
    exact subSql_alike hR (wraps_same g column) rfl (h (.select query) List.mem_cons_self)
  | «exists» query negated =>
    cases query with
    | none => exact .error _
    | some id => exact existsSql_alike hR negated (h (.select id) List.mem_cons_self)
  | jsonContains column value negated =>
    show Alike _ _ (do return _ ++ (← g.jsonContainsSql attached.oracle _ _))
      (do return _ ++ (← g.jsonContainsSql attached'.oracle _ _))
    rw [horacle]
    exact .same fun _ _ => rfl
  | jsonLength column operator value =>
    show Alike _ _ (g.jsonLengthSql attached.oracle _ _ _) (g.jsonLengthSql attached'.oracle _ _ _)
    rw [horacle]
    exact .same fun _ _ => rfl
  | _ => exact .same fun _ _ => rfl

/-- A query is compiled alike if its joins, its conditions and its members are. -/
theorem Query.matches_of_attached (q : Query)
    (hjoins : ∀ id ∈ q.joins, Alike lax Eq (attached.join id) (attached'.join id))
    (hwheres : ∀ c ∈ q.wheres,
      Alike lax Eq (g.whereSql attached c.body) (g.whereSql attached' c.body))
    (hunions : ∀ u ∈ q.unions,
      Alike lax Eq (attached.selectOf u.member) (attached'.selectOf u.member)) :
    q.Matches lax Eq g g attached attached' q where
  kind := by
    cases q.kind with
    | statement => exact .statement
    | join type table => exact .join rfl (.same fun w _ => written_same w)
  aggregate := by
    cases q.aggregate with
    | none => exact .none
    | some a => exact .some ⟨rfl, List.forall₂_same.2 fun c _ => wraps_same g c⟩
  columns := List.forall₂_same.2 fun c _ => wraps_same g c
  distinct := rfl
  source := ⟨rfl, .same fun w _ => written_same w⟩
  joins := List.forall₂_same.2 hjoins
  wheres := List.forall₂_same.2 fun c hc => ⟨rfl, hwheres c hc⟩
  groups := List.forall₂_same.2 fun c _ => wraps_same g c
  havings := List.forall₂_same.2 fun _ _ => ⟨rfl, .same fun _ _ => rfl⟩
  orders := List.forall₂_same.2 fun o _ => o.matches_same
  paging := ⟨rfl, rfl⟩
  unions := List.forall₂_same.2 fun u hu => ⟨rfl, hunions u hu⟩
  unionOrders := List.forall₂_same.2 fun o _ => o.matches_same
  unionPaging := ⟨rfl, rfl⟩
  lock := ⟨rfl, fun _ => rfl⟩
  parenthesized := .inr Iff.rfl

section

variable (h : Attached.Matches lax Eq Eq Eq attached attached')
  (horacle : attached.oracle = attached'.oracle)

include h

theorem Attached.Matches.part (part : Part) :
    Alike lax Eq (attached.part part) (attached'.part part) := by
  cases part with
  | select id => exact h.select id id rfl
  | conditions id => exact h.conditions id id rfl
  | join id => exact h.join id id rfl

include horacle

/-- A query is compiled alike if the queries attached to it are. -/
theorem Query.matches_same (q : Query) : q.Matches lax Eq g g attached attached' q :=
  q.matches_of_attached (fun id _ => h.join id id rfl)
    (fun _ _ => whereSql_of_parts (fun part _ => h.part part) horacle)
    fun u _ => h.selectOf (optionRel_same u.member)

end

/-- What attached queries are compiled to does not change if there is room for more of them. -/
theorem attachedBy_deeper (s : Store) (g : Grammar) (oracle : Oracle) {depth depth' : Nat}
    (hdepth : depth ≤ depth') :
    Attached.Matches True Eq Eq Eq (attachedBy s g oracle depth) (attachedBy s g oracle depth') := by
  refine attachedBy_alike carried_eq (.same fun _ _ => rfl) ?_ ?_ (.inr ⟨trivial, hdepth⟩)
  · rintro attached attached' hattached ho ho' id _ rfl
    exact Query.matches_same hattached (ho.trans ho'.symm) _
  · rintro attached attached' hattached ho ho' id _ rfl
    exact (Query.matches_same hattached (ho.trans ho'.symm) _).wheres

/-! ## The depth that compiling needs -/

/-- Two computations that are alike and do not give up are the same. -/
theorem Alike.eq {α : Type} {x y : Except Failure α} (h : Alike False Eq x y) : x = y := by
  cases h with
  | ok h => exact congrArg _ h
  | error e => rfl
  | endless h y => exact h.elim

/-- Joins, conditions and members of a union are compiled inside a select statement, aggregated or
not. -/
theorem Query.mem_statementItems {q : Query} {item : Item}
    (h : item ∈ q.joins.map (.part <| .join ·) ∨ item ∈ q.conditionItems ∨ item ∈ q.unionItems) :
    item ∈ q.statementItems := by
  have hplain : item ∈ q.plainItems ∧ item ∈ { q with aggregate := none }.plainItems := by
    unfold plainItems clauseItems
    simp only [List.mem_append]
    exact ⟨by tauto, h.elim (by tauto) fun h => h.elim (fun h => .inl (by tauto)) .inr⟩
  unfold statementItems
  split
  · split
    · exact List.mem_append_left _ (List.mem_append_right _ hplain.2)
    · exact hplain.1
  · exact hplain.1

namespace Store

variable {s : Store} {part : Part}

/-- Compiling a part deeper than its chains go changes nothing. -/
theorem Within.part_eq (g : Grammar) (oracle : Oracle) {depth depth' : Nat}
    (h : s.Within depth part) (hdepth : depth ≤ depth') :
    (attachedBy s g oracle depth).part part = (attachedBy s g oracle depth').part part := by
  induction depth generalizing depth' part with
  | zero => exact h.elim
  | succ depth ih =>
    obtain ⟨deeper, rfl⟩ : ∃ deeper, depth' = deeper + 1 := ⟨depth' - 1, by omega⟩
    have hinner : ∀ inner, .part inner ∈ s.items part →
        Alike False Eq ((attachedBy s g oracle depth).part inner)
          ((attachedBy s g oracle deeper).part inner) := by
      intro inner hmem
      rw [ih (h inner (mem_parts.2 hmem)) (Nat.le_of_succ_le_succ hdepth)]
      exact .same fun _ _ => rfl
    have horacle : (attachedBy s g oracle depth).oracle = (attachedBy s g oracle deeper).oracle :=
      (oracle_attachedBy ..).trans (oracle_attachedBy ..).symm
    refine Alike.eq ?_
    cases part with
    | select id =>
      have hmatches : (s.query id).Matches False Eq g g (attachedBy s g oracle depth)
          (attachedBy s g oracle deeper) (s.query id) := by
        refine (s.query id).matches_of_attached (fun join hjoin => ?_) (fun c hc => ?_)
          fun u hu => ?_
        · exact hinner (.join join) (Query.mem_statementItems
            (.inl (List.mem_map_of_mem hjoin)))
        · exact whereSql_of_parts (fun inner hmem => hinner inner (Query.mem_statementItems
            (.inr (.inl (List.mem_flatMap.2 ⟨c, hc, hmem⟩))))) horacle
        · cases hmember : u.member with
          | none => exact .error _
          | some member => exact hinner (.select member) (Query.member_mem_items hu hmember)
      exact hmatches.selectSql_alike carried_eq (.same fun _ _ => rfl)
    | conditions id =>
      exact conditionsSql_alike carried_eq (List.forall₂_same.2 fun c hc => ⟨rfl,
        whereSql_of_parts (fun inner hmem => hinner inner (List.mem_flatMap.2 ⟨c, hc, hmem⟩))
          horacle⟩)
    | join id =>
      -- A union in a join is not compiled, so the join is compiled as if it had none.
      have hmatches : { s.query id with unions := [] }.Matches False Eq g g
          (attachedBy s g oracle depth) (attachedBy s g oracle deeper)
          { s.query id with unions := [] } := by
        refine Query.matches_of_attached _ (fun join hjoin => ?_) (fun c hc => ?_)
          fun u hu => nomatch hu
        · exact hinner (.join join) (List.mem_append_left _
            (List.mem_cons_of_mem _ (List.mem_map_of_mem hjoin)))
        · exact whereSql_of_parts (fun inner hmem => hinner inner (List.mem_append_right _
            (List.mem_flatMap.2 ⟨c, hc, hmem⟩))) horacle
      exact hmatches.joinSql_alike carried_eq

end Store

end FluentSql
