import FluentSql.Proofs.Asking
import FluentSql.Proofs.Resembling.Clauses
import FluentSql.Store.Live

/-!
# Queries that resemble each other

A query in which other objects of the same kinds take the place of its own
resembles it.  The two are compiled to the same SQL if the queries that they
refer to resemble each other too.

* `Reproduces` says that a compilation gives the same result as another one.
  The other one may also have given up because attached queries went too deep.
* `Attached.Resembles` relates how attached queries are compiled, and
  `whereSql_reproduces` to `selectSql_reproduces` are the clauses to which
  queries are attached.
* `Store.Resembles` says that some queries of a store resemble queries of
  another one, and `Store.Resembles.compiled` is the result.
-/

namespace FluentSql

/-! ## Compilations that give the same result -/

/-- The second of two computations gives the same result as the first, which asks nothing.  If the
first was `shallow`, it may have given up before it came to an end. -/
structure Reproduces {α : Type} (shallow : Prop) (x y : Except Failure α) : Prop where
  asksNothing : AsksNothing x
  same_or_endless : x = y ∨ shallow ∧ x = .error (.value .endless)

namespace Reproduces

variable {α β : Type} {shallow : Prop}

theorem same {x : Except Failure α} (h : AsksNothing x) : Reproduces shallow x x :=
  ⟨h, .inl rfl⟩

theorem of_eq {x y : Except Failure α} (h : AsksNothing x) (heq : y = x) :
    Reproduces shallow x y :=
  ⟨h, .inl heq.symm⟩

theorem endless (h : shallow) (y : Except Failure α) :
    Reproduces shallow (.error (.value .endless)) y :=
  ⟨asksNothing_value _, .inr ⟨h, rfl⟩⟩

theorem bind {x y : Except Failure α} {f f' : α → Except Failure β} (h : Reproduces shallow x y)
    (hf : ∀ a, Reproduces shallow (f a) (f' a)) : Reproduces shallow (x >>= f) (y >>= f') := by
  refine ⟨h.asksNothing.bind fun a _ => (hf a).asksNothing, ?_⟩
  obtain rfl | ⟨hshallow, rfl⟩ := h.same_or_endless
  · cases x with
    | error e => exact .inl rfl
    | ok a => exact (hf a).same_or_endless
  · exact .inr ⟨hshallow, rfl⟩

/-- What is computed first in both gives the same. -/
theorem after {x y : Except Failure α} (hx : AsksNothing x) (heq : y = x)
    {f f' : α → Except Failure β} (hf : ∀ a, Reproduces shallow (f a) (f' a)) :
    Reproduces shallow (x >>= f) (y >>= f') :=
  (of_eq hx heq).bind hf

theorem mapM {f f' : α → Except Failure β} {rename : α → α} {xs : List α}
    (h : ∀ x ∈ xs, Reproduces shallow (f x) (f' (rename x))) :
    Reproduces shallow (xs.mapM f) ((xs.map rename).mapM f') := by
  induction xs with
  | nil => exact same (asksNothing_ok _)
  | cons x xs ih =>
    rw [List.map_cons, List.mapM_cons, List.mapM_cons]
    refine (h x List.mem_cons_self).bind fun _ => ?_
    exact (ih fun y hy => h y (List.mem_cons_of_mem x hy)).bind fun _ => same (asksNothing_ok _)

theorem ifAny {γ : Type} {items items' : List γ} (hitems : items'.isEmpty = items.isEmpty)
    {x y : Except Failure String} (h : Reproduces shallow x y) :
    Reproduces shallow (Grammar.ifAny items x) (Grammar.ifAny items' y) := by
  unfold Grammar.ifAny
  rw [hitems]
  split
  · exact same (asksNothing_ok _)
  · exact h

end Reproduces

/-! ## Attached queries -/

/-- Some queries include all that are among some objects. -/
def Meets (met : QueryId → Prop) (handles : List Handle) : Prop :=
  ∀ id, Handle.query id ∈ handles → met id

theorem meets_append {met : QueryId → Prop} {xs ys : List Handle} :
    Meets met (xs ++ ys) ↔ Meets met xs ∧ Meets met ys := by
  simp only [Meets, List.mem_append]
  exact ⟨fun h => ⟨fun id hid => h id (.inl hid), fun id hid => h id (.inr hid)⟩,
    fun h id hid => hid.elim (h.1 id) (h.2 id)⟩

theorem meets_flatMap {α : Type} {met : QueryId → Prop} {xs : List α} {f : α → List Handle} :
    Meets met (xs.flatMap f) ↔ ∀ x ∈ xs, Meets met (f x) := by
  simp only [Meets, List.mem_flatMap]
  exact ⟨fun h x hx id hid => h id ⟨x, hx, hid⟩, fun h id ⟨x, hx, hid⟩ => h x hx id hid⟩

theorem meets_queries {met : QueryId → Prop} {ids : List QueryId} :
    Meets met (ids.map .query) ↔ ∀ id ∈ ids, met id := by
  refine ⟨fun h id hid => h id (List.mem_map_of_mem hid), fun h id hid => ?_⟩
  obtain ⟨other, hother, heq⟩ := List.mem_map.1 hid
  exact Handle.query.inj heq ▸ h other hother

/-- Some queries include all those that are attached to a query. -/
structure Query.AttachedIn (q : Query) (met : QueryId → Prop) : Prop where
  joins : ∀ id ∈ q.joins, met id
  wheres : ∀ c ∈ q.wheres, Meets met c.body.handles
  unions : ∀ u ∈ q.unions, ∀ id ∈ u.member, met id

theorem Meets.attachedIn {met : QueryId → Prop} {q : Query} (h : Meets met q.handles) :
    q.AttachedIn met := by
  simp only [Query.handles, meets_append, meets_flatMap, meets_queries] at h
  obtain ⟨⟨⟨⟨⟨⟨⟨⟨_, joins⟩, wheres⟩, _⟩, _⟩, _⟩, unions⟩, _⟩, _⟩ := h
  exact ⟨joins, fun c hc => (wheres c hc).2, fun u hu id hid =>
    (unions u hu).1 id (Option.mem_toList.2 hid)⟩

/-- The queries that are met and those in their places are compiled alike, and answer alike: not at
all. -/
structure Attached.Resembles (shallow : Prop) (r : Renaming) (met : QueryId → Prop)
    (a a' : Attached) : Prop where
  select : ∀ id, met id → Reproduces shallow (a.select id) (a'.select (r.query id))
  conditions : ∀ id, met id → Reproduces shallow (a.conditions id) (a'.conditions (r.query id))
  join : ∀ id, met id → Reproduces shallow (a.join id) (a'.join (r.query id))
  silent : a.oracle.Silent
  oracle : ∀ id, met id → ∀ request, a'.oracle (r.query id) request = a.oracle id request

section

variable {shallow : Prop} {r : Renaming} {met : QueryId → Prop} {a a' : Attached}

/-! ## Queries where a text is due -/

section

variable (hr : r.Faithful) {oracle oracle' : Oracle}
  (ho : ∀ id, met id → ∀ request, oracle' (r.query id) request = oracle id request)

include hr ho

theorem answerBy_renamed {v : Value} (h : Meets met v.handles) (request : Request) :
    (r.value v).answerBy oracle' request = v.answerBy oracle request := by
  cases v with
  | object handle =>
    cases handle with
    | query id => exact ho id (h id List.mem_cons_self) request
    | bindings id =>
      obtain ⟨other, hother⟩ := hr id
      show (r.bindings id).answerBy oracle' request = _
      rw [hother]
      rfl
    | _ => rfl
  | _ => rfl

theorem replacedBy_renamed {v : Value} (h : Meets met v.handles) (part replacement : String) :
    ((r.value v).replacedBy oracle' part replacement).map Value.display =
      (v.replacedBy oracle part replacement).map Value.display := by
  cases v with
  | object handle =>
    cases handle with
    | query id =>
      exact congrArg (Except.map Value.display) (ho id (h id List.mem_cons_self) _)
    | bindings id =>
      obtain ⟨other, hother⟩ := hr id
      show ((r.bindings id).replacedBy oracle' part replacement).map Value.display = _
      rw [hother]
      rfl
    | _ => rfl
  | _ => rfl

theorem jsonFieldAndPath_renamed (g : Grammar) {selector : Value} (h : Meets met selector.handles) :
    g.jsonFieldAndPath oracle' (r.value selector) = g.jsonFieldAndPath oracle selector := by
  have hanswer := answerBy_renamed hr ho h (.split "->" (some 1))
  have hother : ∀ (oracle : Oracle) (v : Value), (∀ s, v ≠ .text s) →
      g.jsonFieldAndPath oracle v = (do
        let pieces ← v.answerBy oracle (.split "->" (some 1))
        let field ← g.wrap (← pieces.subscript (.int 0))
        if 1 < (← pieces.length) then
          let path ← (← pieces.subscript (.int 1)).asText
          return (field, String.ofList (Name.pathArgument path.toList))
        else return (field, "")) := by
    intro oracle v hv
    cases v with
    | text s => exact absurd rfl (hv s)
    | _ => rfl
  have hrenamed : (∀ s, selector ≠ .text s) →
      g.jsonFieldAndPath oracle' (r.value selector) = g.jsonFieldAndPath oracle selector := by
    intro hselector
    rw [hother oracle selector hselector, hother oracle' _ (hr.ne_text hselector), hanswer]
  cases selector with
  | text s => rfl
  | _ => exact hrenamed fun _ h => nomatch h

theorem documentArrows_renamed (g : Grammar) {column : Value} (h : Meets met column.handles) :
    (g.wrap (r.value column) >>= documentArrows oracle') =
      (g.wrap column >>= documentArrows oracle) := by
  rw [hr.wrap]
  cases hw : g.wrap column with
  | error e => rfl
  | ok w =>
    -- A quoted column refers to no more than the column does.
    have hmeets : Meets met w.handles := by
      unfold Grammar.wrap Grammar.wrapAs at hw
      split at hw
      · cases hw
        exact h
      · cases hs : g.wrapText false column.display with
        | error e =>
          rw [hs] at hw
          exact nomatch hw
        | ok s =>
          rw [hs] at hw
          cases hw
          exact fun _ hid => nomatch hid
    exact replacedBy_renamed hr ho hmeets "->>" "->"

theorem jsonContainsSql_renamed (g : Grammar) {column : Value} (h : Meets met column.handles)
    (value : Value) : g.jsonContainsSql oracle' (r.value column) (Grammar.parameter (r.value value)) =
      g.jsonContainsSql oracle column (Grammar.parameter value) := by
  have hdocument := documentArrows_renamed hr ho g h
  unfold Grammar.jsonContainsSql
  split
  · simp only [jsonFieldAndPath_renamed hr ho g h, hr.parameter_display]
  · simp only [← bind_assoc, hdocument, hr.parameter_display]
  · rfl

theorem jsonLengthSql_renamed (g : Grammar) {column : Value} (h : Meets met column.handles)
    (operator : String) (value : Value) :
    g.jsonLengthSql oracle' (r.value column) operator (Grammar.parameter (r.value value)) =
      g.jsonLengthSql oracle column operator (Grammar.parameter value) := by
  have hdocument := documentArrows_renamed hr ho g h
  unfold Grammar.jsonLengthSql
  split
  · rfl
  · simp only [jsonFieldAndPath_renamed hr ho g h, hr.parameter_display]
  · simp only [← bind_assoc, hdocument, hr.parameter_display]
  · simp only [jsonFieldAndPath_renamed hr ho g h, hr.parameter_display]

end

/-! ## Conditions -/

variable (g : Grammar) (hr : r.Faithful) (h : Attached.Resembles shallow r met a a')

include hr h

omit hr in
theorem selectOf_reproduces {query : Option QueryId} (hquery : ∀ id ∈ query, met id) :
    Reproduces shallow (a.selectOf query) (a'.selectOf (query.map r.query)) := by
  cases query with
  | none => exact .same (asksNothing_value _)
  | some id => exact h.select id (hquery id rfl)

theorem whereSql_reproduces {body : Where} (hb : Meets met body.handles) :
    Reproduces shallow (g.whereSql a body) (g.whereSql a' (body.rename r)) := by
  cases body with
  | raw sql => exact .of_eq (asksNothing_ok _) (congrArg Except.ok (hr.display sql))
  | basic column operator value =>
    exact .of_eq (g.basicSql_asksNothing _ _ _) (hr.basicSql g column operator value)
  | among column values negated =>
    refine .of_eq (g.amongSql_asksNothing _ (joinTexts_asksNothing _ _) _ _) ?_
    show g.amongSql (r.value column) (Grammar.parameterize (values.map r.value))
      (values.map r.value).isEmpty negated = _
    rw [hr.parameterize, List.isEmpty_map, hr.amongSql]
    rfl
  | amongIntegers column values negated =>
    refine .of_eq ((Grammar.integersSql_asksNothing values).bind fun _ _ =>
      g.amongSql_asksNothing _ (asksNothing_ok _) _ _) ?_
    exact congrArg (Grammar.integersSql values >>= ·) (funext fun _ => hr.amongSql g column _ _ _)
  | null column negated =>
    exact .of_eq (g.nullSql_asksNothing _ _) (hr.nullSql g column negated)
  | between column values negated =>
    exact .of_eq (g.betweenSql_asksNothing _ _ _) (hr.betweenSql g column values negated)
  | datePart part column operator value =>
    exact .of_eq (g.datePartSql_asksNothing _ _ _ _) (hr.datePartSql g part column operator value)
  | columnPair first operator second =>
    exact .after (g.wrapped_asksNothing first) (hr.wrapped g first) fun _ =>
      .after (g.wrapped_asksNothing second) (hr.wrapped g second) fun _ => .same (asksNothing_ok _)
  | nested query =>
    exact (h.conditions query (hb query List.mem_cons_self)).bind fun _ => .same (asksNothing_ok _)
  | sub column operator query =>
    obtain ⟨_, hquery⟩ := meets_append.1 hb
    refine (h.select query (hquery query List.mem_cons_self)).bind fun _ => ?_
    refine .after (g.wrapped_asksNothing column) (hr.wrapped g column) fun _ => ?_
    rw [hr.display]
    exact .same (asksNothing_ok _)
  | «exists» query negated =>
    refine (selectOf_reproduces h fun id hid => hb id ?_).bind fun _ => .same (asksNothing_ok _)
    exact List.mem_map_of_mem (Option.mem_toList.2 hid)
  | rowValues columns operator values =>
    refine .after (g.columnize_asksNothing columns) (hr.columnize g columns) fun _ => ?_
    refine .after (joinTexts_asksNothing _ _) (hr.parameterize values) fun _ => ?_
    rw [hr.display]
    exact .same (asksNothing_ok _)
  | jsonContains column value negated =>
    obtain ⟨hcolumn, _⟩ := meets_append.1 hb
    exact .after (Grammar.jsonContainsSql_asksNothing h.silent _ _)
      (jsonContainsSql_renamed hr h.oracle g hcolumn value) fun _ => .same (asksNothing_ok _)
  | jsonLength column operator value =>
    obtain ⟨hcolumn, _⟩ := meets_append.1 hb
    exact .of_eq (Grammar.jsonLengthSql_asksNothing h.silent _ _ _)
      (jsonLengthSql_renamed hr h.oracle g hcolumn operator value)

theorem conditionsSql_reproduces {conditions : List Condition}
    (hc : ∀ c ∈ conditions, Meets met c.body.handles) :
    Reproduces shallow (g.conditionsSql a conditions)
      (g.conditionsSql a' (conditions.map fun c => ⟨r.value c.boolean, c.body.rename r⟩)) := by
  refine (Reproduces.mapM fun c hmem => ?_).bind fun _ => .same (asksNothing_ok _)
  refine (whereSql_reproduces g hr h (hc c hmem)).bind fun _ => ?_
  rw [hr.display]
  exact .same (asksNothing_ok _)

/-! ## Statements -/

omit hr h in
theorem Query.keyword_rename (q : Query) (r : Renaming) : (q.rename r).keyword = q.keyword := by
  unfold Query.keyword Query.isJoin Query.rename
  cases q.kind <;> rfl

theorem wheresSql_reproduces {q : Query} (hq : q.AttachedIn met) :
    Reproduces shallow (g.wheresSql a q) (g.wheresSql a' (q.rename r)) := by
  unfold Grammar.wheresSql
  rw [q.keyword_rename]
  show Reproduces shallow _ (if (q.wheres.map _).isEmpty then _ else _)
  rw [List.isEmpty_map]
  split
  · exact .same (asksNothing_ok _)
  · exact (conditionsSql_reproduces g hr h hq.wheres).bind fun _ => .same (asksNothing_ok _)

omit hr in
theorem joinsSql_reproduces {joins : List QueryId} (hjoins : ∀ id ∈ joins, met id) :
    Reproduces shallow (Grammar.joinsSql a joins) (Grammar.joinsSql a' (joins.map r.query)) :=
  (Reproduces.mapM fun id hid => h.join id (hjoins id hid)).bind fun _ => .same (asksNothing_ok _)

theorem joinSql_reproduces {q : Query} (hq : q.AttachedIn met) :
    Reproduces shallow (g.joinSql a q) (g.joinSql a' (q.rename r)) := by
  have hwheres := wheresSql_reproduces g hr h hq
  have hjoins := joinsSql_reproduces h hq.joins
  unfold Grammar.joinSql
  cases hkind : q.kind with
  | statement =>
    have hrenamed : (q.rename r).kind = .statement := congrArg (QueryKind.rename r) hkind
    rw [hrenamed]
    exact .same (asksNothing_value _)
  | join type table =>
    have hrenamed : (q.rename r).kind = .join (r.value type) (r.value table) :=
      congrArg (QueryKind.rename r) hkind
    rw [hrenamed]
    have hcondition : ∀ name, Reproduces shallow
        (do
          let condition ← g.wheresSql a q
          return Text.trim (type.display ++ " join " ++ name ++ " " ++ condition))
        (do
          let condition ← g.wheresSql a' (q.rename r)
          return Text.trim ((r.value type).display ++ " join " ++ name ++ " " ++ condition)) := by
      intro name
      rw [hr.display]
      exact hwheres.bind fun _ => .same (asksNothing_ok _)
    have hempty : (q.rename r).joins.isEmpty = q.joins.isEmpty := List.isEmpty_map
    refine .after (g.wrappedTable_asksNothing table) (hr.wrappedTable g table) fun name => ?_
    dsimp only
    rw [hempty]
    split
    · exact hcondition name
    · exact hjoins.bind fun _ => hcondition _

theorem unionSql_reproduces {u : Union} (hu : ∀ id ∈ u.member, met id) :
    Reproduces shallow (g.unionSql a u)
      (g.unionSql a' ⟨u.member.map r.query, r.value u.keepsAll⟩) := by
  refine (selectOf_reproduces h hu).bind fun _ => ?_
  rw [hr.truthy]
  exact .same (asksNothing_ok _)

theorem unionsSql_reproduces {q : Query} (hq : q.AttachedIn met) :
    Reproduces shallow (g.unionsSql a q) (g.unionsSql a' (q.rename r)) := by
  have horders : Grammar.trailingOf (q.unionOrders.map (Order.rename r)) g.ordersSql =
      Grammar.trailingOf q.unionOrders g.ordersSql := by
    unfold Grammar.trailingOf
    rw [List.isEmpty_map, hr.ordersSql]
  refine (Reproduces.mapM fun u hu => unionSql_reproduces g hr h
    (hq.unions u hu)).bind fun _ => ?_
  refine .after (.trailingOf g.ordersSql_asksNothing _) horders fun _ => ?_
  refine .after (.trailing Grammar.limitSql_asksNothing _) rfl fun _ => ?_
  exact .after (.trailing Grammar.offsetSql_asksNothing _) rfl fun _ => .same (asksNothing_ok _)

omit hr h in
/-- A component that is the same for both. -/
private theorem ifAny_renamed {α β : Type} {items : List α} {rename : α → β}
    {sql : Except Failure String} {sql' : Except Failure String} (h : sql' = sql) :
    Grammar.ifAny (items.map rename) sql' = Grammar.ifAny items sql := by
  unfold Grammar.ifAny
  rw [List.isEmpty_map, h]

theorem components_reproduces {q : Query} (hq : q.AttachedIn met) :
    Reproduces shallow (g.components a q) (g.components a' (q.rename r)) := by
  have hgroups : (g.columnize (q.groups.map r.value)).map ("group by " ++ ·) =
      (g.columnize q.groups).map ("group by " ++ ·) := congrArg _ (hr.columnize g q.groups)
  have hunions : Reproduces shallow (g.unionComponent a q) (g.unionComponent a' (q.rename r)) := by
    unfold Grammar.unionComponent
    split
    · exact .same (asksNothing_ok _)
    · exact .ifAny List.isEmpty_map (unionsSql_reproduces g hr h hq)
  have hlock : (q.rename r).lock.isPresent = q.lock.isPresent := hr.isPresent q.lock
  rw [Grammar.components_eq, Grammar.components_eq]
  refine .after (.elim (g.aggregateSql_asksNothing q.distinct) _) (hr.aggregateOf g q) fun _ => ?_
  refine .after (g.selectList_asksNothing q) (hr.selectList g q) fun _ => ?_
  refine .after (g.sourceSql_asksNothing q.source) (hr.sourceSql g q.source) fun _ => ?_
  refine (Reproduces.ifAny List.isEmpty_map (joinsSql_reproduces h hq.joins)).bind fun _ => ?_
  refine (wheresSql_reproduces g hr h hq).bind fun _ => ?_
  refine .after (.ifAny _ ((g.columnize_asksNothing _).map _)) (ifAny_renamed hgroups) fun _ => ?_
  refine .after (.ifAny _ (g.havingsSql_asksNothing _)) (ifAny_renamed (hr.havingsSql g _))
    fun _ => ?_
  refine .after (.ifAny _ (g.ordersSql_asksNothing _)) (ifAny_renamed (hr.ordersSql g _))
    fun _ => ?_
  refine .after (.elim Grammar.limitSql_asksNothing _) rfl fun _ => ?_
  refine .after (.elim Grammar.offsetSql_asksNothing _) rfl fun _ => ?_
  refine hunions.bind fun _ => ?_
  rw [hlock]
  show Reproduces shallow _ (pure [_, _, _, _, _, _, _, _, _, _, _,
    if _ then g.lockSql (r.value q.lock) else ""])
  rw [hr.lockSql]
  exact .same (asksNothing_ok _)

theorem plainSelectSql_reproduces {q : Query} (hq : q.AttachedIn met) :
    Reproduces shallow (g.plainSelectSql a q) (g.plainSelectSql a' (q.rename r)) := by
  have hunion : (q.rename r).isUnion = q.isUnion := congrArg Bool.not List.isEmpty_map
  refine (components_reproduces g hr h hq).bind fun _ => ?_
  dsimp only
  rw [hunion]
  split
  · exact (unionsSql_reproduces g hr h hq).bind fun _ => .same (asksNothing_ok _)
  · exact .same (asksNothing_ok _)

theorem selectSql_reproduces {q : Query} (hq : q.AttachedIn met) :
    Reproduces shallow (g.selectSql a q) (g.selectSql a' (q.rename r)) := by
  have hplain := plainSelectSql_reproduces g hr h hq
  have hunion : (q.rename r).isUnion = q.isUnion := congrArg Bool.not List.isEmpty_map
  unfold Grammar.selectSql
  cases haggregate : q.aggregate with
  | none =>
    have hrenamed : (q.rename r).aggregate = none := congrArg (Option.map _) haggregate
    rw [hrenamed]
    exact hplain
  | some aggregate =>
    have hrenamed : (q.rename r).aggregate =
        some ⟨r.value aggregate.function, aggregate.columns.map r.value⟩ :=
      congrArg (Option.map _) haggregate
    have hinner : Reproduces shallow (g.plainSelectSql a { q with aggregate := none })
        (g.plainSelectSql a' { q.rename r with aggregate := none }) :=
      plainSelectSql_reproduces g hr h ⟨hq.joins, hq.wheres, hq.unions⟩
    rw [hrenamed]
    dsimp only
    rw [hunion]
    split
    · refine .after (g.aggregateSql_asksNothing _ _) (hr.aggregateSql g _ aggregate) fun _ => ?_
      refine hinner.bind fun _ => ?_
      exact .after (g.wrappedTable_asksNothing _) rfl fun _ => .same (asksNothing_ok _)
    · exact hplain

end

/-! ## Stores -/

/-- The queries of a store that are met resemble those in their places in another store.  In neither
store an extension answers requests. -/
structure Store.Resembles (r : Renaming) (met : QueryId → Prop) (s s' : Store) : Prop where
  faithful : r.Faithful
  query : ∀ id, met id → s'.query (r.query id) = (s.query id).rename r
  attached : ∀ id, met id → (s.query id).AttachedIn met
  silent : ∀ request : Request, s.extension? request.name = none
  silent' : ∀ request : Request, s'.extension? request.name = none

namespace Store.Resembles

variable {shallow : Prop} {r : Renaming} {met : QueryId → Prop} {s s' : Store}
  (h : Store.Resembles r met s s')

include h

theorem classOf {id : QueryId} (hid : met id) : s'.classOf (r.query id) = s.classOf id := by
  have hjoin : (s'.query (r.query id)).isJoin = (s.query id).isJoin := by
    rw [h.query id hid]
    unfold Query.isJoin Query.rename
    cases (s.query id).kind <;> rfl
  unfold Store.classOf
  rw [hjoin]

theorem oracle {id : QueryId} (hid : met id) (request : Request) :
    s'.oracle [] (r.query id) request = s.oracle [] id request := by
  unfold Store.oracle
  rw [h.silent, h.silent', h.classOf hid]
  rfl

/-- Attached queries are compiled alike down to the same depth, or down to a greater one. -/
theorem attachedBy (g : Grammar) {depth depth' : Nat}
    (hdepth : depth = depth' ∨ shallow ∧ depth ≤ depth') :
    Attached.Resembles shallow r met (FluentSql.attachedBy s g (s.oracle []) depth)
      (FluentSql.attachedBy s' g (s'.oracle []) depth') := by
  have horacle : ∀ (s : Store) (o : Oracle) (depth : Nat),
      (FluentSql.attachedBy s g o depth).oracle = o := by
    intro s o depth
    cases depth <;> rfl
  have hsilent : ∀ depth, (FluentSql.attachedBy s g (s.oracle []) depth).oracle.Silent := by
    intro depth
    rw [horacle]
    exact Store.oracle_silent h.silent
  have hanswers : ∀ depth depth' id, met id → ∀ request,
      (FluentSql.attachedBy s' g (s'.oracle []) depth').oracle (r.query id) request =
        (FluentSql.attachedBy s g (s.oracle []) depth).oracle id request := by
    intro depth depth' id hid request
    rw [horacle, horacle]
    exact h.oracle hid request
  induction depth generalizing depth' with
  | zero =>
    cases depth' with
    | zero => exact ⟨fun _ _ => .same (asksNothing_value _), fun _ _ => .same (asksNothing_value _),
        fun _ _ => .same (asksNothing_value _), hsilent _, hanswers _ _⟩
    | succ depth' =>
      obtain hsame | ⟨hshallow, _⟩ := hdepth
      · exact nomatch hsame
      · exact ⟨fun _ _ => .endless hshallow _, fun _ _ => .endless hshallow _,
          fun _ _ => .endless hshallow _, hsilent _, hanswers _ _⟩
  | succ depth ih =>
    cases depth' with
    | zero => exact absurd hdepth (by omega)
    | succ depth' =>
      have hdeeper : Attached.Resembles shallow r met
          (FluentSql.attachedBy s g (s.oracle []) depth)
          (FluentSql.attachedBy s' g (s'.oracle []) depth') :=
        ih (hdepth.imp Nat.succ.inj (And.imp_right Nat.le_of_succ_le_succ))
      refine ⟨fun id hid => ?_, fun id hid => ?_, fun id hid => ?_, hsilent _, hanswers _ _⟩
      · show Reproduces shallow (g.selectSql _ (s.query id)) (g.selectSql _ (s'.query (r.query id)))
        rw [h.query id hid]
        exact selectSql_reproduces g h.faithful hdeeper (h.attached id hid)
      · show Reproduces shallow (g.conditionsSql _ (s.query id).wheres)
          (g.conditionsSql _ (s'.query (r.query id)).wheres)
        rw [h.query id hid]
        exact conditionsSql_reproduces g h.faithful hdeeper (h.attached id hid).wheres
      · show Reproduces shallow (g.joinSql _ (s.query id)) (g.joinSql _ (s'.query (r.query id)))
        rw [h.query id hid]
        exact joinSql_reproduces g h.faithful hdeeper (h.attached id hid)

omit h in
theorem grammarFor_asksNothing (s : Store) (c : Compiler) (method : String) :
    AsksNothing (s.grammarFor c method) := by
  intro id request hask
  cases c with
  | grammar g =>
    unfold Store.grammarFor at hask
    dsimp only at hask
    split at hask
    · exact nomatch hask
    · exact nomatch hask
  | connection c => exact nomatch hask
  | query q => exact nomatch hask

/-- Queries that resemble each other are compiled alike, if they have the same grammar. -/
theorem compiled {id : QueryId} (hid : met id)
    (hsize : s.queries.size = s'.queries.size ∨ shallow ∧ s.queries.size ≤ s'.queries.size)
    (hgrammar : ∀ method, s'.grammarFor (s'.query (r.query id)).grammar method =
      s.grammarFor (s.query id).grammar method) (method : String) :
    Reproduces shallow (s.compiled [] id method Grammar.selectSql)
      (s'.compiled [] (r.query id) method Grammar.selectSql) := by
  unfold Store.compiled
  refine .after (grammarFor_asksNothing s _ method) (hgrammar method) fun g => ?_
  rw [h.query id hid]
  exact selectSql_reproduces g h.faithful (h.attachedBy g
    (hsize.imp (congrArg (3 * · + 1))
      (And.imp_right fun h => Nat.succ_le_succ (Nat.mul_le_mul_left 3 h)))) (h.attached id hid)

end Store.Resembles

/-! ## Stores whose values are read -/

namespace Store

theorem query_settled (s : Store) (id : QueryId) : s.settled.query id =
    (s.query id).rename { bindings := fun id => s.shown (.object (.bindings id)) } := by
  unfold settled query
  rw [Array.getElem?_map]
  cases s.queries[id.index]? with
  | none => rfl
  | some q => rfl

/-- A query that follows no other one is compiled as it is. -/
theorem settled_query {s : Store} {id : QueryId}
    (h : ∀ other, Handle.bindings other ∉ (s.query id).handles) :
    s.settled.query id = s.query id := by
  rw [query_settled]
  refine Query.rename_of_agree fun handle hmem => ?_
  cases handle with
  | bindings other => exact absurd hmem (h other)
  | _ => rfl

/-- A query has the same grammar when all values are read. -/
theorem grammarFor_settled (s : Store) (q : QueryId) (method : String) :
    s.settled.grammarFor (s.settled.query q).grammar method =
      s.grammarFor (s.query q).grammar method := by
  have hclass : ∀ other, s.settled.classOf other = s.classOf other := by
    intro other
    unfold classOf
    rw [query_settled]
    cases h : (s.query other).kind <;> simp only [Query.isJoin, Query.rename, QueryKind.rename, h]
  rw [query_settled]
  show s.settled.grammarFor (Renaming.compiler _ (s.query q).grammar) method = _
  cases (s.query q).grammar with
  | query other =>
    show (.error (.unknownMethod (s.settled.classOf other) method) : Except Failure Grammar) = _
    rw [hclass]
    rfl
  | _ => rfl

end Store

end FluentSql
