import FluentSql.Proofs.Inserting
import FluentSql.Proofs.Verbatim.Clauses

/-!
# Statements around a value

A column, a table or a value stands in one place of a query.  Its text is written
once into the select statement, and what stands around it does not depend on it.
The same holds for the statements that change rows, in the places that they
write.

* `QueryPlace` are the places of a query, and `QueryPlace.put` puts a value there.
* `Grammar.componentTexts` lists the components, of which a place changes one.
* `QueryPlace.selectSql_gapped` is the select statement, `QueryPlace.changeSql_gapped` an
  update or a delete.
* `Grammar.joinSql_table` and `Grammar.joinSql_condition` are a join, and
  `joined_gapped` the statement that it is a part of.
* `Grammar.updateSql_value` is an assigned value of an update, and
  `Grammar.insertedSql_gapped` a value of an insert.
-/

namespace FluentSql

open Grammar

/-! ## Places of a query -/

/-- A place for a column, a table or a value, with what stands beside it. -/
inductive QueryPlace where
  /-- A column of the select list. -/
  | column (before after : List Value)
  /-- The source. -/
  | source
  /-- A part of a condition. -/
  | condition (before after : List Condition) (boolean : Value) (gap : ConditionGap)
  /-- A column to group by. -/
  | group (before after : List Value)
  /-- A part of a condition on groups. -/
  | groupCondition (before after : List GroupCondition) (boolean : Value) (gap : GroupGap)
  /-- A column to order by. -/
  | order (before after : List Order) (direction : Direction)
  /-- A column to order the union by. -/
  | unionOrder (before after : List Order) (direction : Direction)
  /-- The table of a join. -/
  | joined (type : Value)

namespace QueryPlace

/-- What the value in a place stands for. -/
def role : QueryPlace → Role
  | column .. | group .. | order .. | unionOrder .. => .column
  | source | joined _ => .table
  | condition _ _ _ gap => gap.role
  | groupCondition _ _ _ gap => gap.role

/-- The query with a value in a place. -/
def put (v : Value) (q : Query) : QueryPlace → Query
  | column before after => { q with columns := some (before ++ v :: after) }
  | source => { q with source := v }
  | condition before after boolean gap =>
    { q with wheres := before ++ ⟨boolean, gap.fill v⟩ :: after }
  | group before after => { q with groups := before ++ v :: after }
  | groupCondition before after boolean gap =>
    { q with havings := before ++ ⟨boolean, gap.fill v⟩ :: after }
  | order before after direction =>
    { q with orders := before ++ .byColumn v direction :: after }
  | unionOrder before after direction =>
    { q with unionOrders := before ++ .byColumn v direction :: after }
  | joined type => { q with kind := .join type v }

/-- The place is written into a select statement: a select list is not if there is an aggregate in
its place, and the ordering of a union is if there is one. -/
def Shown (q : Query) : QueryPlace → Prop
  | column .. => q.listed.aggregate = none
  | unionOrder .. => q.isUnion = true
  | joined _ => False
  | _ => True

/-- The place is written into a join clause. -/
def Joined (q : Query) : QueryPlace → Prop
  | joined _ => True
  | condition .. => q.isJoin = true
  | _ => False

end QueryPlace

/-! ## Select statements -/

section

variable (g : Grammar) (attached : Attached)

/-- The components of a select statement, each on its own. -/
def Grammar.componentTexts (q : Query) : List (Except Failure String) :=
  [q.aggregate.elim (.ok "") (g.aggregateSql q.distinct),
    g.selectList q,
    g.sourceSql q.source,
    ifAny q.joins (joinsSql attached q.joins),
    g.wheresSql attached q,
    ifAny q.groups ((g.columnize q.groups).map ("group by " ++ ·)),
    ifAny q.havings (g.havingsSql q.havings),
    ifAny q.orders (g.ordersSql q.orders),
    q.limit.elim (.ok "") limitSql,
    q.offset.elim (.ok "") offsetSql,
    g.unionComponent attached q,
    .ok (if q.lock.isPresent then g.lockSql q.lock else "")]

theorem Grammar.components_mapM (q : Query) :
    g.components attached q = (g.componentTexts attached q).mapM id := by
  rw [components_eq]
  simp only [componentTexts, List.mapM_cons, List.mapM_nil, id_eq, bind_assoc, pure_bind]
  rfl

/-- A select statement without an aggregate over a union, from its components. -/
theorem Grammar.plainSelectSql_eq (q : Query) : g.plainSelectSql attached q =
    ((do return spaced (← (g.componentTexts attached q).mapM id)) >>= fun text =>
      pure (Text.trim text)) >>= fun select =>
        if g.dialect = .mysql ∧ q.isUnion then
          g.unionsSql attached q >>= fun unions => pure ("(" ++ select ++ ") " ++ unions)
        else pure select := by
  unfold plainSelectSql
  rw [components_mapM]
  simp only [bind_assoc, pure_bind]

/-- A select statement without an aggregate over a union is written around one of its components, if
the others stay the same. -/
theorem Grammar.plainSelectSql_around {renders : Value → String → Prop}
    {f : Value → Except Failure String} (hf : Gapped True renders f) {A : Value → Attached}
    {Q : Value → Query} {texts : List (Except Failure String)} {n : Nat} (hn : n < texts.length)
    {unions : Except Failure String} {isUnion : Bool}
    (hcomponents : ∀ v, g.componentTexts (A v) (Q v) = texts.set n (f v))
    (hunion : ∀ v, (Q v).isUnion = isUnion)
    (hunions : g.dialect = .mysql → ∀ v, g.unionsSql (A v) (Q v) = unions) :
    Gapped True renders fun v => g.plainSelectSql (A v) (Q v) := by
  have htrimmed : Gapped True renders fun v =>
      (do return spaced (← (texts.set n (f v)).mapM id)) >>= fun text => pure (Text.trim text) := by
    refine ((hf.spaced (texts.take n) (texts.drop (n + 1))).congr fun v _ _ => ?_).trim
    rw [List.set_eq_take_append_cons_drop, if_pos hn]
  simp only [plainSelectSql_eq, hcomponents, hunion]
  split
  · rename_i hmysql
    simp only [hunions hmysql.1]
    exact htrimmed.bind fun fr hfr => gapped_from unions fun unions _ =>
      fr.gapped "(" (") " ++ unions) (fun _ => (hfr trivial).after _) fun text => by
        simp only [String.append_assoc]
  · simpa only [bind_pure] using htrimmed

/-- A select statement is written around the one with its own select list. -/
theorem Grammar.selectSql_around {renders : Value → String → Prop} {A : Value → Attached}
    {Q : Value → Query} {aggregate : Option Aggregate} {distinct isUnion : Bool}
    (haggregate : ∀ v, (Q v).aggregate = aggregate) (hdistinct : ∀ v, (Q v).distinct = distinct)
    (hunion : ∀ v, (Q v).isUnion = isUnion)
    (hplain : Gapped True renders fun v => g.plainSelectSql (A v) (Q v).listed) :
    Gapped True renders fun v => g.selectSql (A v) (Q v) := by
  have hlisted : ∀ v, (Q v).listed =
      if isUnion then { Q v with aggregate := none } else Q v := by
    intro v
    rw [Query.listed, hunion]
  simp only [hlisted] at hplain
  cases aggregate with
  | none =>
    refine hplain.congr fun v _ _ => ?_
    unfold selectSql
    rw [haggregate]
    cases isUnion with
    | false => rfl
    | true => exact congrArg (g.plainSelectSql (A v)) (by rw [← haggregate v]; rfl)
  | some aggregate =>
    cases isUnion with
    | false =>
      refine hplain.congr fun v _ _ => ?_
      unfold selectSql
      rw [haggregate, hunion]
      rfl
    | true =>
      have hwhole : Gapped True renders fun v =>
          g.aggregateSql distinct aggregate >>= fun head =>
            g.plainSelectSql (A v) { Q v with aggregate := none } >>= fun inner =>
              g.wrappedTable (.text "temp_table") >>= fun name =>
                pure (head ++ " from (" ++ inner ++ ") as " ++ name) := by
        refine gapped_from _ fun head _ => hplain.bind fun fr hfr => gapped_from _ fun name _ => ?_
        exact fr.gapped (head ++ " from (") (") as " ++ name) (fun _ => (hfr trivial).after _)
          fun text => by simp only [String.append_assoc]
      refine hwhole.congr fun v _ _ => ?_
      unfold selectSql
      rw [haggregate, hunion]
      exact congrArg (· >>= _) (congrArg (g.aggregateSql · aggregate) (hdistinct v))

theorem Grammar.sourceSql_gapped : Gapped True (g.Writes .table) g.sourceSql := by
  refine gapped_between "from " "" (fun _ => ⟨'f', by decide, by decide⟩) fun v text h => ?_
  unfold sourceSql
  rw [if_pos h.written.2, h.written.1, String.append_empty]
  rfl

/-- The orderings behind a clause. -/
theorem Grammar.trailingOrders_gapped (before after : List Order) (direction : Direction) :
    Gapped True (g.Writes .column) fun v =>
      trailingOf (before ++ .byColumn v direction :: after) g.ordersSql := by
  refine ((g.ordersSql_gapped before after direction).map " " "" (fun _ => .inr trivial)
    fun text => by rw [String.append_empty]).congr fun v _ _ => ?_
  have hsome : (before ++ Order.byColumn v direction :: after).isEmpty = false := by
    cases before <;> rfl
  unfold trailingOf
  rw [hsome]
  rfl

/-- The unions with the ordering in which a value stands. -/
theorem Grammar.unionsSql_gapped (q : Query) (before after : List Order) (direction : Direction) :
    Gapped True (g.Writes .column) fun v =>
      g.unionsSql attached { q with unionOrders := before ++ .byColumn v direction :: after } := by
  unfold unionsSql
  refine gapped_from (q.unions.mapM (g.unionSql attached)) fun members _ =>
    (g.trailingOrders_gapped before after direction).bind
      (k := fun orders => trailing q.unionLimit limitSql >>= fun limit =>
        trailing q.unionOffset offsetSql >>= fun offset =>
          pure (Text.trimLeft (String.join members ++ orders ++ limit ++ offset))) fun fr hfr =>
    gapped_from _ fun limit _ => gapped_from _ fun offset _ => ?_
  have hvisible : Visible (String.join members ++ fr.before) := (hfr trivial).after _
  refine gapped_between (Text.trimLeft (String.join members ++ fr.before))
    (fr.after ++ limit ++ offset) (fun _ => (hvisible.trimLeft_append "").2) ?_
  rintro v text rfl
  have htext : String.join members ++ fr.fill v ++ limit ++ offset =
      String.join members ++ fr.before ++ (v ++ (fr.after ++ limit ++ offset)) := by
    simp only [Frame.fill, String.append_assoc]
  rw [htext, (hvisible.trimLeft_append _).1, ← String.append_assoc]
  rfl

end

namespace QueryPlace

variable (g : Grammar) (attached : Attached)

theorem ifAny_filled {α : Type} {before after : List α} {a : α} (sql : Except Failure String) :
    ifAny (before ++ a :: after) sql = sql := by
  unfold ifAny
  cases before <;> rfl

/-- A value is written into one component, and the others do not depend on it. -/
theorem componentTexts_put {place : QueryPlace} {q : Query} (hshown : place.Shown q)
    (hlisted : q.listed = q)
    (hinside : ∀ before after direction, place = unionOrder before after direction →
      g.dialect ≠ .mysql) :
    ∃ n f, n < 12 ∧ Gapped True (g.Writes place.role) f ∧
      ∀ v, g.componentTexts attached (place.put v q) =
        (g.componentTexts attached q).set n (f v) := by
  cases place with
  | joined type => exact nomatch hshown
  | column before after =>
    have hnone : q.aggregate = none := hlisted ▸ hshown
    refine ⟨1, fun v => g.selectList { q with columns := some (before ++ v :: after) }, by decide,
      (g.columnsSql_gapped q.distinct before after).congr fun v _ _ => ?_, fun _ => rfl⟩
    unfold selectList
    rw [hnone]
    exact ifAny_filled _
  | source => exact ⟨2, _, by decide, g.sourceSql_gapped, fun _ => rfl⟩
  | condition before after boolean gap =>
    exact ⟨4, _, by decide, g.wheresSql_gapped attached q before after boolean gap, fun _ => rfl⟩
  | group before after =>
    exact ⟨5, fun v => ifAny (before ++ v :: after) _, by decide,
      (g.groupsSql_gapped before after).congr fun _ _ _ => ifAny_filled _, fun _ => rfl⟩
  | groupCondition before after boolean gap =>
    exact ⟨6, fun v => ifAny (before ++ ⟨boolean, gap.fill v⟩ :: after) _, by decide,
      (g.havingsSql_gapped before after boolean gap).congr fun _ _ _ => ifAny_filled _,
      fun _ => rfl⟩
  | order before after direction =>
    exact ⟨7, fun v => ifAny (before ++ .byColumn v direction :: after) _, by decide,
      (g.ordersSql_gapped before after direction).congr fun _ _ _ => ifAny_filled _, fun _ => rfl⟩
  | unionOrder before after direction =>
    refine ⟨10, fun v => g.unionComponent attached
      { q with unionOrders := before ++ .byColumn v direction :: after }, by decide,
      (g.unionsSql_gapped attached q before after direction).congr fun v _ _ => ?_, fun _ => rfl⟩
    have hsome : q.unions.isEmpty = false := by
      rw [← Bool.not_eq_true']
      exact hshown
    unfold unionComponent
    rw [if_neg (hinside before after direction rfl)]
    unfold ifAny
    rw [show ({ q with unionOrders := before ++ .byColumn v direction :: after } : Query).unions =
      q.unions from rfl, hsome]
    rfl

variable {place : QueryPlace} {q : Query}

theorem isUnion_put (v : Value) : (place.put v q).isUnion = q.isUnion := by
  cases place <;> rfl

theorem unionsSql_put (v : Value)
    (h : ∀ before after direction, place ≠ unionOrder before after direction) :
    g.unionsSql attached (place.put v q) = g.unionsSql attached q := by
  cases place with
  | unionOrder before after direction => exact absurd rfl (h before after direction)
  | _ => rfl

/-- A select statement without an aggregate over a union has the value in one place. -/
theorem plainSelectSql_gapped (hshown : place.Shown q) (hlisted : q.listed = q) :
    Gapped True (g.Writes place.role) fun v => g.plainSelectSql attached (place.put v q) := by
  by_cases houtside : g.dialect = .mysql ∧ ∃ before after direction,
      place = unionOrder before after direction
  · -- MySQL writes the unions behind the select statement.
    obtain ⟨hd, before, after, direction, rfl⟩ := houtside
    have hcomponents : ∀ v, g.componentTexts attached
        ((unionOrder before after direction).put v q) = g.componentTexts attached q := by
      intro v
      unfold componentTexts unionComponent
      rw [if_pos hd, if_pos hd]
      rfl
    simp only [plainSelectSql_eq, isUnion_put, hcomponents]
    refine gapped_from _ fun select _ => ?_
    simp only [if_pos (show g.dialect = .mysql ∧ q.isUnion = true from ⟨hd, hshown⟩)]
    exact (g.unionsSql_gapped attached q before after direction).around ("(" ++ select ++ ") ") ""
      (fun _ => .inr trivial) fun text => by rw [String.append_empty]
  · have hinside : ∀ before after direction, place = unionOrder before after direction →
        g.dialect ≠ .mysql := fun before after direction hplace hd =>
      houtside ⟨hd, before, after, direction, hplace⟩
    obtain ⟨n, f, hn, hf, hput⟩ := componentTexts_put g attached hshown hlisted hinside
    exact g.plainSelectSql_around hf (show n < (g.componentTexts attached q).length from hn) hput
      isUnion_put fun hd v => unionsSql_put g attached v fun before after direction hplace =>
        hinside before after direction hplace hd

theorem listed_put (v : Value) : (place.put v q).listed = place.put v q.listed := by
  unfold Query.listed
  rw [isUnion_put]
  split
  · cases place <;> rfl
  · rfl

theorem aggregate_put (v : Value) : (place.put v q).aggregate = q.aggregate := by
  cases place <;> rfl

theorem distinct_put (v : Value) : (place.put v q).distinct = q.distinct := by
  cases place <;> rfl

theorem listed_listed (q : Query) : q.listed.listed = q.listed := by
  unfold Query.listed
  cases hunion : q.isUnion with
  | true => exact if_pos hunion
  | false =>
    simp only [Bool.false_eq_true, if_false]
    exact if_neg (by rw [hunion]; exact Bool.false_ne_true)

theorem Shown.listed (h : place.Shown q) : place.Shown q.listed := by
  have hunion : q.listed.isUnion = q.isUnion := by
    unfold Query.listed
    split <;> rfl
  cases place with
  | column before after =>
    show q.listed.listed.aggregate = none
    rw [listed_listed]
    exact h
  | unionOrder before after direction => exact hunion.trans h
  | _ => trivial

/-- A select statement has the value in one place, if that place is written. -/
theorem selectSql_gapped (hshown : place.Shown q) :
    Gapped True (g.Writes place.role) fun v => g.selectSql attached (place.put v q) := by
  refine g.selectSql_around aggregate_put distinct_put isUnion_put ?_
  simp only [listed_put]
  exact plainSelectSql_gapped g attached hshown.listed (listed_listed q)

end QueryPlace

/-! ## Updates and deletes -/

/-- The end of an update or a delete without joins, behind a filled frame. -/
theorem Grammar.changeTail_frame (g : Grammar) (q : Query) (fr : Frame) (hfr : Visible fr.before) :
    Gapped True (fun v text : String => v = text) fun v => g.changeTail q (fr.fill v) := by
  unfold changeTail
  split
  · refine gapped_from _ fun orders _ => gapped_from _ fun limit _ =>
      ⟨.ok ⟨fr.before, Text.trimRight fr.after ++ orders ++ limit⟩, ?_, ?_⟩
    · intro _ _ hframe
      exact Except.ok.inj hframe ▸ hfr
    · rintro v _ rfl hcloses
      show Except.ok (Text.trimRight (fr.fill v) ++ orders ++ limit) = Except.ok _
      rw [Frame.trimRight_fill _ hcloses]
      simp only [Frame.fill, String.append_assoc]
  · exact fr.gapped "" "" (fun _ => hfr.after _) fun text => by
      rw [String.empty_append, String.append_empty]

section

variable {v w : Value}

theorem ConditionGap.handles_fill (hv : v.handles = []) (hw : w.handles = []) (gap : ConditionGap) :
    (gap.fill v).handles = (gap.fill w).handles := by
  cases gap <;>
    simp only [fill, Where.handles, Value.handlesOfAll_eq_flatMap, List.flatMap_append,
      List.flatMap_cons, List.flatMap_nil, hv, hw]

theorem GroupGap.handles_fill (hv : v.handles = []) (hw : w.handles = []) (gap : GroupGap) :
    (gap.fill v).handles = (gap.fill w).handles := by
  cases gap <;>
    simp only [fill, Having.handles, Value.handlesOfAll_eq_flatMap, List.flatMap_append,
      List.flatMap_cons, List.flatMap_nil, hv, hw]

/-- A query refers to the same objects whatever data is put in a place. -/
theorem QueryPlace.handles_put (hv : v.handles = []) (hw : w.handles = []) (place : QueryPlace)
    (q : Query) :
    (place.put v q).handles = (place.put w q).handles := by
  cases place with
  | condition before after boolean gap =>
    simp only [put, Query.handles, List.flatMap_append, List.flatMap_cons,
      ConditionGap.handles_fill hv hw gap]
  | groupCondition before after boolean gap =>
    simp only [put, Query.handles, List.flatMap_append, List.flatMap_cons,
      GroupGap.handles_fill hv hw gap]
  | _ =>
    simp only [put, Query.handles, Value.handlesOfAll_eq_flatMap, List.flatMap_append,
      List.flatMap_cons, Order.handles, QueryKind.handles, Option.getD_some, hv, hw]

theorem QueryPlace.canCopy_put (s : Store) (hv : v.handles = []) (hw : w.handles = [])
    (place : QueryPlace) (q : Query) : s.canCopy (place.put v q) = s.canCopy (place.put w q) := by
  have hshared : ∀ v, Store.sharedBy (place.put v q) = Store.sharedBy q := by
    intro v
    cases place <;> rfl
  unfold Store.canCopy
  rw [hshared, hshared, place.handles_put hv hw q]

end

namespace QueryPlace

/-- The place is written where an update or a delete finds its rows.  Only where the rows are
selected by their address is there more than the conditions and, in MySQL, the ordering. -/
def Restricts (g : Grammar) (q : Query) : QueryPlace → Prop
  | column .. | source | joined _ => False
  | condition .. => True
  | order .. => (g.addressColumn? q).isSome = true ∨ g.dialect = .mysql ∧ q.joins = []
  | group .. | groupCondition .. => (g.addressColumn? q).isSome = true
  | unionOrder .. => (g.addressColumn? q).isSome = true ∧ q.isUnion = true

variable {g : Grammar} {attached : Attached} {place : QueryPlace} {q : Query} {s : Store}

theorem Restricts.source_put (h : place.Restricts g q) (v : Value) :
    (place.put v q).source = q.source := by
  cases place <;> first | rfl | exact nomatch h

theorem Restricts.addressed_put (h : place.Restricts g q) (v : Value) (address : String) :
    (place.put v q).addressed address = place.put v (q.addressed address) := by
  cases place with
  | column before after => exact nomatch h
  | source => exact nomatch h
  | joined type => exact nomatch h
  | _ => rfl

theorem Restricts.shown (h : place.Restricts g q) (address : String) :
    place.Shown (q.addressed address) := by
  cases place with
  | column before after => exact nomatch h
  | joined type => exact nomatch h
  | unionOrder before after direction => exact h.2
  | _ => trivial

theorem joins_put (v : Value) : (place.put v q).joins = q.joins := by
  cases place <;> rfl

theorem addressColumn?_put (v : Value) : g.addressColumn? (place.put v q) = g.addressColumn? q := by
  cases place <;> rfl

/-- The rows are selected by their address, with the value in the select statement. -/
theorem addressCondition_gapped (hplace : place.Restricts g q)
    (hcopy : attached.canCopy = s.canCopy) (address : String) :
    Gapped True (g.Writes place.role) fun v =>
      g.addressCondition attached (place.put v q) address := by
  have hsame : ∀ v, v.handles = [] → attached.canCopy (place.put v q) =
      s.canCopy (place.put (.text "") q) := fun v hv => by
    rw [hcopy, place.canCopy_put s hv (w := .text "") rfl q]
  cases hcan : s.canCopy (place.put (.text "") q) with
  | false =>
    refine (gapped_error .wrongType).congr fun v _ hv => ?_
    unfold addressCondition
    rw [hsame v hv.data, hcan]
    rfl
  | true =>
    have hselect : Gapped True (g.Writes place.role) fun v =>
        g.selectSql attached (place.put v (q.addressed address)) >>= fun select =>
          g.wrapped (.text address) >>= fun name =>
            pure ("where " ++ name ++ " in (" ++ select ++ ")") :=
      (selectSql_gapped g attached (hplace.shown address)).bind fun fr hfr =>
        gapped_from _ fun name _ => fr.gapped ("where " ++ name ++ " in (") ")"
          (fun _ => (hfr trivial).after _) fun _ => rfl
    refine hselect.congr fun v _ hv => ?_
    unfold addressCondition
    rw [hsame v hv.data, hcan, ← hplace.addressed_put v address, Query.addressed]
    rfl

/-- The end of an update or a delete without joins, behind some text. -/
theorem changeTail_gapped (attached : Attached) (hplace : place.Restricts g q)
    (haddress : g.addressColumn? q = none) {head : String} (hhead : Visible head) :
    Gapped True (g.Writes place.role) fun v => g.wheresSql attached (place.put v q) >>= fun text =>
      g.changeTail (place.put v q) (head ++ text) := by
  have hunaddressed : ¬(g.addressColumn? q).isSome = true := by
    rw [haddress]
    exact Bool.false_ne_true
  cases place with
  | column before after => exact nomatch hplace
  | source => exact nomatch hplace
  | joined type => exact nomatch hplace
  | group before after => exact absurd hplace hunaddressed
  | groupCondition before after boolean gap => exact absurd hplace hunaddressed
  | unionOrder before after direction => exact absurd hplace.1 hunaddressed
  | condition before after boolean gap =>
    refine (g.wheresSql_gapped attached q before after boolean gap).bind
      (k := fun text => g.changeTail q (head ++ text)) fun fr hfr => ?_
    refine (g.changeTail_frame q ⟨head ++ fr.before, fr.after⟩ (hhead.append _)).congr
      fun v _ _ => congrArg (g.changeTail q) ?_
    simp only [Frame.fill, String.append_assoc]
  | order before after direction =>
    have hmysql : g.dialect = .mysql := (hplace.resolve_left hunaddressed).1
    refine gapped_from (g.wheresSql attached q) fun condition _ => ?_
    have htail : Gapped True (g.Writes .column) fun v =>
        trailingOf (before ++ .byColumn v direction :: after) g.ordersSql >>= fun orders =>
          trailing q.limit limitSql >>= fun limit =>
            pure (Text.trimRight (head ++ condition) ++ orders ++ limit) :=
      (g.trailingOrders_gapped before after direction).bind fun fr hfr =>
        gapped_from _ fun limit _ => fr.gapped (Text.trimRight (head ++ condition)) limit
          (fun _ => (hfr trivial).after _) fun _ => rfl
    refine htail.congr fun v _ _ => ?_
    exact if_pos hmysql

theorem Restricts.wheres_of_joins (hplace : place.Restricts g q)
    (haddress : g.addressColumn? q = none) (hjoins : q.joins ≠ []) :
    ∃ before after boolean gap, place = condition before after boolean gap := by
  have hunaddressed : ¬(g.addressColumn? q).isSome = true := by
    rw [haddress]
    exact Bool.false_ne_true
  cases place with
  | condition before after boolean gap => exact ⟨_, _, _, _, rfl⟩
  | order before after direction => exact absurd (hplace.resolve_left hunaddressed).2 hjoins
  | unionOrder before after direction => exact absurd hplace.1 hunaddressed
  | column before after => exact nomatch hplace
  | source => exact nomatch hplace
  | joined type => exact nomatch hplace
  | group before after => exact absurd hplace hunaddressed
  | groupCondition before after boolean gap => exact absurd hplace hunaddressed

/-- A delete has the value in one place, if that place is written. -/
theorem deleteSql_gapped (hplace : place.Restricts g q) (hcopy : attached.canCopy = s.canCopy) :
    Gapped True (g.Writes place.role) fun v => g.deleteSql attached (place.put v q) := by
  unfold deleteSql
  simp only [hplace.source_put, addressColumn?_put, joins_put]
  refine gapped_from _ fun table _ => ?_
  cases haddress : g.addressColumn? q with
  | some address =>
    exact (addressCondition_gapped hplace hcopy address).around
      ("delete from " ++ table.display ++ " ") "" (fun _ => .inr trivial)
      fun text => by rw [String.append_empty]
  | none =>
    cases hjoins : q.joins with
    | nil =>
      have hhead : Visible ("delete from " ++ table.display ++ " ") :=
        .append (.append ⟨'d', by decide, by decide⟩ _) _
      refine (changeTail_gapped attached hplace haddress hhead).trim.congr
        fun v _ _ => ?_
      simp only [bind_assoc]
      rfl
    | cons join joins =>
      obtain ⟨before, after, boolean, gap, rfl⟩ :=
        hplace.wheres_of_joins haddress (hjoins ▸ List.cons_ne_nil join joins)
      have hjoined : Gapped True (g.Writes gap.role) fun v =>
          g.wheresSql attached ((condition before after boolean gap).put v q) >>= fun text =>
            quotedAlias attached.oracle table >>= fun target =>
              joinsSql attached (join :: joins) >>= fun clauses => pure ("delete " ++ target ++
                " from " ++ table.display ++ " " ++ clauses ++ " " ++ text) :=
        (g.wheresSql_gapped attached q before after boolean gap).bind fun fr hfr =>
          gapped_from _ fun target _ => gapped_from _ fun clauses _ =>
            fr.gapped ("delete " ++ target ++ " from " ++ table.display ++ " " ++ clauses ++ " ") ""
              (fun _ => (hfr trivial).after _) fun text => by rw [String.append_empty]
      refine hjoined.trim.congr fun v _ _ => ?_
      simp only [bind_assoc]
      rfl

/-- An update has the value in one place, if that place is written. -/
theorem updateSql_gapped (hplace : place.Restricts g q) (hcopy : attached.canCopy = s.canCopy)
    (values : Value) :
    Gapped True (g.Writes place.role) fun v => g.updateSql attached (place.put v q) values := by
  unfold updateSql
  simp only [hplace.source_put, addressColumn?_put, joins_put]
  refine gapped_from _ fun table _ => gapped_from _ fun assignments _ => ?_
  cases haddress : g.addressColumn? q with
  | some address =>
    exact (addressCondition_gapped hplace hcopy address).around
      ("update " ++ table ++ " set " ++ assignments ++ " ") "" (fun _ => .inr trivial)
      fun text => by rw [String.append_empty]
  | none =>
    cases hjoins : q.joins with
    | nil =>
      have hhead : Visible ("update " ++ table ++ " set " ++ assignments ++ " ") :=
        .append (.append (.append (.append ⟨'u', by decide, by decide⟩ _) _) _) _
      refine (changeTail_gapped attached hplace haddress hhead).trim.congr
        fun v _ _ => ?_
      simp only [bind_assoc]
      rfl
    | cons join joins =>
      obtain ⟨before, after, boolean, gap, rfl⟩ :=
        hplace.wheres_of_joins haddress (hjoins ▸ List.cons_ne_nil join joins)
      have hjoined : Gapped True (g.Writes gap.role) fun v =>
          g.wheresSql attached ((condition before after boolean gap).put v q) >>= fun text =>
            joinsSql attached (join :: joins) >>= fun clauses => pure
              ("update " ++ table ++ " " ++ clauses ++ " set " ++ assignments ++ " " ++ text) :=
        (g.wheresSql_gapped attached q before after boolean gap).bind fun fr hfr =>
          gapped_from _ fun clauses _ =>
            fr.gapped ("update " ++ table ++ " " ++ clauses ++ " set " ++ assignments ++ " ") ""
              (fun _ => (hfr trivial).after _) fun text => by rw [String.append_empty]
      refine hjoined.trim.congr fun v _ _ => ?_
      simp only [bind_assoc]
      rfl

theorem restrictedSql_gapped (hplace : place.Restricts g q) (hcopy : attached.canCopy = s.canCopy)
    (change : Change) :
    Gapped True (g.Writes place.role) fun v => change.sql g attached (place.put v q) := by
  cases change with
  | update values => exact updateSql_gapped hplace hcopy values
  | delete => exact deleteSql_gapped hplace hcopy

/-- The source of an update or a delete stands there once, unless the rows are selected by their
address, or there are joins. -/
theorem changedSource_gapped (haddress : g.addressColumn? q = none) (hjoins : q.joins = [])
    (change : Change) :
    Gapped True (g.Writes .table) fun v => change.sql g attached { q with source := v } := by
  have haddress : ∀ v, g.addressColumn? { q with source := v } = none := fun _ => haddress
  have htail : ∀ fr : Frame, Visible fr.before →
      Gapped True (fun v text : String => v = text) fun v =>
        g.changeTail q (fr.fill v) >>= fun sql => pure (Text.trim sql) :=
    fun fr hfr => (g.changeTail_frame q fr hfr).trim
  cases change with
  | update values =>
    have hupdate : Gapped True (g.Writes .table) fun v => g.wrappedTable v >>= fun table =>
        g.assignmentsSql attached.oracle values >>= fun assignments =>
          g.wheresSql attached q >>= fun condition =>
            g.changeTail q ("update " ++ table ++ " set " ++ assignments ++ " " ++ condition) >>=
              fun sql => pure (Text.trim sql) := by
      refine g.wrappedTable_gapped.bind fun fr _ => gapped_from _ fun assignments _ =>
        gapped_from _ fun condition _ => ?_
      refine (htail ⟨"update " ++ fr.before, fr.after ++ " set " ++ assignments ++ " " ++ condition⟩
        (.append ⟨'u', by decide, by decide⟩ _)).congr fun v _ _ => ?_
      simp only [Frame.fill, String.append_assoc]
    refine hupdate.congr fun v _ _ => ?_
    unfold Change.sql updateSql
    rw [haddress, hjoins]
    rfl
  | delete =>
    have hdelete : Gapped True (g.Writes .table) fun v => g.wrappedTable v >>= fun table =>
        g.wheresSql attached q >>= fun condition =>
          g.changeTail q ("delete from " ++ table ++ " " ++ condition) >>=
            fun sql => pure (Text.trim sql) := by
      refine g.wrappedTable_gapped.bind fun fr _ => gapped_from _ fun condition _ => ?_
      refine (htail ⟨"delete from " ++ fr.before, fr.after ++ " " ++ condition⟩
        (.append ⟨'d', by decide, by decide⟩ _)).congr fun v _ _ => ?_
      simp only [Frame.fill, String.append_assoc]
    refine hdelete.congr fun v text hv => ?_
    unfold Change.sql deleteSql
    rw [haddress, hjoins, hv.wrappedTable, show g.wrapTable v = .ok (.text text) from hv.written.1]
    rfl

/-- The place is written into an update or a delete: where the rows are found, or as the source,
which stands there once only if the rows are not selected by their address and there are no
joins. -/
def Changed (g : Grammar) (q : Query) (place : QueryPlace) : Prop :=
  place.Restricts g q ∨ place = source ∧ g.addressColumn? q = none ∧ q.joins = []

/-- An update or a delete has the value in one place, if that place is written. -/
theorem changeSql_gapped (hplace : place.Changed g q) (hcopy : attached.canCopy = s.canCopy)
    (change : Change) :
    Gapped True (g.Writes place.role) fun v => change.sql g attached (place.put v q) := by
  obtain hplace | ⟨rfl, haddress, hjoins⟩ := hplace
  · exact restrictedSql_gapped hplace hcopy change
  · exact changedSource_gapped haddress hjoins change

end QueryPlace

/-! ## Values of updates -/

section

variable (g : Grammar)

/-- One of several assignments. -/
theorem Grammar.assignmentsSql_gapped (oracle : Oracle) (before after : List (Value × Value))
    (column : Value) : Gapped False (g.Writes .value) fun v =>
      g.assignmentsSql oracle (.map (before ++ (column, v) :: after)) := by
  have hone : Gapped False (g.Writes .value) fun v => g.wrapped column >>= fun name =>
      pure (name ++ " = " ++ (parameter v).display) :=
    gapped_from _ fun name _ => g.parameter_gapped (name ++ " = ") "" fun text => by
      rw [String.append_empty]
  exact hone.join (F := fun entry : Value × Value => do
    return (← g.wrapped entry.1) ++ " = " ++ (parameter entry.2).display)
    (x := fun v => (column, v)) ", " before after

/-- An assigned value stands in the update once. -/
theorem Grammar.updateSql_value (attached : Attached) (q : Query)
    (before after : List (Value × Value)) (column : Value) :
    Gapped True (g.Writes .value) fun v =>
      g.updateSql attached q (.map (before ++ (column, v) :: after)) := by
  have hassigned := g.assignmentsSql_gapped attached.oracle before after column
  have hhead : ∀ table, Visible ("update " ++ table) := fun table =>
    .append ⟨'u', by decide, by decide⟩ table
  unfold updateSql
  refine gapped_from _ fun table _ => hassigned.bind fun fr _ => ?_
  cases g.addressColumn? q with
  | some address =>
    exact gapped_from _ fun condition _ =>
      fr.gapped ("update " ++ table ++ " set ") (" " ++ condition)
        (fun _ => ((hhead table).append _).append _) fun text => by simp only [String.append_assoc]
  | none =>
    refine gapped_from (g.wheresSql attached q) fun condition _ => ?_
    cases q.joins with
    | nil =>
      refine (g.changeTail_frame q ⟨"update " ++ table ++ " set " ++ fr.before,
        fr.after ++ " " ++ condition⟩ (((hhead table).append _).append _)).trim.congr
          fun v _ _ => ?_
      simp only [Frame.fill, String.append_assoc]
      rfl
    | cons join joins =>
      have hjoined : Gapped True (fun v text : String => v = text) fun v =>
          joinsSql attached (join :: joins) >>= fun clauses => pure ("update " ++ table ++ " " ++
            clauses ++ " set " ++ fr.fill v ++ " " ++ condition) :=
        gapped_from _ fun clauses _ =>
          fr.gapped ("update " ++ table ++ " " ++ clauses ++ " set ") (" " ++ condition)
            (fun _ => ((((hhead table).append _).append _).append _).append _)
            fun text => by simp only [String.append_assoc]
      refine hjoined.trim.congr fun v _ _ => ?_
      simp only [bind_assoc]
      rfl

end

/-! ## Values of inserts -/

theorem insertedText_eq (v : Value) : insertedText v = (parameter v).display := by
  cases v <;> rfl

/-- One of the values of several rows stands in the insert once. -/
theorem Grammar.insertedSql_gapped (g : Grammar) (words : String) (ending : Except Failure String)
    (source : Value) (columns : List String) (before after : List (List Value))
    (left right : List Value) : Gapped False (g.Writes .value) fun v =>
      g.insertedSql words ending source columns (before ++ (left ++ v :: right) :: after) := by
  refine gapped_from _ fun table _ => gapped_from _ fun quoted _ => gapped_from ending
    fun ending _ => ?_
  let row : List Value → String := fun row => "(" ++ joinWith ", " (row.map insertedText) ++ ")"
  obtain ⟨a, b, hrow⟩ := joinWith_around ", " (left.map insertedText) (right.map insertedText)
  obtain ⟨a', b', hrows⟩ := joinWith_around ", " (before.map row) (after.map row)
  refine gapped_between (words ++ " into " ++ table ++ " (" ++ joinWith ", " quoted ++
    ") values " ++ (a' ++ ("(" ++ a))) (b ++ ")" ++ b' ++ ending) False.elim fun v text hv => ?_
  unfold insertText
  rw [List.map_append, List.map_cons, hrows, List.map_append, List.map_cons, hrow, insertedText_eq,
    hv.display]
  simp only [String.append_assoc]
  rfl

theorem Grammar.insertedSql_source (g : Grammar) (words : String) (ending : Except Failure String)
    (columns : List String) (rows : List (List Value)) :
    Gapped False (g.Writes .table) fun v => g.insertedSql words ending v columns rows := by
  refine g.wrappedTable_gapped.bind fun fr _ => gapped_from _ fun quoted _ => gapped_from ending
    fun ending _ => ?_
  refine fr.gapped (words ++ " into ") (" (" ++ joinWith ", " quoted ++ ") values " ++
    joinWith ", " (rows.map fun row => "(" ++ joinWith ", " (row.map insertedText) ++ ")") ++
    ending) False.elim fun text => ?_
  unfold insertText
  simp only [String.append_assoc]

/-! ## Joins -/

section

variable (g : Grammar) (attached : Attached)

/-- The table of a join, with the joins inside it. -/
def Grammar.joinedTable (joins : List QueryId) (table : Value) : Except Failure String := do
  let table ← g.wrappedTable table
  if joins.isEmpty then return table
  else return "(" ++ table ++ " " ++ (← joinsSql attached joins) ++ ")"

theorem Grammar.joinSql_eq {q : Query} {type table : Value} (hkind : q.kind = .join type table) :
    g.joinSql attached q =
      (g.joinedTable attached q.joins table >>= fun text =>
        g.wheresSql attached q >>= fun condition =>
          pure (type.display ++ " join " ++ text ++ " " ++ condition)) >>= fun text =>
        pure (Text.trim text) := by
  unfold joinSql joinedTable
  rw [hkind]
  cases q.joins.isEmpty with
  | true =>
    simp only [if_true, bind_assoc, pure_bind]
    rfl
  | false =>
    simp only [Bool.false_eq_true, if_false, bind_assoc, pure_bind]
    rfl

/-- The table of a join stands in its clause once. -/
theorem Grammar.joinSql_table (q : Query) (type : Value) :
    Gapped True (g.Writes .table) fun v => g.joinSql attached { q with kind := .join type v } := by
  have htable : Gapped False (g.Writes .table) fun v => g.joinedTable attached q.joins v := by
    refine g.wrappedTable_gapped.bind fun fr _ => ?_
    split
    · exact fr.gapped "" "" False.elim fun text => by rw [String.empty_append, String.append_empty]
    · exact gapped_from _ fun joins _ => fr.gapped "(" (" " ++ joins ++ ")") False.elim
        fun text => by simp only [String.append_assoc]
  have hhead : ∀ text, Visible (type.display ++ " join " ++ text) := fun text =>
    .append (.after ⟨'j', by decide, by decide⟩ _) _
  have hclause : Gapped True (g.Writes .table) fun v => g.joinedTable attached q.joins v >>=
      fun text => g.wheresSql attached { q with kind := .join type .null } >>= fun condition =>
        pure (type.display ++ " join " ++ text ++ " " ++ condition) :=
    htable.bind fun fr _ => gapped_from _ fun condition _ =>
      fr.gapped (type.display ++ " join ") (" " ++ condition) (fun _ => hhead _)
        fun text => by simp only [String.append_assoc]
  exact hclause.trim.congr fun v _ _ => g.joinSql_eq attached rfl

/-- A part of the condition of a join stands in its clause once. -/
theorem Grammar.joinSql_condition {q : Query} {type table : Value}
    (hkind : q.kind = .join type table) (before after : List Condition) (boolean : Value)
    (gap : ConditionGap) :
    Gapped True (g.Writes gap.role) fun v =>
      g.joinSql attached { q with wheres := before ++ ⟨boolean, gap.fill v⟩ :: after } := by
  have hclause : Gapped True (g.Writes gap.role) fun v => g.joinedTable attached q.joins table >>=
      fun text => g.wheresSql attached
          { q with wheres := before ++ ⟨boolean, gap.fill v⟩ :: after } >>= fun condition =>
        pure (type.display ++ " join " ++ text ++ " " ++ condition) :=
    gapped_from _ fun text _ => (g.wheresSql_gapped attached q before after boolean gap).around
      (type.display ++ " join " ++ text ++ " ") "" (fun _ => .inr trivial)
      fun text => by rw [String.append_empty]
  exact hclause.trim.congr fun v _ _ => g.joinSql_eq attached hkind

/-- A join clause has the value in one place, if that place is written. -/
theorem QueryPlace.joinSql_gapped {place : QueryPlace} {q : Query} (hjoined : place.Joined q) :
    Gapped True (g.Writes place.role) fun v => g.joinSql attached (place.put v q) := by
  cases place with
  | joined type => exact g.joinSql_table attached q type
  | condition before after boolean gap =>
    cases hkind : q.kind with
    | statement =>
      have hjoin : q.isJoin = true := hjoined
      rw [Query.isJoin, hkind] at hjoin
      cases hjoin
    | join type table => exact g.joinSql_condition attached hkind before after boolean gap
  | _ => cases hjoined

end

/-- How queries are compiled if one of the joins is written as some text. -/
def Attached.joinAs (attached : Attached) (join : QueryId) (sql : Except Failure String) :
    Attached :=
  { attached with join := Function.update attached.join join sql }

theorem Attached.joinAs_self (attached : Attached) (join : QueryId) (sql : Except Failure String) :
    (attached.joinAs join sql).join join = sql :=
  Function.update_self ..

section

variable {renders : Value → String → Prop} {f : Value → Except Failure String}
variable {attached : Attached} {join : QueryId} {before after : List QueryId}

theorem mapM_joinAs {joins : List QueryId} (h : join ∉ joins) (sql : Except Failure String) :
    joins.mapM (attached.joinAs join sql).join = joins.mapM attached.join := by
  induction joins with
  | nil => rfl
  | cons other joins ih =>
    have hne : other ≠ join := fun heq => h (heq ▸ List.mem_cons_self)
    rw [List.mapM_cons, List.mapM_cons, ih fun hmem => h (List.mem_cons_of_mem _ hmem)]
    exact congrArg (· >>= _) (Function.update_of_ne hne _ _)

/-- One of several join clauses. -/
theorem joinsSql_gapped (h : Gapped True renders f) (hbefore : join ∉ before)
    (hafter : join ∉ after) : Gapped True renders fun v =>
      joinsSql (attached.joinAs join (f v)) (before ++ join :: after) := by
  have hsplit : ∀ v, joinsSql (attached.joinAs join (f v)) (before ++ join :: after) =
      before.mapM attached.join >>= fun xs => f v >>= fun text =>
        after.mapM attached.join >>= fun ys => pure (joinWith " " (xs ++ text :: ys)) := by
    intro v
    rw [joinsSql, List.mapM_append, List.mapM_cons, mapM_joinAs hbefore, mapM_joinAs hafter,
      Attached.joinAs_self]
    simp only [bind_assoc, pure_bind]
  refine Gapped.congr (gapped_from _ fun xs _ => h.bind fun fr hfr => gapped_from _ fun ys _ => ?_)
    fun v _ _ => hsplit v
  obtain ⟨a, b, hjoined⟩ := joinWith_around " " xs ys
  exact fr.gapped a b (fun _ => (hfr trivial).after a) fun _ => hjoined _

/-- A select statement with a join is written around the clause of the join. -/
theorem joined_gapped (g : Grammar) (attached : Attached) (h : Gapped True renders f) {q : Query}
    (hjoins : q.joins = before ++ join :: after) (hbefore : join ∉ before) (hafter : join ∉ after) :
    Gapped True renders fun v => g.selectSql (attached.joinAs join (f v)) q := by
  have hclause : Gapped True renders fun v =>
      joinsSql (attached.joinAs join (f v)) (before ++ join :: after) :=
    joinsSql_gapped h hbefore hafter
  refine g.selectSql_around (fun _ => rfl) (fun _ => rfl) (fun _ => rfl) ?_
  have hlength : 3 < (g.componentTexts attached q.listed).length := show 3 < 12 by decide
  have hlisted : q.listed.joins = before ++ join :: after := by
    rw [← hjoins, Query.listed]
    split <;> rfl
  have hunions : g.dialect = .mysql → ∀ v, g.unionsSql (attached.joinAs join (f v)) q.listed =
      g.unionsSql attached q.listed := fun _ _ => rfl
  refine g.plainSelectSql_around hclause hlength (fun v => ?_) (fun _ => rfl) hunions
  unfold componentTexts
  rw [hlisted, QueryPlace.ifAny_filled]
  rfl

end

end FluentSql
