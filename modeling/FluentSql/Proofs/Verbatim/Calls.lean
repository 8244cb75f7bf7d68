import FluentSql.Proofs.Verbatim.Conditions
import FluentSql.Proofs.Verbatim.Settling

/-!
# Fragments in statements

A fragment of SQL that is given to a call stays in the query as it is, and the
statements are written around it.  Only a fragment under a name, in a map of the
select list or as a source with an alias, is read as a column or a table again
and put in quotes.

* `Slot` is a call that lacks one of its columns, tables or values, and
  `Slot.ran_call` says what it does with a fragment there.
* `joining_verbatim`, `inserts_verbatim` and `updateSql_verbatim` are the tables
  of joins, and the values of inserts and updates.
* `Store.WritesFragments` says what becomes of a fragment in every place, and
  `Store.writesFragments` that it does so in every store.
* `selectNamed_not_verbatim` is a count that is quoted under its name.
-/

namespace FluentSql

/-! ## Calls without one of their arguments -/

/-- A call without one of its columns, tables or values. -/
inductive Slot where
  /-- A column of a new select list. -/
  | selected (before after : List Value)
  /-- A column that is added to the select list. -/
  | added (before after : List Value)
  /-- The source, without a name. -/
  | source
  /-- A part of a condition. -/
  | condition (gap : ConditionGap) (boolean : Value)
  /-- A column to group by. -/
  | group (before after : List Value)
  /-- A part of a condition on groups. -/
  | groupCondition (gap : GroupGap) (boolean : Value)
  /-- A column to order by, with the word for a direction. -/
  | order (word : String) (direction : Direction)

namespace Slot

/-- The call with an argument in the place of the missing one. -/
def call (v : Value) : Slot → FluentCall
  | selected before after => .select (before ++ v :: after)
  | added before after => .addSelect (before ++ v :: after)
  | source => .setSource v .null
  | condition gap boolean => gap.call v boolean
  | group before after => .groupBy (before ++ v :: after)
  | groupCondition gap boolean => gap.call v boolean
  | order word _ => .orderBy v (.text word)

/-- The place of the query where the argument is left. -/
def place (q : Query) : Slot → QueryPlace
  | selected before after => .column before after
  | added before after => .column (q.columns.getD [] ++ before) after
  | source => .source
  | condition gap boolean => .condition q.wheres [] boolean gap.lowered
  | group before after => .group (q.groups ++ before) after
  | groupCondition gap boolean => .groupCondition q.havings [] boolean gap.lowered
  | order _ direction =>
    if q.isUnion then .unionOrder q.unionOrders [] direction else .order q.orders [] direction

/-- The query with the values of the other arguments.  A new select list has no values of an old
one. -/
def bound (s : Store) (q : Query) : Slot → Query
  | selected .. => q.rebind .select []
  | condition gap _ => q.bind .condition (gap.bound s)
  | groupCondition gap _ => q.bind .having gap.bound
  | _ => q

/-- The other arguments of the call are columns and values of their own: no lists or maps of them,
and no sub-queries. -/
def Fits (s : Store) (t : QueryId) : Slot → Prop
  | selected before after | added before after =>
    ∀ v ∈ before ++ after, v.handles = [] ∧ ∀ entries, v ≠ .map entries
  | condition gap _ => gap.Fits s t
  | groupCondition gap _ => gap.Fits
  | order word direction => Direction.ofWord? (Text.lower word) = some direction
  | source | group .. => True

/-- The call is not rejected. -/
def Accepted (s : Store) (t : QueryId) : Slot → Prop
  | condition gap _ => gap.Accepted s t
  | groupCondition gap _ => gap.Accepted s t
  | _ => True

section

variable {run : Runner} {t : QueryId} {s s' : Store} {text : String}

theorem flatten_around {v : Value} (h : v.listed = [v]) (before after : List Value) :
    flatten (before ++ v :: after) = before ++ v :: after := by
  match before, after with
  | [], [] => exact h
  | [], _ :: _ => rfl
  | [_], _ => rfl
  | _ :: _ :: _, _ => rfl

/-- Entries of the select list that are no maps are added as they are. -/
theorem ran_entries {columns : List Value}
    (h : ∀ v ∈ columns, v.handles = [] ∧ ∀ entries, v ≠ .map entries) (first : List Value)
    {u : Unit} :
    Ran (t.addColumns first >>= fun _ => columns.forM (t.selectEntry run)) s u s' ↔
      s' = s.edit t (·.addColumns (first ++ columns)) := by
  induction columns generalizing first with
  | nil =>
    rw [List.append_nil]
    show Ran (t.addColumns first >>= fun _ => pure ()) s u s' ↔ _
    rw [bind_pure_unit]
    exact ran_modify
  | cons v columns ih =>
    obtain ⟨hdata, hmap⟩ := h v List.mem_cons_self
    have hentry : t.selectEntry run v = t.addColumns [v] := by
      unfold QueryId.selectEntry
      cases v with
      | map entries => exact absurd rfl (hmap entries)
      | object handle => exact nomatch hdata
      | _ => rfl
    have hstep : (t.addColumns first >>= fun _ => (v :: columns).forM (t.selectEntry run)) =
        t.addColumns first >>= fun _ => t.addColumns [v] >>= fun _ =>
          columns.forM (t.selectEntry run) := by
      rw [← hentry]
      rfl
    have hadded : (fun q : Query => (q.addColumns first).addColumns [v]) =
        (·.addColumns (first ++ [v])) := by
      funext q
      simp only [Query.addColumns, Option.getD_some, List.append_assoc]
    have hran := ih (fun w hw => h w (List.mem_cons_of_mem _ hw)) (first ++ [v])
    rw [List.append_assoc] at hran
    rw [hstep]
    refine Iff.trans ?_ hran
    unfold QueryId.addColumns
    simp only [ran_bind, ran_modify, exists_const, exists_eq_left, Store.edit_edit, hadded]

/-- A fragment among columns that are added one by one. -/
theorem ran_addSelect {before after : List Value}
    (h : ∀ v ∈ before ++ after, v.handles = [] ∧ ∀ entries, v ≠ .map entries) {u : Unit} :
    Ran (t.addSelect run (before ++ fragment text :: after)) s u s' ↔
      s' = s.edit t (·.addColumns (before ++ fragment text :: after)) := by
  have hall : ∀ v ∈ before ++ fragment text :: after,
      v.handles = [] ∧ ∀ entries, v ≠ .map entries := by
    intro v hv
    rcases List.mem_append.1 hv with hv | hv
    · exact h v (List.mem_append_left _ hv)
    · rcases List.mem_cons.1 hv with rfl | hv
      · exact ⟨rfl, fun _ heq => nomatch heq⟩
      · exact h v (List.mem_append_right _ hv)
  unfold QueryId.addSelect
  rw [flatten_around rfl]
  exact ran_entries hall []

/-- The store after a call with an argument in the place of the missing one. -/
def after (s : Store) (t : QueryId) (v : Value) (slot : Slot) : Store :=
  s.replace t ((slot.place (s.query t)).put v (slot.bound s (s.query t)))

/-- A call with a fragment leaves it in the query as it was given, and binds the values of the other
arguments. -/
theorem ran_call (slot : Slot) (hfits : slot.Fits s t) {u : Unit} :
    Ran ((slot.call (fragment text)).perform run t) s u s' ↔
      slot.Accepted s t ∧ s' = slot.after s t (fragment text) := by
  unfold after
  cases slot with
  | selected before after =>
    have hflat : flatten (before ++ fragment text :: after) = before ++ fragment text :: after :=
      flatten_around rfl before after
    have hsome : (before ++ fragment text :: after).isEmpty = false := by cases before <;> rfl
    have hcall : (call (fragment text) (selected before after)).perform run t =
        t.modify (fun query => { query.rebind .select [] with columns := some [] }) >>= fun _ =>
          t.addSelect run (before ++ fragment text :: after) := by
      show t.select run (before ++ fragment text :: after) = _
      unfold QueryId.select
      simp only [hflat, hsome, Bool.false_eq_true, if_false]
    rw [hcall]
    simp only [ran_bind, ran_modify, exists_const, exists_eq_left, ran_addSelect hfits,
      Store.edit_edit]
    rw [Store.edit_eq_replace]
    exact (and_iff_right trivial).symm
  | added before after =>
    refine (ran_addSelect hfits).trans ?_
    rw [Store.edit_eq_replace, Query.addColumns, ← List.append_assoc]
    exact (and_iff_right trivial).symm
  | source =>
    refine Iff.trans ?_ (and_iff_right trivial).symm
    exact ran_modify.trans (by rw [Store.edit_eq_replace]; rfl)
  | condition gap boolean =>
    refine (gap.ran_call hfits).trans ?_
    rw [Store.edit_eq_replace]
    rfl
  | group before after =>
    refine Iff.trans ?_ (and_iff_right trivial).symm
    have hflat : flatten (before ++ fragment text :: after) = before ++ fragment text :: after :=
      flatten_around rfl before after
    show Ran (t.groupBy (before ++ fragment text :: after)) s u s' ↔ _
    unfold QueryId.groupBy
    rw [hflat]
    refine ran_modify.trans ?_
    rw [Store.edit_eq_replace, ← List.append_assoc]
    rfl
  | groupCondition gap boolean =>
    refine (gap.ran_call hfits).trans ?_
    rw [Store.edit_eq_replace]
    rfl
  | order word direction =>
    refine Iff.trans ?_ (and_iff_right trivial).symm
    have hword : Direction.ofWord? (Text.lower word) = some direction := hfits
    have hdirection : QueryId.direction run (.text word) = pure direction := by
      have hbind : (Value.text (Text.lower word)).text?.bind Direction.ofWord? = some direction :=
        hword
      unfold QueryId.direction
      dsimp only
      rw [pure_bind, hbind]
      rfl
    have hcall : (call (fragment text) (order word direction)).perform run t =
        t.read >>= fun _ => QueryId.direction run (.text word) >>= fun direction =>
          t.modify (·.addOrder (.byColumn (fragment text) direction)) := rfl
    rw [hcall, hdirection]
    simp only [ran_bind, ran_read, ran_pure, ran_modify, and_assoc, exists_and_left, exists_eq_left]
    rw [Store.edit_eq_replace, Query.addOrder]
    unfold place
    split <;> rfl

end

end Slot

/-! ## Joins -/

namespace Store

/-- The store with a table joined to a query. -/
def joining (s : Store) (t : QueryId) (type : Value) (wheres : List Condition) (table : Value) :
    Store :=
  (s.add (ColumnCall.newJoin (s.query t) table type wheres)).edit t fun query =>
    { query with joins := query.joins ++ [s.next] }

variable {s s' : Store} {t : QueryId}

theorem edit_comm {id : QueryId} (h : t ≠ id) (f f' : Query → Query) :
    (s.edit t f).edit id f' = (s.edit id f').edit t f := by
  have hne : t.index ≠ id.index := fun heq => h (by cases t; cases id; cases heq; rfl)
  unfold edit
  congr 1
  refine Array.ext ?_ fun i hi hi' => ?_
  · simp only [Array.size_modify]
  · simp only [Array.getElem_modify]
    split
    · rename_i hid
      rw [if_neg fun ht => hne (ht.trans hid.symm), if_neg fun ht => hne (ht.trans hid.symm)]
    · rfl

/-- The joined table is in its place of the join. -/
theorem joining_eq_replace (hlt : t.index < s.queries.size) (type : Value) (wheres : List Condition)
    (table : Value) : s.joining t type wheres table =
      (s.joining t type wheres .null).replace s.next ((QueryPlace.joined type).put table
        (ColumnCall.newJoin (s.query t) .null type wheres)) := by
  have hne : t ≠ s.next := fun heq => Nat.lt_irrefl _ (heq ▸ hlt : s.next.index < s.queries.size)
  unfold joining replace
  rw [edit_comm hne, edit_add]
  rfl

section

variable (hlt : t.index < s.queries.size) {type : Value} {wheres : List Condition}
  (hwheres : ∀ table, (ColumnCall.newJoin (s.query t) table type wheres).attachments = [])
  (hfresh : ∀ id, s.next ∉ (s.query id).attachments)

include hlt

theorem query_joining_self (table : Value) : (s.joining t type wheres table).query t =
    { s.query t with joins := (s.query t).joins ++ [s.next] } := by
  unfold joining
  rw [query_edit_self (by rw [size_add]; omega), query_add_of_lt hlt]

include hwheres

/-- The new join is attached to the query and to no other one. -/
theorem mem_attachments_joining {table : Value} {id inner : QueryId}
    (h : inner ∈ ((s.joining t type wheres table).query id).attachments) :
    inner ∈ (s.query id).attachments ∨ id = t ∧ inner = s.next := by
  by_cases hid : id = t
  · subst hid
    rw [query_joining_self hlt, Query.attachments, List.append_assoc, List.append_assoc] at h
    rw [Query.attachments, List.append_assoc]
    simp only [List.mem_append, List.mem_singleton] at h ⊢
    tauto
  · rw [joining, query_edit_of_ne hid] at h
    by_cases hold : id.index < s.queries.size
    · rw [query_add_of_lt hold] at h
      exact .inl h
    · by_cases hnext : id = s.next
      · rw [hnext, query_add_next, hwheres] at h
        cases h
      · have hne : id.index ≠ s.queries.size := fun heq => hnext (congrArg QueryId.mk heq)
        rw [query_of_le (by rw [size_add]; omega)] at h
        cases h

include hfresh

theorem joining_once (table : Value) : (s.joining t type wheres table).JoinsOnce t s.next where
  ne heq := Nat.lt_irrefl _ (heq ▸ hlt : s.next.index < s.queries.size)
  once := by
    have hnone : (s.query t).joins.count s.next = 0 :=
      List.count_eq_zero.2 fun hmem => hfresh t (Query.mem_attachments_join hmem)
    rw [query_joining_self hlt, List.count_append, hnone, List.count_singleton_self]
  inner := by
    rw [query_joining_self hlt]
    exact fun hmem => hfresh t (Query.mem_attachments_inner hmem)
  alone id hid hmem :=
    (mem_attachments_joining hlt hwheres hmem).elim (hfresh id) fun h => hid h.1

theorem joining_holds (hholds : ¬s.Holds t t) (table : Value) :
    ¬(s.joining t type wheres table).Holds t t := by
  have hheld : ∀ id, (s.joining t type wheres table).Holds t id → s.Holds t id ∨ id = s.next := by
    intro id hid
    induction hid with
    | single h =>
      exact (mem_attachments_joining hlt hwheres h).imp .single And.right
    | @tail holder id _ h ih =>
      obtain h | ⟨_, rfl⟩ := mem_attachments_joining hlt hwheres h
      · refine .inl (ih.elim (·.tail h) fun hnext => ?_)
        rw [hnext, query_of_le (show s.queries.size ≤ s.next.index from Nat.le_refl _)] at h
        exact nomatch h
      · exact .inr rfl
  intro hself
  exact (hheld t hself).elim hholds (joining_once hlt hwheres hfresh table).ne

end

end Store

section

variable {run : Runner} {t : QueryId} {s s' : Store} {table : Value}

/-- Columns are compared in a condition of their own. -/
theorem columnPair_eq {q : QueryId} {first operator second : Value} {body : Where}
    (h : s.columnPair q first operator second = .ok body) :
    ∃ word other, body = .columnPair first word other := by
  have hpair : ∀ word other, (if other.isNull = true then
      .error (.argument .secondColumnMissing)
      else .ok (.columnPair first word other) : Except Failure Where) = .ok body →
        ∃ word other, body = .columnPair first word other := by
    intro word other h
    split at h
    · exact nomatch h
    · exact ⟨word, other, (Except.ok.inj h).symm⟩
  unfold Store.columnPair at h
  dsimp only at h
  split at h
  · obtain ⟨known, _, h⟩ := Name.bind_eq_ok h
    exact hpair _ _ h
  · exact hpair _ _ h

/-- A table is joined as it was given, if the columns of the condition can be compared. -/
theorem ran_joinTable (hlt : t.index < s.queries.size) {first : Value}
    (hfirst : first.isColumn = true) (operator second type : Value) {u : Unit} :
    Ran ((FluentCall.join table first operator second type false).perform run t) s u s' ↔
      ∃ body, s.columnPair t first operator second = .ok body ∧
        s' = s.joining t type [⟨.text "and", body⟩] table := by
  have hrun : ((ColumnCall.join table type).perform run t first operator second).runOn s = _ :=
    ColumnCall.perform_runOn hlt hfirst operator second (.join table type)
  show ((ColumnCall.join table type).perform run t first operator second).runOn s = (.ok u, s') ↔ _
  rw [hrun]
  cases s.columnPair t first operator second with
  | error e => exact ⟨fun h => (nomatch h), fun ⟨_, h, _⟩ => nomatch h⟩
  | ok body =>
    refine ⟨fun h => ⟨body, rfl, (Prod.mk.inj h).2.symm⟩, ?_⟩
    rintro ⟨_, hbody, rfl⟩
    cases hbody
    rfl

/-- A table is joined without a condition. -/
theorem ran_crossJoin (operator second : Value) {u : Unit} :
    Ran ((FluentCall.crossJoin table .null operator second).perform run t) s u s' ↔
      s' = s.joining t (.text "cross") [] table := by
  have hcall : (FluentCall.crossJoin table .null operator second).perform run t =
      t.newJoin (.text "cross") table >>= fun join =>
        t.modify fun query => { query with joins := query.joins ++ [join] } := rfl
  rw [hcall]
  unfold QueryId.newJoin
  simp only [ran_bind, ran_read, ran_create, ran_modify, and_assoc, exists_and_left, exists_eq_left]
  rfl

end

/-- A select statement is written around a fragment that is joined as a table, if the query does not
hold itself and nothing refers to the place that the join gets. -/
theorem joining_verbatim {t : QueryId} {s : Store} (hlt : t.index < s.queries.size) {type : Value}
    {wheres : List Condition}
    (hwheres : ∀ table, (ColumnCall.newJoin (s.query t) table type wheres).attachments = [])
    (hfresh : ∀ id, s.next ∉ (s.query id).attachments) (hholds : ¬s.Holds t t)
    (known : KnownAnswers) (method : String) : Verbatim fun v =>
      (s.joining t type wheres v).settled.compiled known t method Grammar.selectSql := by
  have heq := Store.joining_eq_replace hlt type wheres
  have hsize : s.next.index < (s.joining t type wheres .null).queries.size := by
    rw [Store.joining, Store.size_edit, Store.size_add]
    exact Nat.lt_succ_self _
  have honce := Store.joining_once hlt hwheres hfresh (fragment "")
  have hheld := Store.joining_holds hlt hwheres hfresh hholds (fragment "")
  rw [heq] at honce hheld
  have hjoined : (QueryPlace.joined type).Joined
      (ColumnCall.newJoin (s.query t) .null type wheres) := trivial
  exact (QueryPlace.join_settled hsize hjoined honce hheld known method).congr
    fun text => by rw [heq]

/-! ## Inserts -/

/-- The three inserts are written around a fragment if any words and any ending are. -/
theorem inserts_verbatim {g : Grammar} {columns : List String} (source : Value → Value)
    (rows : Value → List (List Value))
    (h : ∀ words ending, Verbatim fun v => g.insertedSql words ending (source v) columns (rows v))
    (sequence : Value) : ∃ frames : List (Except Failure Frame), ∀ text, Closes text →
      [g.insertedSql "insert" (.ok "") (source (fragment text)) columns (rows (fragment text)),
        g.insertedIgnoringSql (source (fragment text)) columns (rows (fragment text)),
        g.insertedSql "insert" (g.returningText sequence) (source (fragment text)) columns
          (rows (fragment text))] = frames.map fun frame => frame.map (·.fill text) := by
  have hignoring : Verbatim fun v => g.insertedIgnoringSql (source v) columns (rows v) := by
    unfold Grammar.insertedIgnoringSql
    cases g.dialect with
    | ansi => exact ⟨.error _, fun _ _ => rfl⟩
    | _ => exact h _ _
  obtain ⟨plain, hplain⟩ := h "insert" (.ok "")
  obtain ⟨ignoring, hignoring⟩ := hignoring
  obtain ⟨returning, hreturning⟩ := h "insert" (g.returningText sequence)
  refine ⟨[plain, ignoring, returning], fun text hcloses => ?_⟩
  rw [List.map_cons, List.map_cons, List.map_singleton, ← hplain text hcloses,
    ← hignoring text hcloses, ← hreturning text hcloses]

section

variable (run : Runner) {t : QueryId} {s : Store} {gid : GrammarId} {columns : List String}

/-- The inserts of rows with a fragment are written around the fragment, and bind the other
values. -/
theorem inserts_value (hcompiler : (s.query t).grammar = .grammar gid)
    (hstatements : (s.grammar gid).namesOnly = false) (before after : List (List Value))
    (left right : List Value)
    (hinlines : ∀ row ∈ before ++ (left ++ right) :: after, ∀ v ∈ row, v.Inlines)
    (sequence : Value) :
    ∃ frames : List (Except Failure Frame), ∀ text records, Closes text →
      s.Tabulates columns records (before ++ (left ++ fragment text :: right) :: after) →
      t.inserts run (.list records) sequence s = frames.map fun frame =>
        (frame.map fun fr => ⟨fr.fill text,
          Grammar.boundValues (before ++ (left ++ right) :: after).flatten⟩, s) := by
  let rows : Value → List (List Value) := fun v => before ++ (left ++ v :: right) :: after
  obtain ⟨frames, hframes⟩ := inserts_verbatim (fun _ => (s.settled.query t).source) rows
    (fun words ending => ((s.grammar gid).insertedSql_gapped words ending _ columns before after
      left right).verbatim) (s.shown sequence)
  refine ⟨frames, fun text records hcloses htable => ?_⟩
  have hrows : ∀ row ∈ rows (fragment text), ∀ v ∈ row, v.Inlines := by
    intro row hrow v hv
    by_cases hself : v = fragment text
    · rintro w hw
      exact ⟨text, Value.raw.inj (hw.symm.trans hself)⟩
    · simp only [rows, List.mem_append, List.mem_cons] at hrow hinlines
      rcases hrow with hrow | rfl | hrow
      · exact hinlines row (.inl hrow) v hv
      · refine hinlines (left ++ right) (.inr (.inl rfl)) v ?_
        rcases List.mem_append.1 hv with hv | hv
        · exact List.mem_append_left _ hv
        · exact List.mem_append_right _ ((List.mem_cons.1 hv).resolve_left hself)
      · exact hinlines row (.inr (.inr hrow)) v hv
  have hbound : (rows (fragment text)).flatten.filter (!·.isRaw) =
      Grammar.boundValues (before ++ (left ++ right) :: after).flatten := by
    simp only [rows, Grammar.boundValues, List.flatten_append, List.flatten_cons,
      List.filter_append]
    rfl
  rw [QueryId.inserts_inlined run htable hcompiler hstatements hrows, hframes text hcloses, hbound,
    List.map_map]
  refine List.map_congr_left fun frame _ => ?_
  cases frame <;> rfl

/-- The inserts into a fragment are written around it. -/
theorem inserts_source (hlt : t.index < s.queries.size) (q : Query)
    (hcompiler : q.grammar = .grammar gid) (hstatements : (s.grammar gid).namesOnly = false)
    {rows : List (List Value)} (hinlines : ∀ row ∈ rows, ∀ v ∈ row, v.Inlines) (sequence : Value) :
    ∃ frames : List (Except Failure Frame), ∀ text records, Closes text →
      (s.replace t { q with source := fragment text }).Tabulates columns records rows →
      t.inserts run (.list records) sequence (s.replace t { q with source := fragment text }) =
        frames.map fun frame => (frame.map fun fr =>
          ⟨fr.fill text, Grammar.boundValues rows.flatten⟩,
          s.replace t { q with source := fragment text }) := by
  obtain ⟨frames, hframes⟩ := inserts_verbatim (fun v => v) (fun _ => rows)
    (fun words ending => ((s.grammar gid).insertedSql_source words ending columns rows).verbatim)
    ((s.replace t q).shown sequence)
  refine ⟨frames, fun text records hcloses htable => ?_⟩
  have hsource : ((s.replace t { q with source := fragment text }).settled.query t).source =
      fragment text := by
    rw [Store.query_settled_eq, Store.query_replace hlt]
    rfl
  have hgrammar : ((s.replace t { q with source := fragment text }).query t).grammar =
      .grammar gid := by
    rw [Store.query_replace hlt]
    exact hcompiler
  have hbindings : { q with source := fragment text }.bindings = q.bindings := rfl
  have hshown : (s.replace t { q with source := fragment text }).shown sequence =
      (s.replace t q).shown sequence := Store.shown_replace hbindings _
  rw [QueryId.inserts_inlined run htable hgrammar hstatements hinlines, hsource, hshown]
  refine (congrArg _ (hframes text hcloses)).trans ?_
  rw [List.map_map]
  refine List.map_congr_left fun frame _ => ?_
  cases frame <;> rfl

end

/-! ## Updates -/

section

variable (before after : List (Value × Value)) (column : Value)

/-- The entries of a map are shown one by one. -/
theorem Store.shown_map (u : Store) (entries : List (Value × Value)) :
    u.shown (.map entries) =
      .map (entries.map fun entry => (u.shown entry.1, u.shown entry.2)) := by
  show Value.map (Value.substituteEntries _ _) = _
  rw [substituteEntries_eq]
  rfl

/-- An update is written around a fragment among its values. -/
theorem updateSql_verbatim (u : Store) (t : QueryId) (known : KnownAnswers) (method : String) :
    Verbatim fun v => u.settled.compiled known t method fun g attached q =>
      g.updateSql attached q (u.shown (.map (before ++ (column, v) :: after))) := by
  let show' : Value × Value → Value × Value := fun entry => (u.shown entry.1, u.shown entry.2)
  refine (verbatim_from (u.settled.grammarFor (u.settled.query t).grammar method) fun g _ =>
    (g.updateSql_value (u.settled.attached g known) (u.settled.query t) (before.map show')
      (after.map show') (u.shown column)).verbatim).congr fun text => ?_
  unfold Store.compiled
  simp only [Store.shown_map, List.map_append, List.map_cons]
  rfl

/-- An update binds the values that are no fragments. -/
theorem updateBindings_fragment (g : Grammar) (oracle : Oracle) (bindings : Value) (text : String) :
    g.updateBindings oracle bindings (.map (before ++ (column, fragment text) :: after)) =
      g.updateBindings oracle bindings (.map (before ++ after)) := by
  have hvalues : Grammar.boundValues ((before ++ (column, fragment text) :: after).map (·.2)) =
      Grammar.boundValues ((before ++ after).map (·.2)) := by
    rw [List.map_append, List.map_append, List.map_cons]
    exact boundValues_around _ _
  have hassigned : ∀ entries, (Value.map entries).valuesBy oracle = .ok (entries.map (·.2)) :=
    fun _ => rfl
  unfold Grammar.updateBindings
  rw [hassigned, hassigned]
  simp only [bind, Except.bind, hvalues]

end

/-! ## Fragments under a name -/

section

variable {run : Runner} {t : QueryId} {text : String}

/-- A value that stands alone is compared for equality. -/
theorem where_alone {column v : Value} (hlist : QueryId.isConditionList column = false)
    (boolean : Value) : t.where run column (some v) none boolean =
      t.where run column (some (.text "=")) (some v) boolean := by
  cases column with
  | list items => exact nomatch hlist
  | tuple items => exact nomatch hlist
  | map entries => exact nomatch hlist
  | _ => rfl

theorem having_alone (column v boolean : Value) : t.having column (some v) none boolean =
    t.having column (some (.text "=")) (some v) boolean :=
  rfl

theorem forM_around {α : Type} {f : α → Action PUnit} {a a' : α} (h : f a = f a')
    (before after : List α) :
    (before ++ a :: after).forM f = (before ++ a' :: after).forM f := by
  induction before with
  | nil => exact congrArg (· >>= _) h
  | cons b before ih => exact congrArg (f b >>= ·) (funext fun _ => ih)

/-- A fragment that is selected under a name is taken for the plain text. -/
theorem addSelect_named (columns columns' : List Value) (entries entries' : List (Value × Value))
    (name : Value) :
    t.addSelect run (columns ++ .map (entries ++ (name, fragment text) :: entries') :: columns') =
      t.addSelect run
        (columns ++ .map (entries ++ (name, .text text) :: entries') :: columns') := by
  have hentry : t.selectEntry run (.map (entries ++ (name, fragment text) :: entries')) =
      t.selectEntry run (.map (entries ++ (name, .text text) :: entries')) :=
    @forM_around (Value × Value) (fun entry => t.selectAs run entry.1 entry.2) (name, fragment text)
      (name, .text text) rfl entries entries'
  unfold QueryId.addSelect
  rw [Slot.flatten_around rfl, Slot.flatten_around rfl, forM_around hentry]

theorem select_named (columns columns' : List Value) (entries entries' : List (Value × Value))
    (name : Value) :
    t.select run (columns ++ .map (entries ++ (name, fragment text) :: entries') :: columns') =
      t.select run (columns ++ .map (entries ++ (name, .text text) :: entries') :: columns') := by
  have hsome : ∀ v, (columns ++ v :: columns').isEmpty = false := by
    cases columns <;> exact fun _ => rfl
  unfold QueryId.select
  simp only [Slot.flatten_around (v := .map _) rfl, hsome, Bool.false_eq_true, if_false,
    addSelect_named]

/-- A fragment that is the source under a name is taken for the plain text. -/
theorem setSource_fragment {name : Value} (hname : name.truthy = true) :
    t.setSource run (fragment text) name = t.setSource run (.text text) name := by
  unfold QueryId.setSource
  simp only [hname, if_true]
  rfl

end

/-! ## The result -/

/-- What becomes of fragments in the calls on a query, and in its statements. -/
structure Store.WritesFragments (run : Runner) (s : Store) (t : QueryId) : Prop where
  /-- A call leaves a fragment in its place, and binds the values of the other arguments. -/
  call : ∀ (slot : Slot) (text : String), slot.Fits s t →
    (∀ s', Ran ((slot.call (fragment text)).perform run t) s () s' ↔
      slot.Accepted s t ∧ s' = slot.after s t (fragment text)) ∧
    ((slot.after s t (fragment text)).query t).bindings = (slot.bound s (s.query t)).bindings
  /-- A fragment that is compared with a column and no operator is compared for equality. -/
  alone : ∀ (column boolean : Value) (text : String),
    (QueryId.isConditionList column = false →
      t.where run column (some (fragment text)) none boolean =
        t.where run column (some (.text "=")) (some (fragment text)) boolean) ∧
    t.having column (some (fragment text)) none boolean =
      t.having column (some (.text "=")) (some (fragment text)) boolean
  /-- A query returns what is compiled of it: with the answers of extensions, or at once if none are
  asked for. -/
  returned : ∀ (u : Store) (method : String) (f : Grammar → Attached → Query → Except Failure String),
    (∀ sql u', Ran (t.compile run method f) u sql u' →
      ∃ known, u'.settled.compiled known t method f = .ok sql) ∧
    (AsksNothing (u.settled.compiled [] t method f) →
      (t.compile run method f).runOn u = (u.settled.compiled [] t method f, u))
  /-- The select statement has the fragment in it, if the place is written. -/
  select : ∀ (place : QueryPlace) (q : Query), place.Shown q →
    ¬(s.replace t (place.put (fragment "") q)).Holds t t → ∀ known method,
      Verbatim fun v => (s.replace t (place.put v q)).settled.compiled known t method
        Grammar.selectSql
  /-- An update or a delete has the fragment in it, if the place is written. -/
  change : ∀ (change : Change) (place : QueryPlace) (q : Query),
    (∀ g, s.grammarFor q.grammar change.method = .ok g → place.Changed g q) →
    ¬(s.replace t (place.put (fragment "") q)).Holds t t → ∀ known,
      Verbatim fun v => (s.replace t (place.put v q)).settled.compiled known t change.method
        fun g attached query => change.sql g attached query
  /-- A fragment can be joined as a table, on a comparison of columns or on none, and the select
  statement has it in it. -/
  join : ∀ (first operator second type : Value) (body : Where), first.isColumn = true →
    s.columnPair t first operator second = .ok body →
    (∀ table s',
      (Ran ((FluentCall.join table first operator second type false).perform run t) s () s' ↔
        s' = s.joining t type [⟨.text "and", body⟩] table) ∧
      (Ran ((FluentCall.crossJoin table .null operator second).perform run t) s () s' ↔
        s' = s.joining t (.text "cross") [] table)) ∧
    ((∀ id, s.next ∉ (s.query id).attachments) → ¬s.Holds t t → ∀ known method,
      (Verbatim fun v => (s.joining t type [⟨.text "and", body⟩] v).settled.compiled known t method
        Grammar.selectSql) ∧
      Verbatim fun v => (s.joining t (.text "cross") [] v).settled.compiled known t method
        Grammar.selectSql)
  /-- The select statement has a fragment in it that is left in one of its joins. -/
  joined : ∀ (join : QueryId) (place : QueryPlace) (q : Query), join.index < s.queries.size →
    place.Joined q → (s.replace join (place.put (fragment "") q)).JoinsOnce t join →
    ¬(s.replace join (place.put (fragment "") q)).Holds t t → ∀ known method,
      Verbatim fun v => (s.replace join (place.put v q)).settled.compiled known t method
        Grammar.selectSql
  /-- Inserts have a fragment among their values in them, and bind the other values. -/
  insert : ∀ (gid : GrammarId) (columns : List String) (before after : List (List Value))
    (left right : List Value) (sequence : Value), (s.query t).grammar = .grammar gid →
    (s.grammar gid).namesOnly = false →
    (∀ row ∈ before ++ (left ++ right) :: after, ∀ v ∈ row, v.Inlines) →
    ∃ frames : List (Except Failure Frame), ∀ text records, Closes text →
      s.Tabulates columns records (before ++ (left ++ fragment text :: right) :: after) →
      t.inserts run (.list records) sequence s = frames.map fun frame =>
        (frame.map fun fr => ⟨fr.fill text,
          Grammar.boundValues (before ++ (left ++ right) :: after).flatten⟩, s)
  /-- Inserts have a fragment in them that is their table. -/
  insertInto : ∀ (gid : GrammarId) (columns : List String) (rows : List (List Value))
    (sequence : Value) (q : Query), q.grammar = .grammar gid → (s.grammar gid).namesOnly = false →
    (∀ row ∈ rows, ∀ v ∈ row, v.Inlines) →
    ∃ frames : List (Except Failure Frame), ∀ text records, Closes text →
      (s.replace t { q with source := fragment text }).Tabulates columns records rows →
      t.inserts run (.list records) sequence (s.replace t { q with source := fragment text }) =
        frames.map fun frame => (frame.map fun fr =>
          ⟨fr.fill text, Grammar.boundValues rows.flatten⟩,
          s.replace t { q with source := fragment text })
  /-- An update has a fragment among its values in it, and binds the other values. -/
  update : ∀ (before after : List (Value × Value)) (column : Value),
    (∀ known, Verbatim fun v => s.settled.compiled known t "compile_update" fun g attached q =>
      g.updateSql attached q (s.shown (.map (before ++ (column, v) :: after)))) ∧
    ∀ (g : Grammar) (oracle : Oracle) (bindings : Value) (text : String),
      g.updateBindings oracle bindings (.map (before ++ (column, fragment text) :: after)) =
        g.updateBindings oracle bindings (.map (before ++ after))
  /-- Under a name a fragment is taken for plain text, in the select list and as the source. -/
  named : ∀ (name : Value) (text : String),
    (∀ columns columns' entries entries',
      t.select run (columns ++ .map (entries ++ (name, fragment text) :: entries') :: columns') =
        t.select run (columns ++ .map (entries ++ (name, .text text) :: entries') :: columns') ∧
      t.addSelect run (columns ++ .map (entries ++ (name, fragment text) :: entries') :: columns') =
        t.addSelect run (columns ++ .map (entries ++ (name, .text text) :: entries') :: columns')) ∧
    (name.truthy = true →
      t.setSource run (fragment text) name = t.setSource run (.text text) name)

/-- A fragment of SQL is written as it was given, once, and nothing is bound for it: in the select
list, as the source, as a joined table, in the conditions of the query, of its groups and of its
joins, in what it is grouped and ordered by, and among the values of inserts and updates.  Only
under a name, in a map of the select list or as the source, it is taken for the plain text. -/
theorem Store.writesFragments (run : Runner) (s : Store) (t : QueryId)
    (hlt : t.index < s.queries.size) : s.WritesFragments run t where
  call slot text hfits := by
    refine ⟨fun s' => slot.ran_call hfits, ?_⟩
    rw [Slot.after, Store.query_replace hlt, QueryPlace.bindings_put]
  alone column boolean text := ⟨fun hlist => where_alone hlist boolean, having_alone ..⟩
  returned u method f := ⟨fun sql u' h => ran_consultFrom h, fun h => consult_runOn run h⟩
  select place q hshown hholds known method :=
    QueryPlace.select_settled hlt hshown hholds known method
  change change place q hchanged hholds known :=
    QueryPlace.change_settled hlt change hchanged hholds known
  join first operator second type body hfirst hpair := by
    refine ⟨fun table s' => ⟨?_, ran_crossJoin operator second⟩,
      fun hfresh hholds known method => ?_⟩
    · rw [ran_joinTable hlt hfirst, hpair]
      exact ⟨fun ⟨_, hbody, hs⟩ => Except.ok.inj hbody ▸ hs, fun hs => ⟨body, rfl, hs⟩⟩
    · have hbody : ∀ table, (ColumnCall.newJoin (s.query t) table type
          [⟨.text "and", body⟩]).attachments = [] := by
        obtain ⟨operator, second, rfl⟩ := columnPair_eq hpair
        exact fun _ => rfl
      exact ⟨joining_verbatim hlt hbody hfresh hholds known method,
        joining_verbatim hlt (fun _ => rfl) hfresh hholds known method⟩
  joined join place q hjoin hjoined honce hholds known method :=
    QueryPlace.join_settled hjoin hjoined honce hholds known method
  insert gid columns before after left right sequence hcompiler hstatements hinlines :=
    inserts_value run hcompiler hstatements before after left right hinlines sequence
  insertInto gid columns rows sequence q hcompiler hstatements hinlines :=
    inserts_source run hlt q hcompiler hstatements hinlines sequence
  update before after column :=
    ⟨fun known => updateSql_verbatim before after column s t known "compile_update",
      updateBindings_fragment before after column⟩
  named name text :=
    ⟨fun columns columns' entries entries' => ⟨select_named columns columns' entries entries' name,
      addSelect_named columns columns' entries entries' name⟩,
      fun hname => setSource_fragment hname⟩

/-- A count is selected beside a column of a table with an alias, under a prefix. -/
theorem Store.writesFragments_count :
    let slot : Slot := .selected [.text "u.name"] []
    let after : Value → Store := fun v => slot.after Store.ofAlias ⟨0⟩ v
    Ran ((slot.call (fragment "count(*)")).perform Runner.idle ⟨0⟩) Store.ofAlias ()
      (after (fragment "count(*)")) ∧
    (Verbatim fun v => (after v).settled.compiled [] ⟨0⟩ "compile_select" Grammar.selectSql) ∧
    ((QueryId.toSql Runner.idle ⟨0⟩).runOn (after (fragment "count(*)"))).1.toOption =
        some "select \"p_u\".\"name\", count(*) from \"p_users\" as \"p_u\" limit 2" := by
  intro slot after
  have hwrites : Store.ofAlias.WritesFragments Runner.idle ⟨0⟩ :=
    Store.writesFragments Runner.idle Store.ofAlias ⟨0⟩ (by decide)
  have hfits : slot.Fits Store.ofAlias ⟨0⟩ := by
    intro v hv
    rw [List.mem_singleton.1 hv]
    exact ⟨rfl, fun _ h => nomatch h⟩
  have hholds : ¬(after (fragment "")).Holds ⟨0⟩ ⟨0⟩ := by
    intro h
    obtain ⟨inner, hinner, _⟩ := Relation.TransGen.head'_iff.1 h
    exact nomatch hinner
  exact ⟨((hwrites.call slot "count(*)" hfits).1 _).2 ⟨trivial, rfl⟩,
    hwrites.select (slot.place (Store.ofAlias.query ⟨0⟩))
      (slot.bound Store.ofAlias (Store.ofAlias.query ⟨0⟩)) rfl hholds [] "compile_select",
    by decide +kernel⟩

/-- The select statement of a table, with a value under the name `n` as its select list. -/
def selectNamed (v : Value) : Except Failure String :=
  ((do
    (FluentCall.select [.map [(.text "n", v)]]).perform Runner.idle ⟨0⟩
    QueryId.toSql Runner.idle ⟨0⟩ : Action String).runOn (Store.ofTable "t")).1

/-- A count that is selected under a name is put in quotes.  The statement is not written around it:
a star is not put in quotes. -/
theorem selectNamed_not_verbatim :
    (selectNamed (fragment "count(*)")).toOption =
      some "select \"count(*)\" as \"n\" from \"t\"" ∧ ¬Verbatim selectNamed := by
  refine ⟨by decide +kernel, ?_⟩
  rintro ⟨frame, hframe⟩
  have hfilled : ∀ text sql, Closes text → (selectNamed (fragment text)).toOption = some sql →
      ∃ fr, frame = .ok fr ∧ sql = fr.fill text := by
    intro text sql hcloses hsql
    rw [hframe text hcloses] at hsql
    cases frame with
    | error e => exact nomatch hsql
    | ok fr => exact ⟨fr, rfl, (Option.some.inj hsql).symm⟩
  obtain ⟨fr, rfl, hcolumn⟩ := hfilled "a" "select \"a\" as \"n\" from \"t\""
    ⟨[], 'a', rfl, rfl⟩ (by decide +kernel)
  obtain ⟨_, hsame, hstar⟩ := hfilled "*" "select * as \"n\" from \"t\""
    ⟨[], '*', rfl, rfl⟩ (by decide +kernel)
  rw [← Except.ok.inj hsame] at hstar
  have hlength := congrArg String.length hcolumn
  have hlength' := congrArg String.length hstar
  unfold Frame.fill at hlength hlength'
  rw [String.length_append, String.length_append] at hlength hlength'
  have hshort : "select * as \"n\" from \"t\"".length + 2 =
      "select \"a\" as \"n\" from \"t\"".length := by decide
  have hone : "a".length = "*".length := rfl
  omega

end FluentSql
