import FluentSql.Proofs.Building.Joining
import FluentSql.Script.QueryMethods

/-!
# Fluent calls

A fluent call is a call that builds a query.  Many methods make the same call
with some of its arguments fixed: `or_where` is `where` with another word.

* `FluentCall` are the calls, and `FluentCall.perform` makes one.
* `Method.IsFluent` says that a method makes a fluent call.  All methods that
  build queries do, as the lemmas after it show for each family.
* `FluentCall.Allowed` is what a call must be given, and `Ready.perform` says
  that it then keeps its query noted.
-/

namespace FluentSql

/-- A call that builds a query, with its arguments. -/
inductive FluentCall where
  | select (columns : List Value)
  | addSelect (columns : List Value)
  | selectRaw (sql bindings : Value)
  | selectSub (query name : Value)
  | distinct
  | setSource (table name : Value)
  | fromSub (query name : Value)
  | fromRaw (sql bindings : Value)
  | join (table first operator second type : Value) (byValue : Bool)
  | joinSub (query name first operator second type : Value) (byValue : Bool)
  | crossJoin (table first operator second : Value)
  | on (first operator second boolean : Value)
  | where (column : Value) (operator value : Option Value) (boolean : Value)
  | whereNot (column : Value) (operator value : Option Value) (boolean : Value)
  | whereColumn (first operator second boolean : Value)
  | whereRaw (sql bindings boolean : Value)
  | whereNested (callback boolean : Value)
  | addNested (query boolean : Value)
  | whereSub (column operator query boolean : Value)
  | whereIn (column values boolean : Value) (negated : Bool)
  | whereIntegerIn (column values boolean : Value) (negated : Bool)
  | whereNull (columns boolean : Value) (negated : Bool)
  | whereBetween (column values boolean : Value) (negated : Bool)
  | whereDatePart (part : DatePart) (column operator : Value) (value : Option Value)
      (boolean : Value)
  | whereExists (query boolean : Value) (negated : Bool)
  | addWhereExists (query boolean : Value) (negated : Bool)
  | whereRowValues (columns operator values boolean : Value)
  | whereJsonContains (column value boolean : Value) (negated : Bool)
  | whereJsonLength (column operator : Value) (value : Option Value) (boolean : Value)
  | groupBy (columns : List Value)
  | groupByRaw (sql bindings : Value)
  | having (column : Value) (operator value : Option Value) (boolean : Value)
  | havingRaw (sql bindings boolean : Value)
  | havingBetween (column values boolean : Value) (negated : Bool)
  | havingNull (columns boolean : Value) (negated : Bool)
  | orderBy (column word : Value)
  | inRandomOrder (seed : Value)
  | orderByRaw (sql bindings : Value)
  | reorder (column word : Value)
  | offset (value : Value)
  | limit (value : Value)
  | forPage (page perPage : Value)
  | union (query keepsAll : Value)
  | lock (value : Value)

namespace FluentCall

/-- Makes a call. -/
def perform (run : Runner) (t : QueryId) : FluentCall → Action Unit
  | select columns => t.select run columns
  | addSelect columns => t.addSelect run columns
  | selectRaw sql bindings => t.selectRaw sql bindings
  | selectSub query name => t.selectSub run query name
  | distinct => t.distinct
  | setSource table name => t.setSource run table name
  | fromSub query name => t.fromSub run query name
  | fromRaw sql bindings => t.fromRaw sql bindings
  | join table first operator second type byValue =>
    t.join run table first operator second type byValue
  | joinSub query name first operator second type byValue =>
    t.joinSub run query name first operator second type byValue
  | crossJoin table first operator second => t.crossJoin run table first operator second
  | on first operator second boolean => t.on run first operator second boolean
  | «where» column operator value boolean => t.where run column operator value boolean
  | whereNot column operator value boolean => t.whereNot run column operator value boolean
  | whereColumn first operator second boolean => t.whereColumn run first operator second boolean
  | whereRaw sql bindings boolean => t.whereRaw sql bindings boolean
  | whereNested callback boolean => t.whereNested run callback boolean
  | addNested query boolean => do t.addNested (← query.needQuery) boolean
  | whereSub column operator query boolean => t.whereSub run column operator query boolean
  | whereIn column values boolean negated => t.whereIn run column values boolean negated
  | whereIntegerIn column values boolean negated => t.whereIntegerIn column values boolean negated
  | whereNull columns boolean negated => t.whereNull columns boolean negated
  | whereBetween column values boolean negated => t.whereBetween column values boolean negated
  | whereDatePart part column operator value boolean =>
    t.whereDatePart run part column operator value boolean
  | whereExists query boolean negated => t.whereExists run query boolean negated
  | addWhereExists query boolean negated => t.addWhereExists query boolean negated
  | whereRowValues columns operator values boolean =>
    t.whereRowValues columns operator values boolean
  | whereJsonContains column value boolean negated =>
    t.whereJsonContains column value boolean negated
  | whereJsonLength column operator value boolean =>
    t.whereJsonLength column operator value boolean
  | groupBy columns => t.groupBy columns
  | groupByRaw sql bindings => t.groupByRaw sql bindings
  | having column operator value boolean => t.having column operator value boolean
  | havingRaw sql bindings boolean => t.havingRaw sql bindings boolean
  | havingBetween column values boolean negated => t.havingBetween column values boolean negated
  | havingNull columns boolean negated => t.havingNull columns boolean negated
  | orderBy column word => t.orderBy run column word
  | inRandomOrder seed => t.inRandomOrder seed
  | orderByRaw sql bindings => t.orderByRaw sql bindings
  | reorder column word => t.reorder run column word
  | offset value => t.offset value
  | limit value => t.limit value
  | forPage page perPage => t.forPage page perPage
  | union query keepsAll => t.union run query keepsAll
  | lock value => t.lock value

end FluentCall

/-! ## Methods that make fluent calls -/

/-- A method that makes a fluent call and returns the query. -/
def Method.IsFluent (method : Method QueryId) : Prop :=
  ∀ a, ∃ call : FluentCall, ∀ run t, method.run run t a = t.after (call.perform run t)

section

open FluentCall

theorem selectMethods_fluent : ∀ m ∈ selectMethods, m.IsFluent := by
  simp only [selectMethods, List.forall_mem_cons]
  exact ⟨fun a => ⟨select a.rest, fun _ _ => rfl⟩, fun a => ⟨addSelect a.rest, fun _ _ => rfl⟩,
    fun _ => ⟨selectRaw _ _, fun _ _ => rfl⟩, fun _ => ⟨selectSub _ _, fun _ _ => rfl⟩,
    fun _ => ⟨distinct, fun _ _ => rfl⟩, fun _ => ⟨setSource _ _, fun _ _ => rfl⟩,
    fun _ => ⟨fromSub _ _, fun _ _ => rfl⟩, fun _ => ⟨fromRaw _ _, fun _ _ => rfl⟩,
    fun _ hm => nomatch hm⟩

theorem joinMethodsOf_fluent (word : String) : ∀ m ∈ joinMethodsOf word, m.IsFluent := by
  simp only [joinMethodsOf, List.forall_mem_cons]
  exact ⟨fun _ => ⟨join _ _ _ _ _ _, fun _ _ => rfl⟩, fun _ => ⟨join _ _ _ _ _ _, fun _ _ => rfl⟩,
    fun _ => ⟨joinSub _ _ _ _ _ _ _, fun _ _ => rfl⟩, fun _ hm => nomatch hm⟩

/-- All methods of joins but the one that only makes a condition. -/
theorem joiningMethods_fluent :
    ∀ m ∈ joiningMethods, m.IsFluent ∨ m.name = "new_join_clause" := by
  simp only [joiningMethods, List.forall_mem_append, List.forall_mem_cons]
  refine ⟨⟨⟨?_, fun m hm => .inl (joinMethodsOf_fluent "left" m hm)⟩,
    fun m hm => .inl (joinMethodsOf_fluent "right" m hm)⟩, ?_⟩
  · exact ⟨.inl fun _ => ⟨join _ _ _ _ _ _, fun _ _ => rfl⟩,
      .inl fun _ => ⟨join _ _ _ _ _ _, fun _ _ => rfl⟩,
      .inl fun _ => ⟨joinSub _ _ _ _ _ _ _, fun _ _ => rfl⟩, fun _ hm => nomatch hm⟩
  · exact ⟨.inl fun _ => ⟨crossJoin _ _ _ _, fun _ _ => rfl⟩, .inr rfl, fun _ hm => nomatch hm⟩

/-- All methods of comparisons and groups but the one that only makes a query. -/
theorem comparisonMethods_fluent :
    ∀ m ∈ comparisonMethods, m.IsFluent ∨ m.name = "for_nested_where" := by
  simp only [comparisonMethods, List.forall_mem_cons]
  exact ⟨.inl fun _ => ⟨«where» _ _ _ _, fun _ _ => rfl⟩,
    .inl fun _ => ⟨«where» _ _ _ _, fun _ _ => rfl⟩,
    .inl fun _ => ⟨whereNot _ _ _ _, fun _ _ => rfl⟩,
    .inl fun _ => ⟨whereColumn _ _ _ _, fun _ _ => rfl⟩,
    .inl fun _ => ⟨whereColumn _ _ _ _, fun _ _ => rfl⟩,
    .inl fun _ => ⟨whereRaw _ _ _, fun _ _ => rfl⟩, .inl fun _ => ⟨whereRaw _ _ _, fun _ _ => rfl⟩,
    .inl fun _ => ⟨whereNested _ _, fun _ _ => rfl⟩, .inr rfl,
    .inl fun _ => ⟨addNested _ _, fun _ _ => rfl⟩,
    .inl fun _ => ⟨whereSub _ _ _ _, fun _ _ => rfl⟩, fun _ hm => nomatch hm⟩

theorem membershipMethods_fluent : ∀ m ∈ membershipMethods, m.IsFluent := by
  simp only [membershipMethods, List.forall_mem_cons]
  exact ⟨fun _ => ⟨whereIn _ _ _ _, fun _ _ => rfl⟩, fun _ => ⟨whereIn _ _ _ _, fun _ _ => rfl⟩,
    fun _ => ⟨whereIn _ _ _ _, fun _ _ => rfl⟩, fun _ => ⟨whereIn _ _ _ _, fun _ _ => rfl⟩,
    fun _ => ⟨whereIntegerIn _ _ _ _, fun _ _ => rfl⟩,
    fun _ => ⟨whereIntegerIn _ _ _ _, fun _ _ => rfl⟩,
    fun _ => ⟨whereNull _ _ _, fun _ _ => rfl⟩, fun _ => ⟨whereNull _ _ _, fun _ _ => rfl⟩,
    fun _ => ⟨whereNull _ _ _, fun _ _ => rfl⟩, fun _ => ⟨whereNull _ _ _, fun _ _ => rfl⟩,
    fun _ => ⟨whereBetween _ _ _ _, fun _ _ => rfl⟩,
    fun _ => ⟨whereBetween _ _ _ _, fun _ _ => rfl⟩,
    fun _ => ⟨whereBetween _ _ _ _, fun _ _ => rfl⟩,
    fun _ => ⟨whereBetween _ _ _ _, fun _ _ => rfl⟩, fun _ hm => nomatch hm⟩

theorem furtherWhereMethods_fluent : ∀ m ∈ furtherWhereMethods, m.IsFluent := by
  unfold furtherWhereMethods
  rw [List.forall_mem_append, List.forall_mem_append, List.forall_mem_map, List.forall_mem_map]
  refine ⟨⟨fun part _ _ => ⟨whereDatePart part _ _ _ _, fun _ _ => rfl⟩,
    fun part _ _ => ⟨whereDatePart part _ _ _ _, fun _ _ => rfl⟩⟩, ?_⟩
  simp only [List.forall_mem_cons]
  exact ⟨fun _ => ⟨whereExists _ _ _, fun _ _ => rfl⟩, fun _ => ⟨whereExists _ _ _, fun _ _ => rfl⟩,
    fun _ => ⟨whereExists _ _ _, fun _ _ => rfl⟩, fun _ => ⟨whereExists _ _ _, fun _ _ => rfl⟩,
    fun _ => ⟨addWhereExists _ _ _, fun _ _ => rfl⟩,
    fun _ => ⟨whereRowValues _ _ _ _, fun _ _ => rfl⟩,
    fun _ => ⟨whereRowValues _ _ _ _, fun _ _ => rfl⟩,
    fun _ => ⟨whereJsonContains _ _ _ _, fun _ _ => rfl⟩,
    fun _ => ⟨whereJsonContains _ _ _ _, fun _ _ => rfl⟩,
    fun _ => ⟨whereJsonContains _ _ _ _, fun _ _ => rfl⟩,
    fun _ => ⟨whereJsonLength _ _ _ _, fun _ _ => rfl⟩,
    fun _ => ⟨whereJsonLength _ _ _ _, fun _ _ => rfl⟩, fun _ hm => nomatch hm⟩

theorem groupMethods_fluent : ∀ m ∈ groupMethods, m.IsFluent := by
  simp only [groupMethods, List.forall_mem_cons]
  exact ⟨fun a => ⟨groupBy a.rest, fun _ _ => rfl⟩, fun _ => ⟨groupByRaw _ _, fun _ _ => rfl⟩,
    fun _ => ⟨having _ _ _ _, fun _ _ => rfl⟩, fun _ => ⟨having _ _ _ _, fun _ _ => rfl⟩,
    fun _ => ⟨havingRaw _ _ _, fun _ _ => rfl⟩, fun _ => ⟨havingRaw _ _ _, fun _ _ => rfl⟩,
    fun _ => ⟨havingBetween _ _ _ _, fun _ _ => rfl⟩, fun _ => ⟨havingNull _ _ _, fun _ _ => rfl⟩,
    fun _ => ⟨havingNull _ _ _, fun _ _ => rfl⟩, fun _ hm => nomatch hm⟩

/-- All methods of ordering, paging, unions and locks but the conditional one. -/
theorem orderMethods_fluent : ∀ m ∈ orderMethods, m.IsFluent ∨ m.name = "when" := by
  simp only [orderMethods, List.forall_mem_cons]
  exact ⟨.inl fun _ => ⟨orderBy _ _, fun _ _ => rfl⟩, .inl fun _ => ⟨orderBy _ _, fun _ _ => rfl⟩,
    .inl fun _ => ⟨orderBy _ _, fun _ _ => rfl⟩, .inl fun _ => ⟨orderBy _ _, fun _ _ => rfl⟩,
    .inl fun _ => ⟨inRandomOrder _, fun _ _ => rfl⟩, .inl fun _ => ⟨orderByRaw _ _, fun _ _ => rfl⟩,
    .inl fun _ => ⟨reorder _ _, fun _ _ => rfl⟩, .inl fun _ => ⟨offset _, fun _ _ => rfl⟩,
    .inl fun _ => ⟨offset _, fun _ _ => rfl⟩, .inl fun _ => ⟨limit _, fun _ _ => rfl⟩,
    .inl fun _ => ⟨limit _, fun _ _ => rfl⟩, .inl fun _ => ⟨forPage _ _, fun _ _ => rfl⟩,
    .inl fun _ => ⟨union _ _, fun _ _ => rfl⟩, .inl fun _ => ⟨union _ _, fun _ _ => rfl⟩,
    .inl fun _ => ⟨lock _, fun _ _ => rfl⟩, .inl fun _ => ⟨lock _, fun _ _ => rfl⟩,
    .inl fun _ => ⟨lock _, fun _ _ => rfl⟩, .inr rfl, fun _ hm => nomatch hm⟩

/-- The methods that only join conditions have. -/
theorem joinMethods_fluent : ∀ m ∈ joinMethods, m.IsFluent := by
  simp only [joinMethods, List.forall_mem_cons]
  exact ⟨fun _ => ⟨on _ _ _ _, fun _ _ => rfl⟩, fun _ => ⟨on _ _ _ _, fun _ _ => rfl⟩,
    fun _ hm => nomatch hm⟩

end

/-! ## What a call must be given -/

namespace FluentCall

/-- What a call must be given, with some queries on offer as sub-queries.  References hold no single
quotes in their JSON keys, in PostgreSQL; fragments come with as many values as placeholders; words
hold neither; and a source that has values is not replaced. -/
def Allowed (g : Grammar) (avail : Offers) (q : Query) : FluentCall → Prop
  | select columns => ∀ c ∈ flatten (flatten columns), EntryAllowed g avail c
  | addSelect columns => ∀ c ∈ flatten columns, EntryAllowed g avail c
  | selectRaw sql bindings => FragmentAllowed sql bindings
  | selectSub query name => SubTextAllowed avail query ∧ ColumnHolds g name []
  | distinct => True
  | setSource table name => q.bindings.source = [] ∧ SourceAllowed g avail table name
  | fromSub query name =>
    q.bindings.source = [] ∧ SubTextAllowed avail query ∧ TableHolds g name []
  | fromRaw sql bindings => q.bindings.source = [] ∧ FragmentAllowed sql bindings
  | join table first operator second type byValue =>
    WordHolds type ∧ TableHolds g table [] ∧ JoinAllowed g avail first operator second byValue
  | joinSub query name first operator second type byValue =>
    WordHolds type ∧ SubTextAllowed avail query ∧ TableHolds g name [] ∧
      JoinAllowed g avail first operator second byValue
  | crossJoin table first operator second =>
    TableHolds g table [] ∧
      (first.isNull = false → JoinAllowed g avail first operator second false)
  | on first operator second boolean =>
    WordHolds boolean ∧ (CallableAllowed avail first ∨
      ConditionAllowed g avail .columns first (some operator) (some second) boolean)
  | «where» column operator value boolean =>
    ConditionAllowed g avail .values column operator value boolean
  | whereNot column operator value boolean =>
    WordHolds boolean ∧ (CallableAllowed avail column ∨
      ConditionAllowed g avail .values column operator value (.text "and"))
  | whereColumn first operator second boolean =>
    ConditionAllowed g avail .columns first (some operator) (some second) boolean
  | whereRaw sql bindings boolean => FragmentAllowed sql bindings ∧ WordHolds boolean
  | whereNested callback boolean => CallableAllowed avail callback ∧ WordHolds boolean
  | addNested query boolean => (∃ id ∈ avail.queries, query = .ofQuery id) ∧ WordHolds boolean
  | whereSub column operator query boolean =>
    ColumnHolds g column [] ∧ WordHolds operator ∧ SubAllowed avail query ∧ WordHolds boolean
  | whereIn column values boolean _ =>
    ColumnHolds g column [] ∧ (SubAllowed avail values ∨ ValuesAllowed values) ∧ WordHolds boolean
  | whereIntegerIn column values boolean _ =>
    ColumnHolds g column [] ∧ values.handles = [] ∧ WordHolds boolean
  | whereNull columns boolean _ =>
    (∀ c ∈ columns.listed, ColumnHolds g c []) ∧ WordHolds boolean
  | whereBetween column values boolean _ =>
    ColumnHolds g column [] ∧ ValuesAllowed values ∧ WordHolds boolean
  | whereDatePart _ column operator value boolean =>
    ColumnHolds g column [] ∧ ValueAllowed (comparand (some operator) value) ∧ WordHolds boolean
  | whereExists query boolean _ => SubAllowed avail query ∧ WordHolds boolean
  | addWhereExists query boolean _ => (∃ id ∈ avail.queries, query = .ofQuery id) ∧ WordHolds boolean
  | whereRowValues columns operator values boolean =>
    columns.handles = [] ∧ (∀ cs, columns.items = .ok cs → ∀ c ∈ cs, ColumnHolds g c []) ∧
      WordHolds operator ∧ ValuesAllowed values ∧ WordHolds boolean
  | whereJsonContains column value boolean _ =>
    ColumnHolds g column [] ∧ ValueAllowed value ∧ WordHolds boolean
  | whereJsonLength column operator value boolean =>
    ColumnHolds g column [] ∧ ValueAllowed (comparand (some operator) value) ∧ WordHolds boolean
  | groupBy columns => ∀ c ∈ flatten columns, ColumnHolds g c []
  | groupByRaw sql bindings => FragmentAllowed sql bindings
  | having column operator value boolean =>
    ColumnHolds g column [] ∧ ValueAllowed (comparand operator value) ∧ WordHolds boolean
  | havingRaw sql bindings boolean => FragmentAllowed sql bindings ∧ WordHolds boolean
  | havingBetween column values boolean _ =>
    ColumnHolds g column [] ∧ ValuesAllowed values ∧ WordHolds boolean
  | havingNull columns boolean _ => (∀ c ∈ columns.listed, ColumnHolds g c []) ∧ WordHolds boolean
  | orderBy column word => OrderAllowed g avail column ∧ word.handles = []
  | inRandomOrder seed => WordHolds seed
  | orderByRaw sql bindings => FragmentAllowed sql bindings
  | reorder column word =>
    (column.isNull = false → OrderAllowed g avail column) ∧ word.handles = []
  | offset _ => True
  | limit _ => True
  | forPage _ _ => True
  | union query keepsAll => SubAllowed avail query ∧ keepsAll.handles = []
  | lock value => value.handles = [] ∧ ∀ sql, value = .text sql → Sealed sql.toList

/-- The group of values of a call that adds conditions or joins. -/
def conditionGroup? : FluentCall → Option BindingGroup
  | join .. | joinSub .. | crossJoin .. => some .join
  | on .. | «where» .. | whereNot .. | whereColumn .. | whereRaw .. | whereNested ..
  | addNested .. | whereSub .. | whereIn .. | whereIntegerIn .. | whereNull .. | whereBetween ..
  | whereDatePart .. | whereExists .. | addWhereExists .. | whereRowValues ..
  | whereJsonContains .. | whereJsonLength .. => some .condition
  | _ => none

end FluentCall

section

variable {g : Grammar} {p : String} {run : Runner} {avail : Offers}
variable {s s' : Store} {notes : QueryId → Notes} {t : QueryId}

/-- A call that adds conditions or joins, and is given what it must be, keeps its query noted and binds
values of its group only. -/
theorem Ready.performIn (h : Ready g p run avail s notes t) (hstands : s.Stands notes t)
    {call : FluentCall} (hallowed : call.Allowed g avail (s.query t)) {group : BindingGroup}
    (hgroup : call.conditionGroup? = some group) {u : Unit}
    (hran : Ran (call.perform run t) s u s') : KeptIn group g avail s notes t s' := by
  cases call <;> cases hgroup
  case join table first operator second type byValue =>
    exact h.join hstands hallowed.1 hallowed.2.1 hallowed.2.2 hran
  case joinSub query name first operator second type byValue =>
    exact h.joinSub hstands hallowed.1 (h.createsText hallowed.2.1) hallowed.2.2.1 hallowed.2.2.2 hran
  case crossJoin table first operator second =>
    exact h.crossJoin hstands hallowed.1 hallowed.2 hran
  case on first operator second boolean => exact h.on hstands hallowed.1 hallowed.2 hran
  case «where» column operator value boolean => exact h.where hstands hallowed hran
  case whereNot column operator value boolean =>
    exact h.whereNot hstands hallowed.1 hallowed.2 hran
  case whereColumn first operator second boolean => exact h.whereColumn hstands hallowed hran
  case whereRaw sql bindings boolean => exact h.whereRaw hstands hallowed.1 hallowed.2 hran
  case whereNested callback boolean => exact h.whereNested hstands hallowed.1 hallowed.2 hran
  case addNested query boolean =>
    obtain ⟨⟨id, hid, rfl⟩, hboolean⟩ := hallowed
    obtain ⟨hne, hnested, _⟩ := h.offered id hid
    have hadd : Ran (t.addNested id boolean) s u s' := hran
    exact h.addNested hstands (.refl h.noted) hnested hne (.inl hid) hboolean hadd
  case whereSub column operator query boolean =>
    exact h.whereSub hstands hallowed.1 hallowed.2.1 hallowed.2.2.1 hallowed.2.2.2 hran
  case whereIn column values boolean negated =>
    exact h.whereIn hstands hallowed.1 (hallowed.2.1.imp_left h.createsText_sub) hallowed.2.2 hran
  case whereIntegerIn column values boolean negated =>
    exact h.whereIntegerIn hstands hallowed.1 hallowed.2.1 hallowed.2.2 hran
  case whereNull columns boolean negated => exact h.whereNull hstands hallowed.1 hallowed.2 hran
  case whereBetween column values boolean negated =>
    exact h.whereBetween hstands hallowed.1 hallowed.2.1 hallowed.2.2 hran
  case whereDatePart part column operator value boolean =>
    exact h.whereDatePart hstands hallowed.1 hallowed.2.1 hallowed.2.2 hran
  case whereExists query boolean negated =>
    exact h.whereExists hstands hallowed.1 hallowed.2 hran
  case addWhereExists query boolean negated =>
    obtain ⟨⟨id, hid, rfl⟩, hboolean⟩ := hallowed
    exact h.addWhereExists hstands hid hboolean hran
  case whereRowValues columns operator values boolean =>
    obtain ⟨hdata, hcolumns, hoperator, hvalues, hboolean⟩ := hallowed
    exact h.whereRowValues hstands hdata hcolumns hoperator hvalues hboolean hran
  case whereJsonContains column value boolean negated =>
    exact h.whereJsonContains hstands hallowed.1 hallowed.2.1 hallowed.2.2 hran
  case whereJsonLength column operator value boolean =>
    exact h.whereJsonLength hstands hallowed.1 hallowed.2.1 hallowed.2.2 hran

private theorem Ready.performOther (h : Ready g p run avail s notes t)
    (hstands : s.Stands notes t) {call : FluentCall} (hallowed : call.Allowed g avail (s.query t))
    (hgroup : call.conditionGroup? = none) {u : Unit} (hran : Ran (call.perform run t) s u s') :
    Kept g avail s notes t s' := by
  cases call <;> cases hgroup
  case select columns => exact h.select hstands hallowed hran
  case addSelect columns => exact h.addSelect hstands hallowed hran
  case selectRaw sql bindings => exact h.selectRaw hstands hallowed hran
  case selectSub query name => exact h.selectSub hstands (h.createsText hallowed.1) hallowed.2 hran
  case distinct => exact h.distinct hstands hran
  case setSource table name => exact h.setSource hstands hallowed.1 hallowed.2 hran
  case fromSub query name => exact h.fromSub hstands hallowed.1 (h.createsText hallowed.2.1) hallowed.2.2 hran
  case fromRaw sql bindings => exact h.fromRaw hstands hallowed.1 hallowed.2 hran
  case groupBy columns => exact h.groupBy hstands hallowed hran
  case groupByRaw sql bindings => exact h.groupByRaw hstands hallowed hran
  case having column operator value boolean =>
    exact h.having hstands hallowed.1 hallowed.2.1 hallowed.2.2 hran
  case havingRaw sql bindings boolean => exact h.havingRaw hstands hallowed.1 hallowed.2 hran
  case havingBetween column values boolean negated =>
    exact h.havingBetween hstands hallowed.1 hallowed.2.1 hallowed.2.2 hran
  case havingNull columns boolean negated => exact h.havingNull hstands hallowed.1 hallowed.2 hran
  case orderBy column word => exact h.orderBy hstands (hallowed.1.imp_left h.createsText_sub) hallowed.2 hran
  case inRandomOrder seed => exact h.inRandomOrder hstands hallowed hran
  case orderByRaw sql bindings => exact h.orderByRaw hstands hallowed hran
  case reorder column word => exact h.reorder hstands hallowed.1 hallowed.2 hran
  case offset value => exact h.offset hstands hran
  case limit value => exact h.limit hstands hran
  case forPage page perPage => exact h.forPage hstands hran
  case union query keepsAll => exact h.union hstands hallowed.1 hallowed.2 hran
  case lock value => exact h.lock hstands hallowed.1 hallowed.2 hran

/-- A call that is given what it must be keeps its query noted. -/
theorem Ready.perform (h : Ready g p run avail s notes t) (hstands : s.Stands notes t)
    {call : FluentCall} (hallowed : call.Allowed g avail (s.query t)) {u : Unit}
    (hran : Ran (call.perform run t) s u s') : Kept g avail s notes t s' := by
  cases hgroup : call.conditionGroup? with
  | some group => exact (h.performIn hstands hallowed hgroup hran).1
  | none => exact h.performOther hstands hallowed hgroup hran

/-- Calls that add conditions or joins bind no other values. -/
theorem Query.OnlyConditions.of_call {q q' : Query} (h : q.OnlyConditions) {call : FluentCall}
    {group : BindingGroup} (hgroup : call.conditionGroup? = some group)
    (hsame : q'.bindings = q.bindings.set group (q'.bindings.get group)) : q'.OnlyConditions := by
  have hcases : group = .join ∨ group = .condition := by
    cases call <;> cases hgroup <;> first | exact .inl rfl | exact .inr rfl
  unfold Query.OnlyConditions at h ⊢
  rcases hcases with rfl | rfl <;> rw [hsame, h] <;> rfl

end

end FluentSql
