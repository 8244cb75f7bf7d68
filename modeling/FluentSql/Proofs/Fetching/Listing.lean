import FluentSql.Proofs.Fetching.Inquiries
import FluentSql.Proofs.Verbatim.Calls

/-!
# Columns that are named for one fetch

A query without a select list takes the columns that are named when its rows
are fetched.  It then asks what a copy asks for which these columns are
selected, unless one of them is a map: `select` reads the entries of a map, a
fetch writes the map itself as a name.

* `Query.adjusts_listing` and `Query.adjusts_selecting` are the changes that
  fetching and selecting make.
* `Grammar.selectSql_listing` says what matters of a select list.
* `Action.Alike` is what a fetch with columns and one of the copy that selects
  them have in common.
* `QueryId.get_selects` is the result.
-/

namespace FluentSql

/-! ## Changes -/

namespace Query

theorem adjusts_listing {columns : List Value} (h : ∀ v ∈ columns, v.handles = []) :
    Adjusts (·.listing columns) := by
  refine .ite (p := fun _ => columns.isEmpty) (fun _ _ => rfl) .same
    ⟨fun q => ?_, fun q r => ?_, fun _ => rfl, fun _ => rfl, fun _ => rfl, fun _ h => h⟩
  · exact handles_subset q.limit (fun _ hv => hv) (.inl rfl) (.inr h) (List.Subset.refl _)
  · unfold Query.rename
    dsimp only
    rw [Option.map_some, r.values_data h]

theorem adjusts_rebind (group : BindingGroup) : Adjusts (·.rebind group []) where
  handles q := handles_subset q.limit (fun _ => Bindings.mem_of_set) (.inl rfl) (.inl rfl)
    (List.Subset.refl _)
  rename q r := by
    unfold Query.rebind Query.rename
    dsimp only
    rw [Bindings.map_set]
  kind _ := rfl
  connection _ := rfl
  grammar _ := rfl
  data q h v hv := h v (Bindings.mem_of_set hv)

theorem adjusts_setLimit (n : Nat) : Adjusts (·.setLimit n) := by
  refine .ite isUnion_rename
    ⟨fun q => ?_, fun _ _ => rfl, fun _ => rfl, fun _ => rfl, fun _ => rfl, fun _ h => h⟩
    ⟨fun q => ?_, fun _ _ => rfl, fun _ => rfl, fun _ => rfl, fun _ => rfl, fun _ h => h⟩
  · exact handles_subset q.limit (fun _ hv => hv) (.inl rfl) (.inl rfl) (List.Subset.refl _)
  · exact handles_subset (some n) (fun _ hv => hv) (.inl rfl) (.inl rfl) (List.Subset.refl _)

end Query

/-! ## Select lists that are written alike -/

section

variable {g : Grammar} {attached : Attached} {q : Query}

/-- Two select lists that are written alike make no difference to a statement. -/
theorem Grammar.selectSql_listing {columns columns' : List Value}
    (hempty : columns.isEmpty = columns'.isEmpty) (h : g.columnize columns = g.columnize columns') :
    g.selectSql attached (q.listing columns) = g.selectSql attached (q.listing columns') := by
  have hlist : ∀ q : Query, g.selectList { q with columns := some columns } =
      g.selectList { q with columns := some columns' } := by
    intro q
    unfold selectList ifAny columnsSql
    dsimp only [Option.getD_some]
    rw [hempty, h]
  have hplain : ∀ q : Query, g.plainSelectSql attached { q with columns := some columns } =
      g.plainSelectSql attached { q with columns := some columns' } := by
    intro q
    unfold plainSelectSql
    rw [components_eq, components_eq, hlist]
    rfl
  unfold Query.listing
  rw [hempty]
  split
  · rfl
  · unfold selectSql
    dsimp only
    cases q.aggregate with
    | none => exact hplain { q with aggregate := none }
    | some aggregate =>
      dsimp only
      rw [hplain { q with aggregate := none }]
      exact if_congr Iff.rfl rfl (hplain { q with aggregate := some aggregate })

end

/-! ## Entries of a select list -/

/-- A name or a fragment. -/
def Value.IsColumn : Value → Prop
  | .text _ => True
  | .raw v => v.handles = []
  | _ => False

/-- A column, or a map that follows the values of no query. -/
def Value.IsEntry : Value → Prop
  | .map entries => ∀ id, .bindings id ∉ (Value.map entries).handles
  | v => v.IsColumn

/-- Two actions send the same statements and give the same, if they give anything. -/
def Action.Alike {α : Type} (a : Action α) (s : Store) (b : Action α) (s' : Store) : Prop :=
  (b.runOn s').2.sent = (a.runOn s).2.sent ∧ (b.runOn s').1.toOption = (a.runOn s).1.toOption

/-- An entry of a select list as a fetch takes it: a map is the name that it displays. -/
def Value.fetched : Value → Value
  | .map entries => .text (Value.map entries).display
  | v => v

/-- What is made of the same is the same. -/
theorem Action.Alike.mapped {α β : Type} {a b : Action α} {a' b' : Action β} {f : α → β}
    {s s' t t' : Store} (h : Action.Alike a s b s')
    (ha : a'.runOn t = ((a.runOn s).1.map f, (a.runOn s).2))
    (hb : b'.runOn t' = ((b.runOn s').1.map f, (b.runOn s').2)) : Action.Alike a' t b' t' := by
  have hmap : ∀ x : Except Failure α, (x.map f).toOption = x.toOption.map f := by
    rintro (e | a) <;> rfl
  unfold Action.Alike
  rw [ha, hb, hmap, hmap, h.2]
  exact ⟨h.1, rfl⟩

section

variable {run : Runner} {s s' : Store} {q c : QueryId} {v : Value} {entries : List Value}

theorem Store.shown_of_plain (s : Store) (h : ∀ id, .bindings id ∉ v.handles) : s.shown v = v := by
  unfold shown shownWith
  refine (Value.substitute_congr v fun x hx => ?_).trans v.substitute_object
  cases x with
  | bindings id => exact absurd hx (h id)
  | _ => rfl

theorem Value.fetched_same (h : ∀ entries, v ≠ .map entries) : v.fetched = v := by
  cases v with
  | map entries => exact absurd rfl (h entries)
  | _ => rfl

theorem Value.IsColumn.data (h : v.IsColumn) : v.handles = [] ∧ ∀ entries, v ≠ .map entries := by
  cases v with
  | text name => exact ⟨rfl, nofun⟩
  | raw v => exact ⟨h, nofun⟩
  | _ => exact h.elim

theorem Value.IsColumn.isEntry (h : v.IsColumn) : v.IsEntry := by
  cases v with
  | map entries => exact h.elim
  | _ => exact h

theorem Value.IsColumn.listed (h : v.IsColumn) : v.listed = [v] := by
  cases v with
  | text name => rfl
  | raw v => rfl
  | _ => exact h.elim

theorem Value.IsEntry.fetched (h : v.IsEntry) : v.fetched.IsColumn := by
  cases v with
  | map entries => trivial
  | _ => exact h

theorem Value.IsEntry.wrap (h : v.IsEntry) (s : Store) (g : Grammar) :
    g.wrap (s.shown v) = g.wrap v.fetched := by
  cases v with
  | map entries => exact (congrArg g.wrap (s.shown_of_plain h)).trans rfl
  | raw v => exact congrArg g.wrap (s.shown_data (v := .raw v) h)
  | text name => rfl
  | _ => exact h.elim

theorem Store.columnize_shown (s : Store) (g : Grammar) (h : ∀ v ∈ entries, v.IsEntry) :
    g.columnize (entries.map s.shown) = g.columnize (entries.map Value.fetched) := by
  have hwrap : (entries.map s.shown).mapM g.wrap = (entries.map Value.fetched).mapM g.wrap := by
    induction entries with
    | nil => rfl
    | cons v entries ih =>
      obtain ⟨hv, hentries⟩ := List.forall_mem_cons.1 h
      rw [List.map_cons, List.map_cons, List.mapM_cons, List.mapM_cons, hv.wrap s g, ih hentries]
  unfold Grammar.columnize
  rw [hwrap]

theorem Value.fetched_columns (h : ∀ v ∈ entries, v.IsEntry) :
    ∀ v ∈ entries.map Value.fetched, v.IsColumn := by
  intro v hv
  obtain ⟨entry, hentry, rfl⟩ := List.mem_map.1 hv
  exact (h entry hentry).fetched

/-! ## Questions -/

/-- What such a query selects asks nothing of the program. -/
theorem Store.Clonable.asks_listed (h : s.Clonable q) : AsksNothing (s.listedSql q []) :=
  (h.compiled_edit (Query.adjusts_listing fun _ hv => absurd hv List.not_mem_nil)).asksNothing

/-- Without columns a query asks for what it selects itself. -/
theorem Store.Clonable.inquire_null (run : Runner) (h : s.Clonable q) :
    (q.inquire run .null).runOn s = (s.inquiry q [], s) := by
  have hasks : AsksNothing (s.listedSql q (([] : List Value).map s.shown)) := h.asks_listed
  refine q.inquire_of_chosen ?_ hasks
  split <;> rfl

/-- A query with a select list asks for what it selects, whatever the columns. -/
theorem Store.Clonable.inquire_listed (run : Runner) (h : s.Clonable q)
    (hlist : (s.query q).columns.isSome) (columns : Value) : (q.inquire run columns).runOn s = (s.inquiry q [], s) := by
  have hasks : AsksNothing (s.listedSql q (([] : List Value).map s.shown)) := h.asks_listed
  refine q.inquire_of_chosen ?_ hasks
  rw [if_neg (by rw [Option.isNone_eq_false_iff.2 hlist]; exact Bool.false_ne_true)]

/-- A query without a select list asks for the entries, maps as the names that they display. -/
theorem Store.Clonable.inquire_fetched (run : Runner) (h : s.Clonable q)
    (hnone : (s.query q).columns = none) (hentries : ∀ v ∈ entries, v.IsEntry) :
    (q.inquire run (.list entries)).runOn s = (s.inquiry q (entries.map Value.fetched), s) := by
  have hsame : s.listedSql q (entries.map s.shown) = s.listedSql q (entries.map Value.fetched) := by
    have hempty : (entries.map s.shown).isEmpty = (entries.map Value.fetched).isEmpty := by
      rw [List.isEmpty_map, List.isEmpty_map]
    exact congrArg (s.settled.compiled [] q "compile_select")
      (funext fun g => funext fun attached => funext fun query =>
        Grammar.selectSql_listing hempty (s.columnize_shown g hentries))
  have hasks : AsksNothing (s.listedSql q (entries.map Value.fetched)) :=
    (h.compiled_edit (Query.adjusts_listing fun v hv =>
      (Value.fetched_columns hentries v hv).data.1)).asksNothing
  rw [← hsame] at hasks
  have hchosen : if (s.query q).columns.isNone then
      (Value.list entries).itemsOrNone.runOn s = (.ok entries, s) else entries = [] := by
    rw [hnone]
    exact ran_itemsOrNone_list entries s
  have hinquire : (q.inquire run (.list entries)).runOn s =
      (s.inquiry q (entries.map s.shown), s) := q.inquire_of_chosen hchosen hasks
  unfold Store.inquiry at hinquire ⊢
  rwa [hsame] at hinquire

/-- Two queries that ask for the same text are asked for the same, but for their values. -/
theorem Store.inquiry_eq {columns columns' : List Value}
    (hsql : s'.listedSql c columns' = s.listedSql q columns)
    (hconnection : (s'.query c).connection = (s.query q).connection) :
    s'.inquiry c columns' =
      (s.inquiry q columns).map ({ · with values := (s'.query c).bindings.flatten }) := by
  unfold inquiry
  rw [hsql, hconnection]
  cases s.listedSql q columns with
  | error e => rfl
  | ok sql => cases (s.query q).connection <;> rfl

theorem Store.inquiry_ok {columns : List Value} {i : Inquiry} (h : s.inquiry q columns = .ok i) :
    (s.query q).connection = some i.connection ∧ i.values = (s.query q).bindings.flatten := by
  unfold inquiry at h
  cases hsql : s.listedSql q columns with
  | error e =>
    rw [hsql] at h
    exact nomatch h
  | ok sql =>
    rw [hsql] at h
    cases hc : (s.query q).connection with
    | none =>
      rw [hc] at h
      exact nomatch h
    | some c =>
      rw [hc] at h
      cases h
      exact ⟨rfl, rfl⟩

/-- Two queries that ask the same of the same connection get the same, by the same statement. -/
theorem QueryId.get_same {columns columns' : Value} {asked : Except Failure Inquiry}
    (hq : (q.inquire run columns).runOn s = (asked, s))
    (hc : (c.inquire run columns').runOn s' = (asked, s'))
    (hconnection : ∀ i, asked = .ok i → s'.connection i.connection = s.connection i.connection)
    (hsent : s'.sent = s.sent) : Action.Alike (q.get run columns) s (c.get run columns') s' := by
  unfold Action.Alike
  cases asked with
  | error e =>
    rw [QueryId.get_of_error hq, QueryId.get_of_error hc]
    exact ⟨hsent, rfl⟩
  | ok i =>
    rw [QueryId.get_of_ok hq, QueryId.get_of_ok hc]
    exact i.rows_same (hconnection i rfl) hsent

/-- The first row is the first of those that a copy with a limit gets. -/
theorem QueryId.first_runOn {columns : Value} {s1 s2 : Store} (hcopy : Ran q.copy s c s1)
    (hlimit : Ran (c.limit (.int 1)) s1 () s2) : (q.first run columns).runOn s =
      (((c.get run columns).runOn s2).1.map List.head?, ((c.get run columns).runOn s2).2) := by
  unfold first
  rw [Action.runOn_bind_ok hcopy, Action.runOn_bind_ok hlimit]
  generalize hget : (c.get run columns).runOn s2 = got
  obtain ⟨rows, s3⟩ := got
  cases rows with
  | error e => exact Action.runOn_bind_error hget
  | ok rows => exact Action.runOn_bind_ok hget

theorem QueryId.ran_limit_one : Ran (c.limit (.int 1)) s () (s.edit c (·.setLimit 1)) :=
  rfl

/-! ## Selecting -/

/-- The copy of a query for which columns are selected. -/
def QueryId.selected (run : Runner) (q : QueryId) (columns : List Value) : Action QueryId := do
  let c ← q.copy
  c.select run [.list columns]
  return c

/-- A query with other columns selected, and without the values of an old select list. -/
def Query.selecting (columns : List Value) (q : Query) : Query :=
  (q.rebind .select []).listing columns

theorem Query.adjusts_selecting {columns : List Value} (h : ∀ v ∈ columns, v.handles = []) :
    Query.Adjusts (·.selecting columns) :=
  (Query.adjusts_rebind .select).comp (Query.adjusts_listing h)

theorem QueryId.ran_select {columns : List Value} (hsome : columns ≠ [])
    (h : ∀ v ∈ columns, v.IsColumn) :
    Ran (c.select run [.list columns]) s () (s.edit c (·.selecting columns)) := by
  have hfilled : columns.isEmpty = false := List.isEmpty_eq_false_iff.2 hsome
  have hflat : ∀ columns, flatten [.list columns] = columns := fun _ => rfl
  have hone : flatten columns = columns := by
    match columns, h with
    | [], _ => rfl
    | [v], h => exact (h v List.mem_cons_self).listed
    | _ :: _ :: _, _ => rfl
  have hselecting : (fun q : Query => q.selecting columns) = fun q =>
      ({ q.rebind .select [] with columns := some [] } : Query).addColumns columns := by
    funext q
    unfold Query.selecting Query.listing
    rw [hfilled]
    rfl
  unfold select addSelect
  simp only [hflat, hfilled, hone, Bool.false_eq_true, if_false]
  exact ran_bind.2 ⟨(), _, ran_modify.2 rfl, (Slot.ran_entries (fun v hv => (h v hv).data) []).2
    (by rw [Store.edit_edit, List.nil_append, hselecting])⟩

/-! ## What is asked after a change -/

section

variable {f f' : Query → Query} {columns : List Value} (h : s.Clonable q)

include h

/-- Columns that are named for a fetch are asked for as those of the query with them. -/
theorem Store.Clonable.listed_named (hdata : ∀ v ∈ columns, v.handles = []) :
    (s.edit q (·.listing columns)).listedSql q [] = s.listedSql q columns :=
  (h.compiled_edit (Query.adjusts_listing hdata)).eq.symm

/-- Changes that are written alike make no difference to what is asked. -/
theorem Store.Clonable.listed_alike (hf : Query.Adjusts f) (hf' : Query.Adjusts f')
    (hsame : ∀ (g : Grammar) (attached : Attached) (query : Query),
      g.selectSql attached (f' query) = g.selectSql attached (f query)) :
    (s.edit q f').listedSql q [] = (s.edit q f).listedSql q [] := by
  have hcompiled := (h.compiled_edit hf').eq
  simp only [hsame] at hcompiled
  exact hcompiled.symm.trans (h.compiled_edit hf).eq

/-- The changed copy asks for the text that the changed query asks for. -/
theorem Store.Clonable.listed_copy (hf : Query.Adjusts f) :
    ((s.withCopy q).edit ((s.placing q).query q) f).listedSql ((s.placing q).query q) [] =
      (s.edit q f).listedSql q [] :=
  (h.compiled_copy hf).eq.symm

theorem Store.Clonable.query_copy_edit (f : Query → Query) :
    ((s.withCopy q).edit ((s.placing q).query q) f).query ((s.placing q).query q) =
      f ((s.withCopy q).query ((s.placing q).query q)) :=
  query_edit_self h.withCopy.lt f

theorem Store.Clonable.connection_edit (hf : Query.Adjusts f) :
    ((s.edit q f).query q).connection = (s.query q).connection := by
  rw [query_edit_self h.lt, hf.connection]

end

theorem Grammar.selectSql_selecting (columns : List Value) (g : Grammar) (attached : Attached)
    (query : Query) : g.selectSql attached (query.selecting columns) =
      g.selectSql attached (query.listing columns) := by
  unfold Query.selecting Query.listing
  split <;> rfl

/-- A limit may be set before or after columns are selected. -/
theorem Query.setLimit_selecting (columns : List Value) (n : Nat) (query : Query) :
    (query.selecting columns).setLimit n = (query.setLimit n).selecting columns := by
  have hunion : (query.selecting columns).isUnion = query.isUnion := by
    unfold Query.selecting Query.listing
    split <;> rfl
  unfold Query.setLimit
  rw [hunion]
  unfold Query.selecting Query.listing
  split <;> split <;> rfl

theorem Query.flatten_rebind_select_iff (query : Query) :
    (query.rebind .select []).bindings.flatten = query.bindings.flatten ↔
      query.bindings.select = [] := by
  constructor
  · intro hsame
    have hlength := congrArg List.length hsame
    rw [Bindings.length_flatten, Bindings.length_flatten] at hlength
    unfold Query.rebind Bindings.set at hlength
    dsimp only [List.length_nil] at hlength
    exact List.length_eq_zero_iff.1 (by omega)
  · intro hnone
    have hset : query.bindings.set .select [] = query.bindings := by
      rw [← hnone]
      rfl
    exact congrArg Bindings.flatten hset

theorem Store.connection_edit (s : Store) (t : QueryId) (f : Query → Query) (c : ConnectionId) :
    (s.edit t f).connection c = s.connection c := rfl

theorem Store.sent_edit (s : Store) (t : QueryId) (f : Query → Query) :
    (s.edit t f).sent = s.sent := rfl

theorem Store.sent_withCopy (s : Store) (q : QueryId) : (s.withCopy q).sent = s.sent := rfl

theorem Query.columns_setLimit (query : Query) (n : Nat) :
    (query.setLimit n).columns = query.columns := by
  unfold Query.setLimit
  split <;> rfl

theorem Query.bindings_setLimit (query : Query) (n : Nat) :
    (query.setLimit n).bindings = query.bindings := by
  unfold Query.setLimit
  split <;> rfl

theorem Query.bindings_selecting (columns : List Value) (query : Query) :
    (query.selecting columns).bindings = (query.rebind .select []).bindings := by
  unfold Query.selecting Query.listing
  split <;> rfl

/-! ## The result -/

section

variable (run : Runner) (h : s.Clonable q) {columns : List Value}

include h

/-- Columns are selected by a copy without a question. -/
theorem Store.Clonable.ran_selected (hsome : columns ≠ []) (hcolumns : ∀ v ∈ columns, v.IsColumn) :
    Ran (q.selected run columns) s ((s.placing q).query q)
      ((s.withCopy q).edit ((s.placing q).query q) (·.selecting columns)) :=
  ran_bind.2 ⟨_, _, h.ran_copy, ran_bind.2 ⟨(), _, QueryId.ran_select hsome hcolumns,
    ran_pure.2 ⟨rfl, rfl⟩⟩⟩

/-- A copy for which columns are selected asks for the text of a fetch with these columns. -/
theorem Store.Clonable.inquiry_selected (hdata : ∀ v ∈ columns, v.handles = []) :
    ((s.withCopy q).edit ((s.placing q).query q) (·.selecting columns)).inquiry
        ((s.placing q).query q) [] =
      (s.inquiry q columns).map
        ({ · with values := ((s.query q).rebind .select []).bindings.flatten }) := by
  have hbindings : (((s.withCopy q).edit ((s.placing q).query q) (·.selecting columns)).query
      ((s.placing q).query q)).bindings = ((s.query q).rebind .select []).bindings := by
    rw [h.query_copy_edit]
    unfold Query.selecting Query.listing Query.rebind
    split <;> exact congrArg (·.set .select []) h.bindings_copy
  rw [← hbindings]
  refine Store.inquiry_eq ?_ ?_
  · rw [h.listed_copy (Query.adjusts_selecting hdata), ← h.listed_named hdata]
    exact h.listed_alike (Query.adjusts_listing hdata) (Query.adjusts_selecting hdata)
      fun g attached => g.selectSql_selecting columns attached
  · rw [h.withCopy.connection_edit (Query.adjusts_selecting hdata), copy_connection h.whole]

theorem Store.Clonable.connection_copy_edit {c : ConnectionId} (t : QueryId) (f : Query → Query)
    (hc : (s.query q).connection = some c) :
    ((s.withCopy q).edit t f).connection c = s.connection c :=
  (Store.connection_edit _ t f c).trans (h.connection_copy hc)

/-- Without values of a select list, getting rows with columns is getting those of a copy that
selects them. -/
theorem Store.Clonable.get_selected (hnone : (s.query q).columns = none)
    (hentries : ∀ v ∈ entries, v.IsEntry) (hunbound : (s.query q).bindings.select = []) :
    Action.Alike (q.get run (.list entries)) s (((s.placing q).query q).get run .null)
      ((s.withCopy q).edit ((s.placing q).query q) (·.selecting (entries.map Value.fetched))) := by
  have hdata := fun v hv => (Value.fetched_columns hentries v hv).data.1
  have hsame := h.inquiry_selected hdata
  rw [(Query.flatten_rebind_select_iff (s.query q)).2 hunbound, ← Store.inquiry_eq rfl rfl] at hsame
  have hasked := (h.withCopy.edit (Query.adjusts_selecting hdata)).inquire_null run
  rw [hsame] at hasked
  exact QueryId.get_same (h.inquire_fetched run hnone hentries) hasked
    (fun i hi => h.connection_copy_edit _ _ (Store.inquiry_ok hi).1)
    ((Store.sent_edit _ _ _).trans (s.sent_withCopy q))

/-- The text of a fetch with columns, after a limit, is that of the copy of a copy that selects
them. -/
theorem Store.Clonable.listed_limited {t : Store} {c : QueryId}
    (ht : t = (s.edit q (·.selecting columns))) (hc : c = (t.placing q).query q)
    (hdata : ∀ v ∈ columns, v.handles = []) :
    ((t.withCopy q).edit c (·.setLimit 1)).listedSql c [] =
      (s.edit q (·.setLimit 1)).listedSql q columns := by
  have hlimit := Query.adjusts_setLimit 1
  have hselect := Query.adjusts_selecting hdata
  have hname := Query.adjusts_listing hdata
  subst ht hc
  rw [(h.edit hselect).listed_copy hlimit, ← (h.edit hlimit).listed_named hdata, Store.edit_edit,
    Store.edit_edit]
  refine h.listed_alike (hlimit.comp hname) (hselect.comp hlimit) fun g attached query => ?_
  rw [Query.setLimit_selecting]
  exact g.selectSql_selecting columns attached (query.setLimit 1)

/-- The same with a limit. -/
theorem Store.Clonable.get_limited {t : Store} {c : QueryId}
    (ht : t = s.edit q (·.selecting (entries.map Value.fetched))) (hc : c = (t.placing q).query q)
    (hnone : (s.query q).columns = none) (hentries : ∀ v ∈ entries, v.IsEntry)
    (hunbound : (s.query q).bindings.select = []) :
    Action.Alike (q.get run (.list entries)) (s.edit q (·.setLimit 1)) (c.get run .null)
      ((t.withCopy q).edit c (·.setLimit 1)) := by
  have hdata := fun v hv => (Value.fetched_columns hentries v hv).data.1
  have hlimit := Query.adjusts_setLimit 1
  have hselect := Query.adjusts_selecting hdata
  have htext := h.listed_limited ht hc hdata
  have hnone' : ((s.edit q (·.setLimit 1)).query q).columns = none := by
    rw [query_edit_self h.lt, Query.columns_setLimit, hnone]
  have hasked := (h.edit hlimit).inquire_fetched run hnone' hentries
  have ht' : t.Clonable q := ht ▸ h.edit hselect
  have hasked' : (c.inquire run .null).runOn ((t.withCopy q).edit c (·.setLimit 1)) =
      (((t.withCopy q).edit c (·.setLimit 1)).inquiry c [], (t.withCopy q).edit c (·.setLimit 1)) :=
    hc ▸ (ht'.withCopy.edit hlimit).inquire_null run
  have hbindings : (((t.withCopy q).edit c (·.setLimit 1)).query c).bindings.flatten =
      ((s.edit q (·.setLimit 1)).query q).bindings.flatten := by
    rw [hc, ht'.query_copy_edit, Query.bindings_setLimit, ht'.bindings_copy, ht,
      query_edit_self h.lt, query_edit_self h.lt, Query.bindings_selecting, Query.bindings_setLimit]
    exact (Query.flatten_rebind_select_iff _).2 hunbound
  have hconnection : ∀ {i}, (s.query q).connection = some i → (t.query q).connection = some i := by
    intro i hi
    rwa [ht, h.connection_edit hselect]
  have hconnection' : (((t.withCopy q).edit c (·.setLimit 1)).query c).connection =
      ((s.edit q (·.setLimit 1)).query q).connection := by
    rw [hc, ht'.withCopy.connection_edit hlimit, copy_connection ht'.whole, ht,
      h.connection_edit hselect, h.connection_edit hlimit]
  have hsame := Store.inquiry_eq htext hconnection'
  rw [hbindings, ← Store.inquiry_eq rfl rfl] at hsame
  rw [hsame] at hasked'
  refine QueryId.get_same hasked hasked' (fun i hi => ?_) ?_
  · have hi := (Store.inquiry_ok hi).1
    rw [h.connection_edit hlimit] at hi
    rw [ht'.connection_copy_edit _ _ (hconnection hi), ht]
    rfl
  · rw [Store.sent_edit, Store.sent_withCopy, ht, Store.sent_edit, Store.sent_edit]

/-- The first row that a query has with columns is that of its copy that selects them. -/
theorem Store.Clonable.first_selected {s0 t : Store} {q0 : QueryId} (hcopy : Ran q0.copy s0 q s)
    (ht : t = s.edit q (·.selecting (entries.map Value.fetched)))
    (hnone : (s.query q).columns = none) (hentries : ∀ v ∈ entries, v.IsEntry)
    (hunbound : (s.query q).bindings.select = []) :
    Action.Alike (q0.first run (.list entries)) s0 (q.first run .null) t := by
  have hdata := fun v hv => (Value.fetched_columns hentries v hv).data.1
  have ht' : t.Clonable q := ht ▸ h.edit (Query.adjusts_selecting hdata)
  exact (h.get_limited run ht rfl hnone hentries hunbound).mapped
    (QueryId.first_runOn hcopy QueryId.ran_limit_one)
    (QueryId.first_runOn ht'.ran_copy QueryId.ran_limit_one)

end

/-- Fetching the rows of a query without a select list asks for the text of its copy that selects
the same entries, maps as the names that they display.  The values differ by those that the query
has for a select list.  If there are none, the rows are the same, and the first row is. -/
theorem QueryId.get_selects (run : Runner) (h : s.Clonable q) (hnone : (s.query q).columns = none)
    (hsome : entries ≠ []) (hentries : ∀ v ∈ entries, v.IsEntry) :
    ∃ c t asked, Ran (q.selected run (entries.map Value.fetched)) s c t ∧
      (q.inquire run (.list entries)).runOn s = (asked, s) ∧
      (c.inquire run .null).runOn t =
        (asked.map ({ · with values := ((s.query q).rebind .select []).bindings.flatten }), t) ∧
      (∀ i, asked = .ok i → (((s.query q).rebind .select []).bindings.flatten = i.values ↔
        (s.query q).bindings.select = [])) ∧
      ((s.query q).bindings.select = [] →
        Action.Alike (q.get run (.list entries)) s (c.get run .null) t ∧
        Action.Alike (q.first run (.list entries)) s (c.first run .null) t) ∧
      ((∀ v ∈ entries, ∀ m, v ≠ .map m) → entries.map Value.fetched = entries) := by
  have hcolumns := Value.fetched_columns hentries
  have hdata := fun v hv => (hcolumns v hv).data.1
  refine ⟨_, _, _, h.ran_selected run (mt List.map_eq_nil_iff.1 hsome) hcolumns,
    h.inquire_fetched run hnone hentries, ?_, fun i hi => ?_,
    fun hunbound => ⟨h.get_selected run hnone hentries hunbound,
      h.withCopy.first_selected run h.ran_copy rfl (h.columns_copy hnone) hentries
        (h.bindings_copy.symm ▸ hunbound)⟩, fun hplain => ?_⟩
  · rw [← h.inquiry_selected hdata]
    exact (h.withCopy.edit (Query.adjusts_selecting hdata)).inquire_null run
  · rw [(Store.inquiry_ok hi).2]
    exact Query.flatten_rebind_select_iff _
  · exact (List.map_congr_left fun v hv => Value.fetched_same (hplain v hv)).trans (List.map_id _)

end

/-- A table is fetched by one of its columns, and a row more. -/
theorem QueryId.get_selects_name :
    let s := Store.answering (Query.ofTable "t") []
    ∃ c t, Ran (QueryId.selected Runner.idle ⟨0⟩ [.text "name"]) s c t ∧
      Action.Alike (QueryId.get Runner.idle ⟨0⟩ (.list [.text "name"])) s
        (c.get Runner.idle .null) t ∧
      ((c.get Runner.idle .null).runOn t).2.sentTexts = ["select \"name\" from \"t\""] := by
  intro s
  have h : s.Clonable ⟨0⟩ := .answering [] (by decide) (by decide)
  have hentries : ∀ v ∈ [Value.text "name"], v.IsEntry := List.forall_mem_singleton.2 trivial
  obtain ⟨c, t, _, hran, _, _, _, halike, _⟩ :=
    QueryId.get_selects Runner.idle h rfl (List.cons_ne_nil _ _) hentries
  refine ⟨c, t, hran, (halike rfl).1, ?_⟩
  rw [Store.sentTexts, (halike rfl).1.1]
  decide +kernel

/-- A column under a name is selected, and fetched as a column that is called like the map. -/
theorem QueryId.get_not_selects_map :
    let s := Store.answering (Query.ofTable "t") []
    let column := Value.map [(.text "n", .text "name")]
    let selects := QueryId.selected Runner.idle ⟨0⟩ [column] >>= fun c => c.get Runner.idle .null
    ((QueryId.get Runner.idle ⟨0⟩ (.list [column])).runOn s).2.sentTexts =
        ["select \"\x7b'n': 'name'\x7d\" from \"t\""] ∧
      (selects.runOn s).2.sentTexts = ["select \"name\" as \"n\" from \"t\""] ∧
      ¬Action.Alike (QueryId.get Runner.idle ⟨0⟩ (.list [column])) s selects s := by
  intro s column selects
  have hfetched : ((QueryId.get Runner.idle ⟨0⟩ (.list [column])).runOn s).2.sentTexts =
      ["select \"\x7b'n': 'name'\x7d\" from \"t\""] := by decide +kernel
  have hselected : (selects.runOn s).2.sentTexts = ["select \"name\" as \"n\" from \"t\""] := by
    decide +kernel
  refine ⟨hfetched, hselected, fun halike => ?_⟩
  rw [Store.sentTexts, halike.1] at hselected
  rw [Store.sentTexts, hselected] at hfetched
  exact absurd hfetched (by decide)

end FluentSql
