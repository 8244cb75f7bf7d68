import FluentSql.Store.Reference

/-!
# Renamed values, clauses and queries

A renaming puts other objects in the place of those that a value, a clause or a
query refers to.  Nothing else changes, and what takes the place of objects
that do not occur does not matter.

* `Value.handles_substitute` and `Query.handles_rename` are the objects that
  occur afterwards.
* `Value.substitute_congr` and `Query.rename_congr` compare two renamings that
  agree on what occurs.
* `Query.rename_same` is a renaming under which all that occurs stays in its
  place.
-/

namespace FluentSql

/-! ## Values -/

namespace Value

mutual

/-- The objects in a value in which references were replaced. -/
theorem handles_substitute (f : Handle → Value) (v : Value) :
    (v.substitute f).handles = v.handles.flatMap fun h => (f h).handles := by
  cases v with
  | list items => exact handlesOfAll_substitute f items
  | tuple items => exact handlesOfAll_substitute f items
  | map entries => exact handlesOfEntries_substitute f entries
  | raw value => exact handles_substitute f value
  | object handle => exact (List.append_nil _).symm
  | _ => rfl

theorem handlesOfAll_substitute (f : Handle → Value) (vs : List Value) :
    handlesOfAll (substituteAll f vs) = (handlesOfAll vs).flatMap fun h => (f h).handles := by
  cases vs with
  | nil => rfl
  | cons v vs =>
    rw [substituteAll, handlesOfAll, handlesOfAll, List.flatMap_append, handles_substitute f v,
      handlesOfAll_substitute f vs]

theorem handlesOfEntries_substitute (f : Handle → Value) (entries : List (Value × Value)) :
    handlesOfEntries (substituteEntries f entries) =
      (handlesOfEntries entries).flatMap fun h => (f h).handles := by
  cases entries with
  | nil => rfl
  | cons entry entries =>
    rw [substituteEntries, handlesOfEntries, handlesOfEntries, List.flatMap_append,
      List.flatMap_append, handles_substitute f entry.1, handles_substitute f entry.2,
      handlesOfEntries_substitute f entries]

end

mutual

/-- Only what takes the place of the objects in a value matters. -/
theorem substitute_congr {f g : Handle → Value} (v : Value) (h : ∀ x ∈ v.handles, f x = g x) :
    v.substitute f = v.substitute g := by
  cases v with
  | list items => exact congrArg list (substituteAll_congr items h)
  | tuple items => exact congrArg tuple (substituteAll_congr items h)
  | map entries => exact congrArg map (substituteEntries_congr entries h)
  | raw value => exact congrArg raw (substitute_congr value h)
  | object handle => exact h handle List.mem_cons_self
  | _ => rfl

theorem substituteAll_congr {f g : Handle → Value} (vs : List Value)
    (h : ∀ x ∈ handlesOfAll vs, f x = g x) : substituteAll f vs = substituteAll g vs := by
  cases vs with
  | nil => rfl
  | cons v vs =>
    rw [substituteAll, substituteAll, substitute_congr v fun x hx => h x (List.mem_append_left _ hx),
      substituteAll_congr vs fun x hx => h x (List.mem_append_right _ hx)]

theorem substituteEntries_congr {f g : Handle → Value} (entries : List (Value × Value))
    (h : ∀ x ∈ handlesOfEntries entries, f x = g x) :
    substituteEntries f entries = substituteEntries g entries := by
  cases entries with
  | nil => rfl
  | cons entry entries =>
    have hhead := fun x hx => h x (List.mem_append_left _ hx)
    rw [substituteEntries, substituteEntries,
      substitute_congr entry.1 fun x hx => hhead x (List.mem_append_left _ hx),
      substitute_congr entry.2 fun x hx => hhead x (List.mem_append_right _ hx),
      substituteEntries_congr entries fun x hx => h x (List.mem_append_right _ hx)]

end

mutual

/-- A value in which every object stands in its own place. -/
theorem substitute_object (v : Value) : v.substitute .object = v := by
  cases v with
  | list items => exact congrArg list (substituteAll_object items)
  | tuple items => exact congrArg tuple (substituteAll_object items)
  | map entries => exact congrArg map (substituteEntries_object entries)
  | raw value => exact congrArg raw (substitute_object value)
  | _ => rfl

theorem substituteAll_object (vs : List Value) : substituteAll .object vs = vs := by
  cases vs with
  | nil => rfl
  | cons v vs => rw [substituteAll, substitute_object v, substituteAll_object vs]

theorem substituteEntries_object (entries : List (Value × Value)) :
    substituteEntries .object entries = entries := by
  cases entries with
  | nil => rfl
  | cons entry entries =>
    rw [substituteEntries, substitute_object entry.1, substitute_object entry.2,
      substituteEntries_object entries]

end

theorem handlesOfAll_eq_flatMap (vs : List Value) : handlesOfAll vs = vs.flatMap handles := by
  induction vs with
  | nil => rfl
  | cons v vs ih => rw [handlesOfAll, ih, List.flatMap_cons]

theorem substituteAll_eq_map (f : Handle → Value) (vs : List Value) :
    substituteAll f vs = vs.map (substitute f) := by
  induction vs with
  | nil => rfl
  | cons v vs ih => rw [substituteAll, ih, List.map_cons]

end Value

/-! ## The objects that occur afterwards -/

namespace Renaming

/-- The objects that take the place of an object. -/
def moved (r : Renaming) (h : Handle) : List Handle :=
  (r.handle h).handles

variable (r : Renaming)

theorem handles_value (v : Value) : (r.value v).handles = v.handles.flatMap r.moved :=
  Value.handles_substitute r.handle v

theorem handles_values (vs : List Value) :
    Value.handlesOfAll (vs.map r.value) = (Value.handlesOfAll vs).flatMap r.moved := by
  have hvalues : vs.map r.value = Value.substituteAll r.handle vs :=
    (Value.substituteAll_eq_map r.handle vs).symm
  rw [hvalues]
  exact Value.handlesOfAll_substitute r.handle vs

theorem handles_queries (ids : List QueryId) :
    (ids.map r.query).map Handle.query = (ids.map Handle.query).flatMap r.moved := by
  rw [List.map_map, List.flatMap_map]
  exact List.map_eq_flatMap

theorem handles_compiler (c : Compiler) : [(r.compiler c).handle] = r.moved c.handle := by
  cases c <;> rfl

end Renaming

/-- Clauses whose objects are moved one by one. -/
private theorem flatMap_moved {α : Type} (r : Renaming) (handles : α → List Handle)
    (rename : α → α) (h : ∀ x, handles (rename x) = (handles x).flatMap r.moved) (xs : List α) :
    (xs.map rename).flatMap handles = (xs.flatMap handles).flatMap r.moved := by
  rw [List.flatMap_map, List.flatMap_assoc]
  exact congrArg (xs.flatMap ·) (funext h)

theorem Where.handles_rename (r : Renaming) (body : Where) :
    (body.rename r).handles = body.handles.flatMap r.moved := by
  cases body with
  | «exists» query negated =>
    cases query with
    | none => rfl
    | some query => exact r.handles_queries [query]
  | nested query => exact r.handles_queries [query]
  | sub column operator query =>
    simp only [Where.rename, Where.handles, List.flatMap_append, r.handles_value]
    exact congrArg _ (r.handles_queries [query])
  | _ =>
    simp only [Where.rename, Where.handles, List.flatMap_append, r.handles_value, r.handles_values]

theorem Having.handles_rename (r : Renaming) (body : Having) :
    (body.rename r).handles = body.handles.flatMap r.moved := by
  cases body <;>
    simp only [Having.rename, Having.handles, List.flatMap_append, r.handles_value,
      r.handles_values]

theorem Order.handles_rename (r : Renaming) (order : Order) :
    (order.rename r).handles = order.handles.flatMap r.moved := by
  cases order <;> exact r.handles_value _

theorem QueryKind.handles_rename (r : Renaming) (kind : QueryKind) :
    (kind.rename r).handles = kind.handles.flatMap r.moved := by
  cases kind with
  | statement => rfl
  | join type table =>
    simp only [QueryKind.rename, QueryKind.handles, List.flatMap_append, r.handles_value]

theorem Bindings.mem_flatten {bindings : Bindings} {group : BindingGroup} {v : Value}
    (h : v ∈ bindings.get group) : v ∈ bindings.flatten := by
  refine List.mem_flatMap.2 ⟨group, ?_, h⟩
  cases group <;> decide

theorem Bindings.get_map (bindings : Bindings) (f : Value → Value) (group : BindingGroup) :
    (bindings.map f).get group = (bindings.get group).map f := by
  cases group <;> rfl

theorem Bindings.flatten_map (bindings : Bindings) (f : Value → Value) :
    (bindings.map f).flatten = bindings.flatten.map f := by
  simp only [Bindings.flatten, Bindings.flattenGroups, BindingGroup.all, List.flatMap_cons,
    List.flatMap_nil, Bindings.get_map, List.map_append, List.map_nil]

/-- The objects that a query refers to after its own were moved. -/
theorem Query.handles_rename (r : Renaming) (q : Query) :
    (q.rename r).handles = q.handles.flatMap r.moved := by
  have hconnection : ∀ c : Option ConnectionId, (c.map r.connection).toList.map Handle.connection =
      (c.toList.map Handle.connection).flatMap r.moved := by
    rintro (_ | c) <;> rfl
  have haggregate : ∀ a : Option Aggregate,
      (a.map fun a => (⟨r.value a.function, a.columns.map r.value⟩ : Aggregate)).toList.flatMap
          (fun a => a.function.handles ++ Value.handlesOfAll a.columns) =
        (a.toList.flatMap fun a => a.function.handles ++ Value.handlesOfAll a.columns).flatMap
          r.moved := by
    rintro (_ | a)
    · rfl
    · simp only [Option.map_some, Option.toList_some, List.flatMap_singleton, r.handles_value,
        r.handles_values, List.flatMap_append]
  have hcolumns : ∀ vs : Option (List Value),
      Value.handlesOfAll ((vs.map (·.map r.value)).getD []) =
        (Value.handlesOfAll (vs.getD [])).flatMap r.moved := by
    rintro (_ | vs)
    · rfl
    · exact r.handles_values vs
  have hmember : ∀ member : Option QueryId, (member.map r.query).toList.map Handle.query =
      (member.toList.map Handle.query).flatMap r.moved := by
    rintro (_ | member)
    · rfl
    · exact r.handles_queries [member]
  have hwheres := flatMap_moved r (fun c : Condition => c.boolean.handles ++ c.body.handles)
    (fun c => ⟨r.value c.boolean, c.body.rename r⟩) fun c => by
      rw [r.handles_value, Where.handles_rename, List.flatMap_append]
  have hhavings := flatMap_moved r
    (fun c : GroupCondition => c.boolean.handles ++ c.body.handles)
    (fun c => ⟨r.value c.boolean, c.body.rename r⟩) fun c => by
      rw [r.handles_value, Having.handles_rename, List.flatMap_append]
  have hunions := flatMap_moved r
    (fun u : Union => u.member.toList.map .query ++ u.keepsAll.handles)
    (fun u => ⟨u.member.map r.query, r.value u.keepsAll⟩) fun u => by
      rw [hmember, r.handles_value, List.flatMap_append]
  unfold Query.handles Query.rename
  simp only [List.flatMap_append, QueryKind.handles_rename, hconnection, haggregate, hcolumns,
    Bindings.flatten_map, r.handles_compiler, r.handles_value, r.handles_values,
    r.handles_queries, List.flatMap_singleton, flatMap_moved r _ _ (Order.handles_rename r), hwheres,
    hhavings, hunions]

/-! ## Renamings that agree -/

namespace Renaming

/-- Two renamings put the same in the place of some objects. -/
def Agree (r r' : Renaming) (handles : List Handle) : Prop :=
  ∀ x ∈ handles, r.handle x = r'.handle x

variable {r r' : Renaming}

theorem agree_append {xs ys : List Handle} :
    r.Agree r' (xs ++ ys) ↔ r.Agree r' xs ∧ r.Agree r' ys :=
  List.forall_mem_append

theorem agree_flatMap {α : Type} {xs : List α} {f : α → List Handle} :
    r.Agree r' (xs.flatMap f) ↔ ∀ x ∈ xs, r.Agree r' (f x) := by
  simp only [Agree, List.mem_flatMap]
  exact ⟨fun h x hx y hy => h y ⟨x, hx, hy⟩, fun h y ⟨x, hx, hy⟩ => h x hx y hy⟩

theorem Agree.value {v : Value} (h : r.Agree r' v.handles) : r.value v = r'.value v :=
  Value.substitute_congr v h

theorem Agree.values {vs : List Value} (h : r.Agree r' (Value.handlesOfAll vs)) :
    vs.map r.value = vs.map r'.value := by
  have hvalues := Value.substituteAll_congr vs h
  rwa [Value.substituteAll_eq_map, Value.substituteAll_eq_map] at hvalues

theorem Agree.query {id : QueryId} (h : r.Agree r' [.query id]) : r.query id = r'.query id := by
  have hid := h (.query id) List.mem_cons_self
  exact Handle.query.inj (Value.object.inj hid)

theorem Agree.queries {ids : List QueryId} (h : r.Agree r' (ids.map .query)) :
    ids.map r.query = ids.map r'.query := by
  refine List.map_congr_left fun id hid => Agree.query ?_
  exact List.forall_mem_singleton.2 (h _ (List.mem_map_of_mem hid))

theorem Agree.member {member : Option QueryId} (h : r.Agree r' (member.toList.map .query)) :
    member.map r.query = member.map r'.query := by
  cases member with
  | none => rfl
  | some id => exact congrArg some (Agree.query h)

theorem Agree.compiler {c : Compiler} (h : r.Agree r' [c.handle]) :
    r.compiler c = r'.compiler c := by
  have hc := h c.handle List.mem_cons_self
  cases c with
  | grammar id => exact congrArg Compiler.grammar (Handle.grammar.inj (Value.object.inj hc))
  | connection id => exact congrArg Compiler.connection (Handle.connection.inj (Value.object.inj hc))
  | query id => exact congrArg Compiler.query (Handle.query.inj (Value.object.inj hc))

theorem Agree.where {body : Where} (h : r.Agree r' body.handles) :
    body.rename r = body.rename r' := by
  cases body with
  | raw sql => exact congrArg Where.raw (Agree.value h)
  | basic column operator value =>
    obtain ⟨hcolumn, hvalue⟩ := agree_append.1 h
    rw [Where.rename, Where.rename, hcolumn.value, hvalue.value]
  | among column values negated =>
    obtain ⟨hcolumn, hvalues⟩ := agree_append.1 h
    rw [Where.rename, Where.rename, hcolumn.value, hvalues.values]
  | amongIntegers column values negated =>
    rw [Where.rename, Where.rename, Agree.value h]
  | null column negated => rw [Where.rename, Where.rename, Agree.value h]
  | between column values negated =>
    obtain ⟨hcolumn, hvalues⟩ := agree_append.1 h
    rw [Where.rename, Where.rename, hcolumn.value, hvalues.values]
  | datePart part column operator value =>
    obtain ⟨hcolumn, hvalue⟩ := agree_append.1 h
    rw [Where.rename, Where.rename, hcolumn.value, hvalue.value]
  | columnPair first operator second =>
    obtain ⟨hfirst, hsecond⟩ := agree_append.1 h
    rw [Where.rename, Where.rename, hfirst.value, hsecond.value]
  | nested query => exact congrArg Where.nested (Agree.query h)
  | sub column operator query =>
    obtain ⟨hhead, hquery⟩ := agree_append.1 h
    obtain ⟨hcolumn, hoperator⟩ := agree_append.1 hhead
    rw [Where.rename, Where.rename, hcolumn.value, hoperator.value, hquery.query]
  | «exists» query negated => rw [Where.rename, Where.rename, Agree.member h]
  | rowValues columns operator values =>
    obtain ⟨hhead, hvalues⟩ := agree_append.1 h
    obtain ⟨hcolumns, hoperator⟩ := agree_append.1 hhead
    rw [Where.rename, Where.rename, hcolumns.values, hoperator.value, hvalues.values]
  | jsonContains column value negated =>
    obtain ⟨hcolumn, hvalue⟩ := agree_append.1 h
    rw [Where.rename, Where.rename, hcolumn.value, hvalue.value]
  | jsonLength column operator value =>
    obtain ⟨hcolumn, hvalue⟩ := agree_append.1 h
    rw [Where.rename, Where.rename, hcolumn.value, hvalue.value]

theorem Agree.having {body : Having} (h : r.Agree r' body.handles) :
    body.rename r = body.rename r' := by
  cases body with
  | basic column operator value =>
    obtain ⟨hcolumn, hvalue⟩ := agree_append.1 h
    rw [Having.rename, Having.rename, hcolumn.value, hvalue.value]
  | raw sql => exact congrArg Having.raw (Agree.value h)
  | between column values negated =>
    obtain ⟨hcolumn, hvalues⟩ := agree_append.1 h
    rw [Having.rename, Having.rename, hcolumn.value, hvalues.values]
  | null column negated => rw [Having.rename, Having.rename, Agree.value h]

theorem Agree.orders {orders : List Order} (h : r.Agree r' (orders.flatMap Order.handles)) :
    orders.map (Order.rename r) = orders.map (Order.rename r') := by
  refine List.map_congr_left fun order horder => ?_
  have hhandles := agree_flatMap.1 h order horder
  cases order with
  | byColumn column direction => rw [Order.rename, Order.rename, Agree.value hhandles]
  | raw sql => rw [Order.rename, Order.rename, Agree.value hhandles]

theorem Agree.kind {kind : QueryKind} (h : r.Agree r' kind.handles) :
    kind.rename r = kind.rename r' := by
  cases kind with
  | statement => rfl
  | join type table =>
    obtain ⟨htype, htable⟩ := agree_append.1 h
    rw [QueryKind.rename, QueryKind.rename, htype.value, htable.value]

theorem Agree.connection {c : Option ConnectionId} (h : r.Agree r' (c.toList.map .connection)) :
    c.map r.connection = c.map r'.connection := by
  cases c with
  | none => rfl
  | some c =>
    have hc := h (.connection c) List.mem_cons_self
    exact congrArg some (Handle.connection.inj (Value.object.inj hc))

theorem Agree.bindings {bindings : Bindings}
    (h : r.Agree r' (Value.handlesOfAll bindings.flatten)) :
    bindings.map r.value = bindings.map r'.value := by
  rw [Value.handlesOfAll_eq_flatMap, agree_flatMap] at h
  have hgroup : ∀ group, (bindings.get group).map r.value = (bindings.get group).map r'.value :=
    fun group => List.map_congr_left fun v hv => (h v (Bindings.mem_flatten hv)).value
  simp only [Bindings.map, hgroup]

end Renaming

/-- Only what takes the place of the objects that a query refers to matters. -/
theorem Query.rename_congr {r r' : Renaming} {q : Query} (h : r.Agree r' q.handles) :
    q.rename r = q.rename r' := by
  simp only [Query.handles, Renaming.agree_append] at h
  obtain ⟨⟨⟨⟨⟨⟨⟨⟨⟨⟨⟨⟨⟨⟨kind, connection⟩, grammar⟩, bindings⟩, aggregate⟩, columns⟩, source⟩,
    joins⟩, wheres⟩, groups⟩, havings⟩, orders⟩, unions⟩, unionOrders⟩, lock⟩ := h
  have haggregate : (q.aggregate.map fun a => (⟨r.value a.function, a.columns.map r.value⟩ :
      Aggregate)) = q.aggregate.map fun a => ⟨r'.value a.function, a.columns.map r'.value⟩ := by
    refine Option.map_congr fun a ha => ?_
    have ha := Renaming.agree_flatMap.1 aggregate a (Option.mem_toList.2 ha)
    obtain ⟨hfunction, hcolumns⟩ := Renaming.agree_append.1 ha
    rw [hfunction.value, hcolumns.values]
  have hcolumns : q.columns.map (·.map r.value) = q.columns.map (·.map r'.value) := by
    refine Option.map_congr fun vs hvs => ?_
    rw [Option.mem_def.1 hvs] at columns
    exact Renaming.Agree.values columns
  have hwheres : (q.wheres.map fun c => (⟨r.value c.boolean, c.body.rename r⟩ : Condition)) =
      q.wheres.map fun c => ⟨r'.value c.boolean, c.body.rename r'⟩ := by
    refine List.map_congr_left fun c hc => ?_
    obtain ⟨hboolean, hbody⟩ := Renaming.agree_append.1 (Renaming.agree_flatMap.1 wheres c hc)
    rw [hboolean.value, hbody.where]
  have hhavings : (q.havings.map fun c => (⟨r.value c.boolean, c.body.rename r⟩ :
      GroupCondition)) = q.havings.map fun c => ⟨r'.value c.boolean, c.body.rename r'⟩ := by
    refine List.map_congr_left fun c hc => ?_
    obtain ⟨hboolean, hbody⟩ := Renaming.agree_append.1 (Renaming.agree_flatMap.1 havings c hc)
    rw [hboolean.value, hbody.having]
  have hunions : (q.unions.map fun u => (⟨u.member.map r.query, r.value u.keepsAll⟩ : Union)) =
      q.unions.map fun u => ⟨u.member.map r'.query, r'.value u.keepsAll⟩ := by
    refine List.map_congr_left fun u hu => ?_
    obtain ⟨hmember, hkeeps⟩ := Renaming.agree_append.1 (Renaming.agree_flatMap.1 unions u hu)
    rw [hmember.member, hkeeps.value]
  unfold Query.rename
  rw [kind.kind, connection.connection, grammar.compiler, bindings.bindings, haggregate, hcolumns,
    source.value, joins.queries, hwheres, groups.values, hhavings, orders.orders, hunions,
    unionOrders.orders, lock.value]

/-! ## Objects in their own places -/

theorem Renaming.value_same (v : Value) : Renaming.value {} v = v := by
  have hhandle : Renaming.handle {} = Value.object := by
    funext h
    cases h <;> rfl
  rw [Renaming.value, hhandle, Value.substitute_object]

theorem Renaming.values_same (vs : List Value) : vs.map (Renaming.value {}) = vs :=
  (List.map_congr_left fun v _ => Renaming.value_same v).trans (List.map_id vs)

theorem Where.rename_same (body : Where) : body.rename {} = body := by
  cases body with
  | «exists» query negated => cases query <;> rfl
  | _ => simp only [Where.rename, Renaming.value_same, Renaming.values_same, id]

theorem Having.rename_same (body : Having) : body.rename {} = body := by
  cases body <;> simp only [Having.rename, Renaming.value_same, Renaming.values_same]

theorem Order.rename_same (order : Order) : order.rename {} = order := by
  cases order <;> simp only [Order.rename, Renaming.value_same]

theorem Bindings.map_same (bindings : Bindings) : bindings.map (Renaming.value {}) = bindings := by
  simp only [Bindings.map, Renaming.values_same]
  cases bindings
  rfl

/-- A renaming that puts everything in its own place changes no query. -/
theorem Query.rename_same (q : Query) : q.rename {} = q := by
  have hkind : q.kind.rename {} = q.kind := by
    cases q.kind with
    | statement => rfl
    | join type table => rw [QueryKind.rename, Renaming.value_same, Renaming.value_same]
  have hconnection : q.connection.map (Renaming.connection {}) = q.connection := Option.map_id'
  have hgrammar : Renaming.compiler {} q.grammar = q.grammar := by
    cases q.grammar <;> rfl
  have haggregate : (q.aggregate.map fun a => (⟨Renaming.value {} a.function,
      a.columns.map (Renaming.value {})⟩ : Aggregate)) = q.aggregate := by
    simp only [Renaming.value_same, Renaming.values_same]
    exact Option.map_id'
  have hcolumns : q.columns.map (·.map (Renaming.value {})) = q.columns := by
    simp only [Renaming.values_same]
    exact Option.map_id'
  have hjoins : q.joins.map (Renaming.query {}) = q.joins := List.map_id' _
  have hwheres : (q.wheres.map fun c => (⟨Renaming.value {} c.boolean, c.body.rename {}⟩ :
      Condition)) = q.wheres := by
    simp only [Renaming.value_same, Where.rename_same]
    exact List.map_id' _
  have hhavings : (q.havings.map fun c => (⟨Renaming.value {} c.boolean, c.body.rename {}⟩ :
      GroupCondition)) = q.havings := by
    simp only [Renaming.value_same, Having.rename_same]
    exact List.map_id' _
  have horders : ∀ orders : List Order, orders.map (Order.rename {}) = orders := fun orders =>
    (List.map_congr_left fun order _ => order.rename_same).trans (List.map_id orders)
  have hunions : (q.unions.map fun u => (⟨u.member.map (Renaming.query {}),
      Renaming.value {} u.keepsAll⟩ : Union)) = q.unions := by
    refine (List.map_congr_left fun u _ => ?_).trans (List.map_id _)
    have hmember : u.member.map (Renaming.query {}) = u.member := Option.map_id'
    rw [hmember, Renaming.value_same]
    rfl
  unfold Query.rename
  rw [hkind, hconnection, hgrammar, q.bindings.map_same, haggregate, hcolumns, Renaming.value_same,
    hjoins, hwheres, Renaming.values_same, hhavings, horders, hunions, horders,
    Renaming.value_same]

/-- A renaming that puts what a query refers to in its own place does not change the query. -/
theorem Query.rename_of_agree {r : Renaming} {q : Query} (h : r.Agree {} q.handles) :
    q.rename r = q :=
  (Query.rename_congr h).trans q.rename_same

end FluentSql
