import FluentSql.Compile.Select
import FluentSql.Proofs.References

/-!
# Compilations that ask nothing

Compiling may meet a query where a text is due.  It then stops to ask the query
for something that only an extension can answer.  Where there is no such
extension, compiling never stops for that reason.

* `AsksNothing` says so of one computation.
* `Oracle.Silent` is about queries that never answer.
* `Grammar.wrapText_asksNothing` and the lemmas after it are the parts of a
  statement that attached queries have no part in.
* `Grammar.components_eq` lists the components of a select statement.
-/

namespace FluentSql

open Name

/-! ## Computations that ask nothing -/

/-- A computation that does not stop to ask a query for something. -/
def AsksNothing {α : Type} (r : Except Failure α) : Prop :=
  ∀ id request, r ≠ .error (.unanswered id request)

theorem asksNothing_ok {α : Type} (a : α) : AsksNothing (.ok a : Except Failure α) :=
  fun _ _ h => nomatch h

theorem AsksNothing.bind {α β : Type} {r : Except Failure α} {f : α → Except Failure β}
    (hr : AsksNothing r) (hf : ∀ a, r = .ok a → AsksNothing (f a)) : AsksNothing (r >>= f) := by
  intro id request h
  cases r with
  | error e => exact hr id request (congrArg _ (Except.error.inj h))
  | ok a => exact hf a rfl id request h

theorem AsksNothing.map {α β : Type} {r : Except Failure α} (hr : AsksNothing r) (f : α → β) :
    AsksNothing (r.map f) := by
  intro id request h
  cases r with
  | error e => exact hr id request (congrArg _ (Except.error.inj h))
  | ok a => exact nomatch h

/-- A value of the wrong kind is no question. -/
theorem value_ne_unanswered (fault : ValueFault) (id : QueryId) (request : Request) :
    Failure.value fault ≠ .unanswered id request :=
  fun h => nomatch h

theorem unsupported_ne_unanswered (feature : Feature) (id : QueryId) (request : Request) :
    Failure.unsupported feature ≠ .unanswered id request :=
  fun h => nomatch h

theorem asksNothing_value {α : Type} (fault : ValueFault) :
    AsksNothing (.error (.value fault) : Except Failure α) :=
  fun id request h => value_ne_unanswered fault id request (Except.error.inj h)

/-! ## Names -/

private theorem before_asksNothing (tablePrefix : TablePrefix) (cs : List Char) :
    AsksNothing (tablePrefix.before cs) := by
  intro id request h
  cases tablePrefix with
  | none => exact nomatch h
  | some p => exact nomatch h

private theorem wrapSegments_asksNothing {dialect : Dialect}
    {wrapTable : List Char → Except Failure (List Char)} (h : ∀ cs, AsksNothing (wrapTable cs))
    (segments : List (List Char)) : AsksNothing (wrapSegments dialect wrapTable segments) := by
  unfold wrapSegments
  split
  · exact (h _).bind fun _ _ => asksNothing_ok _
  · exact asksNothing_ok _

theorem Name.fieldAndPath_asksNothing {wrap : List Char → Except Failure (List Char)}
    (h : ∀ cs, AsksNothing (wrap cs)) (cs : List Char) : AsksNothing (fieldAndPath wrap cs) := by
  unfold fieldAndPath
  split
  · exact (h _).bind fun _ _ => asksNothing_ok _
  · exact (h _).bind fun _ _ => asksNothing_ok _

private theorem wrapSelector_asksNothing {dialect : Dialect}
    {wrap wrapTable : List Char → Except Failure (List Char)} (h : ∀ cs, AsksNothing (wrap cs))
    (htable : ∀ cs, AsksNothing (wrapTable cs)) (cs : List Char) :
    AsksNothing (wrapSelector dialect wrap wrapTable cs) := by
  unfold wrapSelector
  split
  · exact fun _ _ h => nomatch h
  · exact (fieldAndPath_asksNothing h cs).bind fun _ _ => asksNothing_ok _
  · exact (fieldAndPath_asksNothing h cs).bind fun _ _ => asksNothing_ok _
  · split
    · exact (wrapSegments_asksNothing htable _).bind fun _ _ => asksNothing_ok _
    · exact (wrapSegments_asksNothing htable _).bind fun _ _ => fun _ _ h => nomatch h

/-- Quoting a reference asks nothing. -/
theorem Name.wrapFrom_asksNothing (dialect : Dialect) (tablePrefix : TablePrefix) (fuel : Nat)
    (aliasToo : Bool) (cs : List Char) :
    AsksNothing (wrapFrom dialect tablePrefix fuel aliasToo cs) := by
  induction fuel generalizing aliasToo cs with
  | zero => exact fun _ _ h => nomatch h
  | succ fuel ih =>
    have htable : ∀ table, AsksNothing
        (do wrapFrom dialect tablePrefix fuel true (← tablePrefix.before table)) := fun table =>
      (before_asksNothing tablePrefix table).bind fun _ _ => ih true _
    rw [wrapFrom_succ]
    split
    · dsimp only
      split
      · exact (before_asksNothing _ _).bind fun _ _ => (ih _ _).bind fun _ _ => asksNothing_ok _
      · exact (asksNothing_ok _).bind fun _ _ => (ih _ _).bind fun _ _ => asksNothing_ok _
    · split
      · exact wrapSelector_asksNothing (ih false) htable cs
      · exact wrapSegments_asksNothing htable _

theorem Grammar.wrapText_asksNothing (g : Grammar) (aliasToo : Bool) (s : String) :
    AsksNothing (g.wrapText aliasToo s) :=
  (wrapFrom_asksNothing _ _ _ _ _).map _

/-! ## Values -/

section

variable {α β : Type}

theorem asksNothing_unsupported (feature : Feature) :
    AsksNothing (.error (.unsupported feature) : Except Failure α) :=
  fun id request h => unsupported_ne_unanswered feature id request (Except.error.inj h)

theorem AsksNothing.mapM {f : α → Except Failure β} {xs : List α}
    (h : ∀ x ∈ xs, AsksNothing (f x)) : AsksNothing (xs.mapM f) := by
  induction xs with
  | nil => exact asksNothing_ok _
  | cons x xs ih =>
    rw [List.mapM_cons]
    refine (h x List.mem_cons_self).bind fun _ _ => ?_
    exact (ih fun y hy => h y (List.mem_cons_of_mem x hy)).bind fun _ _ => asksNothing_ok _

end

theorem Value.asText_asksNothing (v : Value) : AsksNothing v.asText := by
  cases v with
  | text s => exact asksNothing_ok s
  | _ => exact asksNothing_value _

theorem joinTexts_asksNothing (separator : String) (vs : List Value) :
    AsksNothing (joinTexts separator vs) :=
  (AsksNothing.mapM fun v _ => v.asText_asksNothing).bind fun _ _ => asksNothing_ok _

private theorem arithmetic_asksNothing (onInts : Int → Int → Int)
    (onDoubles : Number.Double → Number.Double → Number.Double) (x y : Numeric) :
    AsksNothing (Value.arithmetic onInts onDoubles x y) := by
  have hdouble : ∀ x, AsksNothing (Value.toDouble x) := by
    intro x
    cases x with
    | int i =>
      rw [Value.toDouble]
      cases Number.Double.ofInt? i with
      | none => exact asksNothing_value _
      | some d => exact asksNothing_ok d
    | double d => exact asksNothing_ok d
  unfold Value.arithmetic
  split
  · exact asksNothing_ok _
  · exact (hdouble _).bind fun _ _ => (hdouble _).bind fun _ _ => asksNothing_ok _

theorem Value.plus_asksNothing (v w : Value) : AsksNothing (v.plus w) := by
  unfold Value.plus
  split
  · exact asksNothing_ok _
  · exact asksNothing_ok _
  · exact asksNothing_ok _
  · exact asksNothing_ok _
  · split
    · exact arithmetic_asksNothing _ _ _ _
    · exact asksNothing_value _

/-! ## Queries that never answer -/

/-- No query answers any request, and none is waited for. -/
def Oracle.Silent (oracle : Oracle) : Prop :=
  ∀ id request, ∃ e, oracle id request = .error e ∧ ∀ other request', e ≠ .unanswered other request'

/-- Without an extension under the name of a request no query answers. -/
theorem Store.oracle_silent {s : Store}
    (h : ∀ request : Request, s.extension? request.name = none) : (s.oracle []).Silent := by
  intro id request
  refine ⟨.unknownMethod (s.classOf id) request.name, ?_, fun _ _ he => nomatch he⟩
  unfold Store.oracle
  rw [h request]
  rfl

section

variable {oracle : Oracle} (ho : oracle.Silent)

include ho

/-- What is no text answers nothing. -/
theorem Oracle.Silent.answerBy (v : Value) (request : Request) :
    ∃ e, v.answerBy oracle request = .error e ∧ ∀ other request', e ≠ .unanswered other request' := by
  cases v with
  | object handle =>
    cases handle with
    | query id => exact ho id request
    | _ => exact ⟨_, rfl, value_ne_unanswered _⟩
  | _ => exact ⟨_, rfl, value_ne_unanswered _⟩

theorem documentArrows_asksNothing (v : Value) : AsksNothing (documentArrows oracle v) := by
  refine AsksNothing.map ?_ _
  cases v with
  | text s => exact asksNothing_ok _
  | object handle =>
    cases handle with
    | query id =>
      obtain ⟨e, he, hne⟩ := ho id (.replace "->>" "->")
      intro other request h
      exact hne other request (Except.error.inj (he.symm.trans h))
    | _ => exact asksNothing_value _
  | _ => exact asksNothing_value _

end

namespace Grammar

variable (g : Grammar)

/-! ## Columns, tables and values -/

theorem wrapAs_asksNothing (aliasToo : Bool) (v : Value) : AsksNothing (g.wrapAs aliasToo v) := by
  unfold wrapAs
  split
  · exact asksNothing_ok _
  · exact (g.wrapText_asksNothing aliasToo _).map _

theorem wrapTable_asksNothing (v : Value) : AsksNothing (g.wrapTable v) := by
  cases v with
  | raw w => exact asksNothing_ok w
  | _ => exact (Value.plus_asksNothing _ _).bind fun _ _ => g.wrapAs_asksNothing true _

theorem wrapped_asksNothing (v : Value) : AsksNothing (g.wrapped v) :=
  (g.wrapAs_asksNothing false v).map _

theorem wrappedTable_asksNothing (v : Value) : AsksNothing (g.wrappedTable v) :=
  (g.wrapTable_asksNothing v).map _

theorem columnize_asksNothing (columns : List Value) : AsksNothing (g.columnize columns) :=
  (AsksNothing.mapM fun v _ => g.wrapAs_asksNothing false v).bind fun _ _ =>
    joinTexts_asksNothing _ _

theorem fieldAndPath_asksNothing (s : String) : AsksNothing (g.fieldAndPath s) :=
  (Name.fieldAndPath_asksNothing (fun _ => wrapFrom_asksNothing _ _ _ _ _) _).bind fun _ _ =>
    asksNothing_ok _

variable {g} in
theorem jsonFieldAndPath_asksNothing {oracle : Oracle} (ho : oracle.Silent) (selector : Value) :
    AsksNothing (g.jsonFieldAndPath oracle selector) := by
  have hother : ∀ v : Value, AsksNothing (v.answerBy oracle (.split "->" (some 1))) := by
    intro v other request h
    obtain ⟨e, he, hne⟩ := ho.answerBy v (.split "->" (some 1))
    exact hne other request (Except.error.inj (he.symm.trans h))
  have hnever : ∀ (v : Value) {α : Type} (f : Value → Except Failure α),
      AsksNothing (v.answerBy oracle (.split "->" (some 1)) >>= f) := by
    intro v α f
    obtain ⟨e, he, _⟩ := ho.answerBy v (.split "->" (some 1))
    refine (hother v).bind fun a ha => ?_
    exact nomatch he.symm.trans ha
  cases selector with
  | text s => exact (g.fieldAndPath_asksNothing s).map _
  | _ => exact hnever _ _

/-! ## Conditions -/

theorem comparisonSql_asksNothing (column : Value) (operator : String) (value : Value) :
    AsksNothing (g.comparisonSql column operator value) :=
  (g.wrapped_asksNothing column).bind fun _ _ => asksNothing_ok _

theorem basicSql_asksNothing (column : Value) (operator : String) (value : Value) :
    AsksNothing (g.basicSql column operator value) := by
  unfold basicSql
  split
  · exact (g.wrapped_asksNothing column).bind fun _ _ => asksNothing_ok _
  · exact g.comparisonSql_asksNothing column operator value

theorem amongSql_asksNothing (column : Value) {values : Except Failure String}
    (h : AsksNothing values) (isEmpty negated : Bool) :
    AsksNothing (g.amongSql column values isEmpty negated) := by
  unfold amongSql
  split
  · exact asksNothing_ok _
  · exact (g.wrapped_asksNothing column).bind fun _ _ => h.bind fun _ _ => asksNothing_ok _

theorem integersSql_asksNothing (values : List Int) : AsksNothing (integersSql values) := by
  refine (AsksNothing.mapM fun i _ => ?_).bind fun _ _ => asksNothing_ok _
  unfold integerText
  split
  · exact asksNothing_ok _
  · exact asksNothing_value _

theorem plainNullSql_asksNothing (column : Value) (negated : Bool) :
    AsksNothing (g.plainNullSql column negated) :=
  (g.wrapped_asksNothing column).bind fun _ _ => asksNothing_ok _

theorem nullSql_asksNothing (column : Value) (negated : Bool) :
    AsksNothing (g.nullSql column negated) := by
  unfold nullSql
  split
  · split
    · exact (g.fieldAndPath_asksNothing _).bind fun _ _ => asksNothing_ok _
    · exact g.plainNullSql_asksNothing _ negated
  · exact g.plainNullSql_asksNothing _ negated

theorem betweenSql_asksNothing (column : Value) (values : List Value) (negated : Bool) :
    AsksNothing (g.betweenSql column values negated) := by
  unfold betweenSql
  split
  · exact (g.wrapped_asksNothing column).bind fun _ _ => asksNothing_ok _
  · exact asksNothing_value _

theorem datePartSql_asksNothing (part : DatePart) (column : Value) (operator : String)
    (value : Value) : AsksNothing (g.datePartSql part column operator value) :=
  (g.wrapped_asksNothing column).bind fun _ _ => asksNothing_ok _

variable {g} in
theorem jsonContainsSql_asksNothing {oracle : Oracle} (ho : oracle.Silent) (column value : Value) :
    AsksNothing (g.jsonContainsSql oracle column value) := by
  unfold jsonContainsSql
  split
  · exact (jsonFieldAndPath_asksNothing ho column).bind fun _ _ => asksNothing_ok _
  · exact (g.wrapAs_asksNothing false column).bind fun _ _ =>
      (documentArrows_asksNothing ho _).bind fun _ _ => asksNothing_ok _
  · exact asksNothing_unsupported _

variable {g} in
theorem jsonLengthSql_asksNothing {oracle : Oracle} (ho : oracle.Silent) (column : Value)
    (operator : String) (value : Value) :
    AsksNothing (g.jsonLengthSql oracle column operator value) := by
  unfold jsonLengthSql
  split
  · exact asksNothing_unsupported _
  · exact (jsonFieldAndPath_asksNothing ho column).bind fun _ _ => asksNothing_ok _
  · exact (g.wrapAs_asksNothing false column).bind fun _ _ =>
      (documentArrows_asksNothing ho _).bind fun _ _ => asksNothing_ok _
  · exact (jsonFieldAndPath_asksNothing ho column).bind fun _ _ => asksNothing_ok _

theorem havingSql_asksNothing (body : Having) : AsksNothing (g.havingSql body) := by
  cases body with
  | basic column operator value => exact g.comparisonSql_asksNothing column operator value
  | raw sql => exact asksNothing_ok _
  | between column values negated => exact g.betweenSql_asksNothing column values negated
  | null column negated => exact g.plainNullSql_asksNothing column negated

theorem havingsSql_asksNothing (conditions : List GroupCondition) :
    AsksNothing (g.havingsSql conditions) :=
  (AsksNothing.mapM fun c _ => (g.havingSql_asksNothing c.body).bind fun _ _ =>
    asksNothing_ok _).bind fun _ _ => asksNothing_ok _

/-! ## Select lists, orderings and paging -/

theorem aggregateSql_asksNothing (distinct : Bool) (aggregate : Aggregate) :
    AsksNothing (g.aggregateSql distinct aggregate) :=
  (g.columnize_asksNothing aggregate.columns).bind fun _ _ => asksNothing_ok _

theorem columnsSql_asksNothing (distinct : Bool) (columns : List Value) :
    AsksNothing (g.columnsSql distinct columns) :=
  (g.columnize_asksNothing columns).bind fun _ _ => asksNothing_ok _

theorem ordersSql_asksNothing (orders : List Order) : AsksNothing (g.ordersSql orders) := by
  refine AsksNothing.bind (AsksNothing.mapM fun order _ => ?_) fun _ _ =>
    (joinTexts_asksNothing _ _).bind fun _ _ => asksNothing_ok _
  cases order with
  | raw sql => exact asksNothing_ok _
  | byColumn column direction =>
    exact (g.wrapped_asksNothing column).bind fun _ _ => asksNothing_ok _

theorem countText_asksNothing (n : Nat) : AsksNothing (countText n) := by
  unfold countText
  split
  · exact asksNothing_ok _
  · exact asksNothing_value _

theorem limitSql_asksNothing (n : Nat) : AsksNothing (limitSql n) :=
  (countText_asksNothing n).bind fun _ _ => asksNothing_ok _

theorem offsetSql_asksNothing (n : Nat) : AsksNothing (offsetSql n) :=
  (countText_asksNothing n).bind fun _ _ => asksNothing_ok _

end Grammar

theorem AsksNothing.elim {α : Type} {f : α → Except Failure String} (h : ∀ x, AsksNothing (f x))
    (x : Option α) : AsksNothing (x.elim (.ok "") f) := by
  cases x with
  | none => exact asksNothing_ok _
  | some x => exact h x

theorem AsksNothing.trailing {α : Type} {f : α → Except Failure String}
    (h : ∀ x, AsksNothing (f x)) (clause : Option α) : AsksNothing (Grammar.trailing clause f) :=
  AsksNothing.elim (fun x => (h x).map _) clause

theorem AsksNothing.trailingOf {α : Type} {f : List α → Except Failure String}
    (h : ∀ xs, AsksNothing (f xs)) (items : List α) :
    AsksNothing (Grammar.trailingOf items f) := by
  unfold Grammar.trailingOf
  split
  · exact asksNothing_ok _
  · exact (h items).map _

theorem AsksNothing.ifAny {α : Type} (items : List α) {r : Except Failure String}
    (h : AsksNothing r) : AsksNothing (Grammar.ifAny items r) := by
  unfold Grammar.ifAny
  split
  · exact asksNothing_ok _
  · exact h

/-! ## The components of a select statement -/

namespace Grammar

/-- The source with its keyword. -/
def sourceSql (g : Grammar) (source : Value) : Except Failure String :=
  if source.isPresent then do textBefore "from " (← g.wrapTable source) else .ok ""

/-- The select list, unless there is an aggregate in its place. -/
def selectList (g : Grammar) (q : Query) : Except Failure String :=
  let columns := q.columns.getD [.text "*"]
  ifAny columns (if q.aggregate.isSome then .ok "" else g.columnsSql q.distinct columns)

/-- The union as a component. -/
def unionComponent (g : Grammar) (attached : Attached) (q : Query) : Except Failure String :=
  if g.dialect = .mysql then .ok "" else ifAny q.unions (g.unionsSql attached q)

/-- The components one after the other. -/
theorem components_eq (g : Grammar) (attached : Attached) (q : Query) :
    g.components attached q = (do
      let aggregate ← q.aggregate.elim (.ok "") (g.aggregateSql q.distinct)
      let columns ← g.selectList q
      let source ← g.sourceSql q.source
      let joins ← ifAny q.joins (joinsSql attached q.joins)
      let wheres ← g.wheresSql attached q
      let groups ← ifAny q.groups ((g.columnize q.groups).map ("group by " ++ ·))
      let havings ← ifAny q.havings (g.havingsSql q.havings)
      let orders ← ifAny q.orders (g.ordersSql q.orders)
      let limit ← q.limit.elim (.ok "") limitSql
      let offset ← q.offset.elim (.ok "") offsetSql
      let unions ← g.unionComponent attached q
      return [aggregate, columns, source, joins, wheres, groups, havings, orders, limit, offset,
        unions, if q.lock.isPresent then g.lockSql q.lock else ""]) := by
  unfold components sourceSql unionComponent selectList
  cases q.source.isPresent <;> by_cases hd : g.dialect = .mysql <;>
    simp only [hd, if_true, if_false, Bool.false_eq_true, bind_assoc]

theorem sourceSql_asksNothing (g : Grammar) (source : Value) : AsksNothing (g.sourceSql source) := by
  unfold sourceSql
  split
  · exact (g.wrapTable_asksNothing source).bind fun v _ =>
      v.asText_asksNothing.bind fun _ _ => asksNothing_ok _
  · exact asksNothing_ok _

theorem selectList_asksNothing (g : Grammar) (q : Query) : AsksNothing (g.selectList q) := by
  refine .ifAny _ ?_
  split
  · exact asksNothing_ok _
  · exact g.columnsSql_asksNothing _ _

end Grammar

theorem oracle_attachedBy (s : Store) (g : Grammar) (oracle : Oracle) (depth : Nat) :
    (attachedBy s g oracle depth).oracle = oracle := by
  cases depth <;> rfl

end FluentSql
