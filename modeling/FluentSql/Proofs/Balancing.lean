import FluentSql.Proofs.Balance
import FluentSql.Proofs.Parallel.Selecting
import FluentSql.Proofs.Reaching
import FluentSql.Proofs.Resembling.Selecting

/-!
# Balanced statements

Text that a query holds is written into its SQL as it is where it is a raw
fragment, an operator, a joining word, the kind of a join, an aggregate
function or a row lock.  If all of that is balanced, so is every statement
that a dialect without arrows compiles, however deep its queries are.

* `Query.IsBalanced` and `Store.IsBalanced` say that the text that is written
  as it is, is balanced.
* `carried_balanced` makes balanced texts a relation that compilations carry
  along, and `Query.IsBalanced.matches_self` compares a query with itself.
* `Store.IsBalanced.selectSql_balanced` is the result.
-/

namespace FluentSql

open Name

/-! ## Text that is written as it is -/

/-- A value that is a fragment is a balanced one. -/
def Value.IsBalanced : Value → Prop
  | raw sql => Balanced sql.display.toList
  | _ => True

/-- The text that a condition writes as it is, is balanced. -/
def Where.IsBalanced : Where → Prop
  | raw sql => Balanced sql.display.toList
  | basic column operator value | datePart _ column operator value
  | jsonLength column operator value =>
    column.IsBalanced ∧ Balanced operator.toList ∧ value.IsBalanced
  | among column values _ | between column values _ =>
    column.IsBalanced ∧ ∀ v ∈ values, v.IsBalanced
  | amongIntegers column _ _ | null column _ => column.IsBalanced
  | columnPair first operator second =>
    first.IsBalanced ∧ Balanced operator.toList ∧ second.IsBalanced
  | nested _ | «exists» _ _ => True
  | sub column operator _ => column.IsBalanced ∧ Balanced operator.display.toList
  | rowValues columns operator values =>
    (∀ c ∈ columns, c.IsBalanced) ∧ Balanced operator.display.toList ∧ ∀ v ∈ values, v.IsBalanced
  | jsonContains column value _ => column.IsBalanced ∧ value.IsBalanced

/-- The text that a condition on groups writes as it is, is balanced. -/
def Having.IsBalanced : Having → Prop
  | basic column operator value =>
    column.IsBalanced ∧ Balanced operator.toList ∧ value.IsBalanced
  | raw sql => Balanced sql.display.toList
  | between column values _ => column.IsBalanced ∧ ∀ v ∈ values, v.IsBalanced
  | null column _ => column.IsBalanced

/-- The text that an ordering writes as it is, is balanced. -/
def Order.IsBalanced : Order → Prop
  | byColumn column _ => column.IsBalanced
  | raw sql => Balanced sql.display.toList

/-- The text that a query writes as it is, is balanced. -/
structure Query.IsBalanced (q : Query) : Prop where
  kind : ∀ type table, q.kind = .join type table →
    Balanced type.display.toList ∧ table.IsBalanced
  aggregate : ∀ a ∈ q.aggregate, Balanced a.function.display.toList ∧ ∀ c ∈ a.columns, c.IsBalanced
  columns : ∀ columns ∈ q.columns, ∀ c ∈ columns, c.IsBalanced
  source : q.source.IsBalanced
  wheres : ∀ c ∈ q.wheres, Balanced c.boolean.display.toList ∧ c.body.IsBalanced
  groups : ∀ c ∈ q.groups, c.IsBalanced
  havings : ∀ c ∈ q.havings, Balanced c.boolean.display.toList ∧ c.body.IsBalanced
  orders : ∀ o ∈ q.orders, o.IsBalanced
  unionOrders : ∀ o ∈ q.unionOrders, o.IsBalanced
  lock : ∀ sql, q.lock = .text sql → Balanced sql.toList

/-- What extensions answer where a column is due is balanced. -/
def Oracle.IsBalanced (oracle : Oracle) : Prop :=
  ∀ id request answer, oracle id request = .ok answer →
    ∀ column, answer.subscript (.int 0) = .ok column → column.IsBalanced

/-- The text that a query and those attached to it write as it is, is balanced, and so is what is known
of the answers of extensions. -/
structure Store.IsBalanced (s : Store) (known : KnownAnswers) (root : QueryId) : Prop where
  query : ∀ id, s.Reaches (.query root) (.query id) → (s.query id).IsBalanced
  oracle : (s.oracle known).IsBalanced

/-! ## A relation between texts -/

/-- Two texts are the same and balanced. -/
def SameBalanced (t u : String) : Prop :=
  t = u ∧ Balanced t.toList

theorem sameBalanced {t : String} (h : Balanced t.toList) : SameBalanced t t :=
  ⟨rfl, h⟩

theorem carried_balanced : Carried SameBalanced where
  append := by
    rintro a _ c _ ⟨rfl, ha⟩ ⟨rfl, hc⟩
    refine sameBalanced ?_
    rw [String.toList_append]
    exact ha.append hc
  plain h := sameBalanced (balanced_of_plain h)
  enclosed := by
    rintro a _ ⟨rfl, ha⟩
    refine sameBalanced ?_
    rw [String.toList_append, String.toList_append]
    exact ha.enclosed
  isEmpty h := by rw [h.1]
  isStar h := by rw [h.1]
  trimLeft := by
    rintro a _ ⟨rfl, ha⟩
    refine sameBalanced ?_
    rw [Text.trimLeft, String.toList_ofList]
    exact ha.dropBlanks
  trimRight := by
    rintro a _ ⟨rfl, ha⟩
    refine sameBalanced ?_
    rw [Text.trimRight, String.toList_ofList]
    exact ha.dropBlanks_reverse
  dropConjunction := by
    rintro v _ a _ ⟨rfl, hword⟩ ⟨rfl, ha⟩
    refine sameBalanced ?_
    rw [dropConjunction_append, String.toList_append, String.toList_ofList]
    exact hword.dropConjunctionChars.append ha

/-- A computation is like itself if the texts that it makes are balanced. -/
theorem alike_balanced {lax : Prop} {x : Except Failure String}
    (h : ∀ t, x = .ok t → Balanced t.toList) : Alike lax SameBalanced x x :=
  .same fun t ht => sameBalanced (h t ht)

theorem written_balanced {v : Value} (h : Balanced v.display.toList) : Written SameBalanced v v := by
  refine ⟨sameBalanced h, ?_⟩
  cases v with
  | text s => exact .ok (sameBalanced h)
  | _ => exact .error _

/-! ## Queries that are met -/

/-- Two queries are the same one, and it is met. -/
def SameIn (met : QueryId → Prop) (id id' : QueryId) : Prop :=
  id = id' ∧ met id

theorem Meets.sameIn {met : QueryId → Prop} {handles : List Handle} (h : Meets met handles)
    {id : QueryId} (hid : .query id ∈ handles) : SameIn met id id :=
  ⟨rfl, h id hid⟩

theorem optionRel_sameIn {met : QueryId → Prop} {query : Option QueryId}
    (h : ∀ id ∈ query, met id) : Option.Rel (SameIn met) query query := by
  cases query with
  | none => exact .none
  | some id => exact .some ⟨rfl, h id rfl⟩

/-! ## Columns and values -/

section

variable {lax : Prop} {g : Grammar}

theorem binds_balanced {v : Value} (h : v.IsBalanced) : Binds SameBalanced v v := by
  cases v with
  | raw sql => exact written_balanced h
  | _ => exact written_balanced (show Balanced "?".toList by decide)

theorem binds_balanced_all {values : List Value} (h : ∀ v ∈ values, v.IsBalanced) :
    List.Forall₂ (Binds SameBalanced) values values :=
  List.forall₂_same.2 fun v hv => binds_balanced (h v hv)

/-- A value that is no fragment is quoted by its text. -/
theorem Grammar.wrapAs_named {v : Value} (h : v.isRaw = false) (aliasToo : Bool) :
    g.wrapAs aliasToo v = (g.wrapText aliasToo v.display).map .text := by
  cases v with
  | raw sql => exact nomatch h
  | _ => rfl

/-- A sum is no fragment. -/
theorem isBalanced_plus {v w sum : Value} (h : v.plus w = .ok sum) : sum.IsBalanced := by
  unfold Value.plus at h
  split at h
  · cases h; exact trivial
  · cases h; exact trivial
  · cases h; exact trivial
  · cases h; exact trivial
  · split at h
    · unfold Value.arithmetic at h
      split at h
      · cases h; exact trivial
      · obtain ⟨x, _, h⟩ := bind_eq_ok h
        obtain ⟨y, _, h⟩ := bind_eq_ok h
        cases h
        exact trivial
    · exact nomatch h

variable (hd : g.dialect ≠ .postgres)

include hd

theorem wrapAs_balanced {v w : Value} {aliasToo : Bool} (h : v.IsBalanced)
    (hw : g.wrapAs aliasToo v = .ok w) : Balanced w.display.toList := by
  cases hraw : v.isRaw with
  | true =>
    cases v with
    | raw sql => cases hw; exact h
    | _ => exact nomatch hraw
  | false =>
    rw [Grammar.wrapAs_named hraw] at hw
    unfold Grammar.wrapText at hw
    cases hwrap : Name.wrap g.dialect g.namePrefix aliasToo v.display.toList with
    | error e => rw [hwrap] at hw; exact nomatch hw
    | ok cs =>
      rw [hwrap] at hw
      cases hw
      show Balanced (String.ofList cs).toList
      rw [String.toList_ofList]
      exact wrapFrom_balanced hd _ _ _ _ cs hwrap

theorem wraps_balanced {v : Value} (h : v.IsBalanced) : Wraps lax SameBalanced g g v v :=
  .same fun _ hw => written_balanced (wrapAs_balanced hd h hw)

theorem wraps_balanced_all {columns : List Value} (h : ∀ c ∈ columns, c.IsBalanced) :
    List.Forall₂ (Wraps lax SameBalanced g g) columns columns :=
  List.forall₂_same.2 fun c hc => wraps_balanced hd (h c hc)

theorem wrapTable_balanced {v : Value} (h : v.IsBalanced) :
    Alike lax (Written SameBalanced) (g.wrapTable v) (g.wrapTable v) := by
  refine .same fun w hw => written_balanced ?_
  have hnamed : (do g.wrapAs true (← g.tablePrefix.plus v)) = .ok w →
      Balanced w.display.toList := by
    intro hw
    obtain ⟨sum, hsum, hw⟩ := bind_eq_ok hw
    exact wrapAs_balanced hd (isBalanced_plus hsum) hw
  cases v with
  | raw sql => cases hw; exact h
  | _ => exact hnamed hw

theorem wrappedTable_balanced {v : Value} (h : v.IsBalanced) :
    Alike lax SameBalanced (g.wrappedTable v) (g.wrappedTable v) :=
  (wrapTable_balanced hd h).map fun _ _ h => h.display

/-! ## Paths into JSON columns -/

theorem grammarFieldAndPath_balanced {s : String} {r : String × String}
    (h : g.fieldAndPath s = .ok r) : Balanced r.1.toList ∧ Balanced r.2.toList := by
  obtain ⟨⟨field, path⟩, hmade, h⟩ := bind_eq_ok h
  cases h
  rw [String.toList_ofList, String.toList_ofList]
  exact fieldAndPath_balanced (fun cs => wrapFrom_balanced hd _ _ _ cs) hmade

theorem jsonFieldAndPath_balanced {oracle : Oracle} (ho : oracle.IsBalanced) {selector : Value}
    {r : Value × String} (h : g.jsonFieldAndPath oracle selector = .ok r) :
    Balanced r.1.display.toList ∧ Balanced r.2.toList := by
  have hpieces : (do
      let pieces ← selector.answerBy oracle (.split "->" (some 1))
      let field ← g.wrap (← pieces.subscript (.int 0))
      if 1 < (← pieces.length) then
        let path ← (← pieces.subscript (.int 1)).asText
        return (field, String.ofList (Name.pathArgument path.toList))
      else return (field, "")) = .ok r → Balanced r.1.display.toList ∧ Balanced r.2.toList := by
    intro h
    obtain ⟨pieces, hanswer, h⟩ := bind_eq_ok h
    obtain ⟨first, hfirst, h⟩ := bind_eq_ok h
    obtain ⟨field, hfield, h⟩ := bind_eq_ok h
    have hfield : Balanced field.display.toList := by
      refine wrapAs_balanced hd ?_ hfield
      cases selector with
      | object handle =>
        cases handle with
        | query q => exact ho q _ pieces hanswer first hfirst
        | _ => cases hanswer
      | _ => cases hanswer
    obtain ⟨length, _, h⟩ := bind_eq_ok h
    split at h
    · obtain ⟨second, _, h⟩ := bind_eq_ok h
      obtain ⟨path, _, h⟩ := bind_eq_ok h
      cases h
      refine ⟨hfield, ?_⟩
      rw [String.toList_ofList]
      exact pathArgument_balanced _
    · cases h
      exact ⟨hfield, show Balanced "".toList by decide⟩
  cases selector with
  | text s =>
    have h : (g.fieldAndPath s).map (fun made => (Value.text made.1, made.2)) = .ok r := h
    cases hmade : g.fieldAndPath s with
    | error e => rw [hmade] at h; cases h
    | ok made =>
      rw [hmade] at h
      cases h
      exact grammarFieldAndPath_balanced hd hmade
  | _ => exact hpieces h

/-! ## Conditions -/

omit hd in
theorem balanced_append {s t : String} (hs : Balanced s.toList) (ht : Balanced t.toList) :
    Balanced (s ++ t).toList := by
  rw [String.toList_append]
  exact hs.append ht

omit hd in
/-- A call of a function on a balanced text, and what follows it. -/
theorem balanced_call (name after : String) {text call : String} (hname : Balanced name.toList)
    (hafter : Balanced after.toList) (htext : Balanced text.toList)
    (hcall : call.toList = (name ++ "(" ++ text ++ ")" ++ after).toList) :
    Balanced call.toList := by
  have henclosed := (hname.call htext).append hafter
  rw [hcall]
  simpa using henclosed

theorem nullSql_balanced {column : Value} (h : column.IsBalanced) (negated : Bool) :
    Alike lax SameBalanced (g.nullSql column negated) (g.nullSql column negated) := by
  have hplain : Alike lax SameBalanced (g.plainNullSql column negated)
      (g.plainNullSql column negated) :=
    plainNullSql_alike carried_balanced (wraps_balanced hd h) negated
  unfold Grammar.nullSql
  split
  · split
    · refine alike_balanced fun t ht => ?_
      obtain ⟨⟨field, path⟩, hmade, ht⟩ := bind_eq_ok ht
      obtain ⟨hfield, hpath⟩ := grammarFieldAndPath_balanced hd hmade
      have hextract : Balanced ("json_extract(" ++ field ++ path ++ ")").toList :=
        balanced_call "json_extract" "" (by decide) (by decide) (balanced_append hfield hpath)
          (by simp)
      cases ht
      generalize "json_extract(" ++ field ++ path ++ ")" = extract at hextract
      have hlonger : ∀ word after : String, Balanced word.toList → Balanced after.toList →
          Balanced ("(" ++ (extract ++ (word ++ "(" ++ extract ++ ")" ++ after)) ++ ")").toList :=
        fun word after hword hafter => balanced_call "" "" (by decide) (by decide)
          (balanced_append hextract (balanced_call word after hword hafter hextract rfl)) (by simp)
      cases negated with
      | true =>
        have h := hlonger " is not null AND json_type" " != 'NULL'" (by decide) (by decide)
        simpa [String.append_assoc] using h
      | false =>
        have h := hlonger " is null OR json_type" " = 'NULL'" (by decide) (by decide)
        simpa [String.append_assoc] using h
    · exact hplain
  · exact hplain

omit hd in
/-- A call compared with a value. -/
theorem balanced_compared (name : String) {inner operator value compared : String}
    (hname : Balanced name.toList) (hinner : Balanced inner.toList)
    (hoperator : Balanced operator.toList) (hvalue : Balanced value.toList)
    (hcompared : compared.toList =
      (name ++ "(" ++ inner ++ ")" ++ (" " ++ operator ++ " " ++ value)).toList) :
    Balanced compared.toList :=
  balanced_call name (" " ++ operator ++ " " ++ value) hname (balanced_append
    (balanced_append (balanced_append (by decide) hoperator) (by decide)) hvalue) hinner hcompared

theorem datePartSql_balanced (part : DatePart) {column value : Value} {operator : String}
    (hcolumn : column.IsBalanced) (hoperator : Balanced operator.toList) (hvalue : value.IsBalanced) :
    Alike lax SameBalanced (g.datePartSql part column operator value)
      (g.datePartSql part column operator value) := by
  refine (wraps_balanced hd hcolumn).wrapped.bind fun column _ hcolumn => ?_
  obtain ⟨rfl, hcolumn⟩ := hcolumn
  have hvalue := (binds_balanced hvalue).display.2
  generalize (Grammar.parameter value).display = value at hvalue
  refine alike_balanced fun t ht => ?_
  cases ht
  have hnamed : Balanced (part.name ++ "(" ++ column ++ ") " ++ operator ++ " " ++ value).toList :=
    balanced_compared part.name (by cases part <;> decide) hcolumn hoperator hvalue
      (by simp)
  cases hdialect : g.dialect with
  | postgres => exact absurd hdialect hd
  | ansi => cases part <;> exact hnamed
  | mysql => cases part <;> exact hnamed
  | sqlite =>
    have hpattern : Balanced ("'" ++ part.pattern ++ "', ").toList := by cases part <;> decide
    have hcast : Balanced ("cast(" ++ value ++ " as text)").toList :=
      balanced_call "cast" "" (by decide) (by decide)
        (balanced_append hvalue (show Balanced " as text".toList by decide)) (by simp)
    exact balanced_compared "strftime" (by decide) (balanced_append hpattern hcolumn) hoperator hcast
      (by simp)

theorem jsonContainsSql_balanced {oracle : Oracle} (ho : oracle.IsBalanced) {column value : Value}
    (hvalue : Balanced value.display.toList) {t : String}
    (ht : g.jsonContainsSql oracle column value = .ok t) : Balanced t.toList := by
  unfold Grammar.jsonContainsSql at ht
  cases hdialect : g.dialect with
  | postgres => exact absurd hdialect hd
  | ansi => rw [hdialect] at ht; exact nomatch ht
  | sqlite => rw [hdialect] at ht; exact nomatch ht
  | mysql =>
    rw [hdialect] at ht
    obtain ⟨⟨field, path⟩, hmade, ht⟩ := bind_eq_ok ht
    obtain ⟨hfield, hpath⟩ := jsonFieldAndPath_balanced hd ho hmade
    cases ht
    exact balanced_call "json_contains" "" (by decide) (by decide)
      (balanced_append (balanced_append (balanced_append hfield (show Balanced ", ".toList by decide))
        hvalue) hpath) (by simp)

theorem jsonLengthSql_balanced {oracle : Oracle} (ho : oracle.IsBalanced) {column value : Value}
    {operator : String} (hoperator : Balanced operator.toList) (hvalue : Balanced value.display.toList)
    {t : String} (ht : g.jsonLengthSql oracle column operator value = .ok t) : Balanced t.toList := by
  unfold Grammar.jsonLengthSql at ht
  cases hdialect : g.dialect with
  | postgres => exact absurd hdialect hd
  | ansi => rw [hdialect] at ht; exact nomatch ht
  | sqlite =>
    rw [hdialect] at ht
    obtain ⟨⟨field, path⟩, hmade, ht⟩ := bind_eq_ok ht
    obtain ⟨hfield, hpath⟩ := jsonFieldAndPath_balanced hd ho hmade
    cases ht
    exact balanced_compared "json_array_length" (by decide) (balanced_append hfield hpath) hoperator hvalue
      (by simp)
  | mysql =>
    rw [hdialect] at ht
    obtain ⟨⟨field, path⟩, hmade, ht⟩ := bind_eq_ok ht
    obtain ⟨hfield, hpath⟩ := jsonFieldAndPath_balanced hd ho hmade
    cases ht
    exact balanced_compared "json_length" (by decide) (balanced_append hfield hpath) hoperator hvalue
      (by simp)

/-- A condition, given how attached queries are compiled.  There is one case for each kind. -/
theorem whereSql_balanced {attached attached' : Attached} {met : QueryId → Prop}
    (h : Attached.Matches lax SameBalanced (SameIn met) (SameIn met) attached attached')
    (hsame : attached.oracle = attached'.oracle) (ho : attached'.oracle.IsBalanced) {body : Where}
    (hbody : body.IsBalanced) (hmet : Meets met body.handles) :
    Alike lax SameBalanced (g.whereSql attached body) (g.whereSql attached' body) := by
  have hR := carried_balanced
  cases body with
  | raw sql => exact .ok (sameBalanced hbody)
  | basic column operator value =>
    have heq : g.basicSql column operator value = g.comparisonSql column operator value :=
      if_neg fun hlike => hd hlike.1
    show Alike _ _ (g.basicSql column operator value) (g.basicSql column operator value)
    rw [heq]
    exact comparisonSql_alike hR (wraps_balanced hd hbody.1) (sameBalanced hbody.2.1)
      (binds_balanced hbody.2.2)
  | among column values negated =>
    exact amongSql_alike hR (wraps_balanced hd hbody.1)
      (parameterize_alike hR (binds_balanced_all hbody.2)) rfl negated
  | amongIntegers column values negated =>
    exact (integersSql_alike hR values).bind fun _ _ h =>
      amongSql_alike hR (wraps_balanced hd hbody) (.ok h) rfl negated
  | null column negated => exact nullSql_balanced hd hbody negated
  | between column values negated =>
    exact betweenSql_alike hR (wraps_balanced hd hbody.1) (binds_balanced_all hbody.2) negated
  | datePart part column operator value =>
    exact datePartSql_balanced hd part hbody.1 hbody.2.1 hbody.2.2
  | columnPair first operator second =>
    exact columnPairSql_alike hR (wraps_balanced hd hbody.1) (sameBalanced hbody.2.1)
      (wraps_balanced hd hbody.2.2)
  | nested query => exact nestedSql_alike hR (h.conditions query query (hmet.sameIn List.mem_cons_self))
  | sub column operator query =>
    exact subSql_alike hR (wraps_balanced hd hbody.1) (sameBalanced hbody.2)
      (h.select query query (hmet.sameIn (List.mem_append_right _ List.mem_cons_self)))
  | «exists» query negated => exact existsSql_alike hR negated (h.selectOf
      (optionRel_sameIn fun id hid => meets_queries.1 hmet id (Option.mem_toList.2 hid)))
  | rowValues columns operator values =>
    exact rowValuesSql_alike hR (wraps_balanced_all hd hbody.1) (sameBalanced hbody.2.1)
      (binds_balanced_all hbody.2.2)
  | jsonContains column value negated =>
    show Alike _ _ (do return _ ++ (← g.jsonContainsSql attached.oracle _ _))
      (do return _ ++ (← g.jsonContainsSql attached'.oracle _ _))
    rw [hsame]
    refine (alike_balanced fun t ht => jsonContainsSql_balanced hd ho
      (binds_balanced hbody.2).display.2 ht).bind fun _ _ h => .ok (hR.append ?_ h)
    exact hR.plain (by cases negated <;> decide)
  | jsonLength column operator value =>
    show Alike _ _ (g.jsonLengthSql attached.oracle _ _ _) (g.jsonLengthSql attached'.oracle _ _ _)
    rw [hsame]
    refine alike_balanced fun t ht => jsonLengthSql_balanced hd ho hbody.2.1 ?_ ht
    exact (binds_balanced (hbody.2.2)).display.2

theorem havingSql_balanced {body : Having} (hbody : body.IsBalanced) :
    Alike lax SameBalanced (g.havingSql body) (g.havingSql body) := by
  have hR := carried_balanced
  cases body with
  | basic column operator value =>
    exact comparisonSql_alike hR (wraps_balanced hd hbody.1) (sameBalanced hbody.2.1)
      (binds_balanced hbody.2.2)
  | raw sql => exact .ok (sameBalanced hbody)
  | between column values negated =>
    exact betweenSql_alike hR (wraps_balanced hd hbody.1) (binds_balanced_all hbody.2) negated
  | null column negated => exact plainNullSql_alike hR (wraps_balanced hd hbody) negated

/-! ## Queries -/

theorem orders_balanced {orders : List Order} (h : ∀ o ∈ orders, o.IsBalanced) :
    List.Forall₂ (Order.Matches lax SameBalanced g g) orders orders := by
  refine List.forall₂_same.2 fun o ho => ?_
  have hbalanced := h o ho
  cases o with
  | byColumn column direction => exact .byColumn (wraps_balanced hd hbalanced) direction
  | raw sql => exact .raw (written_balanced hbalanced)

omit hd in
theorem lockSql_balanced {q : Query} (h : q.IsBalanced) : Balanced (g.lockSql q.lock).toList := by
  unfold Grammar.lockSql
  split
  · decide
  · exact h.lock _ ‹_›
  · decide
  · split <;> decide
  · split <;> decide

/-- A query is compiled like itself. -/
theorem Query.IsBalanced.matches_self {q : Query} (hq : q.IsBalanced) {attached attached' : Attached}
    {met : QueryId → Prop} (hmet : q.AttachedIn met)
    (h : Attached.Matches lax SameBalanced (SameIn met) (SameIn met) attached attached')
    (hsame : attached.oracle = attached'.oracle) (ho : attached'.oracle.IsBalanced) :
    q.Matches lax SameBalanced g g attached attached' q where
  kind := by
    have hkind := hq.kind
    generalize q.kind = kind at hkind
    cases kind with
    | statement => exact .statement
    | join type table =>
      obtain ⟨htype, htable⟩ := hkind type table rfl
      exact .join (sameBalanced htype) (wrapTable_balanced hd htable)
  aggregate := by
    have haggregate := hq.aggregate
    generalize q.aggregate = aggregate at haggregate
    cases aggregate with
    | none => exact .none
    | some a =>
      obtain ⟨hfunction, hcolumns⟩ := haggregate a rfl
      exact .some ⟨sameBalanced hfunction, wraps_balanced_all hd hcolumns⟩
  columns := by
    refine wraps_balanced_all hd ?_
    have hcolumns := hq.columns
    generalize q.columns = columns at hcolumns
    cases columns with
    | none => exact List.forall_mem_singleton.2 trivial
    | some columns => exact hcolumns columns rfl
  distinct := rfl
  source := ⟨rfl, wrapTable_balanced hd hq.source⟩
  joins := List.forall₂_same.2 fun id hid => h.join id id ⟨rfl, hmet.joins id hid⟩
  wheres := List.forall₂_same.2 fun c hc =>
    ⟨sameBalanced (hq.wheres c hc).1, whereSql_balanced hd h hsame ho (hq.wheres c hc).2 (hmet.wheres c hc)⟩
  groups := wraps_balanced_all hd hq.groups
  havings := List.forall₂_same.2 fun c hc =>
    ⟨sameBalanced (hq.havings c hc).1, havingSql_balanced hd (hq.havings c hc).2⟩
  orders := orders_balanced hd hq.orders
  paging := ⟨rfl, rfl⟩
  unions := List.forall₂_same.2 fun u hu =>
    ⟨rfl, h.selectOf (optionRel_sameIn (hmet.unions u hu))⟩
  unionOrders := orders_balanced hd hq.unionOrders
  unionPaging := ⟨rfl, rfl⟩
  lock := ⟨rfl, fun _ => sameBalanced (lockSql_balanced hq)⟩
  parenthesized := .inr Iff.rfl

/-! ## Stores -/

omit hd in
/-- What is attached to a query that is reached, is reached. -/
theorem Store.Reaches.attachedIn {s : Store} {root id : QueryId}
    (h : s.Reaches (.query root) (.query id)) :
    (s.query id).AttachedIn fun id => s.Reaches (.query root) (.query id) :=
  Meets.attachedIn fun _ hmem => h.step hmem

namespace Store.IsBalanced

variable {s : Store} {known : KnownAnswers} {root : QueryId} (h : s.IsBalanced known root)

include h

theorem attachedBy_balanced (depth : Nat) :
    Attached.Matches False SameBalanced (SameIn fun id => s.Reaches (.query root) (.query id))
      (SameIn fun id => s.Reaches (.query root) (.query id))
      (attachedBy s g (s.oracle known) depth) (attachedBy s g (s.oracle known) depth) := by
  refine attachedBy_alike carried_balanced (wrappedTable_balanced hd trivial) ?_ ?_ (.inl rfl)
  · rintro attached attached' hattached ho ho' id _ ⟨rfl, hid⟩
    exact (h.query id hid).matches_self hd hid.attachedIn hattached (ho.trans ho'.symm)
      (ho' ▸ h.oracle)
  · rintro attached attached' hattached ho ho' id _ ⟨rfl, hid⟩
    exact ((h.query id hid).matches_self hd hid.attachedIn hattached (ho.trans ho'.symm)
      (ho' ▸ h.oracle)).wheres

/-- Every attached query is compiled to a balanced text. -/
theorem select_balanced {id : QueryId} (hid : s.Reaches (.query root) (.query id)) {t : String}
    (ht : (s.attached g known).select id = .ok t) : Balanced t.toList := by
  have halike := (h.attachedBy_balanced hd s.attachedDepth).select id id ⟨rfl, hid⟩
  rw [show (attachedBy s g (s.oracle known) s.attachedDepth).select id = .ok t from ht]
    at halike
  obtain ⟨_, _, _, hbalanced⟩ := halike.of_ok
  exact hbalanced

/-- A query is compiled to a balanced text if what is attached to it is reached. -/
theorem selectSql_balanced {q : Query} (hq : q.IsBalanced)
    (hmet : q.AttachedIn fun id => s.Reaches (.query root) (.query id)) {t : String}
    (ht : g.selectSql (s.attached g known) q = .ok t) : Balanced t.toList := by
  have halike := (hq.matches_self hd hmet (h.attachedBy_balanced hd s.attachedDepth) rfl
    (by rw [oracle_attachedBy]; exact h.oracle)).selectSql_alike carried_balanced
    (wrappedTable_balanced hd trivial)
  rw [show g.selectSql (attachedBy s g (s.oracle known) s.attachedDepth) q = .ok t from ht]
    at halike
  obtain ⟨_, _, _, hbalanced⟩ := halike.of_ok
  exact hbalanced

end Store.IsBalanced

end

end FluentSql
