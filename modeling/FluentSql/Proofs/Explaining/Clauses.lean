import FluentSql.Proofs.Asking
import FluentSql.Proofs.Explaining.Basic

/-!
# Why clauses fail

The clauses of a query that attached queries have no part in: each of them fails
only for the reasons of what it writes.

* `wrapText_explained` is about names, under a prefix that is a text without
  points.
* `jsonContainsSql_explained` and `jsonLengthSql_explained` are about JSON
  columns, which may have to be asked of a query.
* The lemmas after them are about conditions, orderings, paging and select lists.
-/

namespace FluentSql

/-! ## Names -/

namespace Grammar

section

variable {g : Grammar} {p : String} {inner : Part → Reason → Prop} {item : Item} {α : Type}

theorem blames_unsupported (hown : item.part? = none) :
    g.Blames p inner item .unsupported ↔ g.Refuses p item := by
  constructor
  · rintro (h | h)
    · exact h
    · exact nomatch hown
  · exact fun h => .own h

theorem not_blames_endless (hown : item.part? = none) : ¬g.Blames p inner item .endless := by
  rintro (h | h)
  · exact h
  · exact nomatch hown

/-- An item that is not refused is written. -/
theorem explained_own (a : α) (hown : item.part? = none) (h : ¬g.Refuses p item) :
    Explained (g.Blames p inner) [item] (.ok a : Except Failure α) :=
  explained_written a ⟨fun hblames => h ((blames_unsupported hown).1 hblames),
    not_blames_endless hown⟩

theorem namePrefix_eq (hp : g.tablePrefix = .text p) : g.namePrefix = some p.toList := by
  rw [namePrefix, hp]
  rfl

variable (hp : g.tablePrefix = .text p) (hdot : '.' ∉ p.toList)

include hp hdot

theorem wrapText_explained (aliasToo : Bool) (s : String) (hown : item.part? = none)
    (hrefuses : g.Refuses p item ↔ g.LacksPath p s) :
    Explained (g.Blames p inner) [item] (g.wrapText aliasToo s) := by
  unfold wrapText
  rw [namePrefix_eq hp]
  by_cases hlacks : g.LacksPath p s
  · rw [hlacks.1, Name.wrap_unsupported aliasToo hlacks.2]
    exact explained_error (List.mem_singleton_self _) (.own (hrefuses.2 hlacks))
  · have hneeds : g.dialect = .ansi → Name.needsPath p.toList s.toList = false := fun hd =>
      Bool.eq_false_iff.2 fun hneeds => hlacks ⟨hd, hneeds⟩
    obtain ⟨out, hout⟩ := Name.wrap_isOk aliasToo s.toList hneeds hdot
    rw [hout]
    exact explained_own _ hown fun h => hlacks (hrefuses.1 h)

omit hp hdot in
theorem wrap_of_reference {v : Value} {s : String} (h : v.reference? = some s) :
    g.wrap v = (g.wrapText false s).map .text := by
  cases v with
  | raw w => exact nomatch h
  | _ =>
    obtain rfl := Option.some.inj h
    rfl

theorem wrap_explained (v : Value) : Explained (g.Blames p inner) [.column v] (g.wrap v) := by
  cases hv : v.reference? with
  | none =>
    cases v with
    | raw w =>
      refine explained_own w rfl ?_
      rintro ⟨s, hs, _⟩
      exact nomatch hs
    | _ => exact nomatch hv
  | some s =>
    have hrefuses : g.Refuses p (.column v) ↔ g.LacksPath p s := by
      refine ⟨?_, fun h => ⟨s, hv, h⟩⟩
      rintro ⟨s', hs', h⟩
      cases hv.symm.trans hs'
      exact h
    rw [wrap_of_reference hv]
    exact (wrapText_explained hp hdot false s rfl hrefuses).map _

theorem wrapped_explained (v : Value) :
    Explained (g.Blames p inner) [.column v] (g.wrapped v) :=
  (wrap_explained hp hdot v).map _

omit hp hdot in
/-- What is quoted is a text, and so is what is written for a raw fragment that holds one. -/
theorem isText_of_wrap {v w : Value} (hv : v.IsReference) (h : g.wrap v = .ok w) : w.IsText := by
  obtain ⟨s, rfl⟩ | ⟨_, rfl, s, rfl⟩ := hv
  · obtain ⟨t, _, rfl⟩ := Name.map_eq_ok h
    exact ⟨t, rfl⟩
  · cases h
    exact ⟨s, rfl⟩

theorem columnize_explained (columns : List Value) :
    Explained (g.Blames p inner) (columns.map .column) (g.columnize columns) := by
  refine .joinTexts (fun v _ => wrap_explained hp hdot v) (fun v _ w hw hnot => ?_) ", "
  exact .own fun hv => hnot (isText_of_wrap hv hw)

theorem wrapTable_explained (v : Value) :
    Explained (g.Blames p inner) [.table v] (g.wrapTable v) := by
  have hother : ∀ v : Value, (Value.text p).plus v = .error .wrongType → ¬v.IsReference →
      Explained (g.Blames p inner) [.table v]
        (do g.wrapAs true (← g.tablePrefix.plus v) : Except Failure Value) := by
    intro v hplus hv
    rw [hp, hplus]
    exact explained_error (List.mem_singleton_self _) (.own hv)
  cases v with
  | raw w =>
    refine explained_own w rfl ?_
    rintro ⟨s, hs, _⟩
    exact nomatch hs
  | text s =>
    have hrefuses : g.Refuses p (.table (.text s)) ↔ g.LacksPath p (p ++ s) := by
      refine ⟨?_, fun h => ⟨s, rfl, h⟩⟩
      rintro ⟨s', hs', h⟩
      cases hs'
      exact h
    show Explained _ _ (do g.wrapAs true (← g.tablePrefix.plus (.text s)) : Except Failure Value)
    rw [hp]
    exact (wrapText_explained hp hdot true _ rfl hrefuses).map _
  | _ =>
    refine hother _ rfl ?_
    rintro (⟨s, h⟩ | ⟨w, h, _⟩) <;> exact nomatch h

omit hdot in
theorem isText_of_wrapTable {v w : Value} (hv : v.IsReference) (h : g.wrapTable v = .ok w) :
    w.IsText := by
  obtain ⟨s, rfl⟩ | ⟨_, rfl, s, rfl⟩ := hv
  · have hwrap : g.wrapTable (.text s) = (g.wrapText true (p ++ s)).map .text := by
      show (do g.wrapAs true (← g.tablePrefix.plus (.text s)) : Except Failure Value) = _
      rw [hp]
      rfl
    obtain ⟨t, _, rfl⟩ := Name.map_eq_ok (hwrap ▸ h)
    exact ⟨t, rfl⟩
  · cases h
    exact ⟨s, rfl⟩

theorem wrappedTable_explained (v : Value) :
    Explained (g.Blames p inner) [.table v] (g.wrappedTable v) :=
  (wrapTable_explained hp hdot v).map _

/-! ## Values -/

omit hp hdot in
theorem parameterize_explained (values : List Value) :
    Explained (g.Blames p inner) (values.map .value) (parameterize values) := by
  have hmapM : parameterize values =
      (values.mapM fun v => .ok (parameter v)) >>= joinTexts ", " := by
    show _ = (values.mapM fun v => pure (parameter v)) >>= joinTexts ", "
    rw [List.mapM_pure]
    rfl
  rw [hmapM]
  refine .joinTexts (fun v _ => ?_) (fun v _ w hw hnot => ?_) ", "
  · exact explained_own _ rfl fun h => h
  · cases hw
    exact .own hnot

omit hp hdot in
theorem integersSql_explained (values : List Int) :
    Explained (g.Blames p inner) (values.map .number) (integersSql values) := by
  refine (Explained.mapM_single fun i _ => ?_).bind_ok _
  unfold integerText
  split
  · exact explained_own _ rfl fun h => h
  · rename_i hlong
    exact explained_error (List.mem_singleton_self _) (.own hlong)

omit hp hdot in
theorem countText_explained (n : Nat) :
    Explained (g.Blames p inner) [.number n] (countText n) := by
  unfold countText
  split
  · exact explained_own _ rfl fun h => h
  · rename_i hlong
    exact explained_error (List.mem_singleton_self _) (.own hlong)

/-! ## JSON conditions -/

/-- In a dialect with paths every path into a JSON column is taken apart. -/
theorem fieldAndPath_isOk (hd : g.dialect ≠ .ansi) (s : String) :
    ∃ found, g.fieldAndPath s = .ok found := by
  have hwrap : ∀ cs, ∃ out, Name.wrap g.dialect g.namePrefix false cs = .ok out := by
    intro cs
    rw [namePrefix_eq hp]
    exact Name.wrap_isOk false cs (fun h => absurd h hd) hdot
  unfold fieldAndPath Name.fieldAndPath
  cases Name.splitArrow? s.toList with
  | none =>
    obtain ⟨out, hout⟩ := hwrap s.toList
    dsimp only
    rw [hout]
    exact ⟨_, rfl⟩
  | some cut =>
    obtain ⟨out, hout⟩ := hwrap cut.1
    dsimp only
    rw [hout]
    exact ⟨_, rfl⟩

theorem wrap_isOk (hd : g.dialect ≠ .ansi) (v : Value) : ∃ w, g.wrap v = .ok w := by
  cases hv : v.reference? with
  | none =>
    cases v with
    | raw w => exact ⟨w, rfl⟩
    | _ => exact nomatch hv
  | some s =>
    rw [wrap_of_reference hv, wrapText, namePrefix_eq hp]
    obtain ⟨out, hout⟩ := Name.wrap_isOk false s.toList (fun h => absurd h hd) hdot
    rw [hout]
    exact ⟨_, rfl⟩

omit hp hdot in
/-- A column that is no text explains what goes wrong with it, except for a construct that is
lacking. -/
theorem explained_asked {r : Except Failure α} (hown : item.part? = none) (hasks : item.Asks)
    (hwrites : ¬item.Writes) (hrefuses : ¬g.Refuses p item)
    (h : ∀ e, r = .error e → e.reason = .unanswered ∨ e.reason = .fault) :
    Explained (g.Blames p inner) [item] r := by
  cases r with
  | ok a => exact explained_own a hown hrefuses
  | error e =>
    refine explained_error (List.mem_singleton_self _) ?_
    rcases h e rfl with hreason | hreason
    · exact hreason ▸ .own hasks
    · exact hreason ▸ .own hwrites

theorem jsonFieldAndPath_explained {oracle : Oracle} (ho : oracle.Mild) {column : Value}
    (hd : g.dialect ≠ .ansi) (hown : item.part? = none) (hasks : ¬column.IsText → item.Asks)
    (hwrites : ¬column.IsText → ¬item.Writes) (hrefuses : ¬g.Refuses p item) :
    Explained (g.Blames p inner) [item] (g.jsonFieldAndPath oracle column) := by
  have hother : ¬column.IsText → Explained (g.Blames p inner) [item] (do
      let pieces ← column.answerBy oracle (.split "->" (some 1))
      let field ← g.wrap (← pieces.subscript (.int 0))
      if 1 < (← pieces.length) then
        let path ← (← pieces.subscript (.int 1)).asText
        return (field, String.ofList (Name.pathArgument path.toList))
      else return (field, "")) := by
    intro hcolumn
    have hfault : ∀ {β : Type} {r : Except Failure β},
        (∀ e, r = .error e → e.reason = .unanswered ∨ e.reason = .fault) →
        Explained (g.Blames p inner) [item] r := fun h =>
      explained_asked hown (hasks hcolumn) (hwrites hcolumn) hrefuses h
    refine (hfault fun e => Value.answerBy_reason ho).bind_same fun pieces _ => ?_
    refine (hfault fun e h => .inr (Value.subscript_reason h)).bind_same fun first _ => ?_
    obtain ⟨field, hfield⟩ := wrap_isOk hp hdot hd first
    rw [hfield]
    refine (hfault fun e h => .inr (Value.length_reason h)).bind_same fun length _ => ?_
    split
    · refine (hfault fun e h => .inr (Value.subscript_reason h)).bind_same fun second _ => ?_
      exact (hfault fun e h => .inr (Value.asText_reason h)).bind_ok _
    · exact explained_own _ hown hrefuses
  cases column with
  | text s =>
    obtain ⟨found, hfound⟩ := fieldAndPath_isOk hp hdot hd s
    show Explained _ _ ((g.fieldAndPath s).map _)
    rw [hfound]
    exact explained_own _ hown hrefuses
  | _ => exact hother fun ⟨_, h⟩ => nomatch h

theorem documentArrows_explained {oracle : Oracle} (ho : oracle.Mild) {column : Value}
    (hd : g.dialect ≠ .ansi) (hown : item.part? = none) (hasks : ¬column.IsText → item.Asks)
    (hwrites : ¬column.IsText → ¬item.Writes) (hrefuses : ¬g.Refuses p item) :
    Explained (g.Blames p inner) [item] (do documentArrows oracle (← g.wrap column)) := by
  obtain ⟨w, hw⟩ := wrap_isOk hp hdot hd column
  rw [hw]
  by_cases hcolumn : column.IsText
  · obtain ⟨s, rfl⟩ := isText_of_wrap (.inl hcolumn) hw
    exact explained_own _ hown hrefuses
  · refine Explained.map ?_ Value.display
    exact explained_asked hown (hasks hcolumn) (hwrites hcolumn) hrefuses fun e =>
      Value.replacedBy_reason ho

theorem jsonContainsSql_explained {oracle : Oracle} (ho : oracle.Mild) (column value : Value) :
    Explained (g.Blames p inner) [.jsonContains column] (g.jsonContainsSql oracle column value) := by
  have hrefused : (g.dialect = .ansi ∨ g.dialect = .sqlite) → Explained (g.Blames p inner)
      [.jsonContains column] (.error (.unsupported .jsonContains) : Except Failure String) :=
    fun hd => explained_error (List.mem_singleton_self _) (.own hd)
  cases hd : g.dialect with
  | ansi =>
    simp only [jsonContainsSql, hd]
    exact hrefused (.inl hd)
  | sqlite =>
    simp only [jsonContainsSql, hd]
    exact hrefused (.inr hd)
  | mysql =>
    simp only [jsonContainsSql, hd]
    have hpair : Explained (g.Blames p inner) [.jsonContains column]
        (g.jsonFieldAndPath oracle column) :=
      jsonFieldAndPath_explained hp hdot ho (by simp [hd]) rfl id id (by simp [Refuses, hd])
    exact hpair.bind_ok _
  | postgres =>
    simp only [jsonContainsSql, hd]
    have hcolumn : Explained (g.Blames p inner) [.jsonContains column]
        (do documentArrows oracle (← g.wrap column)) :=
      documentArrows_explained hp hdot ho (by simp [hd]) rfl id id (by simp [Refuses, hd])
    rw [← bind_assoc]
    exact hcolumn.bind_ok _

theorem jsonLengthSql_explained {oracle : Oracle} (ho : oracle.Mild) (column : Value)
    (operator : String) (value : Value) : Explained (g.Blames p inner) [.jsonLength column]
      (g.jsonLengthSql oracle column operator value) := by
  have hpair : g.dialect ≠ .ansi → Explained (g.Blames p inner) [.jsonLength column]
      (g.jsonFieldAndPath oracle column) := fun hd =>
    jsonFieldAndPath_explained hp hdot ho hd rfl id id hd
  cases hd : g.dialect with
  | ansi =>
    simp only [jsonLengthSql, hd]
    exact explained_error (List.mem_singleton_self _) (.own hd)
  | mysql | sqlite =>
    simp only [jsonLengthSql, hd]
    exact (hpair (by simp [hd])).bind_ok _
  | postgres =>
    simp only [jsonLengthSql, hd]
    have hcolumn : Explained (g.Blames p inner) [.jsonLength column]
        (do documentArrows oracle (← g.wrap column)) :=
      documentArrows_explained hp hdot ho (by simp [hd]) rfl id id (by simp [Refuses, hd])
    rw [← bind_assoc]
    exact hcolumn.bind_ok _

/-! ## Conditions -/

theorem comparisonSql_explained (column : Value) (operator : String) (value : Value) :
    Explained (g.Blames p inner) [.column column] (g.comparisonSql column operator value) :=
  (wrapped_explained hp hdot column).bind_ok _

theorem basicSql_explained (column : Value) (operator : String) (value : Value) :
    Explained (g.Blames p inner) [.column column] (g.basicSql column operator value) := by
  unfold basicSql
  split
  · exact (wrapped_explained hp hdot column).bind_ok _
  · exact comparisonSql_explained hp hdot column operator value

theorem amongSql_explained {values : Except Failure String} {xs : List Item}
    (h : Explained (g.Blames p inner) xs values) (column : Value) (isEmpty negated : Bool) :
    Explained (g.Blames p inner) (if isEmpty then [] else .column column :: xs)
      (g.amongSql column values isEmpty negated) := by
  unfold amongSql
  cases isEmpty with
  | true => exact explained_ok _
  | false => exact (wrapped_explained hp hdot column).bind fun _ _ => h.bind_ok _

theorem plainNullSql_explained (column : Value) (negated : Bool) :
    Explained (g.Blames p inner) [.column column] (g.plainNullSql column negated) :=
  (wrapped_explained hp hdot column).bind_ok _

theorem nullSql_explained (column : Value) (negated : Bool) :
    Explained (g.Blames p inner) [.column column] (g.nullSql column negated) := by
  unfold nullSql
  split
  · rename_i s hd
    split
    · obtain ⟨found, hfound⟩ := fieldAndPath_isOk hp hdot (by simp [hd]) s
      rw [hfound]
      refine explained_own _ rfl ?_
      rintro ⟨_, _, hansi, _⟩
      exact nomatch hd.symm.trans hansi
    · exact plainNullSql_explained hp hdot _ negated
  · exact plainNullSql_explained hp hdot _ negated

theorem betweenSql_explained (column : Value) (values : List Value) (negated : Bool) :
    Explained (g.Blames p inner) (if values.isEmpty then [.missing] else [.column column])
      (g.betweenSql column values negated) := by
  cases values with
  | nil => exact explained_error (List.mem_singleton_self _) (.own id)
  | cons first rest =>
    unfold betweenSql
    rw [List.head?_cons, List.getLast?_cons]
    exact (wrapped_explained hp hdot column).bind_ok _

theorem datePartSql_explained (part : DatePart) (column : Value) (operator : String)
    (value : Value) : Explained (g.Blames p inner) [.column column]
      (g.datePartSql part column operator value) :=
  (wrapped_explained hp hdot column).bind_ok _

theorem havingSql_explained (body : Having) :
    Explained (g.Blames p inner) body.items (g.havingSql body) := by
  cases body with
  | basic column operator value => exact comparisonSql_explained hp hdot column operator value
  | raw sql => exact explained_ok _
  | between column values negated => exact betweenSql_explained hp hdot column values negated
  | null column negated => exact plainNullSql_explained hp hdot column negated

theorem havingsSql_explained (conditions : List GroupCondition) :
    Explained (g.Blames p inner) (conditions.flatMap (·.body.items)) (g.havingsSql conditions) :=
  (Explained.mapM fun condition _ => (havingSql_explained hp hdot condition.body).bind_ok _).bind_ok _

/-! ## Orderings and paging -/

theorem ordersSql_explained (orders : List Order) :
    Explained (g.Blames p inner) (orderItems orders) (g.ordersSql orders) := by
  unfold ordersSql
  rw [← bind_assoc]
  refine Explained.bind_ok (.joinTexts (fun order _ => ?_) (fun order _ v hv hnot => ?_) ", ") _
  · cases order with
    | raw sql => exact explained_own sql rfl fun h => h
    | byColumn column direction => exact (wrapped_explained hp hdot column).bind_ok _
  · cases order with
    | raw sql =>
      cases hv
      exact .own hnot
    | byColumn column direction =>
      obtain ⟨s, _, hs⟩ := Name.bind_eq_ok hv
      cases hs
      exact absurd ⟨_, rfl⟩ hnot

theorem trailingOrders_explained (orders : List Order) :
    Explained (g.Blames p inner) (orderItems orders) (trailingOf orders g.ordersSql) := by
  unfold trailingOf
  cases orders with
  | nil => exact explained_ok _
  | cons first rest => exact (ordersSql_explained hp hdot (first :: rest)).map _

omit hp hdot in
/-- A clause that writes a count of rows, if it is there. -/
theorem count_explained {sql : Nat → Except Failure String}
    (h : ∀ n : Nat, Explained (g.Blames p inner) [.number n] (sql n)) (count : Option Nat) :
    Explained (g.Blames p inner) (countItems count) (count.elim (.ok "") sql) := by
  cases count with
  | none => exact explained_ok _
  | some n => exact h n

omit hp hdot in
theorem limitSql_explained (n : Nat) : Explained (g.Blames p inner) [.number n] (limitSql n) :=
  (countText_explained n).bind_ok _

omit hp hdot in
theorem offsetSql_explained (n : Nat) : Explained (g.Blames p inner) [.number n] (offsetSql n) :=
  (countText_explained n).bind_ok _

/-! ## Select lists and sources -/

theorem aggregateSql_explained (distinct : Bool) (aggregate : Aggregate) :
    Explained (g.Blames p inner) (aggregate.columns.map .column)
      (g.aggregateSql distinct aggregate) :=
  (columnize_explained hp hdot aggregate.columns).bind_ok _

theorem selectList_explained (q : Query) :
    Explained (g.Blames p inner)
      (if q.aggregate.isSome then [] else (q.columns.getD [.text "*"]).map .column)
      (g.selectList q) := by
  unfold selectList
  cases q.aggregate with
  | some aggregate =>
    refine .ifAny _ (explained_ok _) fun _ => ?_
    rfl
  | none =>
    refine .ifAny _ ?_ fun h => ?_
    · exact (columnize_explained hp hdot _).bind_ok _
    · rw [h]
      rfl

omit hp hdot in
/-- What stands before the source: an aggregate, or else the select list. -/
theorem listItems_eq (q : Query) : q.listItems =
    q.aggregate.elim [] (·.columns.map .column) ++
      if q.aggregate.isSome then [] else (q.columns.getD [.text "*"]).map .column := by
  unfold Query.listItems
  cases q.aggregate with
  | some aggregate => exact (List.append_nil _).symm
  | none => rfl

theorem sourceSql_explained (source : Value) :
    Explained (g.Blames p inner) (if source.isPresent then [.table source] else [])
      (g.sourceSql source) := by
  unfold sourceSql
  cases source.isPresent with
  | false => exact explained_ok _
  | true =>
    have htable : Explained (g.Blames p inner) [.table source] (g.wrapTable source) :=
      wrapTable_explained hp hdot source
    refine htable.bind_same fun w hw => ?_
    have htext : ∀ e, w.asText = .error e → ¬source.IsReference := by
      intro e he hsource
      obtain ⟨s, rfl⟩ := isText_of_wrapTable hp hsource hw
      exact nomatch he
    unfold textBefore
    cases hs : w.asText with
    | ok s => exact explained_written _ (htable.done w hw _ (List.mem_singleton_self _))
    | error e =>
      refine explained_error (List.mem_singleton_self _) ?_
      exact Value.asText_reason hs ▸ .own (htext e hs)

end

end Grammar

end FluentSql
