import FluentSql.Proofs.Building.Grouping

/-!
# Calls for joins

A join is built on a query of its own, which is then attached with its values.
The values of a joined sub-query are bound before the condition of the join is
built.

* `JoinAllowed` is what the condition of a join must be.
* `Ready.buildJoin` builds the query of a join, and `Ready.attachJoin` attaches
  it.
* `Ready.join`, `Ready.joinSub`, `Ready.crossJoin` and `Ready.on` are the calls.
-/

namespace FluentSql

/-- The condition of a join: what a callback builds, a comparison with a value, or one of
columns. -/
def JoinAllowed (g : Grammar) (avail : Offers) (first operator second : Value)
    (byValue : Bool) : Prop :=
  CallableAllowed avail first ∨
    ConditionAllowed g avail (if byValue then .values else .columns) first (some operator)
      (some second) (.text "and")

section

variable {g : Grammar} {p : String} {run : Runner} {avail : Offers}
variable {s s' s1 s2 : Store} {notes notes' notes1 : QueryId → Notes} {t condition : QueryId}
variable {ahead : List Value}

/-- A query that got no values but those of conditions still has no others. -/
theorem Query.OnlyConditions.of_wheres {q q' : Query} (h : q.OnlyConditions)
    (hsame : q'.bindings = q.bindings.set .condition q'.bindings.condition) :
    q'.OnlyConditions := by
  unfold Query.OnlyConditions at h ⊢
  rw [hsame, h]
  rfl

/-- A join makes a query, builds its condition, and attaches it. -/
theorem ran_join {table first operator second type : Value} {byValue : Bool} {u : Unit}
    (hran : Ran (t.join run table first operator second type byValue) s u s') :
    ∃ join s1 s2, Ran (t.newJoin type table) s join s1 ∧
      Ran (if first.isCallable then discard (first.call run join [])
        else if byValue then join.where run first (some operator) (some second) (.text "and")
        else join.on run first operator second (.text "and")) s1 () s2 ∧
      Ran (t.attachJoin join) s2 u s' := by
  unfold QueryId.join at hran
  rw [ran_bind] at hran
  obtain ⟨join, s1, hnew, hran⟩ := hran
  split at hran
  · rename_i hcallable
    obtain ⟨_, s2, hbuild, hattach⟩ := ran_bind.1 hran
    exact ⟨join, s1, s2, hnew, by rw [if_pos hcallable]; exact hbuild, hattach⟩
  · rename_i hcallable
    split at hran
    · rename_i hvalue
      obtain ⟨_, s2, hbuild, hattach⟩ := ran_bind.1 hran
      exact ⟨join, s1, s2, hnew, by rw [if_neg hcallable, if_pos hvalue]; exact hbuild, hattach⟩
    · rename_i hvalue
      obtain ⟨_, s2, hbuild, hattach⟩ := ran_bind.1 hran
      exact ⟨join, s1, s2, hnew, by rw [if_neg hcallable, if_neg hvalue]; exact hbuild, hattach⟩

/-- The query of a join is attached with its values. -/
theorem attachJoin_ran (hne : condition ≠ t) {u : Unit} (hran : Ran (t.attachJoin condition) s u s') :
    s' = s.edit t fun q => ({ q with joins := q.joins ++ [condition] } : Query).bind .join
      (s.query condition).bindings.flatten := by
  unfold QueryId.attachJoin QueryId.bindings QueryId.bind at hran
  simp only [ran_bind, ran_modify, ran_read, ran_pure] at hran
  obtain ⟨_, _, rfl, _, _, ⟨_, _, ⟨rfl, rfl⟩, rfl, rfl⟩, rfl⟩ := hran
  rw [Store.edit_edit, Store.query_edit_of_ne hne]

namespace Ready

/-- A comparison of columns, or the group that a callback builds. -/
theorem on (h : Ready g p run avail s notes t) (hstands : s.Stands notes t)
    {first operator second boolean : Value} (hboolean : WordHolds boolean)
    (hallowed : CallableAllowed avail first ∨
      ConditionAllowed g avail .columns first (some operator) (some second) boolean) {u : Unit}
    (hran : Ran (t.on run first operator second boolean) s u s') :
    KeptIn .condition g avail s notes t s' := by
  unfold QueryId.on at hran
  split at hran
  · rename_i hcallable
    have hcallback := hallowed.elim id fun hcondition => hcondition.callable hcallable
    exact h.whereNested hstands hcallback hboolean hran
  · rename_i hcallable
    have hcondition := hallowed.resolve_left fun hcallback => hcallable hcallback.isCallable
    exact h.whereColumn hstands hcondition hran

/-- The query of a join with its condition. -/
theorem buildJoin (h : Ready g p run avail s notes t) {table type first operator second : Value}
    {byValue : Bool} (htype : WordHolds type) (htable : TableHolds g table ahead)
    (hallowed : JoinAllowed g avail first operator second byValue)
    (hnew : Ran (t.newJoin type table) s condition s1) {u : Unit}
    (hran : Ran (if first.isCallable then discard (first.call run condition [])
      else if byValue then condition.where run first (some operator) (some second) (.text "and")
      else condition.on run first operator second (.text "and")) s1 u s') :
    ∃ notes', Later g ∅ avail.queries s notes s' notes' ∧ s'.Stands notes' condition ∧
      condition = s.next ∧ (notes' condition).table = ahead ∧
      (s'.query condition).OnlyConditions := by
  unfold QueryId.newJoin at hnew
  simp only [ran_bind, ran_read, ran_create] at hnew
  obtain ⟨_, s, ⟨rfl, rfl⟩, rfl, rfl⟩ := hnew
  have hblank : ({ kind := .join type table, connection := (s.query t).connection,
                   grammar := (s.query t).grammar } : Query).Noted g s notes { table := ahead } :=
    Query.blank_noted h.grammar ⟨htype, htable⟩ rfl fun _ => h.compiles.noSource
  obtain ⟨hready, hstands⟩ := h.new hblank rfl
  have hand : WordHolds (.text "and") := ⟨rfl, by decide⟩
  have hend : ∀ {q : Query}, q.Noted g s notes { table := ahead } → q.attachments = [] →
      q.bindings = {} →
      KeptIn .condition g avail (s.add q) (Function.update notes s.next { table := ahead }) s.next s' →
      ∃ notes', Later g ∅ avail.queries s notes s' notes' ∧ s'.Stands notes' s.next ∧ s.next = s.next ∧
        (notes' s.next).table = ahead ∧ (s'.query s.next).OnlyConditions := by
    rintro q hq hnone hempty ⟨⟨notes', hlater, hstands'⟩, hsame⟩
    have hthere : s.next.index < (s.add q).queries.size := by
      rw [s.size_add]
      exact Nat.lt_succ_self _
    have hkept := (hlater.kept s.next hthere).table
    rw [Function.update_self] at hkept
    refine ⟨notes', (h.add hq hnone).trans hlater ?_ fun id hid _ => hid, hstands', rfl, hkept, ?_⟩
    · rintro id rfl hid
      exact absurd hid (Nat.lt_irrefl _)
    · refine Query.OnlyConditions.of_wheres ?_ hsame
      rw [s.query_add_next]
      unfold Query.OnlyConditions
      rw [hempty]
  unfold JoinAllowed at hallowed
  split at hran
  · rename_i hcallable
    obtain ⟨callback, hcallback, rfl⟩ :=
      hallowed.elim id fun hcondition => hcondition.callable hcallable
    obtain ⟨v, hrun⟩ := ran_discard.1 hran
    obtain ⟨notes', hlater, hstands', htable', _, honly⟩ := h.run_new hblank rfl hcallback hrun
    exact ⟨notes', hlater, hstands', rfl, htable', honly fun hkind => by cases hkind⟩
  · rename_i hcallable
    have hcondition := hallowed.resolve_left fun hcallback => hcallable hcallback.isCallable
    split at hran
    · rename_i hvalue
      rw [if_pos hvalue] at hcondition
      exact hend hblank rfl rfl (hready.where hstands hcondition hran)
    · rename_i hvalue
      rw [if_neg hvalue] at hcondition
      exact hend hblank rfl rfl (hready.on hstands hand (.inr hcondition) hran)

/-- The query of a join with its values, of which those of the joined table are bound ahead. -/
theorem attachJoin (h : Ready g p run avail s notes t)
    (hp : Pending g avail s notes t .join ahead s1 notes1) (hjoin : s1.Stands notes1 condition)
    (hne : condition ≠ t) (hfrom : s.queries.size ≤ condition.index) (htable : (notes1 condition).table = ahead)
    (honly : (s1.query condition).OnlyConditions) :
    KeptIn .join g avail s notes t (s1.edit t fun q =>
      ({ q with joins := q.joins ++ [condition] } : Query).bind .join
        (s1.query condition).bindings.flatten) := by
  have hnoted := hp.noted.addJoin hjoin honly (by rw [htable]; exact hp.data)
    (hp.later.noted.queries condition hjoin).data
    (Nat.le_add_right (notes t).rank ((notes1 condition).rank + 1)) (by omega)
  have hquery : ({ s1.query t with joins := (s1.query t).joins ++ [condition] } : Query).bind .join
      (s1.query condition).bindings.flatten =
      ({ s.query t with joins := (s.query t).joins ++ [condition] } : Query).bind .join
        ((notes1 condition).table ++ (s1.query condition).bindings.flatten) := by
    rw [hp.query, htable, ← Query.bind_bind]
    rfl
  refine ⟨?_, by rw [Store.query_edit_self (h.later hp.later).there, hquery]; rfl⟩
  rw [← hquery] at hnoted
  refine h.close hp.later hnoted hp.closed ?_ (hp.frame.trans ?_)
  · intro id hid
    rcases Query.mem_attachments.1 hid with hold | hrest
    · rcases List.mem_append.1 hold with hold | hnew
      · exact .inl (Query.mem_attachments.2 (.inl hold))
      · rw [List.mem_singleton.1 hnew]
        exact .inr (.inr ⟨hne, hfrom⟩)
    · exact .inl (Query.mem_attachments.2 (.inr hrest))
  · rw [hquery]
    exact ⟨rfl, rfl, rfl, rfl⟩

/-- A join of a table whose values are bound ahead. -/
theorem joinAhead (h : Ready g p run avail s notes t)
    (hp : Pending g avail s notes t .join ahead s1 notes1)
    {table first operator second type : Value} {byValue : Bool} (htype : WordHolds type)
    (htable : TableHolds g table ahead)
    (hallowed : JoinAllowed g avail first operator second byValue) {u : Unit}
    (hran : Ran (t.join run table first operator second type byValue) s1 u s') :
    KeptIn .join g avail s notes t s' := by
  obtain ⟨join, s2, s3, hnew, hbuild, hattach⟩ := ran_join hran
  have h1 := h.later hp.later
  obtain ⟨notes3, hlater, hjoin, rfl, htable3, honly⟩ :=
    h1.buildJoin htype htable hallowed hnew hbuild
  have hne : s1.next ≠ t := by
    rintro rfl
    exact absurd h1.there (Nat.lt_irrefl _)
  obtain rfl := attachJoin_ran hne hattach
  exact h.attachJoin (hp.after h hlater) hjoin hne hp.later.size htable3 honly

theorem join (h : Ready g p run avail s notes t) (hstands : s.Stands notes t)
    {table first operator second type : Value} {byValue : Bool} (htype : WordHolds type)
    (htable : TableHolds g table [])
    (hallowed : JoinAllowed g avail first operator second byValue) {u : Unit}
    (hran : Ran (t.join run table first operator second type byValue) s u s') :
    KeptIn .join g avail s notes t s' :=
  h.joinAhead (.none h hstands .join) htype htable hallowed hran

theorem joinSub (h : Ready g p run avail s notes t) (hstands : s.Stands notes t)
    {query name first operator second type : Value} {byValue : Bool} (htype : WordHolds type)
    (hquery : CreatesText g run avail s notes t query) (hname : TableHolds g name [])
    (hallowed : JoinAllowed g avail first operator second byValue) {u : Unit}
    (hran : Ran (t.joinSub run query name first operator second type byValue) s u s') :
    KeptIn .join g avail s notes t s' := by
  unfold QueryId.joinSub QueryId.bind at hran
  simp only [ran_bind, ran_modify] at hran
  obtain ⟨sub, s1, hsub, sql, s2, hwrapped, _, _, rfl, hran⟩ := hran
  obtain ⟨notes1, hlater, hreads, hdata⟩ := hquery sub _ hsub
  obtain ⟨rfl, hsealed⟩ := (h.after hlater).wrappedTable hname hwrapped
  have htable : TableHolds g (.raw (.text ("(" ++ sub.sql ++ ") as " ++ sql))) sub.bindings :=
    ⟨rfl, reads_named hreads hsealed⟩
  exact h.joinAhead (.start h hstands hlater .join hdata) htype htable hallowed hran

theorem crossJoin (h : Ready g p run avail s notes t) (hstands : s.Stands notes t)
    {table first operator second : Value} (htable : TableHolds g table [])
    (hallowed : first.isNull = false → JoinAllowed g avail first operator second false) {u : Unit}
    (hran : Ran (t.crossJoin run table first operator second) s u s') :
    KeptIn .join g avail s notes t s' := by
  have hcross : WordHolds (.text "cross") := ⟨rfl, by decide⟩
  unfold QueryId.crossJoin QueryId.newJoin at hran
  split at hran
  · simp only [ran_bind, ran_read, ran_create, ran_modify] at hran
    obtain ⟨_, _, ⟨_, s, ⟨rfl, rfl⟩, rfl, rfl⟩, rfl⟩ := hran
    have hblank : ({ kind := .join (.text "cross") table, connection := (s.query t).connection,
                     grammar := (s.query t).grammar } : Query).Noted g s notes {} :=
      Query.blank_noted h.grammar ⟨hcross, htable⟩ rfl fun _ => h.compiles.noSource
    obtain ⟨hready, hjoin⟩ := h.new hblank rfl
    have hne : s.next ≠ t := by
      rintro rfl
      exact absurd h.there (Nat.lt_irrefl _)
    have hself := s.query_add_next { kind := .join (.text "cross") table,
                                     connection := (s.query t).connection,
                                     grammar := (s.query t).grammar }
    have hattach := h.attachJoin ((Pending.none h hstands .join).after h (h.add hblank rfl)) hjoin
      hne (Nat.le_refl _) (by rw [Function.update_self]) (by rw [hself]; rfl)
    rw [hself] at hattach
    have hsame : (fun q : Query =>
        ({ q with joins := q.joins ++ [s.next] } : Query).bind .join
          ({} : Bindings).flatten) = fun q => { q with joins := q.joins ++ [s.next] } :=
      funext fun q => Query.bind_nil _ _
    exact hsame ▸ hattach
  · rename_i hnull
    exact h.join hstands hcross htable (hallowed (Bool.eq_false_of_not_eq_true hnull)) hran

end Ready

end

end FluentSql
