import FluentSql.Proofs.Apart
import FluentSql.Proofs.Operators.Basic
import FluentSql.Proofs.Parallel.Selecting
import FluentSql.Proofs.Restricting
import FluentSql.Proofs.Supporting

/-!
# Membership by an operator

No query knows the words for membership in the rows of a sub-query as operators,
so a comparison with them is refused.  What the comparison would add keeps the
sub-query, and a membership condition keeps its text; the two are compiled to
the same SQL.

* `Store.not_isOperator_membership` says that the words are no operators.
* `Store.shownWith_congr` compares values that follow queries in two stores.
* `Store.withCondition` is a store to whose query a condition was added, and
  `whereSub_runOn` and `whereIn_sub_ran` say that nothing else is done.
* `Store.selectSql_membership` compares the two conditions, and
  `membership_refused_and_same` is the result.
-/

namespace FluentSql

/-! ## The words for membership -/

section

variable {s : Store} {q : QueryId} {word : String} {negated : Bool} {words : List String}

/-- No grammar adds a word for membership to the operators. -/
theorem Store.not_isOperator_membership (hwords : s.operatorsOf (s.query q).grammar = .ok words)
    (hword : Text.lower word = negatable negated "in") : s.isOperator q word = .ok false := by
  have hcommon : ∀ negated, negatable negated "in" ∉ Dialect.commonOperators := by decide
  have hadded : ∀ negated, ∀ d : Dialect, negatable negated "in" ∉ d.operators := by
    intro negated d
    cases d <;> cases negated <;> decide
  have hnot : negatable negated "in" ∉ words := by
    obtain rfl | ⟨d, rfl⟩ := Store.operatorsOf_eq_ok hwords
    · exact hcommon negated
    · exact hadded negated d
  unfold Store.isOperator FluentSql.isOperator
  rw [hword, hwords, if_neg fun h => hcommon negated (List.contains_iff_mem.1 h)]
  exact congrArg _ (Bool.eq_false_iff.2 fun h => hnot (List.contains_iff_mem.1 h))

/-- A comparison with a word for membership is refused, whatever it compares. -/
theorem where_membership_refused (run : Runner)
    (hwords : s.operatorsOf (s.query q).grammar = .ok words)
    (hword : Text.lower word = negatable negated "in") {column : Value}
    (hcolumn : ∀ read, (column.now.runOn s).1 = .ok read → QueryId.isConditionList read = false)
    (value boolean : Value) :
    (q.where run column (some (.text word)) (some value) boolean).runOn s =
      (.error (.argument (.operator (Value.text word).literal)), s) := by
  have hcomparison : (q.comparison (some (.text word)) (some value)).runOn s =
      (.error (.argument (.operator (Value.text word).literal)), s) := by
    have hcheck : Comparison.check (s.operatorsOf (s.query q).grammar) (.text word) value =
        .error (.argument (.operator (Value.text word).literal)) := by
      unfold Comparison.check
      show (s.isOperator q word >>= _) = _
      rw [Store.not_isOperator_membership hwords hword]
      rfl
    show (Comparison.check (s.operatorsOf (s.query q).grammar) (.text word) value, s) = _
    rw [hcheck]
  obtain ⟨read, hread⟩ : ∃ read, column.now.runOn s = (.ok read, s) := by
    unfold Value.now
    split <;> exact ⟨_, rfl⟩
  unfold QueryId.where
  rw [Action.runOn_bind, hread]
  dsimp only
  rw [if_neg (hcolumn read (congrArg Prod.fst hread) ▸ nofun)]
  have hgiven : ¬(read.isCallable && (some (Value.text word)).isNone) = true := by simp
  unfold QueryId.whereSingle
  rw [if_neg hgiven, Action.runOn_bind, hcomparison]

end

/-! ## Values that follow queries -/

/-- Renamings of bindings agree if they put the same in the place of the bindings that there are. -/
theorem Renaming.agree_of_bindings {f f' : QueryId → Value} {handles : List Handle}
    (h : ∀ id, Handle.bindings id ∈ handles → f id = f' id) :
    Renaming.Agree { bindings := f } { bindings := f' } handles := by
  intro x hx
  cases x with
  | bindings id => exact h id hx
  | _ => rfl

theorem Value.mem_handlesOfEntries {entries : List (Value × Value)} {x : Handle} :
    x ∈ Value.handlesOfEntries entries ↔
      ∃ entry ∈ entries, x ∈ entry.1.handles ∨ x ∈ entry.2.handles := by
  induction entries with
  | nil => exact ⟨nofun, fun ⟨_, h, _⟩ => nomatch h⟩
  | cons entry entries ih =>
    simp only [Value.handlesOfEntries, List.mem_append, ih, List.mem_cons, exists_eq_or_imp]

namespace Store

section

variable {s t : Store} {met : Handle → Prop}

/-- The objects in a group of bindings. -/
theorem mem_handlesOf_bindings {id : QueryId} {group : BindingGroup} {x : Handle}
    (h : x ∈ Value.handlesOfAll ((s.query id).bindings.get group)) :
    x ∈ s.handlesOf (.bindings id) := by
  show x ∈ Value.handlesOfAll (s.query id).bindings.flatten
  rw [Value.handlesOfAll_eq_flatMap] at h ⊢
  obtain ⟨v, hv, hx⟩ := List.mem_flatMap.1 h
  exact List.mem_flatMap.2 ⟨v, Bindings.mem_flatten hv, hx⟩

/-- A value is shown in the same way in two stores if the bindings that it shows are the same. -/
theorem shownWith_congr
    (hsame : ∀ id, met (.bindings id) → (t.query id).bindings = (s.query id).bindings)
    (hmet : ∀ id, met (.bindings id) → ∀ x ∈ s.handlesOf (.bindings id), met x) (fuel : Nat)
    (around : List QueryId) {v : Value} (hv : ∀ x ∈ v.handles, met x) :
    t.shownWith fuel around v = s.shownWith fuel around v := by
  induction fuel generalizing around v with
  | zero => rfl
  | succ fuel ih =>
    refine Value.substitute_congr v fun x hx => ?_
    cases x with
    | bindings id =>
      have hid := hv _ hx
      dsimp only
      rw [hsame id hid]
      split
      · rfl
      · refine congrArg Value.map (List.map_congr_left fun entry hentry => ?_)
        obtain ⟨group, _, rfl⟩ := List.mem_map.1 hentry
        exact congrArg _ (ih _ fun y hy => hmet id hid y (mem_handlesOf_bindings hy))
    | _ => rfl

/-- The objects in a value as it is shown are among those that are met, if the value's own are. -/
theorem handles_shownWith
    (hmet : ∀ id, met (.bindings id) → ∀ x ∈ s.handlesOf (.bindings id), met x) (fuel : Nat)
    (around : List QueryId) {v : Value} (hv : ∀ x ∈ v.handles, met x) :
    ∀ x ∈ (s.shownWith fuel around v).handles, met x := by
  induction fuel generalizing around v with
  | zero => exact hv
  | succ fuel ih =>
    intro x hx
    unfold shownWith at hx
    rw [Value.handles_substitute] at hx
    obtain ⟨y, hy, hx⟩ := List.mem_flatMap.1 hx
    have hmety := hv y hy
    cases y with
    | bindings id =>
      dsimp only at hx
      split at hx
      · exact List.mem_singleton.1 hx ▸ hmety
      · obtain ⟨entry, hentry, hx⟩ := Value.mem_handlesOfEntries.1 hx
        obtain ⟨_, hgroup, rfl⟩ := List.mem_map.1 hentry
        obtain ⟨group, _, rfl⟩ := List.mem_map.1 hgroup
        obtain hname | hvalues := hx
        · exact nomatch hname
        · refine ih (v := .list ((s.query id).bindings.get group)) _ (fun y hy => ?_) x hvalues
          exact hmet id hmety y (mem_handlesOf_bindings hy)
    | _ => exact List.mem_singleton.1 hx ▸ hmety

theorem shown_congr (hsize : t.queries.size = s.queries.size)
    (hsame : ∀ id, met (.bindings id) → (t.query id).bindings = (s.query id).bindings)
    (hmet : ∀ id, met (.bindings id) → ∀ x ∈ s.handlesOf (.bindings id), met x) {v : Value}
    (hv : ∀ x ∈ v.handles, met x) : t.shown v = s.shown v := by
  unfold shown
  rw [hsize]
  exact shownWith_congr hsame hmet _ _ hv

end

/-! ## Stores with one more condition -/

/-- The store after a condition was added to a query, with its values. -/
def withCondition (s : Store) (q : QueryId) (boolean : Value) (body : Where)
    (values : List Value) : Store :=
  s.edit q fun query => (query.addWhere boolean body).bind .condition values

section

variable {s : Store} {q r id : QueryId} {boolean : Value} {body body' : Where} {values : List Value}

@[simp] theorem size_withCondition :
    (s.withCondition q boolean body values).queries.size = s.queries.size :=
  size_edit s q _

theorem query_withCondition_of_ne (h : id ≠ q) :
    (s.withCondition q boolean body values).query id = s.query id :=
  query_edit_of_ne h _

theorem query_withCondition_self (hq : q.index < s.queries.size) :
    (s.withCondition q boolean body values).query q =
      ((s.query q).bind .condition values).addWhere boolean body :=
  query_edit_self hq _

/-- What a store shows after a condition was added depends on the values only. -/
theorem shown_withCondition (v : Value) : (s.withCondition q boolean body values).shown v =
    (s.edit q (·.bind .condition values)).shown v := by
  have hsame : ∀ id, ((s.withCondition q boolean body values).query id).bindings =
      ((s.edit q (·.bind .condition values)).query id).bindings := by
    intro id
    by_cases hid : id = q
    · subst hid
      by_cases hlt : id.index < s.queries.size
      · rw [query_withCondition_self hlt, query_edit_self hlt]
        rfl
      · rw [query_of_le (by simpa using hlt), query_of_le (by simpa using hlt)]
    · rw [query_withCondition_of_ne hid, query_edit_of_ne hid]
  exact @shown_congr _ _ (fun _ => True) (by simp) (fun id _ => hsame id)
    (fun _ _ _ _ => trivial) _ fun _ _ => trivial

/-- What takes the place of the bindings of queries once values were added. -/
def renamingWith (s : Store) (q : QueryId) (values : List Value) : Renaming where
  bindings id := (s.edit q (·.bind .condition values)).shown (.object (.bindings id))

theorem settled_withCondition_of_ne (h : id ≠ q) :
    (s.withCondition q boolean body values).settled.query id =
      (s.query id).rename (s.renamingWith q values) := by
  rw [query_settled, query_withCondition_of_ne h]
  simp only [shown_withCondition]
  rfl

theorem settled_withCondition_self (hq : q.index < s.queries.size) :
    (s.withCondition q boolean body values).settled.query q =
      (((s.query q).bind .condition values).rename (s.renamingWith q values)).addWhere
        ((s.renamingWith q values).value boolean) (body.rename (s.renamingWith q values)) := by
  rw [query_settled, query_withCondition_self hq]
  simp only [shown_withCondition]
  unfold Query.addWhere
  simp only [Query.rename, List.map_append]
  rfl

/-- The rest of the store is as before. -/
theorem oracle_withCondition (s : Store) (q : QueryId) (boolean : Value) (body body' : Where)
    (values : List Value) : (s.withCondition q boolean body values).settled.oracle [] =
    (s.withCondition q boolean body' values).settled.oracle [] := by
  have hkind : ∀ body id, ((s.withCondition q boolean body values).settled.query id).isJoin =
      (s.query id).isJoin := by
    have hrename : ∀ (query : Query) r, (query.rename r).isJoin = query.isJoin := by
      intro query r
      unfold Query.isJoin Query.rename
      cases query.kind <;> rfl
    intro body id
    rw [query_settled, hrename, withCondition]
    obtain heq | ⟨_, _, heq⟩ := s.query_edit_cases q
      (fun query => (query.addWhere boolean body).bind .condition values) id <;> rw [heq]
    rfl
  funext id request
  unfold Store.oracle Store.classOf
  rw [hkind, hkind]
  rfl

theorem grammarFor_withCondition {g : Grammar} {method : String}
    (h : s.grammarFor (s.query q).grammar method = .ok g) :
    (s.withCondition q boolean body values).settled.grammarFor
      ((s.withCondition q boolean body values).settled.query q).grammar method = .ok g := by
  have hsame : ((s.withCondition q boolean body values).query q).grammar = (s.query q).grammar := by
    rw [withCondition]
    obtain heq | ⟨_, _, heq⟩ := s.query_edit_cases q
      (fun query => (query.addWhere boolean body).bind .condition values) q <;> rw [heq]
    rfl
  rw [grammarFor_settled, hsame]
  generalize (s.query q).grammar = compiler at h ⊢
  cases compiler with
  | grammar id => exact h
  | _ => exact nomatch h

end

end Store

/-! ## Compiling both conditions -/

section

variable {g : Grammar} {attached attached' : Attached}

/-- A query is compiled alike with a condition in the place of another one that is compiled alike. -/
theorem Query.matches_addWhere (h : Attached.Matches True Eq Eq Eq attached attached')
    (horacle : attached.oracle = attached'.oracle) (query : Query) (boolean : Value)
    {body body' : Where}
    (hbody : Alike True Eq (g.whereSql attached body) (g.whereSql attached' body')) :
    (query.addWhere boolean body).Matches True Eq g g attached attached'
      (query.addWhere boolean body') :=
  have hsame : query.Matches True Eq g g attached attached' query := query.matches_same h horacle
  { hsame with wheres := List.rel_append hsame.wheres (.cons ⟨rfl, hbody⟩ .nil) }

/-- Attached queries are compiled alike in two stores that differ in one condition, if the condition
is compiled alike. -/
theorem attachedBy_rewritten {s t : Store} {oracle : Oracle} {q : QueryId} {query : Query}
    {boolean : Value} {body body' : Where} {more : Nat}
    (hother : ∀ id, id ≠ q → t.query id = s.query id)
    (hs : s.query q = query.addWhere boolean body) (ht : t.query q = query.addWhere boolean body')
    (hbody : ∀ depth, Alike True Eq (g.whereSql (attachedBy s g oracle depth) body)
      (g.whereSql (attachedBy t g oracle (depth + more)) body')) (depth : Nat) :
    Attached.Matches True Eq Eq Eq (attachedBy s g oracle depth)
      (attachedBy t g oracle (depth + more)) := by
  have hqueries : ∀ depth, Attached.Matches True Eq Eq Eq (attachedBy s g oracle depth)
      (attachedBy t g oracle (depth + more)) → ∀ id,
        (s.query id).Matches True Eq g g (attachedBy s g oracle depth)
          (attachedBy t g oracle (depth + more)) (t.query id) := by
    intro depth hmatches id
    have horacle : (attachedBy s g oracle depth).oracle =
        (attachedBy t g oracle (depth + more)).oracle :=
      (oracle_attachedBy ..).trans (oracle_attachedBy ..).symm
    by_cases hid : id = q
    · rw [hid, hs, ht]
      exact query.matches_addWhere hmatches horacle boolean (hbody depth)
    · rw [hother id hid]
      exact (s.query id).matches_same hmatches horacle
  refine @attachedBy_alike_at True Eq g g carried_eq s t oracle oracle Eq Eq
    (fun depth depth' => depth' = depth + more) (fun _ _ => .inr trivial)
    (fun depth _ h => ⟨depth + more, by omega, rfl⟩) (.same fun _ _ => rfl) ?_ ?_ depth _ rfl
  · rintro depth _ rfl hmatches id _ rfl
    exact hqueries depth hmatches id
  · rintro depth _ rfl hmatches id _ rfl
    exact (hqueries depth hmatches id).wheres

/-- Membership in the rows of a sub-query reads the same whether its text is there or still to be
compiled. -/
theorem whereSql_membership {r : QueryId} {sql : String} (column : Value) (negated : Bool)
    (h : attached.select r = .ok sql) :
    g.whereSql attached (.sub column (.text (negatable negated "in")) r) =
      g.whereSql attached' (.among column [.raw (.text sql)] negated) := by
  show (attached.select r >>= _) = _
  rw [h]
  rfl

theorem Alike.antisymm {α : Type} {x y : Except Failure α} (h : Alike True Eq x y)
    (h' : Alike True Eq y x) : x = y := by
  cases h with
  | ok h => exact congrArg _ h
  | error e => rfl
  | endless _ y =>
    generalize hx : (.error (.value .endless) : Except Failure α) = x at h'
    cases h' with
    | ok h => exact nomatch hx
    | error e => rfl
    | endless _ x => exact hx.symm

/-- Two stores that differ in one membership condition compile its query alike, if the one that keeps
the sub-query has room for all that is attached to the query. -/
theorem select_membership {s t : Store} {oracle : Oracle} {q r : QueryId} {query : Query}
    {boolean column : Value} {negated : Bool} {sql : String}
    (hother : ∀ id, id ≠ q → t.query id = s.query id)
    (hs : s.query q = query.addWhere boolean (.sub column (.text (negatable negated "in")) r))
    (ht : t.query q = query.addWhere boolean (.among column [.raw (.text sql)] negated))
    {depth more : Nat} (hsub : (attachedBy s g oracle more).select r = .ok sql)
    (hwithin : s.Within depth (.select q)) :
    (attachedBy s g oracle depth).select q = (attachedBy t g oracle depth).select q := by
  -- The kept sub-query has this text wherever there is room for it.
  have hbelow : ∀ depth, Alike True Eq ((attachedBy s g oracle depth).select r) (.ok sql) := by
    intro depth
    obtain hle | hle := Nat.le_total depth more
    · exact hsub ▸ (attachedBy_deeper s g oracle hle).select r r rfl
    · have hdeeper := (attachedBy_deeper s g oracle hle).select r r rfl
      rw [hsub] at hdeeper
      obtain ⟨_, hok, rfl⟩ := hdeeper.of_ok
      exact hok ▸ .same fun _ _ => rfl
  have hkept : Attached.Matches True Eq Eq Eq (attachedBy s g oracle depth)
      (attachedBy t g oracle (depth + 0)) := by
    refine attachedBy_rewritten hother hs ht (fun depth => ?_) depth
    have hselect := hbelow depth
    cases hr : (attachedBy s g oracle depth).select r with
    | ok text =>
      rw [hr] at hselect
      obtain ⟨_, hok, rfl⟩ := hselect.of_ok
      rw [whereSql_membership column negated (hr.trans hok.symm)]
      exact .same fun _ _ => rfl
    | error e =>
      rw [hr] at hselect
      cases hselect with
      | endless _ _ =>
        show Alike True Eq ((attachedBy s g oracle depth).select r >>= _) _
        rw [hr]
        exact .endless trivial _
  have hwritten : Attached.Matches True Eq Eq Eq (attachedBy t g oracle depth)
      (attachedBy s g oracle (depth + more)) := by
    refine attachedBy_rewritten (fun id hid => (hother id hid).symm) ht hs (fun depth => ?_) depth
    obtain ⟨_, hok, rfl⟩ : ∃ text, (attachedBy s g oracle (depth + more)).select r = .ok text ∧
        sql = text := by
      have hdeeper := (attachedBy_deeper s g oracle (Nat.le_add_left more depth)).select r r rfl
      rw [hsub] at hdeeper
      exact hdeeper.of_ok
    rw [whereSql_membership column negated hok]
    exact .same fun _ _ => rfl
  have henough : (attachedBy s g oracle depth).select q =
      (attachedBy s g oracle (depth + more)).select q :=
    hwithin.part_eq g oracle (Nat.le_add_right depth more)
  exact (hkept.select q q rfl).antisymm (henough ▸ hwritten.select q q rfl)

end

/-! ## The result -/

namespace Store

variable {s : Store} {q r : QueryId} {boolean column : Value} {negated : Bool}
  {values : List Value} {sql : String}

/-- Without extensions compiling asks nothing. -/
theorem Silent.compiled_asksNothing (h : s.Silent) (id : QueryId) :
    AsksNothing (s.compiled [] id "compile_select" Grammar.selectSql) := by
  have hresembles : Resembles {} (fun _ => True) s s :=
    { faithful := fun id => ⟨id, rfl⟩
      query := fun id _ => (Query.rename_same _).symm
      attached := fun _ _ => ⟨fun _ _ => trivial, fun _ _ _ _ => trivial, fun _ _ _ _ => trivial⟩
      silent := h
      silent' := h }
  have hsame : Reproduces True (s.compiled [] id "compile_select" Grammar.selectSql) _ :=
    hresembles.compiled trivial (.inl rfl) (fun _ => rfl) "compile_select"
  exact hsame.asksNothing

theorem Silent.settled (h : s.Silent) : s.settled.Silent := fun request =>
  show lookupKey (.text request.name) s.extensions = none from h request

theorem Silent.withCondition {body : Where} (h : s.Silent) :
    (s.withCondition q boolean body values).Silent := fun request =>
  show lookupKey (.text request.name) s.extensions = none from h request

/-- What is attached to a query is reached from it, also by way of bindings. -/
theorem attachedIn_settled {root id : QueryId} (h : s.Reaches (.query root) (.query id)) :
    (s.settled.query id).AttachedIn fun other => s.Reaches (.query root) (.query other) := by
  rw [query_settled]
  refine Meets.attachedIn fun other hother => ?_
  rw [Query.handles_rename] at hother
  obtain ⟨x, hx, hother⟩ := List.mem_flatMap.1 hother
  have hreaches : s.Reaches (.query root) x := h.step hx
  cases x with
  | bindings source =>
    exact @handles_shownWith s (s.Reaches (.query root)) (fun _ hid y hy => hid.step hy) _ _
      (.object (.bindings source)) (fun y hy => List.mem_singleton.1 hy ▸ hreaches) _ hother
  | _ => exact List.mem_singleton.1 hother ▸ hreaches

/-- A query that does not reach the one to which a condition is added is compiled as before. -/
theorem select_withCondition (hs : s.Silent) (hreach : ¬s.Reaches (.query r) (.query q))
    (boolean : Value) (body : Where) (values : List Value) (g : Grammar) (depth : Nat) :
    (attachedBy s.settled g (s.settled.oracle []) depth).select r =
      (attachedBy (s.withCondition q boolean body values).settled g
        ((s.withCondition q boolean body values).settled.oracle []) depth).select r := by
  have hshown : ∀ id, s.Reaches (.query r) (.bindings id) →
      (s.renamingWith q values).bindings id = s.shown (.object (.bindings id)) := by
    intro id hid
    refine @shown_congr s _ (s.Reaches (.query r)) (size_edit s q _) (fun other hother => ?_)
      (fun other hother x hx => hother.step hx) _ fun x hx => List.mem_singleton.1 hx ▸ hid
    rw [query_edit_of_ne fun heq : other = q => hreach (heq ▸ hother.owner)]
  have hresembles : Resembles {} (fun id => s.Reaches (.query r) (.query id)) s.settled
      (s.withCondition q boolean body values).settled :=
    { faithful := fun id => ⟨id, rfl⟩
      query := fun id hid => by
        have hne : id ≠ q := fun heq => hreach (heq ▸ hid)
        show (s.withCondition q boolean body values).settled.query id = _
        rw [Query.rename_same, query_settled s, settled_withCondition_of_ne hne]
        exact Query.rename_congr (Renaming.agree_of_bindings fun other hx =>
          hshown other (hid.step hx))
      attached := fun id hid => attachedIn_settled hid
      silent := hs.settled
      silent' := hs.withCondition.settled }
  have hselect : Reproduces False ((attachedBy s.settled g (s.settled.oracle []) depth).select r) _ :=
    (hresembles.attachedBy g (.inl rfl)).select r .refl
  exact hselect.same_or_endless.resolve_right fun h => h.1

/-- A query is compiled one level down from what is attached to it. -/
theorem compiled_eq_select {g : Grammar} {known : KnownAnswers}
    (hg : s.grammarFor (s.query q).grammar "compile_select" = .ok g) :
    s.compiled known q "compile_select" Grammar.selectSql =
      (attachedBy s g (s.oracle known) (s.attachedDepth + 1)).select q := by
  unfold compiled
  rw [hg]
  rfl

/-- Membership in a sub-query is compiled to the same SQL whether the sub-query is kept or was compiled
before, unless the query stands inside itself. -/
theorem compiled_membership (hq : q.index < s.queries.size) (hs : s.Silent)
    (hreach : ¬s.Reaches (.query r) (.query q))
    (hgrammar : (s.query r).grammar = (s.query q).grammar)
    (hsub : s.settled.compiled [] r "compile_select" Grammar.selectSql = .ok sql)
    (hcircle : (s.withCondition q boolean (.sub column (.text (negatable negated "in")) r)
      values).settled.Uncircled (.select q)) :
    (s.withCondition q boolean (.sub column (.text (negatable negated "in")) r)
        values).settled.compiled [] q "compile_select" Grammar.selectSql =
      (s.withCondition q boolean (.among column [.raw (.text sql)] negated)
        values).settled.compiled [] q "compile_select" Grammar.selectSql := by
  obtain ⟨g, hg, _⟩ := Name.bind_eq_ok hsub
  have hselect := (compiled_eq_select hg).symm.trans hsub
  rw [grammarFor_settled, hgrammar] at hg
  rw [compiled_eq_select (grammarFor_withCondition hg),
    compiled_eq_select (grammarFor_withCondition hg)]
  generalize hkept : Where.sub column (.text (negatable negated "in")) r = kept at hcircle ⊢
  generalize hwritten : Where.among column [.raw (.text sql)] negated = written
  rw [select_withCondition hs hreach boolean kept values] at hselect
  have hsize : ∀ body, (s.withCondition q boolean body values).settled.attachedDepth =
      s.attachedDepth := by
    intro body
    unfold attachedDepth settled
    rw [Array.size_map, size_withCondition]
  have hother : ∀ id, id ≠ q → (s.withCondition q boolean written values).settled.query id =
      (s.withCondition q boolean kept values).settled.query id := fun id hid =>
    (settled_withCondition_of_ne hid).trans (settled_withCondition_of_ne hid).symm
  have hkeptQuery : (s.withCondition q boolean kept values).settled.query q =
      (((s.query q).bind .condition values).rename (s.renamingWith q values)).addWhere
        ((s.renamingWith q values).value boolean)
        (.sub ((s.renamingWith q values).value column) (.text (negatable negated "in")) r) := by
    rw [settled_withCondition_self hq, ← hkept]
    rfl
  have hwrittenQuery : (s.withCondition q boolean written values).settled.query q =
      (((s.query q).bind .condition values).rename (s.renamingWith q values)).addWhere
        ((s.renamingWith q values).value boolean)
        (.among ((s.renamingWith q values).value column) [.raw (.text sql)] negated) := by
    rw [settled_withCondition_self hq, ← hwritten]
    rfl
  rw [oracle_withCondition s q boolean written kept values, hsize written, ← hsize kept]
  exact select_membership hother hkeptQuery hwrittenQuery hselect (within_of_uncircled hcircle)

end Store

section

variable {run : Runner} {s s1 : Store} {q r : QueryId} {sub column boolean : Value} {negated : Bool}

/-- A comparison with a sub-query adds its condition, with the values of the sub-query. -/
theorem whereSub_ran (hsub : Ran (q.resolveSub run sub) s r s1) (column operator boolean : Value) :
    Ran (q.whereSub run column operator sub boolean) s ()
      (s1.withCondition q boolean (.sub column operator r) (s1.query r).bindings.flatten) := by
  have hvalues : ((s1.edit q (·.addWhere boolean (.sub column operator r))).query r).bindings =
      (s1.query r).bindings := by
    obtain heq | ⟨_, _, heq⟩ := s1.query_edit_cases q (·.addWhere boolean (.sub column operator r)) r
      <;> rw [heq]
    rfl
  unfold QueryId.whereSub QueryId.addWhere QueryId.bindings QueryId.bind
  simp only [ran_bind, ran_modify, ran_read, ran_pure]
  refine ⟨r, s1, hsub, (), _, rfl, _, _, ⟨_, _, ⟨rfl, rfl⟩, rfl, rfl⟩, ?_⟩
  rw [hvalues, Store.edit_edit]
  rfl

/-- An action does one thing only. -/
theorem Ran.unique {α : Type} {a : Action α} {v w : α} {s' s'' : Store} (h : Ran a s v s')
    (h' : Ran a s w s'') : v = w ∧ s' = s'' := by
  obtain ⟨hv, hs⟩ := Prod.mk.inj (h.symm.trans h')
  exact ⟨Except.ok.inj hv, hs⟩

/-- The sub-query that is compiled is the one that is kept otherwise. -/
theorem createSub_of_resolveSub (hsub : Ran (q.resolveSub run sub) s r s1) {v : SubQuery}
    {s2 : Store} (h : Ran (q.createSub run sub) s v s2) : Ran (r.asSub run) s1 v s2 := by
  unfold QueryId.resolveSub at hsub
  unfold QueryId.createSub at h
  split at hsub
  · obtain ⟨rfl, rfl⟩ := ran_pure.1 hsub
    exact h
  · simp only [ran_bind, ran_pure] at hsub h
    obtain ⟨new, s2', hnew, w, s3, hcall, rfl, rfl⟩ := hsub
    obtain ⟨new', s2'', hnew', w', s3', hcall', hsub'⟩ := h
    obtain ⟨rfl, rfl⟩ := hnew.unique hnew'
    obtain ⟨rfl, rfl⟩ := hcall.unique hcall'
    exact hsub'
  · exact absurd hsub ran_throw

/-- A membership condition is added with the text of the sub-query and its values. -/
theorem whereIn_sub_ran (hsub : Ran (q.resolveSub run sub) s r s1) (hsilent : s1.Silent)
    {sIn : Store} (h : Ran (q.whereIn run column sub boolean negated) s () sIn) :
    ∃ sql, s1.settled.compiled [] r "compile_select" Grammar.selectSql = .ok sql ∧
      sIn = s1.withCondition q boolean (.among column [.raw (.text sql)] negated)
        (s1.query r).bindings.flatten := by
  have hqueryable : sub.isQueryable = true := by
    unfold QueryId.resolveSub at hsub
    split at hsub
    · rfl
    · rfl
    · exact absurd hsub ran_throw
  unfold QueryId.whereIn at h
  dsimp only at h
  rw [if_pos hqueryable] at h
  simp only [ran_bind, ran_pure] at h
  obtain ⟨v, s2, hcreate, _, s3, hbind, _, _, ⟨rfl, rfl⟩, _, s4, hadd, hvalues⟩ := h
  have hcompiled := createSub_of_resolveSub hsub hcreate
  unfold QueryId.asSub QueryId.bindings at hcompiled
  simp only [ran_bind, ran_read, ran_pure] at hcompiled
  obtain ⟨sql, s5, hsql, values, s6, ⟨_, _, ⟨rfl, rfl⟩, rfl, rfl⟩, rfl, rfl⟩ := hcompiled
  unfold QueryId.toSql QueryId.compile at hsql
  obtain ⟨hok, rfl⟩ := hsilent.ran_consult hsql
  refine ⟨sql, hok, ?_⟩
  unfold QueryId.bind at hbind
  unfold QueryId.addWhere at hadd
  unfold QueryId.bindValues QueryId.bind at hvalues
  rw [ran_modify] at hbind hadd hvalues
  rw [hvalues, hadd, hbind, Store.edit_edit, Store.edit_edit]
  exact congrArg (Store.edit _ q) (funext fun query => Query.bind_nil _ _)

/-- No word for membership is an operator, so a comparison with one is refused.  Behind this check,
the comparison and the membership condition agree: they add the same values, and they are compiled to
the same SQL unless the query stands inside itself. -/
theorem membership_refused_and_same {words : List String} {word : String} (run : Runner)
    (hwords : s.operatorsOf (s.query q).grammar = .ok words)
    (hword : Text.lower word = negatable negated "in")
    (hcolumn : ∀ read, (column.now.runOn s).1 = .ok read → QueryId.isConditionList read = false)
    (sub boolean : Value) :
    (q.where run column (some (.text word)) (some sub) boolean).runOn s =
        (.error (.argument (.operator (Value.text word).literal)), s) ∧
      ∀ r s1 sIn, Ran (q.resolveSub run sub) s r s1 → q.index < s1.queries.size → s1.Silent →
        ¬s1.Reaches (.query r) (.query q) → (s1.query r).grammar = (s1.query q).grammar →
        Ran (q.whereIn run column sub boolean negated) s () sIn →
          ∃ sSub, Ran (q.whereSub run column (.text (negatable negated "in")) sub boolean) s () sSub ∧
            (sSub.query q).bindings = (sIn.query q).bindings ∧
            (sSub.settled.Uncircled (.select q) →
              ((q.toSql run).runOn sSub).1 = ((q.toSql run).runOn sIn).1) := by
  refine ⟨where_membership_refused run hwords hword hcolumn sub boolean, ?_⟩
  intro r s1 sIn hsub hq hsilent hreach hgrammar hin
  obtain ⟨sql, hsql, rfl⟩ := whereIn_sub_ran hsub hsilent hin
  refine ⟨_, whereSub_ran hsub column _ boolean, ?_, fun hcircle => ?_⟩
  · rw [Store.query_withCondition_self hq, Store.query_withCondition_self hq]
    rfl
  · have hasks : ∀ body values, AsksNothing ((s1.withCondition q boolean body
        values).settled.compiled [] q "compile_select" Grammar.selectSql) := fun _ _ =>
      hsilent.withCondition.settled.compiled_asksNothing q
    rw [q.toSql_runOn run (hasks _ _), q.toSql_runOn run (hasks _ _)]
    exact Store.compiled_membership hq hsilent hreach hgrammar hsql hcircle

end

/-! ## Examples of membership -/

/-- A store with two queries, the second of which has a condition. -/
def Store.ofUsersAndPosts : Store where
  queries :=
    #[{ connection := none, grammar := .grammar ⟨0⟩, source := .text "users" },
      { connection := none, grammar := .grammar ⟨0⟩, source := .text "posts",
        columns := some [.text "user_id"],
        wheres := [⟨.text "and", .basic (.text "likes") ">" (.int 3)⟩],
        bindings := { condition := [.int 3] } }]
  grammars := #[{ dialect := .sqlite }]
  settings :=
    { database := ⟨"sqlite", "localhost", none, "", "", ":memory:", ""⟩
      logging := ⟨"INFO", none, "logs", true, false⟩ }

/-- The store after the second query was attached to the first one by a comparison. -/
def Store.usersAmongPosts : Store :=
  Store.ofUsersAndPosts.withCondition ⟨0⟩ (.text "and") (.sub (.text "id") (.text "in") ⟨1⟩) [.int 3]

theorem Store.uncircled_usersAmongPosts : Store.usersAmongPosts.settled.Uncircled (.select ⟨0⟩) := by
  have houter : Store.usersAmongPosts.items (.select ⟨0⟩) =
      [.column (.text "*"), .table (.text "users"), .part (.select ⟨1⟩), .column (.text "id")] :=
    rfl
  have hinner : Store.usersAmongPosts.items (.select ⟨1⟩) =
      [.column (.text "user_id"), .table (.text "posts"), .column (.text "likes")] := rfl
  have hhandles : (Store.usersAmongPosts.query ⟨0⟩).handles = [.grammar ⟨0⟩, .query ⟨1⟩] := by
    decide +kernel
  have hhandles' : (Store.usersAmongPosts.query ⟨1⟩).handles = [.grammar ⟨0⟩] := by
    decide +kernel
  generalize Store.usersAmongPosts = s at *
  rw [← Store.items_settled fun other => by simp [Part.query, hhandles]] at houter
  rw [← Store.items_settled fun other => by simp [Part.query, hhandles']] at hinner
  have hparts : s.settled.parts (.select ⟨0⟩) = [.select ⟨1⟩] := by
    rw [Store.parts, houter]
    rfl
  have hnone : s.settled.parts (.select ⟨1⟩) = [] := by
    rw [Store.parts, hinner]
    rfl
  exact (Store.visits_pair hparts hnone).1.uncircled

/-- Users among those of posts, by a comparison and by a membership condition. -/
theorem membership_refused_and_same_users :
    ((QueryId.where Runner.idle ⟨0⟩ (.text "id") (some (.text "IN")) (some (.ofQuery ⟨1⟩))
        (.text "and")).runOn Store.ofUsersAndPosts).1 =
          .error (.argument (.operator (Value.text "IN").literal)) ∧
      ∃ sSub, Ran (QueryId.whereSub Runner.idle ⟨0⟩ (.text "id") (.text "in") (.ofQuery ⟨1⟩)
          (.text "and")) Store.ofUsersAndPosts () sSub ∧
        (sSub.query ⟨0⟩).bindings.condition = [.int 3] ∧
        ((QueryId.toSql Runner.idle ⟨0⟩).runOn sSub).1 = .ok
          ("select * from \"users\" where \"id\" in " ++
            "(select \"user_id\" from \"posts\" where \"likes\" > ?)") := by
  have hin : (((do
      QueryId.whereIn Runner.idle ⟨0⟩ (.text "id") (.ofQuery ⟨1⟩) (.text "and") false
      QueryId.toSql Runner.idle ⟨0⟩ : Action String).run.run
        Store.ofUsersAndPosts).1.toOption.map id) = some
          ("select * from \"users\" where \"id\" in " ++
            "(select \"user_id\" from \"posts\" where \"likes\" > ?)") := by
    decide +kernel
  obtain ⟨sql, s', hran, rfl⟩ := exists_ran hin
  obtain ⟨_, sIn, hran, hcompiled⟩ := ran_bind.1 hran
  have hsub : Ran (QueryId.resolveSub Runner.idle ⟨0⟩ (.ofQuery ⟨1⟩)) Store.ofUsersAndPosts ⟨1⟩
      Store.ofUsersAndPosts := rfl
  have hreach : ¬Store.ofUsersAndPosts.Reaches (.query ⟨1⟩) (.query ⟨0⟩) := fun h =>
    absurd (h.forall (P := (· ∈ [Handle.query ⟨1⟩, .grammar ⟨0⟩])) (by decide) (by decide)
      fun _ hid => absurd hid (by simp)) (by decide)
  obtain ⟨hrefused, hsame⟩ := @membership_refused_and_same Store.ofUsersAndPosts ⟨0⟩ (.text "id")
    false _ "IN" Runner.idle rfl (by decide +kernel) (fun read h => by cases h; rfl) (.ofQuery ⟨1⟩)
    (.text "and")
  obtain ⟨sSub, hkept, _, htext⟩ := hsame ⟨1⟩ _ sIn hsub (by decide) (fun _ => rfl) hreach rfl hran
  obtain ⟨_, rfl⟩ := hkept.unique (whereSub_ran hsub (.text "id") (.text "in") (.text "and"))
  refine ⟨congrArg Prod.fst hrefused, _, hkept, rfl, ?_⟩
  rw [htext Store.uncircled_usersAmongPosts]
  exact congrArg Prod.fst hcompiled

/-- A comparison with a word for membership adds nothing, and the membership condition is there. -/
theorem membership_operator_lost :
    (((QueryId.where Runner.idle ⟨0⟩ (.text "id") (some (.text "in")) (some (.ofQuery ⟨1⟩))
        (.text "and")).runOn Store.ofUsersAndPosts).2.selectSql ⟨0⟩).toOption =
          some "select * from \"users\"" ∧
      (((QueryId.whereIn Runner.idle ⟨0⟩ (.text "id") (.ofQuery ⟨1⟩) (.text "and")
        false).runOn Store.ofUsersAndPosts).2.selectSql ⟨0⟩).toOption = some
          ("select * from \"users\" where \"id\" in " ++
            "(select \"user_id\" from \"posts\" where \"likes\" > ?)") := by
  decide +kernel

end FluentSql
