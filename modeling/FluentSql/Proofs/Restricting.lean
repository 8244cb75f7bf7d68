import FluentSql.Proofs.Aligned
import FluentSql.Proofs.Building.Changing
import FluentSql.Proofs.Keywords
import FluentSql.Proofs.Printing
import FluentSql.Proofs.Resembling.Selecting
import FluentSql.Proofs.Standing

/-!
# Restrictions to one id

A row is deleted or found by its id through a copy of the query, to which one
more condition is added: that the id column equals the id.  The copy is
compiled with this condition after all others, joined to them by `and`.

* `Store.Conjoined` is what is expected of conditions: joining words between
  them, and no empty groups.  `Store.Conjoined.tree` passes it on to the tree
  that is printed.
* `Store.RestrictedTo` is the copy with the added condition, and
  `Store.Restricts` says that a statement has its conditions.
* `restriction_holds_iff` is the result: the added condition holds wherever all
  of them do, exactly if no condition of the query starts an alternative.
-/

namespace FluentSql

/-! ## The conditions of a store -/

/-- A condition comes with a joining word, and it is no empty group. -/
structure Condition.Joined (s : Store) (c : Condition) : Prop where
  word : ∃ word ∈ conjunctions, c.boolean = .text word
  group : ∀ id, c.body = .nested id → (s.query id).wheres ≠ []

/-- All conditions of a store come with joining words, and no group is empty. -/
def Store.Conjoined (s : Store) : Prop :=
  ∀ id, ∀ c ∈ (s.query id).wheres, c.Joined s

section

variable {s s' : Store} {c t : QueryId} {r : Renaming}

/-- A copied condition is joined as before, if its groups are copied with it. -/
theorem Condition.Joined.rename {c : Condition} (h : c.Joined s)
    (hgroups : ∀ id, (s.query id).wheres ≠ [] → (s'.query (r.query id)).wheres ≠ []) :
    Condition.Joined s' ⟨r.value c.boolean, c.body.rename r⟩ := by
  obtain ⟨word, hword, hboolean⟩ := h.word
  refine ⟨⟨word, hword, by rw [hboolean]; rfl⟩, fun id hid => ?_⟩
  cases hbody : c.body with
  | nested group =>
    rw [hbody] at hid
    cases hid
    exact hgroups group (h.group group hbody)
  | _ =>
    rw [hbody] at hid
    exact nomatch hid

theorem Condition.Joined.mono {c : Condition} (h : c.Joined s)
    (hgroups : ∀ id, (s.query id).wheres ≠ [] → (s'.query id).wheres ≠ []) : c.Joined s' :=
  ⟨h.word, fun id hid => hgroups id (h.group id hid)⟩

/-- The copies of conditions are joined as these are. -/
theorem Store.Conjoined.addCopies (h : s.Conjoined) (handles : List Handle) :
    (s.addCopies handles).Conjoined := by
  have hkept : ∀ id, (s.query id).wheres ≠ [] → ((s.addCopies handles).query id).wheres ≠ [] := by
    intro id hne
    rwa [Store.query_addCopies_of_lt (Store.lt_of_wheres hne)]
  intro id c hc
  by_cases hin : id.index < (s.addCopies handles).queries.size
  · rcases Store.old_or_copy hin with hold | ⟨k, source, hk, rfl⟩
    · rw [Store.query_addCopies_of_lt hold] at hc
      exact (h id c hc).mono hkept
    · rw [Store.query_addCopies_copy hk] at hc
      obtain ⟨before, hbefore, rfl⟩ := List.mem_map.1 hc
      exact (h source before hbefore).rename fun _ => Store.wheres_copied
  · rw [Store.query_of_le (Nat.le_of_not_lt hin)] at hc
    exact nomatch hc

theorem Store.Conjoined.settled (h : s.Conjoined) : s.settled.Conjoined := by
  intro id c hc
  rw [Store.query_settled] at hc
  obtain ⟨before, hbefore, rfl⟩ := List.mem_map.1 hc
  refine (h id before hbefore).rename fun group hne => ?_
  rw [Store.query_settled]
  exact Store.wheres_rename_ne_nil hne

/-- Conditions that are added to a query are joined to those that it has. -/
theorem Store.Conjoined.edit (h : s.Conjoined) {f : Query → Query} {more : List Condition}
    (hf : ∀ q, (f q).wheres = q.wheres ++ more) (hmore : ∀ c ∈ more, c.Joined s) :
    (s.edit t f).Conjoined := by
  have hquery : ∀ id, (s.edit t f).query id = s.query id ∨
      (s.edit t f).query id = f (s.query id) := by
    intro id
    by_cases heq : id = t
    · by_cases hlt : t.index < s.queries.size
      · rw [heq]
        exact .inr (Store.query_edit_self hlt f)
      · rw [Store.query_of_le (by rw [Store.size_edit, heq]; exact Nat.le_of_not_lt hlt), heq,
          Store.query_of_le (Nat.le_of_not_lt hlt)]
        exact .inl rfl
    · exact .inl (Store.query_edit_of_ne heq f)
  have hkept : ∀ id, (s.query id).wheres ≠ [] → ((s.edit t f).query id).wheres ≠ [] := by
    intro id hne
    rcases hquery id with hsame | hchanged
    · rwa [hsame]
    · rw [hchanged, hf]
      exact List.append_ne_nil_of_left_ne_nil hne more
  intro id c hc
  have hjoined : c.Joined s := by
    rcases hquery id with hsame | hchanged
    · rw [hsame] at hc
      exact h id c hc
    · rw [hchanged, hf] at hc
      exact (List.mem_append.1 hc).elim (h id c) (hmore c)
  exact hjoined.mono hkept

/-! ## The tree of conditions -/

variable {g : Grammar} {oracle : Oracle} {depth : Nat} {conditions : List Condition}
variable {clauses : List (String × Clause)}

/-- A condition that is no group is a plain clause. -/
theorem clause_eq_plain {body : Where} {clause : Clause}
    (h : s.clause g oracle depth body = .ok clause) (hbody : ∀ id, body ≠ .nested id) :
    ∃ text, clause = .plain text := by
  rw [s.clause_of_not_nested g oracle depth hbody] at h
  obtain ⟨text, _, hclause⟩ := Name.map_eq_ok h
  exact ⟨text, hclause⟩

private theorem clauses_words_full
    (hclause : ∀ {body : Where} {clause : Clause},
      (∀ id, body = .nested id → (s.query id).wheres ≠ []) →
      s.clause g oracle depth body = .ok clause → clause.Conjoined ∧ clause.Full)
    (hconditions : ∀ c ∈ conditions, c.Joined s)
    (h : s.clauses g oracle depth conditions = .ok clauses) :
    Clause.ConjoinedAll clauses ∧ Clause.FullAll clauses := by
  unfold Store.clauses at h
  induction conditions generalizing clauses with
  | nil =>
    obtain rfl := Except.ok.inj h
    exact ⟨trivial, trivial⟩
  | cons condition conditions ih =>
    rw [List.mapM_cons] at h
    obtain ⟨pair, hpair, h⟩ := Name.bind_eq_ok h
    obtain ⟨clause, hbody, hpair⟩ := Name.bind_eq_ok hpair
    obtain rfl := Except.ok.inj hpair
    obtain ⟨rest, hrest, h⟩ := Name.bind_eq_ok h
    obtain rfl := Except.ok.inj h
    have hfirst := hconditions condition List.mem_cons_self
    obtain ⟨word, hword, hboolean⟩ := hfirst.word
    obtain ⟨hconjoined, hfull⟩ := hclause hfirst.group hbody
    obtain ⟨hwords, hfulls⟩ := ih (fun c hc => hconditions c (List.mem_cons_of_mem _ hc)) hrest
    refine ⟨⟨?_, hconjoined, hwords⟩, hfull, hfulls⟩
    show condition.boolean.display ∈ conjunctions
    rw [hboolean]
    exact hword

private theorem clause_words_full (hs : s.Conjoined) {body : Where} {clause : Clause}
    (hgroup : ∀ id, body = .nested id → (s.query id).wheres ≠ [])
    (h : s.clause g oracle depth body = .ok clause) : clause.Conjoined ∧ clause.Full := by
  induction depth generalizing body clause with
  | zero =>
    cases body with
    | nested id => exact nomatch h
    | _ =>
      obtain ⟨text, rfl⟩ := clause_eq_plain h fun _ hbody => nomatch hbody
      exact ⟨trivial, trivial⟩
  | succ depth ih =>
    cases body with
    | nested id =>
      rw [s.clause_nested] at h
      obtain ⟨clauses, hclauses, rfl⟩ := Name.map_eq_ok h
      obtain ⟨hwords, hfull⟩ := clauses_words_full ih (hs id) hclauses
      refine ⟨hwords, ?_, hfull⟩
      rintro rfl
      exact hgroup id rfl (List.eq_nil_of_length_eq_zero (clauses_length hclauses).symm)
    | _ =>
      obtain ⟨text, rfl⟩ := clause_eq_plain h fun _ hbody => nomatch hbody
      exact ⟨trivial, trivial⟩

/-- The tree of conditions has joining words only, and no empty groups: by induction on the depth,
as a group holds conditions of the depth below. -/
theorem Store.Conjoined.tree (hs : s.Conjoined) (hconditions : ∀ c ∈ conditions, c.Joined s)
    (h : s.clauses g oracle depth conditions = .ok clauses) :
    Clause.ConjoinedAll clauses ∧ Clause.FullAll clauses :=
  clauses_words_full (clause_words_full hs) hconditions h

theorem clauses_words (h : s.clauses g oracle depth conditions = .ok clauses) :
    clauses.map Prod.fst = conditions.map (·.boolean.display) := by
  unfold Store.clauses at h
  induction conditions generalizing clauses with
  | nil =>
    obtain rfl := Except.ok.inj h
    rfl
  | cons condition conditions ih =>
    rw [List.mapM_cons] at h
    obtain ⟨pair, hpair, h⟩ := Name.bind_eq_ok h
    obtain ⟨clause, _, hpair⟩ := Name.bind_eq_ok hpair
    obtain rfl := Except.ok.inj hpair
    obtain ⟨rest, hrest, h⟩ := Name.bind_eq_ok h
    obtain rfl := Except.ok.inj h
    rw [List.map_cons, List.map_cons, ih hrest]

/-- The tree of conditions with one more at the end. -/
theorem clauses_concat {condition : Condition}
    (h : s.clauses g oracle depth (conditions ++ [condition]) = .ok clauses)
    (hbody : ∀ id, condition.body ≠ .nested id) :
    ∃ before text, clauses = before ++ [(condition.boolean.display, .plain text)] ∧
      s.clauses g oracle depth conditions = .ok before := by
  unfold Store.clauses at h ⊢
  rw [List.mapM_append] at h
  obtain ⟨before, hbefore, h⟩ := Name.bind_eq_ok h
  obtain ⟨last, hlast, h⟩ := Name.bind_eq_ok h
  obtain rfl := Except.ok.inj h
  rw [List.mapM_cons, List.mapM_nil] at hlast
  obtain ⟨pair, hpair, hlast⟩ := Name.bind_eq_ok hlast
  obtain rfl := Except.ok.inj hlast
  obtain ⟨clause, hclause, hpair⟩ := Name.bind_eq_ok hpair
  obtain rfl := Except.ok.inj hpair
  obtain ⟨text, rfl⟩ := clause_eq_plain hclause hbody
  exact ⟨before, text, rfl, hbefore⟩

end

/-! ## Restricted statements -/

/-- A query that was copied, once or several times. -/
def Query.renamedBy (rs : List Renaming) (q : Query) : Query :=
  rs.foldl (fun q r => q.rename r) q

/-- The condition that a column equals a value. -/
def Condition.equalTo (column : String) (id : Value) : Condition :=
  ⟨.text "and", .basic (.text column) "=" (QueryId.jsonWord (.text column) id)⟩

/-- A statement has the conditions of a query, which may be copied, and one more: that a column
equals a value.  They are printed in it one after the other, the last one after `and`. -/
def Store.Restricts (s : Store) (t : QueryId) (column : String) (id : Value) (s' : Store)
    (sql : String) (clauses : List (String × Clause)) (added : String) : Prop :=
  ∃ g depth rs,
    s'.settled.clauses g (s'.settled.oracle []) depth
        (((s.query t).renamedBy rs).wheres ++ [.equalTo column id]) =
      .ok (clauses ++ [("and", .plain added)]) ∧
    StandsIn (Clause.printWheres (s.query t).keyword (clauses ++ [("and", .plain added)])) sql

/-- The condition that restricts a query holds wherever the conditions of the statement do. -/
def Clause.Restricting (clauses : List (String × Clause)) (added : String) : Prop :=
  ∀ v, Clause.holdsAll v (clauses ++ [("and", .plain added)]) = true → v clauses.length [] = true

/-- No condition of a query but the first comes with a word that starts an alternative. -/
def Query.Conjunctive (q : Query) : Prop :=
  ∀ word ∈ (q.wheres.map (·.boolean.display)).tail, Clause.isAlternative word = false

section

variable {s s' : Store} {t c : QueryId} {q : Query} {id : Value} {column sql method : String}
variable {run : Runner}

theorem Condition.joined_equalTo (s : Store) (column : String) (id : Value) :
    (equalTo column id).Joined s :=
  ⟨⟨"and", by decide, rfl⟩, fun _ h => nomatch h⟩

/-- A condition on an id that is data stays the same when it is copied. -/
theorem Query.rename_equalTo {q' : Query} {r : Renaming} (hid : id.handles = [])
    (h : q'.wheres = q.wheres ++ [.equalTo column id]) :
    (q'.rename r).wheres = (q.rename r).wheres ++ [.equalTo column id] := by
  have hword : r.value (QueryId.jsonWord (.text column) id) =
      QueryId.jsonWord (.text column) id := by
    refine r.value_data ?_
    unfold QueryId.jsonWord
    split
    · split
      · rfl
      · exact hid
    · exact hid
  show q'.wheres.map _ = q.wheres.map _ ++ _
  rw [h, List.map_append, List.map_singleton]
  show _ ++ [(⟨.text "and", .basic (.text column) "=" (r.value _)⟩ : Condition)] = _
  rw [hword]
  rfl

theorem Query.renamedBy_concat (rs : List Renaming) (r : Renaming) :
    q.renamedBy (rs ++ [r]) = (q.renamedBy rs).rename r :=
  List.foldl_append

/-- Words that are texts stay the same when conditions are copied. -/
theorem Query.words_renamedBy (rs : List Renaming)
    (h : ∀ c ∈ q.wheres, ∃ word ∈ conjunctions, c.boolean = .text word) :
    (q.renamedBy rs).wheres.map (·.boolean.display) = q.wheres.map (·.boolean.display) := by
  induction rs generalizing q with
  | nil => rfl
  | cons r rs ih =>
    have hsame : (q.rename r).wheres.map (·.boolean.display) =
        q.wheres.map (·.boolean.display) := by
      show (q.wheres.map _).map _ = _
      rw [List.map_map]
      refine List.map_congr_left fun c hc => ?_
      obtain ⟨word, _, hword⟩ := h c hc
      show (r.value c.boolean).display = c.boolean.display
      rw [hword]
      rfl
    refine (ih fun c hc => ?_).trans hsame
    obtain ⟨before, hbefore, rfl⟩ := List.mem_map.1 hc
    obtain ⟨word, hmem, hword⟩ := h before hbefore
    exact ⟨word, hmem, congrArg r.value hword⟩

/-- What a copy that has one more condition is compiled to has the conditions of the query and this
one, and is restricted by it exactly if the query is conjunctive. -/
theorem restricts_of_compiled {f : Grammar → Attached → Query → Except Failure String}
    (hf : ∀ {g attached q sql}, f g attached q = .ok sql → q.wheres ≠ [] →
      ∃ condition, g.wheresSql attached q = .ok condition ∧ StandsIn condition sql)
    (hs : s.Conjoined) (hs' : s'.Conjoined) (hid : id.handles = []) {rs : List Renaming}
    (hwheres : (s'.query c).wheres = ((s.query t).renamedBy rs).wheres ++
      [.equalTo column id])
    (hkeyword : (s'.query c).keyword = (s.query t).keyword)
    (h : s'.settled.compiled [] c method f = .ok sql) :
    ∃ clauses added, s.Restricts t column id s' sql clauses added ∧
      (Clause.Restricting clauses added ↔ (s.query t).Conjunctive) := by
  unfold Store.compiled at h
  obtain ⟨g, _, h⟩ := Name.bind_eq_ok h
  have hjoined := hs'.settled c
  generalize hr : ({ bindings := fun id => s'.shown (.object (.bindings id)) } : Renaming) = r
  have hquery := s'.query_settled c
  rw [hr] at hquery
  have hsettled : (s'.settled.query c).wheres =
      ((s.query t).renamedBy (rs ++ [r])).wheres ++ [.equalTo column id] := by
    rw [hquery, Query.renamedBy_concat]
    exact Query.rename_equalTo hid hwheres
  have hne : (s'.settled.query c).wheres ≠ [] := by
    rw [hsettled]
    exact List.append_ne_nil_of_right_ne_nil _ (List.cons_ne_nil _ _)
  obtain ⟨condition, hcondition, hstands⟩ := hf h hne
  unfold Store.attached at hcondition
  rw [wheresSql_eq_printWheres fun clauses hclauses => (hs'.settled.tree hjoined hclauses).1]
    at hcondition
  obtain ⟨all, hall, rfl⟩ := Name.map_eq_ok hcondition
  rw [hsettled] at hall hjoined
  obtain ⟨clauses, added, rfl, hclauses⟩ := clauses_concat hall fun _ h => nomatch h
  have hfull := (hs'.settled.tree (fun c hc => hjoined c (List.mem_append_left _ hc)) hclauses).2
  refine ⟨clauses, added, ⟨g, _, _, hall, ?_⟩, (Clause.last_holds_iff hfull).trans ?_⟩
  · rw [hquery, Query.keyword_rename, hkeyword] at hstands
    exact hstands
  · rw [clauses_words hclauses, Query.words_renamedBy _ fun c hc => (hs t c hc).word]
    exact Iff.rfl

/-! ## Runs without extensions -/

/-- No extension answers requests. -/
def Store.Silent (s : Store) : Prop :=
  ∀ request : Request, s.extension? request.name = none

/-- Where nothing answers requests, a compilation is done at once, and nothing changes. -/
theorem Store.Silent.ran_consult {α : Type} (hs : s.Silent)
    {compile : Store → KnownAnswers → Except Failure α} {v : α}
    (h : Ran (consult run compile) s v s') : compile s [] = .ok v ∧ s' = s := by
  unfold consult requestLimit at h
  rw [consultFrom, ran_bind] at h
  obtain ⟨_, _, hget, h⟩ := h
  obtain ⟨rfl, rfl⟩ := ran_get.1 hget
  split at h
  · rename_i q request _
    obtain ⟨answer, s1, hcall, _⟩ := ran_bind.1 h
    unfold Extensions.call at hcall
    obtain ⟨_, _, hget, hanswer⟩ := ran_bind.1 hcall
    obtain ⟨rfl, rfl⟩ := ran_get.1 hget
    rw [hs request] at hanswer
    exact absurd hanswer ran_throw
  · obtain ⟨hok, rfl⟩ := ran_ofExcept.1 h
    exact ⟨hok, rfl⟩

/-- The elements of a value are read without a change of the store. -/
theorem ran_itemsOrNone_same {v : Value} {vs : List Value} (h : Ran v.itemsOrNone s vs s') :
    s' = s := by
  unfold Value.itemsOrNone at h
  split at h
  · unfold Value.itemsNow Value.now at h
    obtain ⟨w, s1, hnow, h⟩ := ran_bind.1 h
    obtain ⟨_, rfl⟩ := ran_ofExcept.1 h
    split at hnow
    · simp only [ran_bind, ran_read, ran_pure] at hnow
      obtain ⟨_, _, ⟨rfl, rfl⟩, _, rfl⟩ := hnow
      rfl
    · exact (ran_pure.1 hnow).2
  · exact (ran_pure.1 h).2

theorem ran_mapM_shown_same {vs ws : List Value} (h : Ran (vs.mapM Value.shown) s ws s') :
    s' = s := by
  induction vs generalizing ws with
  | nil =>
    rw [List.mapM_nil] at h
    exact (ran_pure.1 h).2
  | cons v vs ih =>
    rw [List.mapM_cons] at h
    simp only [ran_bind, ran_shown, ran_pure] at h
    obtain ⟨_, _, ⟨rfl, rfl⟩, rest, s1, hrest, _, rfl⟩ := h
    exact ih hrest

/-! ## Copies with one more condition -/

/-- Another query has the conditions of a query, which may be copied, and one more: that a column
equals a value. -/
structure Store.RestrictedTo (s : Store) (t : QueryId) (column : String) (id : Value) (s' : Store)
    (c : QueryId) : Prop where
  there : c.index < s'.queries.size
  conjoined : s'.Conjoined
  silent : s'.Silent
  keyword : (s'.query c).keyword = (s.query t).keyword
  wheres : ∃ rs, (s'.query c).wheres =
    ((s.query t).renamedBy rs).wheres ++ [.equalTo column id]

/-- A copy of a query to which a restriction is added. -/
theorem Store.Conjoined.restrict (hs : s.Conjoined) (hsilent : s.Silent) (hid : id.handles = [])
    (hnull : id.isNull = false) {s1 : Store} (hcopy : Ran t.copy s c s1) {u : Unit}
    (hwhere : Ran (c.where run (.text column) (some (.text "=")) (some id) (.text "and")) s1 u s') :
    s.RestrictedTo t column id s' c := by
  obtain ⟨handles, _, rfl, hfirst, rfl⟩ := QueryId.ran_copied hcopy
  obtain rfl := (QueryId.ran_restrict hnull (Value.isQueryable_data hid)).1 hwhere
  have hlt := Store.lt_addCopies (s := s) hfirst
  have hquery := Store.query_edit_self hlt (Query.restrictedTo column id)
  rw [Store.query_addCopies_copy hfirst] at hquery
  exact
    { there := by rwa [Store.size_edit]
      conjoined := (hs.addCopies handles).edit (fun _ => rfl)
        fun c hc => by
          rw [List.mem_singleton.1 hc]
          exact Condition.joined_equalTo _ column id
      silent := hsilent
      keyword := by
        rw [hquery]
        exact (s.query t).keyword_rename _
      wheres := ⟨[s.copyRenaming handles], by rw [hquery]; rfl⟩ }

/-- A copy of a restricted query that is limited to one row. -/
theorem Store.RestrictedTo.first (h : s.RestrictedTo t column id s' c) (hid : id.handles = [])
    {c' : QueryId} {s1 s2 : Store} {u : Unit} (hcopy : Ran c.copy s' c' s1)
    (hlimit : Ran (c'.limit (.int 1)) s1 u s2) : s.RestrictedTo t column id s2 c' := by
  obtain ⟨handles, _, rfl, hfirst, rfl⟩ := QueryId.ran_copied hcopy
  have hchanged : s2 = (s'.addCopies handles).edit ⟨s'.queries.size + 0⟩ (·.setLimit 1) := by
    have hmodify : Ran (QueryId.modify ⟨s'.queries.size + 0⟩ (·.setLimit 1)) _ u s2 := hlimit
    exact ran_modify.1 hmodify
  have hlt := Store.lt_addCopies (s := s') hfirst
  have hquery := Store.query_edit_self hlt (·.setLimit 1)
  rw [Store.query_addCopies_copy hfirst] at hquery
  have hsetLimit : ∀ q : Query, (q.setLimit 1).wheres = q.wheres ++ [] := by
    intro q
    rw [List.append_nil]
    unfold Query.setLimit
    split <;> rfl
  obtain ⟨rs, hwheres⟩ := h.wheres
  subst hchanged
  exact
    { there := by rwa [Store.size_edit]
      conjoined := (h.conjoined.addCopies handles).edit hsetLimit fun _ h => nomatch h
      silent := h.silent
      keyword := by
        rw [hquery, Query.keyword_eq_of_kind (Query.kind_setLimit _ 1), Query.keyword_rename]
        exact h.keyword
      wheres := by
        refine ⟨rs ++ [s'.copyRenaming handles], ?_⟩
        rw [hquery, hsetLimit, List.append_nil, Query.renamedBy_concat]
        exact Query.rename_equalTo hid hwheres }

/-- What is compiled from a restricted query. -/
theorem Store.RestrictedTo.compiled (h : s.RestrictedTo t column id s' c) (hs : s.Conjoined)
    (hid : id.handles = []) {f : Grammar → Attached → Query → Except Failure String}
    (hf : ∀ {g attached q sql}, f g attached q = .ok sql → q.wheres ≠ [] →
      ∃ condition, g.wheresSql attached q = .ok condition ∧ StandsIn condition sql) {s2 : Store}
    (hran : Ran (c.compile run method f) s' sql s2) :
    s2 = s' ∧ ∃ clauses added, s.Restricts t column id s' sql clauses added ∧
      (Clause.Restricting clauses added ↔ (s.query t).Conjunctive) := by
  have hcompiled : s'.settled.compiled [] c method f = .ok sql ∧ s2 = s' :=
    h.silent.ran_consult hran
  obtain ⟨rs, hwheres⟩ := h.wheres
  exact ⟨hcompiled.2, restricts_of_compiled hf hs h.conjoined hid hwheres h.keyword hcompiled.1⟩

/-- The delete of the row with an id has one more condition: that the id column, under the name by
which the source is addressed, equals the id. -/
theorem QueryId.toDeleteSql_restricts (ht : t.index < s.queries.size) (hs : s.Conjoined)
    (hsilent : s.Silent) (hid : id.handles = []) (hnull : id.isNull = false)
    {statement : Statement} (h : Ran (t.toDeleteSql run id) s statement s') :
    ∃ column clauses added,
      ((s.query t).source.handles = [] →
        column = Name.lastAlias (s.query t).source.display ++ ".id") ∧
      s.Restricts t column id s' statement.sql clauses added ∧
      (Clause.Restricting clauses added ↔ (s.query t).Conjunctive) := by
  have hrows : Ran (do
      let c ← t.copy
      c.where run (← t.idColumn) (some (.text "=")) (some id) (.text "and")
      c.deleteRows run) s statement s' := by
    unfold QueryId.toDeleteSql at h
    rw [hnull] at h
    exact h
  simp only [ran_bind] at hrows
  obtain ⟨c, s1, hcopy, v, s2, hcolumn, u, s3, hwhere, hdelete⟩ := hrows
  obtain ⟨column, rfl, hname, rfl⟩ : ∃ column, v = .text column ∧
      ((s.query t).source.handles = [] →
        column = Name.lastAlias (s.query t).source.display ++ ".id") ∧ s2 = s1 := by
    have hsame : (s1.query t).source = (s.query t).source := by
      obtain ⟨handles, _, rfl, _⟩ := QueryId.ran_copied hcopy
      rw [Store.query_addCopies_of_lt ht]
    unfold QueryId.idColumn QueryId.grammarFor Value.displayNow at hcolumn
    simp only [ran_bind, ran_get, ran_ofExcept, ran_read, ran_pure, ran_shown] at hcolumn
    obtain ⟨_, s4, ⟨_, _, ⟨rfl, rfl⟩, _, rfl⟩, _, _, ⟨rfl, rfl⟩, _, _, ⟨_, _, ⟨rfl, rfl⟩, rfl, rfl⟩,
      rfl, rfl⟩ := hcolumn
    refine ⟨_, rfl, fun hdata => ?_, rfl⟩
    rw [hsame, Store.shown_data _ hdata]
  have hrestricted := hs.restrict hsilent hid hnull hcopy hwhere
  unfold QueryId.deleteRows at hdelete
  simp only [ran_bind, ran_pure] at hdelete
  obtain ⟨sql, s4, hcompile, bindings, s5, harrange, rfl, rfl⟩ := hdelete
  obtain ⟨rfl, clauses, added, hrestricts⟩ := hrestricted.compiled hs hid deleteSql_stands hcompile
  obtain rfl := (hrestricted.silent.ran_consult harrange).2
  exact ⟨column, clauses, added, hname, hrestricts⟩

/-- What a query reads is the answer to its select statement, perhaps with the columns that are asked
for. -/
theorem QueryId.ran_rows {columns : Value} {rows : List Row}
    (h : Ran (t.get run columns) s rows s') :
    ∃ (chosen shown : List Value) (sql : String) (bindings : List Value)
      (connection : ConnectionId) (s1 : Store),
      Ran (t.compile run "compile_select" fun g attached q => g.selectSql attached
        (if chosen.isEmpty then q else { q with columns := some shown })) s sql s1 ∧
      Ran (connection.select (.text sql) (.list bindings)) s1 rows s' := by
  have hrest : ∃ chosen : List Value, Ran (do
      let shown ← chosen.mapM Value.shown
      let sql ← t.compile run "compile_select" fun g attached query =>
        g.selectSql attached
          (if chosen.isEmpty then query else { query with columns := some shown })
      let bindings ← t.bindings
      (← t.needConnection).select (.text sql) (.list bindings)) s rows s' := by
    unfold QueryId.get at h
    obtain ⟨_, _, hread, hbranch⟩ := ran_bind.1 h
    obtain ⟨rfl, rfl⟩ := ran_read.1 hread
    split at hbranch
    · obtain ⟨chosen, s1, hchosen, hrest⟩ := ran_bind.1 hbranch
      rw [ran_itemsOrNone_same hchosen] at hrest
      exact ⟨chosen, hrest⟩
    · obtain ⟨chosen, s1, hchosen, hrest⟩ := ran_bind.1 hbranch
      rw [(ran_pure.1 hchosen).2] at hrest
      exact ⟨chosen, hrest⟩
  obtain ⟨chosen, hchosen⟩ := hrest
  obtain ⟨shown, s1, hshown, hcompiling⟩ := ran_bind.1 hchosen
  rw [ran_mapM_shown_same hshown] at hcompiling
  obtain ⟨sql, s2, hcompile, hbinding⟩ := ran_bind.1 hcompiling
  obtain ⟨bindings, s3, hbindings, hconnecting⟩ := ran_bind.1 hbinding
  obtain ⟨connection, s4, hconnection, hselect⟩ := ran_bind.1 hconnecting
  have hsame : s4 = s2 := by
    unfold QueryId.bindings at hbindings
    unfold QueryId.needConnection at hconnection
    simp only [ran_bind, ran_read, ran_pure] at hbindings hconnection
    obtain ⟨_, _, ⟨rfl, rfl⟩, _, rfl⟩ := hbindings
    obtain ⟨_, _, ⟨rfl, rfl⟩, hsome⟩ := hconnection
    revert hsome
    cases (Store.query _ t).connection with
    | none => exact fun h => absurd h ran_throw
    | some _ => exact fun h => (ran_pure.1 h).2
  rw [hsame] at hselect
  exact ⟨chosen, shown, sql, bindings, connection, s2, hcompile, hselect⟩

/-- The search of the row with an id sends a statement that has one more condition: that the id column
equals the id. -/
theorem QueryId.find_restricts (hs : s.Conjoined) (hsilent : s.Silent) (hid : id.handles = [])
    (hnull : id.isNull = false) {columns : Value} {row : Option Row}
    (h : Ran (t.find run id columns) s row s') :
    ∃ (s1 : Store) (connection : ConnectionId) (sql : String) (bindings : List Value)
      (rows : List Row),
      Ran (connection.select (.text sql) (.list bindings)) s1 rows s' ∧ row = rows.head? ∧
      ∃ clauses added, s.Restricts t "id" id s1 sql clauses added ∧
        (Clause.Restricting clauses added ↔ (s.query t).Conjunctive) := by
  unfold QueryId.find QueryId.first at h
  simp only [ran_bind, ran_pure] at h
  obtain ⟨c, s1, hcopy, _, s2, hwhere, c', s3, hcopy', _, s4, hlimit, rows, _, hget, rfl, rfl⟩ := h
  obtain ⟨chosen, shown, sql, bindings, connection, s5, hcompile, hselect⟩ := ran_rows hget
  have hrestricted := (hs.restrict hsilent hid hnull hcopy hwhere).first hid hcopy' hlimit
  have hstands : ∀ {g : Grammar} {attached : Attached} {q : Query} {sql : String},
      g.selectSql attached (if chosen.isEmpty then q else { q with columns := some shown }) =
        .ok sql → q.wheres ≠ [] →
      ∃ condition, g.wheresSql attached q = .ok condition ∧ StandsIn condition sql := by
    intro g attached q sql h hne
    split at h
    · exact selectSql_stands h hne
    · obtain ⟨condition, hcondition, hstands⟩ := selectSql_stands h hne
      exact ⟨condition, hcondition, hstands⟩
  obtain ⟨rfl, hrestricts⟩ := hrestricted.compiled hs hid hstands hcompile
  exact ⟨s5, connection, sql, bindings, rows, hselect, rfl, hrestricts⟩

/-- A delete and a search by an id that is data add one condition to those of the query, at their end.
Whatever the conditions are, and however their groups are nested, the added one holds wherever all of
them do exactly if no condition of the query but the first comes with `or`.  If one does, the
conditions before it can hold on their own, and other rows are deleted or found. -/
theorem restriction_holds_iff (ht : t.index < s.queries.size) (hs : s.Conjoined)
    (hsilent : s.Silent) (hid : id.handles = []) (hnull : id.isNull = false) :
    (∀ statement s', Ran (t.toDeleteSql run id) s statement s' →
      ∃ column clauses added,
        ((s.query t).source.handles = [] →
          column = Name.lastAlias (s.query t).source.display ++ ".id") ∧
        s.Restricts t column id s' statement.sql clauses added ∧
        (Clause.Restricting clauses added ↔ (s.query t).Conjunctive)) ∧
    ∀ columns row s', Ran (t.find run id columns) s row s' →
      ∃ (s1 : Store) (connection : ConnectionId) (sql : String) (bindings : List Value)
        (rows : List Row),
        Ran (connection.select (.text sql) (.list bindings)) s1 rows s' ∧ row = rows.head? ∧
        ∃ clauses added, s.Restricts t "id" id s1 sql clauses added ∧
          (Clause.Restricting clauses added ↔ (s.query t).Conjunctive) :=
  ⟨fun _ _ h => QueryId.toDeleteSql_restricts ht hs hsilent hid hnull h,
    fun _ _ _ h => QueryId.find_restricts hs hsilent hid hnull h⟩

end

/-! ## Two conditions and an id -/

namespace UsersProgram

/-- A query with two conditions, the second of which comes with a word. -/
def conditioned (word : String) : Query :=
  { connection := none, grammar := .grammar ⟨0⟩, source := .text "users"
    wheres := [⟨.text "and", .basic (.text "a") "=" (.int 1)⟩,
      ⟨.text word, .basic (.text "b") "=" (.int 2)⟩]
    bindings := { condition := [.int 1, .int 2] } }

theorem conjoined {word : String} (h : word ∈ conjunctions) :
    (Store.ofQueries #[conditioned word]).Conjoined := by
  intro id c hc
  by_cases hlt : id.index < 1
  · obtain rfl : id = ⟨0⟩ := congrArg QueryId.mk (Nat.lt_one_iff.1 hlt)
    rcases List.mem_cons.1 hc with rfl | hc
    · exact ⟨⟨"and", by decide, rfl⟩, fun _ h => nomatch h⟩
    · cases List.mem_singleton.1 hc
      exact ⟨⟨word, h, rfl⟩, fun _ h => nomatch h⟩
  · rw [Store.query_of_le (Nat.le_of_not_lt hlt)] at hc
    exact nomatch hc

end UsersProgram

open UsersProgram in
/-- With `and` between the conditions, only the row with the id is deleted. -/
theorem restriction_holds_iff_users :
    ∃ statement s', Ran (QueryId.toDeleteSql OrdersProgram.run ⟨0⟩ (.int 5))
        (.ofQueries #[conditioned "and"]) statement s' ∧
      statement.sql =
        "delete from \"users\" where \"a\" = ? and \"b\" = ? and \"users\".\"id\" = ?" ∧
      ∃ clauses added, Store.Restricts (.ofQueries #[conditioned "and"]) ⟨0⟩ "users.id" (.int 5) s'
        statement.sql clauses added ∧ Clause.Restricting clauses added := by
  have hevaluated : (((QueryId.toDeleteSql OrdersProgram.run ⟨0⟩ (.int 5)).run.run
      (.ofQueries #[conditioned "and"])).1.toOption.map Statement.sql) =
      some "delete from \"users\" where \"a\" = ? and \"b\" = ? and \"users\".\"id\" = ?" := by
    decide +kernel
  obtain ⟨statement, s', hran, hsql⟩ := exists_ran hevaluated
  obtain ⟨column, clauses, added, hcolumn, hrestricts, hiff⟩ :=
    (restriction_holds_iff (by decide) (conjoined (by decide)) (fun _ => rfl) rfl rfl).1
      statement s' hran
  obtain rfl : column = "users.id" := (hcolumn rfl).trans (by decide)
  exact ⟨statement, s', hran, hsql, clauses, added, hrestricts, hiff.2 (by unfold Query.Conjunctive; decide)⟩

open UsersProgram in
/-- With `or` between them, the delete by an id takes rows for which the id is another one. -/
theorem delete_escapes_restriction :
    ∃ statement s', Ran (QueryId.toDeleteSql OrdersProgram.run ⟨0⟩ (.int 5))
        (.ofQueries #[conditioned "or"]) statement s' ∧
      statement.sql =
        "delete from \"users\" where \"a\" = ? or \"b\" = ? and \"users\".\"id\" = ?" ∧
      ∃ clauses added, Store.Restricts (.ofQueries #[conditioned "or"]) ⟨0⟩ "users.id" (.int 5) s'
        statement.sql clauses added ∧ ¬Clause.Restricting clauses added := by
  have hevaluated : (((QueryId.toDeleteSql OrdersProgram.run ⟨0⟩ (.int 5)).run.run
      (.ofQueries #[conditioned "or"])).1.toOption.map Statement.sql) =
      some "delete from \"users\" where \"a\" = ? or \"b\" = ? and \"users\".\"id\" = ?" := by
    decide +kernel
  obtain ⟨statement, s', hran, hsql⟩ := exists_ran hevaluated
  obtain ⟨column, clauses, added, hcolumn, hrestricts, hiff⟩ :=
    QueryId.toDeleteSql_restricts (by decide) (conjoined (by decide)) (fun _ => rfl) rfl rfl hran
  obtain rfl : column = "users.id" := (hcolumn rfl).trans (by decide)
  refine ⟨statement, s', hran, hsql, clauses, added, hrestricts, fun hall => ?_⟩
  exact absurd (hiff.1 hall "or" (by decide)) (by decide)

end FluentSql
