import FluentSql.Proofs.Operators.Membership
import FluentSql.Proofs.Printing
import FluentSql.Proofs.Traversing

/-!
# Words that join conditions

Every condition keeps the word that joins it to the one before it.  The first
one has none before it, and its word is not written, so that a query with one
condition reads the same whatever its word is.

* `Grammar.conditionsSql_worded` says how conditions are written that all have
  one word.
* `Query.joinedBy` puts one word before all conditions of a query, and
  `Query.IsAlone` says that there is no more than one.
* `Grammar.selectSql_joinedBy` and its kin say that such a query is written the
  same, and `Grammar.conditionsSql_joinedBy_iff` that no other one is.
* `Store.readsLike_joinedBy` says it of all queries of a store.
-/

namespace FluentSql

/-- The words that join two conditions. -/
def joiningWords : List Value := [.text "and", .text "or"]

/-! ## Conditions of one word -/

section

variable {g : Grammar} {attached : Attached} {conditions : List Condition} {word : Value}

theorem joinWith_worded (word first : String) (rest : List String) :
    joinWith " " ((first :: rest).map fun text => word ++ " " ++ text) =
      word ++ " " ++ joinWith (" " ++ word ++ " ") (first :: rest) := by
  induction rest generalizing first with
  | nil => rfl
  | cons second rest ih =>
    show word ++ " " ++ first ++ " " ++ joinWith " " ((second :: rest).map _) =
      word ++ " " ++ (first ++ (" " ++ word ++ " ") ++ joinWith _ (second :: rest))
    rw [ih]
    simp only [String.append_assoc]

/-- Conditions that all have one word are joined by it. -/
theorem Grammar.conditionsSql_worded (hword : word ∈ joiningWords)
    (hwords : ∀ c ∈ conditions, c.boolean = word) :
    g.conditionsSql attached conditions =
      (conditions.mapM fun c => g.whereSql attached c.body).map
        (joinWith (" " ++ word.display ++ " ")) := by
  have hdrop : ∀ texts : List String,
      dropConjunction (joinWith " " (texts.map fun text => word.display ++ " " ++ text)) =
        joinWith (" " ++ word.display ++ " ") texts := by
    intro texts
    have hconjunction : word.display ∈ conjunctions ∧ leadingWord word.display = "" := by
      rcases List.mem_pair.1 hword with rfl | rfl <;> decide
    cases texts with
    | nil => exact (by decide : dropConjunction "" = "")
    | cons first rest =>
      rw [joinWith_worded, dropConjunction_word hconjunction.1, hconjunction.2, String.empty_append]
  have hfragments : (conditions.mapM fun c => do
        return c.boolean.display ++ " " ++ (← g.whereSql attached c.body)) =
      (conditions.mapM fun c => g.whereSql attached c.body).map
        (List.map fun text => word.display ++ " " ++ text) := by
    induction conditions with
    | nil => rfl
    | cons c conditions ih =>
      have hrest := ih fun other hother => hwords other (List.mem_cons_of_mem _ hother)
      rw [List.mapM_cons, List.mapM_cons, hrest, hwords c List.mem_cons_self]
      cases g.whereSql attached c.body with
      | error e => rfl
      | ok sql => cases conditions.mapM fun c => g.whereSql attached c.body <;> rfl
  unfold conditionsSql
  rw [hfragments]
  cases conditions.mapM fun c => g.whereSql attached c.body with
  | error e => rfl
  | ok texts => exact congrArg Except.ok (hdrop texts)

/-- The word of a condition that stands alone is not written. -/
theorem Grammar.conditionsSql_single (hword : word ∈ joiningWords) (body : Where) :
    g.conditionsSql attached [⟨word, body⟩] = g.whereSql attached body := by
  rw [Grammar.conditionsSql_worded hword (by simp), List.mapM_cons, List.mapM_nil]
  dsimp only
  cases g.whereSql attached body <;> rfl

end

/-! ## Queries with one word -/

namespace Query

/-- The query with one word before each of its conditions. -/
def joinedBy (q : Query) (word : Value) : Query :=
  { q with wheres := q.wheres.map fun c => ⟨word, c.body⟩ }

/-- There is at most one condition, with a word that would join it to others. -/
structure IsAlone (q : Query) : Prop where
  /-- There is no second condition. -/
  length : q.wheres.length ≤ 1
  /-- The words are joining words. -/
  words : ∀ c ∈ q.wheres, c.boolean ∈ joiningWords

end Query

namespace Grammar

variable {g : Grammar} {attached : Attached} {q : Query} {word : Value} (h : q.IsAlone)
  (hword : word ∈ joiningWords)

include h hword

theorem conditionsSql_joinedBy :
    g.conditionsSql attached (q.joinedBy word).wheres = g.conditionsSql attached q.wheres := by
  obtain ⟨hlength, hwords⟩ := h
  unfold Query.joinedBy
  dsimp only
  generalize q.wheres = conditions at hlength hwords
  match conditions with
  | [] => rfl
  | [c] =>
    have hc := hwords c List.mem_cons_self
    rw [List.map_cons, List.map_nil, conditionsSql_single hword]
    exact (conditionsSql_single hc c.body).symm
  | _ :: _ :: _ => exact absurd hlength (by simp)

theorem wheresSql_joinedBy :
    g.wheresSql attached (q.joinedBy word) = g.wheresSql attached q := by
  have hempty : (q.joinedBy word).wheres.isEmpty = q.wheres.isEmpty := List.isEmpty_map
  unfold wheresSql
  rw [hempty, conditionsSql_joinedBy h hword]
  rfl

theorem joinSql_joinedBy : g.joinSql attached (q.joinedBy word) = g.joinSql attached q := by
  unfold joinSql
  rw [wheresSql_joinedBy h hword]
  rfl

theorem plainSelectSql_joinedBy :
    g.plainSelectSql attached (q.joinedBy word) = g.plainSelectSql attached q := by
  unfold plainSelectSql components
  rw [wheresSql_joinedBy h hword]
  rfl

theorem selectSql_joinedBy : g.selectSql attached (q.joinedBy word) = g.selectSql attached q := by
  have hinner : g.plainSelectSql attached { q.joinedBy word with aggregate := none } =
      g.plainSelectSql attached { q with aggregate := none } :=
    plainSelectSql_joinedBy (q := { q with aggregate := none }) ⟨h.length, h.words⟩ hword
  unfold selectSql
  rw [hinner, plainSelectSql_joinedBy h hword]
  rfl

end Grammar

/-! ## Words that are written -/

section

variable {g : Grammar} {attached : Attached} {word : Value}

theorem length_joinWith_le {separator separator' : String}
    (h : separator.length ≤ separator'.length) (texts : List String) :
    (joinWith separator texts).length ≤ (joinWith separator' texts).length := by
  induction texts with
  | nil => exact Nat.le_refl _
  | cons first rest ih =>
    cases rest with
    | nil => exact Nat.le_refl _
    | cons second rest =>
      show (first ++ separator ++ joinWith separator (second :: rest)).length ≤
        (first ++ separator' ++ joinWith separator' (second :: rest)).length
      simp only [String.length_append]
      omega

/-- Separators of different lengths separate nothing if they leave the same text. -/
theorem length_le_one_of_joinWith_eq {separator separator' : String}
    (h : separator.length < separator'.length) {texts : List String}
    (heq : joinWith separator texts = joinWith separator' texts) : texts.length ≤ 1 := by
  match texts with
  | [] => exact Nat.zero_le 1
  | [_] => exact Nat.le_refl 1
  | first :: second :: rest =>
    have hlength : (first ++ separator ++ joinWith separator (second :: rest)).length =
        (first ++ separator' ++ joinWith separator' (second :: rest)).length :=
      congrArg String.length heq
    have hrest := length_joinWith_le h.le (second :: rest)
    simp only [String.length_append] at hlength
    omega

/-- Another word than `and` changes the text of conditions, unless it joins nothing. -/
theorem Grammar.conditionsSql_joinedBy_iff {q : Query} {sql : String} (hword : word ∈ joiningWords)
    (hwords : ∀ c ∈ q.wheres, c.boolean = .text "and")
    (hsql : g.conditionsSql attached q.wheres = .ok sql) :
    g.conditionsSql attached (q.joinedBy word).wheres = .ok sql ↔
      word = .text "and" ∨ q.wheres.length ≤ 1 := by
  have hsame : ∀ c ∈ (q.joinedBy word).wheres, c.boolean = word := by
    intro c hc
    obtain ⟨_, _, rfl⟩ := List.mem_map.1 hc
    rfl
  have hbodies : ((q.joinedBy word).wheres.mapM fun c => g.whereSql attached c.body) =
      q.wheres.mapM fun c => g.whereSql attached c.body := List.mapM_map
  rw [Grammar.conditionsSql_worded List.mem_cons_self hwords] at hsql
  rw [Grammar.conditionsSql_worded hword hsame, hbodies]
  cases htexts : q.wheres.mapM fun c => g.whereSql attached c.body with
  | error e =>
    rw [htexts] at hsql
    exact nomatch hsql
  | ok texts =>
    have hlength : q.wheres.length = texts.length := (mapM_eq_ok_iff.1 htexts).length_eq
    rw [htexts] at hsql
    rw [hlength, ← hsql]
    refine ⟨fun heq => ?_, fun h => congrArg Except.ok ?_⟩
    · rcases List.mem_pair.1 hword with rfl | rfl
      · exact .inl rfl
      · exact .inr (length_le_one_of_joinWith_eq (by decide) (Except.ok.inj heq))
    · obtain rfl | hone := h
      · rfl
      · match texts with
        | [] => rfl
        | [_] => rfl

end

/-! ## Stores -/

namespace Store

variable {s : Store} {id : QueryId} {word : Value}

/-- The store with one word before each condition of a query. -/
def joinedBy (s : Store) (id : QueryId) (word : Value) : Store :=
  s.edit id (·.joinedBy word)

theorem query_joinedBy_self : (s.joinedBy id word).query id = (s.query id).joinedBy word := by
  by_cases hlt : id.index < s.queries.size
  · exact query_edit_self hlt _
  · unfold joinedBy
    rw [edit_of_le (Nat.le_of_not_lt hlt), query_of_le (Nat.le_of_not_lt hlt)]
    rfl

/-- What is the same of a query with other words is the same of all queries of the store. -/
theorem read_joinedBy {α : Type} {f : Query → α}
    (hf : f ((s.query id).joinedBy word) = f (s.query id)) (other : QueryId) :
    f ((s.joinedBy id word).query other) = f (s.query other) := by
  obtain heq | ⟨rfl, _, heq⟩ := s.query_edit_cases id (·.joinedBy word) other
  · exact congrArg f heq
  · exact (congrArg f heq).trans hf

theorem shown_joinedBy (v : Value) : (s.joinedBy id word).shown v = s.shown v :=
  @shown_congr s (s.joinedBy id word) (fun _ => True) (size_edit ..)
    (fun other _ => read_joinedBy (f := Query.bindings) rfl other) (fun _ _ _ _ => trivial) v
    fun _ _ => trivial

theorem classOf_joinedBy (other : QueryId) :
    (s.joinedBy id word).classOf other = s.classOf other :=
  read_joinedBy (f := fun query => if query.isJoin then QueryClass.join else .statement) rfl other

theorem grammarFor_joinedBy (compiler : Compiler) (method : String) :
    (s.joinedBy id word).grammarFor compiler method = s.grammarFor compiler method := by
  cases compiler with
  | query other =>
    exact congrArg (fun c => Except.error (Failure.unknownMethod c method)) (classOf_joinedBy other)
  | _ => rfl

theorem oracle_joinedBy (known : KnownAnswers) :
    (s.joinedBy id word).oracle known = s.oracle known := by
  funext other request
  unfold oracle
  rw [classOf_joinedBy]
  rfl

/-- Attached queries are compiled alike with another word in a query that has one condition. -/
theorem attachedBy_joinedBy (h : (s.query id).IsAlone) (hword : word ∈ joiningWords) (g : Grammar)
    (oracle : Oracle) (depth : Nat) :
    Attached.Matches False Eq Eq Eq (attachedBy s g oracle depth)
      (attachedBy (s.joinedBy id word) g oracle depth) := by
  induction depth with
  | zero => exact ⟨fun _ _ _ => .error _, fun _ _ _ => .error _, fun _ _ _ => .error _⟩
  | succ depth ih =>
    have hsame : ∀ other, (s.query other).Matches False Eq g g (attachedBy s g oracle depth)
        (attachedBy (s.joinedBy id word) g oracle depth) (s.query other) := fun other =>
      (s.query other).matches_same ih ((oracle_attachedBy ..).trans (oracle_attachedBy ..).symm)
    refine ⟨?_, ?_, ?_⟩
    · rintro other _ rfl
      show FluentSql.Alike False Eq _ (g.selectSql _ _)
      rw [read_joinedBy (g.selectSql_joinedBy h hword) other]
      exact (hsame other).selectSql_alike carried_eq (.same fun _ _ => rfl)
    · rintro other _ rfl
      show FluentSql.Alike False Eq _ (g.conditionsSql _ ((s.joinedBy id word).query other).wheres)
      rw [read_joinedBy (f := fun query => g.conditionsSql _ query.wheres)
        (g.conditionsSql_joinedBy h hword) other]
      exact conditionsSql_alike carried_eq (hsame other).wheres
    · rintro other _ rfl
      show FluentSql.Alike False Eq _ (g.joinSql _ _)
      rw [read_joinedBy (g.joinSql_joinedBy h hword) other]
      exact (hsame other).joinSql_alike carried_eq

theorem compiled_joinedBy (h : (s.query id).IsAlone) (hword : word ∈ joiningWords)
    (known : KnownAnswers) (other : QueryId) (method : String) :
    (s.joinedBy id word).compiled known other method Grammar.selectSql =
      s.compiled known other method Grammar.selectSql := by
  have hgrammar : ((s.joinedBy id word).query other).grammar = (s.query other).grammar :=
    read_joinedBy (f := Query.grammar) rfl other
  unfold compiled
  rw [hgrammar, grammarFor_joinedBy]
  cases s.grammarFor (s.query other).grammar method with
  | error e => rfl
  | ok g =>
    show g.selectSql _ _ = g.selectSql _ _
    rw [read_joinedBy (g.selectSql_joinedBy h hword) other]
    have hattached := attachedBy_joinedBy h hword g (s.oracle known) s.attachedDepth
    have hsame : (s.query other).Matches False Eq g g (s.attached g known) _ (s.query other) :=
      (s.query other).matches_same hattached
        ((oracle_attachedBy ..).trans (oracle_attachedBy ..).symm)
    have halike := hsame.selectSql_alike carried_eq (.same fun _ _ => rfl)
    unfold attached
    rw [oracle_joinedBy, show (s.joinedBy id word).attachedDepth = s.attachedDepth from
      congrArg (3 * · + 1) (size_edit ..)]
    exact halike.eq.symm

theorem settled_joinedBy (hword : word ∈ joiningWords) :
    (s.joinedBy id word).settled = s.settled.joinedBy id word := by
  have hvalue : ∀ r : Renaming, r.value word = word := by
    intro r
    rcases List.mem_pair.1 hword with rfl | rfl <;> rfl
  have hrename : ∀ (r : Renaming) (query : Query),
      (query.joinedBy word).rename r = (query.rename r).joinedBy word := by
    intro r query
    unfold Query.joinedBy Query.rename
    simp only [List.map_map, Function.comp_def, hvalue]
  have hqueries : ∀ r : Renaming, (s.queries.modify id.index (·.joinedBy word)).map (·.rename r) =
      (s.queries.map (·.rename r)).modify id.index (·.joinedBy word) := by
    intro r
    refine Array.ext_getElem? fun i => ?_
    rw [Array.getElem?_map, Array.getElem?_modify, Array.getElem?_modify, Array.getElem?_map]
    split
    · rw [Option.map_map, Option.map_map]
      exact congrArg (Option.map · _) (funext fun query => hrename r query)
    · rfl
  unfold settled
  simp only [shown_joinedBy]
  exact congrArg (fun queries => { s with queries }) (hqueries _)

theorem isAlone_settled (h : (s.query id).IsAlone) : (s.settled.query id).IsAlone := by
  rw [query_settled]
  refine ⟨(List.length_map _).trans_le h.length, fun c hc => ?_⟩
  obtain ⟨condition, hcondition, rfl⟩ := List.mem_map.1 hc
  have hword := h.words condition hcondition
  rcases List.mem_pair.1 hword with heq | heq
  · rw [heq]
    exact List.mem_cons_self
  · rw [heq]
    exact List.mem_cons_of_mem _ List.mem_cons_self

theorem compiled_settled_joinedBy (h : (s.query id).IsAlone) (hword : word ∈ joiningWords)
    (known : KnownAnswers) (other : QueryId) (method : String) :
    (s.joinedBy id word).settled.compiled known other method Grammar.selectSql =
      s.settled.compiled known other method Grammar.selectSql := by
  rw [settled_joinedBy hword, compiled_joinedBy (isAlone_settled h) hword]

/-- Two stores whose queries have the same bindings and are compiled alike. -/
structure ReadsLike (s s' : Store) : Prop where
  /-- The bindings of all queries are the same. -/
  bindings : ∀ other, (s.query other).bindings = (s'.query other).bindings
  /-- All queries are compiled alike. -/
  sql : ∀ known other method, s.settled.compiled known other method Grammar.selectSql =
    s'.settled.compiled known other method Grammar.selectSql

theorem ReadsLike.refl (s : Store) : s.ReadsLike s :=
  ⟨fun _ => rfl, fun _ _ _ => rfl⟩

/-- A query with one condition may have another word before it. -/
theorem readsLike_joinedBy (h : (s.query id).IsAlone) (hword : word ∈ joiningWords) :
    (s.joinedBy id word).ReadsLike s where
  bindings := read_joinedBy (f := Query.bindings) rfl
  sql := compiled_settled_joinedBy h hword

end Store

end FluentSql
