import FluentSql.Compile.Select
import FluentSql.Proofs.Filling
import FluentSql.Proofs.References

/-!
# Conditions as a printed tree

The text of a list of conditions is made by joining all of them with their
words and dropping the word at the start.  It is the text that is printed from
the tree of the conditions and their groups, where no group has a keyword and
no first condition a joining word.

* `Clause` is the tree, and `Clause.printAll` prints a list of clauses.
* `Store.clauses` reads the tree off a store, down to a depth.
* `conditionsSql_eq_printAll` and `wheresSql_eq_printWheres` are the equality,
  for conditions whose joining words are among `conjunctions`.

Printed conditions are read with the precedence that they have in SQL: `and`
binds tighter than `or`, `not` binds tighter than both, and parentheses group.
A condition that is no group may hold or not, whatever the others do.

* `Clause.holdsAll` says whether a list of clauses holds, given which of the
  plain ones hold.
* `Clause.exists_holds` and `Clause.exists_holdsRest` say that clauses without
  empty groups can be true, and can be false.
* `Clause.last_holds_iff` tells when a clause that is added at the end with
  `and` holds wherever the whole list does.
-/

namespace FluentSql

/-! ## The tree -/

/-- A condition as it is printed. -/
inductive Clause where
  /-- A condition that is no group, by its text. -/
  | plain (text : String)
  /-- A group of conditions with their joining words. -/
  | group (clauses : List (String × Clause))

/-- The joining words. -/
def conjunctions : List String := ["and", "or", "and not", "or not"]

/-- What is left of a joining word before the first condition. -/
def leadingWord (word : String) : String :=
  if word = "and not" ∨ word = "or not" then "not " else ""

namespace Clause

mutual

/-- The text of a clause: a group stands in parentheses. -/
def print : Clause → String
  | plain text => text
  | group clauses => "(" ++ printAll clauses ++ ")"

/-- The text of a list of clauses.  The first has no joining word but a trailing `not`. -/
def printAll : List (String × Clause) → String
  | [] => ""
  | (word, clause) :: rest => leadingWord word ++ print clause ++ printRest rest

/-- The text of the clauses after the first, each with its joining word before it. -/
def printRest : List (String × Clause) → String
  | [] => ""
  | (word, clause) :: rest => " " ++ word ++ " " ++ print clause ++ printRest rest

end

mutual

/-- Every word in a clause is one of the joining words. -/
def Conjoined : Clause → Prop
  | plain _ => True
  | group clauses => ConjoinedAll clauses

/-- The words of a list of clauses, and those in them, are joining words. -/
def ConjoinedAll : List (String × Clause) → Prop
  | [] => True
  | (word, clause) :: rest => word ∈ conjunctions ∧ Conjoined clause ∧ ConjoinedAll rest

end

/-- The text of a list of clauses after a keyword, or nothing if there are none. -/
def printWheres (keyword : String) : List (String × Clause) → String
  | [] => ""
  | clauses => keyword ++ " " ++ printAll clauses

end Clause

/-! ## Reading the tree -/

namespace Store

variable (s : Store) (g : Grammar) (oracle : Oracle)

/-- The tree of a condition.  The text of a condition that is no group is that of the grammar. -/
def clause : (depth : Nat) → Where → Except Failure Clause
  | 0, .nested _ => .error (.value .endless)
  | depth + 1, .nested query => do
    return .group (← (s.query query).wheres.mapM fun condition => do
      return (condition.boolean.display, ← clause depth condition.body))
  | depth, body => (g.whereSql (attachedBy s g oracle depth) body).map .plain

/-- The trees of conditions, with their joining words. -/
def clauses (depth : Nat) (conditions : List Condition) :
    Except Failure (List (String × Clause)) :=
  conditions.mapM fun condition => do
    return (condition.boolean.display, ← s.clause g oracle depth condition.body)

theorem clause_nested (depth : Nat) (query : QueryId) :
    s.clause g oracle (depth + 1) (.nested query) =
      (s.clauses g oracle depth (s.query query).wheres).map .group := rfl

theorem clause_of_not_nested (depth : Nat) {body : Where} (h : ∀ query, body ≠ .nested query) :
    s.clause g oracle depth body = (g.whereSql (attachedBy s g oracle depth) body).map .plain := by
  cases body with
  | nested query => exact absurd rfl (h query)
  | _ => cases depth <;> rfl

end Store

/-! ## The first joining word -/

/-- Dropping a joining word at the start leaves a trailing `not`. -/
theorem dropConjunction_word {word : String} (h : word ∈ conjunctions) (rest : String) :
    dropConjunction (word ++ " " ++ rest) = leadingWord word ++ rest := by
  have hword : String.ofList (dropConjunctionChars (word.toList ++ [' '])) = leadingWord word := by
    simp only [conjunctions, List.mem_cons, List.not_mem_nil, or_false] at h
    rcases h with rfl | rfl | rfl | rfl <;> decide
  rw [dropConjunction_append, hword]

theorem joinWith_words (clause : String) (rest : List (String × Clause)) :
    joinWith " " (clause :: rest.map fun c => c.1 ++ " " ++ c.2.print) =
      clause ++ Clause.printRest rest := by
  induction rest generalizing clause with
  | nil => exact (String.append_empty).symm
  | cons c rest ih =>
    show clause ++ " " ++ joinWith " " (_ :: rest.map _) = _
    rw [ih, Clause.printRest]
    simp only [String.append_assoc]

/-- Fragments with their joining words, the first of which is dropped, are the printed clauses. -/
theorem dropConjunction_words {clauses : List (String × Clause)} (h : Clause.ConjoinedAll clauses) :
    dropConjunction (joinWith " " (clauses.map fun c => c.1 ++ " " ++ c.2.print)) =
      Clause.printAll clauses := by
  cases clauses with
  | nil => decide
  | cons c rest =>
    rw [List.map_cons, joinWith_words, String.append_assoc, dropConjunction_word h.1,
      Clause.printAll, String.append_assoc]

/-! ## Text and tree -/

/-- A text belongs to a tree: both fail alike, and if both are there and the words of the tree are
joining words, the text is what the tree prints. -/
def Prints {α β : Type} (conjoined : α → Prop) (print : α → β) (text : Except Failure β)
    (tree : Except Failure α) : Prop :=
  match tree with
  | .error e => text = .error e
  | .ok t => ∃ out, text = .ok out ∧ (conjoined t → out = print t)

theorem Prints.map_eq {α β : Type} {conjoined : α → Prop} {print : α → β}
    {text : Except Failure β} {tree : Except Failure α} (h : Prints conjoined print text tree)
    (hconjoined : ∀ t, tree = .ok t → conjoined t) : text = tree.map print := by
  cases tree with
  | error e => exact h
  | ok t =>
    obtain ⟨out, hout, hprint⟩ := h
    rw [hout, hprint (hconjoined t rfl)]
    rfl

section

variable {s : Store} {g : Grammar} {oracle : Oracle} {depth : Nat}

/-- The fragments of conditions belong to their trees if each of them does. -/
theorem prints_fragments {conditions : List Condition}
    (h : ∀ body, Prints Clause.Conjoined Clause.print
      (g.whereSql (attachedBy s g oracle depth) body) (s.clause g oracle depth body)) :
    Prints Clause.ConjoinedAll (List.map fun c => c.1 ++ " " ++ c.2.print)
      (conditions.mapM fun condition => do
        return condition.boolean.display ++ " " ++
          (← g.whereSql (attachedBy s g oracle depth) condition.body))
      (s.clauses g oracle depth conditions) := by
  unfold Store.clauses
  induction conditions with
  | nil => exact ⟨[], rfl, fun _ => rfl⟩
  | cons condition conditions ih =>
    rw [List.mapM_cons, List.mapM_cons]
    have hfirst := h condition.body
    cases htree : s.clause g oracle depth condition.body with
    | error e =>
      rw [htree] at hfirst
      rw [show g.whereSql (attachedBy s g oracle depth) condition.body = .error e from hfirst]
      rfl
    | ok tree =>
      rw [htree] at hfirst
      obtain ⟨text, htext, hprint⟩ := hfirst
      rw [htext]
      revert ih
      cases (conditions.mapM fun condition => do
        return (condition.boolean.display, ← s.clause g oracle depth condition.body) :
          Except Failure (List (String × Clause))) with
      | error e =>
        intro ih
        rw [show (conditions.mapM fun condition => do
          return condition.boolean.display ++ " " ++
            (← g.whereSql (attachedBy s g oracle depth) condition.body) :
              Except Failure (List String)) = .error e from ih]
        rfl
      | ok trees =>
        rintro ⟨texts, htexts, hprints⟩
        rw [htexts]
        refine ⟨_, rfl, fun hconjoined => ?_⟩
        rw [hprint hconjoined.2.1, hprints hconjoined.2.2]
        rfl

/-- The conditions of a list belong to their trees if each of them does. -/
theorem prints_conditions {conditions : List Condition}
    (h : ∀ body, Prints Clause.Conjoined Clause.print
      (g.whereSql (attachedBy s g oracle depth) body) (s.clause g oracle depth body)) :
    Prints Clause.ConjoinedAll Clause.printAll
      (g.conditionsSql (attachedBy s g oracle depth) conditions)
      (s.clauses g oracle depth conditions) := by
  have hfragments := @prints_fragments s g oracle depth conditions h
  unfold Grammar.conditionsSql
  cases htree : s.clauses g oracle depth conditions with
  | error e =>
    rw [htree] at hfragments
    rw [show _ = Except.error e from hfragments]
    rfl
  | ok trees =>
    rw [htree] at hfragments
    obtain ⟨texts, htexts, hprint⟩ := hfragments
    rw [htexts]
    refine ⟨_, rfl, fun hconjoined => ?_⟩
    rw [hprint hconjoined]
    exact dropConjunction_words hconjoined

theorem prints_plain {body : Where} (h : ∀ query, body ≠ .nested query) :
    Prints Clause.Conjoined Clause.print (g.whereSql (attachedBy s g oracle depth) body)
      (s.clause g oracle depth body) := by
  rw [s.clause_of_not_nested g oracle depth h]
  cases g.whereSql (attachedBy s g oracle depth) body with
  | error e => rfl
  | ok text => exact ⟨text, rfl, fun _ => rfl⟩

/-- A condition belongs to its tree: by induction on the depth, as a group holds conditions of the
depth below. -/
theorem prints_where (body : Where) :
    Prints Clause.Conjoined Clause.print (g.whereSql (attachedBy s g oracle depth) body)
      (s.clause g oracle depth body) := by
  induction depth generalizing body with
  | zero =>
    cases body with
    | nested query => rfl
    | _ => exact prints_plain fun _ h => nomatch h
  | succ depth ih =>
    cases body with
    | nested query =>
      have hgroup := @prints_conditions s g oracle depth (s.query query).wheres ih
      rw [s.clause_nested]
      show Prints _ _ (do
        return "(" ++ (← g.conditionsSql (attachedBy s g oracle depth) (s.query query).wheres) ++
          ")") _
      cases htree : s.clauses g oracle depth (s.query query).wheres with
      | error e =>
        rw [htree] at hgroup
        rw [show _ = Except.error e from hgroup]
        rfl
      | ok clauses =>
        rw [htree] at hgroup
        obtain ⟨text, htext, hprint⟩ := hgroup
        rw [htext]
        exact ⟨_, rfl, fun hconjoined => by rw [hprint hconjoined]; rfl⟩
    | _ => exact prints_plain fun _ h => nomatch h

/-- The text of conditions is what their tree prints. -/
theorem conditionsSql_eq_printAll {conditions : List Condition}
    (hwords : ∀ clauses, s.clauses g oracle depth conditions = .ok clauses →
      Clause.ConjoinedAll clauses) :
    g.conditionsSql (attachedBy s g oracle depth) conditions =
      (s.clauses g oracle depth conditions).map Clause.printAll :=
  (prints_conditions prints_where).map_eq hwords

theorem printWheres_of_ne_nil (keyword : String) {clauses : List (String × Clause)}
    (h : clauses ≠ []) :
    Clause.printWheres keyword clauses = keyword ++ " " ++ Clause.printAll clauses := by
  cases clauses with
  | nil => exact absurd rfl h
  | cons => rfl

theorem clauses_length {conditions : List Condition} {clauses : List (String × Clause)}
    (h : s.clauses g oracle depth conditions = .ok clauses) :
    clauses.length = conditions.length := by
  unfold Store.clauses at h
  induction conditions generalizing clauses with
  | nil =>
    cases h
    rfl
  | cons condition conditions ih =>
    rw [List.mapM_cons] at h
    obtain ⟨first, _, h⟩ := Name.bind_eq_ok h
    obtain ⟨rest, hrest, h⟩ := Name.bind_eq_ok h
    cases h
    rw [List.length_cons, List.length_cons, ih hrest]

/-- The conditions of a query after its keyword are what their tree prints. -/
theorem wheresSql_eq_printWheres {q : Query}
    (hwords : ∀ clauses, s.clauses g oracle depth q.wheres = .ok clauses →
      Clause.ConjoinedAll clauses) :
    g.wheresSql (attachedBy s g oracle depth) q =
      (s.clauses g oracle depth q.wheres).map (Clause.printWheres q.keyword) := by
  unfold Grammar.wheresSql
  split
  · rename_i hempty
    rw [List.isEmpty_iff.1 hempty]
    rfl
  · rename_i hne
    rw [conditionsSql_eq_printAll hwords]
    cases hclauses : s.clauses g oracle depth q.wheres with
    | error e => rfl
    | ok clauses =>
      have hlength := clauses_length hclauses
      have hclauses_ne : clauses ≠ [] := by
        rintro rfl
        exact hne (List.isEmpty_iff.2 (List.eq_nil_of_length_eq_zero hlength.symm))
      show Except.ok _ = Except.ok _
      rw [printWheres_of_ne_nil q.keyword hclauses_ne]

end

end FluentSql

namespace FluentSql.Clause

/-! ## Precedence -/

/-- A joining word that starts an alternative to what stands before it. -/
def isAlternative (word : String) : Bool := word == "or" || word == "or not"

/-- A joining word that negates the clause after it. -/
def isNegation (word : String) : Bool := word == "and not" || word == "or not"

mutual

/-- Whether a clause holds.  The plain clauses that hold are given by their places: the positions of
the groups around a clause, from the outside, and its own. -/
def holds (v : List Nat → Bool) : Clause → Bool
  | plain _ => v []
  | group clauses => holdsAll (fun n place => v (n :: place)) clauses

/-- Whether a list of clauses holds.  The first clause starts the first alternative. -/
def holdsAll (v : Nat → List Nat → Bool) : List (String × Clause) → Bool
  | [] => true
  | (word, clause) :: rest =>
    holdsRest (fun n => v (n + 1)) (isNegation word ^^ holds (v 0) clause) rest

/-- Whether a list of clauses holds, given whether the alternative that it goes on with does, as far
as it was read. -/
def holdsRest (v : Nat → List Nat → Bool) (sofar : Bool) : List (String × Clause) → Bool
  | [] => sofar
  | (word, clause) :: rest =>
    let truth := isNegation word ^^ holds (v 0) clause
    if isAlternative word then sofar || holdsRest (fun n => v (n + 1)) truth rest
    else holdsRest (fun n => v (n + 1)) (sofar && truth) rest

end

mutual

/-- There are no empty groups in a clause. -/
def Full : Clause → Prop
  | plain _ => True
  | group clauses => clauses ≠ [] ∧ FullAll clauses

/-- There are no empty groups in a list of clauses. -/
def FullAll : List (String × Clause) → Prop
  | [] => True
  | (_, clause) :: rest => Full clause ∧ FullAll rest

end

/-! ## Every truth value can be had -/

/-- What holds in a list of clauses, given what holds in the first clause and in those after it. -/
def first (v : List Nat → Bool) (vs : Nat → List Nat → Bool) : Nat → List Nat → Bool
  | 0 => v
  | n + 1 => vs n

/-- A clause is made true or false through its negation, if its word has one. -/
theorem negation_twice (word : String) (b : Bool) :
    (isNegation word ^^ (isNegation word ^^ b)) = b := by
  rw [← Bool.xor_assoc, Bool.xor_self, Bool.false_xor]

mutual

/-- A clause without empty groups can be true, and can be false. -/
theorem exists_holds (b : Bool) : ∀ {clause : Clause}, Full clause → ∃ v, holds v clause = b
  | plain _, _ => ⟨fun _ => b, rfl⟩
  | group [], h => absurd rfl h.1
  | group ((word, clause) :: rest), h => by
    obtain ⟨v, hv⟩ := exists_holds (isNegation word ^^ b) h.2.1
    obtain ⟨vs, hvs⟩ := exists_holdsRest b h.2.2
    refine ⟨fun place => place.casesOn b (first v vs), ?_⟩
    show holdsRest vs (isNegation word ^^ holds v clause) rest = b
    rw [hv, negation_twice, hvs]

/-- If the alternative that a list goes on with is true, the list can stay so, and if it is false, the
list can stay false. -/
theorem exists_holdsRest (b : Bool) : ∀ {clauses : List (String × Clause)}, FullAll clauses →
    ∃ vs, holdsRest vs b clauses = b
  | [], _ => ⟨fun _ _ => b, rfl⟩
  | (word, clause) :: rest, h => by
    obtain ⟨v, hv⟩ := exists_holds (isNegation word ^^ b) h.1
    obtain ⟨vs, hvs⟩ := exists_holdsRest b h.2
    refine ⟨first v vs, ?_⟩
    show (if isAlternative word then b || holdsRest vs (isNegation word ^^ holds v clause) rest
      else holdsRest vs (b && (isNegation word ^^ holds v clause)) rest) = b
    rw [hv, negation_twice, Bool.and_self, hvs, Bool.or_self, ite_self]

end

/-! ## A clause at the end -/

section

variable {clauses rest : List (String × Clause)} {text : String}

/-- Without alternatives, a list holds only if its last clause does. -/
theorem last_of_holdsRest (hand : ∀ c ∈ rest, isAlternative c.1 = false)
    {v : Nat → List Nat → Bool} {sofar : Bool}
    (h : holdsRest v sofar (rest ++ [("and", plain text)]) = true) : v rest.length [] = true := by
  induction rest generalizing v sofar with
  | nil =>
    have hlast : (sofar && (false ^^ v 0 [])) = true := h
    rw [Bool.false_xor, Bool.and_eq_true] at hlast
    exact hlast.2
  | cons c rest ih =>
    rw [List.cons_append, holdsRest, hand c List.mem_cons_self, if_neg Bool.false_ne_true] at h
    exact ih (fun c' hc' => hand c' (List.mem_cons_of_mem _ hc')) h

/-- With an alternative, a list that is true so far can be true and its last clause false. -/
theorem exists_holdsRest_without_last (hfull : FullAll rest)
    (hor : ∃ c ∈ rest, isAlternative c.1 = true) :
    ∃ v, holdsRest v true (rest ++ [("and", plain text)]) = true ∧ v rest.length [] = false := by
  induction rest with
  | nil =>
    obtain ⟨_, hmem, _⟩ := hor
    exact nomatch hmem
  | cons c rest ih =>
    obtain ⟨word, clause⟩ := c
    cases hword : isAlternative word with
    | true =>
      refine ⟨fun _ _ => false, ?_, rfl⟩
      rw [List.cons_append, holdsRest, hword, if_pos rfl, Bool.true_or]
    | false =>
      have hrest : ∃ c ∈ rest, isAlternative c.1 = true := by
        obtain ⟨c, hc, halternative⟩ := hor
        rcases List.mem_cons.1 hc with rfl | hc
        · exact absurd halternative (by rw [hword]; exact Bool.false_ne_true)
        · exact ⟨c, hc, halternative⟩
      obtain ⟨vs, hvs, hlast⟩ := ih hfull.2 hrest
      obtain ⟨v, hv⟩ := exists_holds (isNegation word ^^ true) hfull.1
      refine ⟨first v vs, ?_, hlast⟩
      rw [List.cons_append, holdsRest, hword, if_neg Bool.false_ne_true]
      show holdsRest vs (true && (isNegation word ^^ holds v clause)) _ = true
      rw [hv, negation_twice, Bool.and_self, hvs]

/-- A clause that is added with `and` holds wherever the list does, exactly if no clause after the
first starts an alternative.  An alternative before it can be true on its own. -/
theorem last_holds_iff (hfull : FullAll clauses) :
    (∀ v, holdsAll v (clauses ++ [("and", plain text)]) = true → v clauses.length [] = true) ↔
      ∀ word ∈ (clauses.map Prod.fst).tail, isAlternative word = false := by
  cases clauses with
  | nil =>
    refine iff_of_true (fun v h => ?_) fun _ hword => nomatch hword
    have hlast : (false ^^ v 0 []) = true := h
    rwa [Bool.false_xor] at hlast
  | cons c rest =>
    obtain ⟨word, clause⟩ := c
    rw [List.map_cons, List.tail_cons, List.forall_mem_map]
    refine ⟨fun h c hc => ?_, fun h v hv => last_of_holdsRest h hv⟩
    refine Bool.eq_false_iff.2 fun halternative => ?_
    obtain ⟨vs, hvs, hlast⟩ :=
      @exists_holdsRest_without_last rest text hfull.2 ⟨c, hc, halternative⟩
    obtain ⟨v, hv⟩ := exists_holds (isNegation word ^^ true) hfull.1
    have hholds : holdsAll (first v vs) ((word, clause) :: rest ++ [("and", plain text)]) = true := by
      show holdsRest vs (isNegation word ^^ holds v clause) (rest ++ [("and", plain text)]) = true
      rw [hv, negation_twice, hvs]
    exact absurd (hlast.symm.trans (h _ hholds)) Bool.false_ne_true

end

end FluentSql.Clause
