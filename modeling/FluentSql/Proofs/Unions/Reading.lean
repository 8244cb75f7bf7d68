import FluentSql.Proofs.Unions.Tree
import FluentSql.Proofs.Unions.Words
import FluentSql.Proofs.Uniting

/-!
# Reading a union

A chain of selects is read from left to right; a member in parentheses is read
as one unit.

* `unionMembers` are the members of a chain by their first words, and
  `readRows` are the rows that a text means.
* `ReadsFlat` says that a text is a chain without parentheses, and `ReadsTree`
  that it is read as a tree.
* `flat_members` and `tree_members` put members together.
-/

namespace FluentSql

variable {R : Type} [DecidableEq R]

/-! ## The reader -/

/-- The first word of a member, with whether duplicates are kept, after the word that joins it. -/
def memberAfter : List (List Char) → Option (Bool × List Char)
  | [] => none
  | word :: rest => if word = "all".toList then rest.head?.map (true, ·) else some (false, word)

/-- The members of a chain by their first words. -/
def unionMembers : List (List Char) → List (Bool × List Char)
  | [] => []
  | word :: rest =>
    if word = "union".toList then (memberAfter rest).toList ++ unionMembers rest
    else unionMembers rest

/-- The rows of a member: those of a text in parentheses, or of one select. -/
def readMember (selects : Nat → Multiset R) (inside : List Char → RowReader R) :
    List Char → RowReader R
  | '(' :: rest => inside rest.dropLast
  | _ => .select selects

/-- The rows of a chain, from left to right. -/
def readChain (member : List Char → RowReader R) : List (List Char) → RowReader R
  | [] => fun start => (0, start)
  | first :: rest =>
    (unionMembers rest).foldl (fun before next => before.join next.1 (member next.2)) (member first)

/-- The rows of a text.  `fuel` bounds how deeply parentheses are read. -/
def readFrom (selects : Nat → Multiset R) : (fuel : Nat) → List Char → RowReader R
  | 0, _ => fun start => (0, start)
  | fuel + 1, text => readChain (readMember selects (readFrom selects fuel)) (words text)

/-- The rows that a text means, if its selects have some rows. -/
def readRows (selects : Nat → Multiset R) (sql : String) : Multiset R :=
  (readFrom selects (sql.toList.length + 1) sql.toList 0).1

/-! ## Words -/

/-- The first word of a select. -/
def selectWord : List Char := "select".toList

theorem unionMembers_append {a : List (List Char)} (h : "union".toList ∉ a)
    (b : List (List Char)) : unionMembers (a ++ b) = unionMembers b := by
  induction a with
  | nil => rfl
  | cons word a ih =>
    rw [List.mem_cons] at h
    rw [List.cons_append, unionMembers, if_neg fun hword => h (.inl hword.symm)]
    exact ih fun hmem => h (.inr hmem)

/-- A member that begins with a word of its own. -/
theorem unionMembers_member (keepsAll : Bool) {word : List Char} (hunion : word ≠ "union".toList)
    (hall : word ≠ "all".toList) (rest : List (List Char)) :
    unionMembers (words ((unionWord keepsAll).toList) ++ word :: rest) =
      (keepsAll, word) :: unionMembers rest := by
  have hrest : unionMembers (word :: rest) = unionMembers rest := if_neg hunion
  cases keepsAll with
  | true =>
    show (true, word) :: unionMembers ("all".toList :: word :: rest) = _
    rw [unionMembers, if_neg (by decide), hrest]
  | false =>
    show (memberAfter (word :: rest)).toList ++ unionMembers (word :: rest) = _
    rw [memberAfter, if_neg hall, hrest]
    rfl

theorem words_unionWord (keepsAll : Bool) (cs : List Char) :
    words ((unionWord keepsAll).toList ++ cs) =
      words ((unionWord keepsAll).toList) ++ words cs := by
  cases keepsAll <;> rfl

theorem beginsBlank_unionWord (keepsAll : Bool) (cs : List Char) :
    BeginsBlank ((unionWord keepsAll).toList ++ cs) := by
  obtain ⟨rest, hrest⟩ := unionWord_begins keepsAll
  rw [hrest]
  exact .inr ⟨' ', _, rfl, by decide⟩

/-- One select, which holds no union outside its quotes and parentheses. -/
structure IsSelect (sql : String) : Prop where
  balanced : Balanced sql.toList
  words : ∃ rest, words sql.toList = selectWord :: rest ∧ "union".toList ∉ rest

/-- A clause that may follow a select without a union of its own. -/
structure IsClause (sql : String) : Prop where
  balanced : Balanced sql.toList
  words : "union".toList ∉ words sql.toList

theorem isClause_empty : IsClause "" :=
  ⟨by decide, by decide⟩

/-! ## Chains without parentheses -/

/-- A text is a chain of selects with some words between them. -/
structure ReadsFlat (between : List Bool) (cs : List Char) : Prop where
  balanced : Balanced cs
  words : ∃ rest, words cs = selectWord :: rest ∧ ∀ more, unionMembers (rest ++ more) =
    between.map (·, selectWord) ++ unionMembers more

theorem IsSelect.readsFlat {sql : String} (h : IsSelect sql) : ReadsFlat [] sql.toList := by
  obtain ⟨rest, hwords, hnone⟩ := h.words
  exact ⟨h.balanced, rest, hwords, unionMembers_append hnone⟩

/-- Selects are read one after the other. -/
theorem foldl_selects (selects : Nat → Multiset R) (inside : List Char → RowReader R)
    (between : List Bool) (before : RowReader R) :
    (between.map (·, selectWord)).foldl
        (fun before next => before.join next.1 (readMember selects inside next.2)) before =
      UnionTree.rowsAfter selects before (UnionTree.chain between) := by
  induction between generalizing before with
  | nil => rfl
  | cons keepsAll between ih => exact ih _

theorem ReadsFlat.readFrom_eq {between : List Bool} {cs : List Char} (h : ReadsFlat between cs)
    (selects : Nat → Multiset R) (fuel : Nat) :
    readFrom selects (fuel + 1) cs = (UnionTree.node (UnionTree.chain between)).rows selects := by
  obtain ⟨rest, hwords, hmembers⟩ := h.words
  have hall := hmembers []
  rw [List.append_nil, show unionMembers [] = [] from rfl, List.append_nil] at hall
  rw [readFrom, hwords, readChain, hall]
  exact foldl_selects selects _ between _

/-- Members without parentheses, one after the other. -/
def joinedMembers (members : List (Bool × String)) : String :=
  String.join (members.map fun member => unionWord member.1 ++ member.2)

theorem joinedMembers_cons (member : Bool × String) (rest : List (Bool × String))
    (tail : List Char) : (joinedMembers (member :: rest)).toList ++ tail =
      (unionWord member.1).toList ++ (member.2.toList ++ ((joinedMembers rest).toList ++ tail)) := by
  unfold joinedMembers
  rw [List.map_cons, String.join_cons]
  simp only [String.toList_append, List.append_assoc]

/-- Members that are chains make one longer chain. -/
theorem flat_members {members : List (Bool × String)} {trees : List (Bool × UnionTree)}
    (h : List.Forall₂ (fun member tree => member.1 = tree.1 ∧
      ReadsFlat tree.2.flat member.2.toList) members trees) {tail : List Char}
    (htail : BeginsBlank tail) (hbalanced : Balanced tail) :
    BeginsBlank ((joinedMembers members).toList ++ tail) ∧
      Balanced ((joinedMembers members).toList ++ tail) ∧
      ∀ more, unionMembers (words ((joinedMembers members).toList ++ tail) ++ more) =
        (UnionTree.flatAll trees).map (·, selectWord) ++ unionMembers (words tail ++ more) := by
  induction h with
  | nil => exact ⟨htail, hbalanced, fun _ => rfl⟩
  | @cons member tree members trees first _ ih =>
    obtain ⟨keepsAll, sql⟩ := member
    obtain ⟨_, tree⟩ := tree
    obtain ⟨rfl, hfirst⟩ := first
    obtain ⟨hbegins, hrest, hmembers⟩ := ih
    obtain ⟨rest, hwords, hmember⟩ := hfirst.words
    have hword : Balanced (unionWord keepsAll).toList := by cases keepsAll <;> decide
    rw [joinedMembers_cons]
    refine ⟨beginsBlank_unionWord _ _, hword.append (hfirst.balanced.append hrest), fun more => ?_⟩
    rw [words_unionWord, words_append hfirst.balanced hbegins, hwords]
    simp only [List.append_assoc, List.cons_append]
    rw [unionMembers_member _ (by decide) (by decide), hmember, hmembers]
    simp [UnionTree.flatAll]

/-! ## Trees with parentheses -/

/-- A text is read as a tree. -/
structure ReadsTree (tree : UnionTree) (cs : List Char) : Prop where
  balanced : Balanced cs
  rows : ∀ {R : Type} [DecidableEq R] (selects : Nat → Multiset R) (fuel : Nat),
    cs.length < fuel → readFrom selects fuel cs = tree.rows selects

theorem IsSelect.readsTree {sql : String} (h : IsSelect sql) : ReadsTree .leaf sql.toList := by
  refine ⟨h.balanced, fun selects fuel hfuel => ?_⟩
  obtain ⟨fuel, rfl⟩ := Nat.exists_eq_succ_of_ne_zero (Nat.ne_of_gt (Nat.zero_lt_of_lt hfuel))
  exact h.readsFlat.readFrom_eq selects fuel

theorem memberTexts_append (member : Bool × String) (rest : List (Bool × String))
    (tail : List Char) : (memberTexts (member :: rest)).toList ++ tail =
      (unionWord member.1).toList ++
        ('(' :: member.2.toList ++ ')' :: ((memberTexts rest).toList ++ tail)) := by
  rw [memberTexts_cons, memberText]
  simp

theorem length_memberTexts {members : List (Bool × String)} {member : Bool × String}
    (h : member ∈ members) : member.2.toList.length < (memberTexts members).toList.length := by
  induction members with
  | nil => exact nomatch h
  | cons first rest ih =>
    have hlength := congrArg List.length (memberTexts_append first rest [])
    simp only [List.append_nil, List.length_append, List.length_cons] at hlength
    rcases List.mem_cons.1 h with rfl | h
    · omega
    · have := ih h
      omega

/-- Members in parentheses are single words. -/
theorem tree_members {members : List (Bool × String)}
    (h : ∀ member ∈ members, Balanced member.2.toList) {tail : List Char}
    (htail : BeginsBlank tail) (hbalanced : Balanced tail) (hnone : "union".toList ∉ words tail) :
    BeginsBlank ((memberTexts members).toList ++ tail) ∧
      Balanced ((memberTexts members).toList ++ tail) ∧
      unionMembers (words ((memberTexts members).toList ++ tail)) =
        members.map fun member => (member.1, '(' :: member.2.toList ++ [')']) := by
  induction members with
  | nil =>
    have hmembers := unionMembers_append hnone []
    rw [List.append_nil] at hmembers
    exact ⟨htail, hbalanced, hmembers⟩
  | cons member members ih =>
    obtain ⟨hfirst, hrest⟩ := List.forall_mem_cons.1 h
    obtain ⟨hbegins, hafter, hmembers⟩ := ih hrest
    have hword : Balanced (unionWord member.1).toList := by cases member.1 <;> decide
    have henclosed := hfirst.enclosed.append hafter
    rw [List.append_assoc, List.singleton_append] at henclosed
    rw [memberTexts_append]
    refine ⟨beginsBlank_unionWord _ _, hword.append henclosed, ?_⟩
    rw [words_unionWord, words_enclosed hfirst hbegins, unionMembers_member _ (by simp) (by simp),
      hmembers]
    rfl

/-- The members are read as trees, from left to right. -/
theorem foldl_trees (selects : Nat → Multiset R) {fuel : Nat} {members : List (Bool × String)}
    {trees : List (Bool × UnionTree)}
    (h : List.Forall₂ (fun member tree => member.1 = tree.1 ∧ ReadsTree tree.2 member.2.toList)
      members trees) (hfuel : ∀ member ∈ members, member.2.toList.length < fuel)
    (before : RowReader R) :
    (members.map fun member => (member.1, '(' :: member.2.toList ++ [')'])).foldl
        (fun before next => before.join next.1 (readMember selects (readFrom selects fuel) next.2))
        before = UnionTree.rowsAfter selects before trees := by
  induction h generalizing before with
  | nil => rfl
  | @cons member tree members trees first _ ih =>
    obtain ⟨hmember, hrest⟩ := List.forall_mem_cons.1 hfuel
    have hinside : readMember selects (readFrom selects fuel) ('(' :: member.2.toList ++ [')']) =
        tree.2.rows selects := by
      rw [List.cons_append, readMember, List.dropLast_concat]
      exact first.2.rows selects fuel hmember
    rw [List.map_cons, List.foldl_cons, hinside, ih hrest, first.1]
    rfl

/-- The parts of a union, whose members are trees, are read as a tree. -/
theorem readsTree_text {parts : UnionParts} {trees : List (Bool × UnionTree)}
    (hfirst : IsSelect parts.first)
    (hmembers : List.Forall₂ (fun member tree => member.1 = tree.1 ∧
      ReadsTree tree.2 member.2.toList) parts.members trees)
    (htail : IsClause parts.tail) (hbegins : BeginsBlank parts.tail.toList) :
    ReadsTree (.node trees) parts.text.toList := by
  have hbalanced : ∀ member ∈ parts.members, Balanced member.2.toList :=
    fun member hmember => by
      obtain ⟨_, _, htree⟩ := exists_of_forall₂ hmembers hmember
      exact htree.2.balanced
  obtain ⟨hafter, hrest, hwords⟩ := tree_members hbalanced hbegins htail.balanced htail.words
  rw [UnionParts.toList_text]
  refine ⟨?_, fun selects fuel hfuel => ?_⟩
  · have hall := hfirst.balanced.enclosed.append hrest
    rwa [List.append_assoc] at hall
  · obtain ⟨fuel, rfl⟩ := Nat.exists_eq_succ_of_ne_zero (Nat.ne_of_gt (Nat.zero_lt_of_lt hfuel))
    have hlength : parts.first.toList.length + (memberTexts parts.members).toList.length < fuel := by
      simp only [List.length_append, List.length_cons] at hfuel
      omega
    have hself : readMember selects (readFrom selects fuel) ('(' :: parts.first.toList ++ [')']) =
        .select selects := by
      rw [List.cons_append, readMember, List.dropLast_concat]
      exact hfirst.readsTree.rows selects fuel (by omega)
    rw [readFrom, words_enclosed hfirst.balanced hafter, readChain, hwords, hself,
      foldl_trees selects hmembers fun member hmember =>
        (length_memberTexts hmember).trans (by omega)]
    rfl

end FluentSql
