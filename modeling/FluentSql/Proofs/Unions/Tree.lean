import Mathlib.Algebra.BigOperators.Group.Multiset.Basic
import Mathlib.Data.Multiset.Dedup

/-!
# Trees of unions

A query that is united with others, which may be united with others again, is a
tree.  Every node selects rows of its own; which rows, is left open.

* `UnionTree` is the tree, and `UnionTree.rows` are the rows that it means: each
  member is one unit, `union all` puts the rows together, and `union` removes
  duplicates.
* `UnionTree.flat` is the chain that is left of a tree without its parentheses,
  and `UnionTree.flattened` the tree that has this chain as its members.
* `rows_le_selected`, `dedup_rows` and `rows_of_keepsAll` say which rows may be
  in a tree, which have to be, and which are if duplicates are kept.
* `rows_flattened_iff` says when the parentheses make no difference.
-/

namespace FluentSql

/-- The unions of a query: its members, each with whether duplicates are kept. -/
inductive UnionTree where
  /-- A query with the members of its union. -/
  | node (members : List (Bool × UnionTree))

variable {R : Type} [DecidableEq R]

/-! ## Rows -/

/-- What reads the rows of consecutive selects, given the number of the first, and tells the number of
the next. -/
abbrev RowReader (R : Type) := Nat → Multiset R × Nat

/-- The rows of one select. -/
def RowReader.select (selects : Nat → Multiset R) : RowReader R := fun start =>
  (selects start, start + 1)

/-- The rows of a union. -/
def unite (keepsAll : Bool) (a b : Multiset R) : Multiset R :=
  if keepsAll then a + b else (a + b).dedup

/-- The union of what two read one after the other. -/
def RowReader.join (keepsAll : Bool) (x y : RowReader R) : RowReader R := fun start =>
  (unite keepsAll (x start).1 (y (x start).2).1, (y (x start).2).2)

namespace UnionTree

mutual

/-- The rows of a tree, of which every member is one unit. -/
def rows (selects : Nat → Multiset R) : UnionTree → RowReader R
  | node members => rowsAfter selects (.select selects) members

/-- The rows that are left after the members of a union, from left to right. -/
def rowsAfter (selects : Nat → Multiset R) (before : RowReader R) :
    List (Bool × UnionTree) → RowReader R
  | [] => before
  | (keepsAll, member) :: rest =>
    rowsAfter selects (before.join keepsAll (member.rows selects)) rest

end

mutual

/-- The number of selects. -/
def size : UnionTree → Nat
  | node members => 1 + sizeAll members

/-- The number of selects in the members of a union. -/
def sizeAll : List (Bool × UnionTree) → Nat
  | [] => 0
  | (_, member) :: rest => member.size + sizeAll rest

end

mutual

/-- The words between the selects: whether each keeps duplicates. -/
def flat : UnionTree → List Bool
  | node members => flatAll members

/-- The words before the selects in the members of a union. -/
def flatAll : List (Bool × UnionTree) → List Bool
  | [] => []
  | (keepsAll, member) :: rest => keepsAll :: member.flat ++ flatAll rest

end

/-- A query that is united with nothing. -/
def leaf : UnionTree := node []

/-- A chain of selects. -/
def chain (words : List Bool) : List (Bool × UnionTree) :=
  words.map fun keepsAll => (keepsAll, leaf)

/-- The tree without its parentheses. -/
def flattened (tree : UnionTree) : UnionTree :=
  node (chain tree.flat)

/-! ## Members one after the other -/

section

variable (selects : Nat → Multiset R)

theorem rowsAfter_append (before : RowReader R) (a b : List (Bool × UnionTree)) :
    rowsAfter selects before (a ++ b) = rowsAfter selects (rowsAfter selects before a) b := by
  induction a generalizing before with
  | nil => rfl
  | cons member a ih => exact ih _

end

theorem flatAll_append (a b : List (Bool × UnionTree)) : flatAll (a ++ b) = flatAll a ++ flatAll b := by
  induction a with
  | nil => rfl
  | cons member a ih =>
    show member.1 :: member.2.flat ++ flatAll (a ++ b) =
      (member.1 :: member.2.flat ++ flatAll a) ++ flatAll b
    rw [ih, List.append_assoc]

theorem chain_append (a b : List Bool) : chain (a ++ b) = chain a ++ chain b :=
  List.map_append

theorem size_pos (tree : UnionTree) : 0 < tree.size := by
  cases tree with
  | node members =>
    show 0 < 1 + sizeAll members
    exact Nat.lt_add_right _ Nat.one_pos

mutual

theorem length_flat (tree : UnionTree) : tree.flat.length + 1 = tree.size := by
  cases tree with
  | node members =>
    show (flatAll members).length + 1 = 1 + sizeAll members
    rw [length_flatAll, Nat.add_comm]

theorem length_flatAll (members : List (Bool × UnionTree)) :
    (flatAll members).length = sizeAll members := by
  match members with
  | [] => rfl
  | (keepsAll, member) :: rest =>
    show (keepsAll :: member.flat ++ flatAll rest).length = member.size + sizeAll rest
    rw [List.length_append, length_flatAll rest, List.length_cons, length_flat member]

end

theorem sizeAll_chain (words : List Bool) : sizeAll (chain words) = words.length := by
  induction words with
  | nil => rfl
  | cons keepsAll words ih =>
    show 1 + sizeAll (chain words) = words.length + 1
    rw [ih, Nat.add_comm]

theorem flatAll_chain (words : List Bool) : flatAll (chain words) = words := by
  induction words with
  | nil => rfl
  | cons keepsAll words ih =>
    show keepsAll :: flatAll (chain words) = keepsAll :: words
    rw [ih]

/-! ## Selected rows -/

/-- The rows of some consecutive selects, with all duplicates. -/
def selected (selects : Nat → Multiset R) (start : Nat) : (count : Nat) → Multiset R
  | 0 => 0
  | count + 1 => selects start + selected selects (start + 1) count

section

variable {selects : Nat → Multiset R}

omit [DecidableEq R] in
theorem selected_add (start a b : Nat) : selected selects start (a + b) =
    selected selects start a + selected selects (start + a) b := by
  induction a generalizing start with
  | zero => rw [Nat.zero_add, selected, zero_add, Nat.add_zero]
  | succ a ih =>
    rw [Nat.succ_add, selected, selected, ih, Nat.add_assoc start 1 a, Nat.add_comm 1 a, add_assoc]

omit [DecidableEq R] in
theorem selected_one (start : Nat) : selected selects start 1 = selects start := by
  rw [selected, selected, add_zero]

omit [DecidableEq R] in
theorem selected_eq_zero {start count : Nat}
    (h : ∀ i, start ≤ i → i < start + count → selects i = 0) : selected selects start count = 0 := by
  induction count generalizing start with
  | zero => rfl
  | succ count ih =>
    rw [selected, h start (Nat.le_refl _) (by omega), zero_add]
    exact ih fun i hi hlt => h i (by omega) (by omega)

theorem unite_le (keepsAll : Bool) (a b : Multiset R) : unite keepsAll a b ≤ a + b := by
  cases keepsAll with
  | true => exact le_refl _
  | false => exact Multiset.dedup_le _

theorem dedup_unite (keepsAll : Bool) (a b : Multiset R) :
    (unite keepsAll a b).dedup = (a + b).dedup := by
  cases keepsAll with
  | true => rfl
  | false => exact Multiset.dedup_idem

/-- Two unions have the same rows but for duplicates if their parts have. -/
theorem dedup_add_congr {a b c d : Multiset R} (h : a.dedup = b.dedup)
    (h' : c.dedup = d.dedup) : (a + c).dedup = (b + d).dedup := by
  rw [Multiset.dedup_ext] at h h' ⊢
  intro r
  rw [Multiset.mem_add, Multiset.mem_add, h r, h' r]

/-! ## The rows of a tree -/

mutual

/-- Reading a tree leads past its selects. -/
theorem next_rows (tree : UnionTree) (start : Nat) :
    (tree.rows selects start).2 = start + tree.size := by
  cases tree with
  | node members =>
    show (rowsAfter selects (.select selects) members start).2 = start + (1 + sizeAll members)
    rw [next_rowsAfter, ← Nat.add_assoc]
    rfl

theorem next_rowsAfter (before : RowReader R) (members : List (Bool × UnionTree)) (start : Nat) :
    (rowsAfter selects before members start).2 = (before start).2 + sizeAll members := by
  match members with
  | [] => rfl
  | (keepsAll, member) :: rest =>
    show (rowsAfter selects (before.join keepsAll (member.rows selects)) rest start).2 =
      (before start).2 + (member.size + sizeAll rest)
    rw [next_rowsAfter _ rest, ← Nat.add_assoc, ← next_rows member]
    rfl

end

/-- What follows a reader is the rows that it read, and the selects after them. -/
theorem rowsAfter_cons (before : RowReader R) (keepsAll : Bool) (member : UnionTree)
    (rest : List (Bool × UnionTree)) : rowsAfter selects before ((keepsAll, member) :: rest) =
      rowsAfter selects (before.join keepsAll (member.rows selects)) rest := rfl

mutual

/-- No row is in a tree that no select has, and none more often. -/
theorem rows_le_selected (tree : UnionTree) (start : Nat) :
    (tree.rows selects start).1 ≤ selected selects start tree.size := by
  cases tree with
  | node members =>
    show (rowsAfter selects (.select selects) members start).1 ≤
      selected selects start (1 + sizeAll members)
    rw [selected_add, selected_one]
    exact rowsAfter_le_selected (.select selects) members start

theorem rowsAfter_le_selected (before : RowReader R) (members : List (Bool × UnionTree))
    (start : Nat) : (rowsAfter selects before members start).1 ≤
      (before start).1 + selected selects (before start).2 (sizeAll members) := by
  match members with
  | [] => exact le_of_eq (add_zero _).symm
  | (keepsAll, member) :: rest =>
    refine (rowsAfter_le_selected _ rest start).trans ?_
    have hmember := rows_le_selected member (before start).2
    show unite keepsAll _ _ + selected selects (member.rows selects (before start).2).2 _ ≤
      (before start).1 + selected selects _ (member.size + sizeAll rest)
    rw [next_rows, selected_add, ← add_assoc]
    exact add_le_add_left ((unite_le _ _ _).trans (add_le_add_right hmember _)) _

end

mutual

/-- Every row of a select is in the tree. -/
theorem dedup_rows (tree : UnionTree) (start : Nat) :
    (tree.rows selects start).1.dedup = (selected selects start tree.size).dedup := by
  cases tree with
  | node members =>
    show (rowsAfter selects (.select selects) members start).1.dedup =
      (selected selects start (1 + sizeAll members)).dedup
    rw [selected_add, selected_one, dedup_rowsAfter]
    rfl

theorem dedup_rowsAfter (before : RowReader R) (members : List (Bool × UnionTree)) (start : Nat) :
    (rowsAfter selects before members start).1.dedup =
      ((before start).1 + selected selects (before start).2 (sizeAll members)).dedup := by
  match members with
  | [] => exact congrArg _ (add_zero _).symm
  | (keepsAll, member) :: rest =>
    rw [rowsAfter_cons, dedup_rowsAfter _ rest]
    show (unite keepsAll _ _ + selected selects (member.rows selects (before start).2).2 _).dedup =
      ((before start).1 + selected selects _ (member.size + sizeAll rest)).dedup
    rw [next_rows, selected_add, ← add_assoc]
    refine dedup_add_congr ?_ rfl
    rw [dedup_unite]
    exact dedup_add_congr rfl (dedup_rows member _)

end

mutual

/-- If duplicates are kept everywhere, then all of them are in the tree. -/
theorem rows_of_keepsAll (tree : UnionTree) (h : false ∉ tree.flat) (start : Nat) :
    (tree.rows selects start).1 = selected selects start tree.size := by
  cases tree with
  | node members =>
    show (rowsAfter selects (.select selects) members start).1 =
      selected selects start (1 + sizeAll members)
    rw [selected_add, selected_one, rowsAfter_of_keepsAll _ members h]
    rfl

theorem rowsAfter_of_keepsAll (before : RowReader R) (members : List (Bool × UnionTree))
    (h : false ∉ flatAll members) (start : Nat) : (rowsAfter selects before members start).1 =
      (before start).1 + selected selects (before start).2 (sizeAll members) := by
  match members with
  | [] => exact (add_zero _).symm
  | (keepsAll, member) :: rest =>
    have hword : false ∉ keepsAll :: member.flat ++ flatAll rest := h
    rw [List.mem_append, List.mem_cons] at hword
    have hkeeps : keepsAll = true := by
      cases keepsAll with
      | true => rfl
      | false => exact absurd (.inl (.inl rfl)) hword
    rw [rowsAfter_cons, rowsAfter_of_keepsAll _ rest fun hrest => hword (.inr hrest)]
    show unite keepsAll _ _ + selected selects (member.rows selects (before start).2).2 _ =
      (before start).1 + selected selects _ (member.size + sizeAll rest)
    rw [next_rows, selected_add, ← add_assoc, hkeeps,
      rows_of_keepsAll member fun hmember => hword (.inl (.inr hmember))]
    rfl

end

/-- A `union` removes the duplicates of all that stands before it. -/
theorem rowsAfter_union (before : RowReader R) (members : List (Bool × UnionTree))
    (member : UnionTree) (start : Nat) :
    (rowsAfter selects before (members ++ [(false, member)]) start).1 =
      ((before start).1 +
        selected selects (before start).2 (sizeAll (members ++ [(false, member)]))).dedup := by
  rw [← dedup_rowsAfter, rowsAfter_append]
  exact Multiset.dedup_idem.symm

/-! ## Trees without parentheses -/

/-- The words between the selects of a member, with the one before it. -/
def flatOf (member : Bool × UnionTree) : List Bool :=
  member.1 :: member.2.flat

omit [DecidableEq R] in
theorem flatAll_concat (members : List (Bool × UnionTree)) (member : Bool × UnionTree) :
    flatAll (members ++ [member]) = flatAll members ++ flatOf member := by
  rw [flatAll_append]
  exact congrArg _ (List.append_nil _)

theorem sizeAll_chain_flatAll (members : List (Bool × UnionTree)) :
    sizeAll (chain (flatAll members)) = sizeAll members := by
  rw [sizeAll_chain, length_flatAll]

/-- Without parentheses, a last `union` removes the duplicates of the whole chain. -/
theorem rowsAfter_chain_union (before : RowReader R) {words : List Bool}
    (hlast : words.getLast? = some false) (start : Nat) :
    (rowsAfter selects before (chain words) start).1 =
      ((before start).1 + selected selects (before start).2 words.length).dedup := by
  obtain ⟨front, rfl⟩ := List.getLast?_eq_some_iff.1 hlast
  rw [← sizeAll_chain, chain_append]
  exact rowsAfter_union before (chain front) leaf start

/-- The parentheses of a tree make no difference: from some member on duplicates are kept
everywhere, and before it stands a `union` member whose last select is joined by `union` too. -/
def Flattens (tree : UnionTree) : Prop :=
  ∃ before after, tree = node (before ++ after) ∧ false ∉ flatAll after ∧
    (before = [] ∨ ∃ members member, before = members ++ [(false, member)] ∧
      (flatOf (false, member)).getLast? = some false)

/-- If the parentheses make no difference, then the chain has the rows of the tree. -/
theorem Flattens.rows_flattened {tree : UnionTree} (h : tree.Flattens) :
    tree.flattened.rows selects = tree.rows selects := by
  obtain ⟨before, after, rfl, hafter, hbefore⟩ := h
  have hbefores : ∀ start, (rowsAfter selects (.select selects) (chain (flatAll before)) start).1 =
      (rowsAfter selects (.select selects) before start).1 := by
    intro start
    rcases hbefore with rfl | ⟨members, member, rfl, hlast⟩
    · rfl
    · have hwords : (flatAll (members ++ [(false, member)])).getLast? = some false := by
        rw [flatAll_concat, List.getLast?_append, hlast]
        rfl
      rw [rowsAfter_union, rowsAfter_chain_union _ hwords, length_flatAll]
  funext start
  refine Prod.ext ?_ ?_
  · show (rowsAfter selects _ (chain (flatAll (before ++ after))) start).1 =
      (rowsAfter selects _ (before ++ after) start).1
    rw [flatAll_append, chain_append, rowsAfter_append, rowsAfter_append,
      rowsAfter_of_keepsAll _ after hafter,
      rowsAfter_of_keepsAll _ (chain (flatAll after)) (by rwa [flatAll_chain]), hbefores,
      next_rowsAfter, next_rowsAfter, sizeAll_chain_flatAll, sizeAll_chain_flatAll]
  · show (rowsAfter selects _ (chain (flatAll (before ++ after))) start).2 =
      (rowsAfter selects _ (before ++ after) start).2
    rw [next_rowsAfter, next_rowsAfter, sizeAll_chain_flatAll]

/-! ## Trees that need their parentheses -/

/-- One row in the first select and in another one, and none in the others. -/
def marked (j : Nat) : Nat → Multiset Unit := fun i =>
  if i = 0 ∨ i = j then {()} else 0

theorem selected_marked_before {j : Nat} (hj : 0 < j) :
    marked j 0 + selected (marked j) 1 (j - 1) = {()} := by
  have hrest : selected (marked j) 1 (j - 1) = 0 :=
    selected_eq_zero fun i hi hlt => if_neg (by omega)
  rw [hrest, add_zero]
  exact if_pos (.inl rfl)

theorem selected_marked_after {j start : Nat} (hj : j < start) (count : Nat) :
    selected (marked j) start count = 0 :=
  selected_eq_zero fun i hi _ => if_neg (by omega)

theorem selected_marked {j : Nat} {count : Nat} (hcount : 0 < count) :
    selected (marked j) j count = {()} := by
  obtain ⟨rest, rfl⟩ := Nat.exists_eq_add_of_lt hcount
  rw [Nat.zero_add, selected, selected_marked_after (Nat.lt_succ_self j), add_zero]
  exact if_pos (.inr rfl)

theorem dedup_le_singleton (rows : Multiset Unit) : rows.dedup ≤ {()} :=
  (Multiset.le_iff_subset (Multiset.nodup_dedup rows)).2 fun _ _ => Multiset.mem_singleton.2 rfl

theorem eq_singleton {rows : Multiset Unit} (hle : rows ≤ {()})
    (hdedup : rows.dedup = ({()} : Multiset Unit).dedup) : rows = {()} := by
  rcases Multiset.le_singleton.1 hle with rfl | rfl
  · exact absurd hdedup (by decide)
  · rfl

/-- A member that keeps duplicates, with the row in its first select, adds the row once more. -/
theorem rowsAfter_marked (front : List (Bool × UnionTree)) (member : UnionTree)
    {after : List (Bool × UnionTree)} (hafter : false ∉ flatAll after) :
    (rowsAfter (marked (1 + sizeAll front)) (.select (marked (1 + sizeAll front)))
      (front ++ (true, member) :: after) 0).1 = {()} + {()} := by
  generalize hj : 1 + sizeAll front = j
  have hbefore : marked j 0 + selected (marked j) 1 (sizeAll front) = {()} := by
    have hmarked := selected_marked_before (j := j) (by omega)
    rwa [show j - 1 = sizeAll front by omega] at hmarked
  have hfront : (rowsAfter (marked j) (.select (marked j)) front 0).1 = {()} :=
    eq_singleton (hbefore ▸ rowsAfter_le_selected (.select (marked j)) front 0)
      (hbefore ▸ dedup_rowsAfter (.select (marked j)) front 0)
  have hmember : (member.rows (marked j) j).1 = {()} := by
    have hsize := selected_marked (j := j) (size_pos member)
    exact eq_singleton (hsize ▸ rows_le_selected member j) (hsize ▸ dedup_rows member j)
  have hnext : (rowsAfter (marked j) (.select (marked j)) front 0).2 = j := by
    rw [next_rowsAfter]
    exact hj
  rw [rowsAfter_append, rowsAfter_cons, rowsAfter_of_keepsAll _ after hafter]
  show (unite true _ _ + selected (marked j) (member.rows (marked j) _).2 _) = _
  rw [hnext, hfront, hmember, next_rows, selected_marked_after (by have := size_pos member; omega),
    add_zero]
  rfl

/-- A member that removes duplicates leaves the row at most once, and so do those after it. -/
theorem rowsAfter_marked_le {j : Nat} {before : List (Bool × UnionTree)}
    (hbefore : ∃ front member, before = front ++ [(false, member)]) (hj : j < 1 + sizeAll before)
    (after : List (Bool × UnionTree)) :
    (rowsAfter (marked j) (.select (marked j)) (before ++ after) 0).1 ≤ {()} := by
  obtain ⟨front, member, rfl⟩ := hbefore
  rw [rowsAfter_append]
  refine (rowsAfter_le_selected _ after 0).trans ?_
  have hrest : selected (marked j) (0 + 1 + sizeAll (front ++ [(false, member)])) (sizeAll after) =
      0 := selected_marked_after (by omega) _
  rw [next_rowsAfter]
  show _ + selected (marked j) (0 + 1 + _) _ ≤ _
  rw [hrest, add_zero, rowsAfter_union]
  exact dedup_le_singleton _

/-- Members of which only the last may remove duplicates are the last ones. -/
theorem members_cases (members : List (Bool × UnionTree)) :
    ∃ before after, members = before ++ after ∧ false ∉ flatAll after ∧
      (before = [] ∨ ∃ front member, before = front ++ [member] ∧ false ∈ flatOf member) := by
  induction members using List.reverseRecOn with
  | nil => exact ⟨[], [], rfl, List.not_mem_nil, .inl rfl⟩
  | append_singleton members member ih =>
    by_cases hmember : false ∈ flatOf member
    · exact ⟨members ++ [member], [], (List.append_nil _).symm, List.not_mem_nil,
        .inr ⟨members, member, rfl, hmember⟩⟩
    · obtain ⟨before, after, rfl, hafter, hbefore⟩ := ih
      refine ⟨before, after ++ [member], (List.append_assoc _ _ _), ?_, hbefore⟩
      rw [flatAll_concat, List.mem_append]
      exact not_or.2 ⟨hafter, hmember⟩

/-- Trees whose parentheses make a difference differ from their chains for some rows. -/
theorem flattens_of_rows {tree : UnionTree}
    (h : ∀ j, (tree.flattened.rows (marked j) 0).1 = (tree.rows (marked j) 0).1) :
    tree.Flattens := by
  obtain ⟨members⟩ := tree
  obtain ⟨before, after, rfl, hafter, hbefore⟩ := members_cases members
  refine ⟨before, after, rfl, hafter, ?_⟩
  have hsame : ∀ j, (rowsAfter (marked j) (.select (marked j)) (chain (flatAll (before ++ after))) 0).1 =
      (rowsAfter (marked j) (.select (marked j)) (before ++ after) 0).1 := h
  have htwice : ¬({()} + {()} : Multiset Unit) ≤ {()} := by decide
  rcases hbefore with rfl | ⟨front, ⟨keepsAll, member⟩, rfl, hmember⟩
  · exact .inl rfl
  · refine .inr ⟨front, member, ?_⟩
    rw [flatAll_append, flatAll_concat] at hsame
    cases keepsAll with
    | true =>
      -- The tree keeps the row of the member, and the chain removes it.
      have hfalse : false ∈ member.flat := (List.mem_cons.1 hmember).resolve_left nofun
      obtain ⟨p, q, hflat⟩ := List.append_of_mem hfalse
      have hwords : flatAll front ++ flatOf (true, member) ++ flatAll after =
          (flatAll front ++ true :: p ++ [false]) ++ (q ++ flatAll after) := by
        rw [flatOf, hflat]
        simp
      have htree := rowsAfter_marked front member hafter
      have hsize : sizeAll front < sizeAll (chain (flatAll front ++ true :: p ++ [false])) := by
        rw [sizeAll_chain, ← length_flatAll]
        simp only [List.length_append, List.length_cons]
        omega
      have hless := rowsAfter_marked_le (j := 1 + sizeAll front)
        ⟨chain (flatAll front ++ true :: p), leaf, chain_append _ _⟩ (Nat.add_lt_add_left hsize 1)
        (chain (q ++ flatAll after))
      rw [← chain_append, ← hwords, hsame, List.append_assoc, List.singleton_append, htree] at hless
      exact absurd hless htwice
    | false =>
      refine ⟨rfl, ?_⟩
      -- The chain keeps the row of the last select, and the tree removes it.
      obtain ⟨words, last, hflat⟩ : ∃ words last, flatOf (false, member) = words ++ [last] :=
        ⟨_, _, (List.dropLast_append_getLast (List.cons_ne_nil false member.flat)).symm⟩
      rw [hflat, List.getLast?_concat]
      cases last with
      | false => rfl
      | true =>
        have hsize : sizeAll (chain (flatAll front ++ words)) < sizeAll (front ++ [(false, member)]) := by
          rw [sizeAll_chain, ← length_flatAll, flatAll_concat, hflat]
          simp
        have hwords : flatAll front ++ flatOf (false, member) ++ flatAll after =
            (flatAll front ++ words) ++ true :: flatAll after := by
          rw [hflat]
          simp
        have hchain := rowsAfter_marked (chain (flatAll front ++ words)) leaf
          (show false ∉ flatAll (chain (flatAll after)) by rwa [flatAll_chain])
        have hsplit : chain (flatAll front ++ words ++ true :: flatAll after) =
            chain (flatAll front ++ words) ++ (true, leaf) :: chain (flatAll after) :=
          chain_append _ _
        have hless := rowsAfter_marked_le (j := 1 + sizeAll (chain (flatAll front ++ words)))
          ⟨front, member, rfl⟩ (Nat.add_lt_add_left hsize 1) after
        rw [← hsame, hwords, hsplit, hchain] at hless
        exact absurd hless htwice

/-- The chain of a tree has the same rows as the tree, whatever the selects have, just if the
parentheses make no difference. -/
theorem rows_flattened_iff (tree : UnionTree) :
    (∀ (R : Type) [DecidableEq R] (selects : Nat → Multiset R),
      (tree.flattened.rows selects 0).1 = (tree.rows selects 0).1) ↔ tree.Flattens :=
  ⟨fun h => flattens_of_rows fun j => h Unit (marked j),
    fun h _ _ _ => by rw [h.rows_flattened]⟩

end

end UnionTree

end FluentSql
