import FluentSql.Proofs.Balancing
import FluentSql.Proofs.Building.Data
import FluentSql.Proofs.Keywords

/-!
# Unions in parentheses

MySQL puts the query itself and every member of its union in parentheses, and
orders and pages the union after them.

* `UnionParts` are the texts of the query itself, of the members with their
  kinds, and of what follows; `UnionParts.text` puts them together.
* `Grammar.selectSql_eq_unionParts` says that a union is compiled to its
  parts, and fails if one of them does.
* `UnionParts.text_injective` says that balanced parts can be told from the
  text.
* `Store.compiled_union` is the result.
-/

namespace FluentSql

open Name

/-! ## The parts of a union -/

/-- The query without its union, and without the ordering and paging of that. -/
def Query.withoutUnions (q : Query) : Query :=
  { q with unions := [], unionOrders := [], unionLimit := none, unionOffset := none }

/-- The word before a member of a union. -/
def unionWord (keepsAll : Bool) : String :=
  if keepsAll then " union all " else " union "

/-- The texts that a union consists of. -/
structure UnionParts where
  /-- The query without its union. -/
  first : String
  /-- The members, each with whether duplicates are kept. -/
  members : List (Bool × String)
  /-- The ordering and the paging of the union. -/
  tail : String

/-- A member of a union in parentheses after its word. -/
def memberText (member : Bool × String) : String :=
  unionWord member.1 ++ "(" ++ member.2 ++ ")"

/-- The members of a union one after the other. -/
def memberTexts (members : List (Bool × String)) : String :=
  String.join (members.map memberText)

theorem memberTexts_cons (member : Bool × String) (rest : List (Bool × String)) :
    memberTexts (member :: rest) = memberText member ++ memberTexts rest :=
  String.join_cons

theorem unionWord_begins (all : Bool) : ∃ cs, (unionWord all).toList = " union ".toList ++ cs := by
  cases all with
  | true => exact ⟨"all ".toList, rfl⟩
  | false => exact ⟨[], rfl⟩

/-- The text of a union. -/
def UnionParts.text (parts : UnionParts) : String :=
  "(" ++ parts.first ++ ")" ++ memberTexts parts.members ++ parts.tail

/-- The texts of the members of a union, each with whether duplicates are kept. -/
def Attached.members (attached : Attached) (unions : List Union) :
    Except Failure (List (Bool × String)) :=
  unions.mapM fun union => do
    return (union.keepsAll.truthy, ← attached.selectOf union.member)

/-- The parts that a query is compiled to. -/
def Grammar.unionParts (g : Grammar) (attached : Attached) (q : Query) :
    Except Failure UnionParts := do
  let first ← g.selectSql attached q.withoutUnions
  let members ← attached.members q.unions
  let orders ← trailingOf q.unionOrders g.ordersSql
  let limit ← trailing q.unionLimit limitSql
  let offset ← trailing q.unionOffset offsetSql
  return ⟨first, members, orders ++ limit ++ offset⟩

/-! ## Compiling to parts -/

namespace Grammar

variable {g : Grammar} {attached : Attached} {q : Query}

/-- The components of the query itself do not show its union. -/
theorem components_withoutUnions (hd : g.dialect = .mysql) :
    g.components attached q.withoutUnions = g.components attached q := by
  have hunions : ∀ q, g.unionComponent attached q = .ok "" := fun q => if_pos hd
  rw [components_eq, components_eq, hunions, hunions]
  rfl

theorem selectSql_withoutUnions (hd : g.dialect = .mysql) (haggregate : q.aggregate = none) :
    g.selectSql attached q.withoutUnions =
      (g.components attached q).map fun components => Text.trim (spaced components) := by
  have hplain : g.selectSql attached q.withoutUnions = g.plainSelectSql attached q.withoutUnions := by
    unfold selectSql
    rw [show q.withoutUnions.aggregate = none from haggregate]
  have hno : ¬(g.dialect = .mysql ∧ q.withoutUnions.isUnion = true) := fun h => nomatch h.2
  unfold plainSelectSql at hplain
  rw [hplain, components_withoutUnions hd]
  cases g.components attached q with
  | error e => rfl
  | ok components => exact if_neg hno

/-- The members of a union, in parentheses or not. -/
theorem mapM_unionSql (wrap : String → String)
    (hwrap : ∀ select, (if g.dialect = .mysql then "(" ++ select ++ ")" else select) = wrap select)
    (unions : List Union) : unions.mapM (g.unionSql attached) =
      (attached.members unions).map (List.map fun member => unionWord member.1 ++ wrap member.2) := by
  unfold Attached.members
  induction unions with
  | nil => rfl
  | cons u unions ih =>
    have hmember : g.unionSql attached u = (attached.selectOf u.member).map fun select =>
        unionWord u.keepsAll.truthy ++ wrap select := by
      unfold unionSql
      cases attached.selectOf u.member with
      | error e => rfl
      | ok select => exact congrArg Except.ok (congrArg (unionWord u.keepsAll.truthy ++ ·) (hwrap select))
    rw [List.mapM_cons, List.mapM_cons, ih, hmember]
    cases attached.selectOf u.member with
    | error e => rfl
    | ok select =>
      generalize (unions.mapM _ : Except Failure (List (Bool × String))) = members
      cases members <;> rfl

/-- The members of a union in MySQL. -/
theorem mapM_unionSql_mysql (hd : g.dialect = .mysql) (unions : List Union) :
    unions.mapM (g.unionSql attached) = (attached.members unions).map (List.map memberText) := by
  rw [mapM_unionSql (fun select => "(" ++ select ++ ")") fun _ => if_pos hd]
  congr
  funext member
  rw [memberText, String.append_assoc, String.append_assoc, String.append_assoc]

theorem members_ne_nil {unions : List Union} (h : unions ≠ []) {members : List (Bool × String)}
    (hmembers : attached.members unions = .ok members) : members ≠ [] := by
  cases unions with
  | nil => exact absurd rfl h
  | cons u unions =>
    unfold Attached.members at hmembers
    rw [List.mapM_cons] at hmembers
    obtain ⟨first, _, hmembers⟩ := bind_eq_ok hmembers
    obtain ⟨rest, _, hmembers⟩ := bind_eq_ok hmembers
    cases hmembers
    exact List.cons_ne_nil first rest

/-- Before the first member there is one blank, which is left out and put back. -/
theorem trimLeft_members {members : List (Bool × String)} (h : members ≠ []) (tail : String) :
    " " ++ Text.trimLeft (memberTexts members ++ tail) = memberTexts members ++ tail := by
  obtain ⟨cs, hcs⟩ : ∃ cs, (memberTexts members ++ tail).toList = ' ' :: 'u' :: cs := by
    cases members with
    | nil => exact absurd rfl h
    | cons member rest =>
      obtain ⟨cs, hcs⟩ := unionWord_begins member.1
      rw [memberTexts_cons, memberText]
      simp only [String.toList_append, hcs, List.append_assoc]
      exact ⟨_, rfl⟩
  apply String.toList_injective
  rw [Text.trimLeft, String.toList_append, String.toList_ofList, hcs]
  have hblank : Text.isBlank ' ' = true ∧ Text.isBlank 'u' = false := by decide
  unfold Text.dropBlanks
  rw [List.dropWhile_cons_of_pos hblank.1, List.dropWhile_cons_of_neg (by rw [hblank.2]; rintro ⟨⟩),
    String.toList_ofList]
  rfl

/-- The members with what follows them, after a space. -/
theorem unionsSql_eq (hd : g.dialect = .mysql) (hunions : q.unions ≠ []) :
    (g.unionsSql attached q).map (" " ++ ·) = (do
      let members ← attached.members q.unions
      let orders ← trailingOf q.unionOrders g.ordersSql
      let limit ← trailing q.unionLimit limitSql
      let offset ← trailing q.unionOffset offsetSql
      return memberTexts members ++ (orders ++ limit ++ offset)) := by
  unfold unionsSql
  rw [mapM_unionSql_mysql hd]
  cases hmembers : attached.members q.unions with
  | error e => rfl
  | ok members =>
    cases trailingOf q.unionOrders g.ordersSql with
    | error e => rfl
    | ok orders =>
      cases trailing q.unionLimit limitSql with
      | error e => rfl
      | ok limit =>
        cases trailing q.unionOffset offsetSql with
        | error e => rfl
        | ok offset =>
          have htrim := trimLeft_members (members_ne_nil hunions hmembers)
            (orders ++ limit ++ offset)
          rw [← String.append_assoc, ← String.append_assoc] at htrim
          exact congrArg Except.ok (htrim.trans (by simp only [String.append_assoc]))

/-- A union is compiled to its parts, and not at all if one of them is not. -/
theorem selectSql_eq_unionParts (hd : g.dialect = .mysql) (hunions : q.unions ≠ [])
    (haggregate : q.aggregate = none) :
    g.selectSql attached q = (g.unionParts attached q).map UnionParts.text := by
  have hunion : g.dialect = .mysql ∧ q.isUnion = true := by
    refine ⟨hd, ?_⟩
    unfold Query.isUnion
    rw [List.isEmpty_eq_false_iff.2 hunions]
    rfl
  have hplain : g.selectSql attached q = (do
      let select := Text.trim (spaced (← g.components attached q))
      return "(" ++ select ++ ")" ++ (← (g.unionsSql attached q).map (" " ++ ·))) := by
    unfold selectSql
    rw [haggregate]
    unfold plainSelectSql
    cases g.components attached q with
    | error e => rfl
    | ok components =>
      show (if g.dialect = .mysql ∧ q.isUnion = true then _ else _) = _
      rw [if_pos hunion]
      cases g.unionsSql attached q with
      | error e => rfl
      | ok unions =>
        refine congrArg Except.ok ?_
        simp only [String.append_assoc]
        rfl
  rw [hplain, unionsSql_eq hd hunions]
  unfold unionParts
  rw [selectSql_withoutUnions hd haggregate]
  cases g.components attached q with
  | error e => rfl
  | ok components =>
    cases attached.members q.unions with
    | error e => rfl
    | ok members =>
      cases trailingOf q.unionOrders g.ordersSql with
      | error e => rfl
      | ok orders =>
        cases trailing q.unionLimit limitSql with
        | error e => rfl
        | ok limit =>
          cases trailing q.unionOffset offsetSql with
          | error e => rfl
          | ok offset => exact congrArg Except.ok String.append_assoc.symm

end Grammar

/-! ## Telling the parts from the text -/

/-- What stands before the first closing parenthesis that is not opened is told from what follows. -/
theorem Balanced.cut_unique {a b c d : List Char} (ha : Balanced a) (hb : Balanced b)
    (h : a ++ ')' :: c = b ++ ')' :: d) : a = b ∧ c = d := by
  have hends : ∀ {a b x : List Char}, Balanced a → Balanced b → b ≠ a ++ ')' :: x := by
    rintro a b x ha hb rfl
    have hlevel := hb.level
    rw [depthAfter_append, ha.level, ha.closed] at hlevel
    exact nomatch hlevel
  rcases List.append_eq_append_iff.1 h with ⟨x, hx, hcs⟩ | ⟨x, hx, hcs⟩
  · cases x with
    | nil =>
      rw [List.append_nil] at hx
      exact ⟨hx.symm, (List.cons.inj hcs).2⟩
    | cons e x =>
      obtain ⟨rfl, _⟩ := List.cons.inj hcs
      exact absurd hx (hends ha hb)
  · cases x with
    | nil =>
      rw [List.append_nil] at hx
      exact ⟨hx, (List.cons.inj hcs).2.symm⟩
    | cons e x =>
      obtain ⟨rfl, _⟩ := List.cons.inj hcs
      exact absurd hx (hends hb ha)

/-- The parts of a union are balanced, and what follows the members is no further one. -/
structure UnionParts.IsSplit (parts : UnionParts) : Prop where
  first : Balanced parts.first.toList
  members : ∀ member ∈ parts.members, Balanced member.2.toList
  tail : ∀ rest, parts.tail.toList ≠ " union ".toList ++ rest

/-- The members are told from the text and from what follows them, by induction on their number. -/
theorem memberTexts_injective {members members' : List (Bool × String)} {tail tail' : List Char}
    (h : ∀ member ∈ members, Balanced member.2.toList)
    (h' : ∀ member ∈ members', Balanced member.2.toList)
    (htail : ∀ rest, tail ≠ " union ".toList ++ rest)
    (htail' : ∀ rest, tail' ≠ " union ".toList ++ rest)
    (heq : (memberTexts members).toList ++ tail = (memberTexts members').toList ++ tail') :
    members = members' ∧ tail = tail' := by
  have hword : ∀ (member : Bool × String) (rest : List (Bool × String)) (tail : List Char),
      (memberTexts (member :: rest)).toList ++ tail = (unionWord member.1).toList ++
        '(' :: (member.2.toList ++ ')' :: ((memberTexts rest).toList ++ tail)) := by
    intro member rest tail
    rw [memberTexts_cons, memberText]
    simp
  induction members generalizing members' with
  | nil =>
    cases members' with
    | nil => exact ⟨rfl, heq⟩
    | cons member' rest' =>
      obtain ⟨cs, hcs⟩ := unionWord_begins member'.1
      rw [hword, hcs, List.append_assoc] at heq
      exact absurd heq (htail _)
  | cons member rest ih =>
    cases members' with
    | nil =>
      obtain ⟨cs, hcs⟩ := unionWord_begins member.1
      rw [hword, hcs, List.append_assoc] at heq
      exact absurd heq.symm (htail' _)
    | cons member' rest' =>
      obtain ⟨all, member⟩ := member
      obtain ⟨all', member'⟩ := member'
      rw [hword, hword] at heq
      have hsame : all = all' ∧ member.toList ++ ')' :: ((memberTexts rest).toList ++ tail) =
          member'.toList ++ ')' :: ((memberTexts rest').toList ++ tail') := by
        cases all <;> cases all'
        · exact ⟨rfl, by simpa [unionWord] using heq⟩
        · simp [unionWord] at heq
        · simp [unionWord] at heq
        · exact ⟨rfl, by simpa [unionWord] using heq⟩
      obtain ⟨rfl, hinside⟩ := hsame
      obtain ⟨hmember, hrest⟩ :=
        Balanced.cut_unique (h _ List.mem_cons_self) (h' _ List.mem_cons_self) hinside
      obtain ⟨rfl, rfl⟩ := ih (fun m hm => h m (List.mem_cons_of_mem _ hm))
        (fun m hm => h' m (List.mem_cons_of_mem _ hm)) hrest
      obtain rfl : member = member' := String.toList_injective hmember
      exact ⟨rfl, rfl⟩

theorem UnionParts.toList_text (parts : UnionParts) : parts.text.toList =
    '(' :: parts.first.toList ++ ')' :: ((memberTexts parts.members).toList ++
      parts.tail.toList) := by
  rw [text]
  simp

/-- Parts that are split have different texts if they differ. -/
theorem UnionParts.text_injective {parts parts' : UnionParts} (h : parts.IsSplit)
    (h' : parts'.IsSplit) (heq : parts.text = parts'.text) : parts = parts' := by
  have hlist := congrArg String.toList heq
  rw [toList_text, toList_text, List.cons_append, List.cons_append] at hlist
  obtain ⟨hfirst, hrest⟩ := h.first.cut_unique h'.first (List.cons.inj hlist).2
  obtain ⟨hmembers, htail⟩ := memberTexts_injective h.members h'.members h.tail h'.tail hrest
  obtain ⟨first, members, tail⟩ := parts
  obtain rfl : first = _ := String.toList_injective hfirst
  obtain rfl : members = _ := hmembers
  obtain rfl : tail = _ := String.toList_injective htail
  rfl

/-! ## What follows the members -/

/-- A text is empty, or a space and a word that is not the one before a member. -/
def Follows (cs : List Char) : Prop :=
  cs = [] ∨ ∃ c rest, cs = ' ' :: c :: rest ∧ c ≠ 'u'

theorem Follows.append {a b : List Char} (ha : Follows a) (hb : Follows b) : Follows (a ++ b) := by
  rcases ha with rfl | ⟨c, rest, rfl, hc⟩
  · exact hb
  · exact .inr ⟨c, rest ++ b, rfl, hc⟩

theorem Follows.ne_member {cs : List Char} (h : Follows cs) (rest : List Char) :
    cs ≠ " union ".toList ++ rest := by
  rintro rfl
  rcases h with h | ⟨c, rest', h, hc⟩
  · exact nomatch h
  · exact hc (List.cons.inj (List.cons.inj h).2).1.symm

/-- A clause that is written begins with another letter than a member. -/
def BeginsClause (sql : Except Failure String) : Prop :=
  ∀ t, sql = .ok t → ∃ c rest, t.toList = c :: rest ∧ c ≠ 'u'

theorem BeginsClause.follows {sql : Except Failure String} (h : BeginsClause sql) {t : String}
    (ht : sql.map (" " ++ ·) = .ok t) : Follows t.toList := by
  cases sql with
  | error e => exact nomatch ht
  | ok clause =>
    obtain ⟨c, rest, hclause, hc⟩ := h clause rfl
    cases ht
    exact .inr ⟨c, rest, by rw [String.toList_append, hclause]; rfl, hc⟩

theorem beginsClause_word {word : String} {sql : Except Failure String} {c : Char} {rest : List Char}
    (hword : word.toList = c :: rest) (hc : c ≠ 'u') :
    BeginsClause (do return word ++ (← sql)) := by
  intro t ht
  cases sql with
  | error e => exact nomatch ht
  | ok clause =>
    cases ht
    exact ⟨c, rest ++ clause.toList, by rw [String.toList_append, hword]; rfl, hc⟩

theorem follows_trailing {count : Option Nat} {sql : Nat → Except Failure String}
    (hsql : ∀ n, BeginsClause (sql n)) {t : String} (h : Grammar.trailing count sql = .ok t) :
    Follows t.toList := by
  cases count with
  | none => cases h; exact .inl rfl
  | some n => exact (hsql n).follows h

theorem beginsClause_limit (n : Nat) : BeginsClause (Grammar.limitSql n) := by
  unfold Grammar.limitSql
  exact beginsClause_word (c := 'l') rfl (by decide)

theorem beginsClause_offset (n : Nat) : BeginsClause (Grammar.offsetSql n) := by
  unfold Grammar.offsetSql
  exact beginsClause_word (c := 'o') rfl (by decide)

theorem follows_orders {g : Grammar} {orders : List Order} {t : String}
    (h : Grammar.trailingOf orders g.ordersSql = .ok t) : Follows t.toList := by
  have hsql : BeginsClause (g.ordersSql orders) := by
    intro t ht
    obtain ⟨fragments, _, ht⟩ := bind_eq_ok ht
    exact beginsClause_word (c := 'o') rfl (by decide) t ht
  unfold Grammar.trailingOf at h
  split at h
  · cases h; exact .inl rfl
  · exact hsql.follows h

/-! ## The parts of a compiled union -/

theorem Query.IsBalanced.withoutUnions {q : Query} (h : q.IsBalanced) :
    q.withoutUnions.IsBalanced :=
  { h with unionOrders := fun _ hmem => nomatch hmem }

theorem Query.AttachedIn.withoutUnions {q : Query} {met : QueryId → Prop} (h : q.AttachedIn met) :
    q.withoutUnions.AttachedIn met :=
  { h with unions := fun _ hmem => nomatch hmem }

/-- The texts of the members are those of the queries that are united. -/
theorem Attached.members_eq_ok {attached : Attached} {unions : List Union}
    {members : List (Bool × String)} (h : attached.members unions = .ok members) :
    List.Forall₂ (fun u member => member.1 = u.keepsAll.truthy ∧
      attached.selectOf u.member = .ok member.2) unions members := by
  unfold Attached.members at h
  induction unions generalizing members with
  | nil =>
    cases h
    exact .nil
  | cons u unions ih =>
    rw [List.mapM_cons] at h
    obtain ⟨first, hfirst, h⟩ := bind_eq_ok h
    obtain ⟨rest, hrest, h⟩ := bind_eq_ok h
    obtain ⟨select, hselect, hfirst⟩ := bind_eq_ok hfirst
    cases h
    cases hfirst
    exact .cons ⟨rfl, hselect⟩ (ih hrest)

theorem Attached.mem_members {attached : Attached} {unions : List Union}
    {members : List (Bool × String)} (h : attached.members unions = .ok members) :
    ∀ member ∈ members, ∃ u ∈ unions, attached.selectOf u.member = .ok member.2 := by
  intro member hmember
  obtain ⟨u, hu, _, hselect⟩ := exists_of_forall₂ (List.Forall₂.flip (Attached.members_eq_ok h)) hmember
  exact ⟨u, hu, hselect⟩

section

variable {g : Grammar} {s : Store} {known : KnownAnswers} {id : QueryId}

/-- Balanced queries are compiled to parts that can be told from the text. -/
theorem Store.IsBalanced.isSplit (h : s.IsBalanced known id) (hd : g.dialect = .mysql)
    {parts : UnionParts} (hparts : g.unionParts (s.attached g known) (s.query id) = .ok parts) :
    parts.IsSplit := by
  have hpostgres : g.dialect ≠ .postgres := by rw [hd]; decide
  have hattached : (s.query id).AttachedIn fun other => s.Reaches (.query id) (.query other) :=
    Store.Reaches.refl.attachedIn
  obtain ⟨first, hfirst, hparts⟩ := bind_eq_ok hparts
  obtain ⟨members, hmembers, hparts⟩ := bind_eq_ok hparts
  obtain ⟨orders, horders, hparts⟩ := bind_eq_ok hparts
  obtain ⟨limit, hlimit, hparts⟩ := bind_eq_ok hparts
  obtain ⟨offset, hoffset, hparts⟩ := bind_eq_ok hparts
  cases hparts
  refine ⟨?_, fun member hmember => ?_, fun rest => ?_⟩
  · exact h.selectSql_balanced hpostgres (h.query id .refl).withoutUnions hattached.withoutUnions
      hfirst
  · obtain ⟨u, hu, hselect⟩ := Attached.mem_members hmembers member hmember
    cases hquery : u.member with
    | none => rw [hquery] at hselect; exact nomatch hselect
    | some query =>
      rw [hquery] at hselect
      exact h.select_balanced hpostgres (hattached.unions u hu query hquery) hselect
  · refine Follows.ne_member ?_ rest
    rw [String.toList_append, String.toList_append]
    exact ((follows_orders horders).append (follows_trailing beginsClause_limit hlimit)).append
      (follows_trailing beginsClause_offset hoffset)

/-- A union in MySQL is compiled to its parts: the query without its union, then each member with its
word, both in parentheses, then the ordering and the paging of the union.  What a member is compiled
to is the whole statement that it is by itself.  If the text that the queries write as it is, is
balanced, then the parts can be told from the text in only one way. -/
theorem Store.compiled_union (s : Store) (id : QueryId)
    (hg : s.settled.grammarFor (s.settled.query id).grammar "compile_select" = .ok g)
    (hd : g.dialect = .mysql) (hunions : (s.settled.query id).unions ≠ [])
    (haggregate : (s.settled.query id).aggregate = none) :
    (∀ known, s.settled.compiled known id "compile_select" Grammar.selectSql =
        (g.unionParts (s.settled.attached g known) (s.settled.query id)).map UnionParts.text) ∧
      (∀ run before sql, Ran (id.toSql run) before sql s → ∃ known parts,
        g.unionParts (s.settled.attached g known) (s.settled.query id) = .ok parts ∧
          sql = parts.text) ∧
      (∀ known member sql, (s.settled.attached g known).select member = .ok sql →
        g.selectSql (s.settled.attached g known) (s.settled.query member) = .ok sql) ∧
      ∀ known, s.settled.IsBalanced known id → ∀ parts,
        g.unionParts (s.settled.attached g known) (s.settled.query id) = .ok parts →
          parts.IsSplit ∧ ∀ other : UnionParts, other.IsSplit → other.text = parts.text →
            other = parts := by
  have hcompiled : ∀ known, s.settled.compiled known id "compile_select" Grammar.selectSql =
      (g.unionParts (s.settled.attached g known) (s.settled.query id)).map UnionParts.text := by
    intro known
    unfold Store.compiled
    rw [hg]
    exact Grammar.selectSql_eq_unionParts hd hunions haggregate
  refine ⟨hcompiled, fun run before sql hran => ?_, fun known member sql hselect => ?_,
    fun known hbalanced parts hparts => ?_⟩
  · obtain ⟨known, hsql⟩ := ran_consultFrom hran
    rw [hcompiled] at hsql
    cases hparts : g.unionParts (s.settled.attached g known) (s.settled.query id) with
    | error e => rw [hparts] at hsql; exact nomatch hsql
    | ok parts =>
      rw [hparts] at hsql
      exact ⟨known, parts, hparts, (Except.ok.inj hsql).symm⟩
  · have hdeeper := (attachedBy_deeper s.settled g (s.settled.oracle known)
      (Nat.le_succ (s.settled.attachedDepth))).select member member rfl
    rw [show (attachedBy s.settled g (s.settled.oracle known) (s.settled.attachedDepth)).select
      member = .ok sql from hselect] at hdeeper
    obtain ⟨_, heq, rfl⟩ := hdeeper.of_ok
    exact heq
  · have hsplit := hbalanced.isSplit hd hparts
    exact ⟨hsplit, fun other hother htext => UnionParts.text_injective hother hsplit htext⟩

end

/-- A store with a query in MySQL that is united with two others, of which the last is itself a
union. -/
def Store.ofUnions : Store :=
  { Store.ofTable "a" with
    grammars := #[{ dialect := .mysql }]
    queries := #[
      { connection := none, grammar := .grammar ⟨0⟩, source := .text "a"
        wheres := [⟨.text "and", .raw (.text "x in (1, ')')")⟩], orders := [.byColumn (.text "x") .ascending]
        unions := [⟨some ⟨1⟩, .bool true⟩, ⟨some ⟨2⟩, .bool false⟩]
        unionOrders := [.byColumn (.text "y") .descending] },
      { connection := none, grammar := .grammar ⟨0⟩, source := .text "(b" },
      { connection := none, grammar := .grammar ⟨0⟩, source := .text "c"
        unions := [⟨some ⟨1⟩, .bool false⟩] }] }

theorem Store.settled_ofUnions : Store.ofUnions.settled = Store.ofUnions := by
  refine Store.settled_eq fun id _ r => ?_
  rcases id with ⟨_ | _ | _ | n⟩ <;> rfl

theorem Store.ofUnions_isBalanced : Store.ofUnions.settled.IsBalanced [] ⟨0⟩ where
  query id _ := by
    rw [Store.settled_ofUnions]
    rcases id with ⟨_ | _ | _ | n⟩ <;>
      constructor <;> simp [Store.ofUnions, Store.query, Value.IsBalanced, Where.IsBalanced,
        Order.IsBalanced, Value.display, default]
    decide
  oracle id request answer h := nomatch h

set_option maxRecDepth 4000 in
/-- The members are the second and the third query. -/
theorem Store.compiled_union_members :
    Store.ofUnions.settled.compiled [] ⟨0⟩ "compile_select" Grammar.selectSql =
        .ok ("(select * from `a` where x in (1, ')') order by `x` asc) union all " ++
          "(select * from `(b`) union ((select * from `c`) union (select * from `(b`)) " ++
          "order by `y` desc") ∧
      ∀ parts, Grammar.unionParts { dialect := .mysql }
          (Store.ofUnions.settled.attached { dialect := .mysql } [])
          (Store.ofUnions.settled.query ⟨0⟩) = .ok parts → parts.IsSplit := by
  have hsettled := Store.settled_ofUnions
  have hunion := Store.compiled_union (g := { dialect := .mysql }) Store.ofUnions ⟨0⟩ (by rw [hsettled]; rfl)
    rfl (by rw [hsettled]; exact List.cons_ne_nil _ _) (by rw [hsettled]; rfl)
  refine ⟨(hunion.1 []).trans ?_, fun parts hparts => ?_⟩
  · rw [hsettled]
    rfl
  · exact (hunion.2.2.2 [] Store.ofUnions_isBalanced parts hparts).1

end FluentSql
