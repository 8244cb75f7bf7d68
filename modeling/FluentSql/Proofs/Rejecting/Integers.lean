import FluentSql.Proofs.Fetching.Inquiries
import FluentSql.Proofs.Inserting
import FluentSql.Proofs.Numerals
import FluentSql.Proofs.Operators.Refusing
import FluentSql.Proofs.Rejecting.Documents
import FluentSql.Proofs.Traversing

/-!
# Raw lists of integers

The integers of a raw list are written into the SQL, so every value is made one
before the condition is added.  The first value that cannot be made one decides
what becomes of the call: it is refused by a message of its own, unless the
value is an infinite double, whose failure goes through as it is.

* `Value.HaveIntegers` relates values and their integers, and
  `hasInteger_of_isInfinite` and `toInt_error` say which values have none.
* `rawIntegers_of_find?` is what the first value without an integer does.
* `Store.AddsIntegers` and `Store.RefusesIntegers` are the two outcomes that
  are meant, and `IsNumeralList` is the text of a list.
* `whereIntegerIn_iff` says when the outcome is one of them, and what the
  condition is compiled to.
-/

namespace FluentSql

open Number

-- Powers are those of the core library, whatever else is imported.
attribute [local instance (10000)] instPowNat

/-! ## Values and their integers -/

namespace Value

/-- The values read as these integers, in order. -/
def HaveIntegers (vs : List Value) (integers : List Int) : Prop :=
  List.Forall₂ (fun v i => v.toInt = .ok i) vs integers

/-- Whether a value reads as an integer. -/
def hasInteger (v : Value) : Bool :=
  v.toInt.isOk

/-- Whether a value is one of the two infinite doubles. -/
def isInfinite : Value → Bool
  | double x => x.isInfinite
  | _ => false

theorem hasInteger_iff {v : Value} : v.hasInteger = true ↔ ∃ i, v.toInt = .ok i := by
  unfold hasInteger
  cases v.toInt with
  | ok i => exact iff_of_true rfl ⟨i, rfl⟩
  | error e => exact iff_of_false (fun h => nomatch h) fun ⟨_, h⟩ => nomatch h

/-- A value without an integer is of the wrong kind or has the wrong form, or it is infinite. -/
theorem toInt_error {v : Value} {e : Failure} (h : v.toInt = .error e) :
    if v.isInfinite then e = .value .overflow
    else e = .value .wrongType ∨ e = .value .badValue := by
  have helim : ∀ read : Option Int, read.elim (.error .badValue) .ok = Except.error e →
      e = .value .badValue := by
    intro read hread
    cases read with
    | none => exact (Except.error.inj hread).symm
    | some i => cases hread
  cases v with
  | bool b => cases h
  | int i => cases h
  | text s => exact .inr (helim _ h)
  | bytes bs =>
    rw [toInt] at h
    split at h
    · exact .inr (helim _ h)
    · exact .inr (Except.error.inj h).symm
  | double x =>
    rw [toInt] at h
    split at h
    · rename_i hnan
      have hfinite : x.isInfinite = false := by
        rw [Double.isNaN, Bool.and_eq_true, bne_iff_ne] at hnan
        rw [Double.isInfinite, hnan.1, Bool.true_and, beq_eq_false_iff_ne]
        exact hnan.2
      rw [isInfinite, hfinite]
      exact .inr (Except.error.inj h).symm
    · split at h
      · rename_i hinfinite
        rw [isInfinite, hinfinite]
        exact (Except.error.inj h).symm
      · cases h
  | _ => exact .inl (Except.error.inj h).symm

theorem exists_haveIntegers {vs : List Value} (h : vs.find? (!·.hasInteger) = none) :
    ∃ integers, HaveIntegers vs integers := by
  have hall : ∀ v ∈ vs, ∃ i, v.toInt = .ok i := by
    intro v hv
    have hnone := List.find?_eq_none.1 h v hv
    rw [Bool.not_eq_true', Bool.not_eq_false] at hnone
    exact hasInteger_iff.1 hnone
  obtain ⟨integers, hintegers⟩ := mapM_isOk hall
  exact ⟨integers, mapM_eq_ok_iff.1 hintegers⟩

end Value

open Value Grammar

section

variable {s : Store} {q : QueryId} {values column boolean : Value} {negated : Bool}
  {vs : List Value} {integers : List Int}

/-! ## Reading a raw list -/

/-- What is said of a value that has no integer. -/
def Store.refusal (s : Store) (v : Value) : Failure :=
  if v.isInfinite then .value .overflow else .argument (.notInteger (s.shown v).literal)

theorem rawInteger_of_ok {v : Value} {i : Int} (h : v.toInt = .ok i) :
    (QueryId.rawInteger v).runOn s = (.ok i, s) := by
  unfold QueryId.rawInteger
  rw [h]
  rfl

theorem rawInteger_of_error {v : Value} (h : v.hasInteger = false) :
    (QueryId.rawInteger v).runOn s = (.error (s.refusal v), s) := by
  cases hread : v.toInt with
  | ok i => rw [hasInteger_iff.2 ⟨i, hread⟩] at h; cases h
  | error e =>
    have hkind := toInt_error hread
    unfold QueryId.rawInteger Store.refusal
    rw [hread]
    split at hkind
    · rename_i hinfinite
      rw [if_pos hinfinite, hkind]
      rfl
    · rename_i hfinite
      rw [if_neg hfinite]
      obtain rfl | rfl := hkind <;> rfl

/-- The first value without an integer ends the reading. -/
theorem rawIntegers_of_find? {v : Value} (h : vs.find? (!·.hasInteger) = some v) :
    (vs.mapM QueryId.rawInteger).runOn s = (.error (s.refusal v), s) := by
  induction vs with
  | nil => exact nomatch h
  | cons w vs ih =>
    rw [List.mapM_cons]
    cases hw : w.hasInteger with
    | false =>
      rw [List.find?_cons_of_pos (by rw [hw]; rfl)] at h
      cases h
      exact Action.runOn_bind_error (rawInteger_of_error hw)
    | true =>
      rw [List.find?_cons_of_neg (by rw [hw]; exact Bool.false_ne_true)] at h
      obtain ⟨i, hi⟩ := hasInteger_iff.1 hw
      rw [Action.runOn_bind_ok (rawInteger_of_ok hi)]
      exact Action.runOn_bind_error (ih h)

/-! ## Writing a raw list -/

/-- Numerals with commas between them, one for each integer. -/
def IsNumeralList (text : String) (integers : List Int) : Prop :=
  ∃ numerals : List String, text = joinWith ", " numerals ∧
    List.Forall₂ (fun numeral i => IsSigned numeral.toList ∧ readInt numeral.toList = some i)
      numerals integers

theorem integerText_eq (i : Int) : integerText i =
    if (natDigits i.natAbs).length ≤ maxNumeralDigits then .ok (intText i)
    else .error .badValue := by
  have hdigits : (natDigits i.natAbs).length ≤ maxNumeralDigits ↔
      i.natAbs < 10 ^ maxNumeralDigits :=
    Nat.length_toDigits_le_iff (by decide) (by decide)
  unfold integerText
  simp only [hdigits]

theorem integersSql_of_short
    (h : ∀ i ∈ integers, (natDigits i.natAbs).length ≤ maxNumeralDigits) :
    ∃ text, integersSql integers = .ok text ∧ IsNumeralList text integers := by
  have htexts : integers.mapM integerText = .ok (integers.map intText) := by
    refine mapM_eq_ok_iff.2 (List.forall₂_map_right_iff.2 (List.forall₂_same.2 fun i hi => ?_))
    rw [integerText_eq, if_pos (h i hi)]
  refine ⟨joinWith ", " (integers.map intText), ?_, integers.map intText, rfl, ?_⟩
  · unfold integersSql
    rw [htexts]
    rfl
  · refine List.forall₂_map_left_iff.2 (List.forall₂_same.2 fun i hi => ?_)
    exact ⟨intText_isSigned i, by rw [readInt_intText, if_pos (h i hi)]⟩

theorem integersSql_of_long
    (h : ∃ i ∈ integers, ¬(natDigits i.natAbs).length ≤ maxNumeralDigits) :
    integersSql integers = .error .badValue := by
  have hfails : integers.mapM integerText = .error .badValue := by
    refine mapM_eq_error (fun i _ => ?_) ?_
    · rw [integerText_eq]
      split
      · exact .inl ⟨_, rfl⟩
      · exact .inr rfl
    · obtain ⟨i, hi, hlong⟩ := h
      exact ⟨i, hi, by rw [integerText_eq, if_neg hlong]⟩
  unfold integersSql
  rw [hfails]
  rfl

theorem whereSql_of_long {g : Grammar} {attached : Attached}
    (h : ∃ i ∈ integers, ¬(natDigits i.natAbs).length ≤ maxNumeralDigits) :
    g.whereSql attached (.amongIntegers column integers negated) = .error .badValue := by
  rw [whereSql, integersSql_of_long h]
  rfl

theorem whereSql_of_short {g : Grammar} {attached : Attached} (hne : integers ≠ [])
    (h : ∀ i ∈ integers, (natDigits i.natAbs).length ≤ maxNumeralDigits) :
    ∃ text, IsNumeralList text integers ∧
      g.whereSql attached (.amongIntegers column integers negated) =
        (g.wrapped column).map fun column =>
          column ++ " " ++ negatable negated "in" ++ " (" ++ text ++ ")" := by
  obtain ⟨text, htext, hlist⟩ := integersSql_of_short h
  have hfilled : integers.isEmpty = false := List.isEmpty_eq_false_iff.2 hne
  refine ⟨text, hlist, ?_⟩
  rw [whereSql, htext, hfilled]
  show g.amongSql column (.ok text) false negated = _
  rw [amongSql, if_neg Bool.false_ne_true]
  cases g.wrapped column <;> rfl

/-! ## Outcomes -/

/-- One condition with the integers of the values is added, and nothing is bound. -/
def Store.AddsIntegers (s : Store) (q : QueryId) (column boolean : Value) (negated : Bool)
    (vs : List Value) (outcome : Except Failure Unit × Store) : Prop :=
  ∃ integers, HaveIntegers vs integers ∧
    outcome = (.ok (), s.withCondition q boolean (.amongIntegers column integers negated) [])

/-- The call names a value that has no integer, and nothing is changed. -/
def Store.RefusesIntegers (s : Store) (vs : List Value) (outcome : Except Failure Unit × Store) :
    Prop :=
  ∃ v ∈ vs, v.hasInteger = false ∧
    outcome = (.error (.argument (.notInteger (s.shown v).literal)), s)

theorem itemsNow_runOn (h : (values.itemsNow.runOn s).1 = .ok vs) :
    values.itemsNow.runOn s = (.ok vs, s) :=
  Prod.ext h Value.itemsNow_store

theorem addsIntegers_of_find? (hvs : (values.itemsNow.runOn s).1 = .ok vs)
    (h : vs.find? (!·.hasInteger) = none) :
    s.AddsIntegers q column boolean negated vs
      ((q.whereIntegerIn column values boolean negated).runOn s) := by
  obtain ⟨integers, hintegers⟩ := exists_haveIntegers h
  refine ⟨integers, hintegers, ?_⟩
  have hread : (vs.mapM QueryId.rawInteger).runOn s = (.ok integers, s) :=
    mapM_runOn (hintegers.imp fun _ _ => rawInteger_of_ok)
  unfold QueryId.whereIntegerIn
  rw [Action.runOn_bind_ok (itemsNow_runOn hvs), Action.runOn_bind_ok hread, s.withCondition_nil]
  rfl

theorem whereIntegerIn_of_find? (hvs : (values.itemsNow.runOn s).1 = .ok vs) {v : Value}
    (h : vs.find? (!·.hasInteger) = some v) :
    (q.whereIntegerIn column values boolean negated).runOn s = (.error (s.refusal v), s) := by
  unfold QueryId.whereIntegerIn
  rw [Action.runOn_bind_ok (itemsNow_runOn hvs)]
  exact Action.runOn_bind_error (rawIntegers_of_find? h)

/-- A raw list is added as a condition on its integers, or refused with a message of its own and
without a trace, exactly if the first value without an integer is no infinite double; otherwise the
call fails by the overflow of that double.  The condition is compiled to a list of numerals that
read as the integers, or to a constant if there are none.  An integer with too many digits has no
numeral, and the condition is not compiled. -/
theorem whereIntegerIn_iff (q : QueryId) (column boolean : Value) (negated : Bool)
    (hvs : (values.itemsNow.runOn s).1 = .ok vs) :
    (s.AddsIntegers q column boolean negated vs
          ((q.whereIntegerIn column values boolean negated).runOn s) ∨
        s.RefusesIntegers vs ((q.whereIntegerIn column values boolean negated).runOn s) ↔
      ∀ v ∈ vs.find? (!·.hasInteger), v.isInfinite = false) ∧
    (∀ v ∈ vs.find? (!·.hasInteger), v.isInfinite = true →
      (q.whereIntegerIn column values boolean negated).runOn s =
        (.error (.value .overflow), s)) ∧
    ∀ integers, HaveIntegers vs integers → ∀ (g : Grammar) (attached : Attached),
      (vs = [] → g.whereSql attached (.amongIntegers column integers negated) =
        .ok (if negated then "1 = 1" else "0 = 1")) ∧
      (vs ≠ [] → (∀ i ∈ integers, (natDigits i.natAbs).length ≤ maxNumeralDigits) →
        ∃ text, IsNumeralList text integers ∧
          g.whereSql attached (.amongIntegers column integers negated) =
            (g.wrapped column).map fun column =>
              column ++ " " ++ negatable negated "in" ++ " (" ++ text ++ ")") ∧
      ((∃ i ∈ integers, ¬(natDigits i.natAbs).length ≤ maxNumeralDigits) →
        g.whereSql attached (.amongIntegers column integers negated) = .error .badValue) := by
  refine ⟨?_, fun v hfirst hinfinite => ?_, fun integers hintegers g attached => ⟨?_, ?_, ?_⟩⟩
  · cases hfirst : vs.find? (!·.hasInteger) with
    | none =>
      refine iff_of_true (.inl (addsIntegers_of_find? hvs hfirst)) ?_
      exact fun v hv => nomatch hv
    | some v =>
      rw [whereIntegerIn_of_find? hvs hfirst]
      constructor
      · rintro (⟨_, _, hadded⟩ | ⟨w, _, _, hrefused⟩) v ⟨⟩
        · exact nomatch hadded
        · cases hinfinite : v.isInfinite with
          | false => rfl
          | true =>
            rw [Store.refusal, if_pos hinfinite] at hrefused
            exact nomatch hrefused
      · intro hall
        have hfinite : v.isInfinite = false := hall v rfl
        have hnone := List.find?_some hfirst
        rw [Bool.not_eq_true'] at hnone
        refine .inr ⟨v, List.mem_of_find?_eq_some hfirst, hnone, ?_⟩
        rw [Store.refusal, hfinite, if_neg Bool.false_ne_true]
  · rw [whereIntegerIn_of_find? hvs hfirst, Store.refusal, if_pos hinfinite]
  · rintro rfl
    cases hintegers
    rfl
  · intro hne hshort
    refine whereSql_of_short (fun hnil => hne ?_) hshort
    subst hnil
    cases hintegers
    rfl
  · exact whereSql_of_long

/-- A list with nothing among its values is refused. -/
theorem whereIntegerIn_iff_null : (Store.ofTable "posts").RefusesIntegers [.int 7, .null]
    ((QueryId.whereIntegerIn ⟨0⟩ (.text "id") (.list [.int 7, .null]) (.text "or") true).runOn
      (Store.ofTable "posts")) := by
  have hvs : ((Value.list [.int 7, .null]).itemsNow.runOn (Store.ofTable "posts")).1 =
      .ok [.int 7, .null] := rfl
  obtain ⟨integers, hintegers, _⟩ | hrefused :=
    (whereIntegerIn_iff ⟨0⟩ (.text "id") (.text "or") true hvs).1.2 (by decide)
  · -- Nothing has no integer.
    obtain ⟨_, hnull⟩ := exists_of_forall₂ hintegers (List.mem_cons_of_mem _ List.mem_cons_self)
    exact nomatch hnull.2
  · exact hrefused

/-- What comes of a raw list with an infinite double. -/
def rawInfinity : Except Failure Unit × Store :=
  (QueryId.whereIntegerIn ⟨0⟩ (.text "id") (.list [.double ⟨0x7ff0000000000000⟩]) (.text "and")
    false).runOn (Store.ofTable "t")

/-- An infinite double has no integer, but is not refused with a message of its own. -/
theorem rawInfinity_overflow : Value.hasInteger (.double ⟨0x7ff0000000000000⟩) = false ∧
    rawInfinity = (.error (.value .overflow), Store.ofTable "t") :=
  ⟨rfl, rfl⟩

end

end FluentSql
