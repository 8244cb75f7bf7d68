import FluentSql.Value.Equality
import FluentSql.Proofs.Wording.Literals
import Mathlib.Data.Fintype.EquivFin
import Mathlib.Data.List.Forall2

/-!
# Equality of values and keys

Equality crosses kinds: an integer may equal a double or a truth value, and the
entries of equal maps may stand in another order.  It is an equivalence all the
same, but that a NaN equals nothing.  The text under which a raw fragment is
filed does not cross kinds, so equal fragments may be different keys.

* `Value.agrees` is the agreement of elements, and of keys if it is strict.  It
  is described for one kind of value at a time.
* `Numeric.equals_iff` says that numbers are equal if they stand at the same
  place.
* `Value.equals_self_iff`, `Value.equals_trans` and `Value.equals_symm` are the
  laws of equality.  The last needs maps whose keys are apart (`WellKeyed`), as
  `keysApart_ofEntries` says of maps that are built.
* `Value.display_eq_iff` compares the texts of equal values.
* `Value.raw_keyed_iff` puts this together for raw fragments.
-/

namespace FluentSql

open Number

namespace Value

/-! ## What equality compares -/

theorem eq_of_isSameNaN {v w : Value} (h : v.isSameNaN w = true) : v = w := by
  fun_induction isSameNaN v w with
  | case1 x y =>
    rw [Bool.and_eq_true, beq_iff_eq] at h
    cases x
    cases y
    exact congrArg (fun bits => double ⟨bits⟩) h.2
  | case2 v w ih => exact congrArg raw (ih h)
  | case3 => cases h

/-- Whether two values agree.  Keys agree more strictly than elements: they must be filed alike.  A
NaN agrees with itself, although it does not equal itself. -/
def agrees (strict : Bool) (v w : Value) : Bool :=
  v.equals w && (!strict || v.keyed w) || v.isSameNaN w

theorem sameKey_eq (v w : Value) : v.sameKey w = v.agrees true w := by
  simp [sameKey, agrees]

theorem agrees_iff {strict : Bool} {v w : Value} : v.agrees strict w = true ↔
    v.equals w = true ∧ (strict = true → v.keyed w = true) ∨ v.isSameNaN w = true := by
  cases strict <;> simp [agrees]

theorem keyed_of_isSameNaN {v w : Value} (h : v.isSameNaN w = true) : v.keyed w = true := by
  obtain rfl := eq_of_isSameNaN h
  cases v <;> first | simp [keyed] | cases h

theorem agrees_iff_keyed {strict : Bool} {v w : Value} : v.agrees strict w = true ↔
    v.agrees false w = true ∧ (strict = true → v.keyed w = true) := by
  have hnan := @keyed_of_isSameNaN v w
  simp only [agrees_iff, Bool.false_eq_true, false_implies, and_true]
  tauto

theorem agrees_of_equals {v w : Value} (h : v.equals w = true) : v.agrees false w = true :=
  agrees_iff.2 (.inl ⟨h, fun hstrict => by cases hstrict⟩)

theorem listEquals_iff (vs ws : List Value) :
    listEquals vs ws = true ↔ List.Forall₂ (fun v w => v.agrees false w = true) vs ws := by
  induction vs generalizing ws with
  | nil => cases ws <;> simp [listEquals]
  | cons v vs ih => cases ws <;> simp [listEquals, agrees, ih]

/-- Every entry of a list agrees with an entry of the other. -/
def EntriesIn (es fs : List (Value × Value)) : Prop :=
  ∀ e ∈ es, ∃ f ∈ fs, e.1.agrees true f.1 = true ∧ e.2.agrees false f.2 = true

theorem entriesIn_iff (es fs : List (Value × Value)) :
    entriesIn es fs = true ↔ EntriesIn es fs := by
  induction es with
  | nil => simp [entriesIn, EntriesIn]
  | cons e es ih =>
    rw [EntriesIn, entriesIn, Bool.and_eq_true, ih, List.forall_mem_cons, List.any_eq_true]
    simp [agrees, EntriesIn]

/-! ### One kind of value at a time -/

section

variable {strict : Bool} {v w : Value}

theorem equals_scalar_iff (h : v.isScalar = true) : v.equals w = true ↔
    v.numeric? = none ∧ v = w ∨
      ∃ x y, v.numeric? = some x ∧ w.numeric? = some y ∧ x.equals y = true := by
  cases v <;> cases w <;> simp [equals, scalarEquals, numeric?] <;> cases h

theorem equals_raw_iff : (raw v).equals w = true ↔ ∃ w', w = raw w' ∧ v.equals w' = true := by
  cases w <;> simp [equals, scalarEquals, numeric?]

theorem agrees_scalar_iff (h : v.isScalar = true) :
    v.agrees strict w = true ↔ v.equals w = true ∨ v.isSameNaN w = true := by
  have hkeyed : v.keyed w = true := by
    cases v <;> first | simp only [keyed] | cases h
  simp [agrees_iff, hkeyed]

theorem agrees_list_iff {vs : List Value} : (list vs).agrees strict w = true ↔
    ∃ ws, w = list ws ∧ List.Forall₂ (fun v w => v.agrees false w = true) vs ws := by
  cases w <;> simp [agrees, equals, scalarEquals, numeric?, isSameNaN, keyed, listEquals_iff]

theorem agrees_map_iff {es : List (Value × Value)} : (map es).agrees strict w = true ↔
    ∃ fs, w = map fs ∧ es.length = fs.length ∧ EntriesIn es fs := by
  cases w <;> simp [agrees, equals, scalarEquals, numeric?, isSameNaN, keyed, entriesIn_iff]

theorem agrees_raw_iff : (raw v).agrees strict w = true ↔
    ∃ w', w = raw w' ∧ v.agrees false w' = true ∧ (strict = true → v.display = w'.display) := by
  rw [agrees_iff_keyed]
  cases w <;> simp [agrees, equals, scalarEquals, numeric?, isSameNaN, keyed]

theorem keyed_tuple_cons (v w : Value) (vs ws : List Value) :
    (tuple (v :: vs)).keyed (tuple (w :: ws)) = (v.keyed w && (tuple vs).keyed (tuple ws)) := by
  rw [keyed]

theorem agrees_tuple_iff {vs : List Value} : (tuple vs).agrees strict w = true ↔
    ∃ ws, w = tuple ws ∧ List.Forall₂ (fun v w => v.agrees strict w = true) vs ws := by
  have hitems : ∀ ws, List.Forall₂ (fun v w => v.agrees false w = true) vs ws ∧
      (strict = true → (tuple vs).keyed (tuple ws) = true) ↔
        List.Forall₂ (fun v w => v.agrees strict w = true) vs ws := by
    induction vs with
    | nil => intro ws; cases ws <;> simp [keyed]
    | cons v vs ih =>
      intro ws
      cases ws with
      | nil => simp
      | cons w ws =>
        rw [List.forall₂_cons, List.forall₂_cons, ← ih, keyed_tuple_cons, Bool.and_eq_true,
          @agrees_iff_keyed strict v w]
        tauto
  rw [agrees_iff_keyed]
  cases w with
  | tuple ws =>
    have hsame : (tuple vs).agrees false (tuple ws) = true ↔
        List.Forall₂ (fun v w => v.agrees false w = true) vs ws := by
      rw [← listEquals_iff]
      simp [agrees, equals, isSameNaN]
    rw [hsame, hitems]
    simp
  | _ => simp [agrees, equals, scalarEquals, numeric?, isSameNaN]

end

end Value

/-! ## Numbers -/

namespace Number.Double

variable {x y : Double}

theorem isInfinite_of_isZero (h : x.isZero = true) : x.isInfinite = false := by
  rw [isZero_iff] at h
  unfold isInfinite
  rw [exponentBits_eq, h]
  rfl

/-- Where a double stands among the numbers, and beyond them if it is infinite. -/
def position (x : Double) : ℚ ⊕ Bool :=
  if x.isInfinite then .inr x.isNegative else .inl x.value

theorem position_eq_iff : x.position = y.position ↔ x = y ∨ x.isZero = true ∧ y.isZero = true := by
  unfold position
  constructor
  · intro h
    split at h <;> split at h <;> simp only [Sum.inl.injEq, Sum.inr.injEq, reduceCtorEq] at h
    · next hx hy => exact .inl (eq_of_key h ((key_infinite hx).trans (key_infinite hy).symm))
    · exact eq_of_value h
  · rintro (rfl | ⟨hx, hy⟩)
    · rfl
    · rw [isInfinite_of_isZero hx, isInfinite_of_isZero hy, (value_eq_zero_iff x).2 hx,
        (value_eq_zero_iff y).2 hy, if_neg Bool.false_ne_true, if_neg Bool.false_ne_true]

end Number.Double

namespace Numeric

/-- Where a number stands, unless it is a NaN. -/
def position? : Numeric → Option (ℚ ⊕ Bool)
  | int i => some (.inl i)
  | double x => if x.isNaN then none else some x.position

/-- Numbers are equal if they stand at the same place. -/
theorem equals_iff (x y : Numeric) :
    x.equals y = true ↔ x.position?.isSome = true ∧ x.position? = y.position? := by
  have hint : ∀ (x : Double) (i : ℤ), x.equalsInt i = true ↔
      x.isNaN = false ∧ x.position = .inl (i : ℚ) := by
    intro x i
    rw [Double.equalsInt_iff, Double.position]
    cases x.isInfinite <;> simp
  cases x with
  | int i =>
    cases y with
    | int j => simp [equals, position?]
    | double y => cases hy : y.isNaN <;> simp [equals, position?, hint, hy, eq_comm]
  | double x =>
    cases y with
    | int j => cases hx : x.isNaN <;> simp [equals, position?, hint, hx]
    | double y =>
      have hbits : x.bits = y.bits ↔ x = y := by
        cases x
        cases y
        simp
      cases hx : x.isNaN <;> cases hy : y.isNaN <;>
        simp [equals, Double.equals, position?, hx, hy, hbits, Double.position_eq_iff]

end Numeric

namespace Value

/-- Scalars other than numbers are equal if they are the same. -/
theorem equals_scalar_trans {u v w : Value} (hu : u.isScalar = true) (huv : u.equals v = true)
    (hvw : v.equals w = true) : u.equals w = true := by
  rcases (equals_scalar_iff hu).1 huv with ⟨_, rfl⟩ | ⟨x, y, hx, hy, hxy⟩
  · exact hvw
  · have hv : v.isScalar = true := by cases v <;> first | rfl | cases hy
    rcases (equals_scalar_iff hv).1 hvw with ⟨hnone, _⟩ | ⟨y', z, hy', hz, hyz⟩
    · rw [hnone] at hy
      cases hy
    · obtain rfl : y = y' := Option.some.inj (hy.symm.trans hy')
      rw [Numeric.equals_iff] at hxy hyz
      exact (equals_scalar_iff hu).2 (.inr ⟨x, z, hx, hz, (Numeric.equals_iff x z).2
        ⟨hxy.1, hxy.2.trans hyz.2⟩⟩)

theorem agrees_scalar_symm {strict : Bool} {v w : Value} (hv : v.isScalar = true)
    (h : v.agrees strict w = true) : w.agrees strict v = true := by
  rcases (agrees_scalar_iff hv).1 h with hequal | hnan
  · rcases (equals_scalar_iff hv).1 hequal with ⟨_, rfl⟩ | ⟨x, y, hx, hy, hxy⟩
    · exact h
    · have hw : w.isScalar = true := by cases w <;> first | rfl | cases hy
      rw [Numeric.equals_iff] at hxy
      refine (agrees_scalar_iff hw).2 (.inl ((equals_scalar_iff hw).2 (.inr ⟨y, x, hy, hx, ?_⟩)))
      exact (Numeric.equals_iff y x).2 ⟨hxy.2 ▸ hxy.1, hxy.2.symm⟩
  · rwa [eq_of_isSameNaN hnan] at h ⊢

/-! ## An equivalence -/

theorem agrees_refl (strict : Bool) (v : Value) : v.agrees strict v = true := by
  induction v using inductionOnParts generalizing strict with
  | scalar v hv =>
    rw [agrees_scalar_iff hv]
    cases v with
    | double x => cases hx : x.isNaN <;> simp [equals, scalarEquals, numeric?, Numeric.equals,
        Double.equals, isSameNaN, hx]
    | list _ | tuple _ | map _ | raw _ => cases hv
    | _ => simp [equals, scalarEquals, numeric?, Numeric.equals]
  | list items ih =>
    exact agrees_list_iff.2 ⟨items, rfl, List.forall₂_same.2 fun v hv => ih v hv false⟩
  | tuple items ih =>
    exact agrees_tuple_iff.2 ⟨items, rfl, List.forall₂_same.2 fun v hv => ih v hv strict⟩
  | map entries ih =>
    exact agrees_map_iff.2 ⟨entries, rfl, rfl, fun e he =>
      ⟨e, he, (ih e he).1 true, (ih e he).2 false⟩⟩
  | raw v ih => exact agrees_raw_iff.2 ⟨v, rfl, ih false, fun _ => rfl⟩

theorem not_isSameNaN_of_equals {u v : Value} (h : u.equals v = true) (w : Value) :
    u.isSameNaN w = false := by
  induction u using inductionOnParts generalizing v w with
  | scalar u hu =>
    cases u with
    | double x =>
      rcases (equals_scalar_iff hu).1 h with ⟨hnone, _⟩ | ⟨y, z, hy, _, hyz⟩
      · cases hnone
      · obtain rfl : y = .double x := (Option.some.inj hy).symm
        have hnan : x.isNaN = false := by
          rw [Numeric.equals_iff] at hyz
          cases hx : x.isNaN <;> simp [Numeric.position?, hx] at hyz ⊢
        cases w <;> simp [isSameNaN, hnan]
    | list _ | tuple _ | map _ | raw _ => cases hu
    | _ => rfl
  | raw u ih =>
    obtain ⟨v, rfl, hv⟩ := equals_raw_iff.1 h
    cases w with
    | raw w => exact ih hv w
    | _ => rfl
  | _ => rfl

/-- Every value equals itself but a NaN. -/
theorem equals_self_iff (v : Value) : v.equals v = true ↔ v.isSameNaN v = false := by
  refine ⟨fun h => not_isSameNaN_of_equals h v, fun h => ?_⟩
  have hagrees := agrees_iff.1 (agrees_refl false v)
  rw [h] at hagrees
  simpa using hagrees

private theorem forall₂_trans {α : Type} {R : α → α → Prop} {xs ys zs : List α}
    (h : ∀ x ∈ xs, ∀ y z, R x y → R y z → R x z) (hxy : List.Forall₂ R xs ys)
    (hyz : List.Forall₂ R ys zs) : List.Forall₂ R xs zs := by
  induction hxy generalizing zs with
  | nil => exact hyz
  | cons hfirst hrest ih =>
    cases hyz with
    | cons hfirst' hrest' =>
      obtain ⟨hx, hxs⟩ := List.forall_mem_cons.1 h
      exact .cons (hx _ _ hfirst hfirst') (ih hxs hrest')

private theorem forall₂_symm {α : Type} {R : α → α → Prop} {xs ys : List α}
    (h : ∀ x ∈ xs, ∀ y, R x y → R y x) (hxy : List.Forall₂ R xs ys) : List.Forall₂ R ys xs := by
  induction hxy with
  | nil => exact .nil
  | cons hfirst hrest ih =>
    obtain ⟨hx, hxs⟩ := List.forall_mem_cons.1 h
    exact .cons (hx _ hfirst) (ih hxs)

theorem agrees_trans {strict : Bool} {u v w : Value} (huv : u.agrees strict v = true)
    (hvw : v.agrees strict w = true) : u.agrees strict w = true := by
  induction u using inductionOnParts generalizing strict v w with
  | scalar u hu =>
    rcases (agrees_scalar_iff hu).1 huv with hequal | hnan
    · rcases agrees_iff.1 hvw with ⟨hequal', _⟩ | hnan'
      · exact (agrees_scalar_iff hu).2 (.inl (equals_scalar_trans hu hequal hequal'))
      · rwa [← eq_of_isSameNaN hnan']
    · rwa [eq_of_isSameNaN hnan]
  | list us ih =>
    obtain ⟨vs, rfl, hus⟩ := agrees_list_iff.1 huv
    obtain ⟨ws, rfl, hvs⟩ := agrees_list_iff.1 hvw
    exact agrees_list_iff.2 ⟨ws, rfl, forall₂_trans (fun u hu v w => ih u hu) hus hvs⟩
  | tuple us ih =>
    obtain ⟨vs, rfl, hus⟩ := agrees_tuple_iff.1 huv
    obtain ⟨ws, rfl, hvs⟩ := agrees_tuple_iff.1 hvw
    exact agrees_tuple_iff.2 ⟨ws, rfl, forall₂_trans (fun u hu v w => ih u hu) hus hvs⟩
  | map es ih =>
    obtain ⟨fs, rfl, hlen, hes⟩ := agrees_map_iff.1 huv
    obtain ⟨gs, rfl, hlen', hfs⟩ := agrees_map_iff.1 hvw
    refine agrees_map_iff.2 ⟨gs, rfl, hlen.trans hlen', fun e he => ?_⟩
    obtain ⟨f, hf, hkey, hvalue⟩ := hes e he
    obtain ⟨g, hg, hkey', hvalue'⟩ := hfs f hf
    exact ⟨g, hg, (ih e he).1 hkey hkey', (ih e he).2 hvalue hvalue'⟩
  | raw u ih =>
    obtain ⟨v, rfl, hu, hdisplay⟩ := agrees_raw_iff.1 huv
    obtain ⟨w, rfl, hv, hdisplay'⟩ := agrees_raw_iff.1 hvw
    exact agrees_raw_iff.2 ⟨w, rfl, ih hu hv, fun h => (hdisplay h).trans (hdisplay' h)⟩

/-- Equality of values that are no NaNs is transitive. -/
theorem equals_trans {u v w : Value} (huv : u.equals v = true) (hvw : v.equals w = true) :
    u.equals w = true := by
  have hagrees : u.agrees false w = true :=
    agrees_trans (agrees_of_equals huv) (agrees_of_equals hvw)
  rcases agrees_iff.1 hagrees with ⟨hequal, _⟩ | hnan
  · exact hequal
  · -- A NaN equals nothing.
    rw [not_isSameNaN_of_equals huv] at hnan
    cases hnan

/-! ### Maps whose keys are apart -/

/-- No two entries of a list have the same key. -/
def KeysApart (entries : List (Value × Value)) : Prop :=
  entries.Pairwise fun e f => f.1.sameKey e.1 = false

/-- All maps in a value have keys that are apart, as those of maps that were built are. -/
inductive WellKeyed : Value → Prop
  | scalar {v : Value} (h : v.isScalar = true) : WellKeyed v
  | list {items : List Value} (h : ∀ v ∈ items, WellKeyed v) : WellKeyed (list items)
  | tuple {items : List Value} (h : ∀ v ∈ items, WellKeyed v) : WellKeyed (tuple items)
  | map {entries : List (Value × Value)} (hapart : KeysApart entries)
      (hkeys : ∀ e ∈ entries, WellKeyed e.1) (hvalues : ∀ e ∈ entries, WellKeyed e.2) :
      WellKeyed (map entries)
  | raw {v : Value} (h : WellKeyed v) : WellKeyed (raw v)

/-- A map whose keys are apart leaves no entry of another map of its size out: different entries
agree with different ones. -/
theorem EntriesIn.covers {es fs : List (Value × Value)} (h : EntriesIn es fs)
    (hlen : es.length = fs.length) (hapart : KeysApart es)
    (hsymm : ∀ e ∈ es, ∀ k, e.1.agrees true k = true → k.agrees true e.1 = true) :
    ∀ f ∈ fs, ∃ e ∈ es, e.1.agrees true f.1 = true ∧ e.2.agrees false f.2 = true := by
  have hplace : ∀ i : Fin es.length, ∃ j : Fin fs.length,
      es[i].1.agrees true fs[j].1 = true ∧ es[i].2.agrees false fs[j].2 = true := by
    intro i
    obtain ⟨f, hf, hagrees⟩ := h es[i] (List.getElem_mem i.isLt)
    obtain ⟨j, hj, rfl⟩ := List.getElem_of_mem hf
    exact ⟨⟨j, hj⟩, hagrees⟩
  choose place hagrees using hplace
  have hne : ∀ i j, i < j → place i ≠ place j := by
    intro i j hij hsame
    have hkey := (hagrees j).1
    rw [← hsame] at hkey
    have hback := hsymm es[i] (List.getElem_mem i.isLt) _ (hagrees i).1
    have hfalse := List.pairwise_iff_getElem.1 hapart i j i.isLt j.isLt hij
    rw [sameKey_eq] at hfalse
    exact Bool.false_ne_true (hfalse.symm.trans (agrees_trans hkey hback))
  have hinj : Function.Injective place := by
    intro i j hsame
    rcases lt_trichotomy i j with hlt | heq | hlt
    · exact absurd hsame (hne i j hlt)
    · exact heq
    · exact absurd hsame.symm (hne j i hlt)
  have hbij := (Fintype.bijective_iff_injective_and_card place).2 ⟨hinj, by simp [hlen]⟩
  intro f hf
  obtain ⟨j, hj, rfl⟩ := List.getElem_of_mem hf
  obtain ⟨i, hi⟩ := hbij.surjective ⟨j, hj⟩
  have hi := hi ▸ hagrees i
  exact ⟨es[i], List.getElem_mem i.isLt, hi⟩

theorem agrees_symm {strict : Bool} {v w : Value} (hv : WellKeyed v)
    (h : v.agrees strict w = true) : w.agrees strict v = true := by
  induction hv generalizing strict w with
  | scalar hv => exact agrees_scalar_symm hv h
  | @list vs _ ih =>
    obtain ⟨ws, rfl, hvs⟩ := agrees_list_iff.1 h
    exact agrees_list_iff.2 ⟨vs, rfl, forall₂_symm (fun v hv w => ih v hv) hvs⟩
  | @tuple vs _ ih =>
    obtain ⟨ws, rfl, hvs⟩ := agrees_tuple_iff.1 h
    exact agrees_tuple_iff.2 ⟨vs, rfl, forall₂_symm (fun v hv w => ih v hv) hvs⟩
  | @map es hapart _ _ ihkeys ihvalues =>
    obtain ⟨fs, rfl, hlen, hes⟩ := agrees_map_iff.1 h
    refine agrees_map_iff.2 ⟨es, rfl, hlen.symm, fun f hf => ?_⟩
    obtain ⟨e, he, hkey, hvalue⟩ := hes.covers hlen hapart (fun e he k => ihkeys e he) f hf
    exact ⟨e, he, ihkeys e he hkey, ihvalues e he hvalue⟩
  | @raw v _ ih =>
    obtain ⟨w, rfl, hw, hdisplay⟩ := agrees_raw_iff.1 h
    exact agrees_raw_iff.2 ⟨v, rfl, ih hw, fun h => (hdisplay h).symm⟩

/-- Equality is symmetric on values whose maps have keys that are apart. -/
theorem equals_symm {v w : Value} (hv : WellKeyed v) (h : v.equals w = true) :
    w.equals v = true := by
  have hagrees : w.agrees false v = true := agrees_symm hv (agrees_of_equals h)
  rcases agrees_iff.1 hagrees with ⟨hequal, _⟩ | hnan
  · exact hequal
  · rw [eq_of_isSameNaN hnan] at hnan
    rw [not_isSameNaN_of_equals h] at hnan
    cases hnan

/-! ### Maps that are built -/

theorem keys_insertKey (key value : Value) (entries : List (Value × Value)) :
    (insertKey key value entries).map (·.1) = entries.map (·.1) ∨
      insertKey key value entries = entries ++ [(key, value)] ∧
        ∀ e ∈ entries, key.sameKey e.1 = false := by
  induction entries with
  | nil => exact .inr ⟨rfl, by simp⟩
  | cons e rest ih =>
    rw [insertKey]
    split
    · exact .inl rfl
    · next hkey =>
      rcases ih with hsame | ⟨hnew, hapart⟩
      · exact .inl (by simp [hsame])
      · exact .inr ⟨by simp [hnew], List.forall_mem_cons.2 ⟨by simpa using hkey, hapart⟩⟩

theorem keysApart_insertKey {entries : List (Value × Value)} (h : KeysApart entries)
    (key value : Value) : KeysApart (insertKey key value entries) := by
  have hkeys : ∀ es : List (Value × Value), KeysApart es ↔
      (es.map (·.1)).Pairwise fun k l => l.sameKey k = false := by
    intro es
    rw [List.pairwise_map, KeysApart]
  rcases keys_insertKey key value entries with hsame | ⟨hnew, hapart⟩
  · rwa [hkeys, hsame, ← hkeys]
  · rw [hnew, KeysApart, List.pairwise_append]
    exact ⟨h, List.pairwise_singleton _ _, fun e he f hf => by
      rw [List.eq_of_mem_singleton hf]
      exact hapart e he⟩

/-- The keys of a map that is built are apart. -/
theorem keysApart_ofEntries (pairs : List (Value × Value)) : KeysApart (ofEntries pairs) := by
  have hfold : ∀ entries, KeysApart entries →
      KeysApart (pairs.foldl (fun entries pair => insertKey pair.1 pair.2 entries) entries) := by
    induction pairs with
    | nil => exact fun entries h => h
    | cons pair pairs ih => exact fun entries h => ih _ (keysApart_insertKey h pair.1 pair.2)
  exact hfold [] List.Pairwise.nil

theorem mem_insertKey {key value : Value} {entries : List (Value × Value)} {e : Value × Value}
    (h : e ∈ insertKey key value entries) :
    (e.1 = key ∨ e.1 ∈ entries.map (·.1)) ∧ (e.2 = value ∨ e.2 ∈ entries.map (·.2)) := by
  induction entries with
  | nil =>
    rw [insertKey, List.mem_singleton] at h
    simp [h]
  | cons f rest ih =>
    rw [insertKey] at h
    split at h <;> rcases List.mem_cons.1 h with rfl | hrest
    · simp
    · exact ⟨.inr (List.mem_cons_of_mem _ (List.mem_map_of_mem hrest)),
        .inr (List.mem_cons_of_mem _ (List.mem_map_of_mem hrest))⟩
    · simp
    · obtain ⟨hkey, hvalue⟩ := ih hrest
      exact ⟨hkey.imp_right (List.mem_cons_of_mem _), hvalue.imp_right (List.mem_cons_of_mem _)⟩

/-- A map that is built of values whose maps have keys that are apart is such a value. -/
theorem wellKeyed_ofEntries {pairs : List (Value × Value)} (hkeys : ∀ p ∈ pairs, WellKeyed p.1)
    (hvalues : ∀ p ∈ pairs, WellKeyed p.2) : WellKeyed (map (ofEntries pairs)) := by
  have hfold : ∀ entries : List (Value × Value),
      (∀ e ∈ entries, WellKeyed e.1 ∧ WellKeyed e.2) →
      ∀ e ∈ pairs.foldl (fun entries pair => insertKey pair.1 pair.2 entries) entries,
        WellKeyed e.1 ∧ WellKeyed e.2 := by
    induction pairs with
    | nil => exact fun entries h => h
    | cons pair pairs ih =>
      rw [List.forall_mem_cons] at hkeys hvalues
      refine fun entries h => ih hkeys.2 hvalues.2 _ fun e he => ?_
      obtain ⟨hkey, hvalue⟩ := mem_insertKey he
      constructor
      · rcases hkey with hkey | hkey
        · exact hkey ▸ hkeys.1
        · obtain ⟨f, hf, hsame⟩ := List.mem_map.1 hkey
          exact hsame ▸ (h f hf).1
      · rcases hvalue with hvalue | hvalue
        · exact hvalue ▸ hvalues.1
        · obtain ⟨f, hf, hsame⟩ := List.mem_map.1 hvalue
          exact hsame ▸ (h f hf).2
  have hentries := hfold [] (fun e he => absurd he List.not_mem_nil)
  exact .map (keysApart_ofEntries pairs) (fun e he => (hentries e he).1)
    fun e he => (hentries e he).2

/-! ## Texts of equal values -/

/-- Equal values have the same text exactly if it tells the same of both. -/
theorem display_eq_iff {v w : Value} (h : v.equals w = true) :
    v.display = w.display ↔ v.told = w.told := by
  induction v using inductionOnParts generalizing w with
  | scalar v hv =>
    rcases (equals_scalar_iff hv).1 h with ⟨_, rfl⟩ | ⟨x, y, hx, hy, _⟩
    · exact iff_of_true rfl rfl
    · have hnumber : ∀ {u : Value} {z}, u.numeric? = some z → u.display = u.literal := by
        intro u z hu
        cases u with
        | bool _ | int _ | double _ => rfl
        | _ => cases hu
      rw [hnumber hx, hnumber hy, literal_eq_iff]
  | list vs =>
    obtain ⟨ws, rfl, _⟩ := agrees_list_iff.1 (agrees_of_equals h)
    exact literal_eq_iff (list vs) (list ws)
  | tuple vs =>
    obtain ⟨ws, rfl, _⟩ := agrees_tuple_iff.1 (agrees_of_equals h)
    exact literal_eq_iff (tuple vs) (tuple ws)
  | map es =>
    obtain ⟨fs, rfl, _⟩ := agrees_map_iff.1 (agrees_of_equals h)
    exact literal_eq_iff (map es) (map fs)
  | raw v ih =>
    obtain ⟨w, rfl, hequal⟩ := equals_raw_iff.1 h
    rw [told, told, raw.injEq, ← ih hequal, display, display]

/-- A value of which the text tells everything: there is no object in it and no NaN. -/
inductive Legible : Value → Prop
  | scalar {v : Value} (h : v.isScalar = true) (hobject : v.kind ≠ .object)
      (hnan : v.isSameNaN v = false) : Legible v
  | list {items : List Value} (h : ∀ v ∈ items, Legible v) : Legible (list items)
  | tuple {items : List Value} (h : ∀ v ∈ items, Legible v) : Legible (tuple items)
  | map {entries : List (Value × Value)} (hkeys : ∀ e ∈ entries, Legible e.1)
      (hvalues : ∀ e ∈ entries, Legible e.2) : Legible (map entries)
  | raw {v : Value} (h : Legible v) : Legible (raw v)

theorem Legible.told_eq {v : Value} (h : Legible v) : v.told = v := by
  induction h with
  | @scalar v hv hobject hnan =>
    cases v with
    | double x =>
      have hx : x.isNaN = false := by simpa [isSameNaN] using hnan
      simp [told, hx]
    | object handle => exact absurd rfl hobject
    | list _ | tuple _ | map _ | raw _ => cases hv
    | _ => rfl
  | @list items _ ih => rw [told, toldAll_eq_map, List.map_congr_left ih, List.map_id']
  | @tuple items _ ih => rw [told, toldAll_eq_map, List.map_congr_left ih, List.map_id']
  | @map entries _ _ ihkeys ihvalues =>
    have hentries : ∀ e ∈ entries, (e.1.told, e.2.told) = e := by
      intro e he
      rw [ihkeys e he, ihvalues e he]
    rw [told, toldEntries_eq_map, List.map_congr_left hentries, List.map_id']
  | raw _ ih => rw [told, ih]

/-! ## Raw fragments as keys -/

theorem raw_keyed_eq (v w : Value) : (raw v).keyed (raw w) = (v.display == w.display) := by
  rw [keyed]

/-- Equality of raw fragments is an equivalence, but that a NaN does not equal itself.  Equal
fragments are filed under the same key exactly if their texts tell the same of both: where no object
and no NaN is in them, exactly if they hold the same value.  Otherwise a map may hold both. -/
theorem raw_keyed_iff (u v w : Value) (pairs : List (Value × Value)) :
    ((raw v).equals (raw v) = true ↔ v.isSameNaN v = false) ∧
    (WellKeyed v → (raw v).equals (raw w) = true → (raw w).equals (raw v) = true) ∧
    ((raw u).equals (raw v) = true → (raw v).equals (raw w) = true →
      (raw u).equals (raw w) = true) ∧
    ((raw v).equals (raw w) = true →
      ((raw v).keyed (raw w) = true ↔ v.told = w.told) ∧
      (Legible v → Legible w → ((raw v).keyed (raw w) = true ↔ v = w))) ∧
    (ofEntries pairs).Pairwise fun e f => f.1.equals e.1 = true → f.1.keyed e.1 = false := by
  refine ⟨equals_self_iff (raw v), fun hv h => equals_symm (.raw hv) h, equals_trans, ?_, ?_⟩
  · intro h
    have hkeyed : (raw v).keyed (raw w) = true ↔ v.told = w.told := by
      rw [raw_keyed_eq, beq_iff_eq]
      exact display_eq_iff (by simpa [equals] using h)
    refine ⟨hkeyed, fun hv hw => ?_⟩
    rw [hkeyed, hv.told_eq, hw.told_eq]
  · refine (keysApart_ofEntries pairs).imp fun {e f} hapart hequal => ?_
    rw [sameKey, hequal] at hapart
    simpa using (Bool.or_eq_false_iff.1 hapart).1

/-- Maps in another order with values of other kinds are equal, and filed apart. -/
theorem raw_keyed_iff_maps : ∃ v w, WellKeyed v ∧ Legible v ∧ Legible w ∧
    (raw v).equals (raw w) = true ∧ (raw w).equals (raw v) = true ∧
    (raw v).keyed (raw w) = false := by
  have hlegible : ∀ v ∈ [text "a", text "b", int 0, int 1, bool false, bool true], Legible v := by
    simp only [List.forall_mem_cons, List.not_mem_nil, false_implies, implies_true, and_true]
    exact ⟨.scalar rfl (by decide) rfl, .scalar rfl (by decide) rfl, .scalar rfl (by decide) rfl,
      .scalar rfl (by decide) rfl, .scalar rfl (by decide) rfl, .scalar rfl (by decide) rfl⟩
  have hv : Legible (map [(text "a", int 1), (text "b", bool false)]) :=
    .map (by simp [hlegible]) (by simp [hlegible])
  have hw : Legible (map [(text "b", int 0), (text "a", bool true)]) :=
    .map (by simp [hlegible]) (by simp [hlegible])
  have hwell : WellKeyed (map [(text "a", int 1), (text "b", bool false)]) := by
    refine .map ?_ ?_ ?_
    · simp [KeysApart, sameKey, equals, scalarEquals, isSameNaN]
    · simpa using ⟨WellKeyed.scalar (v := text "a") rfl, WellKeyed.scalar (v := text "b") rfl⟩
    · simpa using ⟨WellKeyed.scalar (v := int 1) rfl, WellKeyed.scalar (v := bool false) rfl⟩
  have hequal : (raw (map [(text "a", int 1), (text "b", bool false)])).equals
      (raw (map [(text "b", int 0), (text "a", bool true)])) = true := by
    simp [equals, entriesIn, scalarEquals, keyed, numeric?, Numeric.equals, isSameNaN]
  obtain ⟨_, hsymm, _, hkeyed, _⟩ := raw_keyed_iff null
    (map [(text "a", int 1), (text "b", bool false)])
    (map [(text "b", int 0), (text "a", bool true)]) []
  refine ⟨_, _, hwell, hv, hw, hequal, hsymm hwell hequal, ?_⟩
  rw [Bool.eq_false_iff, Ne, (hkeyed hequal).2 hv hw]
  simp

/-- The number one and the truth value true are equal, and a map holds a raw fragment of each. -/
theorem raw_equal_keys_kept : (raw (int 1)).equals (raw (bool true)) = true ∧
    (raw (int 1)).keyed (raw (bool true)) = false ∧
    (ofEntries [(raw (int 1), null), (raw (bool true), null)]).length = 2 := by
  have hkeyed : (raw (bool true)).keyed (raw (int 1)) = false := by
    rw [raw_keyed_eq]
    decide
  refine ⟨rfl, ?_, ?_⟩
  · rw [raw_keyed_eq]
    decide
  · simp [ofEntries, insertKey, sameKey, hkeyed, isSameNaN]

end Value

end FluentSql
