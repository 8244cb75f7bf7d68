import FluentSql.Number.Shortest
import FluentSql.Proofs.Numerals
import Mathlib.Algebra.Order.Field.Power
import Mathlib.Data.List.TakeWhile
import Mathlib.Data.Rat.Cast.Order
import Mathlib.Tactic.Linarith
import Mathlib.Tactic.NormNum
import Mathlib.Tactic.Positivity
import Mathlib.Tactic.Ring

/-!
# Texts of doubles

A finite double is a whole number of units in the last place.  The numbers that
round to it lie between the middles to its two neighbours, and so no number
rounds to two doubles.

* `IsRatio` relates a numerator and a denominator to the number they stand for.
* `Magnitude.Rounds` is the interval of a magnitude, and `roundsTo_iff` says
  that it is what decimals are tested for.
* `Magnitude.ofKey` counts the magnitudes of doubles from zero up.  The
  intervals of neighbours touch (`high_ofKey`), and only one of the two takes
  the end that they share (`Rounds.unique`).
* `shortest_rounds` says that the shortest decimal of a double rounds to it,
  because seventeen digits always suffice (`step_lt_interval`).
* `Double.eq_of_value` says that a double is told by its value, but for the two
  zeros.

The text of a double is a sign and a decimal, positional or with an exponent.
The decimal can be read, and what it spells rounds to the double, so that
different doubles have different texts.

* `decimalValue` reads a decimal.
* `AllDigits.spells_positional` and `spells_scientific` say what the two layouts
  spell.
* `Double.text_finite` is the text of a finite double, and `Double.text_injective`
  says that the double is determined by it.
-/

namespace FluentSql.Number

-- Powers are those of the core library, as in the definitions.
attribute [local instance (10000)] instPowNat

/-! ## Fractions -/

/-- A pair of a numerator and a denominator stands for a number. -/
structure IsRatio (r : Nat × Nat) (q : ℚ) : Prop where
  pos : 0 < r.2
  eq : (r.1 : ℚ) = q * r.2

namespace IsRatio

variable {r r' : Nat × Nat} {q q' : ℚ}

theorem le_iff (h : IsRatio r q) (h' : IsRatio r' q') : r.1 * r'.2 ≤ r'.1 * r.2 ↔ q ≤ q' := by
  have hpos : (0 : ℚ) < r.2 * r'.2 := by exact_mod_cast Nat.mul_pos h.pos h'.pos
  have hleft : ((r.1 * r'.2 : ℕ) : ℚ) = q * (r.2 * r'.2) := by
    rw [Nat.cast_mul, h.eq]
    ring
  have hright : ((r'.1 * r.2 : ℕ) : ℚ) = q' * (r.2 * r'.2) := by
    rw [Nat.cast_mul, h'.eq]
    ring
  rw [← @Nat.cast_le ℚ, hleft, hright]
  exact mul_le_mul_iff_of_pos_right hpos

theorem lt_iff (h : IsRatio r q) (h' : IsRatio r' q') : r.1 * r'.2 < r'.1 * r.2 ↔ q < q' := by
  rw [← not_le, ← not_le, h'.le_iff h]

end IsRatio

namespace Decimal

/-- The value of a decimal. -/
def value (d : Decimal) : ℚ := d.digits * 10 ^ d.exponent

theorem isRatio (d : Decimal) : IsRatio d.ratio d.value := by
  unfold ratio value
  split
  · next h =>
    obtain ⟨e, he⟩ := Int.eq_ofNat_of_zero_le h
    exact ⟨Nat.one_pos, by simp [he]⟩
  · next h =>
    obtain ⟨e, he⟩ := Int.eq_ofNat_of_zero_le (show 0 ≤ -d.exponent by omega)
    have hexp : d.exponent = -(e : ℤ) := by omega
    exact ⟨Nat.pow_pos (by decide), by simp [hexp]⟩

theorem value_succ (digits : Nat) (exponent : Int) :
    (Decimal.mk (digits + 1) exponent).value = (Decimal.mk digits exponent).value + 10 ^ exponent := by
  simp only [value]
  push_cast
  ring

/-- Zeros at the end of the digits do not matter. -/
theorem value_dropZeros (fuel : Nat) (d : Decimal) : (d.dropZeros fuel).value = d.value := by
  induction fuel generalizing d with
  | zero => rfl
  | succ fuel ih =>
    rw [dropZeros]
    split
    · next h =>
      obtain ⟨n, hn⟩ := Nat.dvd_of_mod_eq_zero h.2
      rw [ih, value, value, hn, Nat.mul_div_cancel_left n (by decide), zpow_add₀ (by norm_num)]
      push_cast
      ring
    · rfl

end Decimal

/-! ## The interval of a magnitude -/

namespace Magnitude

/-- The value of a magnitude. -/
def value (m : Magnitude) : ℚ := m.significand * 2 ^ m.scale

/-- A quarter of the last place. -/
def quarter (m : Magnitude) : ℚ := 2 ^ (m.scale - 2)

/-- The lower end of what rounds to a magnitude. -/
def low (m : Magnitude) : ℚ :=
  (4 * m.significand - if m.narrowBelow then 1 else 2 : ℕ) * m.quarter

/-- The upper end of what rounds to a magnitude. -/
def high (m : Magnitude) : ℚ := (4 * m.significand + 2 : ℕ) * m.quarter

/-- What rounds to a magnitude: an end does so if the significand is even. -/
structure Rounds (m : Magnitude) (q : ℚ) : Prop where
  low_le : m.low ≤ q
  le_high : q ≤ m.high
  inside : m.significand % 2 = 0 ∨ m.low < q ∧ q < m.high

variable {m : Magnitude}

theorem quarter_pos (m : Magnitude) : 0 < m.quarter := by
  unfold quarter
  positivity

theorem value_eq (m : Magnitude) : m.value = (4 * m.significand : ℕ) * m.quarter := by
  rw [value, quarter, zpow_sub₀ (by norm_num)]
  push_cast
  ring

theorem isRatio_quarters (m : Magnitude) (n : Nat) : IsRatio (m.quarters n) (n * m.quarter) := by
  unfold quarters quarter
  split
  · next h =>
    obtain ⟨e, he⟩ := Int.eq_ofNat_of_zero_le (show 0 ≤ m.scale - 2 by omega)
    exact ⟨Nat.one_pos, by simp [he]⟩
  · next h =>
    obtain ⟨e, he⟩ := Int.eq_ofNat_of_zero_le (show 0 ≤ 2 - m.scale by omega)
    have hexp : m.scale - 2 = -(e : ℤ) := by omega
    exact ⟨Nat.pow_pos (by decide), by simp [hexp, he]⟩

theorem isRatio (m : Magnitude) : IsRatio m.ratio m.value := by
  rw [value_eq]
  exact isRatio_quarters m _

theorem rounds_of_between {q : ℚ} (hlow : m.low < q) (hhigh : q < m.high) : m.Rounds q :=
  ⟨hlow.le, hhigh.le, .inr ⟨hlow, hhigh⟩⟩

theorem roundsTo_iff (d : Decimal) : m.roundsTo d = true ↔ m.Rounds d.value := by
  have hlow := isRatio_quarters m (4 * m.significand - if m.narrowBelow then 1 else 2)
  have hhigh := isRatio_quarters m (4 * m.significand + 2)
  unfold roundsTo
  dsimp only
  split
  · next heven =>
    rw [Bool.and_eq_true, decide_eq_true_iff, decide_eq_true_iff, hlow.le_iff d.isRatio,
      d.isRatio.le_iff hhigh]
    exact ⟨fun h => ⟨h.1, h.2, .inl heven⟩, fun h => ⟨h.low_le, h.le_high⟩⟩
  · next hodd =>
    rw [Bool.and_eq_true, decide_eq_true_iff, decide_eq_true_iff, hlow.lt_iff d.isRatio,
      d.isRatio.lt_iff hhigh]
    exact ⟨fun h => rounds_of_between h.1 h.2, fun h => h.inside.resolve_left hodd⟩

theorem low_lt_high (m : Magnitude) : m.low < m.high := by
  refine mul_lt_mul_of_pos_right ?_ m.quarter_pos
  rw [Nat.cast_lt]
  split <;> omega

theorem low_lt_value (h : 0 < m.significand) : m.low < m.value := by
  rw [value_eq]
  refine mul_lt_mul_of_pos_right ?_ m.quarter_pos
  rw [Nat.cast_lt]
  split <;> omega

theorem value_lt_high (m : Magnitude) : m.value < m.high := by
  rw [value_eq]
  refine mul_lt_mul_of_pos_right ?_ m.quarter_pos
  rw [Nat.cast_lt]
  omega

end Magnitude

/-! ## Neighbours -/

namespace Magnitude

/-- The magnitude of the double whose exponent and fraction are the digits of a number in base
`2 ^ 52`. -/
def ofKey (n : Nat) : Magnitude where
  significand := if n / 2 ^ 52 = 0 then n % 2 ^ 52 else 2 ^ 52 + n % 2 ^ 52
  scale := if n / 2 ^ 52 = 0 then -1074 else (n / 2 ^ 52 : ℕ) - 1075
  narrowBelow := n % 2 ^ 52 == 0 && decide (1 < n / 2 ^ 52)

theorem zero_rounds : (ofKey 0).Rounds 0 := by
  refine ⟨?_, ?_, .inl rfl⟩
  · exact (zero_mul _).le
  · exact mul_nonneg (Nat.cast_nonneg _) (quarter_pos _).le

/-- The intervals of neighbours touch. -/
theorem high_ofKey (n : Nat) : (ofKey n).high = (ofKey (n + 1)).low := by
  have hcarry : (n + 1) / 2 ^ 52 = n / 2 ^ 52 ∧ (n + 1) % 2 ^ 52 = n % 2 ^ 52 + 1 ∨
      (n + 1) / 2 ^ 52 = n / 2 ^ 52 + 1 ∧ (n + 1) % 2 ^ 52 = 0 ∧ n % 2 ^ 52 + 1 = 2 ^ 52 := by
    omega
  unfold high low quarter ofKey
  generalize n % 2 ^ 52 = fraction at hcarry
  generalize n / 2 ^ 52 = exponent at hcarry
  rcases hcarry with ⟨hexponent, hfraction⟩ | ⟨hexponent, hfraction, hlast⟩
  · -- The next double has the same exponent.
    have hnarrow : (fraction + 1 == 0 && decide (1 < exponent)) = false := by simp
    rw [hexponent, hfraction, hnarrow]
    congr 2
    split <;> simp <;> omega
  · obtain rfl : fraction = 2 ^ 52 - 1 := by omega
    rw [hexponent, hfraction]
    rcases Nat.eq_zero_or_pos exponent with rfl | hpos
    · -- The last of the doubles that share the least exponent with the next ones.
      norm_num
    · -- The last place doubles, and the next interval is narrow below.
      have hzero : exponent ≠ 0 := by omega
      have hscale : ((exponent + 1 : ℕ) : ℤ) - 1075 - 2 = (exponent - 1075 - 2) + 1 := by
        push_cast
        ring
      simp only [hzero, if_false, Nat.succ_ne_zero, Nat.lt_add_left_iff_pos, hpos, hscale,
        zpow_add_one₀ (show (2 : ℚ) ≠ 0 by norm_num)]
      norm_num
      ring

theorem high_le_low {n k : Nat} (h : n < k) : (ofKey n).high ≤ (ofKey k).low := by
  induction k with
  | zero => omega
  | succ k ih =>
    rw [← high_ofKey]
    rcases Nat.lt_succ_iff_lt_or_eq.1 h with h | rfl
    · exact (ih h).trans (low_lt_high _).le
    · exact le_rfl

theorem high_lt_low {n k : Nat} (h : n + 1 < k) : (ofKey n).high < (ofKey k).low := by
  rw [high_ofKey]
  exact (low_lt_high _).trans_le (high_le_low h)

theorem significand_ofKey_succ (n : Nat) :
    (ofKey (n + 1)).significand % 2 = 1 ∨ (ofKey n).significand % 2 = 1 := by
  simp only [ofKey]
  split <;> split <;> omega

/-- A number rounds to one magnitude only. -/
theorem Rounds.unique {n k : Nat} {q : ℚ} (hn : (ofKey n).Rounds q) (hk : (ofKey k).Rounds q) :
    n = k := by
  have hapart : ∀ {n k}, n < k → (ofKey n).Rounds q → (ofKey k).Rounds q → False := by
    intro n k hlt hn hk
    have hends : (ofKey n).high = q ∧ (ofKey k).low = q := by
      have hle := high_le_low hlt
      exact ⟨le_antisymm (hle.trans hk.low_le) hn.le_high,
        le_antisymm hk.low_le (hn.le_high.trans hle)⟩
    rcases Nat.lt_or_eq_of_le (show n + 1 ≤ k from hlt) with hfar | rfl
    · exact (high_lt_low hfar).ne (hends.1.trans hends.2.symm)
    · -- Of two neighbours only one takes the end that they share.
      rcases significand_ofKey_succ n with hodd | hodd
      · exact (hk.inside.resolve_left (by omega)).1.ne hends.2
      · exact (hn.inside.resolve_left (by omega)).2.ne' hends.1
  rcases Nat.lt_trichotomy n k with hlt | heq | hlt
  · exact (hapart hlt hn hk).elim
  · exact heq
  · exact (hapart hlt hk hn).elim

end Magnitude

/-! ## The shortest decimal -/

namespace Magnitude

variable {m : Magnitude}

/-- The decimal that is found is the largest that is not above the magnitude. -/
theorem value_le_iff (digits : Nat) (exponent : Int) :
    (Decimal.mk digits exponent).value ≤ m.value ↔ digits ≤ (m.floorAt exponent).digits := by
  have hden := m.isRatio.pos
  rw [← (Decimal.isRatio _).le_iff m.isRatio]
  unfold Decimal.ratio floorAt
  dsimp only
  split
  · rw [Nat.le_div_iff_mul_le (Nat.mul_pos hden (Nat.pow_pos (by decide))), Nat.mul_one,
      Nat.mul_assoc, Nat.mul_comm m.ratio.2]
  · rw [Nat.le_div_iff_mul_le hden]

theorem floorAt_le (m : Magnitude) (exponent : Int) : (m.floorAt exponent).value ≤ m.value :=
  (value_le_iff _ _).2 le_rfl

theorem value_above_floorAt (m : Magnitude) (exponent : Int) :
    (Decimal.mk ((m.floorAt exponent).digits + 1) exponent).value =
      (m.floorAt exponent).value + 10 ^ exponent :=
  Decimal.value_succ _ _

theorem lt_floorAt_add (m : Magnitude) (exponent : Int) :
    m.value < (m.floorAt exponent).value + 10 ^ exponent := by
  have hnext := (value_le_iff (m := m) ((m.floorAt exponent).digits + 1) exponent).not.2 (by omega)
  rw [value_above_floorAt] at hnext
  exact not_le.1 hnext

theorem rounds_of_neighbour? {exponent : Int} {d : Decimal} (h : m.neighbour? exponent = some d) :
    m.Rounds d.value := by
  rw [← roundsTo_iff]
  unfold neighbour? at h
  dsimp only at h
  split at h
  · split at h <;> cases h <;> assumption
  · cases h
    assumption
  · cases h
    assumption
  · cases h

/-- An interval that is longer than a step of the decimals holds one of them, and this is a
neighbour of the magnitude. -/
theorem isSome_neighbour? {exponent : Int} (hpos : 0 < m.significand)
    (h : (10 : ℚ) ^ exponent < m.high - m.low) : (m.neighbour? exponent).isSome = true := by
  have hnone : m.neighbour? exponent = none →
      m.roundsTo (m.floorAt exponent) = false ∧
      m.roundsTo ⟨(m.floorAt exponent).digits + 1, exponent⟩ = false := by
    unfold neighbour?
    dsimp only
    split
    · simp
    · simp
    · simp
    · next hbelow habove => exact fun _ => ⟨hbelow, habove⟩
  rw [Option.isSome_iff_ne_none]
  intro heq
  obtain ⟨hbelow, habove⟩ := hnone heq
  rw [← Bool.not_eq_true, roundsTo_iff] at hbelow habove
  rw [value_above_floorAt] at habove
  have hfloor := m.floorAt_le exponent
  have hnext := m.lt_floorAt_add exponent
  have hlow := low_lt_value hpos
  have hhigh := m.value_lt_high
  by_cases hinside : m.low < (m.floorAt exponent).value
  · exact hbelow (rounds_of_between hinside (by linarith))
  · exact habove (rounds_of_between (by linarith) (by linarith))

theorem shortestFrom_rounds {fuel count : Nat}
    (h : ∃ c, count ≤ c ∧ c < count + fuel ∧
      (m.neighbour? (m.digitsBefore - c)).isSome = true) :
    m.Rounds (m.shortestFrom fuel count).value := by
  induction fuel generalizing count with
  | zero =>
    obtain ⟨c, hle, hlt, _⟩ := h
    omega
  | succ fuel ih =>
    rw [shortestFrom]
    split
    · next d heq => exact rounds_of_neighbour? heq
    · next heq =>
      obtain ⟨c, hle, hlt, hsome⟩ := h
      refine ih ⟨c, ?_, by omega, hsome⟩
      -- The digits that were tried are not those that suffice.
      rcases Nat.lt_or_eq_of_le hle with hlt | rfl
      · exact hlt
      · rw [heq] at hsome
        cases hsome

theorem lt_pow_length (n : Nat) : n < 10 ^ (natDigits n).length :=
  (Nat.length_toDigits_le_iff (by decide) Nat.length_toDigits_pos).1 le_rfl

theorem pow_length_le {n : Nat} (h : 0 < n) : 10 ^ ((natDigits n).length - 1) ≤ n := by
  by_contra hlt
  rcases Nat.eq_zero_or_pos ((natDigits n).length - 1) with hone | hmore
  · rw [hone] at hlt
    omega
  · have hlen := (Nat.length_toDigits_le_iff (by decide) hmore).2 (not_le.1 hlt)
    exact absurd hlen (by rw [← natDigits]; omega)

/-- There are at least as many digits before the point as are counted. -/
theorem digitsBefore_le (hpos : 0 < m.significand) : (10 : ℚ) ^ (m.digitsBefore - 1) ≤ m.value := by
  have hten := fun exponent : Int => (Decimal.mk 1 exponent).isRatio.le_iff m.isRatio
  unfold digitsBefore
  dsimp only
  split
  · next h =>
    have hle := (hten _).1 h
    simpa [Decimal.value] using hle
  · obtain ⟨hden, hnum⟩ := m.isRatio
    have hvalue : 0 < m.value := by
      have hquarter := m.quarter_pos
      rw [value_eq]
      positivity
    have hnumpos : 0 < m.ratio.1 := by
      have hcast : (0 : ℚ) < m.ratio.1 := by
        rw [hnum]
        positivity
      exact_mod_cast hcast
    have hbelow : (10 : ℚ) ^ ((natDigits m.ratio.1).length - 1) ≤ m.ratio.1 := by
      exact_mod_cast pow_length_le hnumpos
    have habove : (m.ratio.2 : ℚ) ≤ 10 ^ (natDigits m.ratio.2).length := by
      exact_mod_cast (lt_pow_length m.ratio.2).le
    have hlen : 0 < (natDigits m.ratio.1).length := Nat.length_toDigits_pos
    generalize (natDigits m.ratio.1).length = before at hbelow hlen
    generalize (natDigits m.ratio.2).length = after at habove
    obtain ⟨k, rfl⟩ : ∃ k, before = k + 1 := ⟨before - 1, by omega⟩
    refine le_of_mul_le_mul_right ?_ (show (0 : ℚ) < m.ratio.2 by exact_mod_cast hden)
    rw [← hnum]
    calc (10 : ℚ) ^ ((((k + 1 : ℕ) : ℤ) - after) - 1) * m.ratio.2
        ≤ 10 ^ ((((k + 1 : ℕ) : ℤ) - after) - 1) * 10 ^ after :=
          mul_le_mul_of_nonneg_left habove (by positivity)
      _ = 10 ^ k := by
          rw [← zpow_natCast, ← zpow_natCast, ← zpow_add₀ (by norm_num)]
          congr 1
          push_cast
          ring
      _ ≤ m.ratio.1 := by simpa using hbelow

theorem significand_lt (n : Nat) : (ofKey n).significand < 2 ^ 53 := by
  simp only [ofKey]
  split <;> omega

theorem significand_of_narrow {n : Nat} (h : (ofKey n).narrowBelow = true) :
    (ofKey n).significand = 2 ^ 52 := by
  simp only [ofKey, Bool.and_eq_true, beq_iff_eq, decide_eq_true_iff] at h ⊢
  split <;> omega

/-- Seventeen digits suffice: the interval of a double is longer than their last place. -/
theorem step_lt_interval {n : Nat} (hpos : 0 < (ofKey n).significand) :
    (10 : ℚ) ^ ((ofKey n).digitsBefore - (17 : ℕ)) < (ofKey n).high - (ofKey n).low := by
  have hquarter := (ofKey n).quarter_pos
  have hstep : (10 : ℚ) ^ ((ofKey n).digitsBefore - (17 : ℕ)) ≤
      (4 * (ofKey n).significand : ℕ) * (ofKey n).quarter * 10 ^ (-16 : ℤ) := by
    rw [← value_eq, show (ofKey n).digitsBefore - (17 : ℕ) = (ofKey n).digitsBefore - 1 + -16 by
      omega, zpow_add₀ (by norm_num)]
    exact mul_le_mul_of_nonneg_right (digitsBefore_le hpos) (by positivity)
  refine hstep.trans_lt ?_
  -- In quarters of the last place: fewer than 2 ^ 55, and no more than 2 ^ 54 if the interval is
  -- narrow below, against the four or three of the interval.
  have hlength : (4 * (ofKey n).significand : ℕ) * (10 : ℚ) ^ (-16 : ℤ) <
      (4 * (ofKey n).significand + 2 : ℕ) -
        (4 * (ofKey n).significand - if (ofKey n).narrowBelow then 1 else 2 : ℕ) := by
    cases hnarrow : (ofKey n).narrowBelow with
    | true =>
      rw [significand_of_narrow hnarrow]
      norm_num
    | false =>
      have hbound : ((ofKey n).significand : ℚ) < 9007199254740992 := by
        exact_mod_cast significand_lt n
      rw [if_neg Bool.false_ne_true, Nat.cast_sub (by omega)]
      push_cast
      norm_num
      linarith
  calc (4 * (ofKey n).significand : ℕ) * (ofKey n).quarter * 10 ^ (-16 : ℤ)
      = (4 * (ofKey n).significand : ℕ) * (10 : ℚ) ^ (-16 : ℤ) * (ofKey n).quarter := by ring
    _ < _ := mul_lt_mul_of_pos_right hlength hquarter
    _ = (ofKey n).high - (ofKey n).low := by
      rw [high, low]
      ring

theorem shortest_rounds {n : Nat} (hpos : 0 < (ofKey n).significand) :
    (ofKey n).Rounds (ofKey n).shortest.value := by
  rw [shortest, Decimal.value_dropZeros]
  exact shortestFrom_rounds ⟨17, by omega, by omega, isSome_neighbour? hpos (step_lt_interval hpos)⟩

end Magnitude

/-! ## Doubles -/

namespace Double

open Magnitude

/-- The bits without the sign. -/
def key (x : Double) : Nat := x.bits.toNat % 2 ^ 63

/-- The value of a finite double. -/
def value (x : Double) : ℚ := (if x.isNegative then -1 else 1) * (ofKey x.key).value

variable {x y : Double}

theorem exponentBits_eq (x : Double) : x.exponentBits = x.key / 2 ^ 52 := by
  unfold exponentBits key
  omega

theorem fractionBits_eq (x : Double) : x.fractionBits = x.key % 2 ^ 52 := by
  unfold fractionBits key
  omega

theorem ofDouble_eq (x : Double) : ofDouble x = ofKey x.key := by
  unfold ofDouble significand scale
  rw [exponentBits_eq, fractionBits_eq]
  rfl

/-- A double is told by its sign and its other bits. -/
theorem eq_of_key (hsign : x.isNegative = y.isNegative) (hkey : x.key = y.key) : x = y := by
  have hbits : x.bits.toNat = y.bits.toNat := by
    have hx := x.bits.toNat_lt
    have hy := y.bits.toNat_lt
    unfold isNegative at hsign
    unfold key at hkey
    rw [Bool.eq_iff_iff, beq_iff_eq, beq_iff_eq] at hsign
    omega
  cases x
  cases y
  exact congrArg _ (UInt64.toNat_inj.1 hbits)

theorem isZero_iff (x : Double) : x.isZero = true ↔ x.key = 0 := by
  unfold isZero significand
  rw [exponentBits_eq, fractionBits_eq, beq_iff_eq]
  split <;> omega

theorem key_infinite (h : x.isInfinite = true) : x.key = 2047 * 2 ^ 52 := by
  unfold isInfinite at h
  rw [exponentBits_eq, fractionBits_eq, Bool.and_eq_true, beq_iff_eq, beq_iff_eq] at h
  omega

theorem value_eq (x : Double) :
    x.value = (if x.isNegative then -x.significand else x.significand : ℤ) * 2 ^ x.scale := by
  have hmagnitude : (ofKey x.key).value = x.significand * 2 ^ x.scale := by
    rw [← ofDouble_eq]
    rfl
  rw [value, hmagnitude]
  split <;> push_cast <;> ring

theorem value_eq_zero_iff (x : Double) : x.value = 0 ↔ x.isZero = true := by
  have hscale : (2 : ℚ) ^ x.scale ≠ 0 := by positivity
  rw [value_eq, mul_eq_zero, or_iff_left hscale, Int.cast_eq_zero, isZero, beq_iff_eq]
  split <;> omega

/-- Doubles with the same value are the same, but for the two zeros. -/
theorem eq_of_value (h : x.value = y.value) : x = y ∨ x.isZero = true ∧ y.isZero = true := by
  by_cases hzero : x.value = 0
  · right
    rw [← value_eq_zero_iff, ← value_eq_zero_iff, ← h]
    exact ⟨hzero, hzero⟩
  · left
    have hrounds : ∀ z : Double, z.value ≠ 0 →
        0 < (ofKey z.key).value ∧ (ofKey z.key).Rounds (ofKey z.key).value := by
      intro z hz
      have hpos : 0 < (ofKey z.key).significand := by
        rw [Ne, value_eq_zero_iff, isZero, beq_iff_eq] at hz
        rw [← ofDouble_eq]
        exact Nat.pos_of_ne_zero hz
      refine ⟨?_, rounds_of_between (low_lt_value hpos) (value_lt_high _)⟩
      rw [Magnitude.value]
      positivity
    obtain ⟨hxpos, hx⟩ := hrounds x hzero
    obtain ⟨hypos, hy⟩ := hrounds y (h ▸ hzero)
    unfold value at h
    have hsign : x.isNegative = y.isNegative := by
      cases hxs : x.isNegative <;> cases hys : y.isNegative <;> simp [hxs, hys] at h ⊢ <;> linarith
    have hsame : (ofKey x.key).value = (ofKey y.key).value := by
      rw [hsign] at h
      refine mul_left_cancel₀ ?_ h
      split <;> norm_num
    rw [hsame] at hx
    exact eq_of_key hsign (hx.unique hy)

/-- The fraction of a double is its value. -/
theorem ratio_value (x : Double) : (x.ratio.1 : ℚ) = x.value * x.ratio.2 ∧ 0 < x.ratio.2 := by
  rw [value_eq]
  unfold ratio
  dsimp only
  split
  · next h =>
    obtain ⟨e, he⟩ := Int.eq_ofNat_of_zero_le h
    exact ⟨by simp [he], Nat.one_pos⟩
  · next h =>
    obtain ⟨e, he⟩ := Int.eq_ofNat_of_zero_le (show 0 ≤ -x.scale by omega)
    have hexp : x.scale = -(e : ℤ) := by omega
    exact ⟨by simp [hexp], Nat.pow_pos (by decide)⟩

theorem equalsInt_iff (i : Int) :
    x.equalsInt i = true ↔ x.isNaN = false ∧ x.isInfinite = false ∧ x.value = i := by
  obtain ⟨hratio, hpos⟩ := x.ratio_value
  have hden : (x.ratio.2 : ℚ) ≠ 0 := by exact_mod_cast hpos.ne'
  have hvalue : x.ratio.1 = i * x.ratio.2 ↔ x.value = i := by
    rw [← @Int.cast_inj ℚ, hratio]
    push_cast
    exact mul_left_inj' hden
  unfold equalsInt
  simp only [Bool.and_eq_true, Bool.not_eq_true', beq_iff_eq, hvalue, and_assoc]

end Double

/-! ## Reading a decimal -/

/-- The number that digits with a point between them spell. -/
def pointedValue (cs : List Char) : ℚ :=
  let fraction := (cs.dropWhile (· ≠ '.')).tail
  Nat.ofDigitChars 10 (cs.takeWhile (· ≠ '.') ++ fraction) 0 * 10 ^ (-fraction.length : ℤ)

/-- The exponent that a sign and digits spell, behind its mark. -/
def exponentValue : List Char → ℤ
  | _ :: '-' :: digits => -Nat.ofDigitChars 10 digits 0
  | _ :: _ :: digits => Nat.ofDigitChars 10 digits 0
  | _ => 0

/-- The number that a decimal spells. -/
def decimalValue (cs : List Char) : ℚ :=
  pointedValue (cs.takeWhile (· ≠ 'e')) * 10 ^ exponentValue (cs.dropWhile (· ≠ 'e'))

/-- A text without a sign that spells a number, and that is no whole number by the looks of it. -/
structure Spells (cs : List Char) (q : ℚ) : Prop where
  begins : ∃ c rest, cs = c :: rest ∧ c.isDigit = true
  plain : ∀ c ∈ cs, c.isDigit = true ∨ c ∈ ['.', 'e', '+', '-']
  marked : '.' ∈ cs ∨ 'e' ∈ cs
  value : decimalValue cs = q

namespace Spells

variable {cs : List Char} {q : ℚ}

theorem head?_ne (h : Spells cs q) : cs.head? ≠ some '-' := by
  obtain ⟨c, rest, rfl, hc⟩ := h.begins
  simp only [List.head?_cons, ne_eq, Option.some.injEq]
  rintro rfl
  cases hc

theorem ne_inf (h : Spells cs q) : cs ≠ "inf".toList := by
  obtain ⟨c, rest, rfl, hc⟩ := h.begins
  intro heq
  obtain rfl : c = 'i' := List.head_eq_of_cons_eq heq
  cases hc

end Spells

theorem takeWhile_ne_append {mark : Char} {cs : List Char} (h : mark ∉ cs) (rest : List Char) :
    (cs ++ mark :: rest).takeWhile (· ≠ mark) = cs ∧
      (cs ++ mark :: rest).dropWhile (· ≠ mark) = mark :: rest := by
  have hall : ∀ c ∈ cs, (decide (c ≠ mark)) = true := by
    intro c hc
    simpa using fun heq : c = mark => h (heq ▸ hc)
  rw [List.takeWhile_append_of_pos hall, List.dropWhile_append_of_pos hall]
  simp

theorem takeWhile_ne_self {mark : Char} {cs : List Char} (h : mark ∉ cs) :
    cs.takeWhile (· ≠ mark) = cs ∧ cs.dropWhile (· ≠ mark) = [] := by
  have hall : ∀ c ∈ cs, (decide (c ≠ mark)) = true := by
    intro c hc
    simpa using fun heq : c = mark => h (heq ▸ hc)
  exact ⟨List.takeWhile_eq_self_iff.2 hall, List.dropWhile_eq_nil_iff.2 hall⟩

theorem decimalValue_pointed {cs : List Char} (h : 'e' ∉ cs) : decimalValue cs = pointedValue cs := by
  rw [decimalValue, (takeWhile_ne_self h).1, (takeWhile_ne_self h).2]
  simp [exponentValue]

theorem pointedValue_append {whole : List Char} (h : '.' ∉ whole) (fraction : List Char) :
    pointedValue (whole ++ '.' :: fraction) =
      Nat.ofDigitChars 10 (whole ++ fraction) 0 * 10 ^ (-fraction.length : ℤ) := by
  rw [pointedValue, (takeWhile_ne_append h fraction).1, (takeWhile_ne_append h fraction).2]
  rfl

theorem pointedValue_whole {whole : List Char} (h : '.' ∉ whole) :
    pointedValue whole = Nat.ofDigitChars 10 whole 0 := by
  rw [pointedValue, (takeWhile_ne_self h).1, (takeWhile_ne_self h).2]
  simp

theorem decimalValue_exponent {mantissa : List Char} (h : 'e' ∉ mantissa) (exponent : List Char) :
    decimalValue (mantissa ++ 'e' :: exponent) =
      pointedValue mantissa * 10 ^ exponentValue ('e' :: exponent) := by
  rw [decimalValue, (takeWhile_ne_append h exponent).1, (takeWhile_ne_append h exponent).2]

/-! ## Layouts -/

/-- Decimal digits and nothing else. -/
def AllDigits (cs : List Char) : Prop := ∀ c ∈ cs, c.isDigit = true

namespace AllDigits

variable {xs ys digits whole fraction : List Char}

theorem append (hx : AllDigits xs) (hy : AllDigits ys) : AllDigits (xs ++ ys) := by
  intro c hc
  rcases List.mem_append.1 hc with hc | hc
  · exact hx c hc
  · exact hy c hc

theorem replicate_zero (n : Nat) : AllDigits (List.replicate n '0') := by
  intro c hc
  rw [List.eq_of_mem_replicate hc]
  decide

theorem take (h : AllDigits xs) (n : Nat) : AllDigits (xs.take n) :=
  fun c hc => h c (List.mem_of_mem_take hc)

theorem drop (h : AllDigits xs) (n : Nat) : AllDigits (xs.drop n) :=
  fun c hc => h c (List.mem_of_mem_drop hc)

theorem not_mem (h : AllDigits xs) {c : Char} (hc : c.isDigit = false) : c ∉ xs := by
  intro hmem
  rw [h c hmem] at hc
  cases hc

/-- Digits, a point and digits. -/
theorem spells_pointed (hsome : whole ≠ []) (hwhole : AllDigits whole)
    (hfraction : AllDigits fraction) :
    Spells (whole ++ '.' :: fraction)
      (Nat.ofDigitChars 10 (whole ++ fraction) 0 * 10 ^ (-fraction.length : ℤ)) := by
  have hmem : ∀ c ∈ whole ++ '.' :: fraction, c.isDigit = true ∨ c = '.' := by
    intro c hc
    simp only [List.mem_append, List.mem_cons] at hc
    rcases hc with hc | hc | hc
    · exact .inl (hwhole c hc)
    · exact .inr hc
    · exact .inl (hfraction c hc)
  refine ⟨?_, fun c hc => ?_, .inl (by simp), ?_⟩
  · cases whole with
    | nil => exact absurd rfl hsome
    | cons c rest => exact ⟨c, rest ++ '.' :: fraction, rfl, hwhole c List.mem_cons_self⟩
  · rcases hmem c hc with hdigit | rfl
    · exact .inl hdigit
    · exact .inr (by simp)
  · rw [decimalValue_pointed, pointedValue_append (hwhole.not_mem (by decide))]
    intro he
    rcases hmem _ he with hdigit | hpoint
    · cases hdigit
    · cases hpoint

/-- A decimal without an exponent. -/
theorem spells_positional (h : AllDigits digits) (before : ℤ) :
    Spells (DoubleStyle.positional digits before)
      (Nat.ofDigitChars 10 digits 0 * 10 ^ (before - digits.length)) := by
  unfold DoubleStyle.positional
  split
  · next hbefore =>
    obtain ⟨zeros, hzeros⟩ := Int.eq_ofNat_of_zero_le (show 0 ≤ -before by omega)
    have hspells := spells_pointed (List.cons_ne_nil '0' []) (replicate_zero 1)
      ((replicate_zero zeros).append h)
    have hvalue : Nat.ofDigitChars 10 (['0'] ++ (List.replicate zeros '0' ++ digits)) 0 =
        Nat.ofDigitChars 10 digits 0 := by
      simp [Nat.ofDigitChars_append, Nat.ofDigitChars_cons]
    have hexp : -((List.replicate zeros '0' ++ digits).length : ℤ) = before - digits.length := by
      rw [List.length_append, List.length_replicate]
      push_cast
      omega
    rw [hvalue, hexp] at hspells
    rw [hzeros]
    exact hspells
  · next hbefore =>
    obtain ⟨n, rfl⟩ := Int.eq_ofNat_of_zero_le (show 0 ≤ before by omega)
    have hwhole : AllDigits (digits.take n ++ List.replicate (n - digits.length) '0') :=
      (h.take n).append (replicate_zero _)
    have hsome : digits.take n ++ List.replicate (n - digits.length) '0' ≠ [] := by
      intro hnil
      have hlen := congrArg List.length hnil
      simp only [List.length_append, List.length_take, List.length_replicate,
        List.length_nil] at hlen
      omega
    dsimp only [Int.toNat_natCast]
    split
    · next hshort =>
      -- Zeros fill the digits up to the point, and one stands behind it.
      have hlen : digits.length ≤ n := List.drop_eq_nil_iff.1 hshort
      obtain ⟨zeros, rfl⟩ := Nat.exists_eq_add_of_le hlen
      have hspells := spells_pointed hsome hwhole (replicate_zero 1)
      have hvalue : (Nat.ofDigitChars 10 (digits.take (digits.length + zeros) ++
          List.replicate (digits.length + zeros - digits.length) '0' ++ List.replicate 1 '0') 0 : ℚ) *
            10 ^ (-(List.replicate 1 '0').length : ℤ) =
          Nat.ofDigitChars 10 digits 0 * 10 ^ ((digits.length + zeros : ℕ) - digits.length : ℤ) := by
        rw [List.take_of_length_le hlen, List.append_assoc, List.replicate_append_replicate,
          Nat.ofDigitChars_append, Nat.ofDigitChars_replicate_zero, List.length_replicate,
          Nat.add_sub_cancel_left, show ((digits.length + zeros : ℕ) - digits.length : ℤ) = zeros by
            omega, zpow_natCast]
        push_cast
        rw [pow_succ, zpow_neg_one]
        ring
      rw [← hvalue]
      exact hspells
    · next hlong =>
      have hlen : n ≤ digits.length := by
        by_contra hlt
        exact hlong (List.drop_eq_nil_iff.2 (by omega))
      have hspells := spells_pointed hsome hwhole (h.drop n)
      convert hspells using 1
      rw [Nat.sub_eq_zero_of_le hlen, List.replicate_zero, List.append_nil, List.take_append_drop,
        List.length_drop]
      congr 2
      omega

theorem exponentValue_padLeft (exponent : ℤ) :
    exponentValue ('e' :: (if exponent < 0 then '-' else '+') ::
      padLeft 2 (natDigits exponent.natAbs)) = exponent := by
  have hdigits : Nat.ofDigitChars 10 (padLeft 2 (natDigits exponent.natAbs)) 0 =
      exponent.natAbs := by
    rw [padLeft, Nat.ofDigitChars_append, Nat.ofDigitChars_replicate_zero, Nat.mul_zero]
    exact Nat.ofDigitChars_ten_toDigits
  split
  · rw [exponentValue, hdigits]
    omega
  · rw [exponentValue, hdigits]
    · omega
    · decide

theorem spells_exponent {first : Char} {rest : List Char} (hfirst : first.isDigit = true)
    (hrest : ∀ c ∈ rest, c.isDigit = true ∨ c = '.') (exponent : ℤ) :
    Spells (first :: rest ++ 'e' :: (if exponent < 0 then '-' else '+') ::
        padLeft 2 (natDigits exponent.natAbs))
      (pointedValue (first :: rest) * 10 ^ exponent) := by
  have hmantissa : ∀ c ∈ first :: rest, c.isDigit = true ∨ c = '.' := by
    intro c hc
    rcases List.mem_cons.1 hc with rfl | hc
    · exact .inl hfirst
    · exact hrest c hc
  have hdigits : AllDigits (padLeft 2 (natDigits exponent.natAbs)) :=
    (replicate_zero _).append fun _ => natDigits_isDigit
  refine ⟨⟨first, _, rfl, hfirst⟩, fun c hc => ?_, .inr (by simp), ?_⟩
  · rcases List.mem_append.1 hc with hc | hc
    · rcases hmantissa c hc with hdigit | rfl
      · exact .inl hdigit
      · exact .inr (by simp)
    · rcases List.mem_cons.1 hc with rfl | hc
      · exact .inr (by simp)
      · rcases List.mem_cons.1 hc with rfl | hc
        · right
          split <;> simp
        · exact .inl (hdigits c hc)
  · rw [decimalValue_exponent, exponentValue_padLeft]
    intro he
    rcases hmantissa _ he with hdigit | hpoint
    · cases hdigit
    · cases hpoint

/-- A decimal with an exponent. -/
theorem spells_scientific (h : AllDigits digits) (hsome : digits ≠ []) (before : ℤ) :
    Spells (DoubleStyle.scientific digits before)
      (Nat.ofDigitChars 10 digits 0 * 10 ^ (before - digits.length)) := by
  obtain ⟨first, rest, rfl⟩ := List.exists_cons_of_ne_nil hsome
  have hfirst : first.isDigit = true := h first List.mem_cons_self
  have hpoint : '.' ∉ [first] := by
    intro hmem
    rw [← List.eq_of_mem_singleton hmem] at hfirst
    cases hfirst
  -- One digit stands before the point, and the others behind it.
  cases rest with
  | nil =>
    have hspells := @spells_exponent first [] hfirst (by simp) (before - 1)
    rw [pointedValue_whole hpoint] at hspells
    exact hspells
  | cons second rest =>
    have hspells := @spells_exponent first ('.' :: second :: rest) hfirst (by
      intro c hc
      rcases List.mem_cons.1 hc with rfl | hc
      · exact .inr rfl
      · exact .inl (h c (List.mem_cons_of_mem first hc))) (before - 1)
    have hvalue : pointedValue (first :: '.' :: second :: rest) =
        Nat.ofDigitChars 10 (first :: second :: rest) 0 * 10 ^ (-(second :: rest).length : ℤ) :=
      pointedValue_append hpoint (second :: rest)
    have hexp : -((second :: rest).length : ℤ) + (before - 1) =
        before - (first :: second :: rest).length := by
      simp only [List.length_cons]
      omega
    rw [hvalue, mul_assoc, ← zpow_add₀ (by norm_num), hexp] at hspells
    exact hspells

end AllDigits

/-! ## Texts of doubles -/

namespace Double

open Magnitude

/-- The sign of a double in its text. -/
def signText (x : Double) : List Char := if x.isNegative then ['-'] else []

/-- The text of a finite double is its sign and a decimal that rounds to it. -/
theorem text_finite (style : DoubleStyle) {x : Double} (hnan : x.isNaN = false)
    (hfinite : x.isInfinite = false) :
    ∃ body q, (style.text x).toList = x.signText ++ body ∧ Spells body q ∧
      (ofKey x.key).Rounds q := by
  have hsign : (if x.isNegative then "-" else "").toList = x.signText := by
    unfold signText
    split <;> rfl
  unfold DoubleStyle.text
  rw [hnan, hfinite, if_neg Bool.false_ne_true]
  dsimp only
  rw [if_neg Bool.false_ne_true]
  split
  · next hzero =>
    refine ⟨['0', '.', '0'], 0, ?_, ?_, ?_⟩
    · rw [String.toList_append, hsign]
      rfl
    · have hspells := AllDigits.spells_pointed (List.cons_ne_nil '0' [])
        (AllDigits.replicate_zero 1) (AllDigits.replicate_zero 1)
      simpa [Nat.ofDigitChars_cons] using hspells
    · rw [(isZero_iff x).1 hzero]
      exact zero_rounds
  · next hzero =>
    have hpos : 0 < (ofKey x.key).significand := by
      rw [isZero, beq_iff_eq] at hzero
      rw [← ofDouble_eq]
      exact Nat.pos_of_ne_zero hzero
    rw [ofDouble_eq]
    generalize hd : (ofKey x.key).shortest = d
    have hrounds : (ofKey x.key).Rounds d.value := hd ▸ shortest_rounds hpos
    have hdigits : AllDigits (natDigits d.digits) := fun c => natDigits_isDigit
    have hvalue : (Nat.ofDigitChars 10 (natDigits d.digits) 0 : ℚ) *
        10 ^ (d.exponent + (natDigits d.digits).length - (natDigits d.digits).length) = d.value := by
      rw [natDigits, Nat.ofDigitChars_ten_toDigits, add_sub_cancel_right]
      rfl
    rw [String.toList_append, hsign, String.toList_ofList]
    refine ⟨_, d.value, rfl, ?_, hrounds⟩
    rw [← hvalue]
    split
    · exact hdigits.spells_positional _
    · exact hdigits.spells_scientific Nat.toDigits_ne_nil _

theorem text_infinite (style : DoubleStyle) {x : Double} (h : x.isInfinite = true) :
    (style.text x).toList = x.signText ++ style.infinity.toList := by
  have hnan : x.isNaN = false := by
    unfold isInfinite at h
    unfold isNaN
    simp_all
  unfold DoubleStyle.text signText
  rw [hnan, h, if_neg Bool.false_ne_true]
  dsimp only
  rw [if_pos rfl, String.toList_append]
  split <;> rfl

theorem signText_append_inj {x y : Double} {xs ys : List Char} (hx : xs.head? ≠ some '-')
    (hy : ys.head? ≠ some '-') (h : x.signText ++ xs = y.signText ++ ys) :
    x.isNegative = y.isNegative ∧ xs = ys := by
  unfold signText at h
  cases hxs : x.isNegative <;> cases hys : y.isNegative <;> rw [hxs, hys] at h
  · exact ⟨rfl, h⟩
  · exact absurd (congrArg List.head? h) hx
  · exact absurd (congrArg List.head? h).symm hy
  · exact ⟨rfl, List.tail_eq_of_cons_eq h⟩

/-- Different doubles have different texts, if they stand for numbers. -/
theorem text_injective {x y : Double} (hx : x.isNaN = false) (hy : y.isNaN = false)
    (h : DoubleStyle.plain.text x = DoubleStyle.plain.text y) : x = y := by
  have hinfinity : "inf".toList.head? ≠ some '-' := by decide
  have hlist := congrArg String.toList h
  cases hxi : x.isInfinite <;> cases hyi : y.isInfinite
  · obtain ⟨xs, q, hxs, hxspells, hxrounds⟩ := text_finite .plain hx hxi
    obtain ⟨ys, r, hys, hyspells, hyrounds⟩ := text_finite .plain hy hyi
    rw [hxs, hys] at hlist
    obtain ⟨hsign, rfl⟩ := signText_append_inj hxspells.head?_ne hyspells.head?_ne hlist
    rw [← hxspells.value] at hxrounds
    rw [← hyspells.value] at hyrounds
    exact eq_of_key hsign (hxrounds.unique hyrounds)
  · obtain ⟨xs, q, hxs, hxspells, _⟩ := text_finite .plain hx hxi
    rw [hxs, text_infinite .plain hyi] at hlist
    exact absurd (signText_append_inj hxspells.head?_ne hinfinity hlist).2 hxspells.ne_inf
  · obtain ⟨ys, q, hys, hyspells, _⟩ := text_finite .plain hy hyi
    rw [text_infinite .plain hxi, hys] at hlist
    exact absurd (signText_append_inj hinfinity hyspells.head?_ne hlist).2.symm hyspells.ne_inf
  · rw [text_infinite .plain hxi, text_infinite .plain hyi] at hlist
    have hsign := (signText_append_inj hinfinity hinfinity hlist).1
    exact eq_of_key hsign ((key_infinite hxi).trans (key_infinite hyi).symm)

theorem text_nan (style : DoubleStyle) {x : Double} (h : x.isNaN = true) :
    style.text x = style.nan := by
  rw [DoubleStyle.text, if_pos h]

/-- A double that stands for a number has a sign and a word or a decimal. -/
theorem text_unsigned {x : Double} (hnan : x.isNaN = false) :
    ∃ body, (DoubleStyle.plain.text x).toList = x.signText ++ body ∧
      (body = "inf".toList ∨ ∃ q, Spells body q) := by
  cases hinfinite : x.isInfinite with
  | true => exact ⟨_, text_infinite .plain hinfinite, .inl rfl⟩
  | false =>
    obtain ⟨body, q, htext, hspells, _⟩ := text_finite .plain hnan hinfinite
    exact ⟨body, htext, .inr ⟨q, hspells⟩⟩

/-- The characters of the text of a double. -/
theorem text_word (x : Double) : ∀ c ∈ (DoubleStyle.plain.text x).toList,
    c.isDigit = true ∨ c ∈ ['.', 'e', '+', '-', 'i', 'n', 'f', 'a'] := by
  have hletters : ∀ s : List Char, (∀ c ∈ s, c ∈ ['.', 'e', '+', '-', 'i', 'n', 'f', 'a']) →
      ∀ c ∈ s, c.isDigit = true ∨ c ∈ ['.', 'e', '+', '-', 'i', 'n', 'f', 'a'] :=
    fun s hs c hc => .inr (hs c hc)
  cases hnan : x.isNaN with
  | true =>
    rw [text_nan .plain hnan]
    exact hletters "nan".toList (by simp)
  | false =>
    obtain ⟨body, htext, hbody⟩ := text_unsigned hnan
    intro c hc
    rw [htext, List.mem_append] at hc
    rcases hc with hsign | hc
    · have hminus : c = '-' := by
        unfold signText at hsign
        split at hsign <;> simp_all
      exact .inr (by simp [hminus])
    · rcases hbody with rfl | ⟨q, hspells⟩
      · exact hletters "inf".toList (by simp) c hc
      · rcases hspells.plain c hc with hdigit | hmark
        · exact .inl hdigit
        · right
          simp only [List.mem_cons, List.not_mem_nil, or_false] at hmark ⊢
          tauto

/-- A double does not look like a whole number. -/
theorem text_marked (x : Double) : ∃ c ∈ (DoubleStyle.plain.text x).toList,
    c.isDigit = false ∧ c ≠ '-' := by
  cases hnan : x.isNaN with
  | true =>
    rw [text_nan .plain hnan]
    exact ⟨'n', by decide, by decide, by decide⟩
  | false =>
    obtain ⟨body, htext, hbody⟩ := text_unsigned hnan
    have hmarked : ∃ c ∈ body, c.isDigit = false ∧ c ≠ '-' := by
      rcases hbody with rfl | ⟨q, hspells⟩
      · exact ⟨'i', by decide, by decide, by decide⟩
      · rcases hspells.marked with hc | hc
        · exact ⟨'.', hc, by decide, by decide⟩
        · exact ⟨'e', hc, by decide, by decide⟩
    obtain ⟨c, hc, hmark⟩ := hmarked
    exact ⟨c, by rw [htext]; exact List.mem_append_right _ hc, hmark⟩

/-- Only the text of a NaN starts with this letter. -/
theorem text_eq_nan_iff (x : Double) : DoubleStyle.plain.text x = "nan" ↔ x.isNaN = true := by
  refine ⟨fun h => ?_, text_nan .plain⟩
  cases hnan : x.isNaN with
  | true => rfl
  | false =>
    obtain ⟨body, htext, hbody⟩ := text_unsigned hnan
    have hsame : ['n', 'a', 'n'] = x.signText ++ body := by
      rw [← htext, h]
      rfl
    unfold signText at hsame
    split at hsame
    · cases List.head_eq_of_cons_eq hsame
    · rcases hbody with rfl | ⟨q, hspells⟩
      · cases List.head_eq_of_cons_eq hsame
      · obtain ⟨c, rest, rfl, hc⟩ := hspells.begins
        rw [← List.head_eq_of_cons_eq hsame] at hc
        cases hc

end Double

end FluentSql.Number
