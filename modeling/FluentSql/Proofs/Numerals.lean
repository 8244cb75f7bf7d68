import FluentSql.Number.Decimal
import FluentSql.Number.Numeral

/-!
# Numerals of whole numbers

A whole number written in base ten is a numeral, and is read back from it
unless it has more digits than a numeral may have.

* `natText_injective` and `intText_injective` say that different numbers are
  written differently.
* `IsSigned` is an optional sign with digits after it, and `intText_isSigned`
  says that an integer is written so.
* `readInt_intText` reads the integer back.
-/

namespace FluentSql.Number

/-! ## Different numbers -/

theorem natDigits_isDigit {n : Nat} {c : Char} (h : c ∈ natDigits n) : c.isDigit = true :=
  Nat.isDigit_of_mem_toDigits (by decide) (by decide) h

theorem natText_injective {n m : Nat} (h : natText n = natText m) : n = m := by
  have hdigits : natDigits n = natDigits m := by
    rw [natText, natText, String.ofList_inj] at h
    exact h
  calc n = Nat.ofDigitChars 10 (natDigits n) 0 := Nat.ofDigitChars_ten_toDigits.symm
    _ = Nat.ofDigitChars 10 (natDigits m) 0 := by rw [hdigits]
    _ = m := Nat.ofDigitChars_ten_toDigits

theorem toList_natText (n : Nat) : (natText n).toList = natDigits n :=
  String.toList_ofList

theorem toList_minus_natText (n : Nat) : ("-" ++ natText n).toList = '-' :: natDigits n := by
  rw [String.toList_append, toList_natText]
  rfl

/-- A number without a sign does not start with one. -/
theorem natText_ne_signed (n m : Nat) : natText n ≠ "-" ++ natText m := by
  intro h
  have hlist : natDigits n = '-' :: natDigits m := by
    rw [← toList_natText, h, toList_minus_natText]
  have hsign : '-' ∈ natDigits n := by
    rw [hlist]
    exact List.mem_cons_self
  exact absurd (natDigits_isDigit hsign) (by decide)

theorem intText_injective {i j : Int} (h : intText i = intText j) : i = j := by
  unfold intText at h
  split at h
  · rename_i hi
    split at h
    · rename_i hj
      have habs := natText_injective (String.append_right_inj "-" |>.1 h)
      omega
    · exact absurd h.symm (natText_ne_signed _ _)
  · rename_i hi
    split at h
    · exact absurd h (natText_ne_signed _ _)
    · have habs := natText_injective h
      omega

/-! ## Signed numerals -/

/-- Decimal digits, at least one of them, with an optional minus sign before them. -/
def IsSigned (cs : List Char) : Prop :=
  ∃ digits : List Char, digits ≠ [] ∧ (∀ c ∈ digits, c.isDigit = true) ∧
    (cs = digits ∨ cs = '-' :: digits)

theorem intText_isSigned (i : Int) : IsSigned (intText i).toList := by
  refine ⟨natDigits i.natAbs, Nat.toDigits_ne_nil, fun c hc => natDigits_isDigit hc, ?_⟩
  unfold intText
  split
  · exact Or.inr (toList_minus_natText _)
  · exact Or.inl (toList_natText _)

/-! ## Reading a numeral back -/

theorem decimalDigit?_of_isDigit {c : Char} (h : c.isDigit = true) :
    Text.decimalDigit? c = some (c.toNat - '0'.toNat) := by
  simp only [Char.isDigit, Bool.and_eq_true, decide_eq_true_eq] at h
  exact if_pos h

/-- Digits after a digit go on with the number that was read so far. -/
theorem readDigits_of_digits {cs : List Char} (h : ∀ c ∈ cs, c.isDigit = true) (n count : Nat) :
    readDigits n count cs = some (Nat.ofDigitChars 10 cs n, count + cs.length) := by
  induction cs generalizing n count with
  | nil => rfl
  | cons c cs ih =>
    obtain ⟨hc, hcs⟩ := List.forall_mem_cons.1 h
    have hnext : readDigits n count (c :: cs) =
        readDigits (10 * n + (c.toNat - '0'.toNat)) (count + 1) cs := by
      rw [readDigits]
      · rw [decimalDigit?_of_isDigit hc]
      · rintro _ _ rfl
        exact absurd hc (by decide)
    rw [hnext, ih hcs, Nat.ofDigitChars_cons, List.length_cons, Nat.add_right_comm, Nat.add_assoc]

/-- Digits are read as their number, if they are not too many. -/
theorem readNat_natDigits (n : Nat) :
    readNat (natDigits n) = if (natDigits n).length ≤ maxNumeralDigits then some n else none := by
  have hvalue : Nat.ofDigitChars 10 (natDigits n) 0 = n := Nat.ofDigitChars_ten_toDigits
  have hdigits : ∀ c ∈ natDigits n, c.isDigit = true := fun c hc => natDigits_isDigit hc
  have hne : natDigits n ≠ [] := Nat.toDigits_ne_nil
  generalize natDigits n = cs at hvalue hdigits hne
  cases cs with
  | nil => exact absurd rfl hne
  | cons c cs =>
    obtain ⟨hc, hcs⟩ := List.forall_mem_cons.1 hdigits
    rw [Nat.ofDigitChars_cons, Nat.mul_zero, Nat.zero_add] at hvalue
    unfold readNat
    dsimp only
    rw [decimalDigit?_of_isDigit hc, Option.bind_eq_bind, Option.bind_some,
      readDigits_of_digits hcs, hvalue, Option.bind_eq_bind, Option.bind_some, List.length_cons,
      Nat.add_comm]

theorem readSigned_intText (i : Int) : readSigned (intText i).toList =
    if (natDigits i.natAbs).length ≤ maxNumeralDigits then some i else none := by
  have hread := readNat_natDigits i.natAbs
  unfold intText
  split
  · rw [toList_minus_natText, readSigned, hread]
    split
    · exact congrArg some (show -(i.natAbs : Int) = i by omega)
    · rfl
  · rw [toList_natText]
    have hplain : readSigned (natDigits i.natAbs) =
        (readNat (natDigits i.natAbs)).map fun n : Nat => (n : Int) := by
      have hsign : ∀ sign rest, sign.isDigit = false → natDigits i.natAbs ≠ sign :: rest := by
        intro sign rest hsign heq
        have hmem : sign ∈ natDigits i.natAbs := by
          rw [heq]
          exact List.mem_cons_self
        rw [natDigits_isDigit hmem] at hsign
        cases hsign
      rw [readSigned]
      · cases readNat (natDigits i.natAbs) <;> rfl
      · exact fun rest => hsign '-' rest rfl
      · exact fun rest => hsign '+' rest rfl
    rw [hplain, hread]
    split
    · exact congrArg some (show (i.natAbs : Int) = i by omega)
    · rfl

/-- Nothing is trimmed of a text without blanks. -/
theorem readInt_of_blankless {cs : List Char} (h : ∀ c ∈ cs, isNumeralBlank c = false) :
    readInt cs = readSigned cs := by
  have hkeep : ∀ cs : List Char, (∀ c ∈ cs, isNumeralBlank c = false) →
      cs.dropWhile isNumeralBlank = cs := by
    intro cs hcs
    cases cs with
    | nil => rfl
    | cons c cs =>
      rw [List.dropWhile_cons_of_neg]
      rw [hcs c List.mem_cons_self]
      exact Bool.false_ne_true
  unfold readInt
  rw [hkeep cs h, hkeep cs.reverse fun c hc => h c (List.mem_reverse.1 hc), List.reverse_reverse]

theorem IsSigned.blankless {cs : List Char} (h : IsSigned cs) :
    ∀ c ∈ cs, isNumeralBlank c = false := by
  obtain ⟨digits, _, hdigits, heq⟩ := h
  have hdigit : ∀ c ∈ digits, isNumeralBlank c = false := by
    intro c hc
    have hbounds := hdigits c hc
    simp only [Char.isDigit, Bool.and_eq_true, decide_eq_true_eq, UInt32.le_iff_toNat_le] at hbounds
    have hlow : 48 ≤ c.toNat := hbounds.1
    have hhigh : c.toNat ≤ 57 := hbounds.2
    simp [isNumeralBlank, Text.isBlank]
    omega
  obtain rfl | rfl := heq
  · exact hdigit
  · exact List.forall_mem_cons.2 ⟨by decide, hdigit⟩

/-- An integer that is written is read back exactly if it has no more digits than a numeral may
have. -/
theorem readInt_intText (i : Int) : readInt (intText i).toList =
    if (natDigits i.natAbs).length ≤ maxNumeralDigits then some i else none := by
  rw [readInt_of_blankless (intText_isSigned i).blankless, readSigned_intText]

end FluentSql.Number
