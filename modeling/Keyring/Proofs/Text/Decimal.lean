/-! # Letters and digits

The letters and the digits of ASCII are ranges of numbers. The text of an integer is its digits,
after a sign if it is negative, and the digits of a positive number do not start with a zero.
-/

namespace Keyring

/-! ## Classes of characters -/

/-- A character of a class is none that is not of it. -/
theorem ne_of_class {p : Char → Bool} {c d : Char} (hc : p c) (hd : p d = false) : c ≠ d := by
  rintro rfl
  rw [hd] at hc
  contradiction

/-- The range of the digits. -/
theorem isDigit_iff {c : Char} : c.isDigit ↔ 48 ≤ c.toNat ∧ c.toNat ≤ 57 := by
  delta Char.isDigit
  simp only [Bool.and_eq_true, decide_eq_true_iff]
  exact Iff.rfl

/-- The ranges of the letters. -/
theorem isAlpha_iff {c : Char} :
    c.isAlpha ↔ (65 ≤ c.toNat ∧ c.toNat ≤ 90) ∨ (97 ≤ c.toNat ∧ c.toNat ≤ 122) := by
  delta Char.isAlpha Char.isUpper Char.isLower
  simp only [Bool.or_eq_true, Bool.and_eq_true, decide_eq_true_iff]
  exact Iff.rfl

theorem isAlphanum_iff {c : Char} : c.isAlphanum ↔ c.isAlpha ∨ c.isDigit :=
  Bool.or_eq_true_iff

/-- No letter is a digit. -/
theorem not_isDigit_of_isAlpha {c : Char} (h : c.isAlpha) : c.isDigit = false := by
  have hrange := isAlpha_iff.mp h
  rw [Bool.eq_false_iff, ne_eq, isDigit_iff]
  omega

/-- Only letters are lower case once their case is lowered. -/
theorem isAlpha_of_isLower_toLower {c : Char} (h : c.toLower.isLower) : c.isAlpha := by
  by_cases hupper : c.isUpper
  · exact Bool.or_eq_true_iff.mpr (.inl hupper)
  · have hsame : c.toLower = c := dif_neg fun hrange => hupper (decide_eq_true hrange)
    rw [hsame] at h
    exact Bool.or_eq_true_iff.mpr (.inr h)

/-! ## Digits of a number -/

/-- Numbers with the same digits are the same. -/
theorem toDigits_injective {m n : Nat} (h : Nat.toDigits 10 m = Nat.toDigits 10 n) : m = n := by
  rw [← Nat.ofDigitChars_toDigits (b := 10) (n := m) (by decide) (by decide), h,
    Nat.ofDigitChars_toDigits (by decide) (by decide)]

/-- The text of an integer: its digits, after a sign if it is negative. -/
theorem toList_toString (n : Int) :
    (toString n).toList =
      if 0 ≤ n then Nat.toDigits 10 n.natAbs else '-' :: Nat.toDigits 10 n.natAbs := by
  rw [Int.toString_eq_repr, Int.repr_eq_if]
  split
  · next h => rw [Nat.toList_repr, ← Int.toNat_of_nonneg h, Int.toNat_natCast, Int.natAbs_natCast]
  · next h =>
      have habs : (-n).toNat = n.natAbs := by omega
      rw [String.toList_append, Nat.toList_repr, habs]
      rfl

/-- The digits of a positive number do not start with a zero. -/
theorem exists_toDigits_eq_cons {n : Nat} (hn : n ≠ 0) :
    ∃ c ds, Nat.toDigits 10 n = c :: ds ∧ c ≠ '0' := by
  induction n using Nat.strongRecOn with
  | ind n ih =>
      rw [Nat.toDigits_eq_if (by decide)]
      split
      · next hlt =>
          have hdigit : ∀ m < 10, m ≠ 0 → Nat.digitChar m ≠ '0' := by decide
          exact ⟨_, [], rfl, hdigit n hlt hn⟩
      · next hge =>
          obtain ⟨c, ds, hds, hc⟩ := ih (n / 10) (by omega) (by omega)
          exact ⟨c, ds ++ [Nat.digitChar (n % 10)], by rw [hds]; rfl, hc⟩

theorem isDigit_of_mem_toDigits {n : Nat} {c : Char} (hc : c ∈ Nat.toDigits 10 n) : c.isDigit :=
  Nat.isDigit_of_mem_toDigits (by decide) (by decide) hc

end Keyring
