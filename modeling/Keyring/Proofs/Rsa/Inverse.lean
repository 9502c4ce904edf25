import Keyring.Rsa.Arithmetic
import Mathlib.Data.Int.GCD
import Mathlib.Data.Int.ModEq
import Mathlib.Tactic.Linarith
import Mathlib.Tactic.Ring

/-! # Which numbers have an inverse

Euclid's algorithm keeps each remainder congruent to its multiplier times the number, and at least
halves the product of the two remainders in a step. So within as many steps as are allowed it comes
to the greatest common divisor, and an inverse is found exactly if there is one.
-/

namespace Keyring.Rsa

/-- Once the second remainder is zero, the first one is the greatest common divisor. -/
private theorem mul_modEq_gcd_zero {a m r u : Int} (hr : 0 ≤ r) (hu : r ≡ u * a [ZMOD m]) :
    u * a ≡ Int.gcd r 0 [ZMOD m] := by
  rw [Int.gcd_zero_right, Int.natAbs_of_nonneg hr]
  exact hu.symm

/-- The last multiplier gives the greatest common divisor, if the steps suffice. -/
theorem euclid_mul_modEq {a m r s u v : Int} {steps : Nat} (hs : 0 ≤ s) (hle : s ≤ r)
    (hsteps : r * s < 2 ^ steps) (hu : r ≡ u * a [ZMOD m]) (hv : s ≡ v * a [ZMOD m]) :
    euclid steps r s u v * a ≡ Int.gcd r s [ZMOD m] := by
  induction steps generalizing r s u v with
  | zero =>
      rw [pow_zero] at hsteps
      obtain rfl : s = 0 := by nlinarith
      exact mul_modEq_gcd_zero hle hu
  | succ steps ih =>
      rw [euclid]
      split
      · next hzero =>
          subst hzero
          exact mul_modEq_gcd_zero hle hu
      · next hzero =>
          have hpos : 0 < s := lt_of_le_of_ne hs (Ne.symm hzero)
          have hrem := Int.emod_nonneg r hzero
          have hlt := Int.emod_lt_of_pos r hpos
          have hhalf : 2 * (r % s) ≤ r := by
            have hsplit := Int.mul_ediv_add_emod r s
            have hquot : 1 ≤ r / s := (Int.le_ediv_iff_mul_le hpos).mpr (by omega)
            nlinarith
          have hnext : r % s ≡ (u - r / s * v) * a [ZMOD m] := by
            rw [Int.emod_def, show (u - r / s * v) * a = u * a - v * a * (r / s) by ring]
            exact hu.sub (hv.mul_right _)
          rw [← Int.gcd_emod, Int.gcd_comm]
          apply ih hrem (le_of_lt hlt) _ hv hnext
          rw [pow_succ] at hsteps
          nlinarith

/-- The last multiplier of a number and a modulus. -/
theorem euclid_modulus_modEq {a m : Nat} (hm : 1 < m) :
    euclid (2 * (m.log2 + 2)) (a % m : Nat) m 1 0 * a ≡ Nat.gcd a m [ZMOD m] := by
  have hpos : (0 : Int) < m := by exact_mod_cast Nat.lt_of_succ_lt hm
  have hrem : ((a % m : Nat) : Int) < m := by exact_mod_cast Nat.mod_lt a (Nat.lt_of_succ_lt hm)
  -- The first step only exchanges the remainders.
  have hswap : euclid (2 * (m.log2 + 2)) (a % m : Nat) m 1 0 =
      euclid (2 * m.log2 + 3) m (a % m : Nat) 0 1 := by
    rw [show 2 * (m.log2 + 2) = 2 * m.log2 + 3 + 1 by ring, euclid, if_neg (ne_of_gt hpos),
      Int.emod_eq_of_lt (Int.natCast_nonneg _) hrem, mul_zero, sub_zero]
  have hsteps : (m : Int) * (a % m : Nat) < 2 ^ (2 * m.log2 + 3) := by
    have hlog : m < 2 ^ (m.log2 + 1) := Nat.lt_log2_self
    have hsquare : m * (a % m) < 2 ^ (2 * m.log2 + 3) := by
      calc m * (a % m) ≤ m * m := Nat.mul_le_mul_left _ (Nat.le_of_lt (Nat.mod_lt a (by omega)))
        _ < 2 ^ (m.log2 + 1) * 2 ^ (m.log2 + 1) := Nat.mul_lt_mul'' hlog hlog
        _ = 2 ^ (2 * m.log2 + 2) := by ring
        _ ≤ 2 ^ (2 * m.log2 + 3) := Nat.pow_le_pow_right (by decide) (by omega)
    exact_mod_cast hsquare
  rw [hswap, show Nat.gcd a m = Int.gcd m (a % m : Nat) by
    rw [Int.gcd_natCast_natCast, Nat.gcd_comm m (a % m), Nat.gcd_comm a, Nat.gcd_rec]]
  apply euclid_mul_modEq (Int.natCast_nonneg _) (le_of_lt hrem) hsteps
  · rw [zero_mul]
    exact Int.modEq_zero_iff_dvd.mpr (dvd_refl _)
  · rw [one_mul, Int.natCast_emod]
    exact Int.mod_modEq _ _

/-- A number has an inverse exactly if it has no divisor in common with the modulus. -/
theorem isSome_inverse?_iff {a m : Nat} (hm : 1 < m) : (inverse? a m).isSome ↔ a.Coprime m := by
  have hpos : (0 : Int) < m := by exact_mod_cast Nat.lt_of_succ_lt hm
  have heuclid := euclid_modulus_modEq (a := a) hm
  rw [inverse?]
  generalize euclid (2 * (m.log2 + 2)) (a % m : Nat) m 1 0 = u at heuclid ⊢
  simp only [hm, and_true]
  split
  · next hone => exact iff_of_true rfl (Nat.coprime_of_mul_modEq_one _ hone)
  · next hone =>
      refine iff_of_false Bool.false_ne_true fun hcoprime => hone ?_
      have hcast : (((u % m).toNat : Nat) : Int) = u % m :=
        Int.toNat_of_nonneg (Int.emod_nonneg u (ne_of_gt hpos))
      rw [show Nat.gcd a m = 1 from hcoprime] at heuclid
      apply (Int.natCast_modEq_iff).mp
      calc ((a * (u % m).toNat : Nat) : Int) = a * (u % m) := by rw [Nat.cast_mul, hcast]
        _ ≡ a * u [ZMOD m] := (Int.mod_modEq u m).mul_left _
        _ = u * a := mul_comm _ _
        _ ≡ (1 : Nat) [ZMOD m] := heuclid

/-- The inverse is the one number below the modulus that undoes the number. -/
theorem inverse?_eq_some_iff {a m x : Nat} (hm : 1 < m) :
    inverse? a m = some x ↔ x < m ∧ a * x % m = 1 := by
  have hpos : (0 : Int) < m := by exact_mod_cast Nat.lt_of_succ_lt hm
  have hspec {x : Nat} (h : inverse? a m = some x) : x < m ∧ a * x % m = 1 := by
    rw [inverse?] at h
    split at h
    · next hone =>
        obtain rfl := Option.some.inj h
        have hlt := Int.emod_lt_of_pos (euclid (2 * (m.log2 + 2)) (a % m : Nat) m 1 0) hpos
        exact ⟨by omega, by rw [hone.1, Nat.mod_eq_of_lt hm]⟩
    · exact absurd h (by simp)
  constructor
  · exact hspec
  · rintro ⟨hlt, hone⟩
    have hmod : a * x ≡ 1 [MOD m] := by rw [Nat.ModEq, hone, Nat.mod_eq_of_lt hm]
    have hcoprime : a.Coprime m := Nat.coprime_of_mul_modEq_one _ hmod
    obtain ⟨y, hy⟩ := Option.isSome_iff_exists.mp ((isSome_inverse?_iff hm).mpr hcoprime)
    obtain ⟨hylt, hyone⟩ := hspec hy
    have hsame : y ≡ x [MOD m] := by
      refine Nat.ModEq.cancel_left_of_coprime (c := a) ?_ ?_
      · exact Nat.Coprime.symm hcoprime
      · rw [Nat.ModEq, hyone, hone]
    rw [hy, hsame.eq_of_lt_of_lt hylt hlt]

end Keyring.Rsa
