import Keyring.Rsa.PrivateKey
import Mathlib.FieldTheory.Finite.Basic
import Mathlib.Tactic.Ring

/-! # Powers modulo a number

The bits of the exponent, taken from the top, build up the power. Modulo a prime, an exponent that
is one modulo the prime less one does nothing, by Fermat's theorem: so the two exponents of a
private key undo each other modulo each of its factors, if that is prime.
-/

namespace Keyring.Rsa

/-- The low bits of the exponent multiply what the bits above have built up. -/
theorem powBits_eq (b e m bits x : Nat) :
    powBits b e m bits (x % m) = x ^ 2 ^ bits * b ^ (e % 2 ^ bits) % m := by
  induction bits generalizing x with
  | zero => rw [powBits, Nat.pow_zero, Nat.pow_one, Nat.mod_one, Nat.pow_zero, Nat.mul_one]
  | succ bits ih =>
      have hsquare : x % m * (x % m) % m = x * x % m := (Nat.mul_mod x x m).symm
      rw [powBits]
      simp only [hsquare]
      rw [Nat.pow_succ, Nat.mod_mul, ← Nat.toNat_testBit]
      split
      · next hbit =>
          rw [hbit, Nat.mod_mul_mod, ih]
          congr 1
          simp only [Bool.toNat_true]
          ring
      · next hbit =>
          rw [Bool.eq_false_of_not_eq_true hbit, ih]
          congr 1
          simp only [Bool.toNat_false]
          ring

/-- Squaring and multiplying gives the power. -/
theorem powMod_eq (b e m : Nat) : powMod b e m = b ^ e % m := by
  rw [powMod, powBits_eq, Nat.one_pow, Nat.one_mul, Nat.mod_eq_of_lt Nat.lt_log2_self,
    ← Nat.pow_mod]

theorem powMod_lt {b e m : Nat} (hm : 0 < m) : powMod b e m < m := by
  rw [powMod_eq]
  exact Nat.mod_lt _ hm

/-- An exponent that is one modulo a prime less one does nothing modulo the prime. -/
theorem pow_modEq_self {p k : Nat} (hp : p.Prime) (hk : k % (p - 1) = 1) (x : Nat) :
    x ^ k ≡ x [MOD p] := by
  have hsplit : k = (p - 1) * (k / (p - 1)) + 1 := by
    have h := Nat.div_add_mod k (p - 1)
    omega
  by_cases hx : p ∣ x
  · have hpow : p ∣ x ^ k := dvd_pow hx (by omega)
    exact ((Nat.modEq_zero_iff_dvd).mpr hpow).trans (Nat.modEq_zero_iff_dvd.mpr hx).symm
  · have hcoprime : x.Coprime p := ((Nat.Prime.coprime_iff_not_dvd hp).mpr hx).symm
    have hfermat : x ^ (p - 1) ≡ 1 [MOD p] := by
      rw [← Nat.totient_prime hp]
      exact Nat.ModEq.pow_totient hcoprime
    calc x ^ k = (x ^ (p - 1)) ^ (k / (p - 1)) * x := by rw [← pow_mul, ← pow_succ, ← hsplit]
      _ ≡ 1 ^ (k / (p - 1)) * x [MOD p] := (hfermat.pow _).mul_right x
      _ = x := by rw [one_pow, one_mul]

namespace PrivateKey

/-- The factors of a key are different primes. -/
def HasPrimes (k : PrivateKey) : Prop := k.p.Prime ∧ k.q.Prime ∧ k.p ≠ k.q

end PrivateKey

end Keyring.Rsa
