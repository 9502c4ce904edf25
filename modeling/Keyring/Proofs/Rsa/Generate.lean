import Keyring.Proofs.Key

/-! # The size of generated keys

Pairs of primes are drawn until their product has the size that was asked for, so a key that is
generated at all has a modulus of exactly that size.
-/

namespace Keyring

namespace Rsa

variable {bits : Nat} {e e' : Entropy} {k : PrivateKey}

/-- The key of two primes has these as its factors. -/
theorem factors_of_ofPrimes {p q : Nat} (h : ofPrimes p q = .ok (some k)) :
    k.modulus = p * q ∧ k.p = p ∧ k.q = q := by
  rw [ofPrimes] at h
  split at h
  · contradiction
  split at h
  · exact absurd (Except.ok.inj h) (Option.some_ne_none k).symm
  · obtain ⟨hmodulus, -, -, hp, hq⟩ := Key.ofComponents?_eq_some (Except.ok.inj h)
    exact ⟨hmodulus, hp, hq⟩

/-- Whatever pairs were drawn before, the last one has the size. -/
theorem log2_of_drawKey {fuel : Nat} (h : drawKey bits fuel e = .ok (k, e')) :
    k.modulus.log2 + 1 = bits := by
  induction fuel generalizing e with
  | zero => contradiction
  | succ fuel ih =>
      rw [drawKey] at h
      split at h
      · contradiction
      split at h
      · contradiction
      split at h
      · exact ih h
      · next hsize =>
          split at h
          · contradiction
          · exact ih h
          · next hprimes =>
              obtain ⟨rfl, -⟩ := Prod.mk.inj (Except.ok.inj h)
              rw [(factors_of_ofPrimes hprimes).1]
              exact not_not.mp (not_or.mp hsize).2

/-- A generated modulus has as many bits as asked for. -/
theorem log2_of_generate (h : generate bits e = .ok (k, e')) : k.modulus.log2 + 1 = bits := by
  rw [generate] at h
  split at h
  · contradiction
  · exact log2_of_drawKey h

end Rsa

/-- A generated key has a modulus of the size that was asked for. -/
theorem Key.log2_of_generate {bits : Nat} {e e' : Entropy} {key : Key}
    (h : Key.generate bits e = .ok (key, e')) : key.secret.modulus.log2 + 1 = bits := by
  rw [generate] at h
  split at h
  · next hgenerate =>
      obtain ⟨rfl, -⟩ := Prod.mk.inj (Except.ok.inj h)
      exact Rsa.log2_of_generate hgenerate
  · contradiction

end Keyring
