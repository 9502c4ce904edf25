import Keyring.Proofs.Key
import Keyring.Proofs.Rsa.Signature
import Keyring.Proofs.Text.Base64.Canonical
import Mathlib.NumberTheory.LucasLehmer

/-! # Keys that sign tokens

What a key needs so that tokens it signs can be verified, and three keys that have it: their factors
are known to be prime, and they are small enough to compute with.
-/

namespace Keyring.Key

/-- A key that signs tokens: its factors are different primes, and its modulus has between 1024 and
4096 bits, counted in whole bytes. -/
structure IsSound (k : Key) : Prop where
  primes : k.secret.HasPrimes
  bits_ge : minBits ≤ k.bits
  bits_le : k.bits ≤ Rsa.maxVerifyBits

variable {k : Key}

/-- The modulus is not too large to be verified under. -/
theorem IsSound.log2_lt (h : k.IsSound) : k.secret.modulus.log2 + 1 ≤ Rsa.maxVerifyBits := by
  have hle := h.bits_le
  rw [bits, Rsa.PrivateKey.size] at hle
  omega

/-- A sound key signs any message, for there is room for a digest. -/
theorem IsSound.exists_sign (h : k.IsSound) (message : Bytes) :
    ∃ signature, k.secret.sign message = .ok signature := by
  apply Rsa.PrivateKey.exists_sign h.primes
  have hge := h.bits_ge
  rw [minBits, bits] at hge
  omega

/-! ## Names -/

/-- The digest that a key is named by. -/
def digest (k : Key) : Bytes :=
  Sha256.digest (Utf8.encode (canonicalText k.modulusText k.exponentText))

/-- Keys with different digests have different names. -/
theorem id_ne_of_digest_ne {a b : Key} (h : a.digest ≠ b.digest) : a.id ≠ b.id := by
  intro hid
  have hread := Base64.decode_encode .urlSafe a.digest
  have htext : Base64.encode .urlSafe a.digest = Base64.encode .urlSafe b.digest := hid
  rw [htext, Base64.decode_encode] at hread
  exact h (Except.ok.inj hread).symm

/-- The characters of a number's text. -/
def numberChars (n : Nat) : List Char :=
  (Base64.encodeBytes .urlSafe (Bytes.ofNat n)).map fun b => Char.ofNat b.toNat

/-- The characters of a literal. -/
def quoted (cs : List Char) : List Char := '"' :: (cs.flatMap Json.escapeChar ++ ['"'])

/-- The characters of the canonical text. Unlike the text itself they can be computed with. -/
def canonicalChars (modulus exponent : Nat) : List Char :=
  '\x7b' :: (quoted ['e'] ++ ':' :: (quoted (numberChars exponent)
    ++ ',' :: (quoted ['k', 't', 'y'] ++ ':' :: (quoted ['R', 'S', 'A']
    ++ ',' :: (quoted ['n'] ++ ':' :: (quoted (numberChars modulus) ++ ['\x7d']))))))

/-- The digest of a key is that of its canonical text, character by character. -/
theorem digest_eq (k : Key) :
    k.digest = Sha256.digest ((canonicalChars k.secret.modulus k.secret.publicExponent).flatMap
      String.utf8EncodeChar) := by
  simp only [digest, canonicalText, modulusText, exponentText, encodeNat, Base64.encode,
    Utf8.encode, Json.render, Json.chars, Json.memberChars, Json.stringChars, String.toList_ofList]
  rfl

/-! ## Two Mersenne primes -/

/-- The product of two Mersenne numbers has as many bits as both together. -/
theorem log2_mersenne_mul {m n : Nat} (hm : 2 ≤ m) (hn : 2 ≤ n) :
    (mersenne m * mersenne n).log2 + 1 = m + n := by
  obtain ⟨m, rfl⟩ := Nat.exists_eq_add_of_le' hm
  obtain ⟨n, rfl⟩ := Nat.exists_eq_add_of_le' hn
  obtain ⟨a, ha⟩ := Nat.exists_eq_add_of_le' (Nat.one_le_two_pow (n := m))
  obtain ⟨b, hb⟩ := Nat.exists_eq_add_of_le' (Nat.one_le_two_pow (n := n))
  have hfirst : mersenne (m + 2) = 4 * a + 3 := by rw [mersenne, pow_add, ha]; omega
  have hsecond : mersenne (n + 2) = 4 * b + 3 := by rw [mersenne, pow_add, hb]; omega
  have hpow : 2 ^ (m + n + 3) = (a + 1) * (b + 1) * 8 := by rw [pow_add, pow_add, ha, hb]; rfl
  have hlog2 : (mersenne (m + 2) * mersenne (n + 2)).log2 = m + n + 3 := by
    rw [hfirst, hsecond, Nat.log2_eq_iff (by positivity)]
    constructor
    · rw [hpow]
      nlinarith
    · rw [pow_succ, hpow]
      nlinarith
  omega

/-- By the test of Lucas and Lehmer. -/
theorem prime_mersenne_521 : (mersenne 521).Prime :=
  lucas_lehmer_sufficiency 521 (by norm_num) (by norm_num)

/-- By the test of Lucas and Lehmer as well. -/
theorem prime_mersenne_607 : (mersenne 607).Prime :=
  lucas_lehmer_sufficiency 607 (by norm_num) (by norm_num)

/-- The key of two Mersenne primes and a public exponent. -/
def ofMersenne? (e : Nat) : Option Key := do
  let d ← Rsa.inverse? e ((mersenne 521 - 1) * (mersenne 607 - 1))
  let secret ← Rsa.PrivateKey.ofComponents? (mersenne 521 * mersenne 607) e d (mersenne 521)
    (mersenne 607)
  return ⟨secret⟩

variable {e : Nat}

/-- The parts of a key of Mersenne primes. -/
theorem ofMersenne?_eq_some (h : ofMersenne? e = some k) :
    k.secret.p = mersenne 521 ∧ k.secret.q = mersenne 607 ∧
      k.secret.modulus = mersenne 521 * mersenne 607 ∧ k.secret.publicExponent = e := by
  rw [ofMersenne?, Option.bind_eq_bind, Option.bind_eq_some_iff] at h
  obtain ⟨d, -, h⟩ := h
  obtain ⟨secret, hsecret, h⟩ := Option.bind_eq_some_iff.mp h
  obtain rfl := Option.some.inj h
  obtain ⟨hmodulus, hexponent, -, hp, hq⟩ := ofComponents?_eq_some hsecret
  exact ⟨hp, hq, hmodulus, hexponent⟩

/-- Every key of Mersenne primes is sound. -/
theorem isSound_of_mersenne (h : ofMersenne? e = some k) : k.IsSound := by
  obtain ⟨hp, hq, hmodulus, -⟩ := ofMersenne?_eq_some h
  have hbits : k.bits = 1128 := by
    have hlog2 : (mersenne 521 * mersenne 607).log2 + 1 = 1128 :=
      log2_mersenne_mul (by decide) (by decide)
    rw [bits, Rsa.PrivateKey.size, hmodulus]
    omega
  refine ⟨⟨?_, ?_, ?_⟩, ?_, ?_⟩
  · rw [hp]
    exact prime_mersenne_521
  · rw [hq]
    exact prime_mersenne_607
  · rw [hp, hq]
    exact (mersenne_lt_mersenne.mpr (by norm_num)).ne
  · rw [hbits]
    decide
  · rw [hbits]
    decide

/-- The digest of a key of Mersenne primes depends on its exponent only. -/
theorem digest_of_mersenne (h : ofMersenne? e = some k) :
    k.digest =
      Sha256.digest
        ((canonicalChars (mersenne 521 * mersenne 607) e).flatMap String.utf8EncodeChar) := by
  obtain ⟨-, -, hmodulus, hexponent⟩ := ofMersenne?_eq_some h
  rw [digest_eq, hmodulus, hexponent]

/-! ## Three keys -/

/-- The exponents are coprime to the order of the group, so each of them has an inverse. -/
theorem isSome_ofMersenne? : ∀ e ∈ [13, 257, 65537], (ofMersenne? e).isSome := by decide +kernel

/-- The key with the public exponent 13. -/
def mersenne13 : Key := (ofMersenne? 13).get (isSome_ofMersenne? _ (by decide))

/-- The key with the public exponent 257. -/
def mersenne257 : Key := (ofMersenne? 257).get (isSome_ofMersenne? _ (by decide))

/-- The key with the public exponent 65537. -/
def mersenne65537 : Key := (ofMersenne? 65537).get (isSome_ofMersenne? _ (by decide))

theorem ofMersenne?_13 : ofMersenne? 13 = some mersenne13 := (Option.some_get _).symm

theorem ofMersenne?_257 : ofMersenne? 257 = some mersenne257 := (Option.some_get _).symm

theorem ofMersenne?_65537 : ofMersenne? 65537 = some mersenne65537 := (Option.some_get _).symm

-- Nobody but the kernel should try to compute the numbers of these keys.
attribute [irreducible] mersenne13 mersenne257 mersenne65537

/-- The first bytes of the three digests differ, which is enough to tell the names apart. -/
theorem head_digests : mersenne13.digest.head? = some 178 ∧
    mersenne257.digest.head? = some 165 ∧ mersenne65537.digest.head? = some 29 := by
  rw [digest_of_mersenne ofMersenne?_13, digest_of_mersenne ofMersenne?_257,
    digest_of_mersenne ofMersenne?_65537]
  decide +kernel

end Keyring.Key
