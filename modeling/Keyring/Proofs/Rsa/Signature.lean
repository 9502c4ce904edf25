import Keyring.Proofs.Bytes
import Keyring.Proofs.Rsa.Arithmetic
import Keyring.Proofs.Rsa.Inverse
import Keyring.Rsa.Signature

/-! # Which signatures are valid

A signature of a message is as long as the modulus and below it, and the public exponent turns it
into the padded digest of the message. Keys of up to 4096 bits are verified by just that. What a key
signs is a signature, and a key whose factors are different primes signs whatever it has room for.
-/

namespace Keyring.Rsa

variable {modulus exponent size : Nat} {message signature block : Bytes} {k : PrivateKey}

/-! ## Padding -/

/-- The padded digest, when there is room for it. -/
theorem paddedBlock?_eq_some_iff :
    paddedBlock? size message = some block ↔ 62 ≤ size ∧
      block = 0x00 :: 0x01 ::
        (List.replicate (size - 54) 0xff ++ 0x00 :: (digestHeader ++ Sha256.digest message)) := by
  have hbody : (digestHeader ++ Sha256.digest message).length = 51 := by
    rw [List.length_append, Sha256.length_digest]
    rfl
  have hfill : size - 51 - 3 = size - 54 := by omega
  rw [paddedBlock?]
  simp only [hbody, hfill]
  split
  · next hsize =>
      constructor
      · intro h
        contradiction
      · rintro ⟨hroom, -⟩
        omega
  · next hsize =>
      rw [Option.some.injEq]
      constructor
      · rintro rfl
        exact ⟨by omega, rfl⟩
      · rintro ⟨-, rfl⟩
        rfl

theorem length_of_paddedBlock? (h : paddedBlock? size message = some block) :
    block.length = size := by
  obtain ⟨hroom, rfl⟩ := paddedBlock?_eq_some_iff.mp h
  simp only [List.length_cons, List.length_append, List.length_replicate, Sha256.length_digest]
  rw [show digestHeader.length = 19 from rfl]
  omega

/-- A padded block starts with zero and one, so it is below any modulus of its size. -/
theorem toNat_paddedBlock?_lt (h : paddedBlock? (modulus.log2 / 8 + 1) message = some block) :
    block.toNat < modulus := by
  have hlength := length_of_paddedBlock? h
  obtain ⟨hroom, rfl⟩ := paddedBlock?_eq_some_iff.mp h
  have hmodulus : modulus ≠ 0 := by
    rintro rfl
    simp at hroom
  generalize hrest : (List.replicate (modulus.log2 / 8 + 1 - 54) 0xff ++
    0x00 :: (digestHeader ++ Sha256.digest message) : Bytes) = rest at hlength ⊢
  have hlt := Bytes.toNat_lt rest
  have hsize : modulus.log2 / 8 = rest.length + 1 := by
    simp only [List.length_cons] at hlength
    omega
  rw [Bytes.toNat_cons, Bytes.toNat_cons]
  calc (0 : UInt8).toNat * 256 ^ (0x01 :: rest).length +
    ((1 : UInt8).toNat * 256 ^ rest.length + Bytes.toNat rest)
      < 256 ^ rest.length * 256 := by
        simp only [UInt8.toNat_zero, UInt8.toNat_one]
        omega
    _ = 2 ^ (8 * (modulus.log2 / 8)) := by rw [hsize, ← Nat.pow_succ, Nat.pow_mul]
    _ ≤ 2 ^ modulus.log2 := Nat.pow_le_pow_right (by omega) (by omega)
    _ ≤ modulus := Nat.log2_self_le hmodulus

/-! ## Signatures -/

/-- The byte string is the signature of the message under the public key. -/
structure IsSignature (modulus exponent : Nat) (message signature : Bytes) : Prop where
  length_eq : signature.length = modulus.log2 / 8 + 1
  toNat_lt : signature.toNat < modulus
  block_eq : ∃ block, paddedBlock? (modulus.log2 / 8 + 1) message = some block ∧
    signature.toNat ^ exponent % modulus = block.toNat

/-- A number below the modulus is a block exactly if it is spelled as the block. -/
theorem ofNatFixed_eq_iff {x : Nat} (hx : x < modulus)
    (hlength : block.length = modulus.log2 / 8 + 1) :
    Bytes.ofNatFixed (modulus.log2 / 8 + 1) x = block ↔ x = block.toNat := by
  constructor
  · intro h
    have hfits : x < 256 ^ (modulus.log2 / 8 + 1) := by
      calc x < modulus := hx
        _ < 2 ^ (modulus.log2 + 1) := Nat.lt_log2_self
        _ ≤ 2 ^ (8 * (modulus.log2 / 8 + 1)) := Nat.pow_le_pow_right (by omega) (by omega)
        _ = 256 ^ (modulus.log2 / 8 + 1) := by rw [Nat.pow_mul]
    rw [← h, Bytes.toNat_ofNatFixed, Nat.mod_eq_of_lt hfits]
  · rintro rfl
    rw [← hlength, Bytes.ofNatFixed_toNat]

/-- What the public exponent makes of a signature is spelled as the padded digest exactly if it is
that number. -/
theorem ofNatFixed_powMod_eq_iff (hlt : signature.toNat < modulus)
    (hblock : paddedBlock? (modulus.log2 / 8 + 1) message = some block) :
    Bytes.ofNatFixed (modulus.log2 / 8 + 1) (powMod signature.toNat exponent modulus) = block ↔
      ∃ block, paddedBlock? (modulus.log2 / 8 + 1) message = some block ∧
        signature.toNat ^ exponent % modulus = block.toNat := by
  rw [ofNatFixed_eq_iff (powMod_lt (by omega)) (length_of_paddedBlock? hblock), powMod_eq, hblock]
  constructor
  · intro h
    exact ⟨block, rfl, h⟩
  · rintro ⟨block', hsame, h⟩
    obtain rfl := Option.some.inj hsame
    exact h

/-- The verifier accepts exactly the signatures, under moduli of up to 4096 bits. -/
theorem verify_iff :
    verify modulus exponent message signature ↔
      modulus.log2 + 1 ≤ maxVerifyBits ∧ IsSignature modulus exponent message signature := by
  rw [verify]
  split
  · next hbits =>
      refine iff_of_false Bool.false_ne_true ?_
      rintro ⟨hle, -⟩
      omega
  · next hbits =>
      rw [and_iff_right (by omega)]
      split
      · next hshape =>
          refine iff_of_false Bool.false_ne_true ?_
          rintro ⟨hlength, hlt, -⟩
          rcases hshape with hne | hge
          · exact hne hlength
          · omega
      · next hshape =>
          rw [not_or, not_not, Nat.not_le] at hshape
          obtain ⟨hlength, hlt⟩ := hshape
          split
          · next hnone =>
              refine iff_of_false Bool.false_ne_true ?_
              rintro ⟨-, -, block, hblock, -⟩
              rw [hnone] at hblock
              contradiction
          · next block hblock =>
              rw [beq_iff_eq, ofNatFixed_powMod_eq_iff hlt hblock]
              constructor
              · intro h
                exact ⟨hlength, hlt, h⟩
              · intro h
                exact h.block_eq

/-! ## Signing -/

namespace PrivateKey

/-- The combined number is below the modulus. -/
theorem combine_lt (c u : Nat) {v : Nat} (hv : v < k.q) : k.combine c u v < k.modulus := by
  have hp : 0 < k.p := Nat.lt_of_succ_lt k.one_lt_p
  have hle : (u + (k.p - v % k.p)) * c % k.p + 1 ≤ k.p := Nat.mod_lt _ hp
  calc k.combine c u v
      < (u + (k.p - v % k.p)) * c % k.p * k.q + k.q := Nat.add_lt_add_left hv _
    _ = ((u + (k.p - v % k.p)) * c % k.p + 1) * k.q := (Nat.succ_mul _ _).symm
    _ ≤ k.p * k.q := Nat.mul_le_mul_right _ hle
    _ = k.modulus := k.modulus_eq

/-- The combined number has the two remainders. -/
theorem combine_modEq {c : Nat} (hc : k.coefficient? = some c) (u v : Nat) :
    k.combine c u v ≡ u [MOD k.p] ∧ k.combine c u v ≡ v [MOD k.q] := by
  have hinverse : c * k.q ≡ 1 [MOD k.p] := by
    obtain ⟨-, hone⟩ := (inverse?_eq_some_iff k.one_lt_p).mp hc
    rw [Nat.ModEq, Nat.mul_comm, hone, Nat.mod_eq_of_lt k.one_lt_p]
  have hle : v % k.p ≤ k.p := Nat.le_of_lt (Nat.mod_lt _ (Nat.lt_of_succ_lt k.one_lt_p))
  constructor
  · calc k.combine c u v
        ≡ (u + (k.p - v % k.p)) * c * k.q + v % k.p [MOD k.p] :=
          ((Nat.mod_modEq _ _).mul_right _).add (Nat.mod_modEq _ _).symm
      _ = (u + (k.p - v % k.p)) * (c * k.q) + v % k.p := by rw [Nat.mul_assoc]
      _ ≡ (u + (k.p - v % k.p)) * 1 + v % k.p [MOD k.p] := (hinverse.mul_left _).add_right _
      _ = u + k.p := by omega
      _ ≡ u [MOD k.p] := Nat.add_modEq_right
  · exact Nat.mul_add_mod' _ _ _

/-- A root is below the modulus. -/
theorem root_lt (k : PrivateKey) (x : Nat) : k.root x < k.modulus := by
  rw [root]
  split
  · exact combine_lt _ _ (powMod_lt (Nat.lt_of_succ_lt k.one_lt_q))
  · exact powMod_lt (Nat.lt_of_le_of_lt (Nat.zero_le _) k.exponent_lt)

/-- Factors that are different primes can be combined. -/
theorem exists_coefficient (hk : k.HasPrimes) : ∃ c, k.coefficient? = some c := by
  obtain ⟨hp, hq, hne⟩ := hk
  have hcoprime : k.q.Coprime k.p := (Nat.coprime_primes hq hp).mpr hne.symm
  exact Option.isSome_iff_exists.mp ((isSome_inverse?_iff k.one_lt_p).mpr hcoprime)

/-- The exponents undo each other modulo a prime, also when the private one is reduced first. -/
theorem pow_mod_pow_modEq {p d e : Nat} (hp : p.Prime) (hundoes : d * e % (p - 1) = 1) (x : Nat) :
    (x ^ (d % (p - 1))) ^ e ≡ x [MOD p] := by
  have hreduced : d % (p - 1) * e % (p - 1) = 1 := by rw [Nat.mod_mul_mod, hundoes]
  rw [← pow_mul]
  exact pow_modEq_self hp hreduced x

/-- The public exponent undoes a root, if the factors are different primes: modulo each of them by
Fermat's theorem, and so modulo their product. -/
theorem root_pow_mod (hk : k.HasPrimes) {x : Nat} (hx : x < k.modulus) :
    k.root x ^ k.publicExponent % k.modulus = x := by
  obtain ⟨c, hc⟩ := exists_coefficient hk
  obtain ⟨hp, hq, hne⟩ := hk
  have hroot := combine_modEq hc (powMod x (k.privateExponent % (k.p - 1)) k.p)
    (powMod x (k.privateExponent % (k.q - 1)) k.q)
  rw [powMod_eq, powMod_eq] at hroot
  rw [root, hc]
  simp only [powMod_eq]
  generalize k.combine c _ _ = r at hroot ⊢
  have hmodp : r ^ k.publicExponent ≡ x [MOD k.p] :=
    ((hroot.1.trans (Nat.mod_modEq _ _)).pow _).trans (pow_mod_pow_modEq hp k.undoes_p x)
  have hmodq : r ^ k.publicExponent ≡ x [MOD k.q] :=
    ((hroot.2.trans (Nat.mod_modEq _ _)).pow _).trans (pow_mod_pow_modEq hq k.undoes_q x)
  have hcoprime : k.p.Coprime k.q := (Nat.coprime_primes hp hq).mpr hne
  have hboth : r ^ k.publicExponent ≡ x [MOD k.p * k.q] :=
    (Nat.modEq_and_modEq_iff_modEq_mul hcoprime).mp ⟨hmodp, hmodq⟩
  rw [k.modulus_eq] at hboth
  exact Eq.trans hboth (Nat.mod_eq_of_lt hx)

/-- A key signs exactly what it has room for and can undo. -/
theorem sign_eq_ok_iff : k.sign message = .ok signature ↔
    ∃ block, paddedBlock? k.size message = some block ∧
      k.root block.toNat ^ k.publicExponent % k.modulus = block.toNat ∧
        signature = Bytes.ofNatFixed k.size (k.root block.toNat) := by
  rw [sign]
  cases paddedBlock? k.size message with
  | none => simp
  | some block =>
    simp only [powMod_eq, Option.some.injEq, exists_eq_left']
    split
    · next hundone => simp [hundone, eq_comm]
    · next hkept => simp [hkept]

/-- A key whose factors are different primes signs any message, if its modulus has 62 bytes or more
and so has room for the digest. -/
theorem exists_sign (hk : k.HasPrimes) (h : 62 ≤ k.size) (message : Bytes) :
    ∃ signature, k.sign message = .ok signature := by
  obtain ⟨block, hblock⟩ : ∃ block, paddedBlock? k.size message = some block :=
    ⟨_, paddedBlock?_eq_some_iff.mpr ⟨h, rfl⟩⟩
  exact ⟨_, sign_eq_ok_iff.mpr ⟨block, hblock, root_pow_mod hk (toNat_paddedBlock?_lt hblock), rfl⟩⟩

end PrivateKey

/-- What a key signs is a signature, whatever its factors are. -/
theorem isSignature_of_sign (h : k.sign message = .ok signature) :
    IsSignature k.modulus k.publicExponent message signature := by
  obtain ⟨block, hblock, hundone, rfl⟩ := PrivateKey.sign_eq_ok_iff.mp h
  have hlt := k.root_lt block.toNat
  -- A number below the modulus is read back from its spelling.
  have hread : Bytes.toNat (Bytes.ofNatFixed k.size (k.root block.toNat)) = k.root block.toNat :=
    ((ofNatFixed_eq_iff hlt (Bytes.length_ofNatFixed _ _)).mp rfl).symm
  refine ⟨Bytes.length_ofNatFixed _ _, ?_, block, hblock, ?_⟩
  · rw [hread]
    exact hlt
  · rw [hread]
    exact hundone

end Keyring.Rsa
