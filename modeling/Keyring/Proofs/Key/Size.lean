import Keyring.Proofs.Key.NormalForm
import Keyring.Proofs.Rotation.Restore
import Keyring.Proofs.Rsa.Generate
import Keyring.Proofs.Text.Base64.Canonical
import Mathlib.Data.Nat.Size

/-! # The size that a key reports

A key counts its size in whole bytes, those in which its modulus is published. So it reports the
number of bits of that modulus exactly if they fill the bytes, and up to seven bits too many
otherwise. A generated key has a modulus of the size that was asked for, and whoever finds its
document holds the same key and reports the same.
-/

namespace Keyring.Key

open Rotation

variable {k : Key} {bs : Bytes}

/-- These bytes are published as the modulus of the key. -/
def Publishes (k : Key) (bs : Bytes) : Prop := Base64.decode .urlSafe k.modulusText = .ok bs

theorem publishes_modulus (k : Key) : k.Publishes (Bytes.ofNat k.secret.modulus) := by
  rw [Publishes, modulusText, encodeNat, Base64.decode_encode]

theorem modulus_ne_zero (k : Key) : k.secret.modulus ≠ 0 := by
  intro hzero
  have hodd := k.secret.modulus_odd
  rw [hzero] at hodd
  contradiction

/-- The number of bits of the modulus. -/
theorem size_modulus (k : Key) : k.secret.modulus.size = k.secret.modulus.log2 + 1 := by
  apply le_antisymm
  · exact Nat.size_le.mpr Nat.lt_log2_self
  · exact Nat.lt_size.mpr (Nat.log2_self_le k.modulus_ne_zero)

/-- A key reports its size in whole bytes. -/
theorem bits_eq (k : Key) : k.bits = 8 * ((k.secret.modulus.size + 7) / 8) := by
  rw [size_modulus, bits, Rsa.PrivateKey.size]
  omega

/-- They are the bytes that it publishes. -/
theorem bits_eq_length (k : Key) : k.bits = 8 * (Bytes.ofNat k.secret.modulus).length := by
  rw [Bytes.length_ofNat, Bytes.natSize, if_neg k.modulus_ne_zero, bits, Rsa.PrivateKey.size]
  omega

/-- The reported size is that of the modulus exactly if it is whole bytes. -/
theorem bits_eq_iff {n : Nat} (hn : k.secret.modulus.size = n) : k.bits = n ↔ 8 ∣ n := by
  rw [bits_eq, hn]
  omega

/-- A process that finds the document of a key holds the key. -/
theorem run_find_of_toPem {σ : Type} {pem : Bytes} (hpem : k.toPem = .ok pem) {w : World σ}
    {bucket : Bucket} {s s' : σ} (hread : w.call (.read bucket.blobName) s = (.ok (some pem), s'))
    (v : KeyWindow) : (Rotater.find bucket).run.run w v s = (.ok (some k), v, s') := by
  rw [Rotater.run_find, World.lookUp, hread]
  simp only [ofPem_toPem hpem]
  rfl

/-- A key reports the size of the modulus that it publishes exactly if that is a number of whole
bytes, and otherwise the next such number. A key that is generated for a size publishes a modulus of
that size, so it reports the size exactly if it is a multiple of eight, and whoever finds its
document holds the same key. -/
theorem bits_eq_size_iff (k : Key) :
    (∃ bs, k.Publishes bs ∧ k.bits = 8 * ((bs.toNat.size + 7) / 8) ∧ k.bits = 8 * bs.length ∧
      (k.bits = bs.toNat.size ↔ 8 ∣ bs.toNat.size)) ∧
    ∀ (bits : Nat) (e e' : Entropy), generate bits e = .ok (k, e') →
      (∃ bs, k.Publishes bs ∧ bs.toNat.size = bits) ∧ (k.bits = bits ↔ 8 ∣ bits) ∧
        ∀ pem, k.toPem = .ok pem → ∀ {σ : Type} (w : World σ) (bucket : Bucket) (v : KeyWindow)
          (s s' : σ),
          w.call (.read bucket.blobName) s = (.ok (some pem), s') →
            (Rotater.find bucket).run.run w v s = (.ok (some k), v, s') := by
  refine ⟨?any, fun bits e e' hgenerate => ?generated⟩
  case any =>
    refine ⟨_, k.publishes_modulus, ?_, k.bits_eq_length, ?_⟩
    · rw [Bytes.toNat_ofNat, bits_eq]
    · rw [Bytes.toNat_ofNat]
      exact bits_eq_iff rfl
  case generated =>
    have hsize : k.secret.modulus.size = bits := (size_modulus k).trans (log2_of_generate hgenerate)
    refine ⟨⟨_, k.publishes_modulus, ?_⟩, bits_eq_iff hsize, fun pem hpem _ _ _ v _ _ hread => ?_⟩
    · rw [Bytes.toNat_ofNat, hsize]
    · exact run_find_of_toPem hpem hread v

/-! ## Sizes that are no multiples of eight -/

/-- A world whose store has one blob under every name. -/
def oneBlobWorld (blob : Bytes) : World Unit where
  time _ := .zero
  call
    | .read _, s => (.ok (some blob), s)
    | .create _ _ _, s => (.ok false, s)
    | .write _ _ _, s => (.ok (), s)
  generate _ s := (.ok small55, s)

/-- A key that is generated for 18 bits has as many, and reports 24. So does a process that finds it
in the store. -/
theorem bits_drawn18 :
    ∃ (k : Key) (e' : Entropy) (pem : Bytes), generate 18 ⟨[], 9⟩ = .ok (k, e') ∧ k.bits = 24 ∧
    (∃ bs, k.Publishes bs ∧ bs.toNat.size = 18) ∧ ¬ k.bits = 18 ∧ k.toPem = .ok pem ∧
      (Rotater.find .zero).run.run (oneBlobWorld pem) .empty () = (.ok (some k), .empty, ()) := by
  have hdrawn : ((generate 18 ⟨[], 9⟩).toOption.any fun x => x.1.document?.isSome ∧ x.1.bits = 24) =
      true := by
    decide +kernel
  cases hgenerate : generate 18 ⟨[], 9⟩ with
  | error e =>
      rw [hgenerate] at hdrawn
      contradiction
  | ok x =>
      obtain ⟨k, e'⟩ := x
      rw [hgenerate] at hdrawn
      obtain ⟨hdocument, hbits⟩ := of_decide_eq_true hdrawn
      obtain ⟨pem, hpem⟩ := exists_toPem hdocument
      obtain ⟨hpublished, hreports, hfound⟩ := k.bits_eq_size_iff.2 18 _ e' hgenerate
      exact ⟨k, e', pem, rfl, hbits, hpublished, fun h => absurd (hreports.mp h) (by decide), hpem,
        hfound pem hpem (oneBlobWorld pem) .zero .empty () () rfl⟩

/-- The modulus 55 has six bits, but a key with it that was read reports eight. A rotater for keys
of 1025 bits is accepted, but every key that is generated for it reports 1032. -/
theorem not_bits_eq_size :
    (ofPem text55 = .ok small55 ∧ small55.Publishes [55] ∧ Bytes.toNat [55] = 55 ∧ Nat.size 55 = 6 ∧
      small55.bits = 8) ∧
      ∃ r, Rotater.create (.ofSeconds 3600) 1025 = .ok r ∧
        ∀ e e' k, generate r.keyStrength e = .ok (k, e') → k.bits = 1032 := by
  refine ⟨⟨ofPem_of_holds holds_text55, small55.publishes_modulus, rfl, size_modulus small55, rfl⟩,
    ?_⟩
  refine ⟨⟨.ofSeconds 3600, 1025, by decide, by decide⟩, rfl, fun e e' k hgenerate => ?_⟩
  have hsize : k.secret.modulus.size = 1025 := (size_modulus k).trans (log2_of_generate hgenerate)
  rw [bits_eq, hsize]

end Keyring.Key
