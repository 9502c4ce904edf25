import Keyring.Proofs.Cipher.Aes
import Keyring.Proofs.Store.Authenticity

/-! # A vault opens exactly what it sealed

The tag of a ciphertext is its hash combined with what the counter block of the nonce is encrypted
to. Different nonces have different counter blocks, a key encrypts different blocks differently, and
the hash does not depend on the nonce. So a ciphertext has one tag under a nonce and no tag under
two of them.
-/

namespace Keyring

/-- What a string was combined with is found from the combination. -/
theorem Bytes.xor_left_cancel {a m n : Bytes} (hm : m.length ≤ a.length) (hn : n.length ≤ a.length)
    (h : xor a m = xor a n) : m = n := by
  have hcomm : ∀ b : Bytes, xor a b = xor b a := fun b => List.zipWith_comm_of_comm UInt8.xor_comm
  rw [hcomm, hcomm] at h
  rw [← xor_xor hm, h, xor_xor hn]

namespace Gcm

variable {keys : List Aes.Block} {nonce nonce' ciphertext : Bytes}

/-- The first twelve bytes of a counter block are the nonce. -/
theorem eq_of_counterBlock_eq (hnonce : nonce.length = 12) (hnonce' : nonce'.length = 12)
    {counter : Nat} (h : counterBlock nonce counter = counterBlock nonce' counter) :
    nonce = nonce' := by
  have hlength : ∀ n : Bytes, n.length = 12 → (n ++ Bytes.ofNatFixed 4 counter).length = 16 := by
    intro n hn
    rw [List.length_append, hn, Bytes.length_ofNatFixed]
  have hbytes := congrArg Aes.Block.bytes h
  rw [counterBlock, counterBlock, Aes.Block.bytes_ofBytes (hlength _ hnonce),
    Aes.Block.bytes_ofBytes (hlength _ hnonce')] at hbytes
  exact (List.append_inj hbytes (hnonce.trans hnonce'.symm)).1

/-- A ciphertext has different tags under different nonces. -/
theorem eq_of_tag_eq (hnonce : nonce.length = 12) (hnonce' : nonce'.length = 12)
    (h : tag keys nonce ciphertext = tag keys nonce' ciphertext) : nonce = nonce' := by
  have hhash : ∀ x : Element, x.bytes.length = 16 := by
    intro x
    rw [Element.bytes, List.length_append, Bytes.length_ofNatFixed, Bytes.length_ofNatFixed]
  -- The hash is the same for both, so what the counter blocks are encrypted to is.
  have hmask := Bytes.xor_left_cancel (by rw [hhash]; exact Nat.le_refl 16)
    (by rw [hhash]; exact Nat.le_refl 16) h
  exact eq_of_counterBlock_eq hnonce hnonce'
    (Aes.encrypt_injective keys (Aes.Block.bytes_injective hmask))

end Gcm

namespace Vault

open SealedBlob
open Store.Sealed (zeroVault)

variable {v : Vault} {b b' : SealedBlob} {nonce plaintext plaintext' : Bytes}

/-- Opens a sealed blob. All that keeps it from being opened is an integrity failure. -/
def openBlob (v : Vault) (b : SealedBlob) : Except Error Bytes :=
  (v.decrypt b).mapError integrityError

/-- The blob is not opened. -/
def Refuses (v : Vault) (b : SealedBlob) : Prop :=
  ∃ e, v.openBlob b = .error e ∧ e.kind = .decryption

/-- A vault refuses what it opens to no text. -/
theorem refuses_iff : v.Refuses b ↔ ∀ plaintext, v.openBlob b ≠ .ok plaintext := by
  have hkind : ∀ fault, (integrityError fault).kind = .decryption := fun _ => rfl
  rw [Refuses, openBlob, Except.exists_mapError_eq_error_iff hkind]
  simp only [ne_eq, Except.mapError_eq_ok_iff]

/-- Exactly what is sealed under a nonce of twelve bytes is opened. -/
theorem openBlob_eq_ok_iff :
    v.openBlob b = .ok plaintext ↔
      b.nonce.length = nonceSize ∧ v.encrypt b.nonce plaintext = .ok b := by
  rw [openBlob, Except.mapError_eq_ok_iff, decrypt_eq_ok_iff, checkLengths_eq_ok_iff, encrypt]
  constructor
  · rintro ⟨⟨hnonce, -⟩, hfits, hseal⟩
    rw [if_pos hfits, hseal]
    exact ⟨hnonce, rfl⟩
  · rintro ⟨hnonce, hseal⟩
    split at hseal
    · next hfits =>
        have hb := Except.ok.inj hseal
        have hciphertext := congrArg ciphertext hb
        have htag := congrArg tag hb
        refine ⟨⟨hnonce, ?_⟩, hfits, Prod.ext hciphertext htag⟩
        rw [← htag]
        exact Gcm.length_tag _ _ _
    · contradiction

/-- The tag of a blob that is opened is that of its ciphertext under its nonce. -/
theorem tag_of_openBlob (h : v.openBlob b = .ok plaintext) :
    Gcm.tag v.roundKeys b.nonce b.ciphertext = b.tag := by
  rw [openBlob, Except.mapError_eq_ok_iff, decrypt_eq_ok_iff] at h
  obtain ⟨-, -, hseal⟩ := h
  obtain ⟨hciphertext, htag⟩ := Prod.mk.inj hseal
  rw [← htag, ← hciphertext]

/-- Of two blobs that are opened and have the same ciphertext, one has the tag of the other exactly
if it has its nonce. -/
theorem tag_eq_iff_of_openBlob (h : v.openBlob b = .ok plaintext)
    (h' : v.openBlob b' = .ok plaintext') (hciphertext : b'.ciphertext = b.ciphertext) :
    b'.tag = b.tag ↔ b'.nonce = b.nonce := by
  rw [← tag_of_openBlob h, ← tag_of_openBlob h', hciphertext]
  refine ⟨?_, fun hnonce => by rw [hnonce]⟩
  exact Gcm.eq_of_tag_eq (openBlob_eq_ok_iff.mp h').1 (openBlob_eq_ok_iff.mp h).1

/-- What was sealed is opened, and has a nonce and a tag of the prescribed lengths. What is opened
was sealed, and is not opened any more once its tag or its nonce is replaced by any other byte
string. -/
theorem openBlob_exact (v : Vault) :
    (∀ nonce plaintext, nonce.length = nonceSize → plaintext.length ≤ Gcm.maxLength →
      ∃ b, v.encrypt nonce plaintext = .ok b ∧ v.openBlob b = .ok plaintext ∧
        b.ciphertext.length = plaintext.length ∧ b.nonce = nonce ∧ b.tag.length = tagSize) ∧
    ∀ b plaintext, v.openBlob b = .ok plaintext → v.encrypt b.nonce plaintext = .ok b ∧
      (∀ tag, tag ≠ b.tag → v.Refuses { b with tag }) ∧ ∀ nonce, nonce ≠ b.nonce →
        v.Refuses { b with nonce } := by
  constructor
  · intro nonce plaintext hnonce hfits
    have hseal : v.encrypt nonce plaintext = .ok
        ⟨(Gcm.encrypt v.roundKeys nonce plaintext).1, nonce,
          (Gcm.encrypt v.roundKeys nonce plaintext).2⟩ := by
      rw [encrypt, if_pos hfits]
    exact ⟨_, hseal, openBlob_eq_ok_iff.mpr ⟨hnonce, hseal⟩, Gcm.length_crypt _ _ _, rfl,
      Gcm.length_tag _ _ _⟩
  · intro b plaintext h
    refine ⟨(openBlob_eq_ok_iff.mp h).2, fun tag htag => refuses_iff.mpr ?_,
      fun nonce hnonce => refuses_iff.mpr ?_⟩
    · intro plaintext' h'
      exact htag ((tag_eq_iff_of_openBlob h h' rfl).mpr rfl)
    · intro plaintext' h'
      exact hnonce ((tag_eq_iff_of_openBlob h h' rfl).mp rfl)

/-- A text of three bytes is sealed and opened; without its tag, without its nonce, or with another
nonce of the same length it is refused. -/
theorem openBlob_three : ∃ b, zeroVault.encrypt (List.replicate 12 7) [1, 2, 3] = .ok b ∧
    zeroVault.openBlob b = .ok [1, 2, 3] ∧ b.ciphertext.length = 3 ∧
    zeroVault.Refuses { b with tag := [] } ∧
    zeroVault.Refuses { b with nonce := [] } ∧
    zeroVault.Refuses { b with nonce := List.replicate 12 8 } := by
  obtain ⟨hseals, hopens⟩ := openBlob_exact zeroVault
  obtain ⟨b, hb, hopen, hlength, hnonce, htag⟩ :=
    hseals (List.replicate 12 7) [1, 2, 3] (by decide) (by decide)
  obtain ⟨-, hothertag, hothernonce⟩ := hopens b [1, 2, 3] hopen
  refine ⟨b, hb, hopen, hlength, hothertag [] ?_, hothernonce [] ?_, hothernonce _ ?_⟩
  · rintro h
    rw [← h] at htag
    contradiction
  · rw [hnonce]
    decide
  · rw [hnonce]
    decide

end Vault

end Keyring
