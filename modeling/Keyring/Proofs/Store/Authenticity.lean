import Keyring.Proofs.SealedBlob.Wire
import Keyring.Proofs.Store.Transparency

/-! # Sealed blobs are not malleable

A vault opens a byte string only if it is the wire text that it would seal the secret as, under the
nonce in the text. So whoever can write to the inner store, but cannot compute tags, cannot make a
reader accept another spelling of a sealed blob or another blob: all he can bring about is an
integrity failure.
-/

namespace Keyring

/-- The tag is right exactly if the ciphertext is that of the plaintext. -/
theorem Gcm.decrypt?_eq_some_iff {keys : List Aes.Block}
    {nonce ciphertext given plaintext : Bytes} :
    decrypt? keys nonce ciphertext given = some plaintext ↔
      encrypt keys nonce plaintext = (ciphertext, given) := by
  constructor
  · intro h
    rw [decrypt?] at h
    split at h
    · next htag =>
        obtain rfl := Option.some.inj h
        rw [encrypt, crypt_crypt, htag]
    · contradiction
  · intro h
    have hopen := decrypt?_encrypt keys nonce plaintext
    rw [h] at hopen
    exact hopen

/-- The nonce in a wire text. -/
def SealedBlob.nonceOf? (w : Bytes) : Option Bytes := (ofWire w).toOption.map (·.nonce)

namespace Vault

open SealedBlob

variable {v : Vault} {nonce plaintext w : Bytes} {b : SealedBlob}

/-- What is sealed is a blob with the nonce it was sealed under. -/
theorem lock_eq_ok_iff :
    v.lock nonce plaintext = .ok w ↔
      plaintext.length ≤ Gcm.maxLength ∧ v.text nonce plaintext = w := by
  by_cases hfits : plaintext.length ≤ Gcm.maxLength
  · rw [lock_eq hfits, Except.ok.injEq]
    exact (and_iff_right hfits).symm
  · constructor
    · intro h
      rw [lock, encrypt, if_neg hfits] at h
      contradiction
    · rintro ⟨hfits', -⟩
      exact absurd hfits' hfits

/-- A blob is opened exactly if it has the prescribed lengths and sealing the plaintext under its
nonce gives it back. -/
theorem decrypt_eq_ok_iff :
    v.decrypt b = .ok plaintext ↔
      b.checkLengths = .ok () ∧ plaintext.length ≤ Gcm.maxLength ∧
        Gcm.encrypt v.roundKeys b.nonce plaintext = (b.ciphertext, b.tag) := by
  have hlength : Gcm.encrypt v.roundKeys b.nonce plaintext = (b.ciphertext, b.tag) →
      b.ciphertext.length = plaintext.length := by
    intro h
    rw [← (Prod.mk.inj h).1, Gcm.length_crypt]
  rw [decrypt, Except.bind_eq_ok_iff]
  constructor
  · rintro ⟨_, hlengths, h⟩
    split at h
    · next hfits =>
        split at h
        · next opened hopen =>
            obtain rfl := Except.ok.inj h
            have hseal := Gcm.decrypt?_eq_some_iff.mp hopen
            rw [hlength hseal] at hfits
            exact ⟨hlengths, hfits, hseal⟩
        · contradiction
    · contradiction
  · rintro ⟨hlengths, hfits, hseal⟩
    refine ⟨(), hlengths, ?_⟩
    rw [if_pos (by rw [hlength hseal]; exact hfits), Gcm.decrypt?_eq_some_iff.mpr hseal]
    rfl

/-- A stored byte string opens to a secret exactly if it is what the secret is sealed as, under the
nonce in it. -/
theorem unlock_eq_ok_iff :
    v.unlock w = .ok plaintext ↔
      ∃ nonce, nonceOf? w = some nonce ∧ v.lock nonce plaintext = .ok w := by
  rw [unlock, Except.mapError_eq_ok_iff, Except.bind_eq_ok_iff]
  constructor
  · rintro ⟨b, hwire, hopen⟩
    obtain ⟨-, hfits, hseal⟩ := decrypt_eq_ok_iff.mp hopen
    refine ⟨b.nonce, ?_, ?_⟩
    · rw [nonceOf?, hwire]
      rfl
    · rw [lock_eq hfits, text, hseal]
      rw [(ofWire_eq_ok_iff.mp hwire).1]
  · rintro ⟨nonce, hnonce, hlock⟩
    obtain ⟨hfits, htext⟩ := lock_eq_ok_iff.mp hlock
    obtain ⟨b, hwire, rfl⟩ : ∃ b, ofWire w = .ok b ∧ b.nonce = nonce := by
      rw [nonceOf?] at hnonce
      cases hw : ofWire w with
      | error fault =>
          rw [hw] at hnonce
          contradiction
      | ok b =>
          rw [hw] at hnonce
          exact ⟨b, rfl, Option.some.inj hnonce⟩
    refine ⟨b, hwire, ?_⟩
    obtain ⟨hw, hlengths⟩ := ofWire_eq_ok_iff.mp hwire
    -- Both the stored blob and the sealed secret have this wire text, so they are the same blob.
    have hsame := wireBytes_injective (htext.trans hw)
    refine decrypt_eq_ok_iff.mpr ⟨hlengths, hfits, ?_⟩
    exact Prod.ext (congrArg ciphertext hsame) (congrArg tag hsame)

/-- What does not open is an integrity failure. -/
theorem kind_of_unlock {e : Error} (h : v.unlock w = .error e) : e.kind = .decryption := by
  rw [unlock] at h
  cases hopen : (do v.decrypt (← ofWire w) : Except Fault Bytes) with
  | ok plaintext =>
      rw [hopen] at h
      contradiction
  | error fault =>
      rw [hopen] at h
      obtain rfl := Except.error.inj h
      rfl

end Vault

namespace Store.Sealed

open SealedBlob

variable {σ : Type} {v : Vault} {inner : Backend σ} {s s' : σ} {now : Duration} {name : String}
  {w : Bytes}

/-- The answer of the sealed store to a read. -/
def look (v : Vault) (inner : Backend σ) (now : Duration) (name : String) (s : σ)
    (entropy : Entropy) : Except Error (Option Bytes) :=
  ((backend v inner).call now (.read name) (s, entropy)).1

/-- A read that finds a stored byte string answers with what that opens to. -/
theorem look_eq (hfound : inner.call now (.read name) s = (.ok (some w), s')) (entropy : Entropy) :
    look v inner now name s entropy = (v.unlock w).map some := by
  simp only [look, backend, callWith, hfound]

/-- A read that finds a stored byte string answers with the secret that is sealed as just that under
the nonce in it, or with an integrity failure; and of the byte strings with that nonce, no other
opens to the same secret. -/
theorem unmalleable (v : Vault) (inner : Backend σ)
    (hfound : inner.call now (.read name) s = (.ok (some w), s')) (entropy : Entropy) :
    (∀ p, look v inner now name s entropy = .ok (some p) ↔
      ∃ nonce, nonceOf? w = some nonce ∧ v.lock nonce p = .ok w) ∧
    ((∃ p, look v inner now name s entropy = .ok (some p)) ∨
      ∃ e, look v inner now name s entropy = .error e ∧ e.kind = .decryption) ∧
    ∀ {later other t t' w'} (entropy' : Entropy) (p : Bytes),
      inner.call later (.read other) t = (.ok (some w'), t') → nonceOf? w' = nonceOf? w →
      look v inner now name s entropy = .ok (some p) →
      look v inner later other t entropy' = .ok (some p) → w' = w := by
  have hopened :
      ∀ {stored p}, (v.unlock stored).map some = .ok (some p) ↔ v.unlock stored = .ok p := by
    intro stored p
    cases v.unlock stored <;> simp [Except.map]
  rw [look_eq hfound]
  refine ⟨?_, ?_, ?_⟩
  · intro p
    rw [hopened, Vault.unlock_eq_ok_iff]
  · cases hw : v.unlock w with
    | ok p => exact .inl ⟨p, rfl⟩
    | error e => exact .inr ⟨e, rfl, Vault.kind_of_unlock hw⟩
  · intro later other t t' w' entropy' p hother hnonce hp hp'
    rw [look_eq hother, hopened, Vault.unlock_eq_ok_iff] at hp'
    rw [hopened, Vault.unlock_eq_ok_iff] at hp
    obtain ⟨n, hn, hlock⟩ := hp
    obtain ⟨n', hn', hlock'⟩ := hp'
    -- Both are what the secret is sealed as under the one nonce.
    obtain rfl : n' = n := Option.some.inj (hn'.symm.trans (hnonce.trans hn))
    exact Except.ok.inj (hlock'.symm.trans hlock)

/-- A memory store that holds a byte string under a name. -/
def holding (w : Bytes) : Memory := (Memory.backend.call .zero (.write "a" w (.ofSeconds 5)) {}).2

/-- What the memory store holds is found. -/
theorem call_holding (w : Bytes) :
    ∃ s', Memory.backend.call .zero (.read "a") (holding w) = (.ok (some w), s') :=
  ⟨_, rfl⟩

/-- What a vault sealed is read back; a text of two segments is an integrity failure. -/
theorem unmalleable_holding :
    look zeroVault Memory.backend .zero "a"
      (holding (zeroVault.text (List.replicate 12 7) [1, 2, 3])) ⟨[], 0⟩ =
        .ok (some [1, 2, 3]) ∧
      ∃ e, look zeroVault Memory.backend .zero "a" (holding (Utf8.encode "abc--def")) ⟨[], 0⟩ =
        .error e ∧
        e.kind = .decryption := by
  constructor
  · obtain ⟨s', hfound⟩ := call_holding (zeroVault.text (List.replicate 12 7) [1, 2, 3])
    obtain ⟨hopens, -⟩ := unmalleable zeroVault Memory.backend hfound ⟨[], 0⟩
    rw [hopens]
    exact Vault.unlock_eq_ok_iff.mp (Vault.unlock_text (by decide) (by decide))
  · obtain ⟨s', hfound⟩ := call_holding (Utf8.encode "abc--def")
    obtain ⟨hopens, hverdict, -⟩ := unmalleable zeroVault Memory.backend hfound ⟨[], 0⟩
    rcases hverdict with ⟨p, hp⟩ | hrefused
    · obtain ⟨nonce, hnonce, -⟩ := (hopens p).mp hp
      have hnone : nonceOf? (Utf8.encode "abc--def") = none := by decide +kernel
      rw [hnone] at hnonce
      exact absurd hnonce (by simp)
    · exact hrefused

end Store.Sealed

end Keyring
