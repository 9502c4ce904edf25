import Keyring.Proofs.Cipher.Gcm
import Keyring.Proofs.Text.Base64
import Keyring.Proofs.Text.Utf8
import Keyring.Vault

/-! # Sealed blobs are read back

Base64 writes no hyphens, so a wire text splits into the segments that it was joined from. Each of
them is read as what was written, whatever its length, so a vault unlocks what it locked.
-/

namespace Keyring

namespace SealedBlob

/-- Any other byte than a hyphen goes to the first segment. -/
theorem segments_cons {a : UInt8} (ha : a ≠ hyphen) {rest s : Bytes} {ss : List Bytes}
    (h : segments rest = s :: ss) : segments (a :: rest) = (a :: s) :: ss := by
  cases rest with
  | nil =>
      obtain ⟨rfl, rfl⟩ := List.cons.inj h
      rfl
  | cons b rest => rw [segments, if_neg fun hpair => ha hpair.1, h]

/-- A text without hyphens is one segment. -/
theorem segments_of_not_mem {s : Bytes} (h : hyphen ∉ s) : segments s = [s] := by
  induction s with
  | nil => rfl
  | cons a s ih =>
      obtain ⟨ha, hs⟩ := not_or.mp (mt List.mem_cons.mpr h)
      exact segments_cons (Ne.symm ha) (ih hs)

/-- The first two hyphens end the first segment. -/
theorem segments_append {s : Bytes} (h : hyphen ∉ s) (rest : Bytes) :
    segments (s ++ hyphen :: hyphen :: rest) = s :: segments rest := by
  induction s with
  | nil => rw [List.nil_append, segments, if_pos ⟨rfl, rfl⟩]
  | cons a s ih =>
      obtain ⟨ha, hs⟩ := not_or.mp (mt List.mem_cons.mpr h)
      exact segments_cons (Ne.symm ha) (ih hs)

/-- The alphabet has no hyphen, so the parts of a wire text can be told apart. -/
theorem hyphen_not_mem_encodeBytes (bs : Bytes) : hyphen ∉ Base64.encodeBytes .standard bs := by
  intro hmem
  have hsymbol : ∀ v < 64, hyphen ≠ Base64.symbol .standard v := by decide
  rcases Base64.eq_of_mem_encodeBytes hmem with ⟨-, hpad⟩ | ⟨v, hv, hv'⟩
  · exact absurd hpad (by decide)
  · exact hsymbol v hv hv'

/-- A wire text is cut into its three parts. -/
theorem segments_wireBytes (b : SealedBlob) :
    segments b.wireBytes = [Base64.encodeBytes .standard b.ciphertext,
      Base64.encodeBytes .standard b.nonce, Base64.encodeBytes .standard b.tag] := by
  rw [wireBytes, segments_append (hyphen_not_mem_encodeBytes _),
    segments_append (hyphen_not_mem_encodeBytes _),
    segments_of_not_mem (hyphen_not_mem_encodeBytes _)]

/-- A wire text is ASCII. -/
theorem lt_of_mem_wireBytes {b : SealedBlob} {c : UInt8} (h : c ∈ b.wireBytes) : c < 0x80 := by
  have hhyphen : hyphen < 0x80 := by decide
  simp only [wireBytes, List.mem_append, List.mem_cons] at h
  rcases h with h | rfl | rfl | h | rfl | rfl | h
  all_goals first | exact hhyphen | exact (Base64.visible_of_mem_encodeBytes h).2

/-- An encoded part is read back. -/
theorem decodeSegment_encodeBytes (part : Part) (bs : Bytes) :
    decodeSegment part (Base64.encodeBytes .standard bs) = .ok bs := by
  rw [decodeSegment, Base64.decodeBytes_encodeBytes]
  rfl

/-- A wire text is read as the blob that it was written for. -/
theorem ofWire_wireBytes {b : SealedBlob} (h : b.checkLengths = .ok ()) :
    ofWire b.wireBytes = .ok b := by
  obtain ⟨text, htext⟩ := Utf8.decode_ascii fun c (hc : c ∈ b.wireBytes) => lt_of_mem_wireBytes hc
  rw [ofWire, htext]
  simp only [segments_wireBytes, decodeSegment_encodeBytes]
  change (do checkLengths b; return b) = Except.ok b
  rw [h]
  rfl

end SealedBlob

namespace Vault

variable {v : Vault} {nonce blob : Bytes}

/-- The wire text of a blob sealed under a nonce, for blobs that the cipher takes. -/
def text (v : Vault) (nonce blob : Bytes) : Bytes :=
  let (ciphertext, tag) := Gcm.encrypt v.roundKeys nonce blob
  SealedBlob.wireBytes ⟨ciphertext, nonce, tag⟩

theorem lock_eq (hfits : blob.length ≤ Gcm.maxLength) :
    v.lock nonce blob = .ok (v.text nonce blob) := by
  rw [lock, encrypt, if_pos hfits]
  rfl

/-- A vault unlocks what it locked, also nothing at all. -/
theorem unlock_text (hnonce : nonce.length = SealedBlob.nonceSize)
    (hfits : blob.length ≤ Gcm.maxLength) : v.unlock (v.text nonce blob) = .ok blob := by
  have hlengths : SealedBlob.checkLengths
      ⟨(Gcm.encrypt v.roundKeys nonce blob).1, nonce, (Gcm.encrypt v.roundKeys nonce blob).2⟩ =
        .ok () := by
    have htag : (Gcm.encrypt v.roundKeys nonce blob).2.length = SealedBlob.tagSize :=
      Gcm.length_tag _ _ _
    rw [SealedBlob.checkLengths, if_neg (not_not_intro hnonce), if_neg (not_not_intro htag)]
  have hlength : (Gcm.encrypt v.roundKeys nonce blob).1.length ≤ Gcm.maxLength := by
    rw [Gcm.encrypt, Gcm.length_crypt]
    exact hfits
  have hopen := Gcm.decrypt?_encrypt v.roundKeys nonce blob
  rw [unlock, text, SealedBlob.ofWire_wireBytes hlengths]
  change (v.decrypt _).mapError integrityError = .ok blob
  rw [decrypt, hlengths]
  change ((if (Gcm.encrypt v.roundKeys nonce blob).1.length ≤ Gcm.maxLength then _ else _ :
    Except SealedBlob.Fault Bytes)).mapError integrityError = .ok blob
  rw [if_pos hlength, hopen]
  rfl

end Vault

end Keyring
