import Keyring.Proofs.SealedBlob
import Keyring.Proofs.Text.Base64.Canonical

/-! # The wire format is a bijection

A wire text is read as one blob and every blob is read back, so the blobs whose nonce and tag have
the prescribed lengths and the byte strings that are accepted correspond one to one. The separator
does not overlap with itself inside a text in any other way than the reader splits it: joining the
segments gives the text back.
-/

namespace Keyring.SealedBlob

variable {b : SealedBlob} {w : Bytes}

/-! ## Segments -/

theorem segments_ne_nil (w : Bytes) : segments w ≠ [] := by
  induction w using segments.induct with
  | case1 => simp [segments]
  | case2 a b rest hpair ih => simp [segments, hpair]
  | case3 a b rest hpair hnil ih => exact absurd hnil ih
  | case4 a b rest hpair s ss hrest ih => simp [segments, hpair, hrest]
  | case5 a => simp [segments]

/-- The segments joined by two hyphens each are the text. -/
theorem intercalate_segments (w : Bytes) : [hyphen, hyphen].intercalate (segments w) = w := by
  induction w using segments.induct with
  | case1 => rfl
  | case2 a b rest hpair ih =>
      obtain ⟨s, ss, hrest⟩ := List.exists_cons_of_ne_nil (segments_ne_nil rest)
      obtain ⟨rfl, rfl⟩ := hpair
      rw [segments, if_pos ⟨rfl, rfl⟩, hrest, List.intercalate_cons_cons, ← hrest, ih]
      rfl
  | case3 a b rest hpair hnil ih => exact absurd hnil (segments_ne_nil _)
  | case4 a b rest hpair s ss hrest ih =>
      rw [hrest] at ih
      rw [segments, if_neg hpair, hrest, ← ih]
      cases ss with
      | nil => rfl
      | cons t ss => rw [List.intercalate_cons_cons, List.intercalate_cons_cons]; rfl
  | case5 a => rfl

/-! ## Reading -/

/-- A part is read as some bytes only if it is how they are encoded. -/
theorem decodeSegment_eq_ok_iff {part : Part} {text bs : Bytes} :
    decodeSegment part text = .ok bs ↔ text = Base64.encodeBytes .standard bs := by
  rw [decodeSegment, Except.mapError_eq_ok_iff, Base64.decodeBytes_eq_ok_iff]

/-- A sealed blob has a nonce and a tag of the right length. -/
theorem checkLengths_eq_ok_iff :
    b.checkLengths = .ok () ↔ b.nonce.length = nonceSize ∧ b.tag.length = tagSize := by
  rw [checkLengths]
  split
  · next hnonce => simp [hnonce]
  · next hnonce =>
      split
      · next htag => simp [htag]
      · next htag => simp [not_not.mp hnonce, not_not.mp htag]

/-- Exactly the wire texts of blobs with the prescribed lengths are read. -/
theorem ofWire_eq_ok_iff : ofWire w = .ok b ↔ w = b.wireBytes ∧ b.checkLengths = .ok () := by
  constructor
  · intro h
    rw [ofWire] at h
    split at h
    · contradiction
    · split at h
      · next c n t hsegments =>
          simp only [Except.bind_eq_ok_iff, decodeSegment_eq_ok_iff] at h
          obtain ⟨ciphertext, rfl, nonce, rfl, tag, rfl, _, hlengths, h⟩ := h
          obtain rfl := Except.ok.inj h
          have hjoin := intercalate_segments w
          rw [hsegments, List.intercalate_cons_cons, List.intercalate_cons_cons] at hjoin
          refine ⟨?_, hlengths⟩
          rw [← hjoin, wireBytes]
          simp only [List.intercalate_singleton, List.append_assoc, List.cons_append,
            List.nil_append]
      · contradiction
  · rintro ⟨rfl, hlengths⟩
    exact ofWire_wireBytes hlengths

/-- Blobs with the same wire text are the same, whatever their lengths. -/
theorem wireBytes_injective {a b : SealedBlob} (h : a.wireBytes = b.wireBytes) : a = b := by
  have hread : ∀ {bs cs : Bytes},
      Base64.encodeBytes .standard bs = Base64.encodeBytes .standard cs → bs = cs := by
    intro bs cs hbytes
    have hbs := Base64.decodeBytes_encodeBytes .standard bs
    rw [hbytes, Base64.decodeBytes_encodeBytes] at hbs
    exact (Except.ok.inj hbs).symm
  have hsegments := segments_wireBytes a
  rw [h, segments_wireBytes] at hsegments
  simp only [List.cons.injEq, and_true] at hsegments
  obtain ⟨hciphertext, hnonce, htag⟩ := hsegments
  cases a
  cases b
  rw [mk.injEq]
  exact ⟨(hread hciphertext).symm, (hread hnonce).symm, (hread htag).symm⟩

/-- A wire text as bytes. -/
theorem utf8_wire (b : SealedBlob) : Utf8.encode b.wire = b.wireBytes :=
  Utf8.encode_ascii fun _ hc => lt_of_mem_wireBytes hc

/-- The byte string is the wire text of the blob, and nonce and tag have the lengths that the cipher
prescribes. -/
def IsWrittenAs (b : SealedBlob) (w : Bytes) : Prop :=
  w = Utf8.encode b.wire ∧ b.nonce.length = nonceSize ∧ b.tag.length = tagSize

/-- A wire text is read as a sealed blob only if the blob is written so. -/
theorem ofWire_eq_ok_iff_isWrittenAs : ofWire w = .ok b ↔ b.IsWrittenAs w := by
  rw [ofWire_eq_ok_iff, checkLengths_eq_ok_iff, IsWrittenAs, utf8_wire]

/-- Reading a wire text undoes writing one, and what no blob is written as is an integrity
failure. -/
theorem wire_bijective (w : Bytes) :
    (∀ b, (ofWire w).mapError Vault.integrityError = .ok b ↔ b.IsWrittenAs w) ∧
      ((∃ e, (ofWire w).mapError Vault.integrityError = .error e ∧ e.kind = .decryption) ↔
        ∀ b : SealedBlob, ¬ b.IsWrittenAs w) := by
  constructor
  · intro b
    rw [Except.mapError_eq_ok_iff, ofWire_eq_ok_iff_isWrittenAs]
  · have hkind : ∀ fault, (Vault.integrityError fault).kind = .decryption := fun _ => rfl
    rw [Except.exists_mapError_eq_error_iff hkind]
    simp only [ofWire_eq_ok_iff_isWrittenAs]

end Keyring.SealedBlob
