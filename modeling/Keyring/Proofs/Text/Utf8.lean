import Keyring.Text.Utf8

/-! # Texts are read back

Texts are encoded character by character. The first byte of a character says how many bytes it
takes, and the ranges of the second byte leave out just the spellings that no character has, so
every text is read back. A byte string of ASCII alone is a text with a character for each byte.
-/

namespace Keyring.Utf8

/-- Texts are encoded one after the other. -/
theorem encode_append (s t : String) : encode (s ++ t) = encode s ++ encode t := by
  rw [encode, String.toList_append, List.flatMap_append]
  rfl

/-! ## One character

The ranges of bytes as ranges of numbers, and what a well-formed sequence of each length is read
as. -/

/-- A byte is in a range if its number is. -/
theorem within_iff {lo hi b : UInt8} :
    within (lo, hi) b ↔ lo.toNat ≤ b.toNat ∧ b.toNat ≤ hi.toNat := by
  rw [within, Bool.and_eq_true, decide_eq_true_iff, decide_eq_true_iff, UInt8.le_iff_toNat_le,
    UInt8.le_iff_toNat_le]

/-- The bytes that continue a character. -/
theorem continues_iff {b : UInt8} : continues b ↔ 0x80 ≤ b.toNat ∧ b.toNat ≤ 0xBF := within_iff

/-- A byte above the range of ASCII starts no character of one byte. -/
theorem not_lt_ascii {a : UInt8} (h : 0x80 ≤ a.toNat) : ¬ a < 0x80 := by
  intro hlt
  have hlt : a.toNat < 0x80 := UInt8.lt_iff_toNat_lt.mp hlt
  omega

/-- A byte above a range is not in it. -/
theorem not_within {lo hi b : UInt8} (h : hi.toNat < b.toNat) : ¬ within (lo, hi) b := by
  intro hwithin
  have hle := (within_iff.mp hwithin).2
  omega

variable {a b c d : UInt8} (index : Nat) (rest : Bytes)

/-- A byte of ASCII is read as its character. -/
theorem decodeFrom_one (ha : a.toNat < 0x80) :
    decodeFrom index (a :: rest) = (decodeFrom (index + 1) rest).map (Char.ofNat a.toNat :: ·) := by
  have hlow : a < 0x80 := UInt8.lt_iff_toNat_lt.mpr ha
  rw [decodeFrom.eq_def]
  simp only [if_pos hlow]

/-- Two bytes are read as one character. -/
theorem decodeFrom_two (hlead : within (0xC2, 0xDF) a) (hb : continues b) :
    decodeFrom index (a :: b :: rest) =
      (decodeFrom (index + 2) rest).map (Char.ofNat (a.toNat % 32 * 64 + payload b) :: ·) := by
  have hge : 0xC2 ≤ a.toNat := (within_iff.mp hlead).1
  rw [decodeFrom.eq_def]
  simp only [if_neg (not_lt_ascii (show 0x80 ≤ a.toNat by omega)), if_pos hlead, if_pos hb]

/-- Three bytes are read as one character. -/
theorem decodeFrom_three (hlead : within (0xE0, 0xEF) a) (hb : within (secondOfThree a) b)
    (hc : continues c) :
    decodeFrom index (a :: b :: c :: rest) =
      (decodeFrom (index + 3) rest).map
        (Char.ofNat ((a.toNat % 16 * 64 + payload b) * 64 + payload c) :: ·) := by
  have hge : 0xE0 ≤ a.toNat := (within_iff.mp hlead).1
  have hnot : ¬ within (0xC2, 0xDF) a := not_within (Nat.lt_of_lt_of_le (by decide) hge)
  rw [decodeFrom.eq_def]
  simp only [if_neg (not_lt_ascii (show 0x80 ≤ a.toNat by omega)), if_neg hnot, if_pos hlead,
    if_pos hb, if_pos hc]

/-- Four bytes are read as one character. -/
theorem decodeFrom_four (hlead : within (0xF0, 0xF4) a) (hb : within (secondOfFour a) b)
    (hc : continues c) (hd : continues d) :
    decodeFrom index (a :: b :: c :: d :: rest) =
      (decodeFrom (index + 4) rest).map
        (Char.ofNat (((a.toNat % 8 * 64 + payload b) * 64 + payload c) * 64 + payload d) :: ·) := by
  have hge : 0xF0 ≤ a.toNat := (within_iff.mp hlead).1
  have hnot₂ : ¬ within (0xC2, 0xDF) a := not_within (Nat.lt_of_lt_of_le (by decide) hge)
  have hnot₃ : ¬ within (0xE0, 0xEF) a := not_within (Nat.lt_of_lt_of_le (by decide) hge)
  rw [decodeFrom.eq_def]
  simp only [if_neg (not_lt_ascii (show 0x80 ≤ a.toNat by omega)), if_neg hnot₂, if_neg hnot₃,
    if_pos hlead, if_pos hb, if_pos hc, if_pos hd]

/-- A second byte is in the range of its lead byte if the code point is not below those of the
length and is no surrogate. -/
theorem within_secondOfThree (hb : continues b) (hlow : a.toNat = 0xE0 → 0xA0 ≤ b.toNat)
    (hhigh : a.toNat = 0xED → b.toNat ≤ 0x9F) : within (secondOfThree a) b := by
  obtain ⟨hge, hle⟩ := continues_iff.mp hb
  rw [secondOfThree]
  split
  · next ha => exact within_iff.mpr ⟨hlow (congrArg UInt8.toNat ha), hle⟩
  · split
    · next ha => exact within_iff.mpr ⟨hge, hhigh (congrArg UInt8.toNat ha)⟩
    · exact hb

/-- The second of four bytes is in the range that the first leaves for it. -/
theorem within_secondOfFour (hb : continues b) (hlow : a.toNat = 0xF0 → 0x90 ≤ b.toNat)
    (hhigh : a.toNat = 0xF4 → b.toNat ≤ 0x8F) : within (secondOfFour a) b := by
  obtain ⟨hge, hle⟩ := continues_iff.mp hb
  rw [secondOfFour]
  split
  · next ha => exact within_iff.mpr ⟨hlow (congrArg UInt8.toNat ha), hle⟩
  · split
    · next ha => exact within_iff.mpr ⟨hge, hhigh (congrArg UInt8.toNat ha)⟩
    · exact hb

/-- A character is read back, whatever follows it. -/
theorem decodeFrom_encodeChar (x : Char) :
    decodeFrom index (String.utf8EncodeChar x ++ rest) =
      (decodeFrom (index + (String.utf8EncodeChar x).length) rest).map (x :: ·) := by
  have hranges : x.toNat < 0xD800 ∨ 0xDFFF < x.toNat ∧ x.toNat < 0x110000 := x.valid
  have hchar : ∀ n, n = x.toNat → Char.ofNat n = x := by
    rintro n rfl
    exact Char.ofNat_toNat x
  have hvalue : x.val.toNat = x.toNat := rfl
  -- A byte of the encoding by its number, and one that continues a sequence by its payload.
  have hbyte : ∀ n < 256, (UInt8.ofNat n).toNat = n := fun n hn => UInt8.toNat_ofNat_of_lt hn
  have htail :
      ∀ n < 64, continues (UInt8.ofNat (n + 128)) ∧ payload (UInt8.ofNat (n + 128)) = n := by
    intro n hn
    rw [continues_iff, payload, hbyte _ (by omega)]
    omega
  generalize x.toNat = v at hranges hchar hvalue
  rw [String.utf8EncodeChar, hvalue]
  split
  · next h₁ =>
      have ha := hbyte v (by omega)
      rw [List.singleton_append, decodeFrom_one _ _ (by omega), hchar _ ha]
      rfl
  split
  · next h₁ h₂ =>
      have ha := hbyte (v / 64 % 32 + 192) (by omega)
      obtain ⟨hb, hb'⟩ := htail (v % 64) (by omega)
      have hlead : within (0xC2, 0xDF) (UInt8.ofNat (v / 64 % 32 + 192)) := by
        rw [within_iff, ha]
        exact ⟨by change 194 ≤ _; omega, by change _ ≤ 223; omega⟩
      rw [List.cons_append, List.singleton_append, decodeFrom_two _ _ hlead hb, ha, hb',
        hchar _ (by omega)]
      rfl
  split
  · next h₁ h₂ h₃ =>
      have ha := hbyte (v / 4096 % 16 + 224) (by omega)
      have hbn := hbyte (v / 64 % 64 + 128) (by omega)
      obtain ⟨hb, hb'⟩ := htail (v / 64 % 64) (by omega)
      obtain ⟨hc, hc'⟩ := htail (v % 64) (by omega)
      have hlead : within (0xE0, 0xEF) (UInt8.ofNat (v / 4096 % 16 + 224)) := by
        rw [within_iff, ha]
        exact ⟨by change 224 ≤ _; omega, by change _ ≤ 239; omega⟩
      have hsecond := within_secondOfThree (a := UInt8.ofNat (v / 4096 % 16 + 224)) hb
        (by rw [ha, hbn]; omega) (by rw [ha, hbn]; omega)
      simp only [List.cons_append, List.nil_append]
      rw [decodeFrom_three _ _ hlead hsecond hc, ha, hb', hc', hchar _ (by omega)]
      rfl
  · next h₁ h₂ h₃ =>
      have ha := hbyte (v / 262144 % 8 + 240) (by omega)
      have hbn := hbyte (v / 4096 % 64 + 128) (by omega)
      obtain ⟨hb, hb'⟩ := htail (v / 4096 % 64) (by omega)
      obtain ⟨hc, hc'⟩ := htail (v / 64 % 64) (by omega)
      obtain ⟨hd, hd'⟩ := htail (v % 64) (by omega)
      have hlead : within (0xF0, 0xF4) (UInt8.ofNat (v / 262144 % 8 + 240)) := by
        rw [within_iff, ha]
        exact ⟨by change 240 ≤ _; omega, by change _ ≤ 244; omega⟩
      have hsecond := within_secondOfFour (a := UInt8.ofNat (v / 262144 % 8 + 240)) hb
        (by rw [ha, hbn]; omega) (by rw [ha, hbn]; omega)
      simp only [List.cons_append, List.nil_append]
      rw [decodeFrom_four _ _ hlead hsecond hc hd, ha, hb', hc', hd', hchar _ (by omega)]
      rfl

/-! ## Whole texts -/

/-- Encoded characters are read back. -/
theorem decodeFrom_flatMap (chars : List Char) :
    decodeFrom index (chars.flatMap String.utf8EncodeChar) = .ok chars := by
  induction chars generalizing index with
  | nil => rfl
  | cons c chars ih =>
      rw [List.flatMap_cons, decodeFrom_encodeChar, ih]
      rfl

/-- Every text is read back from its bytes. -/
theorem decode_encode (s : String) : decode (encode s) = .ok s := by
  rw [decode, encode, decodeFrom_flatMap]
  exact congrArg Except.ok (String.ofList_toList)

/-- Texts with the same bytes are the same. -/
theorem encode_injective {s t : String} (h : encode s = encode t) : s = t := by
  have hs := decode_encode s
  rw [h, decode_encode] at hs
  exact (Except.ok.inj hs).symm

/-! ## ASCII -/

/-- Bytes of ASCII are the text that has them for characters. -/
theorem encode_ascii {bs : Bytes} (h : ∀ b ∈ bs, b < 0x80) :
    encode (String.ofList (bs.map fun b => Char.ofNat b.toNat)) = bs := by
  rw [encode, String.toList_ofList]
  induction bs with
  | nil => rfl
  | cons b bs ih =>
      have hb : b.toNat < 0x80 := UInt8.lt_iff_toNat_lt.mp (h b List.mem_cons_self)
      have hvalid : b.toNat.isValidChar := .inl (by omega)
      have hvalue : (Char.ofNat b.toNat).val.toNat = b.toNat := by
        rw [Char.ofNat, dif_pos hvalid]
        rfl
      rw [List.map_cons, List.flatMap_cons, ih fun c hc => h c (List.mem_cons_of_mem b hc),
        String.utf8EncodeChar, hvalue, if_pos (by omega), UInt8.ofNat_toNat]
      rfl

/-- ASCII is a text. -/
theorem decode_ascii {bs : Bytes} (h : ∀ b ∈ bs, b < 0x80) : ∃ s, decode bs = .ok s := by
  rw [← encode_ascii h]
  exact ⟨_, decode_encode _⟩

end Keyring.Utf8
