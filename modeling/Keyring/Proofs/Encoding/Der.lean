import Keyring.Encoding.Der
import Keyring.Proofs.Bytes

/-! # Reading what DER wrote

Every sequence of non-negative integers is read back from its document, as long as the document has
fewer than 2^32 bytes, which its length field can count. A number that is read fits into as many
bytes as the document has, and takes only a few more bytes when it is written.
-/

namespace Keyring.Der

/-- What a length field can count. -/
private theorem length_le_four {n : Nat} (h : n < 256 ^ 4) : (Bytes.ofNat n).length ≤ 4 := by
  rw [Bytes.length_ofNat]
  have hsize := Bytes.natSize_le h
  omega

/-- A length is read back from its spelling. -/
theorem readLength_lengthBytes {n : Nat} (h : n < 256 ^ 4) (rest : Bytes) :
    readLength (lengthBytes n ++ rest) = some (n, rest) := by
  by_cases hn : n < 0x80
  · have hb : (UInt8.ofNat n).toNat = n := by
      rw [UInt8.toNat_ofNat']
      omega
    have hlt : UInt8.ofNat n < 0x80 := by
      rw [UInt8.lt_iff_toNat_lt, hb]
      exact hn
    rw [lengthBytes, if_pos hn, List.singleton_append, readLength, if_pos hlt, hb]
  · have hle := length_le_four h
    have hpos : 0 < (Bytes.ofNat n).length := by
      rw [Bytes.length_ofNat]
      omega
    have hb :
        (UInt8.ofNat (0x80 + (Bytes.ofNat n).length)).toNat = 0x80 + (Bytes.ofNat n).length := by
      rw [UInt8.toNat_ofNat']
      omega
    have hnlt : ¬ UInt8.ofNat (0x80 + (Bytes.ofNat n).length) < 0x80 := by
      rw [UInt8.lt_iff_toNat_lt, hb]
      exact Nat.not_lt.mpr (Nat.le_add_right _ _)
    have hspell : lengthBytes n = UInt8.ofNat (0x80 + (Bytes.ofNat n).length) :: Bytes.ofNat n := by
      rw [lengthBytes, if_neg hn]
    rw [hspell, List.cons_append, readLength, if_neg hnlt]
    simp only [hb, Nat.add_sub_cancel_left, List.take_left, List.drop_left, Bytes.toNat_ofNat,
      hspell, if_true]
    rw [if_neg]
    rw [maxLengthSize]
    omega

/-- A tagged value is read back with what follows it. -/
theorem readTagged_tagged (tag : UInt8) {content : Bytes} (h : content.length < 256 ^ 4)
    (rest : Bytes) : readTagged tag (tagged tag content ++ rest) = some (content, rest) := by
  have hlen : ¬ (content ++ rest).length < content.length := by
    rw [List.length_append]
    omega
  rw [tagged, List.cons_append, List.append_assoc, readTagged, if_neg (by simp),
    readLength_lengthBytes h]
  simp only [Option.bind_eq_bind, Option.bind_some, if_neg hlen, List.take_left, List.drop_left]

/-- The bytes of a number, with the sign byte if there is one, spell the number. -/
theorem readContent_integerContent (n : Nat) : readContent (integerContent n) = some n := by
  have hn : Bytes.toNat (Bytes.ofNat n) = n := Bytes.toNat_ofNat n
  rw [integerContent]
  cases hbs : Bytes.ofNat n with
  | nil =>
      have hlen : (Bytes.ofNat n).length = 0 := by rw [hbs]; rfl
      rw [Bytes.length_ofNat] at hlen
      omega
  | cons a rest =>
      rw [hbs] at hn
      cases rest with
      | nil =>
          rw [Bytes.toNat_singleton] at hn
          simp only
          split
          · next h =>
              rw [readContent, if_pos rfl, if_neg (UInt8.not_lt.mpr h), Bytes.toNat_singleton, hn]
          · next h => rw [readContent, if_pos (UInt8.not_le.mp h), hn]
      | cons b bs =>
          simp only
          split
          · next h => rw [readContent, if_pos rfl, if_neg (UInt8.not_lt.mpr h), hn]
          · next h =>
              -- A leading zero would have been left out.
              rw [readContent, if_neg (Bytes.head_ofNat_ne_zero hbs), if_pos (UInt8.not_le.mp h),
                hn]

/-- An integer is read back with what follows it. -/
theorem readInteger_integer {n : Nat} (h : (integer n).length < 256 ^ 4) (rest : Bytes) :
    readInteger (integer n ++ rest) = some (n, rest) := by
  have hcontent : (integerContent n).length < 256 ^ 4 := by
    apply Nat.lt_of_le_of_lt _ h
    rw [integer, tagged, List.length_cons, List.length_append]
    omega
  rw [readInteger, integer, readTagged_tagged _ hcontent]
  simp only [Option.bind_eq_bind, Option.bind_some, readContent_integerContent, pure]

/-- As many integers as were written are read back. -/
theorem readIntegers_flatMap {ns : List Nat} (h : (ns.flatMap integer).length < 256 ^ 4) :
    readIntegers ns.length (ns.flatMap integer) = some ns := by
  induction ns with
  | nil => rfl
  | cons n ns ih =>
      rw [List.flatMap_cons, List.length_append] at h
      rw [List.length_cons, List.flatMap_cons, readIntegers, readInteger_integer (by omega)]
      simp only [Option.bind_eq_bind, Option.bind_some, ih (by omega), pure]

/-- A document is read back. -/
theorem readSequence_integers {ns : List Nat} (h : (integers ns).length ≤ maxSize) :
    readSequence ns.length (integers ns) = some ns := by
  have hcontent : (ns.flatMap integer).length < 256 ^ 4 := by
    have hle : (ns.flatMap integer).length ≤ (integers ns).length := by
      rw [integers, tagged, List.length_cons, List.length_append]
      omega
    have hmax : maxSize < 256 ^ 4 := by decide
    omega
  have hread : readTagged sequenceTag (integers ns) = some (ns.flatMap integer, []) := by
    rw [← List.append_nil (integers ns), integers, readTagged_tagged _ hcontent]
  rw [readSequence, hread]
  simp only [Option.bind_eq_bind, Option.bind_some, List.isEmpty_nil, if_true,
    readIntegers_flatMap hcontent]

/-! ## Sizes -/

variable {bs content rest : Bytes} {tag : UInt8} {n width count : Nat} {ns : List Nat}

theorem length_le_of_readLength (h : readLength bs = some (n, rest)) : rest.length ≤ bs.length := by
  cases bs with
  | nil => contradiction
  | cons b tail =>
      rw [readLength] at h
      split at h
      · obtain ⟨-, rfl⟩ := Prod.mk.inj (Option.some.inj h)
        exact Nat.le_succ _
      · dsimp only at h
        split at h
        · contradiction
        · split at h
          · obtain ⟨-, rfl⟩ := Prod.mk.inj (Option.some.inj h)
            exact ((List.drop_sublist _ tail).trans (List.sublist_cons_self b tail)).length_le
          · exact absurd h (by simp)

theorem length_le_of_readTagged (h : readTagged tag bs = some (content, rest)) :
    content.length + rest.length ≤ bs.length := by
  cases bs with
  | nil => contradiction
  | cons b tail =>
      rw [readTagged] at h
      split at h
      · contradiction
      · rw [Option.bind_eq_bind, Option.bind_eq_some_iff] at h
        obtain ⟨⟨size, value⟩, hlength, h⟩ := h
        dsimp only at h
        split at h
        · contradiction
        · obtain ⟨rfl, rfl⟩ := Prod.mk.inj (Option.some.inj h)
          rw [← List.length_append, List.take_append_drop, List.length_cons]
          exact Nat.le_succ_of_le (length_le_of_readLength hlength)

/-- A number fits into its content. -/
theorem lt_of_readContent (h : readContent content = some n) : n < 256 ^ content.length := by
  unfold readContent at h
  split at h
  · contradiction
  · next b =>
      split at h
      · obtain rfl := Option.some.inj h
        exact b.toNat_lt
      · contradiction
  · next a b tail =>
      split at h
      · split at h
        · contradiction
        · obtain rfl := Option.some.inj h
          calc Bytes.toNat (b :: tail) < 256 ^ (b :: tail).length := Bytes.toNat_lt _
            _ ≤ 256 ^ (a :: b :: tail).length := Nat.pow_le_pow_right (by decide) (Nat.le_succ _)
      · split at h
        · obtain rfl := Option.some.inj h
          exact Bytes.toNat_lt _
        · contradiction

/-- An integer that is read is not greater than its bytes allow. -/
theorem lt_of_readInteger (h : readInteger bs = some (n, rest)) :
    n < 256 ^ bs.length ∧ rest.length ≤ bs.length := by
  simp only [readInteger, Option.bind_eq_bind, Option.bind_eq_some_iff] at h
  obtain ⟨⟨content, rest'⟩, htagged, m, hcontent, h⟩ := h
  have hle := length_le_of_readTagged htagged
  obtain ⟨rfl, rfl⟩ := Prod.mk.inj (Option.some.inj h)
  dsimp only at hcontent hle ⊢
  refine ⟨?_, by omega⟩
  calc m < 256 ^ content.length := lt_of_readContent hcontent
    _ ≤ 256 ^ bs.length := Nat.pow_le_pow_right (by decide) (by omega)

/-- Numbers that are read fit into as many bytes as they are read from. -/
theorem lt_of_mem_readIntegers (h : readIntegers count bs = some ns) :
    ∀ n ∈ ns, n < 256 ^ bs.length := by
  induction count generalizing bs ns with
  | zero =>
      rw [readIntegers] at h
      split at h
      · obtain rfl := Option.some.inj h
        exact fun n hn => absurd hn List.not_mem_nil
      · contradiction
  | succ count ih =>
      simp only [readIntegers, Option.bind_eq_bind, Option.bind_eq_some_iff] at h
      obtain ⟨⟨m, rest⟩, hfirst, later, hlater, h⟩ := h
      obtain rfl := Option.some.inj h
      obtain ⟨hlt, hle⟩ := lt_of_readInteger hfirst
      intro n hn
      rcases List.mem_cons.mp hn with rfl | hn
      · exact hlt
      · exact Nat.lt_of_lt_of_le (ih hlater n hn) (Nat.pow_le_pow_right (by decide) hle)

/-- The integers of a sequence are not greater than its bytes allow. -/
theorem lt_of_mem_readSequence (h : readSequence count bs = some ns) :
    ∀ n ∈ ns, n < 256 ^ bs.length := by
  simp only [readSequence, Option.bind_eq_bind, Option.bind_eq_some_iff] at h
  obtain ⟨⟨content, rest⟩, htagged, h⟩ := h
  dsimp only at h
  split at h
  · have hle := length_le_of_readTagged htagged
    exact fun n hn => Nat.lt_of_lt_of_le (lt_of_mem_readIntegers h n hn)
      (Nat.pow_le_pow_right (by decide) (by omega))
  · contradiction

/-- The tag and the length of a value take at most six bytes. -/
theorem length_tagged_le (h : content.length < 256 ^ 4) :
    (tagged tag content).length ≤ content.length + 6 := by
  have hlength : (lengthBytes content.length).length ≤ 5 := by
    rw [lengthBytes]
    split
    · exact Nat.le_of_ble_eq_true rfl
    · rw [List.length_cons]
      exact Nat.succ_le_succ (length_le_four h)
  rw [tagged, List.length_cons, List.length_append]
  omega

/-- A number takes at most eight bytes more than its own. -/
theorem length_integer_le (h : Bytes.natSize n + 2 < 256 ^ 4) :
    (integer n).length ≤ Bytes.natSize n + 8 := by
  have hcontent : (integerContent n).length ≤ Bytes.natSize n + 2 := by
    have hlength := Bytes.length_ofNat n
    rw [integerContent]
    split
    · exact Nat.le_add_left 1 _
    · next b tail hb =>
        rw [hb] at hlength
        split
        · rw [List.length_cons, hlength]
          omega
        · omega
  calc (integer n).length ≤ (integerContent n).length + 6 := length_tagged_le (by omega)
    _ ≤ Bytes.natSize n + 8 := by omega

/-- A document takes at most eight bytes for each number more than the numbers themselves, and
six. -/
theorem length_integers_le (h : (ns.map fun n => Bytes.natSize n + 8).sum < 256 ^ 4) :
    (integers ns).length ≤ (ns.map fun n => Bytes.natSize n + 8).sum + 6 := by
  have hcontent : (ns.flatMap integer).length ≤ (ns.map fun n => Bytes.natSize n + 8).sum := by
    induction ns with
    | nil => exact Nat.le_refl _
    | cons n ns ih =>
        rw [List.map_cons, List.sum_cons] at h ⊢
        rw [List.flatMap_cons, List.length_append]
        exact Nat.add_le_add (length_integer_le (by omega)) (ih (by omega))
  calc (integers ns).length ≤ (ns.flatMap integer).length + 6 := length_tagged_le (by omega)
    _ ≤ (ns.map fun n => Bytes.natSize n + 8).sum + 6 := by omega

end Keyring.Der
