import Keyring.Text.Blank
import Keyring.Text.Hex
import Mathlib.Data.List.TakeWhile
import Mathlib.Data.String.Basic

/-! # Hexadecimal text is read

Any even number of digits is read as half as many bytes. Digits are ASCII and not blank, so a text
of digits has as many characters as bytes, and trimming leaves it as it is.
-/

namespace Keyring

/-- A text of ASCII characters takes a byte for each. -/
theorem utf8ByteSize_eq_length {s : String} (h : ∀ c ∈ s.toList, c.toNat < 0x80) :
    s.utf8ByteSize = s.toList.length := by
  rw [← String.utf8Len_toList]
  generalize s.toList = cs at *
  induction cs with
  | nil => rfl
  | cons c cs ih =>
      have hsize : c.utf8Size = 1 :=
        Char.utf8Size_eq_one_iff.mpr (Nat.le_of_lt_succ (h c List.mem_cons_self))
      rw [String.utf8Len_cons, ih fun d hd => h d (List.mem_cons_of_mem _ hd), hsize,
        List.length_cons]

/-- Trimming leaves characters as they are of which none is blank. -/
theorem Text.trimChars_eq_self {cs : List Char} (h : ∀ c ∈ cs, ¬ isBlank c) :
    trimChars cs = cs := by
  have hdrop : ∀ ds : List Char, (∀ c ∈ ds, ¬ isBlank c) → ds.dropWhile isBlank = ds :=
    fun ds hds =>
    List.dropWhile_eq_self_iff.mpr fun _ => hds _ (List.getElem_mem _)
  rw [trimChars, hdrop cs h, hdrop _ fun c hc => h c (List.mem_reverse.mp hc), List.reverse_reverse]

namespace Hex

/-- The digits. -/
theorem isDigit_iff {c : Char} : isDigit c ↔
    (48 ≤ c.toNat ∧ c.toNat ≤ 57) ∨ (97 ≤ c.toNat ∧ c.toNat ≤ 102) ∨
      (65 ≤ c.toNat ∧ c.toNat ≤ 70) := by
  have hle : ∀ d : Char, (d ≤ c ↔ d.toNat ≤ c.toNat) ∧ (c ≤ d ↔ c.toNat ≤ d.toNat) := fun d =>
    ⟨UInt32.le_iff_toNat_le, UInt32.le_iff_toNat_le⟩
  rw [isDigit, value?]
  simp only [(hle _).1, (hle _).2]
  split
  · next h => exact iff_of_true rfl (.inl h)
  split
  · next h => exact iff_of_true rfl (.inr (.inl h))
  split
  · next h => exact iff_of_true rfl (.inr (.inr h))
  · next h₁ h₂ h₃ => exact iff_of_false Bool.false_ne_true (not_or.mpr ⟨h₁, not_or.mpr ⟨h₂, h₃⟩⟩)

theorem toNat_lt_of_isDigit {c : Char} (h : isDigit c) : c.toNat < 0x80 := by
  rcases isDigit_iff.mp h with h | h | h <;> omega

theorem not_isBlank_of_isDigit {c : Char} (h : isDigit c) : ¬ Text.isBlank c := by
  have hrange := isDigit_iff.mp h
  simp only [Text.isBlank, Bool.or_eq_true, Bool.and_eq_true, decide_eq_true_iff, beq_iff_eq]
  omega

/-- An even number of digits is read as half as many bytes. -/
theorem exists_decodeChars {n : Nat} {cs : List Char} (hlength : cs.length = 2 * n)
    (hdigits : ∀ c ∈ cs, isDigit c) : ∃ bs, decodeChars cs = some bs ∧ bs.length = n := by
  induction n generalizing cs with
  | zero =>
      obtain rfl := List.length_eq_zero_iff.mp hlength
      exact ⟨[], rfl, rfl⟩
  | succ n ih =>
      obtain ⟨hi, cs, rfl⟩ := List.exists_of_length_succ cs hlength
      obtain ⟨lo, cs, rfl⟩ := List.exists_of_length_succ cs (Nat.succ.inj hlength)
      obtain ⟨h, hh⟩ := Option.isSome_iff_exists.mp (hdigits hi List.mem_cons_self)
      obtain ⟨l, hl⟩ :=
        Option.isSome_iff_exists.mp (hdigits lo (List.mem_cons_of_mem _ List.mem_cons_self))
      have hrest : cs.length = 2 * n := by simpa [Nat.mul_add] using hlength
      obtain ⟨bs, hbs, hbytes⟩ := ih hrest fun c hc =>
        hdigits c (List.mem_cons_of_mem _ (List.mem_cons_of_mem _ hc))
      refine ⟨UInt8.ofNat (16 * h + l) :: bs, ?_, ?_⟩
      · rw [decodeChars, hh, hl, hbs]
        rfl
      · rw [List.length_cons, hbytes]

/-- Only digits are read, two for each byte. -/
theorem digits_of_decodeChars {cs : List Char} {bs : Bytes} (h : decodeChars cs = some bs) :
    cs.length = 2 * bs.length ∧ ∀ c ∈ cs, isDigit c := by
  induction cs using decodeChars.induct generalizing bs with
  | case1 =>
      obtain rfl := Option.some.inj h
      exact ⟨rfl, fun _ hc => absurd hc List.not_mem_nil⟩
  | case2 => contradiction
  | case3 hi lo rest ih =>
      rw [decodeChars] at h
      obtain ⟨high, hhigh, h⟩ := Option.bind_eq_some_iff.mp h
      obtain ⟨low, hlow, h⟩ := Option.bind_eq_some_iff.mp h
      obtain ⟨bs, hbs, h⟩ := Option.bind_eq_some_iff.mp h
      obtain rfl := Option.some.inj h
      obtain ⟨hlength, hdigits⟩ := ih hbs
      refine ⟨by rw [List.length_cons, List.length_cons, List.length_cons, hlength]; rfl, ?_⟩
      intro c hc
      rcases List.mem_cons.mp hc with rfl | hc
      · exact Option.isSome_of_eq_some hhigh
      rcases List.mem_cons.mp hc with rfl | hc
      · exact Option.isSome_of_eq_some hlow
      · exact hdigits c hc

/-- Trimming leaves a text of digits as it is. -/
theorem trim_eq_self {s : String} (hdigits : ∀ c ∈ s.toList, isDigit c) : Text.trim s = s := by
  rw [Text.trim, Text.trimChars_eq_self fun c hc => not_isBlank_of_isDigit (hdigits c hc),
    String.ofList_toList]

/-- A text of digits, two for each byte, is trimmed to itself and read. -/
theorem exists_decode?_trim {n : Nat} {s : String} (hsize : s.utf8ByteSize = 2 * n)
    (hdigits : ∀ c ∈ s.toList, isDigit c) :
    ∃ bs, decode? (Text.trim s) = some bs ∧ bs.length = n := by
  have hlength : s.toList.length = 2 * n := by
    rw [← hsize, utf8ByteSize_eq_length fun c hc => toNat_lt_of_isDigit (hdigits c hc)]
  rw [decode?, trim_eq_self hdigits]
  exact exists_decodeChars hlength hdigits

end Hex

end Keyring
