import Keyring.Proofs.Except
import Keyring.Proofs.Text.Base64
import Keyring.Proofs.Text.Utf8

/-! # Base64 has one spelling

The reader accepts nothing but what the writer writes: symbols are determined by their values, the
padding by the number of symbols in the last group, and the bits that carry no data are zero. So a
byte string and its text determine each other.
-/

namespace Keyring.Base64

/-! ## Symbols -/

/-- A byte that has a value is the symbol of that value. -/
theorem symbol_of_value? {form : Form} {b : UInt8} {v : Nat} (h : value? form b = some v) :
    v < 64 ∧ symbol form v = b := by
  have hall :
      ∀ n < 256, ∀ u ∈ value? form (UInt8.ofNat n), u < 64 ∧ symbol form u = UInt8.ofNat n := by
    cases form <;> decide +kernel
  have hb := hall b.toNat b.toNat_lt v
  rw [UInt8.ofNat_toNat] at hb
  exact hb h

theorem symbol_of_valueAt {form : Form} {offset : Nat} {b : UInt8} {v : Nat}
    (h : valueAt form offset b = .ok v) : v < 64 ∧ symbol form v = b := by
  rw [valueAt] at h
  split at h
  · next u hu =>
      obtain rfl := Except.ok.inj h
      exact symbol_of_value? hu
  · contradiction

/-! ## Groups -/

/-- Four symbols are what their three bytes are written as. -/
theorem encodeBytes_group {form : Form} {a b c d : Nat} (ha : a < 64) (hb : b < 64) (hc : c < 64)
    (hd : d < 64) (bs : Bytes) {n : Nat} (hn : n = ((a * 64 + b) * 64 + c) * 64 + d) :
    encodeBytes form (UInt8.ofNat (n / 65536) :: UInt8.ofNat (n / 256) :: UInt8.ofNat n :: bs) =
      symbol form a :: symbol form b :: symbol form c :: symbol form d :: encodeBytes form bs := by
  have hnumber : ((UInt8.ofNat (n / 65536)).toNat * 256 + (UInt8.ofNat (n / 256)).toNat) * 256
      + (UInt8.ofNat n).toNat = n := by
    simp only [UInt8.toNat_ofNat']
    omega
  have h₁ : n / 262144 = a := by omega
  have h₂ : n / 4096 % 64 = b := by omega
  have h₃ : n / 64 % 64 = c := by omega
  have h₄ : n % 64 = d := by omega
  rw [encodeBytes, hnumber, h₁, h₂, h₃, h₄]

/-- Full groups are what they were written for. -/
theorem eq_encodeBytes_of_decodeGroups {form : Form} {offset : Nat} {text bs : Bytes}
    (hlength : text.length % 4 = 0) (h : decodeGroups form offset text = .ok bs) :
    bs.length % 3 = 0 ∧ text = encodeBytes form bs := by
  induction offset, text using decodeGroups.induct generalizing bs with
  | case1 offset a b c d rest ih =>
      simp only [decodeGroups, Except.bind_eq_ok_iff] at h
      obtain ⟨va, hva, vb, hvb, vc, hvc, vd, hvd, tail, htail, h⟩ := h
      obtain rfl := Except.ok.inj h
      simp only [List.length_cons] at hlength
      obtain ⟨hmod, hrest⟩ := ih (by omega) htail
      obtain ⟨ha, rfl⟩ := symbol_of_valueAt hva
      obtain ⟨hb, rfl⟩ := symbol_of_valueAt hvb
      obtain ⟨hc, rfl⟩ := symbol_of_valueAt hvc
      obtain ⟨hd, rfl⟩ := symbol_of_valueAt hvd
      refine ⟨by simp only [List.length_cons]; omega, ?_⟩
      rw [encodeBytes_group ha hb hc hd tail rfl, ← hrest]
  | case2 text offset hshort =>
      -- Fewer than four symbols are none, for their number is a multiple of four.
      rcases text with _ | ⟨a, _ | ⟨b, _ | ⟨c, _ | ⟨d, rest⟩⟩⟩⟩
      · obtain rfl := Except.ok.inj h
        exact ⟨rfl, rfl⟩
      · simp at hlength
      · simp at hlength
      · simp at hlength
      · exact absurd rfl (hshort a b c d rest)

/-! ## The last group -/

/-- The symbols of a last group are followed by padding and nothing else. -/
theorem eq_of_lastSymbols {form : Form} {start place : Nat} {firstPad : Option Nat} {group : Bytes}
    {vs : List Nat} {pads : Nat}
    (h : lastSymbols form start place firstPad group = .ok (vs, pads)) :
    group = vs.map (symbol form) ++ List.replicate pads pad ∧ (∀ v ∈ vs, v < 64) ∧
      (firstPad.isSome → vs = []) := by
  induction group generalizing place firstPad vs pads with
  | nil =>
      obtain ⟨rfl, rfl⟩ := Prod.mk.inj (Except.ok.inj h)
      exact ⟨rfl, by simp, fun _ => rfl⟩
  | cons b group ih =>
      unfold lastSymbols at h
      split at h
      · next hb =>
          split at h
          · contradiction
          · obtain ⟨⟨vs', pads'⟩, hrest, h⟩ := Except.bind_eq_ok_iff.mp h
            obtain ⟨rfl, rfl⟩ := Prod.mk.inj (Except.ok.inj h)
            obtain ⟨hgroup, hlt, hnil⟩ := ih hrest
            obtain rfl := hnil (by cases firstPad <;> rfl)
            refine ⟨?_, hlt, fun _ => rfl⟩
            rw [hb, hgroup]
            rfl
      · split at h
        · contradiction
        · obtain ⟨v, hv, h⟩ := Except.bind_eq_ok_iff.mp h
          obtain ⟨⟨vs', pads'⟩, hrest, h⟩ := Except.bind_eq_ok_iff.mp h
          obtain ⟨rfl, rfl⟩ := Prod.mk.inj (Except.ok.inj h)
          obtain ⟨hgroup, hlt, -⟩ := ih hrest
          obtain ⟨hv64, hsymbol⟩ := symbol_of_valueAt hv
          refine ⟨?_, ?_, fun hsome => by contradiction⟩
          · rw [hgroup, ← hsymbol]
            rfl
          · intro u hu
            rcases List.mem_cons.mp hu with rfl | hu
            · exact hv64
            · exact hlt u hu

/-- Padding that fits a group of at most four symbols is the padding that completes it. -/
theorem replicate_eq_padding {form : Form} {symbols pads : Nat} (hsymbols : 2 ≤ symbols)
    (hle : symbols + pads ≤ 4) (hfits : paddingFits form symbols pads) :
    List.replicate pads pad = padding form (4 - symbols) := by
  cases form with
  | standard =>
      have hmod : (symbols + pads) % 4 = 0 := of_decide_eq_true hfits
      rw [padding, show pads = 4 - symbols from by omega]
  | urlSafe =>
      have hzero : pads = 0 := of_decide_eq_true hfits
      rw [hzero]
      rfl

/-- A last group is what it was written for. -/
theorem eq_encodeBytes_of_decodeLast {form : Form} {start : Nat} {group bs : Bytes}
    (hle : group.length ≤ 4) (h : decodeLast form start group = .ok bs) :
    group = encodeBytes form bs := by
  obtain ⟨⟨vs, pads⟩, hlast, h⟩ := Except.bind_eq_ok_iff.mp h
  obtain ⟨rfl, hlt, -⟩ := eq_of_lastSymbols hlast
  simp only [List.length_append, List.length_map, List.length_replicate] at hle
  simp only [Except.check_eq_ok_iff] at h
  obtain ⟨hlength, hfits, h⟩ := h
  have hfits : paddingFits form vs.length pads := by simpa using hfits
  match vs with
  | [] =>
      -- Padding alone is refused, so there is none.
      have hnil : List.replicate pads pad = [] := by simpa using hlength
      obtain rfl := Except.ok.inj h
      rw [hnil]
      rfl
  | [v] => simp at hlength
  | [a, b] =>
      obtain ⟨hbits, h⟩ := Except.check_eq_ok_iff.mp h
      obtain rfl := Except.ok.inj h
      have ha := hlt a (by simp)
      have hb := hlt b (by simp)
      have hnumber : (UInt8.ofNat ((a * 64 + b) / 16)).toNat * 16 = a * 64 + b := by
        rw [UInt8.toNat_ofNat']
        omega
      have h₁ : (a * 64 + b) / 64 = a := by omega
      have h₂ : (a * 64 + b) % 64 = b := by omega
      rw [encodeBytes, hnumber, h₁, h₂, replicate_eq_padding (Nat.le_refl 2) hle hfits]
      rfl
  | [a, b, c] =>
      obtain ⟨hbits, h⟩ := Except.check_eq_ok_iff.mp h
      obtain rfl := Except.ok.inj h
      have ha := hlt a (by simp)
      have hb := hlt b (by simp)
      have hc := hlt c (by simp)
      generalize hn : (a * 64 + b) * 64 + c = n
      have hnumber :
          ((UInt8.ofNat (n / 1024)).toNat * 256 + (UInt8.ofNat (n / 4)).toNat) * 4 = n := by
        rw [UInt8.toNat_ofNat', UInt8.toNat_ofNat']
        omega
      have h₁ : n / 4096 = a := by omega
      have h₂ : n / 64 % 64 = b := by omega
      have h₃ : n % 64 = c := by omega
      rw [encodeBytes, hnumber, h₁, h₂, h₃, replicate_eq_padding (Nat.le_succ 2) hle hfits]
      rfl
  | [a, b, c, d] =>
      obtain rfl := Except.ok.inj h
      have ha := hlt a (by simp)
      have hb := hlt b (by simp)
      have hc := hlt c (by simp)
      have hd := hlt d (by simp)
      rw [encodeBytes_group ha hb hc hd [] rfl, replicate_eq_padding (by simp) hle hfits]
      cases form <;> rfl
  | _ :: _ :: _ :: _ :: _ :: _ =>
      simp only [List.length_cons] at hle
      omega

/-! ## Whole texts -/

/-- A text that is read is what its bytes are written as. -/
theorem eq_encodeBytes_of_decodeBytes {form : Form} {text bs : Bytes}
    (h : decodeBytes form text = .ok bs) : text = encodeBytes form bs := by
  obtain ⟨-, -, h⟩ := Except.bind_eq_ok_iff.mp h
  obtain ⟨front, hfront, h⟩ := Except.bind_eq_ok_iff.mp h
  obtain ⟨back, hback, h⟩ := Except.bind_eq_ok_iff.mp h
  obtain rfl := Except.ok.inj h
  generalize hstart :
    (if text.length % 4 = 0 then text.length - 4 else text.length - text.length % 4) = start
    at hfront hback
  have hsplit : (text.take start).length % 4 = 0 ∧ (text.drop start).length ≤ 4 := by
    rw [List.length_take, List.length_drop]
    split at hstart <;> omega
  obtain ⟨hmod, hfront⟩ := eq_encodeBytes_of_decodeGroups hsplit.1 hfront
  have hback := eq_encodeBytes_of_decodeLast hsplit.2 hback
  calc text = text.take start ++ text.drop start := (List.take_append_drop start text).symm
    _ = encodeBytes form front ++ encodeBytes form back := by rw [← hfront, ← hback]
    _ = encodeBytes form (front ++ back) := (encodeBytes_append form hmod back).symm

/-- The reader accepts exactly what the writer writes. -/
theorem decodeBytes_eq_ok_iff {form : Form} {text bs : Bytes} :
    decodeBytes form text = .ok bs ↔ text = encodeBytes form bs := by
  constructor
  · exact eq_encodeBytes_of_decodeBytes
  · rintro rfl
    exact decodeBytes_encodeBytes form bs

theorem utf8_encode (form : Form) (bs : Bytes) :
    Utf8.encode (encode form bs) = encodeBytes form bs :=
  Utf8.encode_ascii fun _ hb => (visible_of_mem_encodeBytes hb).2

/-- Encoded bytes are read back. -/
@[simp] theorem decode_encode (form : Form) (bs : Bytes) :
    decode form (encode form bs) = .ok bs := by
  rw [decode, utf8_encode, decodeBytes_encodeBytes]

/-- A text is read as some bytes only if it is how they are encoded. -/
theorem decode_eq_ok_iff {form : Form} {s : String} {bs : Bytes} :
    decode form s = .ok bs ↔ s = encode form bs := by
  constructor
  · intro h
    apply Utf8.encode_injective
    rw [utf8_encode]
    exact eq_encodeBytes_of_decodeBytes h
  · rintro rfl
    exact decode_encode form bs

end Keyring.Base64
