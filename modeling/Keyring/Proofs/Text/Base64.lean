import Keyring.Text.Base64

/-! # Reading what base64 wrote

A text is written in groups of three bytes, and a last group of one, two or three bytes ends it. The
reader splits off the same last group, so both halves are read back separately.
-/

namespace Keyring.Base64

/-! ## Symbols -/

/-- Each symbol has the value it was written for. -/
theorem value?_symbol (form : Form) {v : Nat} (hv : v < 64) :
    value? form (symbol form v) = some v := by
  have h : ∀ u < 64, value? form (symbol form u) = some u := by cases form <;> decide
  exact h v hv

/-- No symbol of the alphabet is the padding sign. -/
theorem symbol_ne_pad (form : Form) {v : Nat} (hv : v < 64) : symbol form v ≠ pad := by
  have h : ∀ u < 64, symbol form u ≠ pad := by cases form <;> decide
  exact h v hv

/-- Every symbol is read as its value. -/
theorem valueAt_symbol (form : Form) (offset : Nat) {v : Nat} (hv : v < 64) :
    valueAt form offset (symbol form v) = .ok v := by
  rw [valueAt, value?_symbol form hv]

/-- Symbols of the last group are read until the padding starts. -/
theorem lastSymbols_symbol (form : Form) (start place : Nat) {v : Nat} (hv : v < 64)
    (rest : Bytes) :
    lastSymbols form start place none (symbol form v :: rest) =
      (lastSymbols form start (place + 1) none rest).map fun p => (v :: p.1, p.2) := by
  rw [lastSymbols, if_neg (symbol_ne_pad form hv)]
  simp only [valueAt_symbol form _ hv]
  cases lastSymbols form start (place + 1) none rest <;> rfl

/-! ## Groups -/

/-- Writing proceeds group by group. -/
theorem encodeBytes_append (form : Form) {front : Bytes} (h : front.length % 3 = 0) (back : Bytes) :
    encodeBytes form (front ++ back) = encodeBytes form front ++ encodeBytes form back := by
  induction front using encodeBytes.induct with
  | case1 => rfl
  | case2 => simp at h
  | case3 => simp at h
  | case4 a b c rest ih =>
      simp only [List.length_cons] at h
      have hrest : rest.length % 3 = 0 := by omega
      simp only [List.cons_append, encodeBytes, ih hrest]

/-- Three bytes are written as four symbols. -/
theorem length_encodeBytes (form : Form) {front : Bytes} (h : front.length % 3 = 0) :
    (encodeBytes form front).length = front.length / 3 * 4 := by
  induction front using encodeBytes.induct with
  | case1 => rfl
  | case2 => simp at h
  | case3 => simp at h
  | case4 a b c rest ih =>
      simp only [List.length_cons] at h
      have hrest : rest.length % 3 = 0 := by omega
      simp only [encodeBytes, List.length_cons, ih hrest]
      omega

/-- Without padding there is a symbol for every six bits and one for what is left over. -/
theorem length_encodeBytes_urlSafe (bs : Bytes) :
    (encodeBytes .urlSafe bs).length = (bs.length * 4 + 2) / 3 := by
  induction bs using encodeBytes.induct with
  | case1 => rfl
  | case2 => simp [encodeBytes, padding]
  | case3 => simp [encodeBytes, padding]
  | case4 a b c rest ih =>
      simp only [encodeBytes, List.length_cons, ih]
      omega

/-- Nothing is written in fewer bytes than it has. -/
theorem le_length_encodeBytes (form : Form) (bs : Bytes) :
    bs.length ≤ (encodeBytes form bs).length := by
  induction bs using encodeBytes.induct with
  | case1 => exact Nat.le_refl _
  | case2 => simp [encodeBytes]
  | case3 => simp [encodeBytes]
  | case4 a b c rest ih =>
      simp only [encodeBytes, List.length_cons]
      omega

/-- Every written byte is a symbol, or the padding sign in the form that is padded. -/
theorem eq_of_mem_encodeBytes {form : Form} {bs : Bytes} {b : UInt8}
    (hb : b ∈ encodeBytes form bs) : form = .standard ∧ b = pad ∨ ∃ v < 64, b = symbol form v := by
  have hpad : ∀ count, b ∈ padding form count → form = .standard ∧ b = pad := by
    intro count hb
    cases form with
    | standard => exact ⟨rfl, List.eq_of_mem_replicate hb⟩
    | urlSafe => simp [padding] at hb
  induction bs using encodeBytes.induct with
  | case1 => simp [encodeBytes] at hb
  | case2 a =>
      have ha := a.toNat_lt
      simp only [encodeBytes, List.mem_cons] at hb
      rcases hb with rfl | rfl | hb
      · exact .inr ⟨_, by omega, rfl⟩
      · exact .inr ⟨_, by omega, rfl⟩
      · exact .inl (hpad 2 hb)
  | case3 a c =>
      have ha := a.toNat_lt
      have hc := c.toNat_lt
      simp only [encodeBytes, List.mem_cons] at hb
      rcases hb with rfl | rfl | rfl | hb
      · exact .inr ⟨_, by omega, rfl⟩
      · exact .inr ⟨_, by omega, rfl⟩
      · exact .inr ⟨_, by omega, rfl⟩
      · exact .inl (hpad 1 hb)
  | case4 a c d rest ih =>
      have ha := a.toNat_lt
      have hc := c.toNat_lt
      have hd := d.toNat_lt
      simp only [encodeBytes, List.mem_cons] at hb
      rcases hb with rfl | rfl | rfl | rfl | hb
      · exact .inr ⟨_, by omega, rfl⟩
      · exact .inr ⟨_, by omega, rfl⟩
      · exact .inr ⟨_, by omega, rfl⟩
      · exact .inr ⟨_, by omega, rfl⟩
      · exact ih hb

/-- Every written byte is ASCII and visible. -/
theorem visible_of_mem_encodeBytes {form : Form} {bs : Bytes} {b : UInt8}
    (hb : b ∈ encodeBytes form bs) : 0x20 < b ∧ b < 0x80 := by
  have h : ∀ u < 64, 0x20 < symbol form u ∧ symbol form u < 0x80 := by cases form <;> decide
  rcases eq_of_mem_encodeBytes hb with ⟨-, rfl⟩ | ⟨v, hv, rfl⟩
  · decide
  · exact h v hv

private theorem ofNat_toNat_mod (a : UInt8) {n : Nat} (h : n % 256 = a.toNat) :
    UInt8.ofNat n = a := by
  apply UInt8.toNat_inj.mp
  rw [UInt8.toNat_ofNat', h]

/-- A number that was put together from three bytes is taken apart into them. -/
private theorem ofNat_group (a b c : UInt8) (rest : Bytes) {n : Nat}
    (h : n = (a.toNat * 256 + b.toNat) * 256 + c.toNat) :
    UInt8.ofNat (n / 65536) :: UInt8.ofNat (n / 256) :: UInt8.ofNat n :: rest =
      a :: b :: c :: rest := by
  have ha := a.toNat_lt
  have hb := b.toNat_lt
  have hc := c.toNat_lt
  rw [ofNat_toNat_mod a (by omega), ofNat_toNat_mod b (by omega), ofNat_toNat_mod c (by omega)]

/-- Full groups are read back. -/
theorem decodeGroups_encodeBytes (form : Form) (offset : Nat) {front : Bytes}
    (h : front.length % 3 = 0) : decodeGroups form offset (encodeBytes form front) = .ok front := by
  induction front using encodeBytes.induct generalizing offset with
  | case1 => rfl
  | case2 => simp at h
  | case3 => simp at h
  | case4 a b c rest ih =>
      simp only [List.length_cons] at h
      have hrest : rest.length % 3 = 0 := by omega
      have ha := a.toNat_lt
      have hb := b.toNat_lt
      have hc := c.toNat_lt
      simp only [encodeBytes, decodeGroups]
      rw [valueAt_symbol form _ (by omega), valueAt_symbol form _ (by omega),
        valueAt_symbol form _ (by omega), valueAt_symbol form _ (by omega)]
      simp only [bind, Except.bind, ih _ hrest, pure, Except.pure]
      exact congrArg Except.ok (ofNat_group a b c rest (by omega))

/-! ## The last group

One and two bytes leave bits over, which are written as zero and checked to be. -/

/-- A last group of one byte is read back. -/
theorem decodeLast_one (form : Form) (start : Nat) (a : UInt8) :
    decodeLast form start (encodeBytes form [a]) = .ok [a] := by
  have ha := a.toNat_lt
  have hlast : lastSymbols form start 0 none (encodeBytes form [a]) =
      .ok ([a.toNat * 16 / 64, a.toNat * 16 % 64], (padding form 2).length) := by
    rw [encodeBytes, lastSymbols_symbol form _ _ (by omega), lastSymbols_symbol form _ _ (by omega)]
    cases form <;> rfl
  have hfit : paddingFits form 2 (padding form 2).length = true := by cases form <;> rfl
  have hbits : a.toNat * 16 % 64 % 16 = 0 := by omega
  rw [decodeLast, hlast]
  simp only [bind, Except.bind, pure, Except.pure, List.length_cons, List.length_nil,
    Nat.zero_add, Nat.reduceAdd, hfit, hbits, Nat.lt_irrefl, decide_false, Bool.false_and,
    Bool.not_true, Bool.false_eq_true, if_false, ne_eq, not_true_eq_false]
  rw [ofNat_toNat_mod a (by omega)]

/-- A last group of two bytes is read back. -/
theorem decodeLast_two (form : Form) (start : Nat) (a b : UInt8) :
    decodeLast form start (encodeBytes form [a, b]) = .ok [a, b] := by
  have ha := a.toNat_lt
  have hb := b.toNat_lt
  have hlast : lastSymbols form start 0 none (encodeBytes form [a, b]) =
      .ok ([(a.toNat * 256 + b.toNat) * 4 / 4096, (a.toNat * 256 + b.toNat) * 4 / 64 % 64,
        (a.toNat * 256 + b.toNat) * 4 % 64], (padding form 1).length) := by
    rw [encodeBytes, lastSymbols_symbol form _ _ (by omega), lastSymbols_symbol form _ _ (by omega),
      lastSymbols_symbol form _ _ (by omega)]
    cases form <;> rfl
  have hfit : paddingFits form 3 (padding form 1).length = true := by cases form <;> rfl
  have hbits : (a.toNat * 256 + b.toNat) * 4 % 64 % 4 = 0 := by omega
  rw [decodeLast, hlast]
  simp only [bind, Except.bind, pure, Except.pure, List.length_cons, List.length_nil,
    Nat.zero_add, Nat.reduceAdd, Nat.reduceLT, hfit, hbits, decide_false, Bool.false_and,
    Bool.not_true, Bool.false_eq_true, if_false, ne_eq, not_true_eq_false]
  rw [ofNat_toNat_mod a (by omega), ofNat_toNat_mod b (by omega)]

/-- A last group of three bytes is read back. -/
theorem decodeLast_three (form : Form) (start : Nat) (a b c : UInt8) :
    decodeLast form start (encodeBytes form [a, b, c]) = .ok [a, b, c] := by
  have ha := a.toNat_lt
  have hb := b.toNat_lt
  have hc := c.toNat_lt
  have hlast : lastSymbols form start 0 none (encodeBytes form [a, b, c]) =
      .ok ([((a.toNat * 256 + b.toNat) * 256 + c.toNat) / 262144,
        ((a.toNat * 256 + b.toNat) * 256 + c.toNat) / 4096 % 64,
        ((a.toNat * 256 + b.toNat) * 256 + c.toNat) / 64 % 64,
        ((a.toNat * 256 + b.toNat) * 256 + c.toNat) % 64], 0) := by
    rw [encodeBytes, lastSymbols_symbol form _ _ (by omega), lastSymbols_symbol form _ _ (by omega),
      lastSymbols_symbol form _ _ (by omega), lastSymbols_symbol form _ _ (by omega)]
    rfl
  have hfit : paddingFits form 4 0 = true := by cases form <;> rfl
  rw [decodeLast, hlast]
  simp only [bind, Except.bind, pure, Except.pure, List.length_cons, List.length_nil,
    Nat.zero_add, Nat.reduceAdd, Nat.reduceLT, hfit, decide_false, Bool.false_and,
    Bool.not_true, Bool.false_eq_true, if_false]
  exact congrArg Except.ok (ofNat_group a b c [] (by omega))

/-- A last group of one, two or three bytes is read back. -/
theorem decodeLast_encodeBytes (form : Form) (start : Nat) {back : Bytes} (h : back ≠ [])
    (hle : back.length ≤ 3) : decodeLast form start (encodeBytes form back) = .ok back := by
  match back with
  | [] => exact absurd rfl h
  | [a] => exact decodeLast_one form start a
  | [a, b] => exact decodeLast_two form start a b
  | [a, b, c] => exact decodeLast_three form start a b c
  | _ :: _ :: _ :: _ :: _ =>
      rw [List.length_cons, List.length_cons, List.length_cons, List.length_cons] at hle
      omega

/-! ## Whole texts -/

/-- A byte string that is not empty ends in a group of one, two or three bytes. -/
theorem exists_last_group {bs : Bytes} (h : bs ≠ []) :
    ∃ front back, bs = front ++ back ∧ front.length % 3 = 0 ∧ back ≠ [] ∧ back.length ≤ 3 := by
  have hpos : 0 < bs.length := List.length_pos_iff.mpr h
  refine ⟨bs.take ((bs.length - 1) / 3 * 3), bs.drop ((bs.length - 1) / 3 * 3),
    (List.take_append_drop _ _).symm, ?_, ?_, ?_⟩
  · rw [List.length_take, Nat.min_eq_left (by omega)]
    omega
  · apply List.ne_nil_of_length_pos
    rw [List.length_drop]
    omega
  · rw [List.length_drop]
    omega

/-- A last group is written as two, three or four bytes, padded to four in the standard form. -/
theorem length_encodeBytes_last (form : Form) {back : Bytes} (h : back ≠ [])
    (hle : back.length ≤ 3) :
    (encodeBytes form back).length = 4 ∨
      form = .urlSafe ∧ (encodeBytes form back).length = back.length + 1 := by
  match back with
  | [] => exact absurd rfl h
  | [_] | [_, _] => cases form <;> simp [encodeBytes, padding]
  | [_, _, _] => simp [encodeBytes]
  | _ :: _ :: _ :: _ :: _ =>
      rw [List.length_cons, List.length_cons, List.length_cons, List.length_cons] at hle
      omega

/-- Every byte string is read back from its written form. -/
theorem decodeBytes_encodeBytes (form : Form) (bs : Bytes) :
    decodeBytes form (encodeBytes form bs) = .ok bs := by
  by_cases hbs : bs = []
  · subst hbs
    cases form <;> rfl
  obtain ⟨front, back, rfl, hfront, hback, hle⟩ := exists_last_group hbs
  rw [encodeBytes_append form hfront]
  have hlen := length_encodeBytes form hfront
  have hpos : 0 < back.length := List.length_pos_iff.mpr hback
  -- The last group is what the reader splits off, and its size is never one.
  have hlast : 2 ≤ (encodeBytes form back).length ∧ (encodeBytes form back).length ≤ 4 := by
    rcases length_encodeBytes_last form hback hle with h | ⟨-, h⟩ <;> omega
  generalize hs : encodeBytes form front = start at *
  generalize hg : encodeBytes form back = group at *
  have hstray : checkStray form (start ++ group) = .ok () := by
    have hmod : (start ++ group).length % 4 ≠ 1 := by
      rw [List.length_append]
      omega
    rw [checkStray]
    split
    · next h _ => exact absurd h hmod
    · rfl
  have hsplit : (if (start ++ group).length % 4 = 0 then (start ++ group).length - 4
      else (start ++ group).length - (start ++ group).length % 4) = start.length := by
    rw [List.length_append]
    split <;> omega
  rw [decodeBytes, hstray]
  simp only [bind, Except.bind, pure, Except.pure, hsplit, List.take_left, List.drop_left]
  rw [← hs, decodeGroups_encodeBytes form 0 hfront]
  simp only
  rw [← hg, decodeLast_encodeBytes form _ hback hle]

end Keyring.Base64
