import Keyring.Cipher.Aes
import Mathlib.Data.List.Nodup
import Mathlib.Logic.Function.Basic

/-! # A key permutes the blocks

Every part of a round can be undone: the substitution has a value for each byte once, rows are only
moved, and a column is found again from its mixture. So under one key no two blocks are encrypted
alike.
-/

namespace Keyring.Aes

/-! ## Bytes -/

theorem xor_left_comm (a b c : UInt8) : a ^^^ (b ^^^ c) = b ^^^ (a ^^^ c) := by
  rw [← UInt8.xor_assoc, UInt8.xor_comm a, UInt8.xor_assoc]

/-- A byte that is added twice cancels. -/
@[simp] theorem xor_cancel_left (a b : UInt8) : a ^^^ (a ^^^ b) = b := by
  rw [← UInt8.xor_assoc, UInt8.xor_self, UInt8.zero_xor]

/-- No number of a list is marked or comes twice. The marked numbers are the bits of `marks`. -/
def fresh (marks : Nat) : List Nat → Bool
  | [] => true
  | n :: ns => !marks.testBit n && fresh (marks ||| 1 <<< n) ns

/-- A list of fresh numbers has no number twice. -/
theorem nodup_of_fresh {marks : Nat} {ns : List Nat} (h : fresh marks ns) :
    ns.Nodup ∧ ∀ n ∈ ns, marks.testBit n = false := by
  induction ns generalizing marks with
  | nil => exact ⟨List.nodup_nil, fun n hn => absurd hn List.not_mem_nil⟩
  | cons n ns ih =>
      rw [fresh, Bool.and_eq_true, Bool.not_eq_true'] at h
      obtain ⟨hunmarked, hrest⟩ := h
      obtain ⟨hnodup, hmarks⟩ := ih hrest
      simp only [Nat.testBit_or, Nat.one_shiftLeft, Nat.testBit_two_pow, Bool.or_eq_false_iff,
        decide_eq_false_iff_not] at hmarks
      refine ⟨List.nodup_cons.mpr ⟨fun hn => (hmarks n hn).2 rfl, hnodup⟩, ?_⟩
      intro m hm
      rcases List.mem_cons.mp hm with rfl | hm
      · exact hunmarked
      · exact (hmarks m hm).1

/-- A table of 256 entries without repetition has each of them in one place. -/
theorem eq_of_getD_eq {t : Array UInt8} (hsize : t.size = 256)
    (hfresh : fresh 0 (t.toList.map UInt8.toNat)) {a b : UInt8}
    (h : t.getD a.toNat 0 = t.getD b.toNat 0) : a = b := by
  have hlt : ∀ v : UInt8, v.toNat < t.toList.length := fun v => by
    rw [Array.length_toList, hsize]
    exact v.toNat_lt
  have hat : ∀ v : UInt8, t.getD v.toNat 0 = t.toList.get ⟨v.toNat, hlt v⟩ :=
    fun v => dif_pos (hlt v)
  rw [hat, hat] at h
  exact UInt8.toNat_inj.mp (Fin.mk.inj ((nodup_of_fresh hfresh).1.of_map.injective_get h))

/-- No byte is in the table twice. -/
theorem substitute_injective : Function.Injective substitute := by
  have hsize : substitutionTable.size = 256 := by decide +kernel
  have hfresh : fresh 0 (substitutionTable.toList.map UInt8.toNat) := by decide +kernel
  intro a b h
  rw [substitute, substitute] at h
  exact eq_of_getD_eq hsize hfresh h

/-- Doubling is linear: the bit that is shifted out of a sum is the sum of those shifted out. -/
theorem double_xor (a b : UInt8) : double (a ^^^ b) = double a ^^^ double b := by
  have hlt : ∀ c : UInt8, c < 0x80 ↔ c.toBitVec.msb = false := by
    intro c
    rw [BitVec.msb_eq_decide, decide_eq_false_iff_not, UInt8.lt_iff_toNat_lt]
    show c.toNat < 128 ↔ ¬ 2 ^ (8 - 1) ≤ c.toNat
    omega
  -- Whether the polynomial is added depends on the top bit, and the top bit of a sum is the sum of
  -- the top bits.
  simp only [double, hlt, UInt8.toBitVec_xor, BitVec.msb_xor, UInt8.shiftLeft_xor]
  cases a.toBitVec.msb <;> cases b.toBitVec.msb
  all_goals simp [UInt8.xor_assoc, UInt8.xor_comm, xor_left_comm]

/-! ## Columns -/

namespace Column

/-- The sum of the bytes of a column. -/
def sum (p : Column) : UInt8 := p.a ^^^ p.b ^^^ p.c ^^^ p.d

/-- The column with a given mixture. Mixing keeps the sum of all bytes, and from it come one after
the other the sums of the first byte with the third one and with the second one, and the first byte
itself. -/
def unmix (p : Column) : Column :=
  let ac := p.a ^^^ p.c ^^^ double p.sum
  let ab := p.a ^^^ p.b ^^^ double ac
  let a := p.a ^^^ p.sum ^^^ double ab
  ⟨a, a ^^^ ab, a ^^^ ac, a ^^^ ab ^^^ ac ^^^ p.sum⟩

variable (p : Column)

/-- Mixing a column leaves the sum of its bytes as it was. -/
theorem sum_mix : p.mix.sum = p.sum := by
  simp [sum, mix, double_xor, UInt8.xor_assoc, UInt8.xor_comm, xor_left_comm]

/-- Mixing a column can be undone. -/
theorem unmix_mix : p.mix.unmix = p := by
  have hac : p.mix.a ^^^ p.mix.c ^^^ double p.sum = p.a ^^^ p.c := by
    simp [sum, mix, double_xor, UInt8.xor_assoc, UInt8.xor_comm, xor_left_comm]
  have hab : p.mix.a ^^^ p.mix.b ^^^ double (p.a ^^^ p.c) = p.a ^^^ p.b := by
    simp [mix, double_xor, UInt8.xor_assoc, UInt8.xor_comm, xor_left_comm]
  have ha : p.mix.a ^^^ p.sum ^^^ double (p.a ^^^ p.b) = p.a := by
    simp [sum, mix, UInt8.xor_assoc, UInt8.xor_comm, xor_left_comm]
  simp only [unmix, sum_mix, hac, hab, ha]
  cases p
  simp [sum, UInt8.xor_comm, xor_left_comm]

theorem mix_injective : Function.Injective mix :=
  Function.LeftInverse.injective unmix_mix

/-- The substitution of bytes can be undone in a column. -/
theorem substitute_injective : Function.Injective substitute := by
  intro p q h
  obtain ⟨ha, hb, hc, hd⟩ := mk.inj h
  cases p
  cases q
  rw [mk.injEq]
  exact ⟨Aes.substitute_injective ha, Aes.substitute_injective hb, Aes.substitute_injective hc,
    Aes.substitute_injective hd⟩

/-- Adding a column can be undone. -/
theorem xor_right_injective (k : Column) : Function.Injective fun p : Column => p.xor k := by
  intro p q h
  obtain ⟨ha, hb, hc, hd⟩ := mk.inj h
  cases p
  cases q
  rw [mk.injEq]
  exact ⟨(UInt8.xor_left_inj _).mp ha, (UInt8.xor_left_inj _).mp hb, (UInt8.xor_left_inj _).mp hc,
    (UInt8.xor_left_inj _).mp hd⟩

end Column

/-! ## Blocks -/

namespace Block

/-- Blocks are equal if their columns are, after maps of columns that tell columns apart. -/
theorem map_injective {f : Block → Block} {w x y z : Column → Column} (hw : Function.Injective w)
    (hx : Function.Injective x) (hy : Function.Injective y) (hz : Function.Injective z)
    (hf : ∀ p, f p = ⟨w p.w, x p.x, y p.y, z p.z⟩) : Function.Injective f := by
  intro p q h
  rw [hf, hf, mk.injEq] at h
  obtain ⟨hpw, hpx, hpy, hpz⟩ := h
  cases p
  cases q
  rw [mk.injEq]
  exact ⟨hw hpw, hx hpx, hy hpy, hz hpz⟩

/-- The substitution of bytes can be undone in a block. -/
theorem substitute_injective : Function.Injective substitute :=
  map_injective Column.substitute_injective Column.substitute_injective Column.substitute_injective
    Column.substitute_injective fun _ => rfl

/-- Mixing the columns can be undone. -/
theorem mixColumns_injective : Function.Injective mixColumns :=
  map_injective Column.mix_injective Column.mix_injective Column.mix_injective
    Column.mix_injective fun _ => rfl

/-- Adding a round key can be undone. -/
theorem xor_right_injective (k : Block) : Function.Injective fun p : Block => p.xor k :=
  map_injective (Column.xor_right_injective k.w) (Column.xor_right_injective k.x)
    (Column.xor_right_injective k.y)
    (Column.xor_right_injective k.z) fun _ => rfl

/-- Shifting the rows can be undone. -/
theorem shiftRows_injective : Function.Injective shiftRows := by
  rintro ⟨⟨⟩, ⟨⟩, ⟨⟩, ⟨⟩⟩ ⟨⟨⟩, ⟨⟩, ⟨⟩, ⟨⟩⟩ h
  simp only [shiftRows, mk.injEq, Column.mk.injEq] at h ⊢
  tauto

/-- A block is known by its bytes. -/
theorem bytes_injective : Function.Injective bytes := by
  rintro ⟨⟨⟩, ⟨⟩, ⟨⟩, ⟨⟩⟩ ⟨⟨⟩, ⟨⟩, ⟨⟩, ⟨⟩⟩ h
  simp only [bytes, Column.bytes, List.cons_append, List.nil_append, List.cons.injEq, mk.injEq,
    Column.mk.injEq] at h ⊢
  tauto

end Block

/-- Four bytes of a string that is long enough make a column. -/
theorem Column.bytes_ofBytes {bs : Bytes} (h : 4 ≤ bs.length) : (ofBytes bs).bytes = bs.take 4 := by
  rcases bs with _ | ⟨a, _ | ⟨b, _ | ⟨c, _ | ⟨d, rest⟩⟩⟩⟩
  case cons.cons.cons.cons => rfl
  all_goals simp at h

/-- Sixteen bytes are the bytes of their block. -/
theorem Block.bytes_ofBytes {bs : Bytes} (h : bs.length = 16) : (ofBytes bs).bytes = bs := by
  have hdrop : ∀ n ≤ 12, 4 ≤ (bs.drop n).length := by
    intro n hn
    rw [List.length_drop, h]
    omega
  calc (ofBytes bs).bytes
      = bs.take 4 ++ (bs.drop 4).take 4 ++ (bs.drop 8).take 4 ++ (bs.drop 12).take 4 := by
        rw [bytes, ofBytes, Column.bytes_ofBytes (by omega),
          Column.bytes_ofBytes (hdrop 4 (by decide)), Column.bytes_ofBytes (hdrop 8 (by decide)),
          Column.bytes_ofBytes (hdrop 12 (by decide))]
    _ = bs.take 16 := by rw [← List.take_add, ← List.take_add, ← List.take_add]
    _ = bs := List.take_of_length_le (Nat.le_of_eq h)

/-! ## Rounds -/

/-- By induction on the round keys. -/
theorem rounds_injective (keys : List Block) : Function.Injective (rounds keys) := by
  have hround : ∀ key : Block, Function.Injective fun p : Block => p.substitute.shiftRows.xor key :=
    fun key =>
    (Block.xor_right_injective key).comp (Block.shiftRows_injective.comp Block.substitute_injective)
  induction keys with
  | nil => exact Function.injective_id
  | cons key keys ih =>
      -- The last round does not mix columns.
      cases keys with
      | nil => exact hround key
      | cons next keys =>
          exact ih.comp ((Block.xor_right_injective key).comp (Block.mixColumns_injective.comp
            (Block.shiftRows_injective.comp Block.substitute_injective)))

/-- Under one key no two blocks are encrypted alike. -/
theorem encrypt_injective (keys : List Block) : Function.Injective (encrypt keys) := by
  cases keys with
  | nil => exact Function.injective_id
  | cons key keys => exact (rounds_injective keys).comp (Block.xor_right_injective key)

end Keyring.Aes
