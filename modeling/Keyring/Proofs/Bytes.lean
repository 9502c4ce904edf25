import Keyring.Bytes
import Mathlib.Data.List.Induction
import Mathlib.Tactic.Ring

/-! # Numbers as bytes

The bytes of a number spell it again, and the shortest spelling of a positive number does not start
with a zero byte.
-/

namespace Keyring.Bytes

/-- The number of two strings, the second in the lower places. -/
theorem toNat_append (a b : Bytes) : toNat (a ++ b) = toNat a * 256 ^ b.length + toNat b := by
  induction b using List.reverseRecOn with
  | nil => simp [toNat]
  | append_singleton b x ih =>
      have hsnoc : ∀ (c : Bytes) (y : UInt8), toNat (c ++ [y]) = toNat c * 256 + y.toNat := by
        intro c y
        simp [toNat, List.foldl_append]
      rw [← List.append_assoc, hsnoc, ih, hsnoc, List.length_append, List.length_singleton,
        Nat.pow_succ]
      ring

@[simp] theorem toNat_nil : toNat [] = 0 := rfl

@[simp] theorem toNat_singleton (b : UInt8) : toNat [b] = b.toNat := by
  simp [toNat]

/-- The first byte is the highest. -/
theorem toNat_cons (b : UInt8) (bs : Bytes) :
    toNat (b :: bs) = b.toNat * 256 ^ bs.length + toNat bs := by
  rw [← List.singleton_append, toNat_append, toNat_singleton]

/-- The number of some bytes is below the power of 256 that they have places for. -/
theorem toNat_lt (bs : Bytes) : toNat bs < 256 ^ bs.length := by
  induction bs with
  | nil => simp
  | cons b bs ih =>
      have hb : b.toNat + 1 ≤ 256 := b.toNat_lt
      rw [toNat_cons, List.length_cons, Nat.pow_succ, Nat.mul_comm (256 ^ bs.length)]
      calc b.toNat * 256 ^ bs.length + toNat bs <
        b.toNat * 256 ^ bs.length + 256 ^ bs.length := by omega
        _ = (b.toNat + 1) * 256 ^ bs.length := by ring
        _ ≤ 256 * 256 ^ bs.length := Nat.mul_le_mul_right _ hb

/-- Bytes are put before the others as they are written. -/
theorem prependNat_eq (width n : Nat) (rest : Bytes) :
    prependNat width n rest = ofNatFixed width n ++ rest := by
  have h : ∀ (acc : Bytes) (n : Nat),
      prependNat width n (acc ++ rest) = prependNat width n acc ++ rest := by
    induction width with
    | zero => exact fun acc n => rfl
    | succ width ih =>
        intro acc n
        rw [prependNat, prependNat, ← List.cons_append, ih]
  exact h [] n

/-- The last byte of a spelling is the remainder by 256. -/
theorem ofNatFixed_succ (width n : Nat) :
    ofNatFixed (width + 1) n = ofNatFixed width (n / 256) ++ [UInt8.ofNat n] := by
  rw [ofNatFixed, prependNat, prependNat_eq]

/-- Bytes of a fixed width keep the lower places of a number. -/
theorem toNat_ofNatFixed (width n : Nat) : toNat (ofNatFixed width n) = n % 256 ^ width := by
  induction width generalizing n with
  | zero => simp [ofNatFixed, prependNat, Nat.mod_one]
  | succ width ih =>
      rw [ofNatFixed_succ, toNat_append, ih, toNat_singleton, List.length_singleton,
        UInt8.toNat_ofNat', Nat.pow_one, Nat.pow_succ, Nat.mul_comm (256 ^ width) 256, Nat.mod_mul]
      omega

/-- Bytes are the spelling of their number in as many bytes. -/
theorem ofNatFixed_toNat (bs : Bytes) : ofNatFixed bs.length (toNat bs) = bs := by
  induction bs using List.reverseRecOn with
  | nil => rfl
  | append_singleton bs b ih =>
      have hb : b.toNat < 256 := b.toNat_lt
      have hfront : (toNat bs * 256 + b.toNat) / 256 = toNat bs := by omega
      have hlast : UInt8.ofNat (toNat bs * 256 + b.toNat) = b := by
        apply UInt8.toNat_inj.mp
        rw [UInt8.toNat_ofNat']
        omega
      rw [toNat_append, toNat_singleton, List.length_append, List.length_singleton, Nat.pow_one,
        ofNatFixed_succ, hfront, hlast, ih]

/-- A number fits the bytes it takes. -/
theorem lt_pow_natSize (n : Nat) : n < 256 ^ natSize n := by
  rw [natSize]
  split
  · next h => simp [h]
  · next h =>
      calc n < 2 ^ (n.log2 + 1) := Nat.lt_log2_self
        _ ≤ 2 ^ (8 * (n.log2 / 8 + 1)) := Nat.pow_le_pow_right (by omega) (by omega)
        _ = 256 ^ (n.log2 / 8 + 1) := by rw [Nat.pow_mul]

/-- A positive number does not fit fewer bytes than it takes. -/
theorem pow_natSize_le {n : Nat} (h : n ≠ 0) : 256 ^ (natSize n - 1) ≤ n := by
  rw [natSize, if_neg h, Nat.add_sub_cancel]
  calc 256 ^ (n.log2 / 8) = 2 ^ (8 * (n.log2 / 8)) := by rw [Nat.pow_mul]
    _ ≤ 2 ^ n.log2 := Nat.pow_le_pow_right (by omega) (by omega)
    _ ≤ n := Nat.log2_self_le h

/-- A number takes as many bytes as it has, and at least one. -/
@[simp] theorem length_ofNat (n : Nat) : (ofNat n).length = max 1 (natSize n) := by
  rw [ofNat, length_ofNatFixed]

/-- A number is read back from its bytes. -/
@[simp] theorem toNat_ofNat (n : Nat) : toNat (ofNat n) = n := by
  rw [ofNat, toNat_ofNatFixed]
  apply Nat.mod_eq_of_lt
  calc n < 256 ^ natSize n := lt_pow_natSize n
    _ ≤ 256 ^ max 1 (natSize n) := Nat.pow_le_pow_right (by omega) (Nat.le_max_right 1 (natSize n))

/-- A number that takes at least two bytes does not start with a zero byte. -/
theorem head_ofNat_ne_zero {n : Nat} {a b : UInt8} {bs : Bytes} (h : ofNat n = a :: b :: bs) :
    a ≠ 0 := by
  rintro rfl
  have hlen : max 1 (natSize n) = bs.length + 2 := by rw [← length_ofNat, h]; rfl
  have hn : n ≠ 0 := by
    rintro rfl
    simp [natSize] at hlen
  have hval : n = toNat (b :: bs) := by
    rw [← toNat_ofNat n, h, toNat_cons]
    simp
  have hlt : n < 256 ^ (bs.length + 1) := by
    rw [hval]
    exact toNat_lt (b :: bs)
  have hle := pow_natSize_le hn
  rw [show natSize n - 1 = bs.length + 1 from by omega] at hle
  omega

/-- The size of a spelling is bounded by that of the number. -/
theorem natSize_le {n width : Nat} (h : n < 256 ^ width) : natSize n ≤ width := by
  by_cases hn : n = 0
  · simp [natSize, hn]
  · by_contra hlt
    have hle := pow_natSize_le hn
    have hpow : 256 ^ width ≤ 256 ^ (natSize n - 1) := Nat.pow_le_pow_right (by omega) (by omega)
    omega

end Keyring.Bytes
