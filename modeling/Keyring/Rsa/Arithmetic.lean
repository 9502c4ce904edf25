/-! # Modular arithmetic

Powers and inverses modulo a number. Powers are computed bit by bit from the top of the exponent;
an inverse is found by the extended algorithm of Euclid and checked before it is given out.
-/

namespace Keyring.Rsa

/-- The power of `b` by the low `bits` bits of `e`, after `acc` for the bits above. -/
def powBits (b e m : Nat) : (bits : Nat) → (acc : Nat) → Nat
  | 0, acc => acc
  | bits + 1, acc =>
    let sq := acc * acc % m
    powBits b e m bits (if e.testBit bits then sq * b % m else sq)

/-- `b ^ e` modulo `m`. -/
def powMod (b e m : Nat) : Nat :=
  powBits (b % m) e m (e.log2 + 1) (1 % m)

/-- Steps of Euclid's algorithm on `r` and `s`, keeping what `u` and `v` multiply `a` by; gives the
multiplier of the last nonzero remainder. -/
def euclid : (steps : Nat) → (r s u v : Int) → Int
  | 0, _, _, u, _ => u
  | steps + 1, r, s, u, v => if s = 0 then u else euclid steps s (r % s) v (u - r / s * v)

/-- The number that `a` has to be multiplied by to give one modulo `m`, if there is one. -/
def inverse? (a m : Nat) : Option Nat :=
  let u := euclid (2 * (m.log2 + 2)) (a % m : Nat) m 1 0
  let x := (u % m).toNat
  if a * x % m = 1 % m ∧ 1 < m then some x else none

end Keyring.Rsa
