/-! # Byte strings

Blobs, keys and signatures are byte strings, and the numbers of public-key cryptography are read
from them most significant byte first. `Bytes.ofNat` is the shortest such spelling of a positive
number; `Bytes.ofNatFixed` pads to a given width.
-/

namespace Keyring

/-- A byte string. -/
abbrev Bytes := List UInt8

namespace Bytes

/-- The number that the bytes spell, most significant byte first. -/
def toNat (bs : Bytes) : Nat :=
  bs.foldl (fun n b => n * 256 + b.toNat) 0

/-- Puts the `width` low bytes of `n` in front of `rest`. -/
def prependNat : Nat → Nat → Bytes → Bytes
  | 0, _, rest => rest
  | width + 1, n, rest => prependNat width (n / 256) (UInt8.ofNat n :: rest)

/-- The `width` low bytes of `n`, most significant byte first. -/
def ofNatFixed (width n : Nat) : Bytes :=
  prependNat width n []

/-- How many bytes a number takes; zero takes none. -/
def natSize (n : Nat) : Nat :=
  if n = 0 then 0 else n.log2 / 8 + 1

/-- The shortest spelling of `n` that has at least one byte. -/
def ofNat (n : Nat) : Bytes :=
  ofNatFixed (max 1 (natSize n)) n

/-- Bytewise exclusive or, as long as the shorter operand. -/
def xor (a b : Bytes) : Bytes :=
  List.zipWith (· ^^^ ·) a b

@[simp] theorem length_prependNat (width n : Nat) (rest : Bytes) :
    (prependNat width n rest).length = width + rest.length := by
  induction width generalizing n rest with
  | zero => simp [prependNat]
  | succ width ih => simp [prependNat, ih]; omega

@[simp] theorem length_ofNatFixed (width n : Nat) : (ofNatFixed width n).length = width := by
  simp [ofNatFixed]

end Bytes

end Keyring
