import Keyring.Bytes

/-! # SHA-256

The digest of FIPS 180-4. A message is padded to whole blocks of sixteen words; each block is
extended to sixty-four words and folded into a state of eight words.
-/

namespace Keyring.Sha256

/-- The eight words that are carried from block to block. -/
structure State where
  a : UInt32
  b : UInt32
  c : UInt32
  d : UInt32
  e : UInt32
  f : UInt32
  g : UInt32
  h : UInt32
  deriving DecidableEq, Repr

/-- The state before the first block. -/
def initial : State :=
  ⟨0x6a09e667, 0xbb67ae85, 0x3c6ef372, 0xa54ff53a, 0x510e527f, 0x9b05688c, 0x1f83d9ab, 0x5be0cd19⟩

/-- The constants of the sixty-four rounds. -/
def roundConstants : Array UInt32 :=
  #[0x428a2f98, 0x71374491, 0xb5c0fbcf, 0xe9b5dba5, 0x3956c25b, 0x59f111f1, 0x923f82a4, 0xab1c5ed5,
    0xd807aa98, 0x12835b01, 0x243185be, 0x550c7dc3, 0x72be5d74, 0x80deb1fe, 0x9bdc06a7, 0xc19bf174,
    0xe49b69c1, 0xefbe4786, 0x0fc19dc6, 0x240ca1cc, 0x2de92c6f, 0x4a7484aa, 0x5cb0a9dc, 0x76f988da,
    0x983e5152, 0xa831c66d, 0xb00327c8, 0xbf597fc7, 0xc6e00bf3, 0xd5a79147, 0x06ca6351, 0x14292967,
    0x27b70a85, 0x2e1b2138, 0x4d2c6dfc, 0x53380d13, 0x650a7354, 0x766a0abb, 0x81c2c92e, 0x92722c85,
    0xa2bfe8a1, 0xa81a664b, 0xc24b8b70, 0xc76c51a3, 0xd192e819, 0xd6990624, 0xf40e3585, 0x106aa070,
    0x19a4c116, 0x1e376c08, 0x2748774c, 0x34b0bcb5, 0x391c0cb3, 0x4ed8aa4a, 0x5b9cca4f, 0x682e6ff3,
    0x748f82ee, 0x78a5636f, 0x84c87814, 0x8cc70208, 0x90befffa, 0xa4506ceb, 0xbef9a3f7, 0xc67178f2]

/-- Rotation to the right. -/
@[inline] def rotr (x n : UInt32) : UInt32 :=
  (x >>> n) ||| (x <<< (32 - n))

/-- Appends `steps` words to the message schedule. -/
def extend : (steps : Nat) → Array UInt32 → Array UInt32
  | 0, w => w
  | steps + 1, w =>
    let t := w.size
    let x := w.getD (t - 15) 0
    let y := w.getD (t - 2) 0
    let s0 := rotr x 7 ^^^ rotr x 18 ^^^ (x >>> 3)
    let s1 := rotr y 17 ^^^ rotr y 19 ^^^ (y >>> 10)
    extend steps (w.push (w.getD (t - 16) 0 + s0 + w.getD (t - 7) 0 + s1))

/-- Runs `steps` rounds from round `t` on. -/
def rounds (w : Array UInt32) : (steps t : Nat) → (a b c d e f g h : UInt32) → State
  | 0, _, a, b, c, d, e, f, g, h => ⟨a, b, c, d, e, f, g, h⟩
  | steps + 1, t, a, b, c, d, e, f, g, h =>
    let s1 := rotr e 6 ^^^ rotr e 11 ^^^ rotr e 25
    let ch := (e &&& f) ^^^ ((~~~e) &&& g)
    let t1 := h + s1 + ch + roundConstants.getD t 0 + w.getD t 0
    let s0 := rotr a 2 ^^^ rotr a 13 ^^^ rotr a 22
    let maj := (a &&& b) ^^^ (a &&& c) ^^^ (b &&& c)
    rounds w steps (t + 1) (t1 + (s0 + maj)) a b c (d + t1) e f g

/-- Folds a block of sixteen words into the state. -/
def compress (s : State) (block : Array UInt32) : State :=
  let r := rounds (extend 48 block) 64 0 s.a s.b s.c s.d s.e s.f s.g s.h
  ⟨s.a + r.a, s.b + r.b, s.c + r.c, s.d + r.d, s.e + r.e, s.f + r.f, s.g + r.g, s.h + r.h⟩

/-- The word of four bytes, most significant first. -/
@[inline] def word (a b c d : UInt8) : UInt32 :=
  (a.toUInt32 <<< 24) ||| (b.toUInt32 <<< 16) ||| (c.toUInt32 <<< 8) ||| d.toUInt32

/-- Appends `steps` words of a message to a block; also gives the rest of the message. -/
def takeWords : (steps : Nat) → Array UInt32 → Bytes → Array UInt32 × Bytes
  | steps + 1, block, a :: b :: c :: d :: rest => takeWords steps (block.push (word a b c d)) rest
  | _, block, rest => (block, rest)

/-- Folds `blocks` blocks of a message into the state. -/
def absorb : (blocks : Nat) → State → Bytes → State
  | 0, s, _ => s
  | blocks + 1, s, message =>
    let (block, rest) := takeWords 16 #[] message
    absorb blocks (compress s block) rest

/-- What follows a message of `length` bytes: one bit, zeros up to the last eight bytes of a block,
and the length in bits. -/
def padding (length : Nat) : Bytes :=
  0x80 :: (List.replicate ((119 - length % 64) % 64) 0 ++ Bytes.ofNatFixed 8 (8 * length))

/-- Absorbs the end of a message of which `before` bytes, whole blocks, are in the state. -/
def finish (s : State) (before : Nat) (message : Bytes) : State :=
  let padded := message ++ padding (before + message.length)
  absorb (padded.length / 64) s padded

/-- The bytes of a word, most significant first. -/
def wordBytes (w : UInt32) : Bytes :=
  [(w >>> 24).toUInt8, (w >>> 16).toUInt8, (w >>> 8).toUInt8, w.toUInt8]

/-- The bytes of a state. -/
def State.bytes (s : State) : Bytes :=
  wordBytes s.a ++ wordBytes s.b ++ wordBytes s.c ++ wordBytes s.d
    ++ wordBytes s.e ++ wordBytes s.f ++ wordBytes s.g ++ wordBytes s.h

/-- The digest of a message. -/
def digest (message : Bytes) : Bytes :=
  (finish initial 0 message).bytes

/-- A digest has 32 bytes. -/
@[simp] theorem length_digest (message : Bytes) : (digest message).length = 32 := rfl

end Keyring.Sha256
