import Keyring.Cipher.Aes

/-! # AES-256 in Galois/counter mode

Authenticated encryption with nonces of twelve bytes and tags of sixteen, without associated data.
The ciphertext is the plaintext combined with the keystream of counter blocks from two on; the tag
is a polynomial in the ciphertext blocks, combined with the keystream of counter block one. Counter
mode is its own inverse, so sealing and opening share `crypt`.
-/

namespace Keyring.Gcm

/-- An element of the field of 2^128 elements; the first bit of the block is the top bit of `hi`. -/
structure Element where
  hi : UInt64
  lo : UInt64
  deriving DecidableEq, Repr

/-- The sum of two elements. -/
def Element.add (x y : Element) : Element :=
  ⟨x.hi ^^^ y.hi, x.lo ^^^ y.lo⟩

/-- The element of the first eight bytes of a string. -/
def wordOf (bs : Bytes) : UInt64 :=
  UInt64.ofNat (Bytes.toNat ((bs ++ List.replicate 8 0).take 8))

/-- The element of a string of at most sixteen bytes. -/
def Element.ofBytes (bs : Bytes) : Element :=
  ⟨wordOf bs, wordOf (bs.drop 8)⟩

/-- The sixteen bytes of an element. -/
def Element.bytes (x : Element) : Bytes :=
  Bytes.ofNatFixed 8 x.hi.toNat ++ Bytes.ofNatFixed 8 x.lo.toNat

/-- Adds the products of `v` with the next `steps` coefficients, the top bits of `bits` first, and
gives the multiple of `v` that comes next. -/
def mulWord : (steps : Nat) → (bits vHi vLo zHi zLo : UInt64) → Element × Element
  | 0, _, vHi, vLo, zHi, zLo => (⟨vHi, vLo⟩, ⟨zHi, zLo⟩)
  | steps + 1, bits, vHi, vLo, zHi, zLo =>
    let take := bits >>> 63 == 1
    let zHi' := if take then zHi ^^^ vHi else zHi
    let zLo' := if take then zLo ^^^ vLo else zLo
    let carry := (vHi &&& 1) <<< 63
    let vHi' := if vLo &&& 1 == 1 then (vHi >>> 1) ^^^ 0xe100000000000000 else vHi >>> 1
    mulWord steps (bits <<< 1) vHi' ((vLo >>> 1) ||| carry) zHi' zLo'

/-- The product of two elements. -/
def Element.mul (x y : Element) : Element :=
  let (v, z) := mulWord 64 x.hi y.hi y.lo 0 0
  (mulWord 64 x.lo v.hi v.lo z.hi z.lo).2

/-- Evaluates the polynomial whose coefficients are the next `blocks` blocks of a string. -/
def hashBlocks (h : Element) : (blocks : Nat) → Element → Bytes → Element
  | 0, acc, _ => acc
  | blocks + 1, acc, bs =>
    hashBlocks h blocks ((acc.add (.ofBytes (bs.take 16))).mul h) (bs.drop 16)

/-- How many blocks a string fills. -/
def blockCount (bs : Bytes) : Nat := (bs.length + 15) / 16

/-- The hash of a ciphertext together with its length in bits. -/
def hash (h : Element) (ciphertext : Bytes) : Element :=
  let acc := hashBlocks h (blockCount ciphertext) ⟨0, 0⟩ ciphertext
  (acc.add ⟨0, UInt64.ofNat (8 * ciphertext.length)⟩).mul h

/-- The counter block of a nonce. -/
def counterBlock (nonce : Bytes) (counter : Nat) : Aes.Block :=
  .ofBytes (nonce ++ Bytes.ofNatFixed 4 counter)

/-- Combines the next `blocks` blocks of a string with the keystream from `counter` on. -/
def cryptBlocks (keys : List Aes.Block) (nonce : Bytes) : (blocks counter : Nat) → Bytes → Bytes
  | 0, _, _ => []
  | blocks + 1, counter, bs =>
    Bytes.xor (bs.take 16) (Aes.encrypt keys (counterBlock nonce counter)).bytes
      ++ cryptBlocks keys nonce blocks (counter + 1) (bs.drop 16)

/-- Combines a string with the keystream of a nonce. -/
def crypt (keys : List Aes.Block) (nonce bs : Bytes) : Bytes :=
  cryptBlocks keys nonce (blockCount bs) 2 bs

/-- The tag of a ciphertext under a nonce. -/
def tag (keys : List Aes.Block) (nonce ciphertext : Bytes) : Bytes :=
  let h := Element.ofBytes (Aes.encrypt keys default).bytes
  Bytes.xor (hash h ciphertext).bytes (Aes.encrypt keys (counterBlock nonce 1)).bytes

/-- The longest text a nonce can serve, in bytes. -/
def maxLength : Nat := 0x10_0000_0000

/-- The ciphertext and tag of a plaintext. -/
def encrypt (keys : List Aes.Block) (nonce plaintext : Bytes) : Bytes × Bytes :=
  let ciphertext := crypt keys nonce plaintext
  (ciphertext, tag keys nonce ciphertext)

/-- The plaintext of a ciphertext whose tag is right. -/
def decrypt? (keys : List Aes.Block) (nonce ciphertext given : Bytes) : Option Bytes :=
  if tag keys nonce ciphertext = given then some (crypt keys nonce ciphertext) else none

end Keyring.Gcm
