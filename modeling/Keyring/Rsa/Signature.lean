import Keyring.Digest.Sha256
import Keyring.Rsa.PrivateKey

/-! # RSA signatures

Signatures by RSASSA-PKCS1-v1_5 with SHA-256: the digest with its algorithm identifier is padded to
the size of the modulus, and the padded block is raised to the private exponent, modulo one factor
after the other. A signature is valid if raising it to the public exponent gives the same block
back. That is checked before a signature is given out, for it may fail if the factors are not prime.
-/

namespace Keyring.Rsa

/-- The algorithm identifier of SHA-256 with the header of the digest. -/
def digestHeader : Bytes :=
  [0x30, 0x31, 0x30, 0x0d, 0x06, 0x09, 0x60, 0x86, 0x48, 0x01, 0x65, 0x03, 0x04, 0x02, 0x01, 0x05,
    0x00, 0x04, 0x20]

/-- The padded block of a message for a modulus of `size` bytes, if the digest fits. -/
def paddedBlock? (size : Nat) (message : Bytes) : Option Bytes :=
  let body := digestHeader ++ Sha256.digest message
  if size < body.length + 11 then none
  else some (0x00 :: 0x01 :: (List.replicate (size - body.length - 3) 0xff ++ 0x00 :: body))

/-- Why a message was not signed. -/
inductive SignFault
  /-- The modulus has no room for the digest. -/
  | tooSmall
  /-- The public exponent does not undo what the private one did. -/
  | notUndone
  deriving DecidableEq, Repr

/-- The wording of a fault. -/
def SignFault.message : SignFault → String
  | .tooSmall => "message too long"
  | .notUndone => "internal error"

namespace PrivateKey

/-- The number with the remainders `u` and `v` modulo the two factors, by the inverse `c` of the
second factor modulo the first. -/
def combine (k : PrivateKey) (c u v : Nat) : Nat := (u + (k.p - v % k.p)) * c % k.p * k.q + v

/-- A number raised to the private exponent, modulo each factor if they can be combined. The factor
that blinds the computation is left out: where the factors are prime, it changes no root. -/
def root (k : PrivateKey) (x : Nat) : Nat :=
  match k.coefficient? with
  | some c =>
    k.combine c (powMod x (k.privateExponent % (k.p - 1)) k.p)
      (powMod x (k.privateExponent % (k.q - 1)) k.q)
  | none => powMod x k.privateExponent k.modulus

/-- The signature of a message. -/
def sign (k : PrivateKey) (message : Bytes) : Except SignFault Bytes :=
  match paddedBlock? k.size message with
  | none => .error .tooSmall
  | some block =>
    if powMod (k.root block.toNat) k.publicExponent k.modulus = block.toNat then
      .ok (Bytes.ofNatFixed k.size (k.root block.toNat))
    else .error .notUndone

end PrivateKey

/-- The greatest size of a modulus in verification, in bits. -/
def maxVerifyBits : Nat := 4096

/-- Whether a byte string is the signature of a message under a public key. -/
def verify (modulus exponent : Nat) (message signature : Bytes) : Bool :=
  let size := modulus.log2 / 8 + 1
  if maxVerifyBits < modulus.log2 + 1 then false
  else if signature.length ≠ size ∨ modulus ≤ signature.toNat then false
  else
    match paddedBlock? size message with
    | none => false
    | some block => Bytes.ofNatFixed size (powMod signature.toNat exponent modulus) == block

end Keyring.Rsa
