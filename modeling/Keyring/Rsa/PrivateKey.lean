import Keyring.Rsa.Arithmetic

/-! # RSA private keys

A private key has a modulus, which is the product of two factors, and a public and a private
exponent that undo each other modulo each factor less one. Those are the conditions that are checked
of every key; whether the factors are prime is not.
-/

namespace Keyring.Rsa

/-- The least public exponent. -/
def minExponent : Nat := 2

/-- The greatest public exponent. -/
def maxExponent : Nat := 0x1_ffff_ffff

/-- An RSA private key with two factors. -/
structure PrivateKey where
  modulus : Nat
  publicExponent : Nat
  privateExponent : Nat
  /-- The first factor; the order of the factors is kept. -/
  p : Nat
  q : Nat
  modulus_eq : p * q = modulus
  modulus_odd : modulus % 2 = 1
  exponent_odd : publicExponent % 2 = 1
  exponent_ge : minExponent ≤ publicExponent
  exponent_le : publicExponent ≤ maxExponent
  exponent_lt : publicExponent < modulus
  one_lt_p : 1 < p
  one_lt_q : 1 < q
  undoes_p : privateExponent * publicExponent % (p - 1) = 1
  undoes_q : privateExponent * publicExponent % (q - 1) = 1
  deriving DecidableEq

namespace PrivateKey

/-- The key of given components, if they satisfy the conditions of a key. -/
def ofComponents? (n e d p q : Nat) : Option PrivateKey :=
  if h : p * q = n ∧ n % 2 = 1 ∧ e % 2 = 1 ∧ minExponent ≤ e ∧ e ≤ maxExponent ∧ e < n ∧
      1 < p ∧ 1 < q ∧ d * e % (p - 1) = 1 ∧ d * e % (q - 1) = 1 then
    some ⟨n, e, d, p, q, h.1, h.2.1, h.2.2.1, h.2.2.2.1, h.2.2.2.2.1, h.2.2.2.2.2.1,
      h.2.2.2.2.2.2.1, h.2.2.2.2.2.2.2.1, h.2.2.2.2.2.2.2.2.1, h.2.2.2.2.2.2.2.2.2⟩
  else none

/-- The size of the modulus in whole bytes. -/
def size (k : PrivateKey) : Nat := k.modulus.log2 / 8 + 1

/-- The inverse of the second factor modulo the first, if there is one. -/
def coefficient? (k : PrivateKey) : Option Nat := inverse? k.q k.p

end PrivateKey

end Keyring.Rsa
