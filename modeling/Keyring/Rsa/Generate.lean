import Keyring.Entropy
import Keyring.Rsa.PrivateKey

/-! # Generating RSA keys

A key of `bits` bits is the product of two different primes of half the size, each with its two top
bits set. Candidates are drawn until one passes trial division and the test of Miller and Rabin. A
size for which there are too few such primes is refused, and so is one whose modulus does not exceed
the public exponent.
-/

namespace Keyring.Rsa

/-- The public exponent of generated keys. -/
def publicExponent : Nat := 65537

/-- Why no key was generated. -/
inductive GenerateFault
  | tooFewPrimes
  | invalidModulus
  /-- The bound on the number of draws was reached. -/
  | exhausted
  deriving DecidableEq, Repr

/-- The wording of a fault. -/
def GenerateFault.message : GenerateFault → String
  | .tooFewPrimes => "too few primes of given length to generate an RSA key"
  | .invalidModulus => "invalid modulus"
  | .exhausted => "no primes found"

/-- The primes that candidates are divided by. -/
def smallPrimes : List Nat :=
  [2, 3, 5, 7, 11, 13, 17, 19, 23, 29, 31, 37, 41, 43, 47, 53, 59, 61, 67, 71, 73, 79, 83, 89, 97,
   101, 103, 107, 109, 113, 127, 131, 137, 139, 149, 151, 157, 163, 167, 173, 179, 181, 191, 193,
   197, 199, 211, 223, 227, 229, 233, 239, 241, 251]

/-- Whether squaring `x` up to `steps` times reaches minus one modulo `n`. -/
def reachesMinusOne (n : Nat) : (steps : Nat) → (x : Nat) → Bool
  | 0, _ => false
  | steps + 1, x => x == n - 1 || reachesMinusOne n steps (x * x % n)

/-- How often two divides a positive number, counted up to a bound. -/
def twos : (bound : Nat) → Nat → Nat
  | 0, _ => 0
  | bound + 1, n => if n % 2 = 0 then twos bound (n / 2) + 1 else 0

/-- The test of Miller and Rabin for an odd number to one base. -/
def passesBase (n base : Nat) : Bool :=
  let s := twos (n.log2 + 1) (n - 1)
  let x := powMod base ((n - 1) / Nat.pow 2 s) n
  x == 1 || reachesMinusOne n s x

/-- Whether a number passes for a prime. -/
def isProbablePrime (n : Nat) : Bool :=
  if n < 2 then false
  else if smallPrimes.contains n then true
  else if smallPrimes.any fun p => n % p == 0 then false
  else (smallPrimes.take 12).all (passesBase n)

/-- A number of `bits` bits made of random bytes: odd, with its two top bits set. -/
def candidate (bits : Nat) (bs : Bytes) : Nat :=
  let low := bs.toNat % Nat.pow 2 (bits - 2)
  3 * Nat.pow 2 (bits - 2) + (if low % 2 = 1 then low else low + 1) % Nat.pow 2 (bits - 2)

/-- Draws candidates until one passes for a prime. The fuel bounds the draws. -/
def drawPrime (bits : Nat) : (fuel : Nat) → Entropy → Option (Nat × Entropy)
  | 0, _ => none
  | fuel + 1, e =>
    let (bs, e) := e.draw ((bits + 7) / 8)
    let c := candidate bits bs
    if isProbablePrime c then some (c, e) else drawPrime bits fuel e

/-- The key of two primes: the private exponent undoes the public one modulo the product of the
primes less one. -/
def ofPrimes (p q : Nat) : Except GenerateFault (Option PrivateKey) :=
  if p * q ≤ publicExponent then .error .invalidModulus
  else
    match inverse? publicExponent ((p - 1) * (q - 1)) with
    | none => .ok none
    | some d => .ok (PrivateKey.ofComponents? (p * q) publicExponent d p q)

/-- Draws pairs of primes until one gives a key of `bits` bits. The fuel bounds the pairs. -/
def drawKey (bits : Nat) : (fuel : Nat) → Entropy → Except GenerateFault (PrivateKey × Entropy)
  | 0, _ => .error .exhausted
  | fuel + 1, e =>
    let draws := 100 * bits + 1000
    match drawPrime (bits / 2) draws e with
    | none => .error .exhausted
    | some (p, e) =>
      match drawPrime (bits - bits / 2) draws e with
      | none => .error .exhausted
      | some (q, e) =>
        if p = q ∨ (p * q).log2 + 1 ≠ bits then drawKey bits fuel e
        else
          match ofPrimes p q with
          | .error fault => .error fault
          | .ok none => drawKey bits fuel e
          | .ok (some k) => .ok (k, e)

/-- The least size for which there are enough primes. -/
def minBits : Nat := 12

/-- Generates a key of `bits` bits. -/
def generate (bits : Nat) (e : Entropy) : Except GenerateFault (PrivateKey × Entropy) :=
  if bits < minBits then .error .tooFewPrimes else drawKey bits 1000 e

end Keyring.Rsa
