import Keyring.Digest.Sha256

/-! # Entropy

Random bytes for keys and nonces. A source is a seed and a count of what was drawn from it; what it
gives next is a digest of both. The seed comes from outside.
-/

namespace Keyring

/-- A source of random bytes. -/
structure Entropy where
  seed : Bytes
  drawn : Nat
  deriving DecidableEq, Repr

namespace Entropy

/-- Draws `blocks` blocks of 32 bytes. -/
def blocks (seed : Bytes) : (count : Nat) → (index : Nat) → Bytes
  | 0, _ => []
  | count + 1, index =>
    Sha256.digest (seed ++ Bytes.ofNatFixed 8 index) ++ blocks seed count (index + 1)

/-- Draws bytes, and gives the source for the next draw. -/
def draw (length : Nat) (e : Entropy) : Bytes × Entropy :=
  let count := (length + 31) / 32
  ((blocks e.seed count e.drawn).take length, { e with drawn := e.drawn + count })

end Entropy

end Keyring
