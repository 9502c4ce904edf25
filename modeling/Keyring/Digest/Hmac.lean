import Keyring.Digest.Sha256

/-! # Keyed digests and key derivation

HMAC with SHA-256, and PBKDF2 over it. A keyed digest starts from two states that depend on the key
alone, so deriving a key by many iterations costs two blocks an iteration.
-/

namespace Keyring.Hmac

/-- The states after the two key blocks. -/
structure Keyed where
  inner : Sha256.State
  outer : Sha256.State
  deriving DecidableEq, Repr

/-- The key as one block of 64 bytes; a longer key is digested first. -/
def keyBlock (key : Bytes) : Bytes :=
  let k := if key.length ≤ 64 then key else Sha256.digest key
  k ++ List.replicate (64 - k.length) 0

/-- The states of a key. -/
def ofKey (key : Bytes) : Keyed :=
  let k := keyBlock key
  ⟨Sha256.absorb 1 Sha256.initial (k.map (· ^^^ 0x36)),
   Sha256.absorb 1 Sha256.initial (k.map (· ^^^ 0x5c))⟩

/-- The one block that ends a message of a key block and a digest. -/
def digestBlock (s : Sha256.State) : Array UInt32 :=
  #[s.a, s.b, s.c, s.d, s.e, s.f, s.g, s.h, 0x80000000, 0, 0, 0, 0, 0, 0, 768]

/-- The keyed digest of a message, as a state. -/
def Keyed.mac (k : Keyed) (message : Bytes) : Sha256.State :=
  Sha256.compress k.outer (digestBlock (Sha256.finish k.inner 64 message))

/-- The keyed digest of a digest, as a state. -/
def Keyed.macDigest (k : Keyed) (s : Sha256.State) : Sha256.State :=
  Sha256.compress k.outer (digestBlock (Sha256.compress k.inner (digestBlock s)))

/-- Wordwise exclusive or. -/
def xorState (x y : Sha256.State) : Sha256.State :=
  ⟨x.a ^^^ y.a, x.b ^^^ y.b, x.c ^^^ y.c, x.d ^^^ y.d, x.e ^^^ y.e, x.f ^^^ y.f, x.g ^^^ y.g,
   x.h ^^^ y.h⟩

/-- Combines `u` with the keyed digests that follow it. -/
def iterate (k : Keyed) : (steps : Nat) → (u sum : Sha256.State) → Sha256.State
  | 0, _, sum => sum
  | steps + 1, u, sum =>
    let v := k.macDigest u
    iterate k steps v (xorState sum v)

/-- Block number `index` of a derived key. No iteration counts as one. -/
def derivedBlock (k : Keyed) (salt : Bytes) (iterations index : Nat) : Bytes :=
  let u := k.mac (salt ++ Bytes.ofNatFixed 4 index)
  (iterate k (iterations - 1) u u).bytes

/-- Derives `length` bytes from a password and a salt. -/
def pbkdf2 (password salt : Bytes) (iterations length : Nat) : Bytes :=
  let k := ofKey password
  let blocks :=
    (List.range ((length + 31) / 32)).map fun i => derivedBlock k salt iterations (i + 1)
  blocks.flatten.take length

/-- A derived key has the length asked for. -/
@[simp] theorem length_pbkdf2 (password salt : Bytes) (iterations length : Nat) :
    (pbkdf2 password salt iterations length).length = length := by
  have h : ∀ (f : Nat → Bytes) (n : Nat), (∀ i, (f i).length = 32) →
      ((List.range n).map f).flatten.length = 32 * n := by
    intro f n hf
    induction n with
    | zero => simp
    | succ n ih => simp [List.range_succ, hf]; simp at ih; omega
  simp only [pbkdf2, List.length_take]
  rw [h _ _ (fun _ => rfl)]
  omega

end Keyring.Hmac
