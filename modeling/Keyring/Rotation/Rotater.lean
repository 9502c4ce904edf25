import Keyring.Bucket
import Keyring.Rotation.Program

/-! # Rotation of keys

Every process derives the same bucket from its clock, and the store holds one key for a bucket. A
process that finds none generates one and tries to create the blob; the creation that the store
accepts decides, and whoever loses reads the winner back and drops its own key. So all processes
come to use the same key without a lock.
-/

namespace Keyring.Rotation

/-- How keys are generated and named: by buckets of an interval, with keys of a size. -/
structure Rotater where
  /-- The width of a bucket. -/
  interval : Duration
  /-- The size of generated moduli in bits. -/
  keyStrength : Nat
  interval_pos : 0 < interval.nanos
  minBits_le : Key.minBits ≤ keyStrength
  deriving DecidableEq

/-- How the key of a bucket was settled. -/
inductive Generation
  /-- The generated key is the bucket's key. -/
  | won (key : Key)
  /-- Another process was first; its key counts and the generated one is dropped. -/
  | adopted (winner discarded : Key)
  deriving DecidableEq

namespace Generation

/-- The bucket's key. -/
def key : Generation → Key
  | won key => key
  | adopted winner _ => winner

/-- Whether the generated key became the bucket's key. -/
def isWon : Generation → Bool
  | won _ => true
  | adopted _ _ => false

end Generation

namespace Rotater

/-- A rotater for an interval and a key size. -/
def create (interval : Duration) (keyStrength : Nat) : Except Error Rotater :=
  if hi : 0 < interval.nanos then
    if hk : Key.minBits ≤ keyStrength then .ok ⟨interval, keyStrength, hi, hk⟩
    else
      .error (.plain .invalidArgument
        s!"RSA key strength {keyStrength} is below the minimum of {Key.minBits} bits")
  else .error (.plain .invalidArgument "Rotation interval must be non-zero")

/-- The bucket of a time. -/
def bucketAt (r : Rotater) (now : Duration) : Bucket := .containing now r.interval

/-- The key stored for a bucket. -/
def find (b : Bucket) : Action (Option Key) := do
  let stored : Option Bytes ← Action.call (.read b.blobName)
  match stored with
  | some pem => return some (← Action.ofExcept (Key.ofPem pem))
  | none => return none

/-- The failure of a process that lost a race and cannot read the winner. -/
def unreadable (b : Bucket) : Error :=
  .plain .storage s!"Blob {b.blobName} was not readable after losing the create race"

/-- Generates a key for a bucket and tries once to make it the bucket's key. -/
def generateFor (r : Rotater) (b : Bucket) : Action Generation := do
  let candidate ← Action.freshKey r.keyStrength
  let pem ← Action.ofExcept candidate.toPem
  let won : Bool ← Action.call (.create b.blobName pem (Bucket.blobTtl r.interval))
  if won then return .won candidate
  match ← find b with
  | some winner => return .adopted winner candidate
  | none => throw (unreadable b)

/-- Settles the key of the current bucket. -/
def generate (r : Rotater) : Action Generation := do
  r.generateFor (r.bucketAt (← Action.now))

/-- Brings the window up to date at the start: the previous bucket's key, if it is still stored, and
then the current bucket's key, which is generated if none is stored. -/
def restore (r : Rotater) : Action Bucket := do
  let b := r.bucketAt (← Action.now)
  let previous ← find b.previous
  let current ← find b
  if let some key := previous then
    Action.install key
  match current with
  | some key => Action.install key
  | none => Action.install (← r.generateFor b).key
  return b

/-- Settles the key of a bucket and installs it, unless it is the current key already. -/
def rotate (r : Rotater) (b : Bucket) : Action Key := do
  let key := (← r.generateFor b).key
  let current ← Action.currentKey
  unless current.any (·.same key) do
    Action.install key
  return key

/-- The text of a rotater in diagnostics, given that of its store. -/
def debug (r : Rotater) (store : String) : String :=
  Text.Quoted.showOpenRecord "KeyStoreRotater"
    [("store", store), ("interval", r.interval.debug), ("key_strength", toString r.keyStrength)]

end Rotater

end Keyring.Rotation
