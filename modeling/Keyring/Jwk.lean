import Keyring.Json.Reader
import Keyring.Key

/-! # Public keys in JSON

The public half of a signing key as a JSON Web Key, and the set of keys that verify tokens at a
moment. Records are written in the order of their fields. They are read from an object, in which
every field stands once and unknown members are passed over, or from an array of the fields in
order.
-/

namespace Keyring

/-- A public RSA key as published. -/
structure Jwk where
  /-- The key type. -/
  kty : String
  /-- The public use of the key, member `use`. -/
  keyUse : String
  alg : String
  /-- The identifier of the key. -/
  kid : String
  /-- The modulus in base64url. -/
  n : String
  /-- The public exponent in base64url. -/
  e : String
  deriving DecidableEq, Repr

/-- The keys valid for verification, oldest first. -/
structure JwkSet where
  keys : List Jwk
  deriving DecidableEq, Repr

/-- The algorithm of all signatures. -/
def signingAlgorithm : String := "RS256"

/-- The public half of a key. -/
def Key.publicJwk (k : Key) : Jwk :=
  ⟨"RSA", "sig", signingAlgorithm, k.id, k.modulusText, k.exponentText⟩

namespace Jwk

/-- The names of the fields in order. -/
def fieldNames : List String := ["kty", "use", "alg", "kid", "n", "e"]

/-- The key as a JSON value. -/
def toJson (k : Jwk) : Json :=
  .obj [("kty", .str k.kty), ("use", .str k.keyUse), ("alg", .str k.alg), ("kid", .str k.kid),
    ("n", .str k.n), ("e", .str k.e)]

/-- The modulus and the public exponent that a key states. -/
def numbers (k : Jwk) : Except Base64.Fault (Nat × Nat) := do
  let n ← Base64.decode .urlSafe k.n
  let e ← Base64.decode .urlSafe k.e
  return (Bytes.toNat n, Bytes.toNat e)

/-- The key of six texts. -/
def ofFields? : List String → Option Jwk
  | [kty, keyUse, alg, kid, n, e] => some ⟨kty, keyUse, alg, kid, n, e⟩
  | _ => none

end Jwk

namespace Json.Reader

/-- The value of a member that must stand once. -/
def only? {α : Type} (name : String) (ms : List (String × Option α)) : Option α :=
  match ms.filter (·.1 = name) with
  | [(_, v)] => v
  | _ => none

/-- Reads a member by `field` if its name is known and passes over it otherwise. -/
def knownMember {α : Type} (names : List String) (field : Reader α) (name : String) :
    Reader (Option α) := fun cs =>
  if names.contains name then (field cs).map fun (v, rest) => (some v, rest)
  else (skip cs).map fun ((), rest) => (none, rest)

/-- Reads a record whose fields are all read by `field`. -/
def record {α : Type} (names : List String) (field : Reader α) : Reader (List α) := fun cs =>
  match skipSpace cs with
  | '[' :: _ => do
    let (vs, rest) ← elements field cs
    if vs.length = names.length then some (vs, rest) else none
  | _ => do
    let (ms, rest) ← members (knownMember names field) cs
    return (← names.mapM (only? · ms), rest)

/-- Reads a public key. -/
def jwk : Reader Jwk := fun cs => do
  let (fields, rest) ← record Jwk.fieldNames string cs
  return (← Jwk.ofFields? fields, rest)

/-- Reads a set of public keys. -/
def jwkSet : Reader JwkSet := fun cs => do
  match ← record ["keys"] (elements jwk) cs with
  | ([keys], rest) => some (⟨keys⟩, rest)
  | _ => none

end Json.Reader

namespace JwkSet

/-- The set of a window of keys. -/
def ofKeys (keys : List Key) : JwkSet :=
  ⟨keys.map Key.publicJwk⟩

/-- The first key with an identifier. -/
def find? (s : JwkSet) (kid : String) : Option Jwk :=
  s.keys.find? (·.kid = kid)

/-- The set as a JSON value. -/
def toJson (s : JwkSet) : Json :=
  .obj [("keys", .arr (s.keys.map Jwk.toJson))]

/-- Reads the JSON text of a set. -/
def parse (text : String) : Except Error JwkSet :=
  match Json.Reader.jwkSet.whole text with
  | some s => .ok s
  | none => .error .badJson

end JwkSet

/-- Reads the JSON text of a public key. -/
def Jwk.parse (text : String) : Except Error Jwk :=
  match Json.Reader.jwk.whole text with
  | some k => .ok k
  | none => .error .badJson

end Keyring
