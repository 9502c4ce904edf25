import Keyring.Encoding.Der
import Keyring.Encoding.Pem
import Keyring.Error
import Keyring.Json.Printer
import Keyring.Rsa.Generate
import Keyring.Text.Quoted

/-! # Signing keys

A signing key is an RSA private key with an identifier that every process derives alike from the
public half: the base64url text of the SHA-256 digest of the public key's required JSON members in
lexicographic order. Keys are stored as PKCS#1 documents in PEM.
-/

namespace Keyring

/-- A signing key. -/
structure Key where
  /-- The private key. -/
  secret : Rsa.PrivateKey
  deriving DecidableEq

namespace Key

/-- The least size of a modulus that may sign, in bits. -/
def minBits : Nat := 1024

/-- The base64url text of a number's bytes. -/
def encodeNat (n : Nat) : String :=
  Base64.encode .urlSafe (Bytes.ofNat n)

/-- The public modulus as text. -/
def modulusText (k : Key) : String := encodeNat k.secret.modulus

/-- The public exponent as text. -/
def exponentText (k : Key) : String := encodeNat k.secret.publicExponent

/-- The required members of a public key, whose digest identifies it. -/
def canonicalText (modulus exponent : String) : String :=
  Json.render (.obj [("e", .str exponent), ("kty", .str "RSA"), ("n", .str modulus)])

/-- The identifier of a public key. -/
def thumbprint (modulus exponent : String) : String :=
  Base64.encode .urlSafe (Sha256.digest (Utf8.encode (canonicalText modulus exponent)))

/-- The identifier of a key. -/
def id (k : Key) : String := thumbprint k.modulusText k.exponentText

/-- The size of the modulus in bits, counted in whole bytes. -/
def bits (k : Key) : Nat := k.secret.size * 8

/-- The label of a key document. -/
def label : String := "RSA PRIVATE KEY"

/-- The private numbers in the order of a key document; a key whose factors have a common divisor
has no such document. -/
def documentNumbers? (k : Key) : Option (List Nat) := do
  let s := k.secret
  let c ← s.coefficient?
  return [0, s.modulus, s.publicExponent, s.privateExponent, s.p, s.q,
    s.privateExponent % (s.p - 1), s.privateExponent % (s.q - 1), c]

/-- The key document, unless there is none or it is too long. -/
def document? (k : Key) : Option Bytes := do
  let document := Der.integers (← k.documentNumbers?)
  if document.length ≤ Der.maxSize then some document else none

/-- The failure to write a key document. -/
def encodingError (what : String) : Error :=
  .plain .keyEncoding s!"PKCS#1 {what} encoding failed: cryptographic error"

/-- The key document as DER. -/
def toDer (k : Key) : Except Error Bytes :=
  match k.document? with
  | some document => .ok document
  | none => .error (encodingError "DER")

/-- The key document as PEM. -/
def toPem (k : Key) : Except Error Bytes :=
  match k.document? with
  | some document => .ok (Pem.encode label document)
  | none => .error (encodingError "PEM")

/-- The private key of a DER document. The version is zero; the numbers that follow from the others
are read and passed over. -/
def ofDer? (document : Bytes) : Option Key := do
  if Der.maxSize < document.length then none
  else match ← Der.readSequence 9 document with
    | [version, n, e, d, p, q, _, _, _] =>
      if version = 0 then return ⟨← Rsa.PrivateKey.ofComponents? n e d p q⟩ else none
    | _ => none

/-- Reads a PEM document. -/
def ofPem (pem : Bytes) : Except Error Key :=
  match Utf8.decode pem with
  | .error fault =>
    .error (.plain .keyEncoding (Error.describe "PEM is not valid UTF-8" fault.message))
  | .ok _ =>
    match (Pem.decode label pem).bind ofDer? with
    | some k => .ok k
    | none => .error (.plain .keyEncoding "Invalid PKCS#1 PEM")

/-- Generates a key. -/
def generate (bits : Nat) (e : Entropy) : Except Error (Key × Entropy) :=
  match Rsa.generate bits e with
  | .ok (secret, e) => .ok (⟨secret⟩, e)
  | .error fault =>
    .error (.plain .keyGeneration
      (Error.describe s!"RSA-{bits} generation failed" fault.message))

/-- Keys are the same if their identifiers are. -/
def same (a b : Key) : Bool := a.id == b.id

/-- The text of a key in diagnostics, which shows nothing private. -/
def debug (k : Key) : String :=
  Text.Quoted.showRecord "Key" [("id", Text.Quoted.quote k.id), ("bits", toString k.bits)]

end Key

end Keyring
