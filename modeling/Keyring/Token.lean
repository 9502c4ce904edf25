import Keyring.KeyWindow
import Keyring.Rsa.Signature
import Keyring.Token.Claims

/-! # Tokens

A token is a header, a payload of claims and a signature, each in base64url, joined by points. The
current key of the window signs, and the header names it; the published half of any key of the
window verifies the tokens that name it. The signature covers the text of header and payload exactly
as it stands.
-/

namespace Keyring.Token

/-- Why a token could not be made or is not accepted. -/
inductive Fault
  | noSigningKey
  /-- The signing key gives no signature. -/
  | unsigned (why : Rsa.SignFault)
  /-- The header cannot be read. -/
  | malformed (why : Refusal)
  | noKeyId
  /-- No key of the window has this identifier. -/
  | unknownKey (kid : String)
  /-- The named key is published for another algorithm. -/
  | unsupported (algorithm : String)
  /-- The published numbers of the named key cannot be read. -/
  | unusableKey (why : Refusal)
  /-- The named key does not vouch for the token, or its claims break a rule. -/
  | rejected (why : Refusal)
  deriving DecidableEq, Repr

/-- The wording of a fault. -/
def Fault.message : Fault → String
  | .noSigningKey => "No signing key available"
  | .unsigned why => s!"Failed to sign token: {why.message}"
  | .malformed why => s!"Malformed token: {why.message}"
  | .noKeyId => "Token has no key id"
  | .unknownKey kid => s!"Unknown key id: {kid}"
  | .unsupported algorithm => s!"Unsupported algorithm: {algorithm}"
  | .unusableKey why => s!"Invalid verification key: {why.message}"
  | .rejected why => s!"Token rejected: {why.message}"

/-- The error of a fault. -/
def Fault.error (f : Fault) : Error := .plain .token f.message

/-! ## Signing -/

/-- The header of a token signed by a key. -/
def headerOf (key : Key) : Header := ⟨.rs256, some key.id⟩

/-- What a signature covers: header and payload as they are written. -/
def signedText (header : Header) (claims : Json) : String :=
  Base64.encode .urlSafe (Utf8.encode header.render) ++ "."
    ++ Base64.encode .urlSafe (Utf8.encode claims.normalize.render)

/-- Signs claims with the current key of a window. -/
def sign (window : KeyWindow) (claims : Json) : Except Error String :=
  match window.current? with
  | none => .error Fault.noSigningKey.error
  | some key => do
    let _ ← key.toDer
    let message := signedText (headerOf key) claims
    match key.secret.sign (Utf8.encode message) with
    | .ok signature => return message ++ "." ++ Base64.encode .urlSafe signature
    | .error why => throw (Fault.unsigned why).error

/-! ## Verification -/

/-- The three texts of a token. -/
structure Parts where
  header : String
  payload : String
  signature : String
  deriving DecidableEq, Repr

namespace Parts

/-- Cuts at the last point. -/
def cutLast? (cs : List Char) : Option (List Char × List Char) :=
  let back := cs.reverse
  match back.dropWhile (· ≠ '.') with
  | [] => none
  | _ :: front => some (front.reverse, (back.takeWhile (· ≠ '.')).reverse)

/-- The parts of a token; further points belong to the header. -/
def ofToken? (token : String) : Option Parts := do
  let (message, signature) ← cutLast? token.toList
  let (header, payload) ← cutLast? message
  return ⟨String.ofList header, String.ofList payload, String.ofList signature⟩

/-- What the signature covers. -/
def message (p : Parts) : String := p.header ++ "." ++ p.payload

/-- Decodes one part. -/
def decode (text : String) : Except Refusal Bytes :=
  (Base64.decode .urlSafe text).mapError .base64

/-- The value of a part that holds JSON. -/
def decodeJson (text : String) : Except Refusal Json := do
  match Json.parseBytes? (← decode text) with
  | some v => .ok v
  | none => .error .json

/-- Reads the header of a token. -/
def readHeader (token : String) : Except Refusal (Parts × Header) :=
  match ofToken? token with
  | none => .error .shape
  | some parts => do
    match Header.ofJson? (← decodeJson parts.header) with
    | some header => .ok (parts, header)
    | none => .error .json

end Parts

/-- Verifies tokens by rules under which only the algorithm of the window's keys may sign. -/
structure Verifier where
  rules : Rules
  algorithms_eq : rules.algorithms = [.rs256]

namespace Verifier

/-- A verifier by given rules, whatever algorithms they name. -/
def ofRules (rules : Rules) : Verifier := ⟨{ rules with algorithms := [.rs256] }, rfl⟩

/-- A verifier by the default rules. -/
def default : Verifier := ofRules {}

/-- Checks signature and claims against the modulus and exponent of the key that the header
names. -/
def accept (v : Verifier) (now modulus exponent : Nat) (parts : Parts) (header : Header) :
    Except Refusal Json := do
  if !v.rules.algorithms.contains header.algorithm then throw .algorithm
  let signature ← Parts.decode parts.signature
  if !Rsa.verify modulus exponent (Utf8.encode parts.message) signature then throw .signature
  let claims ← Parts.decodeJson parts.payload
  match Claims.ofJson? claims with
  | none => throw .json
  | some known =>
    v.rules.check now known
    return claims.normalize

/-- The claims of a token that a key of the window signed, at a time in seconds. -/
def verify (v : Verifier) (window : KeyWindow) (now : Nat) (token : String) :
    Except Fault Json := do
  let (parts, header) ← (Parts.readHeader token).mapError .malformed
  match header.keyId with
  | none => throw .noKeyId
  | some kid =>
    match window.jwks.find? kid with
    | none => throw (.unknownKey kid)
    | some jwk => do
      if jwk.alg ≠ signingAlgorithm then throw (.unsupported jwk.alg)
      let (modulus, exponent) ← jwk.numbers.mapError fun fault => .unusableKey (.base64 fault)
      (v.accept now modulus exponent parts header).mapError .rejected

/-- The text of a verifier in diagnostics. -/
def debug (v : Verifier) : String :=
  Text.Quoted.showOpenRecord "TokenVerifier"
    [("algorithms", Text.Quoted.showList (v.rules.algorithms.map Algorithm.name))]

end Verifier

/-- The text of a signer in diagnostics. -/
def signerDebug : String := "TokenSigner \x7b .. \x7d"

end Keyring.Token
