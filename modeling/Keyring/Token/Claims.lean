import Keyring.Json.Reader
import Keyring.Text.Base64
import Keyring.Token.Header

/-! # Claims and the rules for them

The claims of a token are any JSON value. Five of them have a meaning here: the times at which a
token expires and from which it is valid, its subject, its issuers and its audience. A claim whose
value has another type than its meaning asks for is unreadable, which is not the same as absent.
`Rules.check` says which claims a token must make.
-/

namespace Keyring.Token

/-- Why a token is refused. -/
inductive Refusal
  /-- The token has fewer than three parts. -/
  | shape
  | base64 (fault : Base64.Fault)
  | json
  | algorithm
  | signature
  | expired
  | notYetValid
  | subject
  | issuer
  | audience
  | missingClaim (name : String)
  | unreadableClaim (name : String)
  deriving DecidableEq, Repr

/-- The wording of a refusal. -/
def Refusal.message : Refusal → String
  | .shape => "InvalidToken"
  | .base64 fault => s!"Base64 error: {fault.message}"
  | .json => "JSON error"
  | .algorithm => "InvalidAlgorithm"
  | .signature => "InvalidSignature"
  | .expired => "ExpiredSignature"
  | .notYetValid => "ImmatureSignature"
  | .subject => "InvalidSubject"
  | .issuer => "InvalidIssuer"
  | .audience => "InvalidAudience"
  | .missingClaim name => s!"Missing required claim: {name}"
  | .unreadableClaim name => s!"Invalid format for claim: {name}"

/-- What a claim with a meaning says. -/
inductive Claim (α : Type)
  | absent
  | unreadable
  | stated (a : α)
  deriving DecidableEq, Repr

/-- What a claim says, if it is there and readable. -/
def Claim.said? {α : Type} : Claim α → Option α
  | stated a => some a
  | _ => none

/-- Whether a value is an array or object that holds something. -/
def isInhabited : Json → Bool
  | .arr (_ :: _) => true
  | .obj (_ :: _) => true
  | _ => false

/-- A time in seconds: a natural number below 2^64, fractions rounded. No time is an array or object
that holds something. -/
def readTime (v : Json) : Option (Claim Nat) :=
  if isInhabited v then none
  else match v with
    | .int n => if 0 ≤ n then some (.stated n.toNat) else some .unreadable
    | .float x =>
      let (n, d) := x.ratio
      if (x.negative ∧ x.mantissa ≠ 0) ∨ 0x1_0000_0000_0000_0000 * d ≤ n then some .unreadable
      else some (.stated x.roundAbs)
    | _ => some .unreadable

/-- A subject: a text. No subject is an array or object. -/
def readSubject : Json → Option (Claim String)
  | .str s => some (.stated s)
  | .null => some .absent
  | .arr _ => none
  | .obj _ => none
  | _ => some .unreadable

/-- Names: a text or a list of texts. -/
def readNames : Json → Option (Claim (List String))
  | .str s => some (.stated [s])
  | .null => some .absent
  | .arr items => some <| match items.mapM Json.str? with
    | some names => .stated names
    | none => .unreadable
  | _ => some .unreadable

/-- The claims with a meaning. -/
structure Claims where
  expiry : Claim Nat
  notBefore : Claim Nat
  subject : Claim String
  issuers : Claim (List String)
  audience : Claim (List String)
  deriving DecidableEq, Repr

namespace Claims

/-- The names of the claims with a meaning, in order. -/
def names : List String := ["exp", "nbf", "sub", "iss", "aud"]

/-- Reads a claim that stands at most once. -/
def claimOf {α : Type} (read : Json → Option (Claim α)) (name : String)
    (members : List (String × Json)) : Option (Claim α) :=
  match Header.valuesOf name members with
  | [] => some .absent
  | [v] => read v
  | _ => none

/-- The claims of an object. -/
def ofMembers? (members : List (String × Json)) : Option Claims := do
  return {
    expiry := ← claimOf readTime "exp" members
    notBefore := ← claimOf readTime "nbf" members
    subject := ← claimOf readSubject "sub" members
    issuers := ← claimOf readNames "iss" members
    audience := ← claimOf readNames "aud" members }

/-- The claims of a payload: an object, or an array of the five in order. -/
def ofJson? : Json → Option Claims
  | .obj members => ofMembers? members
  | .arr items => if items.length = names.length then ofMembers? (names.zip items) else none
  | _ => none

/-- Whether a required claim is made. A claim without a meaning is never missed. -/
def makes (c : Claims) : String → Bool
  | "exp" => c.expiry.said?.isSome
  | "nbf" => c.notBefore.said?.isSome
  | "sub" => c.subject.said?.isSome
  | "iss" => c.issuers.said?.isSome
  | "aud" => c.audience.said?.isSome
  | _ => true

end Claims

/-- What a token must satisfy beside its signature. -/
structure Rules where
  /-- The algorithms that may sign. -/
  algorithms : List Algorithm := [.rs256]
  /-- The claims that must be made. -/
  required : List String := ["exp"]
  /-- By how many seconds clocks may differ. -/
  leeway : Nat := 60
  /-- How many seconds before it expires a token is refused already. -/
  margin : Nat := 0
  checksExpiry : Bool := true
  checksNotBefore : Bool := false
  checksAudience : Bool := true
  /-- The subject that a token with a subject must have. -/
  subject : Option String := none
  /-- The issuers of which a token with issuers must have one. -/
  issuers : Option (List String) := none
  /-- The audience of which a token with an audience must name one; if none is set, a token that
  names an audience is not meant for this reader. -/
  audience : Option (List String) := none
  deriving DecidableEq, Repr

namespace Rules

/-- Whether two lists have a member in common. -/
def meets (accepted names : List String) : Bool :=
  names.any accepted.contains

/-- The first required claim that is not made. -/
def checkRequired (r : Rules) (c : Claims) : Except Refusal Unit :=
  match r.required.find? fun name => !c.makes name with
  | some name => .error (.missingClaim name)
  | none => .ok ()

/-- The token has not expired. -/
def checkExpiry (r : Rules) (now : Nat) (c : Claims) : Except Refusal Unit :=
  if r.checksExpiry then
    match c.expiry with
    | .stated t => if t + r.leeway < now + r.margin then .error .expired else .ok ()
    | .unreadable => .error (.unreadableClaim "exp")
    | .absent => .ok ()
  else .ok ()

/-- The token is valid already. -/
def checkNotBefore (r : Rules) (now : Nat) (c : Claims) : Except Refusal Unit :=
  if r.checksNotBefore then
    match c.notBefore with
    | .stated t => if now + r.leeway < t then .error .notYetValid else .ok ()
    | .unreadable => .error (.unreadableClaim "nbf")
    | .absent => .ok ()
  else .ok ()

/-- The subject is the expected one. -/
def checkSubject (r : Rules) (c : Claims) : Except Refusal Unit :=
  match c.subject, r.subject with
  | .stated s, some expected => if s = expected then .ok () else .error .subject
  | _, _ => .ok ()

/-- One of the issuers is accepted. -/
def checkIssuers (r : Rules) (c : Claims) : Except Refusal Unit :=
  match c.issuers, r.issuers with
  | .stated names, some accepted => if meets accepted names then .ok () else .error .issuer
  | _, _ => .ok ()

/-- One of the audience is expected. -/
def checkAudience (r : Rules) (c : Claims) : Except Refusal Unit :=
  if r.checksAudience then
    match c.audience, r.audience with
    | .stated _, none => .error .audience
    | .stated names, some accepted => if meets accepted names then .ok () else .error .audience
    | _, _ => .ok ()
  else .ok ()

/-- Checks claims at a time in seconds; the first broken rule counts. -/
def check (r : Rules) (now : Nat) (c : Claims) : Except Refusal Unit := do
  r.checkRequired c
  r.checkExpiry now c
  r.checkNotBefore now c
  r.checkSubject c
  r.checkIssuers c
  r.checkAudience c

end Rules

end Keyring.Token
