import Keyring.Json.Printer
import Keyring.Json.Reader

/-! # Token headers

The header of a signed token names the algorithm of its signature and the key that verifies it. A
header is read from a JSON object. Members with a meaning of their own stand at most once and have
the type of their meaning, or are null; any other member holds a text.
-/

namespace Keyring.Token

/-- A signature algorithm. -/
inductive Algorithm
  | hs256
  | hs384
  | hs512
  | es256
  | es384
  | rs256
  | rs384
  | rs512
  | ps256
  | ps384
  | ps512
  | edDsa
  deriving DecidableEq, Repr

namespace Algorithm

/-- All algorithms. -/
def all : List Algorithm :=
  [hs256, hs384, hs512, es256, es384, rs256, rs384, rs512, ps256, ps384, ps512, edDsa]

/-- The registered name of an algorithm. -/
def name : Algorithm → String
  | hs256 => "HS256"
  | hs384 => "HS384"
  | hs512 => "HS512"
  | es256 => "ES256"
  | es384 => "ES384"
  | rs256 => "RS256"
  | rs384 => "RS384"
  | rs512 => "RS512"
  | ps256 => "PS256"
  | ps384 => "PS384"
  | ps512 => "PS512"
  | edDsa => "EdDSA"

/-- The algorithm of a name; case matters. -/
def ofName? (s : String) : Option Algorithm :=
  all.find? (·.name = s)

theorem ofName?_name (a : Algorithm) : ofName? a.name = some a := by
  cases a <;> decide

end Algorithm

/-- What a header says about the signature. -/
structure Header where
  algorithm : Algorithm
  keyId : Option String
  deriving DecidableEq, Repr

namespace Header

/-- Members that hold a text. -/
def textMembers : List String :=
  ["typ", "cty", "jku", "kid", "x5u", "x5t", "x5t#S256", "enc", "zip", "url", "nonce"]

/-- Members that hold a list of texts. -/
def listMembers : List String := ["x5c", "crit"]

/-- The values of the members with one name. -/
def valuesOf (name : String) (members : List (String × Json)) : List Json :=
  (members.filter (·.1 = name)).map (·.2)

/-- Whether a value is a list of texts. -/
def isTextList : Json → Bool
  | .arr items => items.all fun i => i.str?.isSome
  | _ => false

/-- Whether members stand at most once and satisfy `ok` unless they are null. -/
def optional (ok : Json → Bool) (names : List String) (members : List (String × Json)) : Bool :=
  names.all fun name =>
    match valuesOf name members with
    | [] => true
    | [v] => v == .null || ok v
    | _ => false

/-- Whether members stand exactly once and hold a text. -/
def required (names : List String) (members : List (String × Json)) : Bool :=
  names.all fun name =>
    match valuesOf name members with
    | [.str _] => true
    | _ => false

/-- The elliptic curves of keys. -/
def curves : List String := ["P-256", "P-384", "P-521", "Ed25519"]

/-- Whether the members with one name are a single curve name. -/
def namesCurve (members : List (String × Json)) : Bool :=
  match valuesOf "crv" members with
  | [.str c] => curves.contains c
  | _ => false

/-- Whether a value describes a key: by its type, it has the numbers of that type. -/
def describesKey : Json → Bool
  | .obj members =>
    optional (·.str?.isSome) ["use", "alg", "kid", "x5u", "x5t", "x5t#S256"] members
      && optional isTextList ["key_ops", "x5c"] members
      && match valuesOf "kty" members with
        | [.str "RSA"] => required ["n", "e"] members
        | [.str "EC"] => required ["x", "y"] members && namesCurve members
        | [.str "OKP"] => required ["x"] members && namesCurve members
        | [.str "oct"] => required ["k"] members
        | _ => false
  | _ => false

/-- Members that are neither of these hold texts. -/
def isKnown (name : String) : Bool :=
  textMembers.contains name || listMembers.contains name || name == "jwk" || name == "alg"

/-- The header of a JSON value. -/
def ofJson? : Json → Option Header
  | .obj members => do
    let wellFormed := optional (·.str?.isSome) textMembers members
      && optional isTextList listMembers members
      && optional describesKey ["jwk"] members
      && members.all fun m => isKnown m.1 || m.2.str?.isSome
    if !wellFormed then failure
    match valuesOf "alg" members with
    | [.str a] => return ⟨← Algorithm.ofName? a, (Json.obj members).member? "kid" >>= Json.str?⟩
    | _ => failure
  | _ => none

/-- The JSON text of a header. -/
def render (h : Header) : String :=
  Json.render <| .obj <|
    [("typ", .str "JWT"), ("alg", .str h.algorithm.name)] ++
      h.keyId.toList.map fun k => ("kid", .str k)

end Header

end Keyring.Token
