import Keyring.Number.Decimal
import Keyring.Text.Blank
import Keyring.Text.Hex
import Keyring.Text.Percent

/-! # Locators

An address with a scheme: the scheme, an authority after two slashes, a path and a query. The
authority holds credentials, a host and a port. Control characters and spaces around an address and
line ends and tabs inside it are passed over.
-/

namespace Keyring.Text

/-- An address split into its parts. -/
structure Url where
  /-- The scheme in lower case. -/
  scheme : String
  /-- What follows two slashes, up to the path. -/
  authority : Option (List Char)
  path : List Char
  query : List Char
  deriving DecidableEq, Repr

/-- Who connects, and where to. -/
structure Authority where
  user : List Char
  password : Option (List Char)
  host : List Char
  port : Option Nat
  deriving DecidableEq, Repr

namespace Url

/-- Characters before the first one that satisfies `stop`, and the rest. -/
def before (stop : Char → Bool) (cs : List Char) : List Char × List Char :=
  (cs.takeWhile fun c => !stop c, cs.dropWhile fun c => !stop c)

/-- Whether a character is passed over at the ends of an address. -/
def isMargin (c : Char) : Bool := c.toNat ≤ 32

/-- Drops margins, tabs and line ends. -/
def clean (cs : List Char) : List Char :=
  let inner := ((cs.dropWhile isMargin).reverse.dropWhile isMargin).reverse
  inner.filter fun c => c ≠ '\t' ∧ c ≠ '\n' ∧ c ≠ '\r'

/-- Whether a character may stand in a scheme after its first letter. -/
def isSchemeChar (c : Char) : Bool := c.isAlphanum || c = '+' || c = '-' || c = '.'

/-- Splits an address. -/
def parse? (s : String) : Option Url := do
  let (scheme, rest) := before (· = ':') (clean s.toList)
  guard ((scheme.head?.any Char.isAlpha) && scheme.all isSchemeChar && !rest.isEmpty)
  let rest := (before (· = '#') (rest.drop 1)).1
  let (front, query) := before (· = '?') rest
  let (authority, path) := match front with
    | '/' :: '/' :: inner =>
      let (a, p) := before (· = '/') inner
      (some a, p)
    | _ => (none, front)
  return { scheme := String.ofList (scheme.map Char.toLower), authority, path,
           query := query.drop 1 }

/-- The fields of a query by name. -/
def fields (u : Url) : List (String × String) :=
  (splitAtChar '&' u.query).filterMap fun piece => do
    let (name, value) := before (· = '=') piece
    return (← decodeField name, ← decodeField (value.drop 1))
where
  /-- A plus sign stands for a space. -/
  decodeField (cs : List Char) : Option String :=
    Percent.decode? (cs.map fun c => if c = '+' then ' ' else c)

/-- The value of a field, the last one if it is repeated. -/
def field? (u : Url) (name : String) : Option String :=
  (u.fields.reverse.find? (·.1 = name)).map (·.2)

end Url

namespace Authority

/-- Whether a group of an address of version 6 is one to four hexadecimal digits. -/
def isGroup (cs : List Char) : Bool :=
  1 ≤ cs.length && cs.length ≤ 4 && cs.all Hex.isDigit

/-- Whether a text is an address of version 4: four numbers below 256 without leading zeros. -/
def isVersion4 (cs : List Char) : Bool :=
  let parts := splitAtChar '.' cs
  parts.length = 4 && parts.all fun p =>
    (Decimal.digits? p).any (· < 256) && (p.length = 1 || p.head? ≠ some '0')

/-- How many groups a list of groups makes, an address of version 4 at its end counting for two. -/
def countGroups : List (List Char) → Option Nat
  | [] => some 0
  | [last] => if isGroup last then some 1 else if isVersion4 last then some 2 else none
  | g :: rest => if isGroup g then (countGroups rest).map (· + 1) else none

/-- The groups between colons; no groups at all in an empty text. -/
def groups (cs : List Char) : List (List Char) :=
  if cs.isEmpty then [] else splitAtChar ':' cs

/-- Cuts at the first double colon. -/
def cutElision : List Char → Option (List Char × List Char)
  | ':' :: ':' :: rest => some ([], rest)
  | c :: rest => (cutElision rest).map fun (front, back) => (c :: front, back)
  | [] => none

/-- Whether a text is an address of version 6: eight groups, or fewer around one double colon. -/
def isVersion6 (cs : List Char) : Bool :=
  match cutElision cs with
  | none => countGroups (groups cs) = some 8
  | some (front, back) =>
    (groups front).all isGroup &&
      (countGroups (groups back)).any fun n => (groups front).length + n ≤ 7

/-- Characters that no host name holds. -/
def isForbidden (c : Char) : Bool :=
  c.toNat = 0 || " #/:<>?@[\\]^|".contains c

/-- Splits a host from what follows it: a colon outside brackets ends it. -/
def splitHost : List Char → List Char × List Char
  | '[' :: rest =>
    let (inner, back) := Url.before (· = ']') rest
    match back with
    | ']' :: more =>
      let (tail, port) := Url.before (· = ':') more
      ('[' :: inner ++ ']' :: tail, port)
    | _ => ('[' :: inner, [])
  | cs => Url.before (· = ':') cs

/-- A host name or bracketed address. -/
def host? (cs : List Char) : Option (List Char) :=
  match cs with
  | '[' :: rest =>
    if rest.getLast? = some ']' && isVersion6 rest.dropLast then some rest.dropLast else none
  | [] => none
  | cs => if cs.any isForbidden then none else some cs

/-- A port: decimal digits below 2^16 without a sign, or nothing after the colon. -/
def port? : List Char → Option (Option Nat)
  | [] => some none
  | [':'] => some none
  | ':' :: ds => do
    let n ← Decimal.digits? ds
    if n < 0x1_0000 then some (some n) else none
  | _ => none

/-- Reads an authority. -/
def parse? (cs : List Char) : Option Authority := do
  let back := cs.reverse
  let (credentials, place) := match back.dropWhile (· ≠ '@') with
    | [] => ([], cs)
    | _ :: front => (front.reverse, (back.takeWhile (· ≠ '@')).reverse)
  let (user, password) := Url.before (· = ':') credentials
  let (host, port) := splitHost place
  return { user, password := if password.isEmpty then none else some (password.drop 1)
           host := ← host? host, port := ← port? port }

end Authority

end Keyring.Text
