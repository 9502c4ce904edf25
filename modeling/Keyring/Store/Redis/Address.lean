import Keyring.Text.Url

/-! # Addresses of Redis servers

A server is reached over the network or through a socket of the machine. The path of a network
address, or the field `db` of a socket's, is the number of a database, and the field `protocol` asks
for a version of the protocol. Encrypted connections are not offered.
-/

namespace Keyring.Store.Redis

open Text (Url Authority)

/-- Where a server listens. -/
inductive Endpoint
  | network (host : String) (port : Nat)
  | socket (path : String)
  deriving DecidableEq, Repr

/-- How to reach a database. -/
structure Address where
  endpoint : Endpoint
  database : Int
  user : Option String
  password : Option String
  deriving DecidableEq, Repr

namespace Address

/-- The port of servers that name none. -/
def defaultPort : Nat := 6379

/-- The schemes of network addresses. -/
def networkSchemes : List String := ["redis", "valkey"]

/-- The schemes of sockets. -/
def socketSchemes : List String := ["unix", "redis+unix", "valkey+unix"]

/-- Drops slashes at both ends. -/
def trimSlashes (cs : List Char) : List Char :=
  ((cs.dropWhile (· = '/')).reverse.dropWhile (· = '/')).reverse

/-- A database number of 64 bits; an empty one is zero. -/
def database? (cs : List Char) : Option Int :=
  if cs.isEmpty then some 0 else Decimal.signed? 0x8000_0000_0000_0000 cs

/-- Whether the field `protocol` is absent or names a known version. -/
def protocolKnown (u : Url) : Bool :=
  match u.field? "protocol" with
  | none => true
  | some p => ["2", "resp2", "3", "resp3"].contains p

/-- An optional text that may be percent-encoded; an empty one is absent. -/
def decodeOptional (cs : List Char) : Option (Option String) :=
  if cs.isEmpty then some none else (Text.Percent.decode? cs).map some

/-- The address of a network locator. -/
def ofNetwork? (u : Url) : Option Address := do
  let a ← Authority.parse? (← u.authority)
  let database ← database? (trimSlashes u.path)
  guard (protocolKnown u)
  return { endpoint := .network (String.ofList a.host) (a.port.getD defaultPort), database
           user := ← decodeOptional a.user, password := ← decodeOptional (a.password.getD []) }

/-- The address of a socket's locator, whose path is absolute. -/
def ofSocket? (u : Url) : Option Address := do
  guard ((u.authority.getD []).isEmpty || u.authority = some "localhost".toList)
  guard (u.path.head? = some '/' && protocolKnown u)
  let database ← database? ((u.field? "db").getD "").toList
  return { endpoint := .socket (← Text.Percent.decode? u.path), database
           user := u.field? "user", password := u.field? "pass" }

/-- Reads an address. -/
def parse? (s : String) : Option Address := do
  let u ← Url.parse? s
  if networkSchemes.contains u.scheme then ofNetwork? u
  else if socketSchemes.contains u.scheme then ofSocket? u
  else none

end Address

end Keyring.Store.Redis
