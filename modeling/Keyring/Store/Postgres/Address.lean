import Keyring.Text.Url

/-! # Addresses of PostgreSQL servers

An address is a list of settings, written as words `name=value` or as a locator. In words a value
may stand between single quotes, a backslash takes the next character as it is, and a word that
starts with an equals sign ends the list. Every setting has a name and a range of values of its own.
-/

namespace Keyring.Store.Postgres

open Text (Url Percent.decode?)

/-- How to reach a database: settings in the order in which they are given. -/
structure Address where
  settings : List (String × String)
  deriving DecidableEq, Repr

namespace Address

/-! ## Settings -/

/-- Settings that hold any text. -/
def textSettings : List String :=
  ["user", "password", "dbname", "options", "application_name", "host"]

/-- Settings that hold one of a few words. -/
def wordSettings : List (String × List String) :=
  [("sslmode", ["disable", "prefer", "require"]), ("sslnegotiation", ["postgres", "direct"]),
   ("target_session_attrs", ["any", "read-write", "read-only"]),
   ("channel_binding", ["disable", "prefer", "require"]),
   ("load_balance_hosts", ["disable", "random"])]

/-- Settings that hold a signed number of 64 bits. -/
def numberSettings : List String :=
  ["connect_timeout", "tcp_user_timeout", "keepalives_idle", "keepalives_interval"]

/-- A port of one host; an empty one is the usual port. -/
def isPort (cs : List Char) : Bool :=
  cs.isEmpty || (Decimal.unsigned? 0x1_0000 cs).isSome

/-- Whether a text is a numeric address of a host. -/
def isHostAddress (cs : List Char) : Bool :=
  Text.Authority.isVersion4 cs || Text.Authority.isVersion6 cs

/-- Whether a setting exists and takes the value. -/
def accepts (name value : String) : Bool :=
  if textSettings.contains name then true
  else match wordSettings.lookup name with
    | some words => words.contains value
    | none =>
      let cs := value.toList
      if numberSettings.contains name then (Decimal.signed? 0x8000_0000_0000_0000 cs).isSome
      else match name with
        | "port" => (Text.splitAtChar ',' cs).all isPort
        | "hostaddr" => (Text.splitAtChar ',' cs).all isHostAddress
        | "keepalives" => (Decimal.unsigned? 0x1_0000_0000_0000_0000 cs).isSome
        | "keepalives_retries" => (Decimal.unsigned? 0x1_0000_0000 cs).isSome
        | _ => false

/-- A setting, if it is accepted. -/
def setting? (name value : String) : Option (String × String) :=
  if accepts name value then some (name, value) else none

/-! ## Words -/

/-- Reads up to a character that `stop`s outside an escape. -/
def escaped (stop : Char → Bool) : List Char → List Char × List Char
  | [] => ([], [])
  | '\\' :: [] => ([], [])
  | '\\' :: c :: rest =>
    let (value, rest) := escaped stop rest
    (c :: value, rest)
  | c :: rest =>
    if stop c then ([], c :: rest)
    else
      let (value, rest) := escaped stop rest
      (c :: value, rest)

/-- Reads the value of a word. -/
def value? (cs : List Char) : Option (List Char × List Char) :=
  match cs with
  | '\x27' :: rest =>
    match escaped (· = '\x27') rest with
    | (value, _ :: rest) => some (value, rest)
    | _ => none
  | _ =>
    let (value, rest) := escaped Text.isBlank cs
    if value.isEmpty then none else some (value, rest)

/-- Reads words; the fuel bounds their number. -/
def words? : (fuel : Nat) → List Char → Option (List (String × String))
  | 0, _ => none
  | fuel + 1, cs =>
    let (name, rest) := Url.before (fun c => Text.isBlank c || c = '=') (cs.dropWhile Text.isBlank)
    if name.isEmpty then some []
    else
      match rest.dropWhile Text.isBlank with
      | '=' :: rest => do
        let (value, rest) ← value? (rest.dropWhile Text.isBlank)
        let s ← setting? (String.ofList name) (String.ofList value)
        return s :: (← words? fuel rest)
      | _ => none

/-! ## Locators -/

/-- The schemes of locators. -/
def schemes : List String := ["postgres://", "postgresql://"]

/-- What follows a scheme. -/
def afterScheme? (cs : List Char) : Option (List Char) :=
  schemes.findSome? fun s => if s.toList.isPrefixOf cs then some (cs.drop s.length) else none

/-- The user and password before the first at sign, and what follows it. -/
def credentials? (cs : List Char) : Option (List (String × String) × List Char) :=
  match Url.before (· = '@') cs with
  | (_, []) => some ([], cs)
  | (front, _ :: rest) => do
    let (user, password) := Url.before (· = ':') front
    let user ← Percent.decode? user
    return (("user", user) :: (if password.isEmpty then []
      else [("password", (Percent.decode? (password.drop 1)).getD "")]), rest)

/-- One host, whose port follows a colon. -/
def host? (cs : List Char) : Option (List (String × String)) := do
  let (host, port) ← match cs with
    | '[' :: rest =>
      match Url.before (· = ']') rest with
      | (host, [_]) => some (host, none)
      | (host, _ :: ':' :: port) => some (host, some port)
      | _ => none
    | _ =>
      let (host, port) := Url.before (· = ':') cs
      some (host, if port.isEmpty then none else some (port.drop 1))
  let name ← Percent.decode? host
  let port ← Percent.decode? (port.getD "5432".toList)
  return [("host", name), ← setting? "port" port]

/-- The fields of a query; the fuel bounds their number. -/
def fields? : (fuel : Nat) → List Char → Option (List (String × String))
  | 0, _ => none
  | fuel + 1, cs =>
    if cs.isEmpty then some []
    else match Url.before (· = '=') cs with
      | (_, []) => none
      | (name, _ :: rest) => do
        let (value, rest) := Url.before (· = '&') rest
        let s ← setting? (← Percent.decode? name) (← Percent.decode? value)
        return s :: (← fields? fuel (rest.drop 1))

/-- Reads a locator after its scheme. -/
def locator? (cs : List Char) : Option (List (String × String)) := do
  let (credentials, cs) ← credentials? cs
  let (hosts, cs) := Url.before (fun c => c = '/' || c = '?') cs
  let hosts ← if hosts.isEmpty then some [] else (Text.splitAtChar ',' hosts).mapM host?
  let (database, cs) := match cs with
    | '/' :: rest => Url.before (· = '?') rest
    | _ => ([], cs)
  let database ← if database.isEmpty then some []
    else (Percent.decode? database).map fun name => [("dbname", name)]
  return credentials ++ hosts.flatten ++ database ++ (← fields? (cs.length + 1) (cs.drop 1))

/-- Reads an address. -/
def parse? (s : String) : Option Address :=
  let cs := s.toList
  match afterScheme? cs with
  | some rest => (locator? rest).map Address.mk
  | none => (words? (cs.length + 1) cs).map Address.mk

end Address

end Keyring.Store.Postgres
