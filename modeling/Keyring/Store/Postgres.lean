import Keyring.Store.Basic
import Keyring.Store.Postgres.Address
import Keyring.Text.Quoted

/-! # The PostgreSQL store

A store in one table of a database, whose rows hold a name, a blob and the time of expiry in Unix
milliseconds. The database runs each statement in one piece. A creation inserts a row or takes over
an expired one, so the primary key decides every race; a read passes over expired rows.

The database refuses texts with a NUL character, and with them every statement on such a name. Names
of that kind are outside this model, whose table takes any name. The names of buckets' blobs have no
NUL unless the space of names has one.
-/

namespace Keyring.Store

/-! ## The table -/

/-- A row of the table. -/
structure Postgres.Row where
  name : String
  blob : Bytes
  expiresAt : Int
  deriving DecidableEq

/-- The table of blobs, at most one row to a name. -/
structure Postgres.Table where
  rows : List Postgres.Row := []
  deriving DecidableEq

namespace Postgres.Table

/-- The row of a name. -/
def row? (t : Table) (name : String) : Option Row :=
  t.rows.find? (·.name = name)

/-- Puts a row in place of any other of its name. -/
def upsert (t : Table) (row : Row) : Table :=
  ⟨row :: t.rows.filter (·.name ≠ row.name)⟩

/-- `SELECT blob … WHERE name = $1 AND expires_at > $2`. -/
def select (t : Table) (name : String) (now : Int) : Option Bytes :=
  match t.row? name with
  | some r => if now < r.expiresAt then some r.blob else none
  | none => none

/-- `INSERT … ON CONFLICT DO UPDATE … WHERE expires_at <= $4`: how many rows were written. -/
def insertIfExpired (t : Table) (row : Row) (now : Int) : Nat × Table :=
  match t.row? row.name with
  | some r => if r.expiresAt ≤ now then (1, t.upsert row) else (0, t)
  | none => (1, t.upsert row)

end Postgres.Table

/-! ## The client -/

/-- A client of a PostgreSQL database. -/
structure Postgres where
  address : Postgres.Address
  /-- The greatest number of connections, at least one. -/
  poolSize : Nat
  /-- What every name starts with. -/
  spaceName : Option String := none
  deriving DecidableEq

namespace Postgres

/-- The registered name of the backend. -/
def providerName : String := "postgres"

/-- How long a call waits for a connection. -/
def connectionTimeout : Duration := .ofSeconds 10

/-- How many connections a pool holds unless that is configured. -/
def defaultPoolSize : Nat := 4

/-- A client of an address. -/
def connect (address : String) (poolSize : Nat) (spaceName : String) : Except Error Postgres :=
  match Address.parse? address with
  | some a => .ok ⟨a, max poolSize 1, spaceOf spaceName⟩
  | none => .error (.wrapping .storage "Invalid PostgreSQL URL" .unstated)

/-- The name of a row. -/
def key (p : Postgres) (name : String) : String := qualify p.spaceName name

/-- A time in Unix milliseconds, at most the greatest number of 64 bits. -/
def unixMillis (t : Duration) : Int := min t.millis (0x7fff_ffff_ffff_ffff : Nat)

/-- The time now and the time of expiry, both in Unix milliseconds. -/
def nowAndExpiry (now ttl : Duration) : Int × Int :=
  (unixMillis now, unixMillis (now + ttl))

/-- How the store answers over a connection. -/
def callTable (p : Postgres) (now : Duration) : (c : Call) → Table → Except Error c.Answer × Table
  | .read name, t => (.ok (t.select (p.key name) (nowAndExpiry now .zero).1), t)
  | .create name blob ttl, t =>
    let (nowMillis, expiry) := nowAndExpiry now ttl
    let (written, t) := t.insertIfExpired ⟨p.key name, blob, expiry⟩ nowMillis
    (.ok (written == 1), t)
  | .write name blob ttl, t =>
    (.ok (), t.upsert ⟨p.key name, blob, (nowAndExpiry now ttl).2⟩)

/-- The failure of a call that gets no connection. -/
def unreachable : Error := .wrapping .storage "Failed to get PostgreSQL connection" .unstated

/-- The store on a table, or on a database that cannot be reached. -/
def backend (p : Postgres) : Backend (Option Table) where
  call now c := fun
    | some t => let (answer, t) := p.callTable now c t; (answer, some t)
    | none => (.error unreachable, none)

/-- The text of a client in diagnostics, which does not show the address. Connections are opened by
the first call. -/
def debug (p : Postgres) (connections idle : Nat := 0) : String :=
  Text.Quoted.showRecord "PostgresBlobStore"
    [("namespace", Text.Quoted.showOption (p.spaceName.map Text.Quoted.quote)),
     ("connections", toString connections), ("idle_connections", toString idle)]

end Postgres

end Keyring.Store
