import Keyring.Config.Settings
import Keyring.Store.Memory
import Keyring.Store.Postgres
import Keyring.Store.Redis

/-! # The registry of backends

Backends are registered under names. The settings of a store name one, and opening the store takes
from the settings what that backend needs. No connection is made before the first call.
-/

namespace Keyring.Store

/-- A registered backend. -/
inductive Provider
  | memory
  | redis
  | postgres
  deriving DecidableEq, Repr

namespace Provider

/-- All backends by name. -/
def all : List Provider := [memory, postgres, redis]

/-- The name a backend is registered under. -/
def name : Provider → String
  | memory => Memory.providerName
  | redis => Redis.providerName
  | postgres => Postgres.providerName

/-- What a backend is. -/
def description : Provider → String
  | memory => "Moka in-memory blob store (single process only)"
  | redis => "Redis shared blob store (SET NX PX)"
  | postgres => "PostgreSQL shared blob store (INSERT ... ON CONFLICT)"

/-- The backend of a name; case matters. -/
def ofName? (s : String) : Option Provider :=
  all.find? (·.name = s)

theorem ofName?_name (p : Provider) : ofName? p.name = some p := by
  cases p <;> decide

end Provider

/-- A store as opened from settings. -/
inductive Opened
  | memory (m : Memory)
  | redis (client : Redis) (server : Option Redis.Server)
  | postgres (client : Postgres) (table : Option Postgres.Table)
  deriving DecidableEq

namespace Opened

/-- The backend of a store. -/
def provider : Opened → Provider
  | memory _ => .memory
  | redis _ _ => .redis
  | postgres _ _ => .postgres

/-- The text of a store in diagnostics. -/
def debug : Opened → String
  | memory m => m.debug
  | redis r _ => r.debug
  | postgres p _ => p.debug

/-- How an opened store answers. -/
def call (now : Duration) (c : Call) : Opened → Except Error c.Answer × Opened
  | memory m => let (answer, m) := Memory.call now c m; (answer, memory m)
  | redis r s => let (answer, s) := r.backend.call now c s; (answer, redis r s)
  | postgres p t => let (answer, t) := p.backend.call now c t; (answer, postgres p t)

/-- An opened store as a store. -/
def backend : Backend Opened := ⟨call⟩

end Opened

/-- The text for a name under which nothing is registered. -/
def unknownProvider (name : String) : String :=
  s!"Unknown blob store provider '{name}'. Available providers: " ++
    Text.Quoted.showList (Provider.all.map fun p => Text.Quoted.quote p.name)

/-- Opens the store that settings ask for; what it cannot reach it finds out later. -/
def openStore (s : StoreSettings) : Except String Opened :=
  match Provider.ofName? s.provider with
  | none => .error (unknownProvider s.provider)
  | some .memory => .ok (.memory (match s.maxSize with
    | some n => { maxSize := n }
    | none => {}))
  | some .redis =>
    match s.uri with
    | none => .error "Redis blob store requires a uri"
    | some uri => match Redis.connect uri (s.spaceName.getD "") with
      | .ok client => .ok (.redis client none)
      | .error e => .error e.message
  | some .postgres =>
    match s.uri with
    | none => .error "PostgreSQL blob store requires a uri"
    | some uri =>
      match Postgres.connect uri (s.poolSize.getD Postgres.defaultPoolSize)
        (s.spaceName.getD "") with
      | .ok client => .ok (.postgres client none)
      | .error e => .error e.message

end Keyring.Store
