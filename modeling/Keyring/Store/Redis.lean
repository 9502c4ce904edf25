import Keyring.Store.Basic
import Keyring.Store.Redis.Address
import Keyring.Text.Quoted

/-! # The Redis store

A store on a Redis server. A read is `GET`, a creation is `SET` with the options `NX` and `PX`, and
a write is `SET` with `PX`; the server runs each command at once and in one piece. Lifetimes count
in whole milliseconds, at least one, and the server refuses those that leave its 64-bit range.
-/

namespace Keyring.Store

/-! ## The server -/

/-- What a Redis server keeps: values by key, with the last millisecond at which they are there. -/
structure Redis.Server where
  entries : List (String × Bytes × Nat) := []
  deriving DecidableEq

namespace Redis.Server

/-- The greatest number that the server computes with. -/
def maxNumber : Nat := 0x7fff_ffff_ffff_ffff

/-- `GET key` at a time in milliseconds. -/
def get? (s : Server) (now : Nat) (key : String) : Option Bytes :=
  match s.entries.find? (·.1 = key) with
  | some (_, blob, last) => if now ≤ last then some blob else none
  | none => none

/-- Whether the server takes a lifetime in milliseconds at a time. -/
def accepts (now lifetime : Nat) : Bool :=
  1 ≤ lifetime && lifetime ≤ maxNumber && now + lifetime ≤ maxNumber

/-- `SET key blob PX lifetime`, with `NX` if `onlyAbsent`: whether the value was set, or `none` for
a lifetime that is refused. -/
def set? (s : Server) (now : Nat) (key : String) (blob : Bytes) (onlyAbsent : Bool)
    (lifetime : Nat) : Option (Bool × Server) :=
  if !accepts now lifetime then none
  else if onlyAbsent && (s.get? now key).isSome then some (false, s)
  else
    some (true, ⟨(key, blob, now + lifetime) :: s.entries.filter (·.1 ≠ key)⟩)

end Redis.Server

/-! ## The client -/

/-- A client of a Redis server. -/
structure Redis where
  address : Redis.Address
  /-- What every key starts with. -/
  spaceName : Option String := none
  deriving DecidableEq

namespace Redis

/-- The registered name of the backend. -/
def providerName : String := "redis"

/-- A client of an address. -/
def connect (address spaceName : String) : Except Error Redis :=
  match Address.parse? address with
  | some a => .ok ⟨a, spaceOf spaceName⟩
  | none => .error (.wrapping .storage "Failed to create Redis client" .unstated)

/-- The key of a blob. -/
def key (r : Redis) (name : String) : String := qualify r.spaceName name

/-- The lifetime that is asked for: whole milliseconds of 64 bits, at least one. -/
def lifetime (ttl : Duration) : Nat := max (min ttl.millis 0xffff_ffff_ffff_ffff) 1

/-- The failure of a call. -/
def failure (what : String) : Error := .wrapping .storage what .unstated

/-- How the store answers over a connection. -/
def callServer (r : Redis) (now : Duration) :
    (c : Call) → Server → Except Error c.Answer × Server
  | .read name, s => (.ok (s.get? now.millis (r.key name)), s)
  | .create name blob ttl, s =>
    match s.set? now.millis (r.key name) blob true (lifetime ttl) with
    | some (won, s) => (.ok won, s)
    | none => (.error (failure "Redis SET NX failed"), s)
  | .write name blob ttl, s =>
    match s.set? now.millis (r.key name) blob false (lifetime ttl) with
    | some (_, s) => (.ok (), s)
    | none => (.error (failure "Redis SET failed"), s)

/-- The store on a server, or on none that can be reached. -/
def backend (r : Redis) : Backend (Option Server) where
  call now c := fun
    | some s => let (answer, s) := r.callServer now c s; (answer, some s)
    | none => (.error (failure "Failed to get Redis connection"), none)

/-- The text of a client in diagnostics, which does not show the address. -/
def debug (r : Redis) : String :=
  Text.Quoted.showOpenRecord "RedisBlobStore"
    [("namespace", Text.Quoted.showOption (r.spaceName.map Text.Quoted.quote))]

end Redis

end Keyring.Store
