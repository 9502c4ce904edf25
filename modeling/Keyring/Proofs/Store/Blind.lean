import Keyring.Store.Memory
import Keyring.Store.Postgres
import Keyring.Store.Redis
import Mathlib.Data.List.Basic

/-! # Stores that do not look into blobs

A store is blind if it stores and returns blobs and does nothing else with them: if all blobs that
are passed to it are replaced by others, equal ones by equal ones, it returns the others in their
place and answers as before otherwise. Such a store is empty at the start, for it returns nothing
that was not passed to it. All backends are blind, and in all of them a creation that loses changes
nothing.
-/

namespace Keyring.Store

/-! ## Replies -/

/-- The answer to some call. -/
inductive Reply
  | found (blob : Option Bytes)
  | created (accepted : Bool)
  | written
  | failed (e : Error)
  deriving DecidableEq

/-- The reply that the answer to a call is. -/
def Reply.ofAnswer : (c : Call) → Except Error c.Answer → Reply
  | .read _, .ok blob => .found blob
  | .create _ _ _, .ok accepted => .created accepted
  | .write _ _ _, .ok () => .written
  | _, .error e => .failed e

/-- The reply with another blob in place of the one that was found. -/
def Reply.map (f : Bytes → Bytes) : Reply → Reply
  | .found blob => .found (blob.map f)
  | .created accepted => .created accepted
  | .written => .written
  | .failed e => .failed e

/-- The call with another blob in place of its own. -/
def Call.map (f : Bytes → Bytes) : Call → Call
  | .read name => .read name
  | .create name blob ttl => .create name (f blob) ttl
  | .write name blob ttl => .write name (f blob) ttl

/-- The blob that is passed. -/
def Call.blob? : Call → Option Bytes
  | .read _ => none
  | .create _ blob _ => some blob
  | .write _ blob _ => some blob

variable {σ ι : Type} {f : Bytes → Bytes}

/-- Blobs that are replaced twice are replaced by what both do. -/
theorem Call.map_map (f g : Bytes → Bytes) (c : Call) : (c.map f).map g = c.map (g ∘ f) := by
  cases c <;> rfl

/-- The blob that is passed is the one that was replaced. -/
theorem Call.blob?_map (f : Bytes → Bytes) (c : Call) : (c.map f).blob? = c.blob?.map f := by
  cases c <;> rfl

/-- A call whose blob is put back in its place is the same call. -/
theorem Call.map_eq_self {c : Call} (h : ∀ blob ∈ c.blob?, f blob = blob) : c.map f = c := by
  cases c with
  | read name => rfl
  | create name blob ttl | write name blob ttl => rw [map, h blob rfl]

/-- How a store replies to a call at a time. -/
def Backend.reply (B : Backend σ) : Duration × Call → σ → Reply × σ
  | (now, c), s => (.ofAnswer c (B.call now c s).1, (B.call now c s).2)

/-- The replies to one request after the other, and the state after the last. -/
def serve (reply : ι → σ → Reply × σ) : List ι → σ → List Reply × σ
  | [], s => ([], s)
  | x :: xs, s =>
    ((reply x s).1 :: (serve reply xs (reply x s).2).1, (serve reply xs (reply x s).2).2)

/-- One more request is answered from the state after the others. -/
theorem serve_concat (reply : ι → σ → Reply × σ) (xs : List ι) (x : ι) (s : σ) :
    serve reply (xs ++ [x]) s =
      ((serve reply xs s).1 ++ [(reply x (serve reply xs s).2).1],
        (reply x (serve reply xs s).2).2) := by
  induction xs generalizing s with
  | nil => rfl
  | cons y xs ih => rw [List.cons_append, serve, ih, serve, List.cons_append]

/-! ## Blindness -/

/-- From this state on, the store does nothing with blobs but store and return them. -/
def Backend.Blind (B : Backend σ) (s : σ) : Prop :=
  ∀ (f : Bytes → Bytes) (calls : List (Duration × Call)),
    (serve B.reply (calls.map (Prod.map id (Call.map f))) s).1 = (serve B.reply calls s).1.map
      (Reply.map f)

namespace Backend

variable {B : Backend σ} {s : σ}

/-- A blind store returns only what was passed to it. Otherwise it would return another blob, too,
if all but those that were passed were replaced. -/
theorem Blind.mem_of_found (h : B.Blind s) {calls : List (Duration × Call)} {blob : Bytes}
    (hfound : .found (some blob) ∈ (serve B.reply calls s).1) :
    ∃ x ∈ calls, x.2.blob? = some blob := by
  classical
  by_contra hpassed
  let f : Bytes → Bytes :=
    fun other => if ∃ x ∈ calls, x.2.blob? = some other then other else 0 :: other
  have hcalls : calls.map (Prod.map id (Call.map f)) = calls := by
    have hcall : ∀ x ∈ calls, Prod.map id (Call.map f) x = id x := by
      intro x hx
      have hmap : x.2.map f = x.2 := Call.map_eq_self fun blob hblob => if_pos ⟨x, hx, hblob⟩
      rw [Prod.map, hmap]
      rfl
    rw [List.map_congr_left hcall, List.map_id]
  have hreplies := h f calls
  rw [hcalls] at hreplies
  have hsame : (serve B.reply calls s).1.map (Reply.map f) = (serve B.reply calls s).1.map id := by
    rw [← hreplies, List.map_id]
  have hfixed := List.map_inj_left.mp hsame _ hfound
  simp only [Reply.map, Option.map_some, id_eq, Reply.found.injEq, Option.some.injEq, f,
    if_neg hpassed] at hfixed
  exact List.cons_ne_self 0 blob hfixed

/-- A store is blind if it can do in its state what is done to the blobs that are passed. -/
theorem blind_of_rename (rename : (Bytes → Bytes) → σ → σ) (hstart : ∀ f, rename f s = s)
    (hreply : ∀ f now c s, B.reply (now, c.map f) (rename f s) =
      ((B.reply (now, c) s).1.map f, rename f (B.reply (now, c) s).2)) : B.Blind s := by
  intro f calls
  have hserve : ∀ s, (serve B.reply (calls.map (Prod.map id (Call.map f))) (rename f s)).1 =
      (serve B.reply calls s).1.map (Reply.map f) := by
    induction calls with
    | nil => intro s; rfl
    | cons x calls ih =>
        intro s
        obtain ⟨now, c⟩ := x
        rw [List.map_cons, Prod.map_apply, id, serve, hreply, ih, serve, List.map_cons]
  rw [← hserve, hstart]

/-- A creation that loses leaves what is stored as it was. -/
def LosesQuietly (B : Backend σ) : Prop :=
  ∀ now name blob ttl s s', B.call now (.create name blob ttl) s = (.ok false, s') →
    ∀ later other, (B.call later (.read other) s').1 = (B.call later (.read other) s).1

/-- It is enough that the state is the same. -/
theorem losesQuietly_of_eq
    (h : ∀ now name blob ttl s s', B.call now (.create name blob ttl) s = (.ok false, s') →
      s' = s) :
    B.LosesQuietly := by
  intro now name blob ttl s s' hcall later other
  rw [h now name blob ttl s s' hcall]

end Backend

/-! ## The backends -/

namespace Ledger

/-- The ledger with other blobs. -/
def rename (f : Bytes → Bytes) (l : Ledger) : Ledger :=
  ⟨l.entries.map fun (name, e) => (name, { e with blob := f e.blob })⟩

/-- Replacing the blobs of a ledger replaces what it shows. -/
theorem live?_rename (l : Ledger) (now : Duration) (name : String) :
    (l.rename f).live? now name = (l.live? now name).map f := by
  have hget : (l.rename f).get? name = (l.get? name).map fun e => { e with blob := f e.blob } := by
    rw [get?, get?, rename, List.find?_map, Option.map_map, Option.map_map]
    rfl
  rw [live?, hget, live?]
  cases l.get? name with
  | none => rfl
  | some e =>
      simp only [Option.map_some]
      split <;> rfl

/-- It makes no difference whether a blob is replaced before or after it is stored. -/
theorem store_rename (l : Ledger) (now : Duration) (name : String) (blob : Bytes) (ttl : Duration) :
    (l.rename f).store now name (f blob) ttl = (l.store now name blob ttl).rename f := by
  simp only [store, put, rename, List.map_cons, List.filter_map]
  rfl

/-- A ledger with other blobs replies with the other blob to a call with another blob. -/
theorem reply_rename (f : Bytes → Bytes) (now : Duration) (c : Call) (l : Ledger) :
    backend.reply (now, c.map f) (l.rename f) =
      ((backend.reply (now, c) l).1.map f, (backend.reply (now, c) l).2.rename f) := by
  cases c with
  | read name =>
      simp only [Backend.reply, backend, Call.map, call, Reply.ofAnswer, Reply.map, live?_rename]
  | create name blob ttl =>
      simp only [Backend.reply, backend, Call.map, call, live?_rename, Option.isSome_map,
        store_rename]
      split <;> rfl
  | write name blob ttl =>
      simp only [Backend.reply, backend, Call.map, call, Reply.ofAnswer, Reply.map, store_rename]

end Ledger

/-- The memory store is blind, whatever its bound. -/
theorem Memory.blind (maxSize : Nat) : Memory.backend.Blind { maxSize } := by
  apply Backend.blind_of_rename fun f m => { m with ledger := m.ledger.rename f }
  · intro f
    rfl
  · intro f now c m
    have hreply := Prod.mk.inj (Ledger.reply_rename f now c m.ledger)
    simp only [Backend.reply, Memory.backend, Memory.call]
    rw [Prod.mk.injEq]
    exact ⟨hreply.1, congrArg (Memory.mk · m.maxSize) hreply.2⟩

/-- A creation that loses leaves the ledger as it was. -/
theorem Memory.losesQuietly : Memory.backend.LosesQuietly := by
  apply Backend.losesQuietly_of_eq
  intro now name blob ttl m m' hcall
  simp only [backend, call, Ledger.call] at hcall
  split at hcall
  · exact (Prod.mk.inj hcall).2.symm
  · simp at hcall

namespace Postgres

/-- The table with other blobs. -/
def Table.rename (f : Bytes → Bytes) (table : Table) : Table :=
  ⟨table.rows.map fun row => { row with blob := f row.blob }⟩

/-- Replacing the blobs of a table replaces that of each row. -/
theorem Table.row?_rename (table : Table) (name : String) :
    (table.rename f).row? name =
      (table.row? name).map fun row => { row with blob := f row.blob } := by
  rw [row?, row?, rename, List.find?_map]
  rfl

/-- It makes no difference whether a blob is replaced before or after its row is put in. -/
theorem Table.upsert_rename (table : Table) (row : Row) :
    (table.rename f).upsert { row with blob := f row.blob } = (table.upsert row).rename f := by
  simp only [upsert, rename, List.map_cons, List.filter_map]
  rfl

/-- Replacing the blobs of a table replaces what is selected. -/
theorem Table.select_rename (table : Table) (name : String) (now : Int) :
    (table.rename f).select name now = (table.select name now).map f := by
  rw [select, select, row?_rename]
  cases table.row? name with
  | none => rfl
  | some row =>
      simp only [Option.map_some]
      split <;> rfl

/-- Whether a row is inserted does not depend on blobs. -/
theorem Table.insertIfExpired_rename (table : Table) (row : Row) (now : Int) :
    (table.rename f).insertIfExpired { row with blob := f row.blob } now =
      ((table.insertIfExpired row now).1, (table.insertIfExpired row now).2.rename f) := by
  rw [insertIfExpired, insertIfExpired, row?_rename, upsert_rename]
  cases table.row? row.name with
  | none => rfl
  | some row' =>
      simp only [Option.map_some]
      split <;> rfl

/-- A table with other blobs replies with the other blob to a call with another blob. -/
theorem reply_rename (p : Postgres) (f : Bytes → Bytes) (now : Duration) (c : Call)
    (table : Option Table) :
    p.backend.reply (now, c.map f) (table.map (Table.rename f)) =
      ((p.backend.reply (now, c) table).1.map f, (p.backend.reply (now, c) table).2.map
        (Table.rename f)) := by
  cases table with
  | none => cases c <;> rfl
  | some table =>
      cases c with
      | read name =>
          simp only [Backend.reply, backend, Call.map, Option.map_some, callTable, Reply.ofAnswer,
            Reply.map, Table.select_rename]
      | create name blob ttl =>
          have hinsert :=
            table.insertIfExpired_rename (f := f) ⟨p.key name, blob, (nowAndExpiry now ttl).2⟩
            (nowAndExpiry now ttl).1
          simp only [Backend.reply, backend, Call.map, Option.map_some, callTable, hinsert,
            Reply.ofAnswer, Reply.map]
      | write name blob ttl =>
          have hupsert := table.upsert_rename (f := f) ⟨p.key name, blob, (nowAndExpiry now ttl).2⟩
          simp only [Backend.reply, backend, Call.map, Option.map_some, callTable, hupsert,
            Reply.ofAnswer, Reply.map]

/-- The PostgreSQL store on an empty table is blind. -/
theorem blind (p : Postgres) : p.backend.Blind (some {}) :=
  Backend.blind_of_rename (fun f => Option.map (Table.rename f)) (fun _ => rfl) p.reply_rename

/-- A creation that loses leaves the table as it was. -/
theorem losesQuietly (p : Postgres) : p.backend.LosesQuietly := by
  apply Backend.losesQuietly_of_eq
  rintro now name blob ttl (_ | table) table' hcall
  · simp [backend] at hcall
  simp only [backend, callTable, Table.insertIfExpired] at hcall
  split at hcall
  · split at hcall
    · simp at hcall
    · exact (Prod.mk.inj hcall).2.symm
  · simp at hcall

end Postgres

namespace Redis

/-- The server with other blobs. -/
def Server.rename (f : Bytes → Bytes) (server : Server) : Server :=
  ⟨server.entries.map fun (key, blob, last) => (key, f blob, last)⟩

/-- Replacing the blobs of a server replaces what it answers. -/
theorem Server.get?_rename (server : Server) (now : Nat) (key : String) :
    (server.rename f).get? now key = (server.get? now key).map f := by
  have hfind : (server.rename f).entries.find? (·.1 = key) =
      (server.entries.find? (·.1 = key)).map fun (key, blob, last) => (key, f blob, last) := by
    rw [rename, List.find?_map]
    rfl
  cases hfound : server.entries.find? (·.1 = key) with
  | none =>
      rw [get?, get?, hfind, hfound]
      rfl
  | some entry =>
      rw [get?, get?, hfind, hfound]
      simp only [Option.map_some]
      split <;> rfl

/-- Whether a key is set does not depend on blobs. -/
theorem Server.set?_rename (server : Server) (now : Nat) (key : String) (blob : Bytes)
    (onlyAbsent : Bool) (lifetime : Nat) :
    (server.rename f).set? now key (f blob) onlyAbsent lifetime =
      (server.set? now key blob onlyAbsent lifetime).map fun (won, server) =>
        (won, server.rename f) := by
  rw [set?, set?, get?_rename, Option.isSome_map]
  split
  · rfl
  split
  · rfl
  · simp only [rename, Option.map_some, List.map_cons, List.filter_map]
    rfl

/-- A server with other blobs replies with the other blob to a call with another blob. -/
theorem reply_rename (r : Redis) (f : Bytes → Bytes) (now : Duration) (c : Call)
    (server : Option Server) :
    r.backend.reply (now, c.map f) (server.map (Server.rename f)) =
      ((r.backend.reply (now, c) server).1.map f, (r.backend.reply (now, c) server).2.map
        (Server.rename f)) := by
  cases server with
  | none => cases c <;> rfl
  | some server =>
      cases c with
      | read name =>
          simp only [Backend.reply, backend, Call.map, Option.map_some, callServer, Reply.ofAnswer,
            Reply.map, Server.get?_rename]
      | create name blob ttl =>
          simp only [Backend.reply, backend, Call.map, Option.map_some, callServer,
            Server.set?_rename]
          cases server.set? now.millis (r.key name) blob true (lifetime ttl) <;> rfl
      | write name blob ttl =>
          simp only [Backend.reply, backend, Call.map, Option.map_some, callServer,
            Server.set?_rename]
          cases server.set? now.millis (r.key name) blob false (lifetime ttl) <;> rfl

/-- The Redis store on an empty server is blind. -/
theorem blind (r : Redis) : r.backend.Blind (some {}) :=
  Backend.blind_of_rename (fun f => Option.map (Server.rename f)) (fun _ => rfl) r.reply_rename

/-- A creation that loses leaves the server as it was. -/
theorem losesQuietly (r : Redis) : r.backend.LosesQuietly := by
  apply Backend.losesQuietly_of_eq
  rintro now name blob ttl (_ | server) server' hcall
  · simp [backend] at hcall
  simp only [backend, callServer, Server.set?] at hcall
  split at hcall
  · next won server'' hset =>
      obtain ⟨hwon, rfl⟩ := Prod.mk.inj hcall
      obtain rfl := Except.ok.inj hwon
      split at hset
      · contradiction
      split at hset
      · rw [(Prod.mk.inj (Option.some.inj hset)).2]
      · simp at hset
  · simp at hcall

end Redis

end Keyring.Store
