import Keyring.Proofs.Bucket
import Keyring.Proofs.SealedBlob
import Keyring.Store.Memory
import Keyring.Store.Postgres
import Keyring.Store.Redis
import Keyring.Store.Sealed

/-! # Lifetimes that backends take

The lifetime of a stored key reaches each backend in units of its own. PostgreSQL gets the time of
expiry, cut off at the greatest signed number of 64 bits. Redis gets a number of milliseconds that
is cut off at the greatest unsigned one, but the server computes with signed numbers: it refuses
what lies beyond them, so the longest lifetimes of all.
-/

namespace Keyring.Store

variable {σ : Type} {now ttl ttl' : Duration}

/-! ## Creations -/

namespace Backend

variable {B : Backend σ} {name : String} {blob : Bytes} {s : σ} {live : Bool}

/-- The creation is answered by whether the name has a live blob. If it has one, the creation is
lost and leaves the store as it was. -/
def Creates (B : Backend σ) (now ttl : Duration) (name : String) (blob : Bytes) (s : σ)
    (live : Bool) : Prop :=
  (B.call now (.create name blob ttl) s).1 = .ok !live ∧
    (live → (B.call now (.create name blob ttl) s).2 = s)

/-- The answers to creations at a time carry over from one lifetime to another: wherever a
creation with `ttl` is answered, one with `ttl'` has the same answer, and if it is lost it
leaves the same. -/
def CarriesOver (B : Backend σ) (now ttl ttl' : Duration) : Prop :=
  ∀ name blob s (won : Bool), (B.call now (.create name blob ttl) s).1 = .ok won →
    (B.call now (.create name blob ttl') s).1 = .ok won ∧
      (won = false →
        (B.call now (.create name blob ttl') s).2 = (B.call now (.create name blob ttl) s).2)

/-- Creations that are answered by the same blob are answered alike. -/
theorem Creates.carriesOver (h : B.Creates now ttl name blob s live)
    (h' : B.Creates now ttl' name blob s live) {won : Bool}
    (hanswer : (B.call now (.create name blob ttl) s).1 = .ok won) :
    (B.call now (.create name blob ttl') s).1 = .ok won ∧
      (won = false →
        (B.call now (.create name blob ttl') s).2 = (B.call now (.create name blob ttl) s).2) := by
  rw [h.1] at hanswer
  refine ⟨h'.1.trans hanswer, ?_⟩
  rintro rfl
  have hlive : live = true := by simpa using hanswer
  rw [h.2 hlive, h'.2 hlive]

end Backend

/-! ### The memory store -/

namespace Memory

/-- A creation in memory is answered by whether the name has a live blob. -/
theorem creates (m : Memory) (name : String) (blob : Bytes) :
    backend.Creates now ttl name blob m (m.ledger.live? now name).isSome := by
  simp only [Backend.Creates, backend, call, Ledger.call]
  cases (m.ledger.live? now name).isSome with
  | true => exact ⟨rfl, fun _ => rfl⟩
  | false => exact ⟨rfl, fun hlive => by contradiction⟩

/-- In memory, answers to creations carry over to every lifetime. -/
theorem carriesOver (now ttl ttl' : Duration) : backend.CarriesOver now ttl ttl' :=
  fun name blob m _ hanswer =>
  (m.creates name blob).carriesOver (m.creates name blob) hanswer

end Memory

/-! ### PostgreSQL -/

namespace Postgres

/-- A creation in PostgreSQL is answered by whether a row of the name can be selected. -/
theorem creates (p : Postgres) (name : String) (blob : Bytes) (table : Table) :
    p.backend.Creates now ttl name blob (some table)
      (table.select (p.key name) (unixMillis now)).isSome := by
  have hnow : (nowAndExpiry now ttl).1 = unixMillis now := rfl
  simp only [Backend.Creates, backend, callTable, Table.insertIfExpired, Table.select, hnow]
  cases table.row? (p.key name) with
  | none => exact ⟨rfl, fun hlive => by contradiction⟩
  | some row =>
      by_cases hexpired : row.expiresAt ≤ unixMillis now
      · simp only [if_pos hexpired, if_neg (Int.not_lt.mpr hexpired)]
        exact ⟨rfl, fun hlive => by contradiction⟩
      · simp only [if_neg hexpired, if_pos (Int.not_le.mp hexpired)]
        exact ⟨rfl, fun _ => trivial⟩

/-- In PostgreSQL, answers to creations carry over to every lifetime. -/
theorem carriesOver (p : Postgres) (now ttl ttl' : Duration) :
    p.backend.CarriesOver now ttl ttl' := by
  rintro name blob (_ | table) won hanswer
  · simp [backend] at hanswer
  · exact (p.creates name blob table).carriesOver (p.creates name blob table) hanswer

/-- What a creation is about lies in the range of signed 64 bits, and no row expires before it is
written. -/
theorem nowAndExpiry_range (now ttl : Duration) :
    0 ≤ (nowAndExpiry now ttl).1 ∧ (nowAndExpiry now ttl).1 ≤ (nowAndExpiry now ttl).2 ∧
      (nowAndExpiry now ttl).2 ≤ 0x7fff_ffff_ffff_ffff := by
  have hle : now.millis ≤ (now + ttl).millis := by
    have hnow := now.nanos_le_maxNanos
    apply Nat.div_le_div_right
    rw [Duration.nanos_add]
    omega
  simp only [nowAndExpiry, unixMillis]
  omega

end Postgres

/-! ### Redis -/

namespace Redis

/-- No lifetime is zero. -/
theorem lifetime_pos (ttl : Duration) : 1 ≤ lifetime ttl := Nat.le_max_right _ _

/-- Of a lifetime that a client asks for, the server tests only that it ends in its range. -/
theorem Server.accepts_lifetime (now : Nat) (ttl : Duration) :
    Server.accepts now (lifetime ttl) ↔ now + lifetime ttl ≤ Server.maxNumber := by
  have hpos := lifetime_pos ttl
  simp only [Server.accepts, Bool.and_eq_true, decide_eq_true_eq]
  omega

/-- The server can show a key's lifetime unless twice the interval and the ten seconds of grace are
2^63 milliseconds or more. -/
theorem lifetime_blobTtl_le_iff (interval : Duration) :
    lifetime (Bucket.blobTtl interval) ≤ Server.maxNumber ↔
      interval.nanos + 5 * Duration.nanosPerSecond <
        0x4000_0000_0000_0000 * Duration.nanosPerMilli := by
  rw [lifetime, Duration.millis, Bucket.nanos_blobTtl, Server.maxNumber, Duration.maxNanos,
    Duration.nanosPerMilli, Duration.nanosPerSecond]
  omega

/-- The lifetime of a key for the shortest interval, in milliseconds. -/
def leastLifetime : Nat := 10000

/-- Blobs of buckets last at least the least lifetime. -/
theorem leastLifetime_le (interval : Duration) :
    leastLifetime ≤ lifetime (Bucket.blobTtl interval) := by
  rw [leastLifetime, lifetime, Duration.millis, Bucket.nanos_blobTtl, Duration.maxNanos,
    Duration.nanosPerMilli]
  omega

/-- A creation in Redis is answered by whether the key is there, if the server takes the
lifetime. -/
theorem creates (q : Redis) (name : String) (blob : Bytes) (server : Server)
    (h : Server.accepts now.millis (lifetime ttl)) :
    q.backend.Creates now ttl name blob (some server)
      (server.get? now.millis (q.key name)).isSome := by
  simp only [Backend.Creates, backend, callServer, Server.set?, h, Bool.not_true,
    Bool.false_eq_true, if_false, Bool.true_and]
  cases (server.get? now.millis (q.key name)).isSome with
  | true => exact ⟨rfl, fun _ => rfl⟩
  | false => exact ⟨rfl, fun hlive => by contradiction⟩

/-- A creation whose lifetime the server refuses fails, whatever there is under its name. -/
theorem call_create_refused (q : Redis) (name : String) (blob : Bytes) (server : Server)
    (h : ¬ Server.accepts now.millis (lifetime ttl)) :
    (q.backend.call now (.create name blob ttl) (some server)).1 =
      .error (failure "Redis SET NX failed") := by
  rw [Bool.not_eq_true] at h
  simp only [backend, callServer, Server.set?, h, Bool.not_false, if_true]

/-- In Redis, answers to creations carry over to every lifetime that the server takes. -/
theorem carriesOver (q : Redis)
    (h : Server.accepts now.millis (lifetime ttl) → Server.accepts now.millis (lifetime ttl')) :
    q.backend.CarriesOver now ttl ttl' := by
  rintro name blob (_ | server) won hanswer
  · simp [backend] at hanswer
  -- What is refused is not answered, so nothing has to carry over.
  by_cases haccepts : Server.accepts now.millis (lifetime ttl)
  · exact (q.creates name blob server haccepts).carriesOver
      (q.creates name blob server (h haccepts)) hanswer
  · rw [q.call_create_refused name blob server haccepts] at hanswer
    contradiction

end Redis

/-! ### Sealed stores -/

namespace Sealed

variable {v : Vault} {inner : Backend σ}

/-- Under a seal, answers to creations carry over as they do in the store below. -/
theorem carriesOver (h : inner.CarriesOver now ttl ttl') :
    (backend v inner).CarriesOver now ttl ttl' := by
  rintro name blob ⟨s, entropy⟩ won hanswer
  simp only [backend, callWith] at hanswer ⊢
  cases hlock : v.lock (entropy.draw SealedBlob.nonceSize).1 blob with
  | error e =>
      rw [hlock] at hanswer
      contradiction
  | ok stored =>
      rw [hlock] at hanswer
      obtain ⟨hown, hlost⟩ := h name stored s won hanswer
      exact ⟨hown, fun hwon => congrArg (·, _) (hlost hwon)⟩

/-- A creation with a blob that the cipher takes is answered by the inner store. -/
theorem call_create (name : String) {blob : Bytes} (hfits : blob.length ≤ Gcm.maxLength) (s : σ)
    (entropy : Entropy) :
    ((backend v inner).call now (.create name blob ttl) (s, entropy)).1 =
      (inner.call now
        (.create name (v.text (entropy.draw SealedBlob.nonceSize).1 blob) ttl) s).1 := by
  simp only [backend, callWith, Vault.lock_eq hfits]

end Sealed

end Keyring.Store
