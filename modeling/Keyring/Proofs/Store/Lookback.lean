import Keyring.Proofs.Bucket
import Keyring.Store.Memory
import Keyring.Store.Postgres
import Keyring.Store.Redis

/-! # Blobs outlive the next bucket

A process that restores looks back one bucket, so the blob of a bucket has to be there until the
next bucket is over. Each backend counts lifetimes in its own way: exactly, by the millisecond at
which a row expires, or as a number of milliseconds. Whatever the interval, none of them drops the
blob too early.
-/

namespace Keyring.Store

variable {σ : Type} {interval t u ttl : Duration} {b : Bucket}

/-- What the backend accepts at `t` with a lifetime is read at `u`. -/
def Backend.Keeps (B : Backend σ) (t u ttl : Duration) : Prop :=
  ∀ name blob s s',
    B.call t (.create name blob ttl) s = (.ok true, s') ∨
      B.call t (.write name blob ttl) s = (.ok (), s') →
      (B.call u (.read name) s').1 = .ok (some blob)

/-! ## Lifetimes in the backends -/

/-- What is stored in a ledger stays live for its lifetime. -/
theorem Ledger.live?_store (l : Ledger) (h : u < t + ttl) (name : String) (blob : Bytes) :
    (l.store t name blob ttl).live? u name = some blob := by
  rw [live?, store, get?_put, if_pos rfl]
  exact if_pos h

/-- The memory store drops a blob when its exact lifetime is over. -/
theorem Memory.keeps (h : u < t + ttl) : Memory.backend.Keeps t u ttl := by
  rintro name blob s s' (hcall | hcall)
  · simp only [backend, call, Ledger.call] at hcall
    split at hcall
    · simp at hcall
    · obtain ⟨-, rfl⟩ := Prod.mk.inj hcall
      exact congrArg Except.ok (s.ledger.live?_store h name blob)
  · obtain ⟨-, rfl⟩ := Prod.mk.inj hcall
    exact congrArg Except.ok (s.ledger.live?_store h name blob)

/-- A row that is put in can be selected until it expires. -/
theorem Postgres.Table.select_upsert (table : Table) (row : Row) {now : Int}
    (h : now < row.expiresAt) : (table.upsert row).select row.name now = some row.blob := by
  simp [select, row?, upsert, h]

/-- The PostgreSQL store drops a blob at the millisecond in which its lifetime ends. -/
theorem Postgres.keeps (p : Postgres) (h : unixMillis u < (nowAndExpiry t ttl).2) :
    p.backend.Keeps t u ttl := by
  rintro name blob (_ | table) s' hcall
  · -- A database that is out of reach accepts nothing.
    rcases hcall with hcall | hcall <;> simp [backend] at hcall
  have hread : ∀ table : Table,
      (p.callTable u (.read name) (table.upsert ⟨p.key name, blob, (nowAndExpiry t ttl).2⟩)).1 =
        .ok (some blob) := fun table => congrArg Except.ok (table.select_upsert _ h)
  rcases hcall with hcall | hcall
  · simp only [backend, callTable, Table.insertIfExpired] at hcall
    split at hcall
    · split at hcall
      · obtain ⟨-, rfl⟩ := Prod.mk.inj hcall
        exact hread table
      · simp at hcall
    · obtain ⟨-, rfl⟩ := Prod.mk.inj hcall
      exact hread table
  · obtain ⟨-, rfl⟩ := Prod.mk.inj hcall
    exact hread table

/-- What is set on a server is answered for its lifetime. -/
theorem Redis.Server.get?_set? {server server' : Server} {start now lifetime : Nat} {key : String}
    {blob : Bytes} {onlyAbsent : Bool}
    (hset : server.set? start key blob onlyAbsent lifetime = some (true, server'))
    (h : now ≤ start + lifetime) : server'.get? now key = some blob := by
  rw [set?] at hset
  split at hset
  · contradiction
  split at hset
  · simp at hset
  · obtain ⟨-, rfl⟩ := Prod.mk.inj (Option.some.inj hset)
    simp [get?, h]

/-- What was set without a condition was set. -/
theorem Redis.Server.eq_true_of_set? {server server' : Server} {now lifetime : Nat} {key : String}
    {blob : Bytes} {won : Bool}
    (hset : server.set? now key blob false lifetime = some (won, server')) : won = true := by
  rw [set?] at hset
  split at hset
  · contradiction
  · exact (Prod.mk.inj (Option.some.inj hset)).1.symm

/-- The Redis store drops a blob when the milliseconds that it asked for are over. -/
theorem Redis.keeps (r : Redis) (h : u.millis ≤ t.millis + lifetime ttl) :
    r.backend.Keeps t u ttl := by
  rintro name blob (_ | server) s' hcall
  · rcases hcall with hcall | hcall <;> simp [backend] at hcall
  rcases hcall with hcall | hcall
  · simp only [backend, callServer] at hcall
    split at hcall
    · next won server' hset =>
        obtain ⟨hwon, rfl⟩ := Prod.mk.inj hcall
        obtain rfl := Except.ok.inj hwon
        exact congrArg Except.ok (Server.get?_set? hset h)
    · simp at hcall
  · simp only [backend, callServer] at hcall
    split at hcall
    · next won server' hset =>
        obtain ⟨-, rfl⟩ := Prod.mk.inj hcall
        obtain rfl := Server.eq_true_of_set? hset
        exact congrArg Except.ok (Server.get?_set? hset h)
    · simp at hcall

/-! ## The lookback -/

/-- In whole milliseconds, too, a stored blob's lifetime covers two widths, or all times of the
clock. -/
theorem two_widths_le_millis_blobTtl (interval : Duration) :
    min (2 * Bucket.width interval) 0xffff_ffff_ffff_ffff ≤ (Bucket.blobTtl interval).millis := by
  have httl := Bucket.two_widths_le_blobTtl interval
  rw [Duration.nanosPerMilli, Duration.maxNanos] at httl
  rw [Duration.millis, Duration.nanosPerMilli]
  omega

/-- A blob that was stored at `t` as a bucket's key is there at `u`. -/
structure Survives (interval t u : Duration) : Prop where
  /-- By exact arithmetic its lifetime is not over. -/
  lt_expiry : u < t + Bucket.blobTtl interval
  /-- In Unix milliseconds its row is not expired. -/
  lt_expiresAt : Postgres.unixMillis u < (Postgres.nowAndExpiry t (Bucket.blobTtl interval)).2
  /-- The milliseconds asked for are not over. -/
  lt_lifetime : u.millis < t.millis + Redis.lifetime (Bucket.blobTtl interval)
  /-- Whoever reads it from the store that accepted it finds it. -/
  memory : Memory.backend.Keeps t u (Bucket.blobTtl interval)
  postgres : ∀ p : Postgres, p.backend.Keeps t u (Bucket.blobTtl interval)
  redis : ∀ r : Redis, r.backend.Keeps t u (Bucket.blobTtl interval)

/-- A blob that is stored for a bucket once that has begun is there until the next bucket is over,
whatever the interval. -/
theorem survives_lookback (hstart : b.value * Bucket.width interval ≤ t.millis) (htu : t ≤ u)
    (hu : b.Covers interval u) (hend : (u.millis : Int) < Bucket.maxValue) :
    Survives interval t u := by
  have ht := Bucket.covers_of_start_le hstart htu hu
  have hcounts : Bucket.Counts interval u := by
    refine ⟨?_, ?_⟩
    · have hlongest : Duration.longest.nanos = Duration.maxNanos := by decide
      have hmod := Nat.div_add_mod u.nanos 1000000
      rw [Bucket.maxValue, Duration.millis, Duration.nanosPerMilli] at hend
      rw [Duration.lt_def, hlongest, Duration.maxNanos]
      omega
    · have hdiv := Nat.div_le_self u.millis (Bucket.width interval)
      omega
  have hmillis := Bucket.millis_lt_of_covers ht hu hcounts
  have httl := two_widths_le_millis_blobTtl interval
  have hexact : u < t + Bucket.blobTtl interval := Bucket.lt_expiry_of_covers ht hu hcounts
  rw [Bucket.maxValue] at hend
  have hpostgres :
      Postgres.unixMillis u < (Postgres.nowAndExpiry t (Bucket.blobTtl interval)).2 := by
    -- The milliseconds of a sum are at least the sum of the milliseconds.
    have hsum : min (t.millis + (Bucket.blobTtl interval).millis) 0xffff_ffff_ffff_ffff ≤
        (t + Bucket.blobTtl interval).millis := by
      simp only [Duration.millis, Duration.nanosPerMilli, Duration.nanos_add, Duration.maxNanos]
      omega
    simp only [Postgres.nowAndExpiry, Postgres.unixMillis]
    omega
  have hredis : u.millis < t.millis + Redis.lifetime (Bucket.blobTtl interval) := by
    rw [Redis.lifetime]
    omega
  exact ⟨hexact, hpostgres, hredis, Memory.keeps hexact, fun p => p.keeps hpostgres,
    fun r => r.keeps (Nat.le_of_lt hredis)⟩

/-- An interval of one nanosecond makes buckets of a millisecond, and the blob of bucket 5 is there
in the last nanosecond of bucket 6. With the longest interval the lifetime is the longest duration,
and the blob of bucket 0 is there at the last time that 63 bits of milliseconds can show. -/
theorem survives_extremes :
    (Bucket.clamp 5).Covers (.ofNanos 1) (.ofNanos 6999999) ∧
      Survives (.ofNanos 1) (.ofMillis 5) (.ofNanos 6999999) ∧
    Bucket.zero.Covers .longest (.ofMillis 0x7fff_ffff_ffff_fffe) ∧
      Survives .longest .zero (.ofMillis 0x7fff_ffff_ffff_fffe) :=
  ⟨by decide, survives_lookback (b := .clamp 5) (by decide) (by decide) (by decide) (by decide),
    by decide, survives_lookback (b := .zero) (by decide) (by decide) (by decide) (by decide)⟩

end Keyring.Store
