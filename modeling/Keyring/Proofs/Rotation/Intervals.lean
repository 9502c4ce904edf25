import Keyring.Proofs.Rotation.Agreement
import Keyring.Proofs.Rotation.Restore
import Keyring.Proofs.Store.Lifetimes

/-! # Intervals that work

How long a key is stored depends on the interval, and nothing else that settles a key does. So an
interval is to blame for a failure if a key is settled with another one while all else is the same.
On Redis that happens: with the longest intervals the server refuses the lifetime that it is asked
for.
-/

namespace Keyring.Rotation

open Store

variable {σ τ : Type}

/-- What a process meets with that settles a key: the time at each of its requests, what the others
have done to the store before that, and the keys that are generated. -/
structure Surroundings (τ : Type) where
  time : Nat → Duration
  others : Nat → τ → τ
  generated : Nat → Nat → Except Error Key

/-- The world of a process that uses a store, with the number of its requests so far. -/
def Surroundings.world (e : Surroundings τ) (B : Backend τ) : World (Nat × τ) where
  time s := e.time s.1
  call c s := let (a, t) := B.call (e.time s.1) c (e.others s.1 s.2); (a, (s.1 + 1, t))
  generate bits s := (e.generated s.1 bits, (s.1 + 1, s.2))

/-- The clock stands still, nobody else uses the store, and the key with the modulus 55 is
generated. -/
def Surroundings.calm (now : Duration) : Surroundings τ where
  time _ := now
  others _ := id
  generated _ _ := .ok .small55

namespace Rotater

variable {r r' : Rotater} {b : Bucket} {e : Surroundings τ} {B : Backend τ} {v : KeyWindow} {t : τ}
  {g : Generation}

/-- How a process goes on once its creation was answered: if it was lost, it looks for the
winner. -/
def afterCreation (b : Bucket) (candidate : Key) (w : World σ) (v : KeyWindow) :
    Except Error Bool × σ → Except Error Generation × KeyWindow × σ
  | (.error err, s) => (.error err, v, s)
  | (.ok true, s) => (.ok (.won candidate), v, s)
  | (.ok false, s) =>
    match w.lookUp b s with
    | (.error err, s) => (.error err, v, s)
    | (.ok none, s) => (.error (unreadable b), v, s)
    | (.ok (some winner), s) => (.ok (.adopted winner candidate), v, s)

/-- Settling a key, request by request. -/
theorem run_generateFor (r : Rotater) (b : Bucket) (w : World σ) (v : KeyWindow) (s : σ) :
    (r.generateFor b).run.run w v s =
      match w.generate r.keyStrength s with
      | (.error err, s) => (.error err, v, s)
      | (.ok candidate, s) =>
        match candidate.toPem with
        | .error err => (.error err, v, s)
        | .ok pem =>
          afterCreation b candidate w v
            (w.call (.create b.blobName pem (Bucket.blobTtl r.interval)) s) := by
  have hfresh : (Action.freshKey r.keyStrength).run.run w v s =
      ((w.generate r.keyStrength s).1, v, (w.generate r.keyStrength s).2) := rfl
  rw [generateFor, Action.run_bind, hfresh]
  rcases w.generate r.keyStrength s with ⟨err | candidate, s⟩
  · rfl
  simp only
  cases candidate.toPem with
  | error err => rfl
  | ok pem =>
      have hencoded : (Action.ofExcept (.ok pem)).run.run w v s = (.ok pem, v, s) := rfl
      have hcreate :
          (Action.call (.create b.blobName pem (Bucket.blobTtl r.interval))).run.run w v s =
          ((w.call (.create b.blobName pem (Bucket.blobTtl r.interval)) s).1, v,
            (w.call (.create b.blobName pem (Bucket.blobTtl r.interval)) s).2) := rfl
      rw [Action.run_bind, hencoded]
      simp only
      rw [Action.run_bind, hcreate]
      rcases w.call (.create b.blobName pem (Bucket.blobTtl r.interval)) s with ⟨err | _ | _, s⟩
      · rfl
      · simp only [Bool.false_eq_true, if_false, Action.run_bind, run_find, afterCreation]
        rcases w.lookUp b s with ⟨err | _ | winner, s⟩ <;> rfl
      · rfl

/-- How the key of a bucket is settled that begins with a store in a state. -/
def outcome (r : Rotater) (b : Bucket) (e : Surroundings τ) (B : Backend τ) (v : KeyWindow)
    (t : τ) : Except Error Generation :=
  ((r.generateFor b).run.run (e.world B) v (0, t)).1

/-- A key is settled exactly if it is generated and written, and the creation is answered as it has
to be. -/
theorem outcome_eq_ok_iff : r.outcome b e B v t = .ok g ↔
    ∃ candidate pem, e.generated 0 r.keyStrength = .ok candidate ∧ candidate.toPem = .ok pem ∧
      (afterCreation b candidate (e.world B) v
        ((e.world B).call (.create b.blobName pem (Bucket.blobTtl r.interval)) (1, t))).1 =
        .ok g := by
  have hgenerate :
      (e.world B).generate r.keyStrength (0, t) = (e.generated 0 r.keyStrength, (1, t)) := rfl
  rw [outcome, run_generateFor, hgenerate]
  cases e.generated 0 r.keyStrength with
  | error err => simp
  | ok candidate =>
      simp only [Except.ok.injEq, exists_and_left, exists_eq_left']
      cases candidate.toPem with
      | error err => simp
      | ok pem => simp

/-- A creation is the second request. -/
theorem call_create_world (ttl : Duration) (name : String) (blob : Bytes) :
    (e.world B).call (.create name blob ttl) (1, t) =
      ((B.call (e.time 1) (.create name blob ttl) (e.others 1 t)).1,
        (2, (B.call (e.time 1) (.create name blob ttl) (e.others 1 t)).2)) := rfl

theorem afterCreation_of_carriesOver {candidate : Key} {name : String} {pem : Bytes}
    {ttl ttl' : Duration} (hcarries : B.CarriesOver (e.time 1) ttl ttl')
    (h : (afterCreation b candidate (e.world B) v
      ((e.world B).call (.create name pem ttl) (1, t))).1 = .ok g) :
    (afterCreation b candidate (e.world B) v ((e.world B).call (.create name pem ttl') (1, t))).1 =
      .ok g := by
  rw [call_create_world] at h ⊢
  cases hanswer : (B.call (e.time 1) (.create name pem ttl) (e.others 1 t)).1 with
  | error err =>
      rw [hanswer] at h
      contradiction
  | ok won =>
      obtain ⟨hanswer', hleaves⟩ := hcarries _ _ _ _ hanswer
      rw [hanswer] at h
      rw [hanswer']
      cases won with
      | true => exact h
      | false =>
          -- The search for the winner goes on in the state that the lost creation left.
          rw [hleaves rfl]
          exact h

/-- The interval matters for the creation only. -/
theorem outcome_of_carriesOver (hstrength : r'.keyStrength = r.keyStrength)
    (hcarries : B.CarriesOver (e.time 1) (Bucket.blobTtl r'.interval) (Bucket.blobTtl r.interval))
    (h : r'.outcome b e B v t = .ok g) : r.outcome b e B v t = .ok g := by
  rw [outcome_eq_ok_iff, hstrength] at h
  rw [outcome_eq_ok_iff]
  obtain ⟨candidate, pem, hgenerated, hpem, hafter⟩ := h
  exact ⟨candidate, pem, hgenerated, hpem, afterCreation_of_carriesOver hcarries hafter⟩

/-- A key is settled by the creation, if that is accepted. -/
theorem outcome_of_accepted {key : Key} {pem : Bytes}
    (hgenerated : e.generated 0 r.keyStrength = .ok key) (hpem : key.toPem = .ok pem)
    (hcreate : (B.call (e.time 1) (.create b.blobName pem (Bucket.blobTtl r.interval))
      (e.others 1 t)).1 = .ok true) :
    r.outcome b e B v t = .ok (.won key) := by
  rw [outcome_eq_ok_iff]
  refine ⟨key, pem, hgenerated, hpem, ?_⟩
  rw [call_create_world, hcreate]
  rfl

/-- The failure of the creation is that of the whole. -/
theorem outcome_of_refused {key : Key} {pem : Bytes} {err : Error}
    (hgenerated : e.generated 0 r.keyStrength = .ok key) (hpem : key.toPem = .ok pem)
    (hcreate : (B.call (e.time 1) (.create b.blobName pem (Bucket.blobTtl r.interval))
      (e.others 1 t)).1 =
      .error err) :
    r.outcome b e B v t = .error err := by
  have hgenerate : (e.world B).generate r.keyStrength (0, t) = (.ok key, (1, t)) :=
    Prod.ext hgenerated rfl
  rw [outcome, run_generateFor, hgenerate]
  simp only [hpem]
  rw [call_create_world, hcreate]
  rfl

/-! ## Intervals that are to blame -/

/-- The interval is not to blame for any failure: wherever a key is settled with another interval,
and the creation comes at that time, it is settled with this one in the same way. -/
def WorksAt (r : Rotater) (B : Backend τ) (now : Duration) : Prop :=
  ∀ (e : Surroundings τ) (r' : Rotater) (b : Bucket) (v : KeyWindow) (t : τ) (g : Generation),
    e.time 1 = now → r'.keyStrength = r.keyStrength → r'.outcome b e B v t = .ok g →
      r.outcome b e B v t = .ok g

variable {now : Duration}

/-- Rotation works at a time if answers to creations carry over from the lifetime of every
interval. -/
theorem worksAt_of_carriesOver
    (h : ∀ interval, B.CarriesOver now (Bucket.blobTtl interval) (Bucket.blobTtl r.interval)) :
    r.WorksAt B now := by
  rintro e r' b v t g rfl hstrength
  exact outcome_of_carriesOver hstrength (h r'.interval)

/-- With the shortest interval. -/
def briefest (r : Rotater) : Rotater := { r with interval := .ofNanos 1, interval_pos := by decide }

/-- The interval is to blame if a creation fails that is accepted with the shortest one. -/
theorem not_worksAt {pem : Bytes} {err : Error} (hpem : Key.small55.toPem = .ok pem)
    (hbriefest : (B.call now (.create Bucket.zero.blobName pem (Bucket.blobTtl (.ofNanos 1))) t).1 =
      .ok true)
    (hown : (B.call now (.create Bucket.zero.blobName pem (Bucket.blobTtl r.interval)) t).1 =
      .error err) :
    ¬ r.WorksAt B now := by
  intro h
  have hsettled :=
    h (.calm now) r.briefest .zero .empty t _ rfl rfl (outcome_of_accepted rfl hpem hbriefest)
  rw [outcome_of_refused rfl hpem hown] at hsettled
  contradiction

/-- At that time a Redis server takes the lifetime of the interval's keys, unless it takes that of
no interval's. -/
def TakenIfAny (r : Rotater) (now : Duration) : Prop :=
  now.millis + Redis.lifetime (Bucket.blobTtl r.interval) ≤ Redis.Server.maxNumber ∨
    Redis.Server.maxNumber < now.millis + Redis.leastLifetime

/-- In Redis, answers carry over to a lifetime that is taken if any is. -/
theorem redis_carriesOver (q : Redis) (h : r.TakenIfAny now) (interval : Duration) :
    q.backend.CarriesOver now (Bucket.blobTtl interval) (Bucket.blobTtl r.interval) := by
  apply q.carriesOver
  rw [Redis.Server.accepts_lifetime, Redis.Server.accepts_lifetime]
  intro hother
  rcases h with htaken | hnone
  · exact htaken
  · -- No interval has a lifetime shorter than that of the shortest one.
    have hleast := Redis.leastLifetime_le interval
    omega

/-- A server without values shows that the interval is to blame for what it does not take. -/
theorem creates_on_empty (q : Redis) (h : ¬ r.TakenIfAny now) (name : String) (blob : Bytes) :
    (q.backend.call now (.create name blob (Bucket.blobTtl (.ofNanos 1))) (some {})).1 = .ok true ∧
      (q.backend.call now (.create name blob (Bucket.blobTtl r.interval)) (some {})).1 =
        .error (Redis.failure "Redis SET NX failed") := by
  obtain ⟨hrefused, hpossible⟩ := not_or.mp h
  have hbriefest : Redis.lifetime (Bucket.blobTtl (.ofNanos 1)) = Redis.leastLifetime := by decide
  constructor
  · refine (q.creates name blob {} ((Redis.Server.accepts_lifetime _ _).mpr ?_)).1
    rw [hbriefest]
    exact Nat.not_lt.mp hpossible
  · exact q.call_create_refused name blob {} fun haccepts => hrefused
      ((Redis.Server.accepts_lifetime _ _).mp haccepts)

/-- The document of the smallest key is one that the cipher takes. -/
theorem exists_smallPem : ∃ pem, Key.small55.toPem = .ok pem ∧ pem.length ≤ Gcm.maxLength :=
  ⟨Key.small55.toPem.toOption.getD [], by decide, by decide⟩

/-- Rotation on Redis works at a time exactly if the lifetime is taken whenever any is. -/
theorem worksAt_redis_iff (q : Redis) : r.WorksAt q.backend now ↔ r.TakenIfAny now := by
  refine ⟨fun h => ?_, fun h => worksAt_of_carriesOver (redis_carriesOver q h)⟩
  by_contra hrefused
  obtain ⟨pem, hpem, -⟩ := exists_smallPem
  obtain ⟨hbriefest, hown⟩ := creates_on_empty q hrefused Bucket.zero.blobName pem
  exact not_worksAt hpem hbriefest hown h

/-- Sealing makes no difference, as the lifetime passes through. -/
theorem worksAt_sealedRedis_iff (vault : Vault) (q : Redis) :
    r.WorksAt (Sealed.backend vault q.backend) now ↔ r.TakenIfAny now := by
  refine ⟨fun h => ?_, fun h => worksAt_of_carriesOver fun interval =>
    Sealed.carriesOver (redis_carriesOver q h interval)⟩
  by_contra hrefused
  obtain ⟨pem, hpem, hfits⟩ := exists_smallPem
  -- The server gets a wire text in place of the document, and is not interested in either.
  have hcall (ttl : Duration) :
      ((Sealed.backend vault q.backend).call now (.create Bucket.zero.blobName pem ttl)
        (some {}, ⟨[], 0⟩)).1 =
        (q.backend.call now (.create Bucket.zero.blobName
          (vault.text ((⟨[], 0⟩ : Entropy).draw SealedBlob.nonceSize).1 pem) ttl) (some {})).1 :=
    Sealed.call_create _ hfits _ _
  obtain ⟨hbriefest, hown⟩ := creates_on_empty q hrefused Bucket.zero.blobName
    (vault.text ((⟨[], 0⟩ : Entropy).draw SealedBlob.nonceSize).1 pem)
  rw [← hcall] at hbriefest hown
  exact not_worksAt hpem hbriefest hown h

/-- Which requests an interval leads to, and where it works. -/
structure Workable (r : Rotater) : Prop where
  /-- Redis is asked for a positive lifetime. -/
  lifetime_pos : 1 ≤ Redis.lifetime (Bucket.blobTtl r.interval)
  /-- It is a signed number of 64 bits if the interval is shorter than 2^62 milliseconds less five
  seconds. -/
  lifetime_le_iff : Redis.lifetime (Bucket.blobTtl r.interval) ≤ Redis.Server.maxNumber ↔
    r.interval.nanos + 5 * Duration.nanosPerSecond < 0x4000_0000_0000_0000 * Duration.nanosPerMilli
  /-- PostgreSQL is asked for times that are signed numbers of 64 bits, of which that of expiry is
  not before now. -/
  expiry : ∀ now, 0 ≤ (Postgres.nowAndExpiry now (Bucket.blobTtl r.interval)).1 ∧
    (Postgres.nowAndExpiry now (Bucket.blobTtl r.interval)).1 ≤
      (Postgres.nowAndExpiry now (Bucket.blobTtl r.interval)).2 ∧
    (Postgres.nowAndExpiry now (Bucket.blobTtl r.interval)).2 ≤ 0x7fff_ffff_ffff_ffff
  memory : ∀ now, r.WorksAt Memory.backend now
  postgres : ∀ (p : Postgres) now, r.WorksAt p.backend now
  redis : ∀ (q : Redis) now, r.WorksAt q.backend now ↔ r.TakenIfAny now
  sealedMemory : ∀ v now, r.WorksAt (Sealed.backend v Memory.backend) now
  sealedPostgres : ∀ v (p : Postgres) now, r.WorksAt (Sealed.backend v p.backend) now
  sealedRedis : ∀ v (q : Redis) now, r.WorksAt (Sealed.backend v q.backend) now ↔ r.TakenIfAny now

/-- Every interval works on the memory store and on PostgreSQL, sealed or not. On Redis an interval
works at a time exactly if its lifetime ends in the server's range, unless none does. -/
theorem workable (r : Rotater) : r.Workable where
  lifetime_pos := Redis.lifetime_pos _
  lifetime_le_iff := Redis.lifetime_blobTtl_le_iff _
  expiry now := Postgres.nowAndExpiry_range now _
  memory now := worksAt_of_carriesOver fun _ => Memory.carriesOver now _ _
  postgres p now := worksAt_of_carriesOver fun _ => p.carriesOver now _ _
  redis q _ := worksAt_redis_iff q
  sealedMemory _ now :=
    worksAt_of_carriesOver fun _ => Sealed.carriesOver (Memory.carriesOver now _ _)
  sealedPostgres _ p now :=
    worksAt_of_carriesOver fun _ => Sealed.carriesOver (p.carriesOver now _ _)
  sealedRedis vault q _ := worksAt_sealedRedis_iff vault q

/-- A rotater for the longest interval. -/
def ofLongest : Rotater := ⟨.longest, Key.minBits, by decide, Nat.le_refl Key.minBits⟩

/-- A client of a Redis server on the own host. -/
def loopback : Redis := ⟨⟨.network "localhost" 6379, 0, none, none⟩, none⟩

/-- At the start of the year 2000 an hour works on Redis, and the longest interval does not. -/
theorem workable_hour :
    Peers.hourly.WorksAt loopback.backend (.ofSeconds 946684800) ∧
      ¬ ofLongest.WorksAt loopback.backend (.ofSeconds 946684800) := by
  refine ⟨((workable Peers.hourly).redis loopback _).mpr (.inl (by decide)), fun h => ?_⟩
  rcases ((workable ofLongest).redis loopback _).mp h with h | h <;> revert h <;> decide

/-- The longest interval is accepted, but the lifetime that Redis is asked for is not a signed
number of 64 bits: on a server without values, where a key is settled with an interval of an hour,
none is with this one. -/
theorem refused_longest :
    create .longest Key.minBits = .ok ofLongest ∧
      Redis.lifetime (Bucket.blobTtl ofLongest.interval) = 18446744073709551615 ∧
      Redis.Server.maxNumber < Redis.lifetime (Bucket.blobTtl ofLongest.interval) ∧
      Peers.hourly.outcome .zero (.calm (.ofSeconds 946684800)) loopback.backend .empty (some {}) =
        .ok (.won .small55) ∧
      ofLongest.outcome .zero (.calm (.ofSeconds 946684800)) loopback.backend .empty (some {}) =
        .error (Redis.failure "Redis SET NX failed") := by
  decide

end Rotater

end Keyring.Rotation
