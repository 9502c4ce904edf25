import Keyring.Proofs.Rotation.Agreement
import Keyring.Proofs.Rotation.Tenants
import Keyring.Proofs.Store.Places

/-! # Isolation of tenants

Tenants whose clients have different spaces of names may share a server: whatever the others do
there, each of them comes to what it would come to with the server to itself. This compares two
runs, and what carries over from one to the other is that the tenant is in the same state and the
server holds the same under the tenant's keys.
-/

namespace Keyring.Rotation

open Store

variable {σ π ι : Type}

/-- The servers hold the same under the keys of buckets' blobs. -/
def SameBlobs (key : String → String) (place : String → σ → π) (s s' : σ) : Prop :=
  ∀ b : Bucket, place (key b.blobName) s = place (key b.blobName) s'

section Tenant

variable {B : Backend σ} {key : String → String} {place : String → σ → π}
  {callAt : Duration → (c : Call) → π → Except Error c.Answer × π}
  {q : Request} {window : KeyWindow} {now : Duration} {s s' : σ} {x : Tenant} {r : Rotater}
    {bits : Nat}

/-- A request is answered alike over two servers that hold the same under the tenant's keys. -/
theorem Response.answer?_congr (hB : B.Keyed key place callAt)
    (hq : ∀ c, q = .store c → ∃ b : Bucket, c.name = b.blobName) (hs : SameBlobs key place s s')
    (response : Response) :
    (response.answer? B now window q s = none ∧ response.answer? B now window q s' = none) ∨
      ∃ a s₁ s₁', response.answer? B now window q s = some (a, s₁) ∧
        response.answer? B now window q s' = some (a, s₁') ∧ SameBlobs key place s₁ s₁' := by
  cases q with
  | store c =>
      obtain ⟨b, hb⟩ := hq c rfl
      have hplace : place (key c.name) s = place (key c.name) s' := by
        rw [hb]
        exact hs b
      obtain ⟨hanswer, hafter⟩ := hB.congr now hplace
      cases response with
      | served =>
          refine .inr ⟨_, _, _, rfl, ?_, fun b' => hafter _ (hs b')⟩
          rw [hanswer]
          rfl
      | refused e => exact .inr ⟨_, _, _, rfl, rfl, hs⟩
      | lost e => exact .inr ⟨_, _, _, rfl, rfl, fun b' => hafter _ (hs b')⟩
      | drawn entropy => exact .inl ⟨rfl, rfl⟩
  | time | generate bits | current | install k =>
      cases response <;> first | exact .inl ⟨rfl, rfl⟩ | exact .inr ⟨_, _, _, rfl, rfl, hs⟩

/-- What happens to a tenant is the same over two such servers. -/
theorem Tenant.act_congr (hB : B.Keyed key place callAt) (hx : x.Sound bits)
    (hs : SameBlobs key place s s') (r : Rotater) (now : Duration) (a : Act) :
    (x.act B r now s a).1 = (x.act B r now s' a).1 ∧
      SameBlobs key place (x.act B r now s a).2 (x.act B r now s' a).2 := by
  cases a with
  | answer response =>
      rw [act, act]
      split
      · next e q next trace hjob =>
          have hq : ∀ c, q = .store c → ∃ b : Bucket, c.name = b.blobName := by
            rintro c rfl
            exact traceRules_call (hx.job _ hjob).rest.1
          rcases Response.answer?_congr hB hq hs response with ⟨h, h'⟩ | ⟨a, s₁, s₁', h, h', hs₁⟩
          · rw [h, h']
            exact ⟨rfl, hs⟩
          · rw [h, h']
            exact ⟨rfl, hs₁⟩
      · exact ⟨rfl, hs⟩
  | begin e | conclude | abandon =>
      rw [act, act]
      split <;> exact ⟨rfl, hs⟩

/-- Under the keys of others nothing changes, whatever happens to a tenant. -/
theorem Tenant.Step.other {x' : Tenant} (h : Step B r now x s x' s') (hB : B.Keyed key place callAt)
    (hx : x.Sound bits) {k : String} (hk : ∀ b : Bucket, k ≠ key b.blobName) :
    place k s' = place k s := by
  cases h with
  | answer hjob hanswer =>
      rcases Response.server_of_answer? hanswer with rfl | ⟨c, rfl, rfl⟩
      · rfl
      · obtain ⟨b, hb⟩ := traceRules_call (hx.job _ hjob).rest.1
        exact hB.other now c s k (hb ▸ hk b)
  | idle | begin e hjob | close hjob hdone => rfl

end Tenant

namespace Tenants

variable [DecidableEq ι]

/-- The move concerns all tenants, or one with the same space of names. -/
def Move.within (space : ι → Option String) (i : ι) : Move ι → Bool
  | .clock _ => true
  | .act j _ => space j = space i

section Run

variable {B : ι → Backend σ} {r : ι → Rotater} {space : ι → Option String} {place : String → σ → π}
  {callAt : ι → Duration → (c : Call) → π → Except Error c.Answer × π} {i j : ι} {t u : Tenants ι σ}

/-- For the tenants with one space of names, two servers make no difference. -/
structure Alike (space : ι → Option String) (place : String → σ → π) (i : ι) (t u : Tenants ι σ) :
    Prop where
  now : t.now = u.now
  tenant : ∀ j, space j = space i → t.tenant j = u.tenant j
  server : SameBlobs (qualify (space i)) place t.server u.server

/-- A tenant with the space does the same on both sides. -/
theorem Alike.own (h : Alike space place i t u)
    (hB : (B j).Keyed (qualify (space j)) place (callAt j)) (hsound : t.Sound r)
    (hj : space j = space i) (a : Tenant.Act) :
    Alike space place i (t.move B r (.act j a)) (u.move B r (.act j a)) := by
  rw [hj] at hB
  obtain ⟨htenant, hserver⟩ := Tenant.act_congr hB (hsound j) h.server (r j) t.now a
  simp only [move, ← h.now, ← h.tenant j hj]
  refine ⟨rfl, fun k hk => ?_, hserver⟩
  by_cases hkj : k = j
  · subst hkj
    simp only [Function.update_self]
    exact htenant
  · simp only [Function.update_of_ne hkj]
    exact h.tenant k hk

/-- Another tenant changes nothing for those with the space. -/
theorem Alike.foreign (h : Alike space place i t u)
    (hB : (B j).Keyed (qualify (space j)) place (callAt j)) (hsound : t.Sound r)
    (hj : space j ≠ space i) (a : Tenant.Act) : Alike space place i (t.move B r (.act j a)) u where
  now := h.now
  tenant k hk := by
    have hkj : k ≠ j := by
      rintro rfl
      exact hj hk
    exact (Function.update_of_ne hkj _ _).trans (h.tenant k hk)
  server b := by
    have hkey : ∀ b' : Bucket, qualify (space i) b.blobName ≠ qualify (space j) b'.blobName :=
      fun b' heq => hj (qualify_blobName_inj.mp heq).1.symm
    exact ((Tenant.step_act _ _ _ _ _ a).other hB (hsound j) hkey).trans (h.server b)

/-- Whatever happens, by induction on the moves. -/
theorem Alike.run (hB : ∀ j, (B j).Keyed (qualify (space j)) place (callAt j)) (ms : List (Move ι))
    (h : Alike space place i t u) (hsound : t.Sound r) :
    Alike space place i (run B r ms t) (run B r (ms.filter (Move.within space i)) u) := by
  induction ms generalizing t u with
  | nil => exact h
  | cons m ms ih =>
      cases m with
      | clock now => exact ih ⟨rfl, h.tenant, h.server⟩ (hsound.move (.clock now))
      | act j a =>
          by_cases hj : space j = space i
          · rw [List.filter_cons_of_pos (by simpa [Move.within] using hj)]
            exact ih (h.own (hB j) hsound hj a) (hsound.move (.act j a))
          · rw [List.filter_cons_of_neg (by simpa [Move.within] using hj)]
            exact ih (h.foreign (hB j) hsound hj a) (hsound.move (.act j a))

/-- A tenant comes to what it would come to if nobody had moved but those with its space of names,
on any server that holds the same under its keys at the start. -/
theorem tenant_run_within (hB : ∀ j, (B j).Keyed (qualify (space j)) place (callAt j))
    (now : Duration) {s s' : σ} (hs : SameBlobs (qualify (space i)) place s s')
    (ms : List (Move ι)) :
    (run B r ms { now, server := s }).tenant i =
      (run B r (ms.filter (Move.within space i)) { now, server := s' }).tenant i :=
  have hstart : Alike space place i ({ now, server := s } : Tenants ι σ) { now, server := s' } :=
    ⟨rfl, fun _ _ => rfl, hs⟩
  (hstart.run hB ms fun j => Tenant.sound_start (r j).keyStrength).tenant i rfl

end Run

/-! ## Isolation -/

/-- Clients of one server are kept apart by their spaces of names, of which the empty text is
none. -/
structure Isolated (ι : Type) [DecidableEq ι] : Prop where
  /-- The key of a bucket's blob determines the space of names, by its text, and the bucket. -/
  redis_key : ∀ {address space address' space'} {r r' : Redis},
    Redis.connect address space = .ok r →
    Redis.connect address' space' = .ok r' →
      ∀ b b' : Bucket, r.key b.blobName = r'.key b'.blobName ↔ space = space' ∧ b = b'
  postgres_key : ∀ {address poolSize space address' poolSize' space'} {p p' : Postgres},
    Postgres.connect address poolSize space = .ok p →
      Postgres.connect address' poolSize' space' = .ok p' →
      ∀ b b' : Bucket, p.key b.blobName = p'.key b'.blobName ↔ space = space' ∧ b = b'
  /-- Among the clients of a Redis server, a tenant's keys, errands, answers and outcomes are those
  of the run in which the others do not move, on any server that holds the same under the tenant's
  keys at the start. -/
  redis : ∀ (client : ι → Redis) (r : ι → Rotater) (now : Duration) (i : ι)
    (s s' : Option Redis.Server),
    SameBlobs (client i).key (fun k s => s.map (Redis.Server.slot · k)) s s' → ∀ ms : List (Move ι),
      (run (fun j => (client j).backend) r ms { now, server := s }).tenant i =
        (run (fun j => (client j).backend) r
          (ms.filter (Move.within (fun j => (client j).spaceName) i))
          { now, server := s' }).tenant i
  postgres : ∀ (client : ι → Postgres) (r : ι → Rotater) (now : Duration) (i : ι)
    (s s' : Option Postgres.Table),
    SameBlobs (client i).key (fun k s => s.map (Postgres.Table.slot · k)) s s' →
      ∀ ms : List (Move ι), (run (fun j => (client j).backend) r ms { now, server := s }).tenant i =
        (run (fun j => (client j).backend) r
          (ms.filter (Move.within (fun j => (client j).spaceName) i))
          { now, server := s' }).tenant i

/-- Tenants are isolated. -/
theorem isolated (ι : Type) [DecidableEq ι] : Isolated ι where
  redis_key hr hr' b b' := by
    rw [Redis.key, Redis.key, qualify_blobName_inj, Redis.spaceName_of_connect hr,
      Redis.spaceName_of_connect hr', spaceOf_injective.eq_iff]
  postgres_key hp hp' b b' := by
    rw [Postgres.key, Postgres.key, qualify_blobName_inj, Postgres.spaceName_of_connect hp,
      Postgres.spaceName_of_connect hp', spaceOf_injective.eq_iff]
  redis client _ now _ _ _ hs ms := tenant_run_within (fun j => (client j).keyed) now hs ms
  postgres client _ now _ _ _ hs ms := tenant_run_within (fun j => (client j).keyed) now hs ms

/-- A tenant without a space of names, and one whose space is called like a blob of the first
one. -/
def lookalike (named : Bool) : Redis where
  address := ⟨.network "localhost" 6379, 0, none, none⟩
  spaceName := if named then some "rsa:10" else none

/-- A server with a key for each of the two in bucket 10. -/
def lookalikeServer : Redis.Server where
  entries := [("rsa:10", Key.small55.toPem.toOption.getD [], 86400000),
    ("rsa:10:rsa:10", Key.small85.toPem.toOption.getD [], 86400000)]

/-- Both restore, one request of one of them after one of the other. -/
def alternating : List (Move Bool) :=
  [.begin .restore, .answer .served, .answer .served, .answer .served, .answer .served,
    .conclude].flatMap
    fun a => [.act false a, .act true a]

/-- Each of them finds its own key, as it does without the other. -/
theorem isolated_lookalike :
    ((run (fun j => (lookalike j).backend) (fun _ => Peers.hourly) alternating
      { now := .ofSeconds 36000, server := some lookalikeServer }).tenant false).window =
        .one .small55 ∧
    ((run (fun j => (lookalike j).backend) (fun _ => Peers.hourly)
      (alternating.filter (Move.within (fun j => (lookalike j).spaceName) false))
      { now := .ofSeconds 36000, server := some lookalikeServer }).tenant false).window =
        .one .small55 ∧
    ((run (fun j => (lookalike j).backend) (fun _ => Peers.hourly) alternating
      { now := .ofSeconds 36000, server := some lookalikeServer }).tenant true).window =
        .one .small85 := by
  have hfirst : ((run (fun j => (lookalike j).backend) (fun _ => Peers.hourly) alternating
      { now := .ofSeconds 36000, server := some lookalikeServer }).tenant false).window =
        .one .small55 := by
    decide +kernel
  refine ⟨hfirst, ?_, by decide +kernel⟩
  rw [← (isolated Bool).redis lookalike (fun _ => Peers.hourly) _ false _ _
    (fun _ => rfl) alternating]
  exact hfirst

end Tenants

end Keyring.Rotation
