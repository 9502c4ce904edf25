import Keyring.Proofs.Rotation.Agreement
import Keyring.Proofs.Rotation.Tenants
import Keyring.Proofs.Store.Blind

/-! # The strength of installed keys

A rotater generates keys of at least the least size that may sign. The size of a key that it reads
from the store is not looked at, so what a process installs is as strong as what it reads. A store
that began empty and that only rotaters write to holds strong keys; a weak key that was put there
otherwise is installed like any other.
-/

namespace Keyring

/-- The modulus has the least number of bits that may sign. -/
def Key.IsStrong (k : Key) : Prop := minBits ≤ k.secret.modulus.log2 + 1

instance (k : Key) : Decidable k.IsStrong := inferInstanceAs (Decidable (_ ≤ _))

namespace Rotation

open Store

variable {σ ι : Type} {r : Rotater} {trace : Trace} {key : Key}

/-! ## Installed keys -/

/-- Keys that a rotater generates are strong. -/
theorem Trace.Sound.isStrong_of_generated (h : trace.Sound r.keyStrength)
    (hkey : (r.keyStrength, key) ∈ trace.generated) : key.IsStrong := by
  rw [Key.IsStrong, h.genuine _ hkey]
  exact r.minBits_le

/-- All that an errand installs is strong exactly if what it read and installs is. -/
theorem Trace.Sound.isStrong_iff (h : trace.Sound r.keyStrength) :
    (∀ key ∈ trace.installed, key.IsStrong) ↔ ∀ key ∈ trace.installed, key ∈ trace.found →
      key.IsStrong := by
  constructor
  · exact fun hstrong key hkey _ => hstrong key hkey
  · intro hfound key hkey
    rcases h.origin key hkey with hgenerated | hread
    · exact h.isStrong_of_generated hgenerated
    · exact hfound key hkey hread

/-- After a restore that came out well: exactly if all that it read is. -/
theorem Trace.Sound.isStrong_iff_found (h : trace.Sound r.keyStrength)
    (hinstalls : ∀ key ∈ trace.found, key ∈ trace.installed) :
    (∀ key ∈ trace.installed, key.IsStrong) ↔ ∀ key ∈ trace.found, key.IsStrong := by
  rw [h.isStrong_iff]
  exact ⟨fun hstrong key hkey => hstrong key (hinstalls key hkey) hkey,
    fun hstrong key _ hkey => hstrong key hkey⟩

/-- What a call of an errand passes to the store is the document of a strong key. -/
theorem Trace.Sound.isStrong_of_blob (h : trace.Sound r.keyStrength) {c : Call} {blob : Bytes}
    (hmay : (traceRules r.keyStrength).may trace (.store c)) (hblob : blob ∈ c.blob?) :
    ∃ key : Key, key.toPem = .ok blob ∧ key.IsStrong := by
  cases c with
  | read name => contradiction
  | create name document ttl =>
      obtain rfl := Option.some.inj hblob
      obtain ⟨-, key, hkey, hpem⟩ := hmay
      exact ⟨key, hpem, h.isStrong_of_generated hkey⟩
  | write name document ttl => exact hmay.elim

/-- A process is as strong as what it reads from the store. -/
structure Tenant.AsStrongAsRead (x : Tenant) : Prop where
  /-- What is in the window was installed on one of the errands. -/
  window : ∀ key ∈ x.window.toList, x.Installed key
  /-- All that an errand installs is strong exactly if what it read and installs is. -/
  errand : ∀ trace ∈ x.traces,
    (∀ key ∈ trace.installed, key.IsStrong) ↔ ∀ key ∈ trace.installed, key ∈ trace.found →
      key.IsStrong
  /-- A restore that came out well installs strong keys exactly if all that it read are strong. -/
  restore : ∀ d ∈ x.records, d.errand = .restore → ∀ b, d.outcome = some (.restored (.ok b)) →
    ((∀ key ∈ d.trace.installed, key.IsStrong) ↔ ∀ key ∈ d.trace.found, key.IsStrong)

/-- The keys of a sound process are as strong as the settings say, or were read from the store. -/
theorem Tenant.Sound.asStrongAsRead {x : Tenant} (h : x.Sound r.keyStrength) :
    x.AsStrongAsRead where
  window := h.window
  errand _ htrace := (h.of_mem htrace).isStrong_iff
  restore d hd he b ho := by
    have hinstalls := (h.records d hd).installs _ ho
    rw [he] at hinstalls
    exact (h.records d hd).origin.isStrong_iff_found hinstalls

namespace Tenants

/-- Whatever the store holds and whatever happens, every process is as strong as what it reads. -/
theorem asStrongAsRead_run [DecidableEq ι] (B : ι → Backend σ) (r : ι → Rotater) (now : Duration)
    (s : σ) (ms : List (Move ι)) (i : ι) :
    ((run B r ms { now, server := s }).tenant i).AsStrongAsRead :=
  (sound_run now s ms i).asStrongAsRead

/-! ## Planted keys -/

/-- A store in which someone put a key of six bits as that of bucket 10. -/
def planted : Memory where
  ledger := ⟨[("rsa:10", ⟨Key.small55.toPem.toOption.getD [], .ofSeconds 86400⟩)]⟩

/-- A process restores in bucket 10. -/
def restoring : List (Move Unit) :=
  [.begin .restore, .answer .served, .answer .served, .answer .served, .answer .served,
    .conclude].map (.act ())

/-- It comes out well, and the process signs with the weak key. -/
theorem weak_planted :
    let x := (run (fun _ => Memory.backend) (fun _ => Peers.hourly) restoring
      { now := .ofSeconds 36000, server := planted }).tenant ()
    x.records.map (·.outcome) = [some (.restored (.ok (.clamp 10)))] ∧ x.window = .one .small55 ∧
      ¬ Key.small55.IsStrong := by
  decide +kernel

/-! ## Fresh stores -/

/-- The second server is what calls made of the first one that passed the documents of strong keys
or none. -/
def StronglyFilled (B : Backend σ) (s s' : σ) : Prop :=
  ∃ calls, s' = (serve B.reply calls s).2 ∧
    ∀ x ∈ calls, ∀ blob ∈ x.2.blob?, ∃ key : Key, key.toPem = .ok blob ∧ key.IsStrong

/-- The store was filled with strong keys alone, and all keys that were read from it are strong. -/
structure Fresh (B : Backend σ) (s : σ) (t : Tenants ι σ) : Prop where
  server : StronglyFilled B s t.server
  found : ∀ i, ∀ trace ∈ (t.tenant i).traces, ∀ key ∈ trace.found, key.IsStrong

theorem fresh_start (B : Backend σ) (s : σ) (now : Duration) :
    Fresh B s ({ now, server := s } : Tenants ι σ) where
  server := ⟨[], rfl, fun _ h => by contradiction⟩
  found _ _ h := by contradiction

variable {B : Backend σ} {s : σ} {t : Tenants ι σ} {r : ι → Rotater} {i : ι} {x' : Tenant} {s' : σ}

/-- The server of a fresh store after a step. -/
theorem Fresh.server_step (h : Fresh B s t) (hsound : t.Sound r)
    (hstep : Tenant.Step B (r i) t.now (t.tenant i) t.server x' s') : StronglyFilled B s s' := by
  cases hstep with
  | idle | begin e hjob | close hjob hdone => exact h.server
  | answer hjob hanswer =>
      rcases Response.server_of_answer? hanswer with rfl | ⟨c, rfl, rfl⟩
      · exact h.server
      · obtain ⟨calls, hserver, hblobs⟩ := h.server
        obtain ⟨hrest, horigin⟩ := (hsound i).job _ hjob
        refine ⟨calls ++ [(t.now, c)], ?_, fun x hx blob hblob => ?_⟩
        · rw [serve_concat, ← hserver]
          rfl
        · rcases List.mem_append.mp hx with hx | hx
          · exact hblobs x hx blob hblob
          · obtain rfl := List.mem_singleton.mp hx
            exact horigin.isStrong_of_blob hrest.1 hblob

/-- What is read from a fresh store is the document of a strong key. -/
theorem Fresh.isStrong_of_read (h : Fresh B s t) (hblind : B.Blind s) {name : String} {pem : Bytes}
    {key : Key} (hread : (B.call t.now (.read name) t.server).1 = .ok (some pem))
    (hpem : Key.ofPem pem = .ok key) : key.IsStrong := by
  obtain ⟨calls, hserver, hblobs⟩ := h.server
  have hfound : .found (some pem) ∈ (serve B.reply (calls ++ [(t.now, .read name)]) s).1 := by
    rw [serve_concat, ← hserver, Backend.reply, hread]
    exact List.mem_append_right _ List.mem_cons_self
  obtain ⟨x, hx, hblob⟩ := hblind.mem_of_found hfound
  rcases List.mem_append.mp hx with hx | hx
  · obtain ⟨key', hkey', hstrong⟩ := hblobs x hx pem hblob
    obtain rfl := Except.ok.inj ((Key.ofPem_toPem hkey').symm.trans hpem)
    exact hstrong
  · obtain rfl := List.mem_singleton.mp hx
    contradiction

variable [DecidableEq ι]

theorem Fresh.move (h : Fresh B s t) (hblind : B.Blind s) (hsound : t.Sound r) (m : Move ι) :
    Fresh B s (t.move (fun _ => B) r m) := by
  cases m with
  | clock now => exact ⟨h.server, h.found⟩
  | act i a =>
      have hstep := Tenant.step_act B (r i) t.now (t.tenant i) t.server a
      refine ⟨h.server_step hsound hstep, fun j trace htrace key hkey => ?_⟩
      by_cases hj : j = i
      · subst hj
        simp only [Tenants.move, Function.update_self] at htrace
        rcases hstep.traces htrace with htrace | rfl | ⟨trace₀, htrace₀, q, answer, response,
          hanswer, rfl⟩
        · exact h.found j trace htrace key hkey
        · contradiction
        · rcases Trace.mem_found_concat.mp hkey with hkey | hkey
          · exact h.found j trace₀ htrace₀ key hkey
          · obtain ⟨name, pem, hexchange, hpem⟩ := Exchange.found?_eq_some hkey
            obtain ⟨rfl, ⟨⟩⟩ := Exchange.mk.inj hexchange
            exact h.isStrong_of_read hblind (congrArg Prod.fst (Response.call_of_answer? hanswer))
              hpem
      · simp only [Tenants.move, Function.update_of_ne hj] at htrace
        exact h.found j trace htrace key hkey

/-- On a store that was empty at the start and that only rotaters use, all keys in all windows are
strong. -/
theorem isStrong_of_blind (hblind : B.Blind s) (r : ι → Rotater) (now : Duration)
    (ms : List (Move ι)) (i : ι) :
    ∀ key ∈ ((run (fun _ => B) r ms { now, server := s }).tenant i).window.toList,
      key.IsStrong := by
  have hrun : ∀ t : Tenants ι σ, Fresh B s t → t.Sound r → Fresh B s (run (fun _ => B) r ms t) := by
    induction ms with
    | nil => exact fun t h _ => h
    | cons m ms ih => exact fun t h hsound => ih _ (h.move hblind hsound m) (hsound.move m)
  have hfresh := hrun _ (fresh_start B s now) fun _ => Tenant.sound_start _
  have hsound := (sound_run (B := fun _ => B) now s ms : Tenants.Sound r _) i
  intro key hkey
  obtain ⟨trace, htrace, hinstalled⟩ := hsound.window key hkey
  have hfound : ∀ key ∈ trace.installed, key ∈ trace.found → key.IsStrong :=
    fun key _ hkey => hfresh.found i trace htrace key hkey
  exact (hsound.of_mem htrace).isStrong_iff.mpr hfound key hinstalled

end Tenants

end Rotation

end Keyring
