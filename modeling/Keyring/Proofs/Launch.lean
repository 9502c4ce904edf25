import Keyring.Launch
import Keyring.Proofs.Config.Validity
import Keyring.Proofs.Logging.Filter

/-! # Valid settings are enough

What is built from valid settings can be built: a vault from the secrets, a rotater from the
rotation and a memory store. So of the things that a process with a memory store does to come up,
only the restore of its window can fail.
-/

namespace Keyring

open Launch Logging Rotation Simulation

/-! ## The parts -/

/-- A key of 64 digits gives a vault. -/
theorem Vault.exists_ofHex {key : String} (h : Settings.isHexKey key) :
    ∃ v, Vault.ofHex key = .ok v := by
  rw [Settings.isHexKey, Bool.and_eq_true, decide_eq_true_iff, List.all_eq_true] at h
  obtain ⟨bs, hbs, hlength⟩ := Hex.exists_decode?_trim (n := 32) h.1 h.2
  rw [ofHex, hbs]
  exact ⟨⟨bs, hlength⟩, dif_pos hlength⟩

/-- A positive interval and a strength that is not too small give a rotater. -/
theorem Rotation.Rotater.exists_create {interval : Duration} {keyStrength : Nat}
    (hinterval : 0 < interval.nanos) (hbits : Key.minBits ≤ keyStrength) :
    ∃ r, create interval keyStrength = .ok r := by
  rw [create, dif_pos hinterval, dif_pos hbits]
  exact ⟨_, rfl⟩

/-- The memory store takes any settings. -/
theorem Store.exists_openStore {s : StoreSettings} (h : s.isMemory) :
    ∃ m, openStore s = .ok (.memory m) := by
  have hprovider : s.provider = Provider.memory.name := beq_iff_eq.mp h
  rw [openStore, hprovider, Provider.ofName?_name]
  exact ⟨_, rfl⟩

namespace Settings.Valid

variable {s : Settings}

/-- Valid settings give a vault. -/
theorem exists_vault (h : s.Valid) : ∃ v, s.secrets.vault = .ok v := by
  have hsecret := h.secret
  rw [SecretSettings.isConfigured, Bool.or_eq_true] at hsecret
  rw [SecretSettings.vault]
  cases hkey : SecretSettings.nonempty s.secrets.encryptionKey with
  | some key => exact Vault.exists_ofHex (h.encryptionKey key hkey)
  | none =>
      cases hbase : SecretSettings.nonempty s.secrets.secretKeyBase with
      | some base => exact ⟨_, rfl⟩
      | none =>
          rw [hkey, hbase] at hsecret
          simp at hsecret

/-- Valid settings give a rotater. -/
theorem exists_rotater (h : s.Valid) :
    ∃ r, Rotater.create s.rotation.interval s.rotation.keyStrength = .ok r := by
  refine Rotater.exists_create ?_ h.keyStrength
  have hpos := h.interval
  rw [RotationSettings.interval, Duration.ofSeconds, Duration.nanos_ofNanos,
    Duration.nanosPerSecond, Duration.maxNanos]
  omega

/-- Valid settings give all the parts of a process. -/
theorem exists_plan (h : s.Valid) : ∃ plan, App.Plan.ofSettings s = .ok plan := by
  obtain ⟨v, hv⟩ := h.exists_vault
  obtain ⟨r, hr⟩ := h.exists_rotater
  rw [App.Plan.ofSettings, hv, hr]
  exact ⟨_, rfl⟩

end Settings.Valid

/-! ## Coming up -/

namespace Launch

variable {α β : Type} {x : Logged α} {f : α → Logged β} {log log' : Log} {s : Settings} {m : Means}

/-- A step that succeeds hands its value and its log to the next. -/
theorem run_bind_ok {a : α} (h : x.run.run log = (.ok a, log')) :
    (x >>= f).run.run log = (f a).run.run log' := by
  show ExceptT.bindCont f (x.run.run log).1 (x.run.run log).2 = _
  rw [h]
  rfl

/-- A step that does not log leaves the log as it is. -/
theorem run_lift {x : Except Error α} {y : Except Error α} (h : x = y) (log : Log) :
    (liftM x : Logged α).run.run log = (y, log) := by
  rw [h]
  rfl

/-- A step that logs succeeds. -/
theorem run_record (level : Level) (target message : String) (values : List (String × String))
    (log : Log) :
    (record level target message values).run.run log =
      (.ok (), log.emit ⟨level, target, message, values⟩) := rfl

/-- Logging a restore succeeds, whatever it found. -/
theorem exists_recordRestore (a : App) (found : Bool) (log : Log) :
    ∃ log', (recordRestore a found).run.run log = (.ok (), log') := by
  obtain ⟨plan, window, restored⟩ := a
  cases window <;> cases found <;> exact ⟨_, rfl⟩

/-- Logging can be installed at a level that has a meaning, unless it was before. -/
theorem exists_install (environment : Option String) {s : LogSettings} {level : Level}
    (hlevel : Level.parse s.level = .ok level) (hlog : log.installed = none) :
    ∃ log', Log.install environment s log = (.ok (), log') :=
  ⟨_, Prod.ext (Log.install_eq_ok hlevel hlog environment).1 rfl⟩

/-- Brings a process up with settings that were loaded, and keeps no log. -/
def wire (s : Settings) (m : Means) : Except Error (App × Scene Shelf) := do
  let opened ← App.openStore s
  let plan ← App.Plan.ofSettings s
  let started :=
    App.start plan (Scene.world (shelf plan.vault)) ⟨m.clock, (opened, m.nonces), m.keys⟩
  started.1.map fun app => (app, started.2)

/-- A process whose settings were loaded comes to the same as with them alone: neither logging nor
what is logged makes it fail. -/
theorem run_bringUp {l : Config.Loader} {h : Host} (hload : l.load h = .ok s)
    (hlog : log.installed = none) : ((bringUp l h m).run.run log).1 = wire s m := by
  obtain ⟨level, hlevel⟩ := (Config.Loader.load_eq_ok_iff_read.mp hload).2.level
  obtain ⟨log₁, hinstall⟩ := exists_install (h.environment? Log.filterVariable) hlevel hlog
  have hinstall :
      (ExceptT.mk (Log.install (h.environment? Log.filterVariable) s.logging) :
        Logged Unit).run.run log =
      (.ok (), log₁) := hinstall
  rw [bringUp, run_bind_ok (run_lift hload log), run_bind_ok hinstall, wire]
  cases App.openStore s with
  | error e => rfl
  | ok opened =>
      rw [run_bind_ok (run_lift rfl log₁), run_bind_ok (run_record _ _ _ _ log₁), Except.ok_bind]
      generalize log₁.emit _ = log₂
      cases App.Plan.ofSettings s with
      | error e => rfl
      | ok plan =>
          rw [run_bind_ok (run_lift rfl log₂), Except.ok_bind]
          dsimp only
          generalize App.start plan _ _ = started
          obtain ⟨e | app, scene⟩ := started
          · rfl
          · generalize Option.isSome _ = found
            obtain ⟨log₃, hrestore⟩ := exists_recordRestore app found log₂
            exact congrArg Prod.fst (run_bind_ok hrestore)

end Launch

/-- Only the restore decides whether a process comes up. -/
theorem App.start_eq {σ : Type} (plan : Plan) (w : World σ) (s : σ) :
    (start plan w s).1 = (plan.rotater.restore.run.run w .empty s).1.map fun b =>
      ⟨plan, (plan.rotater.restore.run.run w .empty s).2.1, b⟩ := by
  rw [start]
  generalize Rotation.Program.run _ _ _ _ = outcome
  obtain ⟨e | b, window, s'⟩ := outcome <;> rfl

/-- Settings with a memory store lead to a plan and a store, and a process comes up with them unless
the restore of its window fails. -/
def Launch.OnlyRestoreFails (s : Settings) (process : Means → Except Error (App × Scene Shelf)) :
    Prop :=
  ∃ (plan : App.Plan) (store : Store.Memory), App.Plan.ofSettings s = .ok plan ∧
    App.openStore s = .ok (.memory store) ∧ ∀ (m : Means) (e : Error), process m = .error e ↔
      (plan.rotater.restore.run.run (Scene.world (shelf plan.vault)) .empty
        ⟨m.clock, (.memory store, m.nonces), m.keys⟩).1 = .error e

/-- With valid settings and a memory store, all but the restore succeeds. -/
theorem Settings.Valid.onlyRestoreFails {s : Settings} (h : s.Valid)
    (hmemory : s.blobStore.isMemory) : OnlyRestoreFails s (wire s) := by
  obtain ⟨plan, hplan⟩ := h.exists_plan
  obtain ⟨store, hstore⟩ := Store.exists_openStore hmemory
  have hopen : App.openStore s = .ok (.memory store) := by
    rw [App.openStore, hstore]
    rfl
  refine ⟨plan, store, hplan, hopen, fun m e => ?_⟩
  rw [wire, hopen, hplan, Except.ok_bind, Except.ok_bind, Except.map_eq_error_iff, App.start_eq,
    Except.map_eq_error_iff]

/-- A process that loads its settings and logs fails no more often. -/
theorem Launch.onlyRestoreFails_bringUp {l : Config.Loader} {h : Host} {s : Settings} {log : Log}
    (hload : l.load h = .ok s) (hmemory : s.blobStore.isMemory) (hlog : log.installed = none) :
    OnlyRestoreFails s fun m => ((bringUp l h m).run.run log).1 := by
  have hwire : (fun m => ((bringUp l h m).run.run log).1) = wire s := by
    funext m
    exact run_bringUp hload hlog
  rw [hwire]
  exact (Config.Loader.load_eq_ok_iff_read.mp hload).2.onlyRestoreFails hmemory

/-- What can be built from settings. -/
structure Settings.Usable (s : Settings) : Prop where
  vault : ∃ v, s.secrets.vault = .ok v
  rotater : ∃ r, Rotater.create s.rotation.interval s.rotation.keyStrength = .ok r
  store : s.blobStore.isMemory → ∃ m, Store.openStore s.blobStore = .ok (.memory m)
  process : s.blobStore.isMemory → OnlyRestoreFails s (wire s)

/-- All settings that pass the checks are usable. -/
theorem Settings.usable_of_validate {s : Settings} (h : s.validate = .ok ()) : s.Usable := by
  have hvalid := validate_eq_ok_iff.mp h
  exact ⟨hvalid.exists_vault, hvalid.exists_rotater, Store.exists_openStore,
    hvalid.onlyRestoreFails⟩

/-- The shortest interval, the smallest keys and the smallest store, with an empty secret and an
explicit key. -/
def Settings.smallest : Settings where
  rotation := { intervalSecs := 1, keyStrength := 1024 }
  blobStore := { maxSize := some 1 }
  secrets :=
    { secretKeyBase := some ""
      encryptionKey := some "00112233445566778899aabbccddeeffFFEEDDCCBBAA99887766554433221100" }
  logging := { level := "Warning" }

/-- The least settings that are valid are usable. -/
theorem Settings.usable_smallest :
    smallest.validate = .ok () ∧ smallest.blobStore.isMemory ∧ smallest.Usable := by
  have hvalidate : smallest.validate = .ok () := by decide
  exact ⟨hvalidate, by decide, usable_of_validate hvalidate⟩

end Keyring
