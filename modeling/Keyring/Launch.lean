import Keyring.App
import Keyring.Config.Loader
import Keyring.Json.Pretty
import Keyring.Logging.Log
import Keyring.Simulation.Fleet

/-! # Launching a process

From settings to a window of keys: settings are loaded, logging is installed, the store is opened
and the window is restored. The first failure ends the launch, and what was logged until then stays.
A check shows the public keys and ends; it meets no rival, so a key that is not stored yet is
generated and won.
-/

namespace Keyring.Launch

open Logging Rotation Simulation

/-- Work that may fail and keeps a log. -/
abbrev Logged (α : Type) := ExceptT Error (StateM Log) α

/-- Reports an event. -/
def record (level : Level) (target message : String) (values : List (String × String)) :
    Logged Unit :=
  modify (·.emit ⟨level, target, message, values⟩)

/-- What a process starts with, apart from its host. -/
structure Means where
  clock : Clock
  /-- Where nonces come from. -/
  nonces : Entropy
  /-- Where keys come from. -/
  keys : Entropy

/-- A store and the source of its nonces. -/
abbrev Shelf := Store.Opened × Entropy

/-- A shelf as a store whose blobs are sealed. -/
def shelf (v : Vault) : Store.Backend Shelf := Store.Sealed.backend v Store.Opened.backend

/-- The part that wires the process. -/
def wiring : String := "authkeys_infrastructure::di::bootstrap"

/-- The part that rotates keys. -/
def rotation : String := "authkeys_application::use_cases::key_rotation"

/-- The part that watches over tasks. -/
def supervision : String := "authkeys_infrastructure::shutdown"

/-- Reports how a window was restored; `found` tells whether the current key was stored. -/
def recordRestore (a : App) (found : Bool) : Logged Unit := do
  let bucket := a.restored.display
  if let .two older _ := a.window then
    record .debug rotation "Restored previous key"
      [("bucket", a.restored.previous.display), ("key_id", older.id)]
  let id := (a.window.current?.map Key.id).getD ""
  if found then
    record .info rotation "Restored current key" [("bucket", bucket), ("key_id", id)]
  else
    record .debug rotation "No stored key for current bucket" [("bucket", bucket)]
    record .info rotation "Generated key won" [("bucket", bucket), ("key_id", id)]

/-- Brings a process up. -/
def bringUp (l : Config.Loader) (h : Host) (m : Means) : Logged (App × Scene Shelf) := do
  let settings ← l.load h
  ExceptT.mk fun log => Log.install (h.environment? Log.filterVariable) settings.logging log
  let opened ← App.openStore settings
  record .info wiring "Resolved blob store" [("provider", opened.provider.name)]
  let plan ← App.Plan.ofSettings settings
  let scene : Scene Shelf := ⟨m.clock, (opened, m.nonces), m.keys⟩
  let world := Scene.world (shelf plan.vault)
  let stored := ((Rotater.find (plan.rotater.bucketAt m.clock.now)).run.run world .empty scene).1
  match App.start plan world scene with
  | (.error e, _) => throw e
  | (.ok app, scene) =>
    recordRestore app (stored.toOption.bind id).isSome
    record .debug supervision "Spawning tracked task" [("task", "key-rotation")]
    record .info wiring "Key store ready"
      [("bucket", app.restored.display), ("keys", toString app.window.size),
       ("interval_secs", toString settings.rotation.intervalSecs)]
    return (app, scene)

/-- How many seconds background tasks have to end. -/
def shutdownSeconds : Nat := 30

/-- Reports an orderly end. -/
def recordEnd : Logged Unit := do
  record .info supervision "Initiating shutdown"
    [("timeout_secs", toString shutdownSeconds), ("active_tasks", "1")]
  record .info rotation "Key rotation stopped" []
  record .info supervision "All background tasks stopped" []

/-- The fleet of one process that was brought up. -/
def fleetOf (a : App) (s : Scene Shelf) : Fleet Shelf :=
  ⟨shelf a.plan.vault, s,
    [{ maintenance := a.maintenance, restored := .ok a.restored, spawned := true }]⟩

/-- Reports the failures of a loop, and that a key was rotated in if one was. -/
def recordTurn (before : KeyWindow) (m : Maintenance) : Logged Unit := do
  for e in m.reports do
    record .warn rotation "Key rotation failed" [("error", e.message)]
    record .error "authkeys_infrastructure::reporting" "Background key maintenance failed"
      [("error", e.message), ("integrity_failure", toString e.isIntegrityFailure)]
  if let some key := m.window.current? then
    unless before.current?.any (·.same key) do
      record .info rotation "Rotated signing key" [("key_id", key.id)]

/-- Lets a fleet do all that can be done at a moment, and reports it. -/
def turn (clock : Clock) (f : Fleet Shelf) : Logged (Fleet Shelf) := do
  let after := { f with scene := { f.scene with clock } }.settle
  for (before, m) in f.members.zip after.members do
    recordTurn before.maintenance.window m.maintenance
  return { after with members := after.members.map fun m =>
    { m with maintenance := { m.maintenance with reports := [] } } }

/-- Brings a process up, shows its public keys and ends. -/
def check (l : Config.Loader) (h : Host) (m : Means) : Logged JwkSet := do
  let (app, _) ← bringUp l h m
  for key in app.window.toList do
    record .info "authkeys" "Key in window" [("key_id", key.id), ("bits", toString key.bits)]
  modify (·.print app.jwks.toJson.pretty)
  recordEnd
  return app.jwks

end Keyring.Launch
