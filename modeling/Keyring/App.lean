import Keyring.Config.Settings
import Keyring.Rotation.Maintenance
import Keyring.Store.Registry
import Keyring.Store.Sealed

/-! # The application

Settings wired into a process: a vault from the secrets, a rotater from the interval and key size,
and the configured store under the vault's seal. A process is up once its window is restored; until
then nothing runs in the background.
-/

namespace Keyring

open Rotation

/-- What settings are turned into before the store is touched. -/
structure App.Plan where
  settings : Settings
  vault : Vault
  rotater : Rotater

/-- A process that has its keys. -/
structure App where
  plan : App.Plan
  window : KeyWindow
  /-- The bucket that was current at the start. -/
  restored : Bucket

namespace App

/-- Builds the vault and the rotater, in this order. -/
def Plan.ofSettings (s : Settings) : Except Error Plan := do
  let vault ← s.secrets.vault
  let rotater ← Rotater.create s.rotation.interval s.rotation.keyStrength
  return ⟨s, vault, rotater⟩

/-- Opens the configured store. -/
def openStore (s : Settings) : Except Error Store.Opened :=
  (Store.openStore s.blobStore).mapError fun text =>
    .plain .configuration (Error.describe "BlobStore" text)

/-- Restores the window in a world whose store is sealed by the plan's vault. -/
def start {σ : Type} (plan : Plan) (w : World σ) (s : σ) : Except Error App × σ :=
  match plan.rotater.restore.run.run w .empty s with
  | (.ok restored, window, s) => (.ok ⟨plan, window, restored⟩, s)
  | (.error e, _, s) => (.error e, s)

/-- The public keys that verify tokens now. -/
def jwks (a : App) : JwkSet := a.window.jwks

/-- The maintenance of the process's window. -/
def maintenance (a : App) : Maintenance := .start a.plan.rotater a.window a.restored

/-- The text of an application in diagnostics, given that of its backend. -/
def debug (a : App) (backend : String) : String :=
  let store := Store.Sealed.debug backend
  Text.Quoted.showOpenRecord "AppContext"
    [("blob_store", store), ("key_store", a.window.debug), ("rotater", a.plan.rotater.debug store),
     ("restored", a.restored.debug)]

end App

end Keyring
