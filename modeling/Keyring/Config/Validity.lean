import Keyring.Config.Settings
import Keyring.Key
import Keyring.Logging.Level

/-! # Valid settings

The checks that settings pass before a process starts, in the order in which they are made:
rotation, store, secrets, logging.
-/

namespace Keyring.Settings

/-- A refusal of settings. -/
def refuse (detail : String) : Except Error Unit :=
  .error (.plain .configuration detail)

/-- Buckets have a width, and keys a least size. -/
def checkRotation (s : RotationSettings) : Except Error Unit :=
  if s.intervalSecs = 0 then refuse "Rotation interval cannot be 0"
  else if s.keyStrength < Key.minBits then
    refuse s!"RSA key strength must be at least {Key.minBits} bits, got {s.keyStrength}"
  else .ok ()

/-- A store has a name, a shared store an address, and a bounded store room. -/
def checkStore (s : StoreSettings) : Except Error Unit :=
  if s.provider.isEmpty then refuse "Blob store provider cannot be empty"
  else if !s.isMemory && (s.uri.getD "").isEmpty then
    refuse s!"Blob store provider '{s.provider}' requires a uri"
  else if s.maxSize = some 0 then refuse "Blob store max_size cannot be 0"
  else .ok ()

/-- Whether a text is a master key in hexadecimal. -/
def isHexKey (key : String) : Bool :=
  key.utf8ByteSize = 64 && key.toList.all Hex.isDigit

/-- A secret is set, and an explicit key is well formed. -/
def checkSecrets (s : SecretSettings) : Except Error Unit :=
  if !s.isConfigured then .error SecretSettings.missing
  else match SecretSettings.nonempty s.encryptionKey with
    | some key =>
      if isHexKey key then .ok () else refuse "secrets.encryption_key must be 64 hex characters"
    | none => .ok ()

/-- The level has a meaning. -/
def checkLogging (s : LogSettings) : Except Error Unit :=
  (Level.parse s.level).map fun _ => ()

/-- Checks all settings. -/
def validate (s : Settings) : Except Error Unit := do
  checkRotation s.rotation
  checkStore s.blobStore
  checkSecrets s.secrets
  checkLogging s.logging

end Keyring.Settings
