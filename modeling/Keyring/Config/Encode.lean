import Keyring.Config.Settings
import Keyring.Json.Basic

/-! # Settings as JSON

Every field is written under the name it is read by; an absent one is `null`.
-/

namespace Keyring

namespace Config

/-- A text, if there is one. -/
def textOrNull (s : Option String) : Json := (s.map Json.str).getD .null

/-- A number, if there is one. -/
def natOrNull (n : Option Nat) : Json := (n.map fun n => Json.int n).getD .null

end Config

open Config

/-- Rotation settings as JSON. -/
def RotationSettings.toJson (s : RotationSettings) : Json :=
  .obj [("interval_secs", .int s.intervalSecs), ("key_strength", .int s.keyStrength)]

/-- Store settings as JSON. -/
def StoreSettings.toJson (s : StoreSettings) : Json :=
  .obj [("provider", .str s.provider), ("uri", textOrNull s.uri),
    ("namespace", textOrNull s.spaceName), ("max_size", natOrNull s.maxSize),
    ("pool_size", natOrNull s.poolSize)]

/-- Secret settings as JSON, in the clear. -/
def SecretSettings.toJson (s : SecretSettings) : Json :=
  .obj [("secret_key_base", textOrNull s.secretKeyBase),
    ("encryption_key", textOrNull s.encryptionKey)]

/-- Log settings as JSON. -/
def LogSettings.toJson (s : LogSettings) : Json :=
  .obj [("level", .str s.level), ("json_format", .bool s.jsonFormat),
    ("file_output", textOrNull s.fileOutput)]

/-- All settings as JSON. -/
def Settings.toJson (s : Settings) : Json :=
  .obj [("rotation", s.rotation.toJson), ("blob_store", s.blobStore.toJson),
    ("secrets", s.secrets.toJson), ("logging", s.logging.toJson)]

end Keyring
