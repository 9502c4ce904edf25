import Keyring.Time.Duration
import Keyring.Vault

/-! # Settings

What a process is configured with: the rotation of keys, the store they are shared through, the
secrets they are sealed under, and logging. Every field has a default. An empty secret counts as
absent, and of two secrets the explicit key is used.
-/

namespace Keyring

/-- How keys rotate. -/
structure RotationSettings where
  /-- The width of a bucket in seconds. -/
  intervalSecs : Nat := 3600
  /-- The size of generated moduli in bits. -/
  keyStrength : Nat := 2048
  deriving DecidableEq, Repr

/-- Which store holds the keys. -/
structure StoreSettings where
  /-- The registered name of the backend. -/
  provider : String := "memory"
  uri : Option String := none
  /-- What every blob name is prefixed with. -/
  spaceName : Option String := none
  /-- How many entries the memory store holds. -/
  maxSize : Option Nat := none
  /-- How many connections a pooled backend opens. -/
  poolSize : Option Nat := none
  deriving DecidableEq, Repr

/-- What stored keys are sealed under. -/
structure SecretSettings where
  /-- An application secret from which the master key is derived. -/
  secretKeyBase : Option String := none
  /-- The master key in hexadecimal. -/
  encryptionKey : Option String := none
  deriving DecidableEq, Repr

/-- What is logged, and where. -/
structure LogSettings where
  level : String := "info"
  /-- Whether events are written as JSON. -/
  jsonFormat : Bool := false
  /-- A file that is started anew each day. -/
  fileOutput : Option String := none
  deriving DecidableEq, Repr

/-- All settings of a process. -/
structure Settings where
  rotation : RotationSettings := {}
  blobStore : StoreSettings := {}
  secrets : SecretSettings := {}
  logging : LogSettings := {}
  deriving DecidableEq, Repr

/-- The width of a bucket. -/
def RotationSettings.interval (s : RotationSettings) : Duration :=
  .ofSeconds s.intervalSecs

/-- Whether keys stay in one process. -/
def StoreSettings.isMemory (s : StoreSettings) : Bool :=
  s.provider == "memory"

namespace SecretSettings

/-- A text that is present and not empty. -/
def nonempty (s : Option String) : Option String :=
  s.filter (!·.isEmpty)

/-- Whether any secret is set. -/
def isConfigured (s : SecretSettings) : Bool :=
  (nonempty s.encryptionKey).isSome || (nonempty s.secretKeyBase).isSome

/-- The error of settings without a secret. -/
def missing : Error :=
  .plain .configuration "Either secrets.encryption_key or secrets.secret_key_base must be set"

/-- The vault that the secrets give. -/
def vault (s : SecretSettings) : Except Error Vault :=
  match nonempty s.encryptionKey, nonempty s.secretKeyBase with
  | some key, _ => Vault.ofHex key
  | none, some secret => .ok (Vault.ofSecret secret)
  | none, none => .error missing

/-- Shows whether a secret is present, never the secret. -/
def redact (s : Option String) : String :=
  Text.Quoted.showOption (s.map fun _ => Text.Quoted.quote "<redacted>")

/-- The text of secrets in diagnostics. -/
def debug (s : SecretSettings) : String :=
  Text.Quoted.showRecord "SecretsConfig"
    [("secret_key_base", redact s.secretKeyBase), ("encryption_key", redact s.encryptionKey)]

end SecretSettings

end Keyring
