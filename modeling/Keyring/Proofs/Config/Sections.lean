import Keyring.Proofs.Config.Layout

/-! # The sections of the settings

The settings are a record of four sections, and each section is a record of its fields. So settings
can be read from a table exactly if each section can be read, and then each field is what its
section says, or has its default.
-/

namespace Keyring.Config

open Reading

/-! ## Fields -/

/-- The fields of the rotation. -/
inductive RotationField
  | intervalSecs
  | keyStrength

def rotationLayout : Layout RotationSettings where
  Index := RotationField
  Value _ := Nat
  name
    | .intervalSecs => "interval_secs"
    | .keyStrength => "key_strength"
  reading _ := nat maxWord64
  get
    | .intervalSecs, s => s.intervalSecs
    | .keyStrength, s => s.keyStrength
  put
    | .intervalSecs, v, s => { s with intervalSecs := v }
    | .keyStrength, v, s => { s with keyStrength := v }
  order := [.intervalSecs, .keyStrength]
  default := {}
  ext {s s'} h := by
    cases s
    cases s'
    congr
    · exact h .intervalSecs
    · exact h .keyStrength

/-- The fields of the store. -/
inductive StoreField
  | provider
  | uri
  | spaceName
  | maxSize
  | poolSize

def storeLayout : Layout StoreSettings where
  Index := StoreField
  Value
    | .provider => String
    | .uri | .spaceName => Option String
    | .maxSize | .poolSize => Option Nat
  name
    | .provider => "provider"
    | .uri => "uri"
    | .spaceName => "namespace"
    | .maxSize => "max_size"
    | .poolSize => "pool_size"
  reading
    | .provider => text
    | .uri | .spaceName => optional text
    | .maxSize => optional (nat maxWord64)
    | .poolSize => optional (nat maxWord32)
  get
    | .provider, s => s.provider
    | .uri, s => s.uri
    | .spaceName, s => s.spaceName
    | .maxSize, s => s.maxSize
    | .poolSize, s => s.poolSize
  put
    | .provider, v, s => { s with provider := v }
    | .uri, v, s => { s with uri := v }
    | .spaceName, v, s => { s with spaceName := v }
    | .maxSize, v, s => { s with maxSize := v }
    | .poolSize, v, s => { s with poolSize := v }
  order := [.provider, .uri, .spaceName, .maxSize, .poolSize]
  default := {}
  ext {s s'} h := by
    cases s
    cases s'
    congr
    · exact h .provider
    · exact h .uri
    · exact h .spaceName
    · exact h .maxSize
    · exact h .poolSize

/-- The fields of the secrets. -/
inductive SecretField
  | secretKeyBase
  | encryptionKey

def secretLayout : Layout SecretSettings where
  Index := SecretField
  Value _ := Option String
  name
    | .secretKeyBase => "secret_key_base"
    | .encryptionKey => "encryption_key"
  reading _ := optional text
  get
    | .secretKeyBase, s => s.secretKeyBase
    | .encryptionKey, s => s.encryptionKey
  put
    | .secretKeyBase, v, s => { s with secretKeyBase := v }
    | .encryptionKey, v, s => { s with encryptionKey := v }
  order := [.secretKeyBase, .encryptionKey]
  default := {}
  ext {s s'} h := by
    cases s
    cases s'
    congr
    · exact h .secretKeyBase
    · exact h .encryptionKey

/-- The fields of the log. -/
inductive LogField
  | level
  | jsonFormat
  | fileOutput

def logLayout : Layout LogSettings where
  Index := LogField
  Value
    | .level => String
    | .jsonFormat => Bool
    | .fileOutput => Option String
  name
    | .level => "level"
    | .jsonFormat => "json_format"
    | .fileOutput => "file_output"
  reading
    | .level => text
    | .jsonFormat => bool
    | .fileOutput => optional text
  get
    | .level, s => s.level
    | .jsonFormat, s => s.jsonFormat
    | .fileOutput, s => s.fileOutput
  put
    | .level, v, s => { s with level := v }
    | .jsonFormat, v, s => { s with jsonFormat := v }
    | .fileOutput, v, s => { s with fileOutput := v }
  order := [.level, .jsonFormat, .fileOutput]
  default := {}
  ext {s s'} h := by
    cases s
    cases s'
    congr
    · exact h .level
    · exact h .jsonFormat
    · exact h .fileOutput

/-! ## Sections -/

/-- The sections of the settings. -/
inductive Section
  | rotation
  | blobStore
  | secrets
  | logging

namespace Section

/-- What a section is read as. -/
def Value : Section → Type
  | .rotation => RotationSettings
  | .blobStore => StoreSettings
  | .secrets => SecretSettings
  | .logging => LogSettings

def layout : (sec : Section) → Layout sec.Value
  | .rotation => rotationLayout
  | .blobStore => storeLayout
  | .secrets => secretLayout
  | .logging => logLayout

def name : Section → String
  | .rotation => "rotation"
  | .blobStore => "blob_store"
  | .secrets => "secrets"
  | .logging => "logging"

def get : (sec : Section) → Settings → sec.Value
  | .rotation, s => s.rotation
  | .blobStore, s => s.blobStore
  | .secrets, s => s.secrets
  | .logging, s => s.logging

def put : (sec : Section) → sec.Value → Settings → Settings
  | .rotation, v, s => { s with rotation := v }
  | .blobStore, v, s => { s with blobStore := v }
  | .secrets, v, s => { s with secrets := v }
  | .logging, v, s => { s with logging := v }

end Section

def settingsLayout : Layout Settings where
  Index := Section
  Value := Section.Value
  name := Section.name
  reading sec := sec.layout.read
  get := Section.get
  put := Section.put
  order := [.rotation, .blobStore, .secrets, .logging]
  default := {}
  ext {s s'} h := by
    cases s
    cases s'
    congr
    · exact h .rotation
    · exact h .blobStore
    · exact h .secrets
    · exact h .logging

theorem readSettings_eq : readSettings false = settingsLayout.read := rfl

namespace Section

variable {sec : Section} {i : sec.layout.Index} {t lower : Tree} {s : Settings}

/-- The entries that a section is read from; a section that is not given has none. -/
def entries? (sec : Section) : Option Tree → Option (List (String × Tree))
  | none => some []
  | some t => sec.layout.entries? t

/-- Field `i` of a section of the settings is what the given tree says, or has its default. -/
def Sets (sec : Section) (i : sec.layout.Index) (given : Option Tree) (s : Settings) : Prop :=
  sec.layout.Sets i given sec.layout.default (sec.get s)

/-- A section is set exactly if each of its fields is set by what stands under its name. -/
theorem sets_iff {given : Option Tree} (h : ∀ t ∈ given, t.Tidy) :
    settingsLayout.Sets sec given settingsLayout.default s ↔
      ∃ es, sec.entries? given = some es ∧ ∀ i,
        sec.Sets i (Tree.lookup (sec.layout.name i) es) s := by
  cases given with
  | none =>
      have hdefault : sec.get {} = sec.layout.default := by cases sec <;> rfl
      show sec.get s = sec.get {} ↔ ∃ es, some [] = some es ∧ _
      rw [hdefault]
      constructor
      · intro hs
        refine ⟨[], rfl, fun i => ?_⟩
        rw [Sets, hs]
        rfl
      · rintro ⟨_, ⟨⟩, hsets⟩
        exact sec.layout.ext hsets
  | some t => exact Layout.read_eq_ok_iff (h t rfl)

/-- No field takes a table. -/
theorem reading_table {es : List (String × Tree)} :
    sec.layout.reading i (.table es) = wrongType := by
  cases sec <;> cases i <;> rfl

/-- A field is read from the upper layer alone. -/
theorem reading_merge : sec.layout.reading i (lower.merge t) = sec.layout.reading i t := by
  cases t with
  | table es => rw [Tree.merge_table, reading_table, reading_table]
  | _ => rw [Tree.merge_of_isTable rfl]

end Section

/-- Settings can be read from a table exactly if each section can be read. -/
theorem readSettings_eq_ok_iff {es : List (String × Tree)} {s : Settings}
    (h : Tree.Tidy (.table es)) :
    readSettings false (.table es) = .ok s ↔
      ∀ sec : Section, ∃ fs, sec.entries? (Tree.lookup sec.name es) = some fs ∧
        ∀ i, sec.Sets i (Tree.lookup (sec.layout.name i) fs) s := by
  rw [readSettings_eq, Layout.read_eq_ok_iff h]
  constructor
  · rintro ⟨_, ⟨⟩, hsets⟩ sec
    exact (Section.sets_iff fun t ht => h.inside _ (Tree.mem_of_lookup ht)).mp (hsets sec)
  · intro hsections
    refine ⟨es, rfl, fun sec => ?_⟩
    exact (Section.sets_iff fun t ht => h.inside _ (Tree.mem_of_lookup ht)).mpr (hsections sec)

end Keyring.Config
