import Keyring.Config.Loader
import Keyring.Proofs.Except
import Mathlib.Logic.Basic

/-! # What valid settings are

The checks let settings through exactly if every field has a value that the parts built from them
can use.
-/

namespace Keyring.Settings

/-- Settings that pass the checks. -/
structure Valid (s : Settings) : Prop where
  interval : 0 < s.rotation.intervalSecs
  keyStrength : Key.minBits ≤ s.rotation.keyStrength
  provider : s.blobStore.provider ≠ ""
  /-- A shared store has an address. -/
  address : s.blobStore.isMemory ∨ s.blobStore.uri.getD "" ≠ ""
  maxSize : s.blobStore.maxSize ≠ some 0
  secret : s.secrets.isConfigured
  /-- An explicit key is 64 digits. -/
  encryptionKey : ∀ key ∈ SecretSettings.nonempty s.secrets.encryptionKey, isHexKey key
  level : ∃ level, Level.parse s.logging.level = .ok level

/-- A check that was passed. -/
theorem refuse_eq_ok_iff {refused : Prop} [Decidable refused] {detail : String}
    {x : Except Error Unit} :
    (if refused then refuse detail else x) = .ok () ↔ ¬ refused ∧ x = .ok () := by
  split
  · next h => exact iff_of_false (fun hrefuse => by contradiction) fun hpassed => hpassed.1 h
  · next h => exact (and_iff_right h).symm

/-- What the check of the rotation accepts. -/
theorem checkRotation_eq_ok_iff {s : RotationSettings} :
    checkRotation s = .ok () ↔ 0 < s.intervalSecs ∧ Key.minBits ≤ s.keyStrength := by
  rw [checkRotation, refuse_eq_ok_iff, refuse_eq_ok_iff, Nat.pos_iff_ne_zero, Nat.not_lt]
  exact and_congr_right fun _ => and_iff_left rfl

/-- What the check of the store accepts. -/
theorem checkStore_eq_ok_iff {s : StoreSettings} :
    checkStore s = .ok () ↔
      s.provider ≠ "" ∧ (s.isMemory ∨ s.uri.getD "" ≠ "") ∧ s.maxSize ≠ some 0 := by
  have haddress :
      (¬ (!s.isMemory && (s.uri.getD "").isEmpty) = true) ↔ s.isMemory ∨ s.uri.getD "" ≠ "" := by
    rw [Bool.and_eq_true, String.isEmpty_iff, Bool.not_eq_true', not_and_or, Bool.not_eq_false]
  rw [checkStore, refuse_eq_ok_iff, refuse_eq_ok_iff, refuse_eq_ok_iff, String.isEmpty_iff,
    haddress]
  exact and_congr_right fun _ => and_congr_right fun _ => and_iff_left rfl

/-- What the check of the secrets accepts. -/
theorem checkSecrets_eq_ok_iff {s : SecretSettings} :
    checkSecrets s = .ok () ↔
      s.isConfigured ∧ ∀ key ∈ SecretSettings.nonempty s.encryptionKey, isHexKey key := by
  rw [checkSecrets]
  cases s.isConfigured with
  | false => exact iff_of_false (fun h => by contradiction) fun h => Bool.false_ne_true h.1
  | true =>
      cases SecretSettings.nonempty s.encryptionKey with
      | none => exact iff_of_true rfl ⟨rfl, fun _ h => by contradiction⟩
      | some key =>
          show (if isHexKey key then Except.ok () else refuse _) = .ok () ↔ _
          split
          · next hhex =>
              refine iff_of_true rfl ⟨rfl, ?_⟩
              rintro _ ⟨⟩
              exact hhex
          · next hhex => exact iff_of_false (fun h => by contradiction) fun h => hhex (h.2 key rfl)

/-- What the check of the log accepts. -/
theorem checkLogging_eq_ok_iff {s : LogSettings} :
    checkLogging s = .ok () ↔ ∃ level, Level.parse s.level = .ok level := by
  rw [checkLogging]
  cases Level.parse s.level with
  | error e => exact iff_of_false (fun h => by contradiction) fun ⟨_, h⟩ => by contradiction
  | ok level => exact iff_of_true rfl ⟨level, rfl⟩

/-- The checks let exactly the valid settings through. -/
theorem validate_eq_ok_iff {s : Settings} : s.validate = .ok () ↔ s.Valid := by
  rw [validate, Except.bind_unit_eq_ok_iff, Except.bind_unit_eq_ok_iff, Except.bind_unit_eq_ok_iff,
    checkRotation_eq_ok_iff, checkStore_eq_ok_iff, checkSecrets_eq_ok_iff, checkLogging_eq_ok_iff]
  constructor
  · rintro ⟨⟨interval, keyStrength⟩, ⟨provider, address, maxSize⟩, ⟨secret, encryptionKey⟩, level⟩
    exact { interval, keyStrength, provider, address, maxSize, secret, encryptionKey, level }
  · rintro ⟨interval, keyStrength, provider, address, maxSize, secret, encryptionKey, level⟩
    exact ⟨⟨interval, keyStrength⟩, ⟨provider, address, maxSize⟩, ⟨secret, encryptionKey⟩, level⟩

end Keyring.Settings

/-- Settings are loaded if they are read and valid. -/
theorem Keyring.Config.Loader.load_eq_ok_iff_read {l : Loader} {h : Host} {s : Settings} :
    l.load h = .ok s ↔ l.read h = .ok s ∧ s.Valid := by
  rw [load, Except.bind_eq_ok_iff, ← Settings.validate_eq_ok_iff]
  constructor
  · rintro ⟨s', hread, hchecked⟩
    obtain ⟨hvalid, heq⟩ := Except.bind_unit_eq_ok_iff.mp hchecked
    obtain rfl := Except.ok.inj heq
    exact ⟨Except.mapError_eq_ok_iff.mp hread, hvalid⟩
  · rintro ⟨hread, hvalid⟩
    exact ⟨s, Except.mapError_eq_ok_iff.mpr hread, Except.bind_unit_eq_ok_iff.mpr ⟨hvalid, rfl⟩⟩
