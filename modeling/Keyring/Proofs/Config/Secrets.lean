import Keyring.Proofs.Launch

/-! # Secrets that give a vault

The checks and the vault read the secrets each in a way of its own: the vault takes a key in
hexadecimal with white space around it, while the checks take 64 digits and nothing else. Otherwise
they agree on all texts.
-/

namespace Keyring

theorem Vault.exists_ofKey_iff {key : Bytes} : (∃ v, ofKey key = .ok v) ↔ key.length = 32 := by
  rw [ofKey]
  split
  · next h => exact iff_of_true ⟨_, rfl⟩ h
  · next h => exact iff_of_false (fun ⟨_, hv⟩ => by contradiction) h

namespace Settings

/-- A text is a key in hexadecimal if it gives a vault and has no white space around it. -/
theorem isHexKey_iff {key : String} :
    isHexKey key ↔ (∃ v, Vault.ofHex key = .ok v) ∧ Text.trim key = key := by
  constructor
  · intro h
    refine ⟨Vault.exists_ofHex h, ?_⟩
    rw [isHexKey, Bool.and_eq_true, List.all_eq_true] at h
    exact Hex.trim_eq_self h.2
  · rintro ⟨⟨v, hv⟩, htrim⟩
    rw [Vault.ofHex, htrim] at hv
    split at hv
    · next bytes hbytes =>
        -- Nothing was trimmed, so all characters are digits: two for each of the 32 bytes, of one
        -- byte each.
        have hsize := Vault.exists_ofKey_iff.mp ⟨v, hv⟩
        obtain ⟨hlength, hdigits⟩ := Hex.digits_of_decodeChars hbytes
        have hascii := utf8ByteSize_eq_length fun c hc => Hex.toNat_lt_of_isDigit (hdigits c hc)
        rw [isHexKey, Bool.and_eq_true, decide_eq_true_iff, List.all_eq_true, hascii, hlength,
          hsize]
        exact ⟨rfl, hdigits⟩
    · contradiction

/-- Secrets pass the checks if they give a vault and an explicit key has no white space around
it. -/
theorem checkSecrets_iff_vault {s : SecretSettings} : checkSecrets s = .ok () ↔
    (∃ v, s.vault = .ok v) ∧ ∀ key ∈ SecretSettings.nonempty s.encryptionKey,
      Text.trim key = key := by
  rw [checkSecrets_eq_ok_iff, SecretSettings.isConfigured, SecretSettings.vault]
  cases SecretSettings.nonempty s.encryptionKey with
  | some key => simp [isHexKey_iff]
  | none => cases SecretSettings.nonempty s.secretKeyBase <;> simp

variable {s : Settings}

/-- Settings that are otherwise valid pass the checks exactly if their secrets give a vault and an
explicit key has no white space around it. -/
theorem validate_iff_vault (hrotation : checkRotation s.rotation = .ok ())
    (hstore : checkStore s.blobStore = .ok ()) (hlogging : checkLogging s.logging = .ok ()) :
    s.validate = .ok () ↔ (∃ v, s.secrets.vault = .ok v) ∧
      ∀ key ∈ SecretSettings.nonempty s.secrets.encryptionKey, Text.trim key = key := by
  rw [validate, Except.bind_unit_eq_ok_iff, Except.bind_unit_eq_ok_iff, Except.bind_unit_eq_ok_iff,
    checkSecrets_iff_vault]
  exact ⟨fun h => h.2.2.1, fun h => ⟨hrotation, hstore, h, hlogging⟩⟩

/-- The default settings with an explicit key. -/
def withKey (key : String) : Settings := { secrets := { encryptionKey := some key } }

/-- A key of 64 digits. -/
def someDigits : String := "00112233445566778899aabbccddeeffFFEEDDCCBBAA99887766554433221100"

/-- The vault of the key. -/
def someVault : Vault := ⟨(Hex.decode? someDigits).getD [], by decide⟩

/-- The key passes the checks, and one of two digits does not, as it gives no vault. -/
theorem validate_someDigits :
    (withKey someDigits).validate = .ok () ∧ (withKey "00").validate ≠ .ok () := by
  constructor
  · refine (validate_iff_vault rfl rfl (by decide)).mpr ⟨⟨someVault, by decide⟩, ?_⟩
    rintro _ ⟨⟩
    decide
  · intro h
    obtain ⟨⟨v, hv⟩, -⟩ := (validate_iff_vault rfl rfl (by decide)).mp h
    have hshort : (withKey "00").secrets.vault.toOption.isNone := by decide
    rw [hv] at hshort
    contradiction

/-- With a line feed after it the key gives the same vault, but it does not pass the checks any
more. -/
theorem refused_lineFeed :
    checkRotation (withKey (someDigits ++ "\n")).rotation = .ok () ∧
      checkStore (withKey (someDigits ++ "\n")).blobStore = .ok () ∧
      checkLogging (withKey (someDigits ++ "\n")).logging = .ok () ∧
      (withKey (someDigits ++ "\n")).secrets.vault = .ok someVault ∧
      (withKey (someDigits ++ "\n")).validate =
        .error (.plain .configuration "secrets.encryption_key must be 64 hex characters") := by
  decide

end Settings

end Keyring
