import Keyring.Cipher.Gcm
import Keyring.Digest.Hmac
import Keyring.Error
import Keyring.SealedBlob
import Keyring.Text.Blank
import Keyring.Text.Hex
import Keyring.Text.Quoted

/-! # The vault

A vault seals secrets under one master key of 32 bytes and opens what it sealed. The key is given as
bytes, as hexadecimal text, or derived from an application secret. The nonce of a seal is the
caller's, who draws a fresh one each time.
-/

namespace Keyring

/-- A cipher under one master key. -/
structure Vault where
  key : Bytes
  /-- The key has 32 bytes. -/
  key_length : key.length = 32
  deriving DecidableEq

namespace Vault

/-- The length of a master key in bytes. -/
def keySize : Nat := 32

/-- The salt of keys derived from an application secret. -/
def derivationSalt : Bytes := Utf8.encode "DB-encryption"

/-- The iterations of keys derived from an application secret. -/
def derivationIterations : Nat := 65536

/-- The vault of a master key. -/
def ofKey (key : Bytes) : Except Error Vault :=
  if h : key.length = 32 then .ok ⟨key, h⟩
  else
    .error (.plain .configuration
      s!"Invalid master key size: expected {keySize} bytes, got {key.length}")

/-- The vault of a master key in hexadecimal, white space around it aside. -/
def ofHex (text : String) : Except Error Vault :=
  match Hex.decode? (Text.trim text) with
  | some key => ofKey key
  | none => .error (.wrapping .configuration "Encryption key is not valid hex" .unstated)

/-- The vault of the key derived from an application secret. -/
def ofSecret (secret : String) : Vault where
  key := Hmac.pbkdf2 (Utf8.encode secret) derivationSalt derivationIterations 32
  key_length := by simp

/-- The round keys of the master key. -/
def roundKeys (v : Vault) : List Aes.Block :=
  Aes.roundKeys v.key

/-- Seals a secret under a nonce. -/
def encrypt (v : Vault) (nonce plaintext : Bytes) : Except Error SealedBlob :=
  if plaintext.length ≤ Gcm.maxLength then
    let (ciphertext, tag) := Gcm.encrypt v.roundKeys nonce plaintext
    .ok ⟨ciphertext, nonce, tag⟩
  else .error (.plain .encryption "Encryption failed: aead::Error")

/-- Opens a sealed blob. -/
def decrypt (v : Vault) (b : SealedBlob) : Except SealedBlob.Fault Bytes := do
  b.checkLengths
  if b.ciphertext.length ≤ Gcm.maxLength then
    match Gcm.decrypt? v.roundKeys b.nonce b.ciphertext b.tag with
    | some plaintext => return plaintext
    | none => throw .notAuthentic
  else throw .notAuthentic

/-- The error of a stored byte string that cannot be opened. -/
def integrityError (fault : SealedBlob.Fault) : Error :=
  .plain .decryption fault.message

/-- The wire text of a secret sealed under a nonce. -/
def lock (v : Vault) (nonce plaintext : Bytes) : Except Error Bytes :=
  (v.encrypt nonce plaintext).map SealedBlob.wireBytes

/-- The secret in a stored wire text. -/
def unlock (v : Vault) (stored : Bytes) : Except Error Bytes :=
  (do v.decrypt (← SealedBlob.ofWire stored)).mapError integrityError

/-- The name of the cipher. -/
def providerName : String := "aes-256-gcm"

/-- The text of a vault in diagnostics, which does not show the key. -/
def debug (_ : Vault) : String := "CryptoService \x7b .. \x7d"

end Vault

end Keyring
