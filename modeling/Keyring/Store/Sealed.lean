import Keyring.Entropy
import Keyring.Store.Basic
import Keyring.Vault

/-! # Sealed stores

A store over another store that seals every blob before it is stored and opens every blob that is
read. Names and times pass through. The inner store sees wire texts only.
-/

namespace Keyring.Store.Sealed

/-- The registered name of the wrapper. -/
def providerName : String := "encrypted"

/-- How a sealed store answers a call for which `nonce` was drawn. -/
def callWith {σ : Type} (v : Vault) (inner : Backend σ) (nonce : Bytes) (now : Duration) :
    (c : Call) → σ → Except Error c.Answer × σ
  | .read name, s =>
    match inner.call now (.read name) s with
    | (.ok (some stored), s) => ((v.unlock stored).map some, s)
    | (.ok none, s) => (.ok none, s)
    | (.error e, s) => (.error e, s)
  | .create name blob ttl, s =>
    match v.lock nonce blob with
    | .ok w => inner.call now (.create name w ttl) s
    | .error e => (.error e, s)
  | .write name blob ttl, s =>
    match v.lock nonce blob with
    | .ok w => inner.call now (.write name w ttl) s
    | .error e => (.error e, s)

/-- The sealed store, which draws a fresh nonce for each call. -/
def backend {σ : Type} (v : Vault) (inner : Backend σ) : Backend (σ × Entropy) where
  call now c := fun (s, entropy) =>
    let (nonce, entropy) := entropy.draw SealedBlob.nonceSize
    let (answer, s) := callWith v inner nonce now c s
    (answer, (s, entropy))

/-- The text of a sealed store in diagnostics, given that of the inner one. -/
def debug (inner : String) : String :=
  Text.Quoted.showRecord "EncryptedBlobStore"
    [("inner", inner), ("crypto", Text.Quoted.quote Vault.providerName)]

end Keyring.Store.Sealed
