import Keyring.App
import Keyring.Bucket
import Keyring.Bytes
import Keyring.Cipher.Aes
import Keyring.Cipher.Gcm
import Keyring.CommandLine
import Keyring.Config.Encode
import Keyring.Config.Environment
import Keyring.Config.Extract
import Keyring.Config.Loader
import Keyring.Config.Settings
import Keyring.Config.Tree
import Keyring.Config.Validity
import Keyring.Digest.Hmac
import Keyring.Digest.Sha256
import Keyring.Encoding.Der
import Keyring.Encoding.Pem
import Keyring.Entropy
import Keyring.Error
import Keyring.Host
import Keyring.Json.Basic
import Keyring.Json.Numeral
import Keyring.Json.Pretty
import Keyring.Json.Printer
import Keyring.Json.Reader
import Keyring.Jwk
import Keyring.Key
import Keyring.KeyWindow
import Keyring.Launch
import Keyring.Logging.Event
import Keyring.Logging.Filter
import Keyring.Logging.Level
import Keyring.Logging.Log
import Keyring.Main
import Keyring.Number.Binary64
import Keyring.Number.Decimal
import Keyring.Proofs.Bucket
import Keyring.Proofs.Bucket.Partition
import Keyring.Proofs.Bytes
import Keyring.Proofs.Cipher.Aes
import Keyring.Proofs.Cipher.Gcm
import Keyring.Proofs.Config.Environment
import Keyring.Proofs.Config.Layers
import Keyring.Proofs.Config.Layout
import Keyring.Proofs.Config.Saved
import Keyring.Proofs.Config.Secrets
import Keyring.Proofs.Config.Sections
import Keyring.Proofs.Config.Tree
import Keyring.Proofs.Config.Validity
import Keyring.Proofs.Config.Variable
import Keyring.Proofs.Config.Written
import Keyring.Proofs.Config.Written.Strings
import Keyring.Proofs.Diagnostics
import Keyring.Proofs.Encoding.Der
import Keyring.Proofs.Encoding.Pem
import Keyring.Proofs.Entries
import Keyring.Proofs.Except
import Keyring.Proofs.Json.Normal
import Keyring.Proofs.Json.RoundTrip
import Keyring.Proofs.Json.Scalar
import Keyring.Proofs.Jwk
import Keyring.Proofs.Key
import Keyring.Proofs.Key.Names
import Keyring.Proofs.Key.NormalForm
import Keyring.Proofs.Key.Size
import Keyring.Proofs.Key.Sound
import Keyring.Proofs.KeyWindow
import Keyring.Proofs.Launch
import Keyring.Proofs.Logging.Filter
import Keyring.Proofs.Rotation.Agreement
import Keyring.Proofs.Rotation.Contract
import Keyring.Proofs.Rotation.Custody
import Keyring.Proofs.Rotation.Errands
import Keyring.Proofs.Rotation.Freshness
import Keyring.Proofs.Rotation.Grace
import Keyring.Proofs.Rotation.Intervals
import Keyring.Proofs.Rotation.Isolation
import Keyring.Proofs.Rotation.Loop
import Keyring.Proofs.Rotation.Peers
import Keyring.Proofs.Rotation.Recognition
import Keyring.Proofs.Rotation.Repetition
import Keyring.Proofs.Rotation.Restore
import Keyring.Proofs.Rotation.Stay
import Keyring.Proofs.Rotation.Strength
import Keyring.Proofs.Rotation.Tenants
import Keyring.Proofs.Rotation.Traces
import Keyring.Proofs.Rotation.Upkeep
import Keyring.Proofs.Rotation.Visit
import Keyring.Proofs.Rsa.Arithmetic
import Keyring.Proofs.Rsa.Inverse
import Keyring.Proofs.Rsa.Signature
import Keyring.Proofs.Runs
import Keyring.Proofs.SealedBlob
import Keyring.Proofs.SealedBlob.Wire
import Keyring.Proofs.Store.Authenticity
import Keyring.Proofs.Store.Blind
import Keyring.Proofs.Store.Conformance
import Keyring.Proofs.Store.Lifetimes
import Keyring.Proofs.Store.Lookback
import Keyring.Proofs.Store.Places
import Keyring.Proofs.Store.Transparency
import Keyring.Proofs.Text.Base64
import Keyring.Proofs.Text.Base64.Canonical
import Keyring.Proofs.Text.Decimal
import Keyring.Proofs.Text.Hex
import Keyring.Proofs.Text.Utf8
import Keyring.Proofs.Ticker
import Keyring.Proofs.Ticker.Boundaries
import Keyring.Proofs.Ticker.Cancellation
import Keyring.Proofs.Ticker.Reports
import Keyring.Proofs.Token.Encodable
import Keyring.Proofs.Token.EndToEnd
import Keyring.Proofs.Token.Header
import Keyring.Proofs.Token.Lifetime
import Keyring.Proofs.Token.Parts
import Keyring.Proofs.Token.Signing
import Keyring.Proofs.Token.Soundness
import Keyring.Proofs.Toml.Document
import Keyring.Proofs.Toml.Numbers
import Keyring.Proofs.Vault
import Keyring.Rotation.Maintenance
import Keyring.Rotation.Program
import Keyring.Rotation.Rotater
import Keyring.Rsa.Arithmetic
import Keyring.Rsa.Generate
import Keyring.Rsa.PrivateKey
import Keyring.Rsa.Signature
import Keyring.SealedBlob
import Keyring.Shutdown
import Keyring.Simulation.Alarm
import Keyring.Simulation.Fleet
import Keyring.Simulation.Machine
import Keyring.Store.Basic
import Keyring.Store.Bench
import Keyring.Store.Ledger
import Keyring.Store.Memory
import Keyring.Store.Postgres
import Keyring.Store.Postgres.Address
import Keyring.Store.Redis
import Keyring.Store.Redis.Address
import Keyring.Store.Registry
import Keyring.Store.Sealed
import Keyring.Store.Staged
import Keyring.Text.Base64
import Keyring.Text.Blank
import Keyring.Text.Hex
import Keyring.Text.Percent
import Keyring.Text.Printable
import Keyring.Text.Quoted
import Keyring.Text.Url
import Keyring.Text.Utf8
import Keyring.Ticker
import Keyring.Time.Date
import Keyring.Time.Duration
import Keyring.Token
import Keyring.Token.Claims
import Keyring.Token.Header
import Keyring.Toml.Document
import Keyring.Toml.Numbers
import Keyring.Toml.Printer
import Keyring.Toml.Strings
import Keyring.Vault
