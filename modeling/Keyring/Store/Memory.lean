import Keyring.Store.Ledger
import Keyring.Text.Quoted

/-! # The memory store

A store inside one process, for a single process or for tests. It holds a bounded number of blobs;
the bound is a hint to its owner and below it no blob is dropped before its time.
-/

namespace Keyring.Store

/-- A store in memory. -/
structure Memory where
  ledger : Ledger := {}
  /-- How many blobs the store is meant to hold. -/
  maxSize : Nat := 10000
  deriving DecidableEq

namespace Memory

/-- The registered name of the backend. -/
def providerName : String := "memory"

/-- How the memory store answers. -/
def call (now : Duration) (c : Call) (m : Memory) : Except Error c.Answer × Memory :=
  let (answer, ledger) := Ledger.call now c m.ledger
  (answer, { m with ledger })

/-- The memory store as a store. -/
def backend : Backend Memory := ⟨call⟩

/-- The text of a memory store in diagnostics. The store counts its entries from time to time, so
the count may lag behind. -/
def debug (m : Memory) (counted : Nat := m.ledger.entries.length) : String :=
  Text.Quoted.showRecord "MokaBlobStore"
    [("max_size", toString m.maxSize), ("entries", toString counted)]

end Memory

end Keyring.Store
