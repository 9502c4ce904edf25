import Keyring.Store.Registry
import Keyring.Store.Staged

/-! # Benches

Where a rehearsal takes its store from: a staged store, or an opened one in its place.
-/

namespace Keyring.Store

/-- A staged store, and the opened store that answers instead of it if there is one. -/
structure Bench where
  staged : Staged := {}
  opened : Option Opened := none
  deriving DecidableEq

namespace Bench

/-- How a bench answers. -/
def call (now : Duration) (c : Call) (b : Bench) : Except Error c.Answer × Bench :=
  match b.opened with
  | some o => let (answer, o) := o.call now c; (answer, { b with opened := some o })
  | none => let (answer, staged) := b.staged.call now c; (answer, { b with staged })

/-- A bench as a store. -/
def backend : Backend Bench := ⟨call⟩

end Bench

end Keyring.Store
