import Keyring.Store.Basic

/-! # The ledger

The simplest store, and the measure of the others: a map from names to blobs with the time at which
they expire. A blob is live before that time and gone from then on.
-/

namespace Keyring.Store

/-- A stored blob. -/
structure Entry where
  blob : Bytes
  /-- The first moment at which the blob is gone. -/
  expiry : Duration
  deriving DecidableEq

/-- Blobs by name; the first entry of a name counts. -/
structure Ledger where
  entries : List (String × Entry) := []
  deriving DecidableEq

namespace Ledger

/-- The entry of a name, live or not. -/
def get? (l : Ledger) (name : String) : Option Entry :=
  (l.entries.find? (·.1 = name)).map (·.2)

/-- The live blob of a name. -/
def live? (l : Ledger) (now : Duration) (name : String) : Option Bytes :=
  match l.get? name with
  | some e => if now < e.expiry then some e.blob else none
  | none => none

/-- Stores an entry in place of any other of its name. -/
def put (l : Ledger) (name : String) (e : Entry) : Ledger :=
  ⟨(name, e) :: l.entries.filter (·.1 ≠ name)⟩

/-- Stores a blob from now on for a time. -/
def store (l : Ledger) (now : Duration) (name : String) (blob : Bytes) (ttl : Duration) : Ledger :=
  l.put name ⟨blob, now + ttl⟩

/-- A name holds what was put there last, and no other name is touched. -/
theorem get?_put (l : Ledger) (name other : String) (e : Entry) :
    (l.put name e).get? other = if name = other then some e else l.get? other := by
  by_cases h : name = other
  · simp [get?, put, h]
  · simp only [get?, put, h, decide_false, ite_false, Bool.false_eq_true, not_false_eq_true,
      List.find?_cons_of_neg]
    congr 1
    rw [List.find?_filter]
    congr 1
    funext p
    by_cases hp : p.1 = other
    · simp [hp, Ne.symm h]
    · simp [hp]

/-- How the ledger answers. -/
def call (now : Duration) : (c : Call) → Ledger → Except Error c.Answer × Ledger
  | .read name, l => (.ok (l.live? now name), l)
  | .create name blob ttl, l =>
    if (l.live? now name).isSome then (.ok false, l) else (.ok true, l.store now name blob ttl)
  | .write name blob ttl, l => (.ok (), l.store now name blob ttl)

/-- The ledger as a store. -/
def backend : Backend Ledger := ⟨call⟩

end Ledger

end Keyring.Store
