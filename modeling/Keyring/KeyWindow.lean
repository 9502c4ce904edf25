import Keyring.Jwk

/-! # The window of keys

The keys that a process trusts at a moment: the one it signs with and, after the first rotation, the
one that signed before. Tokens of the previous key verify until the next rotation drops it.
-/

namespace Keyring

/-- At most two keys, of which the last signs. -/
inductive KeyWindow
  | empty
  | one (current : Key)
  | two (previous current : Key)
  deriving DecidableEq

namespace KeyWindow

instance : Inhabited KeyWindow := ⟨.empty⟩

/-- The keys, oldest first. -/
def toList : KeyWindow → List Key
  | empty => []
  | one current => [current]
  | two previous current => [previous, current]

/-- The key that signs. -/
def current? : KeyWindow → Option Key
  | empty => none
  | one current => some current
  | two _ current => some current

/-- Installs a key: it becomes the current one, the current one becomes the previous one, and what
was before that is dropped. -/
def rotate (w : KeyWindow) (key : Key) : KeyWindow :=
  match w.current? with
  | none => one key
  | some previous => two previous key

/-- The number of keys. -/
def size (w : KeyWindow) : Nat := w.toList.length

/-- Whether no key was installed yet. -/
def isEmpty (w : KeyWindow) : Bool := w.toList.isEmpty

/-- The first key with an identifier. -/
def find? (w : KeyWindow) (kid : String) : Option Key :=
  w.toList.find? (·.id = kid)

/-- The public halves of the keys. -/
def jwks (w : KeyWindow) : JwkSet := .ofKeys w.toList

/-- The last key of the list signs. -/
theorem current?_eq_getLast? (w : KeyWindow) : w.current? = w.toList.getLast? := by
  cases w <;> rfl

/-- Rotation keeps the current key, if any, and appends the new one. -/
@[simp] theorem toList_rotate (w : KeyWindow) (key : Key) :
    (w.rotate key).toList = w.current?.toList ++ [key] := by
  cases w <;> rfl

@[simp] theorem current?_rotate (w : KeyWindow) (key : Key) :
    (w.rotate key).current? = some key := by
  cases w <;> rfl

theorem size_le (w : KeyWindow) : w.size ≤ 2 := by
  cases w <;> simp [size, toList]

/-- The text of a window in diagnostics. -/
def debug (w : KeyWindow) : String :=
  let data := Text.Quoted.showList (w.toList.map Key.debug)
  let lock := Text.Quoted.showOpenRecord "RwLock" [("data", data), ("poisoned", "false")]
  Text.Quoted.showRecord "RotatingKeyStore" [("window", lock)]

end KeyWindow

end Keyring
