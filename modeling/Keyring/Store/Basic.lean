import Keyring.Bytes
import Keyring.Error
import Keyring.Time.Duration

/-! # Blob stores

A blob store keeps byte strings under names for a limited time and is all that processes share. It
answers three calls. Creation is what decides races: of several creations of one name exactly one is
accepted while its blob lives. A backend is a state machine that answers calls at a time.
-/

namespace Keyring.Store

/-- A call on a blob store. -/
inductive Call
  /-- Asks for the live blob of a name. -/
  | read (name : String)
  /-- Stores a blob for a time unless the name has a live one. -/
  | create (name : String) (blob : Bytes) (ttl : Duration)
  /-- Stores a blob for a time in place of any other. -/
  | write (name : String) (blob : Bytes) (ttl : Duration)
  deriving DecidableEq

namespace Call

/-- What a call is answered with: the blob if there is one, whether the creation was accepted, or
nothing. -/
@[reducible] def Answer : Call → Type
  | read _ => Option Bytes
  | create _ _ _ => Bool
  | write _ _ _ => Unit

/-- The name a call is about. -/
def name : Call → String
  | read name => name
  | create name _ _ => name
  | write name _ _ => name

end Call

/-- A store as a state machine: what a call at a time is answered with, and the state after it. -/
structure Backend (σ : Type) where
  call : Duration → (c : Call) → σ → Except Error c.Answer × σ

/-- The name of a blob within a space of names, of which the empty one is none at all. -/
def qualify (spaceName : Option String) (name : String) : String :=
  match spaceName with
  | some space => space ++ ":" ++ name
  | none => name

/-- A space of names, unless it is empty. -/
def spaceOf (text : String) : Option String :=
  if text.isEmpty then none else some text

end Keyring.Store
