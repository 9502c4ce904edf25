import Keyring.Config.Settings
import Keyring.Config.Tree

/-! # Reading settings from a tree

A record is read from a table by the names of its fields, unknown names being passed over, or from a
list by their order. Fields that are not given keep their defaults. A value of the wrong type or out
of range is refused with its path; of several, the first in the order of the table or list counts.
Whether a list may be longer than the record has fields is up to the source.
-/

namespace Keyring.Config

/-- A value that does not fit its field. -/
structure Misfit where
  fault : Error.FieldFault
  /-- The names and places that lead to the value. -/
  path : List String
  deriving DecidableEq, Repr

/-- The misfit one step further from its value. -/
def Misfit.under (step : String) (m : Misfit) : Misfit :=
  { m with path := step :: m.path }

/-- A way to read a value of a type. -/
abbrev Reading (α : Type) := Tree → Except Misfit α

namespace Reading

/-- The failure of a value of another type. -/
def wrongType {α : Type} : Except Misfit α := .error ⟨.invalidType, []⟩

/-- A natural number up to `bound`. -/
def nat (bound : Nat) : Reading Nat
  | .int n => if 0 ≤ n ∧ n ≤ bound then .ok n.toNat else .error ⟨.invalidValue, []⟩
  | _ => wrongType

/-- A text; a single character is a text too. -/
def text : Reading String
  | .text s => .ok s
  | .char c => .ok (String.ofList [c])
  | _ => wrongType

/-- A truth value. -/
def bool : Reading Bool
  | .bool b => .ok b
  | _ => wrongType

/-- A value that may be absent. -/
def optional {α : Type} (r : Reading α) : Reading (Option α)
  | .absent => .ok none
  | t => (r t).map some

/-- A field of a record: its name, and how its value changes the record. -/
structure Field (α : Type) where
  name : String
  set : Tree → α → Except Misfit α

/-- The field that a reading gives. -/
def field {α β : Type} (name : String) (r : Reading β) (put : β → α → α) : Field α where
  name := name
  set t a := (r t).map (put · a)

/-- Sets the field of each entry in turn. -/
def setEntries {α : Type} (fields : List (Field α)) : List (String × Tree) → α → Except Misfit α
  | [], a => .ok a
  | (n, t) :: rest, a =>
    match fields.find? (·.name = n) with
    | none => setEntries fields rest a
    | some f => do setEntries fields rest (← (f.set t a).mapError (·.under n))

/-- Sets the fields in order from place `index` on. -/
def setItems {α : Type} (lengthBound : Bool) (index : Nat) :
    List (Field α) → List Tree → α → Except Misfit α
  | _, [], a => .ok a
  | [], _ :: _, a => if lengthBound then wrongType else .ok a
  | f :: fields, t :: rest, a => do
    setItems lengthBound (index + 1) fields rest
      (← (f.set t a).mapError (·.under (toString index)))

/-- A record, from its defaults. With `lengthBound` a list may not be longer than the record. -/
def record {α : Type} (lengthBound : Bool) (fields : List (Field α)) (default : α) : Reading α
  | .table entries => setEntries fields entries default
  | .list items => setItems lengthBound 0 fields items default
  | _ => wrongType

end Reading

open Reading

/-- The greatest 64-bit number. -/
def maxWord64 : Nat := 0xffff_ffff_ffff_ffff

/-- The greatest 32-bit number. -/
def maxWord32 : Nat := 0xffff_ffff

/-- Reads rotation settings. -/
def readRotation (lengthBound : Bool) : Reading RotationSettings :=
  record lengthBound
    [field "interval_secs" (nat maxWord64) fun v s => { s with intervalSecs := v },
     field "key_strength" (nat maxWord64) fun v s => { s with keyStrength := v }] {}

/-- Reads store settings. -/
def readStore (lengthBound : Bool) : Reading StoreSettings :=
  record lengthBound
    [field "provider" text fun v s => { s with provider := v },
     field "uri" (optional text) fun v s => { s with uri := v },
     field "namespace" (optional text) fun v s => { s with spaceName := v },
     field "max_size" (optional (nat maxWord64)) fun v s => { s with maxSize := v },
     field "pool_size" (optional (nat maxWord32)) fun v s => { s with poolSize := v }] {}

/-- Reads secret settings. -/
def readSecrets (lengthBound : Bool) : Reading SecretSettings :=
  record lengthBound
    [field "secret_key_base" (optional text) fun v s => { s with secretKeyBase := v },
     field "encryption_key" (optional text) fun v s => { s with encryptionKey := v }] {}

/-- Reads log settings. -/
def readLogging (lengthBound : Bool) : Reading LogSettings :=
  record lengthBound
    [field "level" text fun v s => { s with level := v },
     field "json_format" bool fun v s => { s with jsonFormat := v },
     field "file_output" (optional text) fun v s => { s with fileOutput := v }] {}

/-- Reads all settings. -/
def readSettings (lengthBound : Bool) : Reading Settings :=
  record lengthBound
    [field "rotation" (readRotation lengthBound) fun v s => { s with rotation := v },
     field "blob_store" (readStore lengthBound) fun v s => { s with blobStore := v },
     field "secrets" (readSecrets lengthBound) fun v s => { s with secrets := v },
     field "logging" (readLogging lengthBound) fun v s => { s with logging := v }] {}

/-- Reads a JSON value, whose lists are bounded by the record, and reports only that it failed. -/
def ofJson {α : Type} (read : Bool → Reading α) (j : Json) : Except Error α :=
  (read true (Tree.ofJson j)).mapError fun _ => .badJson

end Keyring.Config
