import Keyring.Text.Base64

/-! # Errors

Every failure has a kind, a description and perhaps a source: the failure of a lower layer that it
wraps. `Error.message` is the one place where the words of a kind are written. The texts of parsers
of JSON, PEM and configuration files are not part of the description.
-/

namespace Keyring

/-- What sort of failure an error is. -/
inductive Error.Kind
  | io
  | json
  | utf8
  | base64
  | invalidArgument
  | notFound
  | configuration
  | keyGeneration
  | keyEncoding
  | encryption
  | decryption
  | storage
  | token
  | internal
  deriving DecidableEq, Repr

/-- What a value in a configuration failed at. -/
inductive Error.FieldFault
  /-- The value is not of the type its field has. -/
  | invalidType
  /-- The value has the right type and lies outside the field's range. -/
  | invalidValue
  /-- The file is not well formed, or a value cannot be represented at all. -/
  | message
  deriving DecidableEq, Repr

/-- The failure that an error wraps. -/
inductive Error.Source
  /-- A failure known by its text. -/
  | text (message : String)
  /-- A failure whose text is left open. -/
  | unstated
  /-- A configuration value that could not be read, by its path. -/
  | field (fault : Error.FieldFault) (path : List String)
  deriving DecidableEq, Repr

/-- A failure. -/
structure Error where
  kind : Error.Kind
  /-- The description that follows the words of the kind. -/
  detail : String
  source : Option Error.Source := none
  deriving DecidableEq, Repr

namespace Error

/-- The words a message of a kind starts with. -/
def Kind.lead : Kind → String
  | .io => "I/O error"
  | .json => "JSON parsing error"
  | .utf8 => "UTF-8 encoding error"
  | .base64 => "Base64 decode error"
  | .invalidArgument => "Invalid argument"
  | .notFound => "Not found"
  | .configuration => "Configuration error"
  | .keyGeneration => "Key generation error"
  | .keyEncoding => "Key encoding error"
  | .encryption => "Encryption error"
  | .decryption => "Decryption error"
  | .storage => "Storage error"
  | .token => "Token error"
  | .internal => "Internal error"

/-- The name of a kind. -/
def Kind.name : Kind → String
  | .io => "Io"
  | .json => "Json"
  | .utf8 => "Utf8"
  | .base64 => "Base64"
  | .invalidArgument => "InvalidArgument"
  | .notFound => "NotFound"
  | .configuration => "Configuration"
  | .keyGeneration => "KeyGeneration"
  | .keyEncoding => "KeyEncoding"
  | .encryption => "Encryption"
  | .decryption => "Decryption"
  | .storage => "Storage"
  | .token => "Token"
  | .internal => "Internal"

/-- All kinds. -/
def Kind.all : List Kind :=
  [.io, .json, .utf8, .base64, .invalidArgument, .notFound, .configuration, .keyGeneration,
   .keyEncoding, .encryption, .decryption, .storage, .token, .internal]

/-- The text of an error. A JSON error is described by its kind alone. -/
def message (e : Error) : String :=
  match e.kind with
  | .json => e.kind.lead
  | _ => e.kind.lead ++ ": " ++ e.detail

/-- Whether stored data was tampered with or cannot be opened. -/
def isIntegrityFailure (e : Error) : Bool :=
  e.kind == .decryption

/-- An error without a source. -/
def plain (kind : Kind) (detail : String) : Error :=
  ⟨kind, detail, none⟩

/-- An error that wraps another failure. -/
def wrapping (kind : Kind) (detail : String) (source : Source) : Error :=
  ⟨kind, detail, some source⟩

/-- A text that is not the JSON expected of it. -/
def badJson : Error :=
  ⟨.json, "", some .unstated⟩

/-- A byte string that is no UTF-8. -/
def badUtf8 (fault : Utf8.Fault) : Error :=
  ⟨.utf8, fault.message, some (.text fault.message)⟩

/-- A text that is no base64. -/
def badBase64 (fault : Base64.Fault) : Error :=
  ⟨.base64, fault.message, some (.text fault.message)⟩

/-! ## Context

A failure of a lower layer is described by what was being done, a colon and its own text. -/

/-- What was being done, and the text of the failure. -/
def describe (context text : String) : String :=
  context ++ ": " ++ text

/-- Wraps a failure into an error of `kind`; an internal error keeps only the text. -/
def inContext {α : Type} (kind : Kind) (context : String) : Except String α → Except Error α
  | .ok a => .ok a
  | .error text =>
    .error <| match kind with
      | .internal => plain kind (describe context text)
      | _ => wrapping kind (describe context text) (.text text)

/-- Whether describing a failure evaluates its context, which it does only for a failure. -/
def needsContext {α : Type} : Except String α → Bool
  | .ok _ => false
  | .error _ => true

end Error

end Keyring
