import Keyring.Config.Settings
import Keyring.Text.Hex

/-! # Writing settings as TOML

One table for each section, a blank line between them, absent fields left out. Texts prefer the
basic form; where that needs escapes for quotes or backslashes a literal form is used if the text
allows one, and texts with line feeds are written over several lines.
-/

namespace Keyring.Toml

/-- What decides the written form of a text. -/
structure Traits where
  /-- A control character other than tab and line feed. -/
  control : Bool
  backslash : Bool
  lineFeed : Bool
  /-- The longest run of single quotes. -/
  singles : Nat
  /-- The longest run of double quotes. -/
  doubles : Nat
  deriving DecidableEq, Repr

/-- The longest run of a character, where `run` of them came before and `best` was longest. -/
def longestRun (q : Char) : (run best : Nat) → List Char → Nat
  | run, best, [] => max run best
  | run, best, c :: rest =>
    if c = q then longestRun q (run + 1) best rest else longestRun q 0 (max run best) rest

/-- Whether a character is a control other than tab and line feed. -/
def isControl (c : Char) : Bool :=
  (c.toNat < 0x20 || c.toNat = 0x7f) && c ≠ '\t' && c ≠ '\n'

/-- The traits of a text. -/
def traits (cs : List Char) : Traits where
  control := cs.any isControl
  backslash := cs.contains '\\'
  lineFeed := cs.contains '\n'
  singles := longestRun '\'' 0 0 cs
  doubles := longestRun '"' 0 0 cs

/-- The written forms of a text. -/
inductive Form
  | basic
  | literal
  | basicLines
  | literalLines
  deriving DecidableEq, Repr

/-- The first form that shows a text plainly, else the basic form that fits its line feeds. -/
def form (t : Traits) : Form :=
  if !t.control && !t.backslash && t.doubles = 0 && !t.lineFeed then .basic
  else if !t.control && t.singles = 0 && !t.lineFeed then .literal
  else if !t.control && !t.backslash && t.doubles ≤ 2 then .basicLines
  else if !t.control && t.singles ≤ 2 then .literalLines
  else if t.lineFeed then .basicLines
  else .basic

/-- The escape of a character inside a basic form. -/
def escapeChar (c : Char) : List Char :=
  if c = '\x08' then ['\\', 'b']
  else if c = '\t' then ['\\', 't']
  else if c = '\n' then ['\\', 'n']
  else if c = '\x0c' then ['\\', 'f']
  else if c = '\r' then ['\\', 'r']
  else if c = '"' then ['\\', '"']
  else if c = '\\' then ['\\', '\\']
  else if isControl c then ['\\', 'u'] ++ (Hex.ofNatPadded 4 c.toNat).map Char.toUpper
  else [c]

/-- The text inside a basic form of several lines: line feeds stand for themselves, and so do double
quotes as long as no third would follow. -/
def linesBody : (run : Nat) → List Char → List Char
  | _, [] => []
  | run, c :: rest =>
    if c = '"' ∧ run < 2 then c :: linesBody (run + 1) rest
    else if c = '\n' then c :: linesBody 0 rest
    else escapeChar c ++ linesBody 0 rest

/-- The line feed after the opening quotes of a text over several lines. -/
def opening (t : Traits) : List Char :=
  if t.lineFeed then ['\n'] else []

/-- A text in its written form. -/
def textChars (cs : List Char) : List Char :=
  let t := traits cs
  match form t with
  | .basic => '"' :: (cs.flatMap escapeChar ++ ['"'])
  | .literal => '\'' :: (cs ++ ['\''])
  | .basicLines => ['"', '"', '"'] ++ opening t ++ linesBody 0 cs ++ ['"', '"', '"']
  | .literalLines => ['\'', '\'', '\''] ++ opening t ++ cs ++ ['\'', '\'', '\'']

/-- A text value. -/
def showText (s : String) : String := String.ofList (textChars s.toList)

/-- The line of a field. -/
def fieldLine (name shown : String) : String := name ++ " = " ++ shown ++ "\n"

/-- The line of a field that may be absent. -/
def optionalLine {α : Type} (name : String) (shown : α → String) : Option α → String
  | some a => fieldLine name (shown a)
  | none => ""

/-- The line of a truth value. -/
def boolLine (name : String) (b : Bool) : String :=
  fieldLine name (if b then "true" else "false")

/-- The header of a section. -/
def headerLine (name : String) : String := "[" ++ name ++ "]\n"

/-- Settings as a document. -/
def ofSettings (s : Settings) : String :=
  headerLine "rotation"
    ++ fieldLine "interval_secs" (toString s.rotation.intervalSecs)
    ++ fieldLine "key_strength" (toString s.rotation.keyStrength)
    ++ "\n" ++ headerLine "blob_store"
    ++ fieldLine "provider" (showText s.blobStore.provider)
    ++ optionalLine "uri" showText s.blobStore.uri
    ++ optionalLine "namespace" showText s.blobStore.spaceName
    ++ optionalLine "max_size" toString s.blobStore.maxSize
    ++ optionalLine "pool_size" toString s.blobStore.poolSize
    ++ "\n" ++ headerLine "secrets"
    ++ optionalLine "secret_key_base" showText s.secrets.secretKeyBase
    ++ optionalLine "encryption_key" showText s.secrets.encryptionKey
    ++ "\n" ++ headerLine "logging"
    ++ fieldLine "level" (showText s.logging.level)
    ++ boolLine "json_format" s.logging.jsonFormat
    ++ optionalLine "file_output" showText s.logging.fileOutput

end Keyring.Toml
