import Keyring.Config.Environment
import Keyring.Config.Extract
import Keyring.Config.Validity
import Keyring.Host
import Keyring.Toml.Document
import Keyring.Toml.Printer

/-! # Loading and saving settings

Settings come in layers: the defaults, over them a TOML file, over both the environment. The file is
the one that was asked for, or else the first of the usual places that exists; a file that was asked
for and does not exist gives no layer. The result is read from the merged tree and validated.
-/

namespace Keyring.Config

/-- Where settings are loaded from. -/
structure Loader where
  /-- The file that was asked for. -/
  path : Option String := none
  /-- What environment variables start with. -/
  environmentPrefix : String := "AUTHKEYS"

namespace Loader

/-- The name of the configuration file. -/
def fileName : String := "authkeys.toml"

/-- The name of the configuration directory. -/
def directoryName : String := "authkeys"

/-- The places where a configuration file is looked for, in order. -/
def candidates (h : Host) : List String :=
  let inDirectory (d : String) : String := Host.join (Host.join d directoryName) fileName
  h.workingDirectory.toList.map (Host.join · fileName)
    ++ h.workingDirectory.toList.map inDirectory
    ++ h.configDirectory.toList.map inDirectory
    ++ h.home.toList.map fun d => Host.join (Host.join d ("." ++ directoryName)) fileName

/-- The file that is read. -/
def source (l : Loader) (h : Host) : Option String :=
  match l.path with
  | some p => if h.exists? p then some p else none
  | none => (candidates h).find? h.exists?

/-- The failure of a value or a file. -/
def extraction (m : Misfit) : Error :=
  .wrapping .configuration "Failed to extract configuration" (.field m.fault m.path)

/-- The layer of the file; a directory in its place gives none. -/
def fileLayer (l : Loader) (h : Host) : Except Misfit Tree :=
  match (l.source h).bind h.read? with
  | none => .ok (.table [])
  | some text =>
    match Toml.parse? text with
    | some t => .ok t
    | none => .error ⟨.message, []⟩

/-- The merged tree of file and environment. -/
def tree (l : Loader) (h : Host) : Except Misfit Tree := do
  let file ← l.fileLayer h
  return file.merge (Environment.tree l.environmentPrefix h.environment)

/-- Reads the settings without validating them. -/
def read (l : Loader) (h : Host) : Except Misfit Settings := do
  readSettings false (← l.tree h)

/-- Loads and validates the settings. -/
def load (l : Loader) (h : Host) : Except Error Settings := do
  let s ← (l.read h).mapError extraction
  s.validate
  return s

end Loader

/-- Writes settings to a file. -/
def save (s : Settings) (path : String) (h : Host) : Except Error Host :=
  Error.inContext .io "Failed to write config file"
    ((h.write path (Toml.ofSettings s)).mapError Host.WriteFault.message)

end Keyring.Config
