import Keyring.Config.Settings
import Keyring.Host
import Keyring.Logging.Filter

/-! # The log of a process

Logging is installed once. From then on the events that the filter lets through are written to the
console and, if the settings name a file, to a file that is started anew each day. Its name is that
of the settings without the extension; the date is added when it is written.

The file exists from the moment logging is asked for, also if it then cannot be installed because it
already is.
-/

namespace Keyring.Logging

/-- Where a log file lies, and what its name starts with. -/
structure Place where
  directory : String
  stem : String
  deriving DecidableEq, Repr

/-- The place of a configured path; a path without a last name gives the name of the program. -/
def Place.ofPath (path : String) : Place :=
  let start := if path.toList.head? = some '/' then "/" else ""
  let names := (Text.splitAtChar '/' path.toList).map String.ofList
  let names := names.filter fun n => n ≠ "" && n ≠ "."
  match names.getLast? with
  | none => ⟨".", "authkeys"⟩
  | some name =>
    let directory := start ++ "/".intercalate names.dropLast
    ⟨if directory.isEmpty then "." else directory,
      if name = ".." then "authkeys" else Host.fileStem name⟩

/-- The path of the file for a day. -/
def Place.path (p : Place) (day : String) : String :=
  Host.join p.directory (p.stem ++ "." ++ day)

/-- A log file with its events. -/
structure LogFile where
  place : Place
  events : List Event := []
  deriving DecidableEq, Repr

/-- Installed logging. -/
structure Installed where
  filter : Filter
  /-- Whether events are written as JSON. -/
  json : Bool
  place : Option Place
  deriving DecidableEq, Repr

/-- What a process shows on its console. -/
inductive Shown
  | event (e : Event)
  | text (s : String)
  deriving DecidableEq, Repr

/-- What a process has written. -/
structure Log where
  installed : Option Installed := none
  console : List Shown := []
  files : List LogFile := []
  deriving DecidableEq, Repr

namespace Log

/-- The environment variable that overrides the configured level. -/
def filterVariable : String := "AUTHKEYS_LOG"

/-- Makes sure that a file exists. -/
def touch (place : Place) (l : Log) : Log :=
  if l.files.any (·.place = place) then l else { l with files := l.files ++ [⟨place, []⟩] }

/-- Adds an event to the file of a place. -/
def append (place : Place) (e : Event) (l : Log) : Log :=
  { l with files := l.files.map fun f =>
      if f.place = place then { f with events := f.events ++ [e] } else f }

/-- Writes an event if logging is installed and lets it through. -/
def emit (e : Event) (l : Log) : Log :=
  match l.installed with
  | none => l
  | some i =>
    if i.filter.admits e then
      let l := { l with console := l.console ++ [.event e] }
      match i.place with
      | some place => l.append place e
      | none => l
    else l

/-- Shows a text on the console. -/
def print (s : String) (l : Log) : Log := { l with console := l.console ++ [.text s] }

/-- The event that reports the installation. -/
def started (level : Level) : Event :=
  ⟨.info, "authkeys_infrastructure::logging", "Logging initialized with level: " ++ level.name, []⟩

/-- The error of a second installation. -/
def occupied : Error :=
  .wrapping .configuration "Failed to install the logging subscriber"
    (.text "a global default trace dispatcher has already been set")

/-- Installs logging as settings ask for it, in an environment that may override the level. -/
def install (environment : Option String) (s : LogSettings) (l : Log) : Except Error Unit × Log :=
  match Level.parse s.level with
  | .error e => (.error e, l)
  | .ok level =>
    let place := s.fileOutput.map Place.ofPath
    let l := match place with
      | some place => l.touch place
      | none => l
    match l.installed with
    | some _ => (.error occupied, l)
    | none =>
      let l := { l with installed := some ⟨.choose environment s.level, s.jsonFormat, place⟩ }
      (.ok (), l.emit (started level))

/-- The events on the console. -/
def events (l : Log) : List Event :=
  l.console.filterMap fun
    | .event e => some e
    | .text _ => none

/-- The log after what it holds was written out. -/
def drained (l : Log) : Log :=
  { l with console := [], files := l.files.map fun f => { f with events := [] } }

/-- Whether what was logged is written as JSON. -/
def isJson (l : Log) : Bool := l.installed.any (·.json)

end Log

end Keyring.Logging
