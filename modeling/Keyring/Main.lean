import Keyring.CommandLine
import Keyring.Launch
import Keyring.Time.Date
import Std.Time.DateTime.Timestamp

/-! # The program

Reads the machine it runs on, brings a process up and keeps its keys current until it is
interrupted.
-/

namespace Keyring.Program

open Logging Simulation

/-- The time since the epoch, and that since some fixed moment. -/
def clock : IO Clock := do
  let now ← Std.Time.Timestamp.now
  let nanos := now.toNanosecondsSinceUnixEpoch.val.toNat
  return { start := .ofNanos nanos, elapsed := ← IO.monoMsNow, running := false }

/-- The environment of the process. -/
def environment : IO (List (String × String)) := do
  let text ← try IO.FS.readFile "/proc/self/environ" catch _ => pure ""
  return (Text.splitAtChar '\x00' text.toList).filterMap fun entry =>
    if entry.contains '=' then
      some (String.ofList (entry.takeWhile (· ≠ '=')),
        String.ofList ((entry.dropWhile (· ≠ '=')).drop 1))
    else none

/-- The machine as far as settings depend on it: of all files only those that may be read. -/
def host (config : Option String) : IO (Host × Option String) := do
  let environment ← environment
  let workingDirectory ← IO.currentDir
  let named (name : String) := environment.lookup name
  let home := named "HOME"
  let bare : Host :=
    { files := []
      directories := []
      environment
      workingDirectory := some workingDirectory.toString
      home
      configDirectory := named "XDG_CONFIG_HOME" <|> home.map (Host.join · ".config") }
  let path := config.map fun p => (workingDirectory / p).toString
  let mut host := bare
  for p in path.toList ++ Config.Loader.candidates bare do
    if ← (workingDirectory / p).isDir then
      host := { host with directories := p :: host.directories }
    else
      try host := { host with files := (p, ← IO.FS.readFile p) :: host.files }
      catch _ => pure ()
  return (host, path)

/-- Writes out what a log holds. -/
def write (now : Duration) (log : Log) : IO Log := do
  let stamp := now.stamp
  for shown in log.console do
    match shown with
    | .event e => IO.println (e.render log.isJson stamp)
    | .text s => IO.println s
  (← IO.getStdout).flush
  for file in log.files do
    IO.FS.createDirAll file.place.directory
    let handle ← IO.FS.Handle.mk (file.place.path now.date.display) .append
    for e in file.events do
      handle.putStrLn (e.render log.isJson stamp)
  return log.drained

/-- Keeps keys current for as long as there is something to wait for. -/
partial def keep (fleet : Fleet Launch.Shelf) (log : Log) : IO Unit := do
  let clock ← clock
  match (Launch.turn clock fleet).run.run log with
  | (.error _, _) => return ()
  | (.ok fleet, log) =>
    let log ← write clock.now log
    match Fleet.machine.alarm? fleet with
    | none => return ()
    | some next =>
      IO.sleep (UInt32.ofNat (next - clock.elapsed))
      keep fleet log

/-- Runs the program until it ends, and gives its exit code. -/
def run (config : Option String) (check : Bool) : IO UInt32 := do
  let (host, path) ← host config
  let clock ← clock
  let seed ← IO.getRandomBytes 64
  let source (bytes : ByteArray) : Entropy := ⟨bytes.toList, 0⟩
  let means : Launch.Means := ⟨clock, source (seed.extract 0 32), source (seed.extract 32 64)⟩
  let loader : Config.Loader := { path }
  let refused (e : Error) : IO UInt32 := do
    IO.eprintln ("Error: " ++ e.message)
    return 1
  if check then
    let (outcome, log) := (Launch.check loader host means).run.run {}
    discard (write clock.now log)
    match outcome with
    | .ok _ => return 0
    | .error e => refused e
  else
    let (outcome, log) := (Launch.bringUp loader host means).run.run {}
    let log ← write clock.now log
    match outcome with
    | .ok (app, scene) =>
      keep (Launch.fleetOf app scene) log
      return 0
    | .error e => refused e

end Keyring.Program

/-- Runs the program with its arguments and gives its exit code. -/
def main (arguments : List String) : IO UInt32 := do
  match Keyring.Command.parse arguments with
  | .ok (.run config check) => Keyring.Program.run config check
  | .ok .help => IO.print Keyring.Command.helpText; return 0
  | .ok .version => IO.print Keyring.Command.versionText; return 0
  | .error text => IO.eprint text; return 2
