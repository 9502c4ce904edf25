import Keyring.Rotation.Maintenance
import Keyring.Entropy
import Keyring.Simulation.Alarm

/-! # Fleets in virtual time

Processes that share a store and a clock, each with a window of its own. A process restores its
window; a process that could do so has a maintenance loop, which runs once it is spawned. Generating
a key takes no virtual time.
-/

namespace Keyring.Simulation

open Rotation

/-- What the processes share. -/
structure Scene (τ : Type) where
  clock : Clock
  store : τ
  /-- Where keys come from. -/
  entropy : Entropy

namespace Scene

variable {τ : Type}

/-- The scene as the world of a process. -/
def world (b : Store.Backend τ) : World (Scene τ) where
  time s := s.clock.now
  call c s := let (a, store) := b.call s.clock.now c s.store; (a, { s with store })
  generate bits s :=
    match Key.generate bits s.entropy with
    | .ok (key, entropy) => (.ok key, { s with entropy })
    | .error e => (.error e, s)

end Scene

/-- A process. -/
structure Member where
  maintenance : Maintenance
  /-- The bucket it restored, if it did. -/
  restored : Except Error Bucket
  /-- Whether its loop was spawned. -/
  spawned : Bool := false
  /-- When the sleep of its ticker ends. -/
  wakesAt : Nat := 0

namespace Member

variable {τ : Type}

/-- Whether the loop was spawned and has not ended. -/
def isRunning (m : Member) : Bool := m.spawned && !m.maintenance.isStopped

/-- The next step of the loop, or of its ticker, at a moment. -/
def step (b : Store.Backend τ) (m : Member) (s : Scene τ) : Option (Member × Scene τ) :=
  match m.maintenance.step (Scene.world b) s with
  | some (maintenance, s) => some ({ m with maintenance }, s)
  | none =>
    if m.maintenance.isStopped then none
    else match Alarm.step s.clock.now s.clock.elapsed ⟨m.maintenance.ticker, m.wakesAt⟩ with
      | some a =>
        some ({ m with maintenance := { m.maintenance with ticker := a.ticker }
                       wakesAt := a.wakesAt }, s)
      | none => none

/-- Does all that can be done at a moment. -/
def settle (b : Store.Backend τ) : (fuel : Nat) → Member → Scene τ → Member × Scene τ
  | 0, m, s => (m, s)
  | fuel + 1, m, s =>
    match m.step b s with
    | some (m, s) => settle b fuel m s
    | none => (m, s)

/-- When the process has something to do again. -/
def due? (m : Member) : Option Nat :=
  if m.isRunning then (Alarm.mk m.maintenance.ticker m.wakesAt).due? else none

end Member

/-- Processes on a scene. -/
structure Fleet (τ : Type) where
  backend : Store.Backend τ
  scene : Scene τ
  members : List Member := []

namespace Fleet

variable {τ : Type}

/-- More steps than a process makes at one moment: at most two rotations of a dozen steps each. -/
def stepsPerMoment : Nat := 100

/-- Lets the running processes do, in order, all that can be done. -/
def settleMembers (b : Store.Backend τ) : List Member → Scene τ → List Member × Scene τ
  | [], s => ([], s)
  | m :: rest, s =>
    let (m, s) := if m.isRunning then m.settle b stepsPerMoment s else (m, s)
    let (rest, s) := settleMembers b rest s
    (m :: rest, s)

/-- Lets the fleet do all that can be done at its moment. -/
def settle (f : Fleet τ) : Fleet τ :=
  let (members, scene) := settleMembers f.backend f.members f.scene
  { f with members, scene }

/-- The fleet at a moment. -/
def atMoment (elapsed : Nat) (f : Fleet τ) : Fleet τ :=
  { f with scene := { f.scene with clock := { f.scene.clock with elapsed } } }

/-- The earlier of two moments. -/
def earlier : Option Nat → Option Nat → Option Nat
  | some a, some b => some (min a b)
  | a, none => a
  | none, b => b

/-- Fleets as tasks in virtual time. -/
def machine : Machine (Fleet τ) where
  settle elapsed f := (f.atMoment elapsed).settle
  alarm? f := (f.members.map Member.due?).foldl earlier none

/-- Waits until `stop` holds, at most for a time in milliseconds. -/
def wait (stop : Fleet τ → Bool) (length : Nat) (f : Fleet τ) : Fleet τ :=
  let (elapsed, f) := machine.wait stop length f.scene.clock.elapsed f
  f.atMoment elapsed

/-- Lets time pass. -/
def advance (length : Nat) (f : Fleet τ) : Fleet τ := f.wait (fun _ => false) length

/-- Sets the clock forward. -/
def jump (ms : Int) (f : Fleet τ) : Fleet τ :=
  { f with scene :=
    { f.scene with clock := { f.scene.clock with jumped := f.scene.clock.jumped + ms } } }

/-- How many loops run. -/
def running (f : Fleet τ) : Nat := (f.members.filter Member.isRunning).length

/-- Adds a process that restores its window. -/
def join (r : Rotater) (f : Fleet τ) : Fleet τ :=
  let (restored, window, scene) := r.restore.run.run (Scene.world f.backend) .empty f.scene
  let bucket := match restored with
    | .ok b => b
    | .error _ => Bucket.zero
  { f with scene, members := f.members ++ [{ maintenance := .start r window bucket, restored }] }

/-- Spawns the loops of the processes that restored their windows. -/
def spawn (f : Fleet τ) : Fleet τ :=
  { f with members := f.members.map fun m =>
      if m.restored.toOption.isSome then { m with spawned := true } else m }

/-- Cancels all loops. -/
def cancel (f : Fleet τ) : Fleet τ :=
  { f with members := f.members.map fun m => { m with maintenance := m.maintenance.cancel } }

/-- Cancels all loops and waits at most for a time in milliseconds until they have ended. -/
def shutDown (timeout : Nat) (f : Fleet τ) : Fleet τ :=
  let f := f.cancel
  if f.running = 0 then f else f.wait (·.running = 0) timeout

end Fleet

end Keyring.Simulation
