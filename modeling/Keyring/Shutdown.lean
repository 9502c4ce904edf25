import Keyring.Simulation.Machine

/-! # Shutdown

A coordinator tells background tasks to end and waits for them. A task is known here by when it
ends: it works for a time, from the start or from the moment at which it is told to end.
-/

namespace Keyring

/-- A background task. -/
inductive Shutdown.Task
  /-- Works for a time, whatever happens. -/
  | busy (length : Nat)
  /-- Waits until shutdown starts and then works for a time. -/
  | guarded (length : Nat)
  /-- Works up to a moment. -/
  | working (deadline : Nat)
  | finished
  deriving DecidableEq, Repr

/-- The tasks and whether they were told to end. -/
structure Shutdown where
  tasks : List Shutdown.Task := []
  started : Bool := false
  deriving DecidableEq, Repr

namespace Shutdown

/-- What a task does at a moment. -/
def Task.settle (started : Bool) (elapsed : Nat) : Task → Task
  | busy length => if length = 0 then finished else working (elapsed + length)
  | guarded length =>
    if !started then guarded length
    else if length = 0 then finished else working (elapsed + length)
  | working deadline => if deadline ≤ elapsed then finished else working deadline
  | finished => finished

/-- When a task ends. -/
def Task.due? : Task → Option Nat
  | working deadline => some deadline
  | _ => none

/-- How many tasks have not ended. -/
def active (s : Shutdown) : Nat := (s.tasks.filter (· ≠ .finished)).length

/-- How many tasks have ended. -/
def ended (s : Shutdown) : Nat := (s.tasks.filter (· = .finished)).length

/-- Starts a task. -/
def spawn (t : Task) (s : Shutdown) : Shutdown := { s with tasks := s.tasks ++ [t] }

/-- The tasks in virtual time. -/
def machine : Simulation.Machine Shutdown where
  settle elapsed s := { s with tasks := s.tasks.map (Task.settle s.started elapsed) }
  alarm? s := (s.tasks.filterMap Task.due?).min?

/-- Lets time pass. -/
def sleep (length elapsed : Nat) (s : Shutdown) : Nat × Shutdown :=
  machine.wait (fun _ => false) length elapsed s

/-- Tells all tasks to end and waits for them at most for a time in milliseconds. -/
def shutDown (timeout elapsed : Nat) (s : Shutdown) : Nat × Shutdown :=
  let s := { s with started := true }
  if s.active = 0 then (elapsed, s) else machine.wait (·.active = 0) timeout elapsed s

end Shutdown

end Keyring
