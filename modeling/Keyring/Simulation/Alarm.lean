import Keyring.Simulation.Machine
import Keyring.Ticker

/-! # The ticker in virtual time

A ticker with a clock, and the moment at which its sleep ends.
-/

namespace Keyring.Simulation

/-- A ticker and its timer. -/
structure Alarm where
  ticker : Ticker
  /-- When a sleep ends. -/
  wakesAt : Nat := 0

namespace Alarm

/-- The next step at a moment; `none` while the task waits. -/
def step (now : Duration) (elapsed : Nat) (a : Alarm) : Option Alarm :=
  match a.ticker.step now with
  | some t =>
    some ⟨t, match t.stage with
      | .sleeping length => elapsed + length.millisCeil
      | _ => a.wakesAt⟩
  | none =>
    match a.ticker.stage with
    | .sleeping _ => if a.wakesAt ≤ elapsed then some { a with ticker := a.ticker.wake } else none
    | _ => none

/-- Does all that can be done at a moment. -/
def settle (now : Duration) (elapsed : Nat) : (fuel : Nat) → Alarm → Alarm
  | 0, a => a
  | fuel + 1, a =>
    match a.step now elapsed with
    | some a => settle now elapsed fuel a
    | none => a

/-- When the sleep ends. -/
def due? (a : Alarm) : Option Nat :=
  match a.ticker.stage with
  | .sleeping _ => some a.wakesAt
  | _ => none

/-- More steps than a ticker makes at one moment: it wakes, checks, offers, rests, and sleeps for at
least a millisecond. -/
def stepsPerMoment : Nat := 8

/-- Tickers with a clock as tasks in virtual time. -/
def machine : Machine (Clock × Alarm) where
  settle elapsed := fun (clock, a) =>
    let clock := { clock with elapsed }
    (clock, a.settle clock.now elapsed stepsPerMoment)
  alarm? := fun (_, a) => a.due?

/-- Waits for a tick, at most for a time in milliseconds: what was received, if anything was. -/
def tick (timeout : Nat) (clock : Clock) (a : Alarm) : Option (Option Bucket) × Clock × Alarm :=
  let (elapsed, clock, a) := match a.ticker.receive with
    | some _ => (clock.elapsed, clock, a)
    | none => machine.wait (fun (_, a) => a.ticker.receive.isSome) timeout clock.elapsed (clock, a)
  let clock := { clock with elapsed }
  match a.ticker.receive with
  | some (b, ticker) => (some b, clock, { a with ticker })
  | none => (none, clock, a)

/-- Waits for a time in milliseconds. -/
def sleep (length : Nat) (clock : Clock) (a : Alarm) : Clock × Alarm :=
  let (elapsed, clock, a) := machine.wait (fun _ => false) length clock.elapsed (clock, a)
  ({ clock with elapsed }, a)

end Alarm

end Keyring.Simulation
