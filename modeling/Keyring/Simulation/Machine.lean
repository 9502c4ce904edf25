import Keyring.Time.Duration

/-! # Virtual time

Background tasks and whoever watches them share one thread, and time moves only when all of them
wait: it jumps to the next moment at which a timer ends. Of two timers that end at the same moment
the watcher's is served first, so what is due at the end of his wait is done when he waits again.
-/

namespace Keyring.Simulation

/-- Tasks that run in virtual time. -/
structure Machine (σ : Type) where
  /-- Does all that can be done at a moment. -/
  settle : (elapsed : Nat) → σ → σ
  /-- When the next timer ends. -/
  alarm? : σ → Option Nat

/-- Runs tasks until `stop` holds or the watcher's own timer ends; the fuel bounds the number of
moments in between. -/
def Machine.runWithin {σ : Type} (m : Machine σ) (stop : σ → Bool) (target : Nat) :
    (fuel : Nat) → (elapsed : Nat) → σ → Nat × σ
  | 0, elapsed, s => (elapsed, s)
  | fuel + 1, elapsed, s =>
    let s := m.settle elapsed s
    if stop s then (elapsed, s)
    else match m.alarm? s with
      | some next =>
        if elapsed < next ∧ next < target then m.runWithin stop target fuel next s else (target, s)
      | none => (target, s)

/-- Waits for `stop`, at most for a time in milliseconds. A wait of no length is over before any
task runs. -/
def Machine.wait {σ : Type} (m : Machine σ) (stop : σ → Bool) (length elapsed : Nat) (s : σ) :
    Nat × σ :=
  if length = 0 then (elapsed, s) else m.runWithin stop (elapsed + length) length elapsed s

/-- What a clock shows in virtual time. -/
structure Clock where
  /-- What it showed at the start. -/
  start : Duration
  /-- Virtual milliseconds since the start. -/
  elapsed : Nat := 0
  /-- By how many milliseconds it was set forward. -/
  jumped : Int := 0
  /-- Whether it goes along with virtual time. -/
  running : Bool := true

namespace Clock

/-- A time moved by milliseconds, at least zero. -/
def shift (t : Duration) (ms : Int) : Duration :=
  if ms < 0 then t - .ofMillis ms.natAbs else t + .ofMillis ms.natAbs

/-- What the clock shows. -/
def now (c : Clock) : Duration :=
  shift (if c.running then c.start + .ofMillis c.elapsed else c.start) c.jumped

end Clock

end Keyring.Simulation
