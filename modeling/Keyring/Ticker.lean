import Keyring.Bucket

/-! # The ticker

A task that reports each new bucket through a slot with room for one. It reads the clock; if the
bucket is later than the last reported one it offers it, and once the slot has taken it, it reads
the clock again and sleeps until the next boundary, or 30 seconds if that is sooner, so that a jump
of the clock is noticed. After a jump only the latest bucket is reported.

The task is a machine of small steps: between any two of them the clock may move, the receiver may
empty the slot and the ticker may be cancelled. Cancellation is seen where the task waits. A bucket
in the slot outlives it, one that waits for room does not.
-/

namespace Keyring

/-- Where the task stands. -/
inductive Ticker.Stage
  /-- About to read the clock for the current bucket. -/
  | checking
  /-- Waits for room in the slot. -/
  | offering (bucket : Bucket)
  /-- About to read the clock for the time to the next boundary. -/
  | resting
  /-- Sleeps for a time. -/
  | sleeping (length : Duration)
  | stopped
  deriving DecidableEq

/-- The ticker with its slot. -/
structure Ticker where
  /-- The width of a bucket. -/
  interval : Duration
  /-- The bucket that counted as reported at the start. -/
  initial : Bucket
  /-- The last bucket that the slot has taken. -/
  last : Bucket
  stage : Ticker.Stage
  /-- A reported bucket that was not received yet. -/
  slot : Option Bucket
  cancelled : Bool
  deriving DecidableEq

namespace Ticker

/-- The longest sleep. -/
def maxSleep : Duration := .ofSeconds 30

/-- A ticker for which `last` is already reported. -/
def startingAt (interval : Duration) (last : Bucket) : Ticker :=
  ⟨interval, last, last, .checking, none, false⟩

/-- A ticker for which the bucket of a time is already reported. -/
def start (interval now : Duration) : Ticker :=
  startingAt interval (.containing now interval)

/-- How long the task sleeps at a time. -/
def sleepAt (t : Ticker) (now : Duration) : Duration :=
  min (Bucket.untilNextBoundary now t.interval) maxSleep

/-- The next step of the task if the clock shows `now`; `none` while it waits. -/
def step (now : Duration) (t : Ticker) : Option Ticker :=
  match t.stage with
  | .checking =>
    let b := Bucket.containing now t.interval
    some { t with stage := if t.last < b then .offering b else .resting }
  | .offering b =>
    if t.cancelled then some { t with stage := .stopped }
    else if t.slot.isNone then some { t with slot := some b, last := b, stage := .resting }
    else none
  | .resting => some { t with stage := .sleeping (t.sleepAt now) }
  | .sleeping _ => if t.cancelled then some { t with stage := .stopped } else none
  | .stopped => none

/-- The end of a sleep. -/
def wake (t : Ticker) : Ticker :=
  match t.stage with
  | .sleeping _ => { t with stage := if t.cancelled then .stopped else .checking }
  | _ => t

/-- Cancels the ticker; the task sees it when it waits. -/
def cancel (t : Ticker) : Ticker := { t with cancelled := true }

/-- Receives from the slot: a bucket, or the end if the task has stopped; `none` means to wait. -/
def receive (t : Ticker) : Option (Option Bucket × Ticker) :=
  match t.slot with
  | some b => some (some b, { t with slot := none })
  | none => if t.stage = .stopped then some (none, t) else none

end Ticker

end Keyring
