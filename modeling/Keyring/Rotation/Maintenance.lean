import Keyring.Rotation.Rotater
import Keyring.Ticker

/-! # Keeping keys current

After a restore a process rotates at every bucket that its ticker reports, until it is cancelled. A
rotation that fails is reported and leaves the window as it was; the next tick tries again.

The loop is a machine of small steps. It sees a cancellation each time it is resumed after waiting,
for a tick or for an answer from outside, and nowhere else; so a rotation whose last answer has come
is completed.
-/

namespace Keyring.Rotation

/-- Where the loop stands. -/
inductive Maintenance.Stage
  /-- Waits for a tick. -/
  | awaiting
  /-- Is resumed with the rest of a rotation for a bucket. -/
  | resumed (bucket : Bucket) (rest : Program (Except Error Key))
  /-- Works on a rotation for a bucket. -/
  | working (bucket : Bucket) (rest : Program (Except Error Key))
  | stopped

/-- The loop with its ticker, the window it keeps and the failures it reported. -/
structure Maintenance where
  rotater : Rotater
  ticker : Ticker
  window : KeyWindow
  /-- Failures, the oldest first. -/
  reports : List Error
  stage : Maintenance.Stage
  cancelled : Bool

namespace Maintenance

variable {σ : Type}

/-- The loop that follows a restore for a bucket. -/
def start (rotater : Rotater) (window : KeyWindow) (restored : Bucket) : Maintenance where
  rotater
  ticker := .startingAt rotater.interval restored
  window
  reports := []
  stage := .awaiting
  cancelled := false

/-- Cancels the loop and its ticker. -/
def cancel (m : Maintenance) : Maintenance :=
  { m with cancelled := true, ticker := m.ticker.cancel }

/-- The loop after it has ended. -/
def stop (m : Maintenance) : Maintenance := { m with stage := .stopped }

/-- Whether the loop has ended. -/
def isStopped (m : Maintenance) : Bool :=
  match m.stage with
  | .stopped => true
  | _ => false

/-- Takes note of the outcome of a rotation. -/
def conclude (m : Maintenance) (outcome : Except Error Key) : Maintenance :=
  { m with
    stage := .awaiting
    reports := match outcome with
      | .ok _ => m.reports
      | .error e => m.reports ++ [e] }

/-- The next step of the loop; `none` while it waits for a tick. -/
def step (w : World σ) (m : Maintenance) (s : σ) : Option (Maintenance × σ) :=
  match m.stage with
  | .awaiting =>
    if m.cancelled then some (m.stop, s)
    else match m.ticker.receive with
      | some (some b, ticker) =>
        some ({ m with ticker, stage := .resumed b (m.rotater.rotate b).run }, s)
      | some (none, _) => some (m.stop, s)
      | none => none
  | .resumed b rest =>
    if m.cancelled then some (m.stop, s) else some ({ m with stage := .working b rest }, s)
  | .working _ (.done outcome) => some (m.conclude outcome, s)
  | .working b (.ask r next) =>
    let (a, window, s) := r.answer w m.window s
    let stage := if r.isAwaited then .resumed b (next a) else .working b (next a)
    some ({ m with window, stage }, s)
  | .stopped => none

end Maintenance

end Keyring.Rotation
