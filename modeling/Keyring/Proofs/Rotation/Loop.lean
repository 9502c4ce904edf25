import Keyring.Proofs.Bucket
import Keyring.Proofs.KeyWindow
import Keyring.Proofs.Rotation.Contract
import Keyring.Proofs.Runs
import Keyring.Proofs.Ticker
import Keyring.Rotation.Maintenance
import Mathlib.Data.List.Basic

/-! # The rotation loop

The loop, its ticker and the world outside take their steps in any order, and the loop may be
cancelled at any point. What a run leaves behind is told by its record: the buckets that were handed
to the loop are ever later ones, and the window holds what the successful rotations made of the
first one.
-/

namespace Keyring.Rotation

variable {σ : Type} {w : World σ} {b : Bucket}

/-! ## Runs -/

/-- What is noted of a run, with the time of the clock. -/
inductive Note
  /-- The ticker takes up a new bucket. -/
  | read (now : Duration) (b : Bucket)
  /-- The loop is handed a bucket and sets out to rotate for it. -/
  | handed (now : Duration) (b : Bucket)
  /-- A rotation ends. -/
  | ended (now : Duration) (b : Bucket) (outcome : Except Error Key)
  deriving DecidableEq

/-- The bucket that was handed to the loop. -/
def Note.handed? : Note → Option Bucket
  | handed _ b => some b
  | _ => none

/-- The rotation that ended: its bucket and its outcome. -/
def Note.ended? : Note → Option (Bucket × Except Error Key)
  | ended _ b outcome => some (b, outcome)
  | _ => none

/-- What is noted of a step of the loop. -/
def Maintenance.notes (now : Duration) (before after : Maintenance) : List Note :=
  match before.stage, after.stage with
  | .awaiting, .resumed b _ => [.handed now b]
  | .working b (.done outcome), _ => [.ended now b outcome]
  | _, _ => []

/-- What is noted of a step of the ticker. -/
def notesOfTicker (now : Duration) (before after : Ticker) : List Note :=
  match before.stage, after.stage with
  | .checking, .offering b => [.read now b]
  | _, _ => []

/-- A loop in its world, and the record of what happened, the oldest first. -/
structure Run (σ : Type) where
  loop : Maintenance
  world : σ
  trace : List Note := []

namespace Run

/-- A loop that follows a restore. -/
def start (rotater : Rotater) (window : KeyWindow) (restored : Bucket) (s : σ) : Run σ where
  loop := .start rotater window restored
  world := s

/-- What may happen. -/
inductive Move (σ : Type)
  /-- The loop makes its next step. -/
  | loop
  /-- The ticker makes its next step. -/
  | ticker
  /-- The ticker's sleep ends. -/
  | wake
  /-- The loop is cancelled. -/
  | cancel
  /-- The world outside changes: time passes, or others act. -/
  | outside (s : σ)

/-- What a move leads to, if it can be made. -/
def move (w : World σ) (c : Run σ) : Move σ → Option (Run σ)
  | .loop =>
    match c.loop.step w c.world with
    | some (loop, world) => some ⟨loop, world, c.trace ++ c.loop.notes (w.time c.world) loop⟩
    | none => none
  | .ticker =>
    match c.loop.ticker.step (w.time c.world) with
    | some ticker =>
      some ⟨{ c.loop with ticker }, c.world,
        c.trace ++ notesOfTicker (w.time c.world) c.loop.ticker ticker⟩
    | none => none
  | .wake => some { c with loop := { c.loop with ticker := c.loop.ticker.wake } }
  | .cancel => some { c with loop := c.loop.cancel }
  | .outside world => some { c with world }

/-- The buckets that were handed to the loop. -/
def handed (c : Run σ) : List Bucket := c.trace.filterMap Note.handed?

/-- The rotations that ended. -/
def ended (c : Run σ) : List (Bucket × Except Error Key) := c.trace.filterMap Note.ended?

end Run

/-! ## Steps of the loop -/

/-- The steps that the loop can make. -/
inductive Maintenance.Step (w : World σ) (m : Maintenance) (s : σ) : Maintenance → σ → Prop
  /-- It ends where it would have waited. -/
  | stop (hstage : m.stage = .awaiting ∨ ∃ b rest, m.stage = .resumed b rest) : Step w m s m.stop s
  /-- It is handed a bucket. -/
  | hand (b : Bucket) (hstage : m.stage = .awaiting) (hslot : m.ticker.slot = some b)
      (hc : m.cancelled = false) :
    Step w m s { m with ticker := { m.ticker with slot := none }
                        stage := .resumed b (m.rotater.rotate b).run } s
  /-- It goes on with a rotation. -/
  | resume (b : Bucket) (rest : Program (Except Error Key)) (hstage : m.stage = .resumed b rest)
      (hc : m.cancelled = false) :
    Step w m s { m with stage := .working b rest } s
  /-- It takes note of an outcome. -/
  | conclude (b : Bucket) (outcome : Except Error Key)
      (hstage : m.stage = .working b (.done outcome)) :
    Step w m s (m.conclude outcome) s
  /-- Its request is answered. -/
  | answer (b : Bucket) (q : Request) (next : q.Answer → Program (Except Error Key))
      (hstage : m.stage = .working b (.ask q next)) :
    Step w m s { m with window := (q.answer w m.window s).2.1
                        stage := if q.isAwaited then .resumed b (next (q.answer w m.window s).1)
                          else .working b (next (q.answer w m.window s).1) }
      (q.answer w m.window s).2.2

/-- What one step of a loop can do. -/
theorem Maintenance.step_cases {m m' : Maintenance} {s s' : σ} (h : m.step w s = some (m', s')) :
    m.Step w s m' s' := by
  unfold step at h
  split at h
  · next hstage =>
      split at h
      · obtain ⟨rfl, rfl⟩ := Prod.mk.inj (Option.some.inj h)
        exact .stop (.inl hstage)
      · next hc =>
          -- The slot holds a bucket, or the ticker has stopped, or there is nothing to do yet.
          rw [Ticker.receive] at h
          cases hslot : m.ticker.slot with
          | some b =>
              rw [hslot] at h
              obtain ⟨rfl, rfl⟩ := Prod.mk.inj (Option.some.inj h)
              exact .hand b hstage hslot (Bool.eq_false_iff.mpr hc)
          | none =>
              rw [hslot] at h
              by_cases hstopped : m.ticker.stage = .stopped
              · simp only [hstopped, if_true, Option.some.injEq, Prod.mk.injEq] at h
                obtain ⟨rfl, rfl⟩ := h
                exact .stop (.inl hstage)
              · simp only [hstopped, if_false, reduceCtorEq] at h
  · next b rest hstage =>
      split at h
      · obtain ⟨rfl, rfl⟩ := Prod.mk.inj (Option.some.inj h)
        exact .stop (.inr ⟨b, rest, hstage⟩)
      · next hc =>
          obtain ⟨rfl, rfl⟩ := Prod.mk.inj (Option.some.inj h)
          exact .resume b rest hstage (Bool.eq_false_iff.mpr hc)
  · next b outcome hstage =>
      obtain ⟨rfl, rfl⟩ := Prod.mk.inj (Option.some.inj h)
      exact .conclude b outcome hstage
  · next b q next hstage =>
      obtain ⟨rfl, rfl⟩ := Prod.mk.inj (Option.some.inj h)
      exact .answer b q next hstage
  · contradiction

/-- Nothing is noted when the loop ends where it would have waited. -/
theorem Maintenance.notes_stop {m : Maintenance}
    (hstage : m.stage = .awaiting ∨ ∃ b rest, m.stage = .resumed b rest) (now : Duration) :
    m.notes now m.stop = [] := by
  rcases hstage with hstage | ⟨b, rest, hstage⟩ <;> rw [notes, hstage, stop]

/-! ## What is noted of the ticker -/

/-- The ticker notes at most that it takes up a bucket. -/
theorem notesOfTicker_cases (now : Duration) (t t' : Ticker) :
    notesOfTicker now t t' = [] ∨ ∃ b, notesOfTicker now t t' = [.read now b] := by
  unfold notesOfTicker
  split
  · exact .inr ⟨_, rfl⟩
  · exact .inl rfl

/-! ## Moves -/

namespace Run

variable {c c' : Run σ}

/-- A move of the loop is one of its steps, and what it does is noted. -/
theorem move_loop (h : c.move w .loop = some c') :
    ∃ loop world, c.loop.Step w c.world loop world ∧
      c' = ⟨loop, world, c.trace ++ c.loop.notes (w.time c.world) loop⟩ := by
  simp only [move] at h
  split at h
  · next loop world hstep =>
      exact ⟨loop, world, Maintenance.step_cases hstep, (Option.some.inj h).symm⟩
  · contradiction

/-- A move of the ticker is one of its steps, and what it emits is noted. -/
theorem move_ticker (h : c.move w .ticker = some c') :
    ∃ ticker, c.loop.ticker.Step (w.time c.world) ticker ∧
      c' = ⟨{ c.loop with ticker }, c.world,
        c.trace ++ notesOfTicker (w.time c.world) c.loop.ticker ticker⟩ := by
  simp only [move] at h
  split at h
  · next ticker hstep => exact ⟨ticker, Ticker.step_cases hstep, (Option.some.inj h).symm⟩
  · contradiction

/-- The ticker notes nothing of rotations. -/
theorem handed_ticker (c : Run σ) (loop : Maintenance) (now : Duration) (t t' : Ticker) :
    handed ⟨loop, c.world, c.trace ++ notesOfTicker now t t'⟩ = c.handed := by
  rw [handed, List.filterMap_append]
  rcases notesOfTicker_cases now t t' with h | ⟨b, h⟩ <;> rw [h] <;> exact List.append_nil _

theorem ended_ticker (c : Run σ) (loop : Maintenance) (now : Duration) (t t' : Ticker) :
    ended ⟨loop, c.world, c.trace ++ notesOfTicker now t t'⟩ = c.ended := by
  rw [ended, List.filterMap_append]
  rcases notesOfTicker_cases now t t' with h | ⟨b, h⟩ <;> rw [h] <;> exact List.append_nil _

end Run

/-! ## A world for computed runs -/

/-- A world that is nothing but a clock: the store is empty and takes everything, and every
generation of a key has the same outcome. -/
def clockWorld (generated : Except Error Key) : World Duration where
  time now := now
  call c now :=
    (match c with
      | .read _ => .ok none
      | .create _ _ _ => .ok true
      | .write _ _ _ => .ok (), now)
  generate _ now := (generated, now)

/-- A rotater with buckets of ten seconds. -/
def brisk : Rotater := ⟨.ofSeconds 10, Key.minBits, by decide, Nat.le_refl Key.minBits⟩

end Keyring.Rotation
