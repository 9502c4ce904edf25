import Keyring.Proofs.Runs
import Keyring.Proofs.Ticker
import Mathlib.Data.List.Basic

/-! # What a ticker reports

The task, its clock and its receiver take their turns in any order. The clock may be set to anything
at any time, the receiver may come when it likes, and the ticker may be cancelled between any two
steps. Whatever happens, the receiver gets what the task reported, once and in order, and ever later
buckets.
-/

namespace Keyring.Ticker

/-! ## Runs -/

/-- A ticker with its clock, and the record of what happened, the oldest first. -/
structure Watch where
  ticker : Ticker
  /-- What the clock shows. -/
  clock : Duration
  /-- What the clock showed when the task made its last step. -/
  stepped : Duration
  /-- The readings by which the task looked for a new bucket. -/
  checks : List Duration := []
  /-- The readings by which it set the lengths of its sleeps. -/
  rests : List Duration := []
  /-- The buckets that it recorded as reported. -/
  reported : List Bucket := []
  /-- What the ticks returned: a bucket, or the end. -/
  ticks : List (Option Bucket) := []

namespace Watch

/-- A ticker for which `last` is already reported, when the clock shows `now`. -/
def start (interval : Duration) (last : Bucket) (now : Duration) : Watch where
  ticker := .startingAt interval last
  clock := now
  stepped := now

/-- The buckets that the ticks returned. -/
def received (w : Watch) : List Bucket := w.ticks.filterMap id

/-- The record of a step by which the task comes to `t`. -/
def stepTo (w : Watch) (t : Ticker) : Watch :=
  { w with
    ticker := t
    stepped := w.clock
    checks := w.checks ++ if w.ticker.stage = .checking then [w.clock] else []
    rests := w.rests ++ if w.ticker.stage = .resting then [w.clock] else []
    reported := w.reported ++ if t.last = w.ticker.last then [] else [t.last] }

/-- What may happen. -/
inductive Move
  /-- The clock shows another time. -/
  | clock (now : Duration)
  /-- The task makes its next step. -/
  | task
  /-- The sleep of the task ends. -/
  | wake
  /-- The ticker is cancelled. -/
  | cancel
  /-- The receiver takes what there is. -/
  | tick

/-- What a move leads to, if it can be made. -/
def move (w : Watch) : Move → Option Watch
  | .clock now => some { w with clock := now }
  | .task => (w.ticker.step w.clock).map w.stepTo
  | .wake =>
    match w.ticker.stage with
    | .sleeping _ => some { w with ticker := w.ticker.wake, stepped := w.clock }
    | _ => none
  | .cancel => some { w with ticker := w.ticker.cancel }
  | .tick =>
    w.ticker.receive.map fun (answer, t) => { w with ticker := t, ticks := w.ticks ++ [answer] }

theorem move_task {w w' : Watch} (h : w.move .task = some w') :
    ∃ t, w.ticker.Step w.clock t ∧ w' = w.stepTo t := by
  obtain ⟨t, ht, rfl⟩ := Option.map_eq_some_iff.mp h
  exact ⟨t, step_cases ht, rfl⟩

theorem move_wake {w w' : Watch} (h : w.move .wake = some w') :
    ∃ length, w.ticker.stage = .sleeping length ∧
      w' = { w with ticker := w.ticker.wake, stepped := w.clock } := by
  simp only [move] at h
  split at h
  · next length hstage => exact ⟨length, hstage, (Option.some.inj h).symm⟩
  · contradiction

/-- A tick returns what is in the slot, or the end once the task has stopped and the slot is
empty. -/
theorem move_tick {w w' : Watch} (h : w.move .tick = some w') :
    (∃ b, w.ticker.slot = some b ∧
      w' = { w with ticker := { w.ticker with slot := none }, ticks := w.ticks ++ [some b] }) ∨
    w.ticker.slot = none ∧ w.ticker.stage = .stopped ∧
      w' = { w with ticks := w.ticks ++ [none] } := by
  obtain ⟨⟨answer, t⟩, hreceive, rfl⟩ := Option.map_eq_some_iff.mp h
  rw [receive] at hreceive
  split at hreceive
  · next b hslot =>
      obtain ⟨rfl, rfl⟩ := Prod.mk.inj (Option.some.inj hreceive)
      exact .inl ⟨b, hslot, rfl⟩
  · next hslot =>
      split at hreceive
      · next hstage =>
          obtain ⟨rfl, rfl⟩ := Prod.mk.inj (Option.some.inj hreceive)
          exact .inr ⟨hslot, hstage, rfl⟩
      · contradiction

/-! ## Reports -/

/-- The bucket that waits for room. -/
def offered? (w : Watch) : Option Bucket :=
  match w.ticker.stage with
  | .offering b => some b
  | _ => none

/-- What holds of a ticker and its receiver at every moment. -/
structure Faithful (interval : Duration) (last : Bucket) (w : Watch) : Prop where
  /-- The ticks return ever later buckets, all of them later than the first one. -/
  increasing : (last :: w.received).Pairwise (· < ·)
  /-- They return what the task reported, in order, up to what is still in the slot. -/
  complete : w.received ++ w.ticker.slot.toList = w.reported
  /-- What the task reported are buckets of its readings, in order and each of a reading of its
  own. -/
  read : w.reported.Sublist (w.checks.map (Bucket.containing · interval))
  /-- The last one reported is the one that the task goes by. -/
  last_eq : w.ticker.last = (last :: w.reported).getLast (List.cons_ne_nil _ _)
  /-- The end is returned only after all that was reported. -/
  ended : none ∈ w.ticks → w.received = w.reported

/-- The invariant that carries `Faithful`: what waits for room is the bucket of a reading, too, and
the end is returned only when nothing more can come. -/
structure Kept (interval : Duration) (last : Bucket) (w : Watch) : Prop where
  interval_eq : w.ticker.interval = interval
  ahead : w.ticker.Ahead (last :: w.received)
  increasing : (last :: w.received).Pairwise (· < ·)
  complete : w.received ++ w.ticker.slot.toList = w.reported
  read : (w.reported ++ w.offered?.toList).Sublist (w.checks.map (Bucket.containing · interval))
  last_eq : w.ticker.last = (last :: w.reported).getLast (List.cons_ne_nil _ _)
  ended : none ∈ w.ticks → w.ticker.stage = .stopped ∧ w.ticker.slot = none

variable {interval now : Duration} {last b : Bucket} {w w' : Watch} {t : Ticker}

/-- A ticker that just started has emitted nothing. -/
theorem kept_start (interval : Duration) (last : Bucket) (now : Duration) :
    Kept interval last (start interval last now) where
  interval_eq := rfl
  ahead := .startingAt interval last
  increasing := List.pairwise_singleton _ _
  complete := rfl
  read := List.Sublist.refl _
  last_eq := rfl
  ended h := by contradiction

/-- The task makes no step any more once a tick has returned the end. -/
theorem Kept.not_mem_ticks (h : Kept interval last w) (hstep : w.ticker.Step w.clock t) :
    none ∉ w.ticks := by
  intro hmem
  have hstopped := (h.ended hmem).1
  cases hstep with
  | take b hstage | pass hstage | report b hstage | sleep hstage =>
      rw [hstopped] at hstage
      contradiction
  | stop hstage =>
      rcases hstage with ⟨b, hstage⟩ | ⟨length, hstage⟩ <;>
        rw [hstopped] at hstage <;> contradiction

/-- A step by which nothing is reported keeps the invariant, if what waits for room is read. -/
theorem Kept.quiet (h : Kept interval last w) (hstep : w.ticker.Step w.clock t)
    (hslot : t.slot = w.ticker.slot) (hlast : t.last = w.ticker.last)
    (hread : (w.reported ++ (w.stepTo t).offered?.toList).Sublist
      ((w.stepTo t).checks.map (Bucket.containing · interval))) :
    Kept interval last (w.stepTo t) := by
  have hreported : (w.stepTo t).reported = w.reported := by
    simp only [stepTo, hlast, if_true, List.append_nil]
  refine ⟨hstep.interval_eq.trans h.interval_eq, h.ahead.step hstep, h.increasing, ?_, ?_, ?_,
    fun hmem => absurd hmem (h.not_mem_ticks hstep)⟩
  · rw [hreported, ← h.complete, ← hslot]
    rfl
  · rw [hreported]
    exact hread
  · simp only [hreported]
    exact hlast.trans h.last_eq

/-- Every step of the task keeps the invariant. The bucket that it takes up is that of its reading,
and the one that the slot takes goes to the end of what was reported. -/
theorem Kept.task (h : Kept interval last w) (hstep : w.ticker.Step w.clock t) :
    Kept interval last (w.stepTo t) := by
  have hchecks : (w.checks.map (Bucket.containing · interval)).Sublist
      ((w.stepTo t).checks.map (Bucket.containing · interval)) := by
    rw [stepTo, List.map_append]
    exact List.sublist_append_left _ _
  have hreported : w.reported.Sublist ((w.stepTo t).checks.map (Bucket.containing · interval)) :=
    ((List.sublist_append_left _ _).trans h.read).trans hchecks
  cases hstep with
  | take b hstage hb hlt =>
      apply h.quiet (.take b hstage hb hlt) rfl rfl
      have hread := h.read
      rw [h.interval_eq] at hb
      simp only [offered?, hstage, Option.toList_none, List.append_nil] at hread
      simp only [stepTo, offered?, hstage, if_true, Option.toList_some, List.map_append,
        List.map_cons, List.map_nil, hb]
      exact hread.append (List.Sublist.refl [b])
  | pass hstage hle =>
      exact h.quiet (.pass hstage hle) rfl rfl (by simpa [stepTo, offered?] using hreported)
  | sleep hstage =>
      exact h.quiet (.sleep hstage) rfl rfl (by simpa [stepTo, offered?] using hreported)
  | stop hstage hc =>
      exact h.quiet (.stop hstage hc) rfl rfl (by simpa [stepTo, offered?] using hreported)
  | report b hstage hc hslot =>
      have hlt := h.ahead.last_lt b hstage
      have hne : b ≠ w.ticker.last := fun heq => absurd hlt (by rw [heq]; exact lt_irrefl _)
      have hcomplete := h.complete
      have hread := h.read
      rw [hslot, Option.toList_none, List.append_nil] at hcomplete
      simp only [offered?, hstage, Option.toList_some] at hread
      have hstep : w.ticker.Step w.clock _ := .report b hstage hc hslot
      refine ⟨h.interval_eq, h.ahead.step hstep, h.increasing, ?_, ?_, ?_,
        fun hmem => absurd hmem (h.not_mem_ticks hstep)⟩
      · simp only [stepTo, hne, if_false, ← hcomplete]
        rfl
      · simpa [stepTo, offered?, hne, hstage] using hread
      · simp [stepTo, hne]

/-- The end of a sleep keeps the invariant. -/
theorem Kept.wake {length : Duration} (h : Kept interval last w)
    (hstage : w.ticker.stage = .sleeping length) :
    Kept interval last { w with ticker := w.ticker.wake, stepped := w.clock } := by
  have hread := h.read
  simp only [offered?, hstage] at hread
  have hwake := wake_of_sleeping hstage
  refine ⟨?_, h.ahead.wake, h.increasing, ?_, ?_, ?_, fun hmem => ?_⟩
  · rw [hwake]
    exact h.interval_eq
  · rw [hwake]
    exact h.complete
  · rw [hwake, offered?]
    cases w.ticker.cancelled <;> exact hread
  · rw [hwake]
    exact h.last_eq
  · have hstopped := (h.ended hmem).1
    rw [hstage] at hstopped
    contradiction

/-- What is received is later than all that was received before. -/
theorem Kept.receive (h : Kept interval last w) (hslot : w.ticker.slot = some b) :
    Kept interval last
      { w with ticker := { w.ticker with slot := none }, ticks := w.ticks ++ [some b] } := by
  have hreceived : received { w with ticker := { w.ticker with slot := none },
                                     ticks := w.ticks ++ [some b] } = w.received ++ [b] := by
    simp [received, List.filterMap_append]
  have hcomplete := h.complete
  rw [hslot, Option.toList_some] at hcomplete
  refine ⟨h.interval_eq, ?_, ?_, ?_, h.read, h.last_eq, fun hmem => ?_⟩
  · rw [hreceived]
    exact h.ahead.receive hslot
  · rw [hreceived, ← List.cons_append, List.pairwise_append]
    refine ⟨h.increasing, List.pairwise_singleton _ _, fun x hx y hy => ?_⟩
    obtain rfl := List.mem_singleton.mp hy
    exact (h.ahead.lt_slot y hslot).1 x hx
  · rw [hreceived, Option.toList_none, List.append_nil]
    exact hcomplete
  · have hmem : none ∈ w.ticks := by simpa using hmem
    exact ⟨(h.ended hmem).1, rfl⟩

/-- The end is received when the task has stopped and the slot is empty. -/
theorem Kept.close (h : Kept interval last w) (hstage : w.ticker.stage = .stopped)
    (hslot : w.ticker.slot = none) : Kept interval last { w with ticks := w.ticks ++ [none] } := by
  have hreceived : received { w with ticks := w.ticks ++ [none] } = w.received := by
    simp [received, List.filterMap_append]
  refine ⟨h.interval_eq, ?_, ?_, ?_, h.read, h.last_eq, fun _ => ⟨hstage, hslot⟩⟩
  · rw [hreceived]
    exact h.ahead
  · rw [hreceived]
    exact h.increasing
  · rw [hreceived]
    exact h.complete

/-- Every move keeps the invariant. -/
theorem Kept.move {m : Move} (h : Kept interval last w) (hm : w.move m = some w') :
    Kept interval last w' := by
  cases m with
  | clock now =>
      obtain rfl := Option.some.inj hm
      exact ⟨h.interval_eq, h.ahead, h.increasing, h.complete, h.read, h.last_eq, h.ended⟩
  | task =>
      obtain ⟨t, hstep, rfl⟩ := move_task hm
      exact h.task hstep
  | wake =>
      obtain ⟨length, hstage, rfl⟩ := move_wake hm
      exact h.wake hstage
  | cancel =>
      obtain rfl := Option.some.inj hm
      exact ⟨h.interval_eq, h.ahead.cancel, h.increasing, h.complete, h.read, h.last_eq, h.ended⟩
  | tick =>
      rcases move_tick hm with ⟨b, hslot, rfl⟩ | ⟨hslot, hstage, rfl⟩
      · exact h.receive hslot
      · exact h.close hstage hslot

/-- Whatever clock, receiver and cancellation do, the ticks return what the task reported. -/
theorem faithful_of_reaches
    (h : Reaches Watch.move (fun _ _ _ => True) (start interval last now) w) :
    w.Faithful interval last := by
  have hkept : Kept interval last w :=
    h.invariant (kept_start interval last now) fun _ _ _ hw hm _ => hw.move hm
  refine ⟨hkept.increasing, hkept.complete, (List.sublist_append_left _ _).trans hkept.read,
    hkept.last_eq, fun hmem => ?_⟩
  have hcomplete := hkept.complete
  rw [(hkept.ended hmem).2, Option.toList_none, List.append_nil] at hcomplete
  exact hcomplete

/-- A ticker with buckets of ten seconds. Its clock jumps ahead to bucket 3 and falls back to bucket
1. Its receiver comes late, so that bucket 5 has to wait for room, and when bucket 7 waits, it is
cancelled. -/
def troubled : List Move :=
  [.task, .task, .clock (.ofSeconds 35), .wake, .task, .task,
   .clock (.ofSeconds 12), .task, .clock (.ofSeconds 20), .wake, .task, .task,
   .clock (.ofSeconds 50), .wake, .task, .clock (.ofSeconds 61), .tick, .task, .task,
   .clock (.ofSeconds 70), .wake, .task, .cancel, .task, .tick, .tick]

/-- The ticks return buckets 3 and 5, which are those that were reported, and then the end. -/
theorem faithful_troubled : ∃ w : Watch,
    w.ticks = [some (.clamp 3), some (.clamp 5), none] ∧
      w.checks = [.zero, .ofSeconds 35, .ofSeconds 20, .ofSeconds 50, .ofSeconds 70] ∧
      w.Faithful (.ofSeconds 10) .zero := by
  have hrun :
      ((play Watch.move (fun _ _ _ => True) troubled
        (start (.ofSeconds 10) .zero .zero)).any fun w =>
      w.ticks = [some (.clamp 3), some (.clamp 5), none] ∧
        w.checks = [.zero, .ofSeconds 35, .ofSeconds 20, .ofSeconds 50, .ofSeconds 70]) = true := by
    decide
  simp only [Option.any_eq_true, decide_eq_true_eq] at hrun
  obtain ⟨w, hw, hticks, hchecks⟩ := hrun
  exact ⟨w, hticks, hchecks, faithful_of_reaches (Reaches.refl.play hw)⟩

end Watch

end Keyring.Ticker
