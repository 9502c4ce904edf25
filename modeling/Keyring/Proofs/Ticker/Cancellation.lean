import Keyring.Proofs.Ticker.Reports

/-! # Cancelled tickers

Once it is cancelled, the task reports nothing more. It goes on to the next place where it waits,
sees the cancellation there and ends. A bucket that waits for room is dropped, but one that is in
the slot stays there and is received: the first tick to return after the cancellation returns it,
and only the others are sure to return the end.
-/

namespace Keyring.Ticker

variable {now : Duration} {t t' : Ticker}

/-- The most steps that a cancelled task can make from a stage on. -/
def Stage.stepsLeft : Stage → Nat
  | .checking => 3
  | .resting => 2
  | .offering _ | .sleeping _ => 1
  | .stopped => 0

/-- A cancelled task stops within three steps. -/
theorem Stage.stepsLeft_le (stage : Stage) : stage.stepsLeft ≤ 3 := by
  cases stage <;> simp [stepsLeft]

/-- By a step of a cancelled task nothing is reported, and the task comes closer to its end. -/
theorem Step.of_cancelled (h : t.Step now t') (hc : t.cancelled = true) :
    t'.cancelled = true ∧ t'.last = t.last ∧ t'.slot = t.slot ∧
      t'.stage.stepsLeft < t.stage.stepsLeft := by
  cases h with
  | take b hstage | pass hstage | sleep hstage =>
      refine ⟨hc, rfl, rfl, ?_⟩
      simp [hstage, Stage.stepsLeft]
  | report b hstage hrunning =>
      rw [hc] at hrunning
      contradiction
  | stop hstage =>
      refine ⟨hc, rfl, rfl, ?_⟩
      rcases hstage with ⟨b, hstage⟩ | ⟨length, hstage⟩ <;> rw [hstage] <;> exact Nat.zero_lt_one

/-- A cancelled task never waits before its end. -/
theorem exists_step (now : Duration) (hc : t.cancelled = true) (h : t.stage ≠ .stopped) :
    ∃ t', t.step now = some t' := by
  unfold step
  cases hstage : t.stage with
  | checking | resting => exact ⟨_, rfl⟩
  | offering b => exact ⟨_, if_pos hc⟩
  | sleeping length => exact ⟨_, if_pos hc⟩
  | stopped => exact absurd hstage h

namespace Watch

variable {w v v' : Watch} {steps : Nat} {m : Move} {ms : List Move}

/-- Whether it is the task that moves. -/
def Move.isTask : Move → Bool
  | .task | .wake => true
  | .clock _ | .cancel | .tick => false

/-- The invariant of a ticker that was cancelled at `w`, when its task has made some steps since
then. The first tick to return has emptied the slot, and nothing comes into it any more. -/
structure Closing (w : Watch) (steps : Nat) (v : Watch) : Prop where
  cancelled : v.ticker.cancelled = true
  reported_eq : v.reported = w.reported
  ticks : v.ticks = w.ticks ∧ v.ticker.slot = w.ticker.slot ∨
    v.ticker.slot = none ∧ ∃ n, v.ticks = w.ticks ++ w.ticker.slot :: List.replicate n none
  steps_add_le : steps + v.ticker.stage.stepsLeft ≤ w.ticker.stage.stepsLeft

/-- A ticker that is cancelled begins to close. -/
theorem closing_cancel (w : Watch) : Closing w 0 { w with ticker := w.ticker.cancel } where
  cancelled := rfl
  reported_eq := rfl
  ticks := .inl ⟨rfl, rfl⟩
  steps_add_le := Nat.le_of_eq (Nat.zero_add _)

/-- A step of the task leaves the slot and the record of reports as they are. -/
theorem Closing.task {t : Ticker} (h : Closing w steps v) (hstep : v.ticker.Step v.clock t) :
    Closing w (steps + 1) (v.stepTo t) := by
  obtain ⟨hc, hlast, hslot, hless⟩ := hstep.of_cancelled h.cancelled
  have hle := h.steps_add_le
  refine ⟨hc, ?_, ?_, ?_⟩
  · rw [stepTo, if_pos hlast, List.append_nil]
    exact h.reported_eq
  · change (v.ticks = w.ticks ∧ t.slot = w.ticker.slot) ∨ (t.slot = none ∧ _)
    rw [hslot]
    exact h.ticks
  · change steps + 1 + t.stage.stepsLeft ≤ _
    omega

/-- The end of its sleep is the end of a cancelled task. -/
theorem Closing.wake {length : Duration} (h : Closing w steps v)
    (hstage : v.ticker.stage = .sleeping length) :
    Closing w (steps + 1) { v with ticker := v.ticker.wake, stepped := v.clock } := by
  have hwake : v.ticker.wake = { v.ticker with stage := .stopped } := by
    rw [wake_of_sleeping hstage, if_pos h.cancelled]
  have hle := h.steps_add_le
  rw [hstage] at hle
  rw [hwake]
  exact ⟨h.cancelled, h.reported_eq, h.ticks, hle⟩

/-- The first tick to return returns what the slot held, and the others return the end. -/
theorem Closing.tick (h : Closing w steps v) (hm : v.move .tick = some v') :
    Closing w steps v' := by
  rcases move_tick hm with ⟨b, hslot, rfl⟩ | ⟨hslot, -, rfl⟩
  · rcases h.ticks with ⟨hticks, hheld⟩ | ⟨hempty, -⟩
    · refine ⟨h.cancelled, h.reported_eq, .inr ⟨rfl, 0, ?_⟩, h.steps_add_le⟩
      rw [← hheld, hslot, ← hticks]
      rfl
    · rw [hslot] at hempty
      contradiction
  · refine ⟨h.cancelled, h.reported_eq, .inr ⟨hslot, ?_⟩, h.steps_add_le⟩
    rcases h.ticks with ⟨hticks, hheld⟩ | ⟨-, n, hticks⟩
    · refine ⟨0, ?_⟩
      rw [← hheld, hslot, ← hticks]
      rfl
    · refine ⟨n + 1, ?_⟩
      rw [List.replicate_succ', ← List.cons_append, ← List.append_assoc, ← hticks]

/-- Every move keeps the invariant. -/
theorem Closing.move (h : Closing w steps v) (hm : v.move m = some v') :
    Closing w (steps + if m.isTask then 1 else 0) v' := by
  cases m with
  | clock now =>
      obtain rfl := Option.some.inj hm
      exact ⟨h.cancelled, h.reported_eq, h.ticks, h.steps_add_le⟩
  | task =>
      obtain ⟨t, hstep, rfl⟩ := move_task hm
      exact h.task hstep
  | wake =>
      obtain ⟨length, hstage, rfl⟩ := move_wake hm
      exact h.wake hstage
  | cancel =>
      obtain rfl := Option.some.inj hm
      exact ⟨rfl, h.reported_eq, h.ticks, h.steps_add_le⟩
  | tick => exact h.tick hm

/-- Every run keeps it. -/
theorem Closing.play (h : Closing w steps v)
    (hplay : play Watch.move (fun _ _ _ => True) ms v = some v') :
    Closing w (steps + ms.countP Move.isTask) v' := by
  induction ms generalizing steps v with
  | nil =>
      obtain rfl := Option.some.inj hplay
      exact h
  | cons m ms ih =>
      obtain ⟨v₁, hm, -, hplay⟩ := play_cons_eq_some_iff.mp hplay
      have hrest := ih (h.move hm) hplay
      rw [List.countP_cons, Nat.add_comm (ms.countP Move.isTask), ← Nat.add_assoc]
      exact hrest

/-- What comes of a ticker that is cancelled at `w` and comes to `v` by some moves. -/
structure Closed (w : Watch) (ms : List Move) (v : Watch) : Prop where
  /-- Nothing more is reported. -/
  reported_eq : v.reported = w.reported
  /-- The first tick to return returns what the slot held, if anything, and all others return the
  end. -/
  ticks : v.ticks = w.ticks ∨ ∃ n, v.ticks = w.ticks ++ w.ticker.slot :: List.replicate n none
  /-- So all ticks that are called afterwards return the end exactly if the slot was empty, or one
  that was waiting already is the first to return, or none returns. -/
  silent_iff : ∀ waiting : Bool, (∀ a ∈ v.ticks.drop (w.ticks.length + waiting.toNat), a = none) ↔
    w.ticker.slot = none ∨ waiting = true ∨ v.ticks = w.ticks
  /-- The task makes at most three more steps. -/
  steps_le : ms.countP Move.isTask ≤ 3
  /-- Until it has ended, it can always make one. -/
  goesOn : v.ticker.stage ≠ .stopped → ∃ v', v.move .task = some v'
  /-- Once it has ended, a tick returns at once. -/
  returns : v.ticker.stage = .stopped → ∃ v', v.move .tick = some v'

/-- Whatever a ticker did before it is cancelled and whatever happens then, its ticks return the end
as soon as what the slot held has been received. -/
theorem closed_of_cancel (h : play Watch.move (fun _ _ _ => True) (.cancel :: ms) w = some v) :
    w.Closed ms v := by
  obtain ⟨v₀, hcancel, -, hplay⟩ := play_cons_eq_some_iff.mp h
  obtain rfl := Option.some.inj hcancel
  have hclosing := (closing_cancel w).play hplay
  have hticks :
      v.ticks = w.ticks ∨ ∃ n, v.ticks = w.ticks ++ w.ticker.slot :: List.replicate n none :=
    hclosing.ticks.imp And.left And.right
  refine ⟨hclosing.reported_eq, hticks, fun waiting => ?_, ?_, fun hstage => ?_, fun hstage => ?_⟩
  · rcases hticks with hticks | ⟨n, hticks⟩
    · rw [hticks, List.drop_of_length_le (Nat.le_add_right _ _)]
      simp
    · rw [hticks, List.drop_append, List.drop_of_length_le (Nat.le_add_right _ _), List.nil_append,
        Nat.add_sub_cancel_left]
      cases waiting with
      | false => simp
      | true => simp
  · have hle := hclosing.steps_add_le
    have hmost := w.ticker.stage.stepsLeft_le
    omega
  · obtain ⟨t, ht⟩ := exists_step v.clock hclosing.cancelled hstage
    exact ⟨_, congrArg (Option.map v.stepTo) ht⟩
  · rw [Watch.move, receive]
    split
    · exact ⟨_, rfl⟩
    · rw [if_pos hstage]
      exact ⟨_, rfl⟩

/-! ## A bucket in the slot -/

/-- A ticker with buckets of ten seconds and without a receiver: bucket 1 is in the slot, and bucket
2 waits for room. -/
def unattended : List Move :=
  [.task, .task, .clock (.ofSeconds 10), .wake, .task, .task, .task, .clock (.ofSeconds 20), .wake,
    .task]

/-- The receiver comes after the ticker was cancelled. -/
def lateTicks : List Move := [.tick, .task, .tick]

/-- The receiver still gets bucket 1 and only then the end. Bucket 2 is dropped. -/
theorem exists_unattended : ∃ w v : Watch,
    play Watch.move (fun _ _ _ => True) unattended (start (.ofSeconds 10) .zero .zero) = some w ∧
      play Watch.move (fun _ _ _ => True) (.cancel :: lateTicks) w = some v ∧
      w.ticker.slot = some (.clamp 1) ∧ w.ticker.stage = .offering (.clamp 2) ∧ w.ticks = [] ∧
      v.ticks = [some (.clamp 1), none] := by
  have hrun :
      ((play Watch.move (fun _ _ _ => True) unattended
        (start (.ofSeconds 10) .zero .zero)).any fun w =>
      (play Watch.move (fun _ _ _ => True) (.cancel :: lateTicks) w).any fun v =>
        w.ticker.slot = some (.clamp 1) ∧ w.ticker.stage = .offering (.clamp 2) ∧ w.ticks = [] ∧
          v.ticks = [some (.clamp 1), none]) = true := by
    decide
  simp only [Option.any_eq_true, decide_eq_true_eq] at hrun
  obtain ⟨w, hw, v, hv, hrun⟩ := hrun
  exact ⟨w, v, hw, hv, hrun⟩

/-- A ticker that nobody waited for still hands over the bucket in its slot, and then nothing. -/
theorem closed_unattended : ∃ w v : Watch,
    play Watch.move (fun _ _ _ => True) (.cancel :: lateTicks) w = some v ∧
      v.ticks = [some (.clamp 1), none] ∧
      w.Closed lateTicks v := by
  obtain ⟨w, v, -, hv, -, -, -, hticks⟩ := exists_unattended
  exact ⟨w, v, hv, hticks, closed_of_cancel hv⟩

/-- A cancelled ticker is not silent: a tick that is called afterwards may return a bucket. -/
theorem not_silent_unattended : ∃ w v : Watch,
    play Watch.move (fun _ _ _ => True) unattended (start (.ofSeconds 10) .zero .zero) = some w ∧
      play Watch.move (fun _ _ _ => True) (.cancel :: lateTicks) w = some v ∧
      ¬ ∀ a ∈ v.ticks.drop w.ticks.length, a = none := by
  obtain ⟨w, v, hw, hv, -, -, hnone, hticks⟩ := exists_unattended
  refine ⟨w, v, hw, hv, fun hsilent => ?_⟩
  rw [hticks, hnone] at hsilent
  exact absurd (hsilent _ List.mem_cons_self) (by decide)

end Watch

end Keyring.Ticker
