import Keyring.Proofs.Ticker.Reports

/-! # Boundaries that a ticker notices

With a clock that goes on evenly and a receiver that waits, a ticker should report one bucket after
the other. It looks for a new bucket by one reading of the clock and sets the length of its sleep by
another. If a bucket begins between the two, the sleep lasts until that bucket is over, unless it is
cut short, and the bucket is never reported. No other bucket is missed.
-/

namespace Keyring.Ticker

/-! ## An even clock -/

/-- The times that the clock may show before the next step of a task at this stage if it showed
`stepped` at the last one: a sleep lasts as long as was asked for, and any other step comes within
half an interval. -/
def Stage.Allows (interval stepped now : Duration) : Stage → Prop
  | .sleeping length => now.nanos ≤ stepped.nanos + length.nanos
  | _ => 2 * now.nanos < 2 * stepped.nanos + interval.nanos

instance (interval stepped now : Duration) :
    ∀ stage : Stage, Decidable (stage.Allows interval stepped now)
  | .sleeping _ => inferInstanceAs (Decidable (_ ≤ _))
  | .checking | .offering _ | .resting | .stopped => inferInstanceAs (Decidable (_ < _))

/-- A sleep is over when it has lasted as long as was asked for. -/
def Stage.IsOver (stepped now : Duration) : Stage → Prop
  | .sleeping length => now.nanos = stepped.nanos + length.nanos
  | _ => False

instance (stepped now : Duration) : ∀ stage : Stage, Decidable (stage.IsOver stepped now)
  | .sleeping _ => inferInstanceAs (Decidable (_ = _))
  | .checking | .offering _ | .resting | .stopped => inferInstanceAs (Decidable False)

/-- For how many nanoseconds from its last step a task sleeps. -/
def Stage.pause : Stage → Nat
  | .sleeping length => length.nanos
  | _ => 0

theorem Stage.pause_sleeping (length : Duration) : (Stage.sleeping length).pause = length.nanos :=
  rfl

/-- A sleep lasts until the next boundary, or as long as a sleep may last. -/
theorem nanos_sleepAt (t : Ticker) (now : Duration) :
    (t.sleepAt now).nanos = min (Bucket.untilNextBoundary now t.interval).nanos maxSleep.nanos := by
  unfold sleepAt
  change (if _ then _ else _ : Duration).nanos = _
  split
  · next h => exact (Nat.min_eq_left h).symm
  · next h => exact (Nat.min_eq_right (Nat.le_of_not_le h)).symm

/-- A sleep ends at the next boundary at the latest, counted from the millisecond that was read. -/
theorem nanos_sleepAt_le (t : Ticker) (now : Duration) :
    (t.sleepAt now).nanos ≤
      (Bucket.width t.interval - now.millis % Bucket.width t.interval) *
        Duration.nanosPerMilli := by
  rw [nanos_sleepAt, Bucket.nanos_untilNextBoundary]
  exact Nat.le_trans (Nat.min_le_left _ _) (Nat.mul_le_mul_right _ (Nat.min_le_left _ _))

/-- No sleep is empty, for the clock has not reached the next boundary yet. -/
theorem sleepAt_pos (t : Ticker) (now : Duration) : Duration.zero < t.sleepAt now := by
  have hmod := Nat.mod_lt now.millis (Bucket.width_pos t.interval)
  have hmax : maxSleep.nanos = 30000000000 := by decide
  rw [Duration.lt_def, nanos_sleepAt, Bucket.nanos_untilNextBoundary, hmax, Duration.nanosPerMilli]
  change 0 < _
  omega

namespace Watch

/-- A ticker for which the current bucket is already reported. -/
def startCurrent (interval now : Duration) : Watch := start interval (.containing now interval) now

/-- The clock goes on without jumps and never backwards, the receiver takes a bucket before the task
goes on, and nobody cancels the ticker. -/
def Smooth (w : Watch) : Move → Watch → Prop
  | .clock now, _ => w.clock ≤ now ∧ w.ticker.stage.Allows w.ticker.interval w.stepped now
  | .task, _ => w.ticker.slot = none
  | .wake, _ => w.ticker.stage.IsOver w.stepped w.clock
  | .cancel, _ => False
  | .tick, _ => True

instance (w : Watch) : ∀ m w', Decidable (w.Smooth m w')
  | .clock _, _ => inferInstanceAs (Decidable (_ ∧ _))
  | .task, _ => inferInstanceAs (Decidable (_ = _))
  | .wake, _ => inferInstanceAs (Decidable (Stage.IsOver _ _ _))
  | .cancel, _ => inferInstanceAs (Decidable False)
  | .tick, _ => inferInstanceAs (Decidable True)

/-- The last bucket that the task has taken up. -/
def taken (w : Watch) : Bucket := w.offered?.getD w.ticker.last

/-- A bucket has begun between the two readings of a turn, or may yet begin there. -/
def Straddles (w : Watch) : Prop :=
  w.offered? ≠ none ∨ w.ticker.stage = .resting ∨
    ∃ s ∈ w.rests.getLast?, w.ticker.last < Bucket.containing s w.ticker.interval

instance (w : Watch) : Decidable w.Straddles := inferInstanceAs (Decidable (_ ∨ _ ∨ _))

/-- A bucket that begins between the two readings of a turn is not over before the next turn. If
half an interval is more than a width less a millisecond, the first reading after a sleep is not
late by more than that either. -/
def Spared (w : Watch) : Move → Prop
  | .clock now =>
    (w.Straddles → Bucket.containing now w.ticker.interval ≤ w.taken.next) ∧
      (w.ticker.stage = .checking → w.ticker.interval.millis < 3 →
        now.nanos ≤ w.stepped.nanos + (Bucket.width w.ticker.interval - 1) * Duration.nanosPerMilli)
  | _ => True

instance (w : Watch) : ∀ m, Decidable (w.Spared m)
  | .clock _ => inferInstanceAs (Decidable (_ ∧ _))
  | .task | .wake | .cancel | .tick => inferInstanceAs (Decidable True)

/-- The clock goes on evenly, and no bucket is over before the task could have seen it. -/
def Steady (w : Watch) (m : Move) (w' : Watch) : Prop := w.Smooth m w' ∧ w.Spared m

instance (w : Watch) (m : Move) (w' : Watch) : Decidable (w.Steady m w') :=
  inferInstanceAs (Decidable (_ ∧ _))

/-! ## No gap -/

variable {interval now : Duration} {first last b : Bucket} {bs : List Bucket} {w w' : Watch}
  {t : Ticker}

/-- These are the buckets after the first one up to the last one, one after the other. -/
structure Dense (first last : Bucket) (bs : List Bucket) : Prop where
  value_eq : ∀ (i : Nat) (h : i < bs.length), bs[i].value = first.value + (i + 1)
  last_eq : last.value = first.value + bs.length

/-- Buckets without a gap stay so if the next one follows. -/
theorem Dense.snoc (h : Dense first last bs) (hb : b.value = last.value + 1) :
    Dense first b (bs ++ [b]) := by
  have hlast := h.last_eq
  constructor
  · intro i hi
    rw [List.length_append, List.length_singleton] at hi
    rcases Nat.lt_or_ge i bs.length with hi' | hi'
    · rw [List.getElem_append_left hi']
      exact h.value_eq i hi'
    · obtain rfl : i = bs.length := by omega
      rw [List.getElem_concat_length rfl]
      omega
  · rw [List.length_append, List.length_singleton]
    omega

/-- Buckets without a gap leave none out. -/
theorem Dense.mem (h : Dense first last bs) (hfirst : first < b) (hlast : b ≤ last) : b ∈ bs := by
  have hlength := h.last_eq
  rw [Bucket.lt_def] at hfirst
  rw [Bucket.le_def] at hlast
  -- Its place in the list is the number of buckets between the first one and it.
  obtain ⟨i, hi⟩ := Int.eq_ofNat_of_zero_le (a := b.value - first.value - 1) (by omega)
  have hbound : i < bs.length := by omega
  have hvalue := h.value_eq i hbound
  have heq : bs[i] = b := Bucket.ext_value (by omega)
  rw [← heq]
  exact List.getElem_mem hbound

/-- The buckets after the first one are reported one after the other, and none is missed. -/
structure Gapless (first : Bucket) (w : Watch) : Prop where
  consecutive : Dense first w.ticker.last w.reported
  /-- What is reported is received, up to what is still in the slot. -/
  complete : w.received ++ w.ticker.slot.toList = w.reported
  /-- Every bucket that the clock has passed was reported, or is the one that waits for room. -/
  passed : ∀ b, first < b → b < Bucket.containing w.clock w.ticker.interval →
    b ∈ w.reported ∨ w.ticker.stage = .offering b

/-- From `n` nanoseconds on, for a width less a millisecond, the clock is at most in the bucket
after `last`. -/
def Within (interval : Duration) (last : Bucket) (n : Nat) : Prop :=
  ∀ u : Duration, u.nanos ≤ n + (Bucket.width interval - 1) * Duration.nanosPerMilli →
    Bucket.containing u interval ≤ last.next

/-- The invariant that carries `Gapless`: the clock is at most in the bucket after the last one
taken up. From the second reading of a turn until the first one of the next turn, this rests on the
length of the sleep, if no bucket began between the readings. -/
structure Abreast (interval : Duration) (first : Bucket) (w : Watch) : Prop where
  kept : Kept interval first w
  running : w.ticker.cancelled = false ∧ w.ticker.stage ≠ .stopped
  consecutive : Dense first w.ticker.last w.reported
  offering : ∀ b, w.ticker.stage = .offering b → b.value = w.ticker.last.value + 1
  near : Bucket.containing w.clock w.ticker.interval ≤ w.taken.next
  reach : ¬ w.Straddles → Within w.ticker.interval w.ticker.last
    (w.stepped.nanos + w.ticker.stage.pause)

/-- Until the end of its bucket and a width less a millisecond beyond, the clock is at most in the
next one. -/
theorem within_of_le {n : Nat}
    (hn : n ≤ (Bucket.width interval - now.millis % Bucket.width interval) * Duration.nanosPerMilli)
    (hle : Bucket.containing now interval ≤ last) : Within interval last (now.nanos + n) := by
  intro u hu
  have hnext : Bucket.containing u interval ≤ (Bucket.containing now interval).next := by
    apply Bucket.containing_le_next (Nat.le_refl _)
    rw [Nat.add_mul]
    omega
  exact le_trans hnext (Bucket.next_mono hle)

/-- With nothing on offer, the last bucket that was taken up is the last that was emitted. -/
theorem taken_eq_last (h : w.offered? = none) : w.taken = w.ticker.last := by
  rw [taken, h]
  rfl

/-- The bucket on offer is the last that was taken up. -/
theorem taken_of_offering (h : w.ticker.stage = .offering b) : w.taken = b := by
  rw [taken, offered?, h]
  rfl

/-- Half an interval is at most a width less a millisecond, if the interval is long enough. -/
theorem le_of_allows {stepped : Duration}
    (hallows : 2 * now.nanos < 2 * stepped.nanos + interval.nanos) (hlong : 3 ≤ interval.millis) :
    now.nanos ≤ stepped.nanos + (Bucket.width interval - 1) * Duration.nanosPerMilli := by
  rw [Bucket.width, Duration.nanosPerMilli]
  rw [Duration.millis, Duration.nanosPerMilli] at hlong ⊢
  omega

/-- A ticker that just started is abreast of the clock. -/
theorem abreast_start (interval now : Duration) :
    Abreast interval (.containing now interval) (startCurrent interval now) where
  kept := kept_start _ _ _
  running := ⟨rfl, fun hstage => by contradiction⟩
  consecutive := ⟨fun i h => absurd h (Nat.not_lt_zero i), (Int.add_zero _).symm⟩
  offering b h := by contradiction
  near := Bucket.le_next _
  reach _ := within_of_le (Nat.zero_le _) (le_refl _)

/-- As long as the clock goes on evenly, it is at most in the bucket after the last one taken up. -/
theorem Abreast.clock (h : Abreast interval first w)
    (hallows : w.ticker.stage.Allows w.ticker.interval w.stepped now)
    (hspared : w.Spared (.clock now)) : Abreast interval first { w with clock := now } := by
  obtain ⟨hstraddled, hsmall⟩ := hspared
  refine ⟨h.kept.move (m := .clock now) rfl, h.running, h.consecutive, h.offering, ?_, h.reach⟩
  by_cases hs : w.Straddles
  · exact hstraddled hs
  · -- The task is past the second reading of a turn, and no bucket began between that and the
    -- first one.
    have hoffer : w.offered? = none := not_not.mp fun hoffer => hs (.inl hoffer)
    have htaken : taken { w with clock := now } = w.ticker.last := taken_eq_last hoffer
    have hreach := h.reach hs now
    rw [htaken]
    cases hstage : w.ticker.stage with
    | checking =>
        rw [hstage] at hallows hreach
        apply hreach
        by_cases hshort : w.ticker.interval.millis < 3
        · exact hsmall hstage hshort
        · exact le_of_allows hallows (Nat.not_lt.mp hshort)
    | offering b =>
        rw [offered?, hstage] at hoffer
        contradiction
    | resting => exact absurd (.inr (.inl hstage)) hs
    | sleeping length =>
        rw [hstage] at hallows hreach
        exact hreach (Nat.le_add_right_of_le hallows)
    | stopped => exact absurd hstage h.running.2

/-- Every step of the task keeps the invariant. It takes up the bucket after the last one reported,
if any. -/
theorem Abreast.task (h : Abreast interval first w) (hstep : w.ticker.Step w.clock t) :
    Abreast interval first (w.stepTo t) := by
  have hkept := h.kept.task hstep
  -- By all steps but one, nothing is reported.
  have hquiet : t.last = w.ticker.last → Dense first t.last (w.stepTo t).reported := by
    intro hlast
    simp only [stepTo, hlast, if_true, List.append_nil]
    exact h.consecutive
  have hnear := h.near
  cases hstep with
  | take b hstage hb hlt =>
      rw [taken_eq_last (by rw [offered?, hstage]), hb] at hnear
      refine ⟨hkept, ⟨h.running.1, fun hstage => by contradiction⟩, hquiet rfl, fun b' hb' => ?_,
        ?_, fun hs => ?_⟩
      · -- The bucket is later than the last one and at most the one after that.
        obtain rfl := Stage.offering.inj hb'
        rw [Bucket.le_def, Bucket.value_next] at hnear
        rw [Bucket.lt_def] at hlt
        change b.value = w.ticker.last.value + 1
        omega
      · rw [taken_of_offering (b := b) rfl]
        change Bucket.containing w.clock w.ticker.interval ≤ b.next
        rw [hb]
        exact Bucket.le_next b
      · exact absurd (.inl (Option.some_ne_none b)) hs
  | pass hstage hle =>
      exact ⟨hkept, ⟨h.running.1, fun hstage => by contradiction⟩, hquiet rfl,
        fun b hb => by contradiction, le_trans hle (Bucket.le_next _),
        fun hs => absurd (.inr (.inl rfl)) hs⟩
  | report b hstage hc hslot =>
      have hvalue := h.offering b hstage
      have hne : b ≠ w.ticker.last := by
        intro heq
        rw [heq] at hvalue
        omega
      rw [taken_of_offering hstage] at hnear
      refine ⟨hkept, ⟨h.running.1, fun hstage => by contradiction⟩, ?_,
        fun b hb => by contradiction, hnear, fun hs => absurd (.inr (.inl rfl)) hs⟩
      simp only [stepTo, hne, if_false]
      exact h.consecutive.snoc hvalue
  | sleep hstage =>
      rw [taken_eq_last (by rw [offered?, hstage])] at hnear
      refine ⟨hkept, ⟨h.running.1, fun hstage => by contradiction⟩, hquiet rfl,
        fun b hb => by contradiction, hnear, fun hs => ?_⟩
      -- The second reading is in no new bucket, so the sleep ends at the latest where the next
      -- bucket begins.
      have hle : Bucket.containing w.clock w.ticker.interval ≤ w.ticker.last := by
        apply Int.not_lt.mp
        intro hlt
        exact hs (.inr (.inr ⟨w.clock, by simp [stepTo, hstage], hlt⟩))
      change Within w.ticker.interval w.ticker.last
        (w.clock.nanos + (Stage.sleeping (w.ticker.sleepAt w.clock)).pause)
      rw [Stage.pause_sleeping]
      exact within_of_le (nanos_sleepAt_le _ _) hle
  | stop hstage hc =>
      rw [h.running.1] at hc
      contradiction

/-- The end of a sleep keeps the invariant: the clock is where the length of the sleep put it. -/
theorem Abreast.wake {length : Duration} (h : Abreast interval first w)
    (hstage : w.ticker.stage = .sleeping length)
    (hover : w.clock.nanos = w.stepped.nanos + length.nanos) :
    Abreast interval first { w with ticker := w.ticker.wake, stepped := w.clock } := by
  have hkept := h.kept.wake hstage
  have hnear := h.near
  rw [taken_eq_last (by rw [offered?, hstage])] at hnear
  have hwake : w.ticker.wake = { w.ticker with stage := .checking } := by
    rw [wake_of_sleeping hstage, if_neg (Bool.eq_false_iff.mp h.running.1)]
  rw [hwake] at hkept ⊢
  refine ⟨hkept, ⟨h.running.1, fun hstage => by contradiction⟩, h.consecutive,
    fun b hb => by contradiction, hnear, fun hs => ?_⟩
  have hstraddles : ¬ w.Straddles := by
    rintro (hoffer | hrest | hmissed)
    · exact hoffer (by rw [offered?, hstage])
    · rw [hstage] at hrest
      contradiction
    · exact hs (.inr (.inr hmissed))
  have hreach := h.reach hstraddles
  rw [hstage, Stage.pause_sleeping, ← hover] at hreach
  exact hreach

/-- Every move with an even clock keeps the invariant. -/
theorem Abreast.move {m : Move} (h : Abreast interval first w) (hm : w.move m = some w')
    (hok : w.Steady m w') : Abreast interval first w' := by
  obtain ⟨hsmooth, hspared⟩ := hok
  cases m with
  | clock now =>
      obtain rfl := Option.some.inj hm
      exact h.clock hsmooth.2 hspared
  | task =>
      obtain ⟨t, hstep, rfl⟩ := move_task hm
      exact h.task hstep
  | wake =>
      obtain ⟨length, hstage, rfl⟩ := move_wake hm
      change w.ticker.stage.IsOver w.stepped w.clock at hsmooth
      rw [hstage] at hsmooth
      exact h.wake hstage hsmooth
  | cancel => exact hsmooth.elim
  | tick =>
      have hkept := h.kept.move hm
      rcases move_tick hm with ⟨b, hslot, rfl⟩ | ⟨hslot, hstage, rfl⟩
      · exact ⟨hkept, h.running, h.consecutive, h.offering, h.near, h.reach⟩
      · exact absurd hstage h.running.2

/-- With an even clock, a bucket is reported at every boundary, unless one begins between the
readings of a turn and is over before the next turn. -/
theorem gapless_of_steady (h : Reaches Watch.move Steady (startCurrent interval now) w) :
    w.Gapless (.containing now interval) := by
  have habreast : Abreast interval (.containing now interval) w :=
    h.invariant (abreast_start interval now) fun _ _ _ hw hm hok => hw.move hm hok
  refine ⟨habreast.consecutive, habreast.kept.complete, fun b hfirst hpassed => ?_⟩
  by_cases hle : b ≤ w.ticker.last
  · exact .inl (habreast.consecutive.mem hfirst hle)
  · -- A bucket that was passed but not reported was taken up, so it is the one that waits for room.
    right
    have hnear := habreast.near
    rw [Bucket.le_def] at hnear hle
    rw [Bucket.lt_def] at hpassed
    rw [Bucket.value_next] at hnear
    have htaken : b.value ≤ w.taken.value := by omega
    cases hstage : w.ticker.stage with
    | offering b' =>
        have hvalue := habreast.offering b' hstage
        rw [taken_of_offering hstage] at htaken
        rw [Bucket.ext_value (a := b) (b := b') (by omega)]
    | checking | resting | sleeping | stopped =>
        rw [taken_eq_last (by rw [offered?, hstage])] at htaken
        exact absurd htaken hle

/-- A ticker with buckets of forty seconds, whose sleeps are cut short. Bucket 2 begins between the
readings of the turn that reports bucket 1. -/
def unhurried : List Move :=
  [.task, .task, .clock (.ofSeconds 30), .wake, .task, .task, .clock (.ofSeconds 40), .wake,
   .clock (.ofSeconds 59), .task, .clock (.ofSeconds 78), .task, .tick, .clock (.ofSeconds 82),
   .task, .clock (.ofSeconds 112), .wake, .task, .task, .tick]

/-- A ticker whose clock is read in time emits two buckets in a row. -/
theorem gapless_unhurried : ∃ w : Watch,
    w.received = [.clamp 1, .clamp 2] ∧
      w.checks = [.zero, .ofSeconds 30, .ofSeconds 59, .ofSeconds 112] ∧
      w.rests = [.zero, .ofSeconds 30, .ofSeconds 82] ∧ w.Gapless .zero := by
  have hrun : ((play Watch.move Steady unhurried (startCurrent (.ofSeconds 40) .zero)).any fun w =>
        w.received = [.clamp 1, .clamp 2] ∧
          w.checks = [.zero, .ofSeconds 30, .ofSeconds 59, .ofSeconds 112] ∧
          w.rests = [.zero, .ofSeconds 30, .ofSeconds 82]) = true := by
    decide
  simp only [Option.any_eq_true, decide_eq_true_eq] at hrun
  obtain ⟨w, hw, hreceived, hchecks, hrests⟩ := hrun
  exact ⟨w, hreceived, hchecks, hrests, gapless_of_steady (Reaches.refl.play hw)⟩

/-- A ticker with buckets of ten seconds, started a second before bucket 1, which begins between its
two readings. -/
def overslept : List Move :=
  [.task, .clock (.ofSeconds 11), .task, .clock (.ofSeconds 20), .wake, .task, .task, .tick]

/-- A ticker with buckets of a millisecond, which sleeps for a whole one and then is late by two
fifths. -/
def belated : List Move :=
  [.task, .task, .clock (.ofNanos 1950000), .wake, .clock (.ofNanos 2350000), .task, .task, .tick]

/-- A ticker with buckets of a millisecond, started in the last bucket but one. -/
def exhausted : List Move :=
  [.task, .task, .clock (.ofMillis 0x7fff_ffff_ffff_ffff), .wake, .task, .task, .tick, .task,
   .clock (.ofMillis 0x8000_0000_0000_0000), .wake, .task, .task,
   .clock (.ofMillis 0x8000_0000_0000_0001), .wake, .task]

/-- Even a clock without jumps passes boundaries unnoticed: bucket 1 is missed in the first two
runs, and in the third one the numbers of buckets run out. -/
theorem not_gapless_of_smooth :
    (∃ w, Reaches Watch.move Smooth (startCurrent (.ofSeconds 10) (.ofSeconds 9)) w ∧
      w.received = [.clamp 2] ∧ ¬ w.Gapless .zero) ∧
    (∃ w, Reaches Watch.move Smooth (startCurrent (.ofMillis 1) (.ofNanos 950000)) w ∧
      w.received = [.clamp 2] ∧ ¬ w.Gapless .zero) ∧
    ∃ w, Reaches Watch.move Smooth
      (startCurrent (.ofMillis 1) (.ofMillis 0x7fff_ffff_ffff_fffe)) w ∧
      w.reported = [.clamp 0x7fff_ffff_ffff_ffff] ∧
      w.clock.millis / Bucket.width w.ticker.interval = 0x8000_0000_0000_0001 := by
  have hmissed :
      ∀ w : Watch, w.received = [.clamp 2] → w.ticker.slot = none → ¬ w.Gapless .zero := by
    intro w hreceived hslot hgapless
    have hcomplete := hgapless.complete
    rw [hreceived, hslot, Option.toList_none, List.append_nil] at hcomplete
    have hdense := hgapless.consecutive
    rw [← hcomplete] at hdense
    have hvalue := hdense.value_eq 0 Nat.zero_lt_one
    change (Bucket.clamp 2).value = _ at hvalue
    exact absurd hvalue (by decide)
  refine ⟨?_, ?_, ?_⟩
  · have hrun :
        ((play Watch.move Smooth overslept
          (startCurrent (.ofSeconds 10) (.ofSeconds 9))).any fun w =>
        w.received = [.clamp 2] ∧ w.ticker.slot = none) = true := by
      decide
    simp only [Option.any_eq_true, decide_eq_true_eq] at hrun
    obtain ⟨w, hw, hreceived, hslot⟩ := hrun
    exact ⟨w, Reaches.refl.play hw, hreceived, hmissed w hreceived hslot⟩
  · have hrun :
        ((play Watch.move Smooth belated
          (startCurrent (.ofMillis 1) (.ofNanos 950000))).any fun w =>
        w.received = [.clamp 2] ∧ w.ticker.slot = none) = true := by
      decide
    simp only [Option.any_eq_true, decide_eq_true_eq] at hrun
    obtain ⟨w, hw, hreceived, hslot⟩ := hrun
    exact ⟨w, Reaches.refl.play hw, hreceived, hmissed w hreceived hslot⟩
  · have hrun : ((play Watch.move Smooth exhausted
        (startCurrent (.ofMillis 1) (.ofMillis 0x7fff_ffff_ffff_fffe))).any fun w =>
          w.reported = [.clamp 0x7fff_ffff_ffff_ffff] ∧
            w.clock.millis / Bucket.width w.ticker.interval = 0x8000_0000_0000_0001) = true := by
      decide
    simp only [Option.any_eq_true, decide_eq_true_eq] at hrun
    obtain ⟨w, hw, hreported, hclock⟩ := hrun
    exact ⟨w, Reaches.refl.play hw, hreported, hclock⟩

end Watch

end Keyring.Ticker
