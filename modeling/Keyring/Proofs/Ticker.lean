import Keyring.Proofs.Bucket
import Keyring.Ticker

/-! # Steps of the ticker

What the task can do next, case by case, and that it only ever goes on to later buckets: what it may
yet report is later than all that it has reported.
-/

namespace Keyring.Ticker

variable {now : Duration} {t t' : Ticker} {b : Bucket} {bs : List Bucket}

/-- The steps that the task can make when the clock shows `now`. -/
inductive Step (now : Duration) (t : Ticker) : Ticker → Prop
  /-- It takes up a new bucket. -/
  | take (b : Bucket) (hstage : t.stage = .checking) (hb : Bucket.containing now t.interval = b)
      (hlt : t.last < b) :
    Step now t { t with stage := .offering b }
  /-- It finds no new bucket. -/
  | pass (hstage : t.stage = .checking) (hle : Bucket.containing now t.interval ≤ t.last) :
    Step now t { t with stage := .resting }
  /-- The slot takes the bucket. -/
  | report (b : Bucket) (hstage : t.stage = .offering b) (hc : t.cancelled = false)
      (hslot : t.slot = none) :
    Step now t { t with slot := some b, last := b, stage := .resting }
  /-- It goes to sleep. -/
  | sleep (hstage : t.stage = .resting) : Step now t { t with stage := .sleeping (t.sleepAt now) }
  /-- It ends where it waits. -/
  | stop (hstage : (∃ b, t.stage = .offering b) ∨ ∃ length, t.stage = .sleeping length)
      (hc : t.cancelled = true) :
    Step now t { t with stage := .stopped }

/-- What one step of a ticker can do. -/
theorem step_cases (h : t.step now = some t') : t.Step now t' := by
  unfold step at h
  split at h
  · next hstage =>
      obtain rfl := Option.some.inj h
      by_cases hlt : t.last < Bucket.containing now t.interval
      · rw [if_pos hlt]
        exact .take _ hstage rfl hlt
      · rw [if_neg hlt]
        exact .pass hstage (Int.not_lt.mp hlt)
  · next b hstage =>
      split at h
      · next hc =>
          obtain rfl := Option.some.inj h
          exact .stop (.inl ⟨b, hstage⟩) hc
      · next hc =>
          split at h
          · next hslot =>
              obtain rfl := Option.some.inj h
              exact .report b hstage (Bool.eq_false_iff.mpr hc) (Option.isNone_iff_eq_none.mp hslot)
          · contradiction
  · next hstage =>
      obtain rfl := Option.some.inj h
      exact .sleep hstage
  · next length hstage =>
      split at h
      · next hc =>
          obtain rfl := Option.some.inj h
          exact .stop (.inr ⟨length, hstage⟩) hc
      · contradiction
  · contradiction

/-- No step changes the interval. -/
theorem Step.interval_eq (h : t.Step now t') : t'.interval = t.interval := by
  cases h <;> rfl

/-- A ticker that is woken stops if it was cancelled, and else reads the clock. -/
theorem wake_of_sleeping {length : Duration} (h : t.stage = .sleeping length) :
    t.wake = { t with stage := if t.cancelled then .stopped else .checking } := by
  rw [wake, h]

/-- The ticker is ahead of some buckets: what it may yet report is later than all of them. -/
structure Ahead (bs : List Bucket) (t : Ticker) : Prop where
  le_last : ∀ x ∈ bs, x ≤ t.last
  lt_slot : ∀ b ∈ t.slot, (∀ x ∈ bs, x < b) ∧ b ≤ t.last
  last_lt : ∀ b, t.stage = .offering b → t.last < b

namespace Ahead

/-- A ticker is ahead of the bucket that counts as reported. -/
theorem startingAt (interval : Duration) (last : Bucket) :
    (startingAt interval last).Ahead [last] where
  le_last x hx := by
    obtain rfl := List.mem_singleton.mp hx
    exact le_refl x
  lt_slot b hb := by contradiction
  last_lt b hb := by contradiction

/-- A step keeps the emitted buckets ahead of those before. -/
theorem step (h : t.Ahead bs) (hstep : t.Step now t') : t'.Ahead bs := by
  cases hstep with
  | take b hstage hb hlt =>
      refine ⟨h.le_last, h.lt_slot, fun b' hb' => ?_⟩
      obtain rfl := Stage.offering.inj hb'
      exact hlt
  | report b hstage hc hslot =>
      have hlt := h.last_lt b hstage
      refine ⟨fun x hx => le_of_lt (lt_of_le_of_lt (h.le_last x hx) hlt), fun b' hb' => ?_,
        fun b hb => by contradiction⟩
      obtain rfl := Option.some.inj hb'
      exact ⟨fun x hx => lt_of_le_of_lt (h.le_last x hx) hlt, le_refl b⟩
  | pass | sleep | stop => exact ⟨h.le_last, h.lt_slot, fun b hb => by contradiction⟩

/-- So does waking it. -/
theorem wake (h : t.Ahead bs) : t.wake.Ahead bs := by
  unfold Ticker.wake
  split
  · refine ⟨h.le_last, h.lt_slot, fun b hb => ?_⟩
    simp only at hb
    split at hb <;> contradiction
  · exact h

/-- So does cancelling it. -/
theorem cancel (h : t.Ahead bs) : t.cancel.Ahead bs := ⟨h.le_last, h.lt_slot, h.last_lt⟩

/-- A ticker whose slot is emptied is ahead of what was in it. -/
theorem receive (h : t.Ahead bs) (hslot : t.slot = some b) :
    { t with slot := none }.Ahead (bs ++ [b]) where
  le_last x hx := by
    rcases List.mem_append.mp hx with hx | hx
    · exact h.le_last x hx
    · obtain rfl := List.mem_singleton.mp hx
      exact (h.lt_slot x hslot).2
  lt_slot b hb := by contradiction
  last_lt := h.last_lt

end Ahead

end Keyring.Ticker
