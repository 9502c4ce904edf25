import Keyring.Proofs.Ticker.Boundaries
import Mathlib.Order.Bounds.Defs
import Mathlib.Order.Monotone.Defs

/-! # Buckets partition time

Time is cut at the multiples of the width, in whole milliseconds. A bucket whose number is not
clamped holds the times from one cut to the next, its start is the first of them, and the time to
the next boundary is exactly what is left of the bucket. So no sleep of a ticker is empty, and none
goes beyond the next bucket.
-/

namespace Keyring.Bucket

variable {interval t u d : Duration} {b : Bucket} {start : Int}

/-! ## Cuts -/

/-- A bucket holds the times from its number of widths on, for a width. -/
theorem containing_eq_iff (ht : (containing t interval).value < maxValue) :
    containing t interval = b ↔
      b.value * width interval ≤ t.millis ∧ t.millis < (b.value + 1) * width interval := by
  have hw : (0 : Int) < width interval := by exact_mod_cast width_pos interval
  have hvalue : (containing t interval).value = (t.millis : Int) / width interval := by
    rw [value_containing] at ht ⊢
    rw [← Int.natCast_ediv]
    omega
  rw [← Int.le_ediv_iff_mul_le hw, ← Int.ediv_lt_iff_lt_mul hw, ← hvalue, Int.lt_add_one_iff]
  constructor
  · rintro rfl
    exact ⟨Int.le_refl _, Int.le_refl _⟩
  · rintro ⟨hle, hge⟩
    exact ext_value (Int.le_antisymm hge hle)

/-- The start of a bucket is the first time in it. -/
theorem isLeast_start (hb : 0 ≤ b.value) (hstart : b.startsAt? interval = some start) :
    (Duration.ofMillis start.toNat).millis = start ∧
      IsLeast {u | containing u interval = b} (Duration.ofMillis start.toNat) := by
  have hw : (0 : Int) < width interval := by exact_mod_cast width_pos interval
  rw [startsAt?] at hstart
  simp only [Option.ite_none_right_eq_some, Option.some.injEq] at hstart
  obtain ⟨⟨-, -, -, -, hend⟩, rfl⟩ := hstart
  have hnonneg : 0 ≤ b.value * width interval := Int.mul_nonneg hb (Int.le_of_lt hw)
  -- The calendar ends long before the longest duration, so the start is not cut.
  have hmillis : ((Duration.ofMillis (b.value * width interval).toNat).millis : Int) =
      b.value * width interval := by
    generalize b.value * width interval = start at hend hnonneg ⊢
    simp only [Duration.millis, Duration.nanos_ofMillis, Duration.nanosPerMilli, Duration.maxNanos]
    rw [calendarEnd] at hend
    omega
  refine ⟨hmillis, ?_, ?_⟩
  · have hlt := b.value_lt
    apply ext_value
    rw [value_containing, Int.natCast_ediv, hmillis, Int.mul_ediv_cancel _ (Int.ne_of_gt hw),
      maxValue]
    omega
  · intro u hu
    have hreached : b.value ≤ (u.millis : Int) / width interval := by
      rw [← show containing u interval = b from hu, value_containing, Int.natCast_ediv]
      omega
    have hle : (b.value * width interval).toNat ≤ u.millis := by
      have h := (Int.le_ediv_iff_mul_le hw).mp hreached
      omega
    rw [Duration.le_def, Duration.nanos_ofMillis]
    calc min ((b.value * width interval).toNat * Duration.nanosPerMilli) Duration.maxNanos
        ≤ (b.value * width interval).toNat * Duration.nanosPerMilli := Nat.min_le_left _ _
      _ ≤ u.millis * Duration.nanosPerMilli := Nat.mul_le_mul_right _ hle
      _ ≤ u.nanos := Nat.div_mul_le_self _ _

/-! ## What is left of a bucket -/

/-- Between 1 and a whole width of milliseconds are left. -/
theorem left_pos_and_le (t interval : Duration) :
    1 ≤ width interval - t.millis % width interval ∧
      width interval - t.millis % width interval ≤ width interval := by
  have hmod := Nat.mod_lt t.millis (width_pos interval)
  omega

/-- What is left ends the bucket. -/
theorem millis_add_left (t interval : Duration) :
    t.millis + (width interval - t.millis % width interval) =
      width interval * (t.millis / width interval + 1) := by
  have hmod := Nat.mod_lt t.millis (width_pos interval)
  have hsplit := Nat.div_add_mod t.millis (width interval)
  rw [Nat.mul_succ]
  omega

/-- Until the last millisecond that is left, the clock stays in the bucket. -/
theorem containing_add (hd : d ≤ untilNextBoundary t interval - Duration.ofMillis 1) :
    containing (t + d) interval = containing t interval := by
  have hleft := left_pos_and_le t interval
  have hend := millis_add_left t interval
  have hle : t ≤ t + d := by
    have hmax := t.nanos_le_maxNanos
    rw [Duration.le_def, Duration.nanos_add]
    omega
  have hmillis : (t + d).millis < width interval * (t.millis / width interval + 1) := by
    rw [← hend]
    rw [Duration.le_def, Duration.nanos_sub, nanos_untilNextBoundary, Duration.nanos_ofMillis] at hd
    simp only [Duration.millis, Duration.nanos_add, Duration.nanosPerMilli, Duration.maxNanos]
      at hd hleft ⊢
    omega
  have hdiv : (t + d).millis / width interval ≤ t.millis / width interval :=
    Nat.le_of_lt_succ (Nat.div_lt_of_lt_mul hmillis)
  have hmono := containing_mono hle interval
  rw [le_def] at hmono
  apply ext_value
  rw [value_containing, value_containing] at hmono ⊢
  omega

/-- When what is left is over, the next bucket begins. -/
theorem containing_add_untilNextBoundary (hwidth : width interval ≤ 0xffff_ffff_ffff_ffff)
    (hsum : t.nanos + (untilNextBoundary t interval).nanos ≤ Duration.maxNanos) :
    containing (t + untilNextBoundary t interval) interval = (containing t interval).next := by
  have hleft := left_pos_and_le t interval
  have hend := millis_add_left t interval
  have hmillis : (t + untilNextBoundary t interval).millis =
      width interval * (t.millis / width interval + 1) := by
    have hmin : min (width interval - t.millis % width interval) 0xffff_ffff_ffff_ffff =
        width interval - t.millis % width interval := Nat.min_eq_left (Nat.le_trans hleft.2 hwidth)
    rw [← hend, Duration.millis, Duration.nanos_add, Nat.min_eq_left hsum, nanos_untilNextBoundary,
      hmin, Nat.add_mul_div_right _ _ (by decide), ← Duration.millis]
  apply ext_value
  rw [value_next, value_containing, value_containing, hmillis,
    Nat.mul_div_cancel_left _ (width_pos interval)]
  omega

/-! ## The partition -/

/-- The buckets of an interval partition time, and a clock that is read in one of them knows when
the next one begins. -/
structure IsPartition (interval : Duration) : Prop where
  /-- A bucket below the greatest one holds the times from its number of widths on, for a width. -/
  mem_iff : ∀ t b, (containing t interval).value < maxValue →
    (containing t interval = b ↔
      b.value * width interval ≤ t.millis ∧ t.millis < (b.value + 1) * width interval)
  /-- Later times lie in later buckets. -/
  monotone : Monotone fun t => containing t interval
  /-- A start is the first time of its bucket, to the millisecond that it states. -/
  start : ∀ b (start : Int), 0 ≤ b.value → b.startsAt? interval = some start →
    (Duration.ofMillis start.toNat).millis = start ∧
      IsLeast {t | containing t interval = b} (Duration.ofMillis start.toNat)
  /-- At least 1 ms is left to the next boundary, and at most a width. -/
  until_pos : ∀ t, .ofMillis 1 ≤ untilNextBoundary t interval
  until_le : ∀ t, untilNextBoundary t interval ≤ .ofMillis (width interval)
  /-- The next bucket begins at the boundary, unless 2^64 ms do not reach it. -/
  next : ∀ t, width interval ≤ 0xffff_ffff_ffff_ffff →
    t.nanos + (untilNextBoundary t interval).nanos ≤ Duration.maxNanos →
      containing (t + untilNextBoundary t interval) interval = (containing t interval).next
  /-- The bucket lasts until then. -/
  lasts : ∀ t d, d ≤ untilNextBoundary t interval - .ofMillis 1 →
    containing (t + d) interval = containing t interval
  /-- A ticker sleeps for some time, and never beyond the next bucket. -/
  sleep : ∀ (ticker : Ticker) t, ticker.interval = interval →
    Duration.zero < ticker.sleepAt t ∧
      ∀ d ≤ ticker.sleepAt t, containing (t + d) interval ≤ (containing t interval).next

/-- Whatever the interval, its buckets partition time. -/
theorem isPartition (interval : Duration) : IsPartition interval where
  mem_iff _ _ ht := containing_eq_iff ht
  monotone _ _ h := containing_mono h interval
  start _ _ hb hstart := isLeast_start hb hstart
  until_pos t := by
    have hleft := left_pos_and_le t interval
    rw [Duration.le_def, nanos_untilNextBoundary, Duration.nanos_ofMillis, Duration.nanosPerMilli]
    omega
  until_le t := by
    have hleft := left_pos_and_le t interval
    have hnanos := (untilNextBoundary t interval).nanos_le_maxNanos
    rw [Duration.le_def, Duration.nanos_ofMillis]
    rw [nanos_untilNextBoundary, Duration.nanosPerMilli] at hnanos ⊢
    omega
  next _ hwidth hsum := containing_add_untilNextBoundary hwidth hsum
  lasts _ _ hd := containing_add hd
  sleep ticker t hticker := by
    subst hticker
    refine ⟨ticker.sleepAt_pos t, fun d hd => ?_⟩
    have hsleep := Nat.le_trans hd (ticker.nanos_sleepAt_le t)
    apply containing_le_next (Nat.le_refl _)
    have hadd : (t + d).nanos ≤ t.nanos + d.nanos := Nat.min_le_left _ _
    rw [Nat.add_mul]
    omega

/-- Buckets of two and a half milliseconds are two milliseconds wide. Just before 9 ms have passed,
bucket 4 has two milliseconds left, of which it lasts one for certain, and then bucket 5 begins. -/
theorem isPartition_fractional :
    containing (.ofNanos 8999999) (.ofNanos 2500000) = clamp 4 ∧
      untilNextBoundary (.ofNanos 8999999) (.ofNanos 2500000) = .ofMillis 2 ∧
      containing (.ofNanos 8999999 + .ofMillis 1) (.ofNanos 2500000) = clamp 4 ∧
      containing (.ofNanos 8999999 + .ofMillis 2) (.ofNanos 2500000) = clamp 5 := by
  have h := isPartition (.ofNanos 2500000)
  have hleft : untilNextBoundary (.ofNanos 8999999) (.ofNanos 2500000) = .ofMillis 2 := by decide
  have hnow : containing (.ofNanos 8999999) (.ofNanos 2500000) = clamp 4 :=
    (h.mem_iff _ _ (by decide)).mpr ⟨by decide, by decide⟩
  have hlasts := h.lasts (.ofNanos 8999999) (.ofMillis 1) (by decide)
  have hnext := h.next (.ofNanos 8999999) (by decide) (by decide)
  rw [hleft, hnow] at hnext
  rw [hnow] at hlasts
  exact ⟨hnow, hleft, hlasts, hnext.trans (by decide)⟩

end Keyring.Bucket
