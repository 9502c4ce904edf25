import Keyring.Bucket
import Keyring.Proofs.Text.Decimal
import Mathlib.Order.Defs.PartialOrder

/-! # Buckets, their names and the lives of their blobs

Times keep their order in buckets, distinct buckets have distinct blob names, and the blob that is
stored for a bucket while the clock is in it outlives the next bucket. The last fact needs a clock
that still counts: from the greatest bucket number on, all times fall into one bucket.
-/

namespace Keyring

namespace Duration

theorem le_def {a b : Duration} : a ≤ b ↔ a.nanos ≤ b.nanos := Iff.rfl

theorem lt_def {a b : Duration} : a < b ↔ a.nanos < b.nanos := Iff.rfl

theorem nanos_ofMillis (n : Nat) : (ofMillis n).nanos = min (n * nanosPerMilli) maxNanos := rfl

/-- The difference is exact down to zero. -/
theorem nanos_sub (a b : Duration) : (a - b).nanos = min (a.nanos - b.nanos) maxNanos := rfl

instance : Preorder Duration where
  le_refl d := Nat.le_refl d.nanos
  le_trans _ _ _ := Nat.le_trans
  lt_iff_le_not_ge _ _ := Nat.lt_iff_le_and_not_ge

end Duration

namespace Bucket

theorem le_def {a b : Bucket} : a ≤ b ↔ a.value ≤ b.value := Iff.rfl

theorem lt_def {a b : Bucket} : a < b ↔ a.value < b.value := Iff.rfl

instance : Preorder Bucket where
  le_refl b := Int.le_refl b.value
  le_trans _ _ _ := Int.le_trans
  lt_iff_le_not_ge _ _ := Int.lt_iff_le_and_not_ge

/-- A bucket is its number. -/
theorem ext_value {a b : Bucket} (h : a.value = b.value) : a = b := by
  cases a
  cases b
  cases h
  rfl

/-! ## Order -/

/-- Every interval is taken to be a millisecond at least. -/
theorem width_pos (interval : Duration) : 0 < width interval := by
  rw [width]
  omega

/-- The number of the bucket of a time, up to the greatest number. -/
theorem value_containing (now interval : Duration) :
    (containing now interval).value = min ((now.millis / width interval : Nat) : Int) maxValue := by
  have hnonneg : (0 : Int) ≤ (now.millis / width interval : Nat) := Int.natCast_nonneg _
  simp only [containing, clamp, minValue, maxValue]
  omega

/-- No time is in a bucket before the first. -/
theorem value_containing_nonneg (now interval : Duration) :
    0 ≤ (containing now interval).value := by
  have hnonneg : (0 : Int) ≤ (now.millis / width interval : Nat) := Int.natCast_nonneg _
  rw [value_containing, maxValue]
  omega

/-- Later times fall into later buckets. -/
theorem containing_mono {a b : Duration} (h : a ≤ b) (interval : Duration) :
    containing a interval ≤ containing b interval := by
  have hmillis : a.millis ≤ b.millis := Nat.div_le_div_right h
  have hdiv : a.millis / width interval ≤ b.millis / width interval := Nat.div_le_div_right hmillis
  rw [le_def, value_containing, value_containing]
  omega

/-- The number of the bucket before, which is clamped at the least number. -/
theorem value_previous (b : Bucket) : b.previous.value = max minValue (b.value - 1) := by
  have hlt := b.value_lt
  simp only [previous, clamp, minValue, maxValue]
  omega

/-- The number of the bucket after, which is clamped at the greatest number. -/
theorem value_next (b : Bucket) : b.next.value = min (b.value + 1) maxValue := by
  have hle := b.le_value
  simp only [next, clamp, minValue, maxValue]
  omega

/-- The bucket after is never before. -/
theorem le_next (b : Bucket) : b ≤ b.next := by
  have hlt := b.value_lt
  rw [le_def, value_next, maxValue]
  omega

/-- The time to the next boundary is what is left of the bucket, or 2^64 - 1 ms. -/
theorem nanos_untilNextBoundary (t interval : Duration) :
    (untilNextBoundary t interval).nanos =
      min (width interval - t.millis % width interval) 0xffff_ffff_ffff_ffff *
        Duration.nanosPerMilli := by
  simp only [untilNextBoundary, Duration.nanos_ofMillis, Duration.nanosPerMilli, Duration.maxNanos]
  omega

/-- The bucket after a later one is later. -/
theorem next_mono {a b : Bucket} (h : a ≤ b) : a.next ≤ b.next := by
  rw [le_def] at h ⊢
  rw [value_next, value_next]
  omega

/-- From any time of a bucket until a width less a millisecond after its end, the clock is at most
in the next bucket. -/
theorem containing_le_next {t u interval : Duration} {ms : Nat}
    (hms : ms ≤ width interval - t.millis % width interval)
    (hu : u.nanos ≤ t.nanos + (ms + (width interval - 1)) * Duration.nanosPerMilli) :
    containing u interval ≤ (containing t interval).next := by
  have hw := width_pos interval
  have hmillis : u.millis ≤ t.millis + (ms + (width interval - 1)) := by
    rw [Duration.nanosPerMilli] at hu
    simp only [Duration.millis, Duration.nanosPerMilli]
    omega
  have hdiv : u.millis / width interval < t.millis / width interval + 2 := by
    have hsplit := Nat.div_add_mod t.millis (width interval)
    have hmod := Nat.mod_lt t.millis hw
    apply Nat.div_lt_of_lt_mul
    rw [Nat.mul_add]
    omega
  rw [le_def, value_next, value_containing, value_containing, maxValue]
  omega

/-- What comes after the bucket before a bucket of a time is the bucket itself. -/
theorem next_previous_containing (now interval : Duration) :
    (containing now interval).previous.next = containing now interval := by
  apply ext_value
  have hnonneg := value_containing_nonneg now interval
  have hlt := (containing now interval).value_lt
  rw [value_next, value_previous, minValue, maxValue]
  omega

/-- Only the bucket of a time and the one before it are followed by the bucket of the time. -/
theorem next_eq_containing {b : Bucket} {now interval : Duration}
    (h : b.next = containing now interval) :
    b = containing now interval ∨ b = (containing now interval).previous := by
  have hvalue := value_next b
  have hlt := b.value_lt
  rw [h] at hvalue
  by_cases hb : b.value = (containing now interval).value
  · exact .inl (ext_value hb)
  · right
    -- The next bucket's number is not clamped, for `b` has another number than the bucket after it.
    apply ext_value
    have hnonneg := value_containing_nonneg now interval
    rw [value_previous, minValue]
    rw [maxValue] at hvalue
    omega

/-! ## Names -/

/-- The text of a number: its digits, after a sign if it is negative. -/
theorem toList_display (b : Bucket) :
    b.display.toList =
      if 0 ≤ b.value then Nat.toDigits 10 b.value.natAbs
        else '-' :: Nat.toDigits 10 b.value.natAbs := by
  rw [display, toList_toString]

/-- Buckets are shown by different texts. -/
theorem display_injective {a b : Bucket} (h : a.display = b.display) : a = b := by
  have hlist : a.display.toList = b.display.toList := by rw [h]
  -- No digit is a sign, so both numbers have the same sign.
  have hsign : ∀ n rest, Nat.toDigits 10 n ≠ '-' :: rest := by
    intro n rest hn
    have hdigit := Nat.isDigit_of_mem_toDigits (n := n) (b := 10) (c := '-') (by decide) (by decide)
      (by rw [hn]; exact List.mem_cons_self)
    exact absurd hdigit (by decide)
  apply ext_value
  rw [toList_display, toList_display] at hlist
  split at hlist <;> split at hlist
  · have habs := toDigits_injective hlist
    omega
  · exact absurd hlist (hsign _ _)
  · exact absurd hlist.symm (hsign _ _)
  · have habs := toDigits_injective (List.cons.inj hlist).2
    omega

/-- Distinct buckets have distinct blob names. -/
theorem blobName_injective {a b : Bucket} (h : a.blobName = b.blobName) : a = b := by
  apply display_injective
  rw [blobName, blobName] at h
  exact String.append_right_inj _ |>.mp h

/-- Buckets have blobs of different names. -/
@[simp] theorem blobName_inj {a b : Bucket} : a.blobName = b.blobName ↔ a = b :=
  ⟨blobName_injective, congrArg blobName⟩

/-! ## Lives -/

/-- The clock still counts: it has not reached its last moment, and its bucket number is not
clamped. -/
def Counts (interval now : Duration) : Prop :=
  now < Duration.longest ∧ ((now.millis / width interval : Nat) : Int) ≤ maxValue

instance (interval now : Duration) : Decidable (Counts interval now) :=
  inferInstanceAs (Decidable (_ ∧ _))

/-- The clock is in the bucket or in the next one. -/
def Covers (interval : Duration) (b : Bucket) (now : Duration) : Prop :=
  containing now interval = b ∨ containing now interval = b.next

instance (interval : Duration) (b : Bucket) (now : Duration) : Decidable (Covers interval b now) :=
  inferInstanceAs (Decidable (_ ∨ _))

/-- Once the clock has reached a bucket, it is in the bucket or in the next one until it passes
that. -/
theorem covers_iff_le_next {interval now : Duration} {b : Bucket}
    (h : b ≤ containing now interval) :
    Covers interval b now ↔ containing now interval ≤ b.next := by
  constructor
  · rintro (hb | hb)
    · rw [hb]
      exact le_next b
    · rw [hb]
  · intro hle
    have hlt := b.value_lt
    have hnext := value_next b
    rw [maxValue] at hnext
    rw [le_def] at h hle
    by_cases heq : containing now interval = b
    · exact .inl heq
    · right
      have hne : (containing now interval).value ≠ b.value := fun hv => heq (ext_value hv)
      apply ext_value
      omega

/-- A time between the start of a bucket and a time in the bucket or the next one is there, too. -/
theorem covers_of_start_le {interval : Duration} {b : Bucket} {t u : Duration}
    (hstart : b.value * width interval ≤ t.millis) (htu : t ≤ u) (hu : Covers interval b u) :
    Covers interval b t := by
  have hreached : b ≤ containing t interval := by
    have hw : (0 : Int) < width interval := by exact_mod_cast width_pos interval
    have hdiv : b.value ≤ (t.millis : Int) / width interval := Int.le_ediv_of_mul_le hw hstart
    have hlt := b.value_lt
    rw [le_def, value_containing, Int.natCast_ediv, maxValue]
    omega
  rw [covers_iff_le_next hreached]
  have hmono := containing_mono htu interval
  exact le_trans hmono ((covers_iff_le_next (le_trans hreached hmono)).mp hu)

/-- While the clock counts, a bucket and the next one together last less than two widths. -/
theorem millis_lt_of_covers {interval : Duration} {b : Bucket} {t u : Duration}
    (ht : Covers interval b t) (hu : Covers interval b u) (hcounts : Counts interval u) :
    u.millis < t.millis + 2 * width interval := by
  have hw := width_pos interval
  -- At `t` the clock has reached the bucket, and at `u` it has not passed the next one.
  have hb : b.value ≤ (t.millis / width interval : Nat) := by
    have hnext := le_next b
    rw [le_def] at hnext
    rcases ht with h | h
    · rw [← h, value_containing]
      omega
    · rw [← h, value_containing] at hnext
      omega
  have hle : ((u.millis / width interval : Nat) : Int) ≤ b.value + 1 := by
    have hcap := hcounts.2
    have hvalue := value_containing u interval
    rcases hu with h | h
    · rw [h] at hvalue
      omega
    · rw [h, value_next] at hvalue
      omega
  have hdiv : u.millis / width interval ≤ t.millis / width interval + 1 := by omega
  -- From quotients back to milliseconds.
  have hu' : u.millis < width interval * (u.millis / width interval) + width interval := by
    have hmod := Nat.mod_lt u.millis hw
    have hsplit := Nat.div_add_mod u.millis (width interval)
    omega
  have ht' : width interval * (t.millis / width interval) ≤ t.millis := Nat.mul_div_le _ _
  have hmul : width interval * (u.millis / width interval) ≤
      width interval * (t.millis / width interval + 1) := Nat.mul_le_mul_left _ hdiv
  rw [Nat.mul_succ] at hmul
  omega

/-- A key is stored for twice the interval and ten seconds, or for the longest duration. -/
theorem nanos_blobTtl (interval : Duration) :
    (blobTtl interval).nanos = min (2 * interval.nanos + 10000000000) Duration.maxNanos := by
  have hgrace : grace.nanos = 10000000000 := by decide
  rw [blobTtl, Duration.nanos_add, Duration.nanos_scale, hgrace]
  omega

/-- The lifetime covers two widths, unless it is the longest duration. -/
theorem two_widths_le_blobTtl (interval : Duration) :
    min (2 * width interval * Duration.nanosPerMilli) Duration.maxNanos ≤
      (blobTtl interval).nanos := by
  have hmillis : interval.millis * 1000000 ≤ interval.nanos := Nat.div_mul_le_self _ _
  rw [nanos_blobTtl, width, Duration.nanosPerMilli]
  omega

/-- A blob that was stored for a bucket in time outlives the next bucket. -/
theorem lt_expiry_of_covers {interval : Duration} {b : Bucket} {t u : Duration}
    (ht : Covers interval b t) (hu : Covers interval b u) (hcounts : Counts interval u) :
    u < t + blobTtl interval := by
  have hmillis := millis_lt_of_covers ht hu hcounts
  have httl := two_widths_le_blobTtl interval
  have hend : u.nanos < Duration.maxNanos := by
    have h := hcounts.1
    rw [Duration.lt_def] at h
    exact Nat.lt_of_lt_of_le h (Duration.nanos_le_maxNanos _)
  -- Whole milliseconds are less than one apart from the times they stand for.
  have hu' : u.nanos < (u.millis + 1) * 1000000 := by
    have h := Nat.lt_div_mul_add (a := u.nanos) (b := 1000000) (by decide)
    rw [Duration.millis, Duration.nanosPerMilli]
    omega
  have ht' : t.millis * 1000000 ≤ t.nanos := Nat.div_mul_le_self _ _
  rw [Duration.lt_def, Duration.nanos_add]
  rw [Duration.nanosPerMilli] at httl
  omega

end Bucket

end Keyring
