/-! # Durations

A span of time in nanoseconds, at most 2^64 - 1 seconds and 999999999 nanoseconds. Arithmetic
saturates at the longest duration instead of failing, so a bound on a sum is a `min`.
-/

namespace Keyring

/-- A span of time with nanosecond resolution. -/
structure Duration where
  /-- The length in nanoseconds. -/
  nanos : Nat
  /-- Seconds fit 64 bits. -/
  nanos_lt : nanos < 0x1_0000_0000_0000_0000 * 1000000000 := by decide
  deriving DecidableEq

namespace Duration

/-- Nanoseconds in a second. -/
def nanosPerSecond : Nat := 1000000000

/-- Nanoseconds in a millisecond. -/
def nanosPerMilli : Nat := 1000000

/-- The length of the longest duration in nanoseconds. -/
def maxNanos : Nat := 0x1_0000_0000_0000_0000 * 1000000000 - 1

/-- The duration of `n` nanoseconds, or the longest one. -/
def ofNanos (n : Nat) : Duration :=
  ⟨min n maxNanos, Nat.lt_of_le_of_lt (Nat.min_le_right n maxNanos) (by decide)⟩

/-- The longest duration. -/
def longest : Duration := ofNanos maxNanos

/-- The empty duration. -/
def zero : Duration := ⟨0, by decide⟩

instance : Inhabited Duration := ⟨zero⟩

/-- The duration of `n` seconds, or the longest one. -/
def ofSeconds (n : Nat) : Duration := ofNanos (n * nanosPerSecond)

/-- The duration of `n` milliseconds, or the longest one. -/
def ofMillis (n : Nat) : Duration := ofNanos (n * nanosPerMilli)

/-- Whole seconds. -/
def seconds (d : Duration) : Nat := d.nanos / nanosPerSecond

/-- Nanoseconds beyond the whole seconds. -/
def subNanos (d : Duration) : Nat := d.nanos % nanosPerSecond

/-- Whole milliseconds. -/
def millis (d : Duration) : Nat := d.nanos / nanosPerMilli

/-- Milliseconds, a started one counted as whole. -/
def millisCeil (d : Duration) : Nat := (d.nanos + (nanosPerMilli - 1)) / nanosPerMilli

/-- Saturating sum. -/
def add (a b : Duration) : Duration := ofNanos (a.nanos + b.nanos)

/-- Saturating multiple. -/
def scale (k : Nat) (d : Duration) : Duration := ofNanos (k * d.nanos)

/-- Truncated difference. -/
def sub (a b : Duration) : Duration := ofNanos (a.nanos - b.nanos)

instance : Add Duration := ⟨add⟩
instance : Sub Duration := ⟨sub⟩
instance : LE Duration := ⟨fun a b => a.nanos ≤ b.nanos⟩
instance : LT Duration := ⟨fun a b => a.nanos < b.nanos⟩
instance (a b : Duration) : Decidable (a ≤ b) := inferInstanceAs (Decidable (a.nanos ≤ b.nanos))
instance (a b : Duration) : Decidable (a < b) := inferInstanceAs (Decidable (a.nanos < b.nanos))
instance : Min Duration := ⟨fun a b => if a ≤ b then a else b⟩

@[simp] theorem nanos_ofNanos (n : Nat) : (ofNanos n).nanos = min n maxNanos := rfl

/-- The sum is exact up to the longest duration. -/
@[simp] theorem nanos_add (a b : Duration) : (a + b).nanos = min (a.nanos + b.nanos) maxNanos := rfl

@[simp] theorem nanos_scale (k : Nat) (d : Duration) :
    (d.scale k).nanos = min (k * d.nanos) maxNanos := rfl

theorem nanos_le_maxNanos (d : Duration) : d.nanos ≤ maxNanos := by
  have := d.nanos_lt
  simp only [maxNanos]
  omega

/-- The digits after the point: `places` digits of `fraction` without trailing zeros, and no point
when nothing is left. -/
def showFraction (places fraction : Nat) : String :=
  let ds := Nat.toDigits 10 fraction
  let padded := List.replicate (places - ds.length) '0' ++ ds
  let kept := (padded.reverse.dropWhile (· = '0')).reverse
  if kept.isEmpty then "" else String.ofList ('.' :: kept)

/-- The text of a duration in diagnostics, in the largest of `s`, `ms`, `µs` and `ns` that gives a
whole part. -/
def debug (d : Duration) : String :=
  if d.seconds > 0 then s!"{d.seconds}{showFraction 9 d.subNanos}s"
  else if d.nanos ≥ 1000000 then s!"{d.nanos / 1000000}{showFraction 6 (d.nanos % 1000000)}ms"
  else if d.nanos ≥ 1000 then s!"{d.nanos / 1000}{showFraction 3 (d.nanos % 1000)}µs"
  else s!"{d.nanos}ns"

end Duration

end Keyring
