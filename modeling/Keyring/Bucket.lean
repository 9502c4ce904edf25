import Keyring.Time.Duration

/-! # Buckets of time

A bucket is an index of a window of Unix time that is one interval wide. Every process derives the
same bucket from its clock and the interval, which is what lets them agree on the current key
without talking to each other. Intervals count in whole milliseconds, at least one; bucket numbers
are 64-bit integers and their arithmetic saturates.
-/

namespace Keyring

/-- Index of an interval-wide window of Unix time. -/
structure Bucket where
  /-- The bucket number. -/
  value : Int
  /-- Numbers are 64-bit integers. -/
  le_value : -0x8000_0000_0000_0000 ≤ value := by decide
  value_lt : value < 0x8000_0000_0000_0000 := by decide
  deriving DecidableEq

namespace Bucket

/-- The greatest bucket number. -/
def maxValue : Int := 0x7fff_ffff_ffff_ffff

/-- The least bucket number. -/
def minValue : Int := -0x8000_0000_0000_0000

/-- The bucket nearest to a number. -/
def clamp (n : Int) : Bucket where
  value := max minValue (min n maxValue)
  le_value := by simp only [minValue, maxValue]; omega
  value_lt := by simp only [minValue, maxValue]; omega

/-- The bucket of a number, if there is one. -/
def ofInt? (n : Int) : Option Bucket :=
  if h : -0x8000_0000_0000_0000 ≤ n ∧ n < 0x8000_0000_0000_0000 then some ⟨n, h.1, h.2⟩ else none

/-- Bucket number zero. -/
def zero : Bucket := ⟨0, by decide, by decide⟩

instance : Inhabited Bucket := ⟨zero⟩
instance : LE Bucket := ⟨fun a b => a.value ≤ b.value⟩
instance : LT Bucket := ⟨fun a b => a.value < b.value⟩
instance (a b : Bucket) : Decidable (a ≤ b) := inferInstanceAs (Decidable (a.value ≤ b.value))
instance (a b : Bucket) : Decidable (a < b) := inferInstanceAs (Decidable (a.value < b.value))

/-- The width of a bucket in milliseconds: the interval's whole milliseconds, at least one. -/
def width (interval : Duration) : Nat := max interval.millis 1

/-- The bucket that contains a time. -/
def containing (sinceEpoch interval : Duration) : Bucket :=
  clamp (sinceEpoch.millis / width interval : Nat)

/-- The time from `sinceEpoch` to the start of the next bucket, at most 2^64 - 1 milliseconds. -/
def untilNextBoundary (sinceEpoch interval : Duration) : Duration :=
  let w := width interval
  .ofMillis (min (w - sinceEpoch.millis % w) 0xffff_ffff_ffff_ffff)

/-- The bucket before this one. -/
def previous (b : Bucket) : Bucket := clamp (b.value - 1)

/-- The bucket after this one. -/
def next (b : Bucket) : Bucket := clamp (b.value + 1)

/-- The first millisecond of the calendar, in Unix time. -/
def calendarStart : Int := -8334601228800000

/-- The last millisecond of the calendar, in Unix time. -/
def calendarEnd : Int := 8210266876799999

/-- The start of the bucket in Unix milliseconds, if it fits 64 bits and lies in the calendar. -/
def startsAt? (b : Bucket) (interval : Duration) : Option Int :=
  let w : Int := width interval
  let t := b.value * w
  if w ≤ maxValue ∧ minValue ≤ t ∧ t ≤ maxValue ∧ calendarStart ≤ t ∧ t ≤ calendarEnd then some t
  else none

/-- The decimal text of a bucket number. -/
def display (b : Bucket) : String := toString b.value

/-- The text of a bucket in diagnostics. -/
def debug (b : Bucket) : String := s!"Bucket({b.display})"

/-- What the blob names of signing keys start with. -/
def blobPrefix : String := "rsa"

/-- The name of the blob that holds the bucket's signing key. -/
def blobName (b : Bucket) : String := blobPrefix ++ ":" ++ b.display

/-- How long a stored key outlives the bucket and its successor. -/
def grace : Duration := .ofSeconds 10

/-- The lifetime of a stored key: it signs for one interval and verifies for the next. -/
def blobTtl (interval : Duration) : Duration := interval.scale 2 + grace

end Bucket

end Keyring
