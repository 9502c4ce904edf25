import Keyring.Time.Duration

/-! # Dates

The date and the time of day of a time since the epoch, in the Gregorian calendar without leap
seconds. Years are counted from March, so that the leap day is the last of its year, and in eras of
400 years, which all have the same length.
-/

namespace Keyring

/-- A date. -/
structure Date where
  year : Nat
  month : Nat
  day : Nat
  deriving DecidableEq, Repr

namespace Date

/-- Days in an era. -/
def daysPerEra : Nat := 146097

/-- Days from the start of the era of the year zero to the epoch. -/
def epochOffset : Nat := 719468

/-- The date of a number of days since the epoch. -/
def ofDays (days : Nat) : Date :=
  let shifted := days + epochOffset
  let ofEra := shifted % daysPerEra
  let yearOfEra := (ofEra - ofEra / 1460 + ofEra / 36524 - ofEra / 146096) / 365
  let ofYear := ofEra - (365 * yearOfEra + yearOfEra / 4 - yearOfEra / 100)
  let monthFromMarch := (5 * ofYear + 2) / 153
  let month := if monthFromMarch < 10 then monthFromMarch + 3 else monthFromMarch - 9
  let year := yearOfEra + shifted / daysPerEra * 400
  ⟨if month ≤ 2 then year + 1 else year, month, ofYear - (153 * monthFromMarch + 2) / 5 + 1⟩

example : ofDays 0 = ⟨1970, 1, 1⟩ := by decide

example : ofDays 19782 = ⟨2024, 2, 29⟩ := by decide

/-- A number with at least `width` digits. -/
def padded (width n : Nat) : String :=
  let digits := (toString n).toList
  String.ofList (List.replicate (width - digits.length) '0' ++ digits)

/-- A date as year, month and day. -/
def display (d : Date) : String :=
  padded 4 d.year ++ "-" ++ padded 2 d.month ++ "-" ++ padded 2 d.day

end Date

/-- The date of a time since the epoch. -/
def Duration.date (t : Duration) : Date := .ofDays (t.seconds / 86400)

/-- The date and the time of day, to the microsecond. -/
def Duration.stamp (t : Duration) : String :=
  let second := t.seconds % 86400
  t.date.display ++ "T" ++ Date.padded 2 (second / 3600) ++ ":" ++ Date.padded 2 (second / 60 % 60)
    ++ ":" ++ Date.padded 2 (second % 60) ++ "." ++ Date.padded 6 (t.subNanos / 1000) ++ "Z"

end Keyring
