import Keyring.Json.Numeral
import Keyring.Toml.Strings

/-! # Numbers and dates of TOML

Integers are decimal, hexadecimal, octal or binary, and fit 64 bits with a sign. Digits may be
grouped by single underscores. A number with a fraction or an exponent is a float, as are `inf` and
`nan`; one too large for binary64 is refused. Dates and times are checked against the calendar.
-/

namespace Keyring.Toml

/-- Reads digits of a class, grouped by single underscores, and gives the digits. -/
def digitsBy (isDigit : Char → Bool) : Reader (List Char)
  | [] => none
  | c :: rest =>
    if isDigit c then
      match rest with
      | '_' :: d :: rest' =>
        if isDigit d then do
          let (ds, r) ← digitsBy isDigit (d :: rest')
          return (c :: ds, r)
        else some ([c], rest)
      | d :: rest' =>
        if isDigit d then do
          let (ds, r) ← digitsBy isDigit (d :: rest')
          return (c :: ds, r)
        else some ([c], rest)
      | [] => some ([c], rest)
    else none

/-- Reads a sign; the result says whether it is a minus. -/
def sign : List Char → Bool × List Char
  | '+' :: rest => (false, rest)
  | '-' :: rest => (true, rest)
  | cs => (false, cs)

/-- Reads decimal digits without a needless leading zero. -/
def decimalDigits : Reader (List Char)
  | '0' :: rest => some (['0'], rest)
  | cs => digitsBy Char.isDigit cs

/-- The value of a digit of any base up to sixteen. -/
def natOfDigits (base : Nat) (ds : List Char) : Nat :=
  ds.foldl (fun n d => n * base + (Json.Reader.hexValue? d).getD 0) 0

/-- The integer of a sign and a size, if it fits 64 bits. -/
def int64? (negative : Bool) (n : Nat) : Option Int :=
  if negative then (if n ≤ 0x8000_0000_0000_0000 then some (-(n : Int)) else none)
  else if n < 0x8000_0000_0000_0000 then some n else none

/-- Reads digits of a base after their marker. -/
def based (base : Nat) (isDigit : Char → Bool) : Reader Int := fun cs => do
  let (ds, rest) ← digitsBy isDigit cs
  return (← int64? false (natOfDigits base ds), rest)

/-- Reads an integer. -/
def integer : Reader Int
  | '0' :: 'x' :: rest => based 16 (fun c => (Json.Reader.hexValue? c).isSome) rest
  | '0' :: 'o' :: rest => based 8 (fun c => '0' ≤ c && c ≤ '7') rest
  | '0' :: 'b' :: rest => based 2 (fun c => c = '0' || c = '1') rest
  | cs => do
    let (negative, cs) := sign cs
    let (ds, rest) ← decimalDigits cs
    return (← int64? negative (natOfDigits 10 ds), rest)

/-- Whether a decimal is too large for binary64: its digits as a number, times a power of ten. -/
def overflows (digits : Nat) (power : Int) : Bool :=
  let size : Int := (Nat.toDigits 10 digits).length + power
  if digits = 0 ∨ size < 0 then false
  else if 400 < size then true
  else if 0 ≤ power then (Binary64.ofRatio false (digits * Nat.pow 10 power.natAbs) 1).isNone
  else false

/-- Reads a fraction: a point and digits. -/
def fraction : Reader (List Char)
  | '.' :: rest => digitsBy Char.isDigit rest
  | _ => none

/-- Reads an exponent. -/
def exponent : Reader Int
  | c :: rest =>
    if c = 'e' ∨ c = 'E' then do
      let (negative, rest) := sign rest
      let (ds, rest) ← digitsBy Char.isDigit rest
      let e : Int := natOfDigits 10 ds
      return (if negative then -e else e, rest)
    else none
  | [] => none

/-- Reads a float, whose value no setting needs. Only one that is too large upwards is refused. -/
def float : Reader Unit := fun cs => do
  let (negative, cs) := sign cs
  match cs with
  | 'i' :: 'n' :: 'f' :: rest => some ((), rest)
  | 'n' :: 'a' :: 'n' :: rest => some ((), rest)
  | cs =>
    let (whole, cs) ← decimalDigits cs
    let (digits, places, power, rest) ← match fraction cs with
      | some (ds, cs) =>
        match exponent cs with
        | some (e, rest) => some (whole ++ ds, ds.length, e, rest)
        | none => some (whole ++ ds, ds.length, 0, cs)
      | none => do
        let (e, rest) ← exponent cs
        some (whole, 0, e, rest)
    if !negative && overflows (natOfDigits 10 digits) (power - places) then none
    else some ((), rest)

/-- Reads exactly `n` decimal digits. -/
def fixedDigits (n : Nat) : Reader Nat := fun cs =>
  let ds := cs.take n
  if ds.length = n ∧ ds.all Char.isDigit then some (natOfDigits 10 ds, cs.drop n) else none

/-- Reads exactly `n` decimal digits of a number between two bounds. -/
def fixedBetween (n low high : Nat) : Reader Nat := fun cs => do
  let (v, rest) ← fixedDigits n cs
  if low ≤ v ∧ v ≤ high then some (v, rest) else none

/-- Reads a given character. -/
def literally (c : Char) : Reader Unit
  | d :: rest => if d = c then some ((), rest) else none
  | [] => none

/-- The number of days in a month. -/
def daysInMonth (year month : Nat) : Nat :=
  if month = 2 then
    if year % 4 = 0 ∧ (year % 100 ≠ 0 ∨ year % 400 = 0) then 29 else 28
  else if month = 4 ∨ month = 6 ∨ month = 9 ∨ month = 11 then 30
  else 31

/-- Reads a date. -/
def date : Reader Unit := fun cs => do
  let (year, cs) ← fixedDigits 4 cs
  let ((), cs) ← literally '-' cs
  let (month, cs) ← fixedBetween 2 1 12 cs
  let ((), cs) ← literally '-' cs
  let (_, cs) ← fixedBetween 2 1 (daysInMonth year month) cs
  return ((), cs)

/-- Reads a time of day. -/
def time : Reader Unit := fun cs => do
  let (_, cs) ← fixedBetween 2 0 23 cs
  let ((), cs) ← literally ':' cs
  let (_, cs) ← fixedBetween 2 0 59 cs
  let ((), cs) ← literally ':' cs
  let (_, cs) ← fixedBetween 2 0 60 cs
  match cs with
  | '.' :: rest =>
    match rest.takeWhile Char.isDigit with
    | [] => none
    | _ => some ((), rest.dropWhile Char.isDigit)
  | cs => some ((), cs)

/-- Reads the offset of a time. -/
def offset : Reader Unit
  | 'Z' :: rest | 'z' :: rest => some ((), rest)
  | c :: rest =>
    if c = '+' ∨ c = '-' then do
      let (_, cs) ← fixedBetween 2 0 23 rest
      let ((), cs) ← literally ':' cs
      let (_, cs) ← fixedBetween 2 0 59 cs
      return ((), cs)
    else none
  | [] => none

/-- Reads what may follow a date: a time, and perhaps its offset. -/
def dateTail : List Char → List Char
  | c :: rest =>
    if c = 'T' ∨ c = 't' ∨ c = ' ' then
      match time rest with
      | some ((), rest') =>
        match offset rest' with
        | some ((), rest'') => rest''
        | none => rest'
      | none => c :: rest
    else c :: rest
  | [] => []

/-- Reads a date, a time, or both; also gives the text that was read. -/
def dateTime : Reader String := fun cs => do
  let rest ← match date cs with
    | some ((), rest) => some (dateTail rest)
    | none => (time cs).map (·.2)
  return (String.ofList (cs.take (cs.length - rest.length)), rest)

end Keyring.Toml
