import Keyring.Json.Basic

/-! # JSON numbers

A number without fraction and exponent that fits 64 bits is an integer; minus zero is not. Every
other number is read into a significand of at most 64 bits and a power of ten, digits beyond the
significand being dropped, and the binary64 number is the significand multiplied or divided by that
power. A result past the largest number is refused.
-/

namespace Keyring.Json

/-- The parts of a number as written. -/
structure Numeral where
  negative : Bool
  /-- The digits before the point. -/
  whole : List Char
  /-- The digits after the point. -/
  fraction : List Char
  /-- The sign and the digits of the exponent. -/
  exponent : Option (Bool × List Char)
  deriving DecidableEq, Repr

namespace Numeral

/-- The value of a decimal digit. -/
def digitValue (c : Char) : Nat := c.toNat - 48

/-- The digits at the start of a text, and the rest. -/
def digits (cs : List Char) : List Char × List Char :=
  (cs.takeWhile Char.isDigit, cs.dropWhile Char.isDigit)

/-- Reads an exponent after its letter. -/
def readExponent : List Char → Option ((Bool × List Char) × List Char)
  | '+' :: cs => nonempty false (digits cs)
  | '-' :: cs => nonempty true (digits cs)
  | cs => nonempty false (digits cs)
where
  /-- At least one digit is needed. -/
  nonempty (negative : Bool) : List Char × List Char → Option ((Bool × List Char) × List Char)
    | ([], _) => none
    | (ds, rest) => some ((negative, ds), rest)

/-- Reads what may follow the whole part. -/
def readTail (negative : Bool) (whole : List Char) (cs : List Char) :
    Option (Numeral × List Char) := do
  let (fraction, cs) ← match cs with
    | '.' :: cs =>
      match digits cs with
      | ([], _) => none
      | split => some split
    | cs => some ([], cs)
  match cs with
  | 'e' :: cs | 'E' :: cs => do
    let (e, rest) ← readExponent cs
    return (⟨negative, whole, fraction, some e⟩, rest)
  | cs => return (⟨negative, whole, fraction, none⟩, cs)

/-- Reads a number without its sign: no digit may follow a leading zero. -/
def readUnsigned (negative : Bool) (cs : List Char) : Option (Numeral × List Char) :=
  match digits cs with
  | ([], _) => none
  | (['0'], rest) => readTail negative ['0'] rest
  | ('0' :: _, _) => none
  | (whole, rest) => readTail negative whole rest

/-- Reads the parts of a number. -/
def read : List Char → Option (Numeral × List Char)
  | '-' :: cs => readUnsigned true cs
  | cs => readUnsigned false cs

/-- The largest significand. -/
def maxSignificand : Nat := 0xffff_ffff_ffff_ffff

/-- Appends digits to a significand while they fit; also tells how many were dropped. -/
def accumulate (significand : Nat) : List Char → Nat × Nat
  | [] => (significand, 0)
  | c :: cs =>
    let next := significand * 10 + digitValue c
    if next ≤ maxSignificand then accumulate next cs else (significand, (c :: cs).length)

/-- The number a list of digits spells. -/
def natOfDigits (ds : List Char) : Nat :=
  ds.foldl (fun n c => n * 10 + digitValue c) 0

/-- Multiplies or divides by a power of ten below 10^309; larger powers are divided out in steps
of 10^308. -/
def scaleByTen (x : Binary64) : (steps : Nat) → (e : Int) → Option Binary64
  | 0, _ => some (Binary64.zero x.negative)
  | steps + 1, e =>
    if e.natAbs ≤ 308 then do
      let p ← Binary64.ofNat? (Nat.pow 10 e.natAbs)
      if 0 ≤ e then x.mul? p else x.div? p
    else if x.mantissa = 0 then some x
    else if 0 ≤ e then none
    else do
      let p ← Binary64.ofNat? (Nat.pow 10 308)
      scaleByTen (← x.div? p) steps (e + 308)

/-- The largest exponent that is taken literally. -/
def maxExponent : Nat := 0x7fff_ffff

/-- The binary64 number of a numeral. -/
def toBinary64? (n : Numeral) : Option Binary64 :=
  let (significand, dropped) := accumulate 0 n.whole
  let (significand, droppedAfter) := accumulate significand n.fraction
  let shift : Int := (dropped : Int) - (n.fraction.length - droppedAfter : Nat)
  let scaled (e : Int) : Option Binary64 := do
    let x ← scaleByTen (← Binary64.ofNat? significand) 4 e
    return { x with negative := n.negative }
  match n.exponent with
  | none => scaled shift
  | some (down, ds) =>
    let e := natOfDigits ds
    if e ≤ maxExponent then scaled (shift + (if down then -(e : Int) else e))
    else if significand ≠ 0 ∧ !down then none
    else some (Binary64.zero n.negative)

/-- The value of a numeral; `none` if it is too large. -/
def toJson? (n : Numeral) : Option Json :=
  if n.fraction.isEmpty ∧ n.exponent.isNone then
    let v := natOfDigits n.whole
    if !n.negative ∧ v ≤ maxSignificand then some (.int v)
    else if n.negative ∧ v ≠ 0 ∧ v ≤ 0x8000_0000_0000_0000 then some (.int (-(v : Int)))
    else n.toBinary64?.map .float
  else n.toBinary64?.map .float

end Numeral

end Keyring.Json
