/-! # Decimal numbers of bounded size

Numbers written with decimal digits and perhaps a sign, read only if they lie in a given range.
-/

namespace Keyring.Decimal

/-- The number of decimal digits, the most significant first. -/
def ofDigits (ds : List Char) : Nat :=
  ds.foldl (fun n c => 10 * n + (c.toNat - 48)) 0

/-- Reads a nonempty run of digits. -/
def digits? (cs : List Char) : Option Nat :=
  if !cs.isEmpty && cs.all Char.isDigit then some (ofDigits cs) else none

/-- Reads a number below `bound`, with or without a plus sign. -/
def unsigned? (bound : Nat) (cs : List Char) : Option Nat := do
  let n ← digits? (match cs with
    | '+' :: ds => ds
    | ds => ds)
  if n < bound then some n else none

/-- Reads a number from `-half` up to `half - 1`, with or without a sign. -/
def signed? (half : Nat) (cs : List Char) : Option Int :=
  match cs with
  | '-' :: ds => do
    let n ← digits? ds
    if n ≤ half then some (-n) else none
  | _ => (unsigned? half cs).map Int.ofNat

end Keyring.Decimal
