/-! # Finite binary floating-point numbers

The finite numbers of the IEEE 754 format binary64: a sign, a significand below 2^53 and an exponent
of two. Arithmetic is exact arithmetic on fractions followed by one rounding to the nearest number,
a tie going to the even significand. Rounding past the largest number gives `none`.

A number is shown with the fewest digits that read back: for each number of digits the two
neighbours on that decimal grid are tried, and of two that read back the nearer is taken.
-/

namespace Keyring

/-- A finite binary64 number: `mantissa * 2 ^ exponent`, negated if `negative`. -/
structure Binary64 where
  negative : Bool
  mantissa : Nat
  exponent : Int
  deriving DecidableEq, Repr

namespace Binary64

/-- The exponent of the smallest numbers. -/
def minExponent : Int := -1074

/-- The exponent of the largest numbers. -/
def maxExponent : Int := 971

/-- Zero with a sign. -/
def zero (negative : Bool) : Binary64 := ⟨negative, 0, minExponent⟩

/-- `num / den * 2 ^ (-e)` as a fraction. -/
def scaleDown (num den : Nat) (e : Int) : Nat × Nat :=
  if e < 0 then (num * Nat.pow 2 e.natAbs, den) else (num, den * Nat.pow 2 e.natAbs)

/-- The quotient rounded to the nearest number, a tie to the even one. -/
def roundHalfEven (num den : Nat) : Nat :=
  let q := num / den
  let r := num % den
  if 2 * r < den then q
  else if den < 2 * r then q + 1
  else if q % 2 = 0 then q else q + 1

/-- The greatest `e` with `2 ^ 52 * 2 ^ e ≤ num / den`, for a positive fraction. -/
def normalExponent (num den : Nat) : Int :=
  let e : Int := (num.log2 : Int) - den.log2 - 52
  let (n, d) := scaleDown num den e
  if n < Nat.pow 2 52 * d then e - 1 else e

/-- The number nearest to a fraction, or `none` if that is too large. -/
def ofRatio (negative : Bool) (num den : Nat) : Option Binary64 :=
  if num = 0 then some (zero negative)
  else
    let e := max (normalExponent num den) minExponent
    let (n, d) := scaleDown num den e
    let q := roundHalfEven n d
    let (q, e) := if q = Nat.pow 2 53 then (Nat.pow 2 52, e + 1) else (q, e)
    if e > maxExponent then none else some ⟨negative, q, e⟩

/-- The absolute value as a fraction. -/
def ratio (x : Binary64) : Nat × Nat :=
  if x.exponent < 0 then (x.mantissa, Nat.pow 2 x.exponent.natAbs)
  else (x.mantissa * Nat.pow 2 x.exponent.natAbs, 1)

/-- The number nearest to a natural number. -/
def ofNat? (n : Nat) : Option Binary64 := ofRatio false n 1

/-- Product, rounded once. -/
def mul? (x y : Binary64) : Option Binary64 :=
  let (a, b) := x.ratio
  let (c, d) := y.ratio
  ofRatio (x.negative != y.negative) (a * c) (b * d)

/-- Quotient, rounded once; `none` for a zero divisor. -/
def div? (x y : Binary64) : Option Binary64 :=
  let (a, b) := x.ratio
  let (c, d) := y.ratio
  if c = 0 then none else ofRatio (x.negative != y.negative) (a * d) (b * c)

/-- The nearest integer to the absolute value, halves upward. -/
def roundAbs (x : Binary64) : Nat :=
  let (n, d) := x.ratio
  (2 * n + d) / (2 * d)

/-- Whether the fraction `num / den` rounds to the positive number `x`. -/
def readsBack (x : Binary64) (num den : Nat) : Bool :=
  ofRatio false num den == some { x with negative := false }

/-- The greatest `k` with `10 ^ k ≤ num / den`, for a positive fraction. -/
def decimalExponent (num den : Nat) : Int :=
  let s : Int := ((Nat.toDigits 10 num).length : Int) - (Nat.toDigits 10 den).length
  let (n, d) := if s < 0 then (num * Nat.pow 10 s.natAbs, den) else (num, den * Nat.pow 10 s.natAbs)
  if d ≤ n then s else s - 1

/-- The decimal with `digits` digits nearest to `x` that reads back, if there is one: its digits
as a number, and the power of ten they count. -/
def onGrid (x : Binary64) (digits : Nat) : Option (Nat × Int) :=
  let (num, den) := x.ratio
  let k := decimalExponent num den - (digits - 1 : Nat)
  let (n, d) := if k < 0 then (num * Nat.pow 10 k.natAbs, den) else (num, den * Nat.pow 10 k.natAbs)
  let low := n / d
  let fits (c : Nat) : Bool :=
    if k < 0 then readsBack x c (Nat.pow 10 k.natAbs) else readsBack x (c * Nat.pow 10 k.natAbs) 1
  let r := n % d
  let lowFirst := 2 * r < d || (2 * r == d && low % 2 == 0)
  let (near, far) := if lowFirst then (low, low + 1) else (low + 1, low)
  let onGridOf (c : Nat) : Nat × Int := if c = Nat.pow 10 digits then (c / 10, k + 1) else (c, k)
  if fits near then some (onGridOf near) else if fits far then some (onGridOf far) else none

/-- The first grid, from `digits` digits on, that has a decimal that reads back. -/
def firstGrid (x : Binary64) : (tries digits : Nat) → Nat × Int
  | 0, _ => (x.ratio.1, 0)
  | tries + 1, digits =>
    match onGrid x digits with
    | some found => found
    | none => firstGrid x tries (digits + 1)

/-- The shortest decimal that reads back as the nonzero number `x`. -/
def shortest (x : Binary64) : Nat × Int := firstGrid x 17 1

/-- Decimal text: positional with a point from 10^-5 up to 10^16, else with an exponent, always with
a digit after the point in positional form. -/
def render (x : Binary64) : String :=
  let sign := if x.negative then "-" else ""
  if x.mantissa = 0 then sign ++ "0.0"
  else
    let (digits, k) := x.shortest
    let ds := Nat.toDigits 10 digits
    let n : Int := ds.length
    let point := n + k
    let body :=
      if 0 ≤ k ∧ point ≤ 16 then ds ++ List.replicate k.natAbs '0' ++ ['.', '0']
      else if 0 < point ∧ point ≤ 16 then ds.take point.natAbs ++ '.' :: ds.drop point.natAbs
      else if -5 < point ∧ point ≤ 0 then
        ['0', '.'] ++ List.replicate point.natAbs '0' ++ ds
      else
        let tail := ds.drop 1
        ds.take 1 ++ (if tail.isEmpty then [] else '.' :: tail) ++ 'e' ::
          (toString (point - 1)).toList
    sign ++ String.ofList body

end Binary64

end Keyring
