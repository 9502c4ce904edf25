import Keyring.Bytes

/-! # Hexadecimal text

Two digits to a byte. Digits are written in lower case and read in either case. The reader names
the first character that is no digit by its position, after it has refused an odd length.
-/

namespace Keyring.Hex

/-- The lower-case digit of a number below sixteen. -/
def digit (n : Nat) : Char :=
  if n < 10 then Char.ofNat (48 + n) else Char.ofNat (87 + n)

/-- The value of a digit in either case. -/
def value? (c : Char) : Option Nat :=
  if '0' ≤ c ∧ c ≤ '9' then some (c.toNat - 48)
  else if 'a' ≤ c ∧ c ≤ 'f' then some (c.toNat - 87)
  else if 'A' ≤ c ∧ c ≤ 'F' then some (c.toNat - 55)
  else none

/-- Whether a character is a hexadecimal digit. -/
def isDigit (c : Char) : Bool :=
  (value? c).isSome

/-- The digits of a byte string. -/
def encodeChars (bs : Bytes) : List Char :=
  bs.flatMap fun b => [digit (b.toNat / 16), digit (b.toNat % 16)]

/-- A byte string as lower-case text. -/
def encode (bs : Bytes) : String :=
  String.ofList (encodeChars bs)

/-- Reads pairs of digits; `none` at anything else. -/
def decodeChars : List Char → Option Bytes
  | [] => some []
  | [_] => none
  | hi :: lo :: rest => do
      let h ← value? hi
      let l ← value? lo
      let bs ← decodeChars rest
      return UInt8.ofNat (16 * h + l) :: bs

/-- Reads hexadecimal text. -/
def decode? (s : String) : Option Bytes :=
  decodeChars s.toList

/-- Digits of `n` in lower case, at least `width` of them. -/
def ofNatPadded (width n : Nat) : List Char :=
  let ds := Nat.toDigits 16 n
  List.replicate (width - ds.length) '0' ++ ds

end Keyring.Hex
