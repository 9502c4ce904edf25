import Keyring.Bytes

/-! # UTF-8

Encoding of text, and a strict decoder that says where and how a byte string fails. A sequence is
refused at its first byte that cannot continue it: the fault gives the position of the sequence and
how many of its bytes were well formed. A string that ends inside a sequence is incomplete.
-/

namespace Keyring.Utf8

/-- The bytes of a text. -/
def encode (s : String) : Bytes :=
  s.toList.flatMap String.utf8EncodeChar

/-- Why a byte string is no UTF-8. -/
inductive Fault
  /-- The sequence at `index` is cut after `length` bytes by one that cannot follow. -/
  | invalid (length index : Nat)
  /-- The string ends inside the sequence at `index`. -/
  | incomplete (index : Nat)
  deriving DecidableEq, Repr

/-- The wording of a fault. -/
def Fault.message : Fault → String
  | .invalid length index => s!"invalid utf-8 sequence of {length} bytes from index {index}"
  | .incomplete index => s!"incomplete utf-8 byte sequence from index {index}"

/-- The range of the byte after a lead byte of a three-byte sequence. -/
def secondOfThree (lead : UInt8) : UInt8 × UInt8 :=
  if lead = 0xE0 then (0xA0, 0xBF) else if lead = 0xED then (0x80, 0x9F) else (0x80, 0xBF)

/-- The range of the byte after a lead byte of a four-byte sequence. -/
def secondOfFour (lead : UInt8) : UInt8 × UInt8 :=
  if lead = 0xF0 then (0x90, 0xBF) else if lead = 0xF4 then (0x80, 0x8F) else (0x80, 0xBF)

/-- Whether a byte lies in a closed range. -/
def within (range : UInt8 × UInt8) (b : UInt8) : Bool :=
  range.1 ≤ b && b ≤ range.2

/-- Whether a byte can continue a sequence. -/
def continues (b : UInt8) : Bool :=
  within (0x80, 0xBF) b

/-- The six payload bits of a continuing byte. -/
def payload (b : UInt8) : Nat :=
  b.toNat % 64

/-- Decodes from position `index` on. -/
def decodeFrom (index : Nat) : Bytes → Except Fault (List Char)
  | [] => .ok []
  | a :: r =>
    if a < 0x80 then
      (decodeFrom (index + 1) r).map (Char.ofNat a.toNat :: ·)
    else if within (0xC2, 0xDF) a then
      match r with
      | [] => .error (.incomplete index)
      | b :: r =>
        if continues b then
          (decodeFrom (index + 2) r).map (Char.ofNat (a.toNat % 32 * 64 + payload b) :: ·)
        else .error (.invalid 1 index)
    else if within (0xE0, 0xEF) a then
      match r with
      | [] => .error (.incomplete index)
      | b :: r =>
        if within (secondOfThree a) b then
          match r with
          | [] => .error (.incomplete index)
          | c :: r =>
            if continues c then
              (decodeFrom (index + 3) r).map
                (Char.ofNat ((a.toNat % 16 * 64 + payload b) * 64 + payload c) :: ·)
            else .error (.invalid 2 index)
        else .error (.invalid 1 index)
    else if within (0xF0, 0xF4) a then
      match r with
      | [] => .error (.incomplete index)
      | b :: r =>
        if within (secondOfFour a) b then
          match r with
          | [] => .error (.incomplete index)
          | c :: r =>
            if continues c then
              match r with
              | [] => .error (.incomplete index)
              | d :: r =>
                if continues d then
                  (decodeFrom (index + 4) r).map
                    (Char.ofNat (((a.toNat % 8 * 64 + payload b) * 64 + payload c) * 64 + payload d)
                      :: ·)
                else .error (.invalid 3 index)
            else .error (.invalid 2 index)
        else .error (.invalid 1 index)
    else .error (.invalid 1 index)

/-- The text that a byte string encodes. -/
def decode (bs : Bytes) : Except Fault String :=
  (decodeFrom 0 bs).map String.ofList

end Keyring.Utf8
