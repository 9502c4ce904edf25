import Keyring.Text.Utf8

/-! # Base64

Two forms are used: the standard alphabet with canonical padding, and the URL-safe alphabet without
padding. Both readers are strict: each byte string has one written form. A fault names the first
offending symbol by its byte and offset. The order of the checks is fixed: a stray last byte, the
groups of four from left to right, the symbols of the last group, its length, its padding, and at
the end the bits of the last symbol that carry no data.
-/

namespace Keyring.Base64

/-- An alphabet together with its padding rule. -/
inductive Form
  /-- `+` and `/`, padded to a multiple of four. -/
  | standard
  /-- `-` and `_`, never padded. -/
  | urlSafe
  deriving DecidableEq, Repr

/-- Why a text is not in a form. -/
inductive Fault
  | invalidSymbol (byte : UInt8) (offset : Nat)
  | invalidLength (length : Nat)
  | invalidLastSymbol (byte : UInt8) (offset : Nat)
  | invalidPadding
  deriving DecidableEq, Repr

/-- The wording of a fault. -/
def Fault.message : Fault → String
  | .invalidSymbol byte offset => s!"Invalid symbol {byte.toNat}, offset {offset}."
  | .invalidLength length => s!"Invalid input length: {length}"
  | .invalidLastSymbol byte offset => s!"Invalid last symbol {byte.toNat}, offset {offset}."
  | .invalidPadding => "Invalid padding"

/-- The symbol of a value below 64. -/
def symbol (form : Form) (v : Nat) : UInt8 :=
  if v < 26 then UInt8.ofNat (65 + v)
  else if v < 52 then UInt8.ofNat (71 + v)
  else if v < 62 then UInt8.ofNat (v - 4)
  else match form, v with
    | .standard, 62 => 43
    | .standard, _ => 47
    | .urlSafe, 62 => 45
    | .urlSafe, _ => 95

/-- The value of a symbol. -/
def value? (form : Form) (b : UInt8) : Option Nat :=
  if 65 ≤ b ∧ b ≤ 90 then some (b.toNat - 65)
  else if 97 ≤ b ∧ b ≤ 122 then some (b.toNat - 71)
  else if 48 ≤ b ∧ b ≤ 57 then some (b.toNat + 4)
  else match form with
    | .standard => if b = 43 then some 62 else if b = 47 then some 63 else none
    | .urlSafe => if b = 45 then some 62 else if b = 95 then some 63 else none

/-- The padding sign. -/
def pad : UInt8 := 61

/-- What completes a last group of two or three symbols. -/
def padding (form : Form) (count : Nat) : Bytes :=
  match form with
  | .standard => List.replicate count pad
  | .urlSafe => []

/-- The written form of a byte string, as bytes. -/
def encodeBytes (form : Form) : Bytes → Bytes
  | [] => []
  | [a] =>
    let n := a.toNat * 16
    symbol form (n / 64) :: symbol form (n % 64) :: padding form 2
  | [a, b] =>
    let n := (a.toNat * 256 + b.toNat) * 4
    symbol form (n / 4096) :: symbol form (n / 64 % 64) :: symbol form (n % 64) :: padding form 1
  | a :: b :: c :: rest =>
    let n := (a.toNat * 256 + b.toNat) * 256 + c.toNat
    symbol form (n / 262144) :: symbol form (n / 4096 % 64) :: symbol form (n / 64 % 64)
      :: symbol form (n % 64) :: encodeBytes form rest

/-- The written form of a byte string. -/
def encode (form : Form) (bs : Bytes) : String :=
  String.ofList ((encodeBytes form bs).map fun b => Char.ofNat b.toNat)

/-- The value of the symbol at `offset`. -/
def valueAt (form : Form) (offset : Nat) (b : UInt8) : Except Fault Nat :=
  match value? form b with
  | some v => .ok v
  | none => .error (.invalidSymbol b offset)

/-- Decodes full groups of four symbols. -/
def decodeGroups (form : Form) (offset : Nat) : Bytes → Except Fault Bytes
  | a :: b :: c :: d :: rest => do
    let va ← valueAt form offset a
    let vb ← valueAt form (offset + 1) b
    let vc ← valueAt form (offset + 2) c
    let vd ← valueAt form (offset + 3) d
    let n := ((va * 64 + vb) * 64 + vc) * 64 + vd
    let bs ← decodeGroups form (offset + 4) rest
    return UInt8.ofNat (n / 65536) :: UInt8.ofNat (n / 256) :: UInt8.ofNat n :: bs
  | _ => .ok []

/-- The symbols of the last group, and how many padding signs follow them. Padding cannot start
before the third place, and nothing but padding follows it. -/
def lastSymbols (form : Form) (start place : Nat) (firstPad : Option Nat) :
    Bytes → Except Fault (List Nat × Nat)
  | [] => .ok ([], 0)
  | b :: rest =>
    if b = pad then
      if place < 2 then .error (.invalidSymbol b (start + place))
      else do
        let (vs, pads) ← lastSymbols form start (place + 1) (firstPad.or (some place)) rest
        return (vs, pads + 1)
    else match firstPad with
      | some p => .error (.invalidSymbol pad (start + p))
      | none => do
        let v ← valueAt form (start + place) b
        let (vs, pads) ← lastSymbols form start (place + 1) none rest
        return (v :: vs, pads)

/-- Whether a last group of `symbols` symbols may carry `pads` padding signs. -/
def paddingFits (form : Form) (symbols pads : Nat) : Bool :=
  match form with
  | .standard => (symbols + pads) % 4 = 0
  | .urlSafe => pads = 0

/-- Decodes the last group, which starts at `start`. -/
def decodeLast (form : Form) (start : Nat) (group : Bytes) : Except Fault Bytes := do
  let (vs, pads) ← lastSymbols form start 0 none group
  if vs.length < 2 && !group.isEmpty then
    throw (.invalidLength (start + vs.length))
  if !paddingFits form vs.length pads then
    throw .invalidPadding
  match vs with
  | [a, b] =>
    if b % 16 ≠ 0 then throw (.invalidLastSymbol (symbol form b) (start + 1))
    return [UInt8.ofNat ((a * 64 + b) / 16)]
  | [a, b, c] =>
    if c % 4 ≠ 0 then throw (.invalidLastSymbol (symbol form c) (start + 2))
    let n := (a * 64 + b) * 64 + c
    return [UInt8.ofNat (n / 1024), UInt8.ofNat (n / 4)]
  | [a, b, c, d] =>
    let n := ((a * 64 + b) * 64 + c) * 64 + d
    return [UInt8.ofNat (n / 65536), UInt8.ofNat (n / 256), UInt8.ofNat n]
  | _ => return []

/-- A stray last byte, such as a line end, is reported before anything else. -/
def checkStray (form : Form) (text : Bytes) : Except Fault Unit :=
  match text.length % 4, text.getLast? with
  | 1, some b =>
    if b ≠ pad ∧ (value? form b).isNone then .error (.invalidSymbol b (text.length - 1)) else .ok ()
  | _, _ => .ok ()

/-- Decodes a text given as bytes. -/
def decodeBytes (form : Form) (text : Bytes) : Except Fault Bytes := do
  checkStray form text
  let start := if text.length % 4 = 0 then text.length - 4 else text.length - text.length % 4
  let front ← decodeGroups form 0 (text.take start)
  let back ← decodeLast form start (text.drop start)
  return front ++ back

/-- Decodes a text. -/
def decode (form : Form) (s : String) : Except Fault Bytes :=
  decodeBytes form (Utf8.encode s)

end Keyring.Base64
