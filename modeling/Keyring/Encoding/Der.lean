import Keyring.Bytes

/-! # DER

The part of the distinguished encoding rules that key documents use: a sequence of non-negative
integers. Lengths and integers have one spelling: no length is longer than needed, and an integer
starts with a zero byte only if the next byte would make it negative. Documents of 256 MiB or more
are neither written nor read.
-/

namespace Keyring.Der

/-- The tag of an integer. -/
def integerTag : UInt8 := 0x02

/-- The tag of a sequence. -/
def sequenceTag : UInt8 := 0x30

/-- The greatest size of a document in bytes. -/
def maxSize : Nat := 0xfff_ffff

/-- The spelling of a length. -/
def lengthBytes (n : Nat) : Bytes :=
  if n < 0x80 then [UInt8.ofNat n]
  else
    let bs := Bytes.ofNat n
    UInt8.ofNat (0x80 + bs.length) :: bs

/-- A tag, the length of the content, and the content. -/
def tagged (tag : UInt8) (content : Bytes) : Bytes :=
  tag :: (lengthBytes content.length ++ content)

/-- The content of an integer: its bytes, after a zero byte if the first has its top bit set. -/
def integerContent (n : Nat) : Bytes :=
  match Bytes.ofNat n with
  | [] => [0]
  | b :: bs => if 0x80 ≤ b then 0 :: b :: bs else b :: bs

/-- A non-negative integer. -/
def integer (n : Nat) : Bytes :=
  tagged integerTag (integerContent n)

/-- A sequence of non-negative integers. -/
def integers (ns : List Nat) : Bytes :=
  tagged sequenceTag (ns.flatMap integer)

/-- The most bytes a length is spelled with. -/
def maxLengthSize : Nat := 4

/-- Reads a length. -/
def readLength : Bytes → Option (Nat × Bytes)
  | [] => none
  | b :: rest =>
    if b < 0x80 then some (b.toNat, rest)
    else
      let size := b.toNat - 0x80
      let bs := rest.take size
      let n := Bytes.toNat bs
      if size = 0 ∨ maxLengthSize < size ∨ bs.length < size then none
      else if lengthBytes n = b :: bs then some (n, rest.drop size)
      else none

/-- Reads a tagged value: its content, and what follows it. -/
def readTagged (tag : UInt8) : Bytes → Option (Bytes × Bytes)
  | [] => none
  | t :: rest =>
    if t ≠ tag then none
    else do
      let (n, rest) ← readLength rest
      if rest.length < n then none else some (rest.take n, rest.drop n)

/-- The number of an integer's content. -/
def readContent : Bytes → Option Nat
  | [] => none
  | [b] => if b < 0x80 then some b.toNat else none
  | a :: b :: rest =>
    if a = 0 then (if b < 0x80 then none else some (Bytes.toNat (b :: rest)))
    else if a < 0x80 then some (Bytes.toNat (a :: b :: rest))
    else none

/-- Reads a non-negative integer. -/
def readInteger (bs : Bytes) : Option (Nat × Bytes) := do
  let (content, rest) ← readTagged integerTag bs
  return (← readContent content, rest)

/-- Reads `count` integers that fill the input. -/
def readIntegers : (count : Nat) → Bytes → Option (List Nat)
  | 0, bs => if bs.isEmpty then some [] else none
  | count + 1, bs => do
    let (n, rest) ← readInteger bs
    return n :: (← readIntegers count rest)

/-- Reads a sequence of `count` integers that is the whole input. -/
def readSequence (count : Nat) (bs : Bytes) : Option (List Nat) := do
  let (content, rest) ← readTagged sequenceTag bs
  if rest.isEmpty then readIntegers count content else none

end Keyring.Der
