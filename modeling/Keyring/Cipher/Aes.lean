import Keyring.Bytes

/-! # The AES block cipher with 256-bit keys

The cipher of FIPS 197 on a block of four columns of four bytes. A key is expanded to fifteen round
keys; a round substitutes bytes, shifts rows, mixes columns and adds its key, and the last round
leaves the mixing out.
-/

namespace Keyring.Aes

/-- A column of the state. -/
structure Column where
  a : UInt8
  b : UInt8
  c : UInt8
  d : UInt8
  deriving DecidableEq, Repr

instance : Inhabited Column := ⟨⟨0, 0, 0, 0⟩⟩

/-- A block of sixteen bytes, column by column. -/
structure Block where
  w : Column
  x : Column
  y : Column
  z : Column
  deriving DecidableEq, Repr

instance : Inhabited Block := ⟨⟨default, default, default, default⟩⟩

/-- Bytewise exclusive or of columns. -/
def Column.xor (p q : Column) : Column :=
  ⟨p.a ^^^ q.a, p.b ^^^ q.b, p.c ^^^ q.c, p.d ^^^ q.d⟩

/-- Bytewise exclusive or of blocks. -/
def Block.xor (p q : Block) : Block :=
  ⟨p.w.xor q.w, p.x.xor q.x, p.y.xor q.y, p.z.xor q.z⟩

/-- The bytes of a column. -/
def Column.bytes (p : Column) : Bytes := [p.a, p.b, p.c, p.d]

/-- The bytes of a block. -/
def Block.bytes (p : Block) : Bytes :=
  p.w.bytes ++ p.x.bytes ++ p.y.bytes ++ p.z.bytes

/-- The first four bytes of a string, with zeros for missing ones. -/
def Column.ofBytes (bs : Bytes) : Column :=
  ⟨bs.getD 0 0, bs.getD 1 0, bs.getD 2 0, bs.getD 3 0⟩

/-- The first sixteen bytes of a string, with zeros for missing ones. -/
def Block.ofBytes (bs : Bytes) : Block :=
  ⟨.ofBytes bs, .ofBytes (bs.drop 4), .ofBytes (bs.drop 8), .ofBytes (bs.drop 12)⟩

/-- The substitution of bytes. -/
def substitutionTable : Array UInt8 :=
  #[0x63, 0x7c, 0x77, 0x7b, 0xf2, 0x6b, 0x6f, 0xc5, 0x30, 0x01, 0x67, 0x2b, 0xfe, 0xd7, 0xab, 0x76,
    0xca, 0x82, 0xc9, 0x7d, 0xfa, 0x59, 0x47, 0xf0, 0xad, 0xd4, 0xa2, 0xaf, 0x9c, 0xa4, 0x72, 0xc0,
    0xb7, 0xfd, 0x93, 0x26, 0x36, 0x3f, 0xf7, 0xcc, 0x34, 0xa5, 0xe5, 0xf1, 0x71, 0xd8, 0x31, 0x15,
    0x04, 0xc7, 0x23, 0xc3, 0x18, 0x96, 0x05, 0x9a, 0x07, 0x12, 0x80, 0xe2, 0xeb, 0x27, 0xb2, 0x75,
    0x09, 0x83, 0x2c, 0x1a, 0x1b, 0x6e, 0x5a, 0xa0, 0x52, 0x3b, 0xd6, 0xb3, 0x29, 0xe3, 0x2f, 0x84,
    0x53, 0xd1, 0x00, 0xed, 0x20, 0xfc, 0xb1, 0x5b, 0x6a, 0xcb, 0xbe, 0x39, 0x4a, 0x4c, 0x58, 0xcf,
    0xd0, 0xef, 0xaa, 0xfb, 0x43, 0x4d, 0x33, 0x85, 0x45, 0xf9, 0x02, 0x7f, 0x50, 0x3c, 0x9f, 0xa8,
    0x51, 0xa3, 0x40, 0x8f, 0x92, 0x9d, 0x38, 0xf5, 0xbc, 0xb6, 0xda, 0x21, 0x10, 0xff, 0xf3, 0xd2,
    0xcd, 0x0c, 0x13, 0xec, 0x5f, 0x97, 0x44, 0x17, 0xc4, 0xa7, 0x7e, 0x3d, 0x64, 0x5d, 0x19, 0x73,
    0x60, 0x81, 0x4f, 0xdc, 0x22, 0x2a, 0x90, 0x88, 0x46, 0xee, 0xb8, 0x14, 0xde, 0x5e, 0x0b, 0xdb,
    0xe0, 0x32, 0x3a, 0x0a, 0x49, 0x06, 0x24, 0x5c, 0xc2, 0xd3, 0xac, 0x62, 0x91, 0x95, 0xe4, 0x79,
    0xe7, 0xc8, 0x37, 0x6d, 0x8d, 0xd5, 0x4e, 0xa9, 0x6c, 0x56, 0xf4, 0xea, 0x65, 0x7a, 0xae, 0x08,
    0xba, 0x78, 0x25, 0x2e, 0x1c, 0xa6, 0xb4, 0xc6, 0xe8, 0xdd, 0x74, 0x1f, 0x4b, 0xbd, 0x8b, 0x8a,
    0x70, 0x3e, 0xb5, 0x66, 0x48, 0x03, 0xf6, 0x0e, 0x61, 0x35, 0x57, 0xb9, 0x86, 0xc1, 0x1d, 0x9e,
    0xe1, 0xf8, 0x98, 0x11, 0x69, 0xd9, 0x8e, 0x94, 0x9b, 0x1e, 0x87, 0xe9, 0xce, 0x55, 0x28, 0xdf,
    0x8c, 0xa1, 0x89, 0x0d, 0xbf, 0xe6, 0x42, 0x68, 0x41, 0x99, 0x2d, 0x0f, 0xb0, 0x54, 0xbb, 0x16]

/-- Substitutes a byte. -/
def substitute (b : UInt8) : UInt8 :=
  substitutionTable.getD b.toNat 0

/-- Substitutes the bytes of a column. -/
def Column.substitute (p : Column) : Column :=
  ⟨Aes.substitute p.a, Aes.substitute p.b, Aes.substitute p.c, Aes.substitute p.d⟩

/-- Substitutes the bytes of a block. -/
def Block.substitute (p : Block) : Block :=
  ⟨p.w.substitute, p.x.substitute, p.y.substitute, p.z.substitute⟩

/-- Shifts row `r` by `r` columns. -/
def Block.shiftRows (p : Block) : Block :=
  ⟨⟨p.w.a, p.x.b, p.y.c, p.z.d⟩, ⟨p.x.a, p.y.b, p.z.c, p.w.d⟩,
   ⟨p.y.a, p.z.b, p.w.c, p.x.d⟩, ⟨p.z.a, p.w.b, p.x.c, p.y.d⟩⟩

/-- Doubles an element of the byte field. -/
def double (b : UInt8) : UInt8 :=
  if b < 0x80 then b <<< 1 else (b <<< 1) ^^^ 0x1b

/-- Mixes a column. -/
def Column.mix (p : Column) : Column :=
  let all := p.a ^^^ p.b ^^^ p.c ^^^ p.d
  ⟨p.a ^^^ all ^^^ double (p.a ^^^ p.b), p.b ^^^ all ^^^ double (p.b ^^^ p.c),
   p.c ^^^ all ^^^ double (p.c ^^^ p.d), p.d ^^^ all ^^^ double (p.d ^^^ p.a)⟩

/-- Mixes the columns of a block. -/
def Block.mixColumns (p : Block) : Block :=
  ⟨p.w.mix, p.x.mix, p.y.mix, p.z.mix⟩

/-- The column that starts a period of the key schedule: rotated, substituted, and marked with the
round constant. -/
def Column.turn (p : Column) (constant : UInt8) : Column :=
  ⟨Aes.substitute p.b ^^^ constant, Aes.substitute p.c, Aes.substitute p.d, Aes.substitute p.a⟩

/-- Appends `steps` columns to a key schedule with periods of eight columns. -/
def extend : (steps : Nat) → (constant : UInt8) → Array Column → Array Column
  | 0, _, s => s
  | steps + 1, constant, s =>
    let i := s.size
    let last := s.getD (i - 1) default
    let (t, constant) :=
      if i % 8 = 0 then (last.turn constant, double constant)
      else if i % 8 = 4 then (last.substitute, constant)
      else (last, constant)
    extend steps constant (s.push ((s.getD (i - 8) default).xor t))

/-- The fifteen round keys of a key of 32 bytes. -/
def roundKeys (key : Bytes) : List Block :=
  let start := (List.range 8).map fun i => Column.ofBytes (key.drop (4 * i))
  let s := extend 52 1 start.toArray
  (List.range 15).map fun i =>
    ⟨s.getD (4 * i) default, s.getD (4 * i + 1) default, s.getD (4 * i + 2) default,
     s.getD (4 * i + 3) default⟩

/-- The rounds after the first key was added. -/
def rounds : List Block → Block → Block
  | [], p => p
  | [last], p => p.substitute.shiftRows.xor last
  | key :: keys, p => rounds keys (p.substitute.shiftRows.mixColumns.xor key)

/-- Encrypts a block under expanded round keys. -/
def encrypt (keys : List Block) (p : Block) : Block :=
  match keys with
  | [] => p
  | key :: keys => rounds keys (p.xor key)

end Keyring.Aes
