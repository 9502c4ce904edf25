import Keyring.Text.Hex
import Keyring.Text.Utf8

/-! # Percent encoding

In addresses a byte may be written as a percent sign and two hexadecimal digits. A percent sign that
no two such digits follow stands for itself.
-/

namespace Keyring.Text.Percent

/-- Replaces encoded bytes. -/
def decodeBytes : Bytes → Bytes
  | [] => []
  | b :: rest =>
    if b = 37 then
      match rest with
      | h :: l :: rest' =>
        match Hex.value? (Char.ofNat h.toNat), Hex.value? (Char.ofNat l.toNat) with
        | some high, some low => UInt8.ofNat (high * 16 + low) :: decodeBytes rest'
        | _, _ => b :: decodeBytes (h :: l :: rest')
      | rest => b :: decodeBytes rest
    else b :: decodeBytes rest

/-- The text of an encoded text, if it is UTF-8. -/
def decode? (cs : List Char) : Option String :=
  match Utf8.decode (decodeBytes (Utf8.encode (String.ofList cs))) with
  | .ok s => some s
  | .error _ => none

end Keyring.Text.Percent
