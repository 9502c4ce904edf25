import Keyring.Json.Basic
import Keyring.Text.Hex

/-! # Writing JSON

Compact text without spaces. In strings the quote, the backslash and the control characters below
U+0020 are escaped, the latter by their short form where they have one; everything else is written
as it is.
-/

namespace Keyring.Json

/-- How a character is written inside a string. -/
def escapeChar (c : Char) : List Char :=
  if c = '"' then ['\\', '"']
  else if c = '\\' then ['\\', '\\']
  else if c = '\x08' then ['\\', 'b']
  else if c = '\t' then ['\\', 't']
  else if c = '\n' then ['\\', 'n']
  else if c = '\x0c' then ['\\', 'f']
  else if c = '\r' then ['\\', 'r']
  else if c.toNat < 0x20 then ['\\', 'u'] ++ Hex.ofNatPadded 4 c.toNat
  else [c]

/-- The characters of a string literal. -/
def stringChars (s : String) : List Char :=
  '"' :: (s.toList.flatMap escapeChar ++ ['"'])

mutual

/-- The characters of a value. -/
def chars : Json → List Char
  | .null => ['n', 'u', 'l', 'l']
  | .bool true => ['t', 'r', 'u', 'e']
  | .bool false => ['f', 'a', 'l', 's', 'e']
  | .int n => (toString n).toList
  | .float x => x.render.toList
  | .str s => stringChars s
  | .arr [] => ['[', ']']
  | .arr (v :: rest) => '[' :: (chars v ++ itemChars rest)
  | .obj [] => ['\x7b', '\x7d']
  | .obj ((n, v) :: rest) => '\x7b' :: (stringChars n ++ ':' :: (chars v ++ memberChars rest))

/-- The further items of an array and its end. -/
def itemChars : List Json → List Char
  | [] => [']']
  | v :: rest => ',' :: (chars v ++ itemChars rest)

/-- The further members of an object and its end. -/
def memberChars : List (String × Json) → List Char
  | [] => ['\x7d']
  | (n, v) :: rest => ',' :: (stringChars n ++ ':' :: (chars v ++ memberChars rest))

end

/-- The compact text of a value. -/
def render (v : Json) : String :=
  String.ofList v.chars

end Keyring.Json
