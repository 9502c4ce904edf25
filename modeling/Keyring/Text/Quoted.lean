import Keyring.Text.Hex
import Keyring.Text.Printable

/-! # Quoted text for diagnostics

A text between double quotes. Quotes and backslashes are escaped, the usual control characters have
short forms, and everything that does not print as itself is written by its code point.
-/

namespace Keyring.Text.Quoted

/-- The code point form `\u{...}`. -/
def codePoint (c : Char) : List Char :=
  ['\\', 'u', '\x7b'] ++ Nat.toDigits 16 c.toNat ++ ['\x7d']

/-- How one character is shown inside quotes. -/
def showChar (c : Char) : List Char :=
  if c = '\x00' then ['\\', '0']
  else if c = '\t' then ['\\', 't']
  else if c = '\n' then ['\\', 'n']
  else if c = '\r' then ['\\', 'r']
  else if c = '"' then ['\\', '"']
  else if c = '\\' then ['\\', '\\']
  else if c.toNat < 0x20 then codePoint c
  else if c.toNat < 0x7f then [c]
  else if c.toNat < 0x80 then codePoint c
  else if Printable.isPrintable c then [c] else codePoint c

/-- A text in double quotes. -/
def quote (s : String) : String :=
  String.ofList ('"' :: (s.toList.flatMap showChar ++ ['"']))

/-- An optional value as `Some(..)` or `None`. -/
def showOption (shown : Option String) : String :=
  match shown with
  | some s => "Some(" ++ s ++ ")"
  | none => "None"

/-- A list in brackets. -/
def showList (shown : List String) : String :=
  "[" ++ ", ".intercalate shown ++ "]"

/-- A record with all its fields. -/
def showRecord (name : String) (fields : List (String × String)) : String :=
  name ++ " \x7b " ++ ", ".intercalate (fields.map fun f => f.1 ++ ": " ++ f.2) ++ " \x7d"

/-- A record that ends in `..` because some of its fields are not shown. -/
def showOpenRecord (name : String) (fields : List (String × String)) : String :=
  name ++ " \x7b " ++ ", ".intercalate ((fields.map fun f => f.1 ++ ": " ++ f.2) ++ [".."]) ++
    " \x7d"

end Keyring.Text.Quoted
