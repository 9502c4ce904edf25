import Keyring.Json.Printer

/-! # Writing JSON for people

One item or member a line, indented by two spaces for each level; an empty array or object stays on
its line. Texts and numbers are written as in the compact form.
-/

namespace Keyring.Json

/-- A new line at a level. -/
def lineChars (level : Nat) : List Char := '\n' :: List.replicate (2 * level) ' '

mutual

/-- The characters of a value at a level. -/
def prettyChars (level : Nat) : Json → List Char
  | .arr (v :: rest) =>
    '[' :: (lineChars (level + 1) ++ prettyChars (level + 1) v ++ prettyItems level rest)
  | .obj ((n, v) :: rest) =>
    '\x7b' :: (lineChars (level + 1) ++ stringChars n ++ [':', ' '] ++ prettyChars (level + 1) v
      ++ prettyMembers level rest)
  | v => chars v

/-- The further items of an array and its end. -/
def prettyItems (level : Nat) : List Json → List Char
  | [] => lineChars level ++ [']']
  | v :: rest =>
    ',' :: (lineChars (level + 1) ++ prettyChars (level + 1) v ++ prettyItems level rest)

/-- The further members of an object and its end. -/
def prettyMembers (level : Nat) : List (String × Json) → List Char
  | [] => lineChars level ++ ['\x7d']
  | (n, v) :: rest =>
    ',' :: (lineChars (level + 1) ++ stringChars n ++ [':', ' '] ++ prettyChars (level + 1) v
      ++ prettyMembers level rest)

end

/-- The text of a value over several lines. -/
def pretty (v : Json) : String :=
  String.ofList (prettyChars 0 v)

end Keyring.Json
