/-! # White space

The characters of the Unicode property White_Space, and trimming by it.
-/

namespace Keyring.Text

/-- Whether a character is white space. -/
def isBlank (c : Char) : Bool :=
  let n := c.toNat
  (9 ≤ n && n ≤ 13) || n == 32 || n == 0x85 || n == 0xA0 || n == 0x1680
    || (0x2000 ≤ n && n ≤ 0x200A) || n == 0x2028 || n == 0x2029 || n == 0x202F || n == 0x205F
    || n == 0x3000

/-- Characters without white space at either end. -/
def trimChars (cs : List Char) : List Char :=
  ((cs.dropWhile isBlank).reverse.dropWhile isBlank).reverse

/-- A text without white space at either end. -/
def trim (s : String) : String :=
  String.ofList (trimChars s.toList)

/-- The lower-case form of an ASCII letter; other characters are unchanged. -/
def lowerAscii (s : String) : String :=
  String.ofList (s.toList.map Char.toLower)

/-- Whether two texts agree up to the case of ASCII letters. -/
def sameUpToCase (a b : String) : Bool :=
  lowerAscii a == lowerAscii b

/-- Splits at each occurrence of a character. -/
def splitAtChar (sep : Char) : List Char → List (List Char)
  | [] => [[]]
  | c :: rest =>
    if c = sep then [] :: splitAtChar sep rest
    else match splitAtChar sep rest with
      | [] => [[c]]
      | piece :: pieces => (c :: piece) :: pieces

end Keyring.Text
