import Keyring.Json.Numeral
import Keyring.Text.Utf8

/-! # Reading JSON

Readers take characters and give a result with the characters left over. `value` is strict about
everything that a value can hold: escapes name whole characters, numbers are in range, and arrays
and objects nest less than 128 deep. `skip` passes over a value that nobody asked for and checks its
form only. `elements` and `members` read an array or object item by item with a reader of the
caller's choice.
-/

namespace Keyring.Json

/-- A reader of a prefix of a text. -/
abbrev Reader (α : Type) := List Char → Option (α × List Char)

namespace Reader

/-- Whether a character may stand between tokens. -/
def isSpace (c : Char) : Bool :=
  c = ' ' || c = '\t' || c = '\n' || c = '\r'

/-- Drops space before a token. -/
def skipSpace (cs : List Char) : List Char :=
  cs.dropWhile isSpace

/-- The value of a hexadecimal digit. -/
def hexValue? (c : Char) : Option Nat :=
  if '0' ≤ c ∧ c ≤ '9' then some (c.toNat - 48)
  else if 'a' ≤ c ∧ c ≤ 'f' then some (c.toNat - 87)
  else if 'A' ≤ c ∧ c ≤ 'F' then some (c.toNat - 55)
  else none

/-- Reads four hexadecimal digits. -/
def hex4 : Reader Nat
  | a :: b :: c :: d :: rest => do
    let a ← hexValue? a
    let b ← hexValue? b
    let c ← hexValue? c
    let d ← hexValue? d
    return (((a * 16 + b) * 16 + c) * 16 + d, rest)
  | _ => none

/-- The character of a one-letter escape. -/
def shortEscape? : Char → Option Char
  | '"' => some '"'
  | '\\' => some '\\'
  | '/' => some '/'
  | 'b' => some '\x08'
  | 'f' => some '\x0c'
  | 'n' => some '\n'
  | 'r' => some '\r'
  | 't' => some '\t'
  | _ => none

/-- The character that two halves of a surrogate pair name. -/
def joinSurrogates (high low : Nat) : Char :=
  Char.ofNat (0x10000 + (high - 0xD800) * 0x400 + (low - 0xDC00))

/-- Reads the rest of a string after its opening quote. The fuel bounds the characters read. -/
def stringBody : (fuel : Nat) → Reader (List Char)
  | 0, _ => none
  | fuel + 1, cs =>
    match cs with
    | [] => none
    | '"' :: rest => some ([], rest)
    | '\\' :: 'u' :: rest => do
      let (u, rest) ← hex4 rest
      if 0xDC00 ≤ u ∧ u ≤ 0xDFFF then none
      else if 0xD800 ≤ u ∧ u ≤ 0xDBFF then
        match rest with
        | '\\' :: 'u' :: rest => do
          let (v, rest) ← hex4 rest
          if 0xDC00 ≤ v ∧ v ≤ 0xDFFF then
            let (s, rest) ← stringBody fuel rest
            return (joinSurrogates u v :: s, rest)
          else none
        | _ => none
      else
        let (s, rest) ← stringBody fuel rest
        return (Char.ofNat u :: s, rest)
    | '\\' :: c :: rest => do
      let e ← shortEscape? c
      let (s, rest) ← stringBody fuel rest
      return (e :: s, rest)
    | c :: rest =>
      if c.toNat < 0x20 ∨ c = '\\' then none
      else do
        let (s, rest) ← stringBody fuel rest
        return (c :: s, rest)

/-- Reads a string at the next token. -/
def string : Reader String := fun cs =>
  match skipSpace cs with
  | '"' :: rest => do
    let (s, rest) ← stringBody (rest.length + 1) rest
    return (String.ofList s, rest)
  | _ => none

/-- Reads a given character at the next token. -/
def token (c : Char) : Reader Unit := fun cs =>
  match skipSpace cs with
  | d :: rest => if d = c then some ((), rest) else none
  | [] => none

/-- Reads `item`s separated by commas up to the closing character. -/
def separated {α : Type} (item : Reader α) (close : Char) : (fuel : Nat) → Reader (List α)
  | 0, _ => none
  | fuel + 1, cs => do
    let (a, cs) ← item cs
    match skipSpace cs with
    | ',' :: rest => do
      let (as, rest) ← separated item close fuel rest
      return (a :: as, rest)
    | c :: rest => if c = close then some ([a], rest) else none
    | [] => none

/-- Reads a possibly empty bracketed list. -/
def bracketed {α : Type} (item : Reader α) (opening close : Char) : Reader (List α) := fun cs => do
  let ((), cs) ← token opening cs
  match token close cs with
  | some ((), rest) => some ([], rest)
  | none => separated item close cs.length cs

/-- Reads a member: a name, a colon and a value read as the name says. -/
def memberWith {α : Type} (value : String → Reader α) : Reader (String × α) := fun cs => do
  let (name, cs) ← string cs
  let ((), cs) ← token ':' cs
  let (v, cs) ← value name cs
  return ((name, v), cs)

/-- Reads an array item by item. -/
def elements {α : Type} (item : Reader α) : Reader (List α) :=
  bracketed item '[' ']'

/-- Reads an object member by member. -/
def members {α : Type} (value : String → Reader α) : Reader (List (String × α)) :=
  bracketed (memberWith value) '\x7b' '\x7d'

/-- Reads a number, `true`, `false` or `null`. -/
def atom : Reader Json := fun cs =>
  match skipSpace cs with
  | 'n' :: 'u' :: 'l' :: 'l' :: rest => some (.null, rest)
  | 't' :: 'r' :: 'u' :: 'e' :: rest => some (.bool true, rest)
  | 'f' :: 'a' :: 'l' :: 's' :: 'e' :: rest => some (.bool false, rest)
  | cs => do
    let (n, rest) ← Numeral.read cs
    return (← n.toJson?, rest)

/-- How deep arrays and objects may nest. -/
def maxDepth : Nat := 127

/-- Reads a string, number, boolean or `null`. -/
def scalar : Reader Json := fun cs =>
  match skipSpace cs with
  | '"' :: _ => (string cs).map fun (s, rest) => (.str s, rest)
  | _ => atom cs

/-- Reads a value whose arrays and objects nest at most `depth` deep. -/
def valueWithin : (depth : Nat) → Reader Json
  | 0 => scalar
  | depth + 1 => fun cs =>
    match skipSpace cs with
    | '[' :: _ => (elements (valueWithin depth) cs).map fun (vs, rest) => (.arr vs, rest)
    | '\x7b' :: _ =>
      (members (fun _ => valueWithin depth) cs).map fun (ms, rest) => (.obj ms, rest)
    | _ => scalar cs

/-- Reads any value. -/
def value : Reader Json := valueWithin maxDepth

/-- Passes over the rest of a string, checking the form of its escapes. -/
def skipStringBody : (fuel : Nat) → Reader Unit
  | 0, _ => none
  | fuel + 1, cs =>
    match cs with
    | [] => none
    | '"' :: rest => some ((), rest)
    | '\\' :: 'u' :: rest => do
      let (_, rest) ← hex4 rest
      skipStringBody fuel rest
    | '\\' :: c :: rest => do
      let _ ← shortEscape? c
      skipStringBody fuel rest
    | c :: rest => if c.toNat < 0x20 ∨ c = '\\' then none else skipStringBody fuel rest

/-- Passes over a value of any depth and range, checking its form only. The fuel bounds the
depth. -/
def skipWithin : (fuel : Nat) → Reader Unit
  | 0, _ => none
  | fuel + 1, cs =>
    match skipSpace cs with
    | '"' :: rest => skipStringBody (rest.length + 1) rest
    | '[' :: _ => (elements (skipWithin fuel) cs).map fun (_, rest) => ((), rest)
    | '\x7b' :: _ =>
      (bracketed (skipMember (skipWithin fuel)) '\x7b' '\x7d' cs).map fun (_, rest) => ((), rest)
    | 'n' :: 'u' :: 'l' :: 'l' :: rest => some ((), rest)
    | 't' :: 'r' :: 'u' :: 'e' :: rest => some ((), rest)
    | 'f' :: 'a' :: 'l' :: 's' :: 'e' :: rest => some ((), rest)
    | cs => (Numeral.read cs).map fun (_, rest) => ((), rest)
where
  /-- Passes over a member. -/
  skipMember (skipValue : Reader Unit) : Reader Unit := fun cs => do
    let ((), cs) ← token '"' cs
    let ((), cs) ← skipStringBody (cs.length + 1) cs
    let ((), cs) ← token ':' cs
    skipValue cs

/-- Passes over a value. -/
def skip : Reader Unit := fun cs => skipWithin (cs.length + 1) cs

/-- Reads a whole text: nothing but space may be left over. -/
def whole {α : Type} (r : Reader α) (s : String) : Option α := do
  let (a, rest) ← r s.toList
  if (skipSpace rest).isEmpty then some a else none

end Reader

/-- The value of a JSON text. -/
def parse? (s : String) : Option Json :=
  Reader.value.whole s

/-- The value of a JSON text given as bytes. -/
def parseBytes? (bs : Bytes) : Option Json :=
  match Utf8.decode bs with
  | .ok s => parse? s
  | .error _ => none

end Keyring.Json
