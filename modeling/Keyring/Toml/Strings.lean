import Keyring.Json.Reader

/-! # Strings and keys of TOML

Basic strings have escapes and literal strings have none; both come in a form of several lines. A
line end is a line feed, with or without a carriage return before it, and inside strings both give a
line feed. No control character but the tab may stand in a string. A key is a bare word or a string
of one line, and keys are joined by dots.
-/

namespace Keyring.Toml

/-- A reader of a prefix of a text. -/
abbrev Reader (α : Type) := List Char → Option (α × List Char)

/-- Whether a character is a blank within a line. -/
def isBlank (c : Char) : Bool := c = ' ' || c = '\t'

/-- Drops blanks. -/
def skipBlanks (cs : List Char) : List Char := cs.dropWhile isBlank

/-- Whether a character may stand for itself: the tab, and everything that is no control. -/
def isPlain (c : Char) : Bool := c = '\t' || (0x20 ≤ c.toNat && c.toNat != 0x7f)

/-- The rest after a line end, if one comes next. -/
def lineEnd? : List Char → Option (List Char)
  | '\n' :: rest => some rest
  | '\r' :: '\n' :: rest => some rest
  | _ => none

/-- The number that hexadecimal digits spell. -/
def hexNumber? (ds : List Char) : Option Nat :=
  ds.foldl (fun n d => do return (← n) * 16 + (← Json.Reader.hexValue? d)) (some 0)

/-- The character of a code point, surrogates excluded. -/
def scalar? (n : Nat) : Option Char :=
  if n < 0xD800 ∨ (0xDFFF < n ∧ n < 0x110000) then some (Char.ofNat n) else none

/-- The character named by the next `digits` hexadecimal digits. -/
def codePoint (digits : Nat) : Reader Char := fun cs => do
  let ds := cs.take digits
  if ds.length < digits then none
  else return (← scalar? (← hexNumber? ds), cs.drop digits)

/-- Reads an escape after its backslash. -/
def escape : Reader Char
  | 'b' :: rest => some ('\x08', rest)
  | 't' :: rest => some ('\t', rest)
  | 'n' :: rest => some ('\n', rest)
  | 'f' :: rest => some ('\x0c', rest)
  | 'r' :: rest => some ('\r', rest)
  | '"' :: rest => some ('"', rest)
  | '\\' :: rest => some ('\\', rest)
  | 'u' :: rest => codePoint 4 rest
  | 'U' :: rest => codePoint 8 rest
  | _ => none

/-- Reads the rest of a basic string of one line. The fuel bounds the characters read. -/
def basicBody : (fuel : Nat) → Reader (List Char)
  | 0, _ => none
  | fuel + 1, cs =>
    match cs with
    | [] => none
    | '"' :: rest => some ([], rest)
    | '\\' :: rest => do
      let (c, rest) ← escape rest
      let (s, rest) ← basicBody fuel rest
      return (c :: s, rest)
    | c :: rest =>
      if isPlain c then do
        let (s, rest) ← basicBody fuel rest
        return (c :: s, rest)
      else none

/-- Reads the rest of a literal string of one line. -/
def literalBody : Reader (List Char)
  | [] => none
  | '\'' :: rest => some ([], rest)
  | c :: rest =>
    if isPlain c then do
      let (s, rest) ← literalBody rest
      return (c :: s, rest)
    else none

/-- How a run of `n` quotes inside a string of several lines is read: the quotes that belong to the
text, those that are consumed, and whether the string ends. -/
def quoteRun (n : Nat) : Nat × Nat × Bool :=
  if n < 3 then (n, n, false) else (min (n - 3) 2, min n 5, true)

/-- Drops blanks and line ends. The fuel bounds the characters read. -/
def skipLines : (fuel : Nat) → List Char → List Char
  | 0, cs => cs
  | fuel + 1, cs =>
    match lineEnd? (skipBlanks cs) with
    | some rest => skipLines fuel rest
    | none => skipBlanks cs

/-- Reads the rest of a basic string of several lines. A backslash at the end of a line joins it
with the next text. -/
def basicLines : (fuel : Nat) → Reader (List Char)
  | 0, _ => none
  | fuel + 1, cs =>
    match cs with
    | [] => none
    | '"' :: _ =>
      let run := cs.takeWhile (· = '"')
      let (kept, used, ends) := quoteRun run.length
      if ends then some (List.replicate kept '"', cs.drop used)
      else do
        let (s, rest) ← basicLines fuel (cs.drop used)
        return (List.replicate kept '"' ++ s, rest)
    | '\\' :: rest =>
      match lineEnd? (skipBlanks rest) with
      | some rest => basicLines fuel (skipLines rest.length rest)
      | none => do
        let (c, rest) ← escape rest
        let (s, rest) ← basicLines fuel rest
        return (c :: s, rest)
    | c :: rest =>
      match lineEnd? cs with
      | some rest => do
        let (s, rest) ← basicLines fuel rest
        return ('\n' :: s, rest)
      | none =>
        if isPlain c then do
          let (s, rest) ← basicLines fuel rest
          return (c :: s, rest)
        else none

/-- Reads the rest of a literal string of several lines. -/
def literalLines : (fuel : Nat) → Reader (List Char)
  | 0, _ => none
  | fuel + 1, cs =>
    match cs with
    | [] => none
    | '\'' :: _ =>
      let run := cs.takeWhile (· = '\'')
      let (kept, used, ends) := quoteRun run.length
      if ends then some (List.replicate kept '\'', cs.drop used)
      else do
        let (s, rest) ← literalLines fuel (cs.drop used)
        return (List.replicate kept '\'' ++ s, rest)
    | c :: rest =>
      match lineEnd? cs with
      | some rest => do
        let (s, rest) ← literalLines fuel rest
        return ('\n' :: s, rest)
      | none =>
        if isPlain c then do
          let (s, rest) ← literalLines fuel rest
          return (c :: s, rest)
        else none

/-- Drops the line end right after the opening quotes of a string of several lines. -/
def skipFirstLineEnd (cs : List Char) : List Char :=
  (lineEnd? cs).getD cs

/-- Reads a string value. -/
def string : Reader String
  | '"' :: '"' :: '"' :: rest =>
    (basicLines (rest.length + 1) (skipFirstLineEnd rest)).map fun (s, r) => (String.ofList s, r)
  | '\'' :: '\'' :: '\'' :: rest =>
    (literalLines (rest.length + 1) (skipFirstLineEnd rest)).map fun (s, r) => (String.ofList s, r)
  | '"' :: rest => (basicBody (rest.length + 1) rest).map fun (s, r) => (String.ofList s, r)
  | '\'' :: rest => (literalBody rest).map fun (s, r) => (String.ofList s, r)
  | _ => none

/-- Whether a character may stand in a bare key. -/
def isBare (c : Char) : Bool := c.isAlphanum || c = '_' || c = '-'

/-- Reads one part of a key. -/
def simpleKey : Reader String
  | '"' :: rest => (basicBody (rest.length + 1) rest).map fun (s, r) => (String.ofList s, r)
  | '\'' :: rest => (literalBody rest).map fun (s, r) => (String.ofList s, r)
  | cs =>
    match cs.takeWhile isBare with
    | [] => none
    | word => some (String.ofList word, cs.dropWhile isBare)

/-- Reads the parts of a key after the first. The fuel bounds their number. -/
def keyTail : (fuel : Nat) → Reader (List String)
  | 0, cs => some ([], cs)
  | fuel + 1, cs =>
    match skipBlanks cs with
    | '.' :: rest => do
      let (k, rest) ← simpleKey (skipBlanks rest)
      let (ks, rest) ← keyTail fuel rest
      return (k :: ks, rest)
    | _ => some ([], cs)

/-- Reads a dotted key and the blanks around it. -/
def key : Reader (List String) := fun cs => do
  let (k, rest) ← simpleKey (skipBlanks cs)
  let (ks, rest) ← keyTail rest.length rest
  return (k :: ks, skipBlanks rest)

end Keyring.Toml
