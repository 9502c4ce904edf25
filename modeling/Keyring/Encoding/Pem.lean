import Keyring.Text.Base64

/-! # PEM

A document between an opening and a closing line, in base64 lines of 64 columns. Text may come
before the opening line, on lines of its own. A line end is a line feed, a carriage return, or both;
after the closing line there is at most one. Written documents end their lines with line feeds.
-/

namespace Keyring.Pem

/-- The bytes of an ASCII text. -/
def ascii (s : String) : Bytes := Utf8.encode s

/-- The line that opens a document with a label. -/
def openingLine (label : String) : Bytes := ascii ("-----BEGIN " ++ label ++ "-----")

/-- The line that closes a document with a label. -/
def closingLine (label : String) : Bytes := ascii ("-----END " ++ label ++ "-----")

/-- The columns of a full line. -/
def width : Nat := 64

/-- The line feed. -/
def lf : UInt8 := 10

/-- The carriage return. -/
def cr : UInt8 := 13

/-- Breaks a text into lines of full width but the last. The fuel bounds their number. -/
def wrap : (fuel : Nat) → Bytes → Bytes
  | 0, bs => bs
  | fuel + 1, bs =>
    if bs.length ≤ width then bs else bs.take width ++ lf :: wrap fuel (bs.drop width)

/-- A document as PEM. -/
def encode (label : String) (document : Bytes) : Bytes :=
  let body := Base64.encodeBytes .standard document
  openingLine label ++ lf :: (wrap body.length body ++ lf :: (closingLine label ++ [lf]))

/-- The rest after a prefix. -/
def dropPrefix? : (start bs : Bytes) → Option Bytes
  | [], bs => some bs
  | a :: start, b :: bs => if a = b then dropPrefix? start bs else none
  | _ :: _, [] => none

/-- What comes before a suffix. -/
def dropSuffix? (finish bs : Bytes) : Option Bytes :=
  (dropPrefix? finish.reverse bs.reverse).map List.reverse

/-- The rest after a line end. -/
def lineEnd? : Bytes → Option Bytes
  | [] => none
  | b :: rest =>
    if b = cr then
      match rest with
      | c :: rest' => if c = lf then some rest' else some rest
      | [] => some []
    else if b = lf then some rest
    else none

/-- What comes before a line end at the end. -/
def dropLineEnd? (bs : Bytes) : Option Bytes :=
  match bs.reverse with
  | [] => none
  | b :: rest =>
    if b = lf then
      match rest with
      | c :: rest' => if c = cr then some rest'.reverse else some rest.reverse
      | [] => some []
    else if b = cr then some rest.reverse
    else none

/-- What every opening line starts with. -/
def openingMark : Bytes := ascii "-----BEGIN "

/-- Drops the lines before the opening line, none of which holds a zero byte. -/
def dropPreamble : Bytes → Option Bytes
  | [] => none
  | b :: rest =>
    if b = 0 then none
    else if (b = lf ∨ b = cr) ∧ (dropPrefix? openingMark rest).isSome then some rest
    else dropPreamble rest

/-- The document from its opening line on. -/
def start? (bs : Bytes) : Option Bytes :=
  if (dropPrefix? openingMark bs).isSome then some bs else dropPreamble bs

/-- Joins lines of full width but the last. The fuel bounds their number. -/
def unwrap : (fuel : Nat) → Bytes → Option Bytes
  | 0, bs => if bs.isEmpty then some [] else none
  | fuel + 1, bs =>
    if bs.length ≤ width then some bs
    else do
      let rest ← lineEnd? (bs.drop width)
      return bs.take width ++ (← unwrap fuel rest)

/-- The document with a label. -/
def decode (label : String) (bs : Bytes) : Option Bytes := do
  let bs ← start? bs
  let bs ← dropPrefix? (openingLine label) bs
  let bs ← lineEnd? bs
  let bs := (dropLineEnd? bs).getD bs
  let bs ← dropSuffix? (closingLine label) bs
  let bs ← dropLineEnd? bs
  let body ← unwrap (bs.length + 1) bs
  (Base64.decodeBytes .standard body).toOption

end Keyring.Pem
