import Keyring.Config.Tree
import Keyring.Text.Blank
import Keyring.Toml.Numbers

/-! # Settings from environment variables

A variable belongs to the configuration if its name starts with the prefix and the separator, letter
case aside. What follows, in lower case, is the path of a value: the separator and the point divide
its names. A path with an empty name is passed over.

The text of a variable is read as a truth value, a number, a quoted text, a list or a table; a text
that is none of these, or that goes on after one, is taken as it is. A number with a point is a
float.
-/

namespace Keyring.Config.Environment

open Json (Reader)

/-! ## Values -/

/-- Whether a character may stand around values. -/
def isSpace (c : Char) : Bool :=
  c = ' ' || c = '\t' || c = '\n' || c = '\x0c' || c = '\r'

/-- Drops space. -/
def skipSpace (cs : List Char) : List Char := cs.dropWhile isSpace

/-- Whether a character belongs to a plain value. -/
def isValueChar (c : Char) : Bool :=
  c ≠ ',' && c ≠ '\x7b' && c ≠ '\x7d' && c ≠ '[' && c ≠ ']'

/-- Whether a character belongs to a bare name. -/
def isNameChar (c : Char) : Bool := c.isAlphanum || c = '_' || c = '-'

/-- The number of a nonempty list of decimal digits. -/
def digits? (cs : List Char) : Option Nat :=
  if !cs.isEmpty && cs.all Char.isDigit then some (Toml.natOfDigits 10 cs) else none

/-- A number without a point that fits 64 bits, signed or not. -/
def int? (cs : List Char) : Option Int :=
  let word (ds : List Char) : Option Int := do
    let n ← digits? ds
    if n < 0x1_0000_0000_0000_0000 then some n else none
  match cs with
  | '+' :: ds => word ds
  | '-' :: ds => do Toml.int64? true (← digits? ds)
  | ds => word ds

/-- Drops an exponent; `none` if what is left is something else. -/
def endsAfterExponent : List Char → Bool
  | [] => true
  | c :: rest => (c = 'e' || c = 'E') && (digits? (Toml.sign rest).2).isSome

/-- Whether a text is a decimal number with a point: digits on at least one side of it. -/
def isFloat (cs : List Char) : Bool :=
  let cs := (Toml.sign cs).2
  let whole := cs.takeWhile Char.isDigit
  match cs.dropWhile Char.isDigit with
  | '.' :: rest =>
    let fraction := rest.takeWhile Char.isDigit
    !(whole.isEmpty && fraction.isEmpty) && endsAfterExponent (rest.dropWhile Char.isDigit)
  | _ => false

/-- The value of a plain text. -/
def plain (cs : List Char) : Tree :=
  if cs.contains '.' && isFloat cs then .float
  else match int? cs with
    | some n => .int n
    | none => .text (String.ofList cs)

/-- Reads a plain value. -/
def plainValue : Reader Tree := fun cs =>
  some (plain (Text.trimChars (cs.takeWhile isValueChar)), cs.dropWhile isValueChar)

/-- Reads a quoted text. -/
def quoted : Reader String
  | '"' :: rest => (Toml.basicBody (rest.length + 1) rest).map fun (s, r) => (String.ofList s, r)
  | _ => none

/-- Reads a name: quoted or bare. -/
def name : Reader String := fun cs =>
  match cs with
  | '"' :: _ => quoted cs
  | cs =>
    match cs.takeWhile isNameChar with
    | [] => none
    | word => some (String.ofList word, cs.dropWhile isNameChar)

/-- Reads items between commas up to the closing character; a comma may come last. The fuel bounds
their number. -/
def separated {α : Type} (item : Reader α) (close : Char) : (fuel : Nat) → Reader (List α)
  | 0, _ => none
  | fuel + 1, cs =>
    match Toml.literally close cs with
    | some ((), rest) => some ([], rest)
    | none => do
      let (a, cs) ← item cs
      match cs with
      | ',' :: rest => do
        let (as, rest) ← separated item close fuel rest
        return (a :: as, rest)
      | cs => do
        let ((), rest) ← Toml.literally close cs
        return ([a], rest)

/-- Reads an entry of a table: a name, the sign and a value. -/
def entry (value : Reader Tree) : Reader (String × Tree) := fun cs => do
  let (n, cs) ← name (skipSpace cs)
  let ((), cs) ← Toml.literally '=' (skipSpace cs)
  let (v, cs) ← value (skipSpace cs)
  return ((n, v), skipSpace cs)

/-- The table of entries, of which the last of one name counts. -/
def tableOf (entries : List (String × Tree)) : Tree :=
  .table (entries.foldl (fun t e => Tree.insert e.1 e.2 t) [])

/-- Reads a value. The fuel bounds the depth of lists and tables. -/
def value : (fuel : Nat) → Reader Tree
  | 0, _ => none
  | fuel + 1, cs => do
    let (v, rest) ← match skipSpace cs with
      | 't' :: 'r' :: 'u' :: 'e' :: rest => some (.bool true, rest)
      | 'f' :: 'a' :: 'l' :: 's' :: 'e' :: rest => some (.bool false, rest)
      | '\x7b' :: rest =>
        (separated (entry (value fuel)) '\x7d' (rest.length + 1) rest).map fun (es, r) =>
          (tableOf es, r)
      | '[' :: rest =>
        (separated (value fuel) ']' (rest.length + 1) rest).map fun (vs, r) => (.list vs, r)
      | '"' :: rest => (quoted ('"' :: rest)).map fun (s, r) => (.text s, r)
      | '\'' :: c :: '\'' :: rest => some (.char c, rest)
      | '\'' :: _ => none
      | cs => plainValue cs
    return (v, skipSpace rest)

/-- The value of the text of a variable. -/
def parse (text : String) : Tree :=
  match value (text.length + 1) text.toList with
  | some (v, []) => v
  | _ => .text text

/-! ## Variables -/

/-- What separates the names of a path in a variable. -/
def separator : String := "__"

/-- The rest of a text after a prefix, letter case aside. -/
def dropPrefix? : (start cs : List Char) → Option (List Char)
  | [], cs => some cs
  | a :: start, c :: cs => if a.toLower = c.toLower then dropPrefix? start cs else none
  | _ :: _, [] => none

/-- Turns each separator into a point. -/
def pointed : List Char → List Char
  | '_' :: '_' :: rest => '.' :: pointed rest
  | c :: rest => c :: pointed rest
  | [] => []

/-- The path that the name of a variable gives under a prefix. -/
def path? (start variableName : String) : Option (List String) := do
  let rest ← dropPrefix? (start ++ separator).toList (Text.trimChars variableName.toList)
  let names := Text.splitAtChar '.' ((pointed rest).map Char.toLower)
  if names.any List.isEmpty then none else some (names.map String.ofList)

/-- A tree that holds one value at a path. -/
def nest (v : Tree) : List String → Tree
  | [] => v
  | n :: rest => .table [(n, nest v rest)]

/-- The tree of the variables under a prefix, later ones laid over earlier ones. -/
def tree (start : String) (environment : List (String × String)) : Tree :=
  environment.foldl (fun t v =>
    match path? start v.1 with
    | some path => t.merge (nest (parse v.2) path)
    | none => t) (.table [])

end Keyring.Config.Environment
