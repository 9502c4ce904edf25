import Keyring.Config.Tree
import Keyring.Toml.Numbers

/-! # TOML documents

A document is a sequence of lines: a header opens a table or the next table of an array, and a pair
sets a dotted key in the open table. Tables differ in where they come from: a header declares one,
the headers of its sub-tables imply it, and dotted keys create it. A table is declared once at most,
a declared table is not extended by dotted keys, a table made by dotted keys is not declared, and no
key is set twice.
-/

namespace Keyring.Toml

open Config (Tree)

/-- Where a table comes from. -/
inductive Origin
  | declared
  | implied
  | dotted
  deriving DecidableEq, Repr

/-- What a document holds under a key. -/
inductive Node
  | value (t : Tree)
  | table (origin : Origin) (entries : List (String × Node))
  /-- An array of tables, of which the last is open. -/
  | tables (items : List (List (String × Node)))

/-- The entries of a table. -/
abbrev Entries := List (String × Node)

/-- The node of a key. -/
def find? (k : String) (es : Entries) : Option Node :=
  (es.find? (·.1 = k)).map (·.2)

/-- Replaces the node of a key, or adds it at the end. -/
def replace (k : String) (n : Node) : Entries → Entries
  | [] => [(k, n)]
  | (k', n') :: rest => if k' = k then (k, n) :: rest else (k', n') :: replace k n rest

/-- Applies `f` to the table at a path and gives the changed entries. Missing tables are created on
the way, and an array of tables is entered at its last table. Dotted keys do not enter declared
tables. -/
def enter (byDots : Bool) (f : Origin → Entries → Option Entries) :
    (path : List String) → Origin → Entries → Option Entries
  | [], o, es => f o es
  | k :: path, _, es =>
    match find? k es with
    | none => do
      let o := if byDots then Origin.dotted else .implied
      return replace k (.table o (← enter byDots f path o [])) es
    | some (.value _) => none
    | some (.tables items) =>
      match items.getLast? with
      | none => none
      | some last => do
        return replace k (.tables (items.dropLast ++ [← enter byDots f path .declared last])) es
    | some (.table o inner) =>
      if byDots && o = .declared then none
      else do return replace k (.table o (← enter byDots f path o inner)) es

/-- Sets a key in a table that is reached by dots or directly. -/
def assign (byDots : Bool) (k : String) (t : Tree) (o : Origin) (es : Entries) : Option Entries :=
  if byDots != (o = .dotted) then none
  else match find? k es with
    | none => some (replace k (.value t) es)
    | some _ => none

/-- Sets a dotted key below a table. -/
def assignPath (path : List String) (t : Tree) (o : Origin) (es : Entries) : Option Entries :=
  match path.getLast? with
  | none => none
  | some k => enter true (assign (!path.dropLast.isEmpty) k t) path.dropLast o es

/-- Declares a table. -/
def declare (k : String) (_ : Origin) (es : Entries) : Option Entries :=
  match find? k es with
  | none => some (replace k (.table .declared []) es)
  | some (.table .implied inner) => some (replace k (.table .declared inner) es)
  | some _ => none

/-- Opens the next table of an array. -/
def declareItem (k : String) (_ : Origin) (es : Entries) : Option Entries :=
  match find? k es with
  | none => some (replace k (.tables [[]]) es)
  | some (.tables items) => some (replace k (.tables (items ++ [[]])) es)
  | some _ => none

mutual

/-- The configuration tree of a node. -/
def Node.tree : Node → Tree
  | .value t => t
  | .table _ es => .table (entriesTree [] es)
  | .tables items => .list (itemsTree items)

/-- The sorted table of entries. -/
def entriesTree (table : List (String × Tree)) : List (String × Node) → List (String × Tree)
  | [] => table
  | (k, n) :: rest => entriesTree (Tree.insert k n.tree table) rest

/-- The trees of the tables of an array. -/
def itemsTree : List (List (String × Node)) → List Tree
  | [] => []
  | es :: rest => .table (entriesTree [] es) :: itemsTree rest

end

/-! ## Values -/

/-- Passes over a comment, if one comes next; it may hold no control character but the tab. -/
def skipComment : Reader Unit
  | '#' :: rest =>
    let line := rest.takeWhile isPlain
    let rest := rest.drop line.length
    match rest with
    | [] => some ((), [])
    | _ => if (lineEnd? rest).isSome then some ((), rest) else none
  | cs => some ((), cs)

/-- Passes over blanks, comments and line ends. The fuel bounds the lines. -/
def skipSpace : (fuel : Nat) → Reader Unit
  | 0, cs => some ((), cs)
  | fuel + 1, cs => do
    let ((), cs) ← skipComment (skipBlanks cs)
    match lineEnd? cs with
    | some rest => skipSpace fuel rest
    | none => some ((), cs)

/-- The name under which a date keeps its text. -/
def dateField : String := "$__toml_private_datetime"

/-- Reads a value that is neither an array nor an inline table. -/
def scalar : Reader Tree := fun cs =>
  match cs with
  | '"' :: _ | '\'' :: _ => (string cs).map fun (s, rest) => (.text s, rest)
  | 't' :: 'r' :: 'u' :: 'e' :: rest => some (.bool true, rest)
  | 'f' :: 'a' :: 'l' :: 's' :: 'e' :: rest => some (.bool false, rest)
  | _ =>
    match dateTime cs with
    | some (d, rest) => some (.table [(dateField, .text d)], rest)
    | none =>
      match float cs with
      | some ((), rest) => some (.float, rest)
      | none => (integer cs).map fun (n, rest) => (.int n, rest)

/-- Reads the values of an array after its opening bracket. The fuel bounds their number. -/
def items (value : Reader Tree) : (fuel : Nat) → Reader (List Tree)
  | 0, _ => none
  | fuel + 1, cs => do
    let ((), cs) ← skipSpace cs.length cs
    match cs with
    | ']' :: rest => some ([], rest)
    | cs => do
      let (v, cs) ← value cs
      let ((), cs) ← skipSpace cs.length cs
      match cs with
      | ',' :: rest => do
        let (vs, rest) ← items value fuel rest
        return (v :: vs, rest)
      | ']' :: rest => some ([v], rest)
      | _ => none

/-- Reads a pair: a key, the sign and a value. -/
def pair (value : Reader Tree) : Reader (List String × Tree) := fun cs => do
  let (path, cs) ← key cs
  let ((), cs) ← literally '=' cs
  let (v, cs) ← value (skipBlanks cs)
  return ((path, v), cs)

/-- Reads the pairs of an inline table, of which there is at least one. The fuel bounds their
number. -/
def pairs (value : Reader Tree) : (fuel : Nat) → (sofar : Entries) → Reader Entries
  | 0, _, _ => none
  | fuel + 1, sofar, cs => do
    let ((path, v), cs) ← pair value cs
    let es ← assignPath path v .declared sofar
    match skipBlanks cs with
    | ',' :: rest => pairs value fuel es rest
    | '\x7d' :: rest => some (es, rest)
    | _ => none

/-- How deep arrays and inline tables may nest. -/
def maxDepth : Nat := 79

/-- Reads a value whose arrays and inline tables nest at most `depth` deep. -/
def valueWithin : (depth : Nat) → Reader Tree
  | 0 => fun cs =>
    match cs with
    | '[' :: _ | '\x7b' :: _ => none
    | _ => scalar cs
  | depth + 1 => fun cs =>
    match cs with
    | '[' :: rest =>
      (items (valueWithin depth) (rest.length + 1) rest).map fun (vs, r) => (.list vs, r)
    | '\x7b' :: rest =>
      match skipBlanks rest with
      | '\x7d' :: rest => some (.table [], rest)
      | cs =>
        (pairs (valueWithin depth) (cs.length + 1) [] cs).map fun (es, r) =>
          (.table (entriesTree [] es), r)
    | _ => scalar cs

/-- Reads a value. -/
def value : Reader Tree := valueWithin maxDepth

/-! ## Lines -/

/-- Passes over the rest of a line: blanks, a comment, and the line end or the end of the text. -/
def endLine : Reader Unit := fun cs => do
  let ((), cs) ← skipComment (skipBlanks cs)
  match cs with
  | [] => some ((), [])
  | cs => (lineEnd? cs).map fun rest => ((), rest)

/-- A document that is being read: the open table and everything so far. -/
structure State where
  current : List String
  entries : Entries

/-- Declares at a path. -/
def State.declareAt (s : State) (f : String → Origin → Entries → Option Entries)
    (path : List String) : Option State :=
  match path.getLast? with
  | none => none
  | some k => do
    return ⟨path, ← enter false (f k) path.dropLast .declared s.entries⟩

/-- Sets a dotted key in the open table. -/
def State.assign (s : State) (path : List String) (t : Tree) : Option State := do
  return { s with entries := ← enter false (assignPath path t) s.current .declared s.entries }

/-- Reads a header after its opening bracket: the key and the closing bracket. -/
def header : Reader (List String) := fun cs => do
  let (path, cs) ← key cs
  let ((), cs) ← literally ']' cs
  return (path, cs)

/-- Reads one line. -/
def line (s : State) : Reader State := fun cs =>
  match skipBlanks cs with
  | [] => some (s, [])
  | '[' :: '[' :: rest => do
    let (path, rest) ← header rest
    let ((), rest) ← literally ']' rest
    let s ← s.declareAt declareItem path
    let ((), rest) ← endLine rest
    return (s, rest)
  | '[' :: rest => do
    let (path, rest) ← header rest
    let s ← s.declareAt declare path
    let ((), rest) ← endLine rest
    return (s, rest)
  | c :: rest =>
    if c = '#' ∨ (lineEnd? (c :: rest)).isSome then do
      let ((), rest) ← endLine (c :: rest)
      return (s, rest)
    else do
      let ((path, v), rest) ← pair value (c :: rest)
      let s ← s.assign path v
      let ((), rest) ← endLine rest
      return (s, rest)

/-- Reads lines up to the end of the text. The fuel bounds their number. -/
def lines : (fuel : Nat) → State → List Char → Option State
  | 0, s, cs => if cs.isEmpty then some s else none
  | fuel + 1, s, cs =>
    match cs with
    | [] => some s
    | cs => do
      let (s, rest) ← line s cs
      lines fuel s rest

/-- Drops a byte order mark at the start of a text. -/
def skipMark : List Char → List Char
  | '\uFEFF' :: rest => rest
  | cs => cs

/-- The configuration tree of a document. -/
def parse? (text : String) : Option Tree := do
  let cs := skipMark text.toList
  let s ← lines (cs.length + 1) ⟨[], []⟩ cs
  return .table (entriesTree [] s.entries)

end Keyring.Toml
