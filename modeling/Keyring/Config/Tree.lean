import Keyring.Json.Basic

/-! # Configuration trees

A source of configuration gives a tree of tables, lists and leaves. Tables are sorted by name and
names are unique. Sources are layered by `Tree.merge`: where both have a table the tables are
merged, and everywhere else the upper layer wins.
-/

namespace Keyring.Config

/-- A configuration value before it is read into a field. -/
inductive Tree
  /-- A field that is explicitly absent. -/
  | absent
  | bool (b : Bool)
  | int (n : Int)
  /-- A number with a fraction or an exponent; no field takes one. -/
  | float
  | char (c : Char)
  | text (s : String)
  | list (items : List Tree)
  | table (entries : List (String × Tree))
  deriving Repr, BEq

namespace Tree

instance : Inhabited Tree := ⟨.absent⟩

/-- The entry of a name. -/
def lookup (name : String) : List (String × Tree) → Option Tree
  | [] => none
  | (n, t) :: rest => if n = name then some t else lookup name rest

/-- Puts an entry into a sorted table, in place of one with the same name. -/
def insert (name : String) (t : Tree) : List (String × Tree) → List (String × Tree)
  | [] => [(name, t)]
  | (n, u) :: rest =>
    if name < n then (name, t) :: (n, u) :: rest
    else if name = n then (name, t) :: rest
    else (n, u) :: insert name t rest

mutual

/-- Lays `upper` over `lower`. -/
def merge (lower : Tree) : (upper : Tree) → Tree
  | .table entries =>
    match lower with
    | .table under => .table (mergeEntries under entries)
    | _ => .table (mergeEntries [] entries)
  | upper => upper

/-- Lays entries over a table, one by one. -/
def mergeEntries (lower : List (String × Tree)) : List (String × Tree) → List (String × Tree)
  | [] => lower
  | (n, t) :: rest => mergeEntries (insert n (merge ((lookup n lower).getD .absent) t) lower) rest

end

mutual

/-- The tree of a JSON value; `null` is an absent field. -/
def ofJson : Json → Tree
  | .null => .absent
  | .bool b => .bool b
  | .int n => .int n
  | .float _ => .float
  | .str s => .text s
  | .arr items => .list (ofItems items)
  | .obj members => .table (ofMembers [] members)

/-- The trees of the items of an array. -/
def ofItems : List Json → List Tree
  | [] => []
  | v :: rest => ofJson v :: ofItems rest

/-- Adds the members of an object to a table; the last of repeated names counts. -/
def ofMembers (table : List (String × Tree)) : List (String × Json) → List (String × Tree)
  | [] => table
  | (n, v) :: rest => ofMembers (insert n (ofJson v) table) rest

end

end Tree

end Keyring.Config
