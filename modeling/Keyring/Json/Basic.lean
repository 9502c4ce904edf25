import Keyring.Number.Binary64

/-! # JSON values

Numbers are exact integers of 64 bits or binary64 numbers, and the two are kept apart as they are in
the text. Members keep the order in which they were read, repeated names included;
`Json.normalize` gives the value with sorted members in which the last of repeated names counts.
-/

namespace Keyring

/-- A JSON value. -/
inductive Json
  | null
  | bool (b : Bool)
  | int (n : Int)
  | float (x : Binary64)
  | str (s : String)
  | arr (items : List Json)
  | obj (members : List (String × Json))
  deriving Repr, BEq

namespace Json

instance : Inhabited Json := ⟨.null⟩

/-- Puts a member into a sorted list of members, in place of one with the same name. -/
def insertMember (name : String) (v : Json) : List (String × Json) → List (String × Json)
  | [] => [(name, v)]
  | (n, w) :: rest =>
    if name < n then (name, v) :: (n, w) :: rest
    else if name = n then (name, v) :: rest
    else (n, w) :: insertMember name v rest

mutual

/-- The value with the members of every object sorted by name and unique. -/
def normalize : Json → Json
  | .arr items => .arr (normalizeItems items)
  | .obj members => .obj (normalizeMembers [] members)
  | v => v

/-- Normalizes each item. -/
def normalizeItems : List Json → List Json
  | [] => []
  | v :: rest => normalize v :: normalizeItems rest

/-- Adds normalized members to sorted ones. -/
def normalizeMembers (sorted : List (String × Json)) :
    List (String × Json) → List (String × Json)
  | [] => sorted
  | (n, v) :: rest => normalizeMembers (insertMember n (normalize v) sorted) rest

end

/-- The member of a name, the last one if it is repeated. -/
def member? (name : String) : Json → Option Json
  | .obj members => (members.reverse.find? (·.1 = name)).map (·.2)
  | _ => none

/-- The text of a string value. -/
def str? : Json → Option String
  | .str s => some s
  | _ => none

/-- The items of an array. -/
def arr? : Json → Option (List Json)
  | .arr items => some items
  | _ => none

/-- The number of an integer value. -/
def int? : Json → Option Int
  | .int n => some n
  | _ => none

/-- The truth value of a boolean. -/
def bool? : Json → Option Bool
  | .bool b => some b
  | _ => none

end Json

end Keyring
