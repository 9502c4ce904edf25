import Keyring.Json.Printer
import Keyring.Logging.Level

/-! # Log events

What a process reports: how severe it is, the part of the program it comes from, a message and named
values. The part is a path of names; a filter selects events by it.
-/

namespace Keyring.Logging

/-- An event. -/
structure Event where
  level : Level
  /-- The part of the program the event comes from. -/
  target : String
  message : String
  /-- Values by name. -/
  values : List (String × String) := []
  deriving DecidableEq, Repr

namespace Event

/-- The names of all that an event carries; the message is one of its values. -/
def fieldNames (e : Event) : List String := "message" :: e.values.map (·.1)

/-- An event that happened at a stamp as a line of text. -/
def line (stamp : String) (e : Event) : String :=
  let values := e.values.map fun (name, value) => " " ++ name ++ "=" ++ value
  stamp ++ " " ++ e.level.name ++ " " ++ e.target ++ ": " ++ e.message ++ String.join values

/-- An event that happened at a stamp as a JSON value. -/
def toJson (stamp : String) (e : Event) : Json :=
  .obj [("timestamp", .str stamp), ("level", .str e.level.name),
    ("fields",
      .obj (("message", .str e.message) :: e.values.map fun (name, value) => (name, .str value))),
    ("target", .str e.target)]

/-- An event in either form. -/
def render (json : Bool) (stamp : String) (e : Event) : String :=
  if json then (e.toJson stamp).render else e.line stamp

end Event

end Keyring.Logging
