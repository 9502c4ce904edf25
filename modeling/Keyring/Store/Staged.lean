import Keyring.Store.Ledger

/-! # Staged stores

A ledger for rehearsals. It keeps a log of the calls on it, chosen calls can be made to fail, and
the next creation can be made to lose against a rival, who stores a blob of his own first or
vanishes without a trace.
-/

namespace Keyring.Store

/-- The kind of a call. -/
inductive Call.Kind
  | read
  | create
  | write
  deriving DecidableEq, Repr

/-- The name of a kind in the log. -/
def Call.Kind.name : Call.Kind → String
  | read => "read"
  | create => "write_nx"
  | write => "write"

/-- The kind of a name; any name but those of reads and creations is that of writes. -/
def Call.Kind.ofName (s : String) : Call.Kind :=
  if s = read.name then read else if s = create.name then create else write

/-- The kind of a call. -/
def Call.kind : Call → Call.Kind
  | read _ => .read
  | create _ _ _ => .create
  | write _ _ _ => .write

/-- What the log shows of a call. -/
inductive Staged.Event
  | read (name : String) (found : Bool)
  | created (name : String) (ttl : Duration) (won : Bool)
  | wrote (name : String) (ttl : Duration)
  | failed (kind : Call.Kind) (name : String)
  deriving DecidableEq

/-- Which calls fail: all of a kind, or those about one name. -/
structure Staged.Outage where
  kind : Call.Kind
  name : Option String
  deriving DecidableEq

/-- A ledger under rehearsal. -/
structure Staged where
  ledger : Ledger := {}
  /-- What was called since the log was last emptied. -/
  log : List Staged.Event := []
  outages : List Staged.Outage := []
  /-- The rival of the next creation, and the blob he stores. -/
  rival : Option (Option Bytes) := none
  deriving DecidableEq

namespace Staged

/-- The name of the backend. -/
def providerName : String := "mock"

/-- The text of a staged store in diagnostics. -/
def debug : String := "Mock"

/-- The error of a call that was made to fail. -/
def unavailable : Error := .plain .storage "store unavailable"

/-- The outage of a text: a kind, and after a blank the name of a blob. -/
def Outage.parse (text : String) : Outage :=
  let kind := text.toList.takeWhile (· ≠ ' ')
  let name := text.toList.drop kind.length
  ⟨.ofName (String.ofList kind), if name.isEmpty then none else some (String.ofList (name.drop 1))⟩

/-- Whether an outage hits a call. -/
def Outage.hits (o : Outage) (c : Call) : Bool :=
  o.kind = c.kind && o.name.all (· = c.name)

/-- Adds to the log. -/
def note (e : Event) (s : Staged) : Staged := { s with log := s.log ++ [e] }

/-- The log, which is emptied. -/
def takeLog (s : Staged) : List Event × Staged := (s.log, { s with log := [] })

/-- Stores a blob behind the scenes. -/
def put (now : Duration) (name : String) (blob : Bytes) (ttl : Duration) (s : Staged) : Staged :=
  { s with ledger := s.ledger.store now name blob ttl }

/-- How a staged store answers. -/
def call (now : Duration) (c : Call) (s : Staged) : Except Error c.Answer × Staged :=
  if s.outages.any (·.hits c) then (.error unavailable, s.note (.failed c.kind c.name))
  else match c with
    | .read name =>
      let found := s.ledger.live? now name
      (.ok found, s.note (.read name found.isSome))
    | .create name blob ttl =>
      match s.rival with
      | some rivalBlob =>
        let s := match rivalBlob with
          | some b => s.put now name b ttl
          | none => s
        (.ok false, { s with rival := none }.note (.created name ttl false))
      | none =>
        let won := (s.ledger.live? now name).isNone
        let s := if won then s.put now name blob ttl else s
        (.ok won, s.note (.created name ttl won))
    | .write name blob ttl => (.ok (), (s.put now name blob ttl).note (.wrote name ttl))

/-- A staged store as a store. -/
def backend : Backend Staged := ⟨call⟩

end Staged

end Keyring.Store
