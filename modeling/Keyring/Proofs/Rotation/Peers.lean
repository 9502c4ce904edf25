import Keyring.Proofs.Bucket
import Keyring.Proofs.Runs
import Keyring.Rotation.Rotater
import Keyring.Store.Ledger
import Mathlib.Data.List.Basic

/-! # Peers

Processes that share a ledger and a clock, in every order in which their requests can be answered.
Each goes on one errand after the other. Between any two requests the clock may move and other
processes may act; a call on the store may fail, before or after it took effect; and an errand may
be given up at any point, which is also how a process ends.

Beside what the processes hold, a record is kept of what was asked and answered, in which no process
takes part.
-/

namespace Keyring.Rotation

open Store

/-- What a process may be asked to do. -/
inductive Errand
  | find (b : Bucket)
  | generateFor (b : Bucket)
  | restore
  | rotate (b : Bucket)
  deriving DecidableEq

/-- What came of an errand. -/
inductive Outcome
  | found (r : Except Error (Option Key))
  | generated (r : Except Error Generation)
  | restored (r : Except Error Bucket)
  | rotated (r : Except Error Key)
  deriving DecidableEq

/-- The error that an errand ended in. -/
def Outcome.error? : Outcome → Option Error
  | .found (.error e) | .generated (.error e) | .restored (.error e) | .rotated (.error e) => some e
  | _ => none

/-- The program of an errand. -/
def Errand.program (r : Rotater) : Errand → Program Outcome
  | .find b => (Rotater.find b).run.bind fun o => .done (.found o)
  | .generateFor b => (r.generateFor b).run.bind fun o => .done (.generated o)
  | .restore => r.restore.run.bind fun o => .done (.restored o)
  | .rotate b => (r.rotate b).run.bind fun o => .done (.rotated o)

/-- The bucket whose key is current after an errand that came out well. -/
def Errand.settled : Errand → Outcome → Option Bucket
  | .restore, .restored (.ok b) => some b
  | .rotate b, .rotated (.ok _) => some b
  | _, _ => none

/-! ## The shared store -/

/-- What the processes share. -/
structure Shared where
  ledger : Ledger := {}
  /-- The name and the blob of each creation that was ever accepted, the oldest first. -/
  accepted : List (String × Bytes) := []
  deriving DecidableEq

/-- After a call took effect. -/
def Shared.after (now : Duration) (c : Call) (s : Shared) : Shared where
  ledger := (s.ledger.call now c).2
  accepted := match c with
    | .create name blob _ =>
      if (s.ledger.live? now name).isSome then s.accepted else s.accepted ++ [(name, blob)]
    | _ => s.accepted

/-! ## Processes -/

/-- What a process holds, and the record of its last errand. -/
structure Own where
  window : KeyWindow := .empty
  /-- The bucket of the last errand that brought the window up to date, until a key is installed. -/
  settled : Option Bucket := none
  /-- The bucket of the clock, as it was read on the errand. -/
  told : Option Bucket := none
  /-- The keys that were installed on the errand, the first one first. -/
  installs : List Key := []
  /-- The failures that the errand was answered with. -/
  failures : List Error := []

/-- At the beginning of an errand. -/
def Own.fresh (o : Own) : Own := { o with told := none, installs := [], failures := [] }

/-- With one more failure. -/
def Own.failing (o : Own) (e : Error) : Own := { o with failures := o.failures ++ [e] }

/-- With a key installed. -/
def Own.installing (o : Own) (key : Key) : Own :=
  { o with window := o.window.rotate key, installs := o.installs ++ [key], settled := none }

/-- What a process stands before: the shared store, and what it holds itself. -/
abbrev View := Shared × Own

/-- An errand that is under way. -/
structure Task where
  errand : Errand
  rest : Program Outcome
  /-- When it began. -/
  began : Duration
  /-- How things stood then. -/
  before : View

/-- A process with its errand, if it is on one. -/
structure Process where
  own : Own := {}
  task : Option Task := none

/-- An errand that has ended. -/
structure Deed (ι : Type) where
  process : ι
  errand : Errand
  outcome : Outcome
  /-- When it began. -/
  began : Duration
  /-- How things stood then. -/
  before : View
  /-- What the process held in the end. -/
  after : Own

/-! ## Moves -/

/-- What the world makes of a request. -/
inductive Reply
  /-- The request is carried out. -/
  | served
  /-- A call fails and has no effect. -/
  | refused (e : Error)
  /-- A call takes effect, but its answer is lost. -/
  | lost (e : Error)
  /-- A key, or the failure to generate one. -/
  | generated (r : Except Error Key)

/-- The answer to a request, and what the process stands before then; `none` for a reply that is
none to the request. -/
def Reply.answer? (interval now : Duration) :
    (q : Request) → Reply → View → Option (q.Answer × View)
  | .time, .served, (s, o) => some (now, s, { o with told := some (.containing now interval) })
  | .store c, .served, (s, o) => some ((s.ledger.call now c).1, s.after now c, o)
  | .store _, .refused e, (s, o) => some (.error e, s, o.failing e)
  | .store c, .lost e, (s, o) => some (.error e, s.after now c, o.failing e)
  | .generate _, .generated (.ok key), (s, o) => some (.ok key, s, o)
  | .generate _, .generated (.error e), (s, o) => some (.error e, s, o.failing e)
  | .current, .served, (s, o) => some (o.window.current?, s, o)
  | .install key, .served, (s, o) => some ((), s, o.installing key)
  | _, _, _ => none

namespace Reply

variable {interval now : Duration} {reply : Reply} {g g' : View}

/-- A reading of the clock gives the time and is remembered as its bucket. -/
theorem answered_time {a : Duration} (h : reply.answer? interval now .time g = some (a, g')) :
    a = now ∧ g' = (g.1, { g.2 with told := some (.containing now interval) }) := by
  cases reply <;> simp only [answer?, Option.some.injEq, Prod.mk.injEq, reduceCtorEq] at h
  exact ⟨h.1.symm, h.2.symm⟩

/-- A call is carried out, or it fails with or without an effect. -/
theorem answered_store {c : Call} {a : Request.Answer (.store c)}
    (h : reply.answer? interval now (.store c) g = some (a, g')) :
    (a = (g.1.ledger.call now c).1 ∧ g' = (g.1.after now c, g.2)) ∨
      ∃ err s, a = .error err ∧ g' = (s, g.2.failing err) ∧ (s = g.1 ∨ s = g.1.after now c) := by
  cases reply <;> simp only [answer?, Option.some.injEq, Prod.mk.injEq, reduceCtorEq] at h
  case served => exact .inl ⟨h.1.symm, h.2.symm⟩
  case refused err => exact .inr ⟨err, g.1, h.1.symm, h.2.symm, .inl rfl⟩
  case lost err => exact .inr ⟨err, _, h.1.symm, h.2.symm, .inr rfl⟩

/-- A generation gives a key or records a failure. -/
theorem answered_generate {bits : Nat} {a : Request.Answer (.generate bits)}
    (h : reply.answer? interval now (.generate bits) g = some (a, g')) :
    (∃ k, a = .ok k ∧ g' = g) ∨ ∃ err, a = .error err ∧ g' = (g.1, g.2.failing err) := by
  cases reply <;> simp only [answer?, reduceCtorEq] at h
  case generated r =>
    cases r <;> simp only [Option.some.injEq, Prod.mk.injEq] at h
    case ok k => exact .inl ⟨k, h.1.symm, h.2.symm⟩
    case error err => exact .inr ⟨err, h.1.symm, h.2.symm⟩

/-- The current key is read from the window. -/
theorem answered_current {a : Option Key}
    (h : reply.answer? interval now .current g = some (a, g')) :
    a = g.2.window.current? ∧ g' = g := by
  cases reply <;> simp only [answer?, Option.some.injEq, Prod.mk.injEq, reduceCtorEq] at h
  exact ⟨h.1.symm, h.2.symm⟩

/-- An installation is remembered. -/
theorem answered_install {key : Key} {a : Unit}
    (h : reply.answer? interval now (.install key) g = some (a, g')) :
    g' = (g.1, g.2.installing key) := by
  cases reply <;> simp only [answer?, Option.some.injEq, Prod.mk.injEq, reduceCtorEq] at h
  exact h.2.symm

end Reply

/-- Processes on a shared store. -/
structure Peers (ι : Type) where
  now : Duration
  shared : Shared := {}
  process : ι → Process := fun _ => {}
  /-- The errands that have ended, the first one first. -/
  journal : List (Deed ι) := []

/-- What may happen. -/
inductive Peers.Move (ι : Type)
  /-- The clock shows another time. -/
  | clock (now : Duration)
  /-- A process sets out on an errand. -/
  | begin (i : ι) (e : Errand)
  /-- The request that a process waits with is answered. -/
  | answer (i : ι) (reply : Reply)
  /-- An errand ends. -/
  | conclude (i : ι)
  /-- An errand is given up. -/
  | abandon (i : ι)

namespace Peers

variable {ι : Type} [DecidableEq ι]

/-- With one process changed. -/
def setProcess (p : Peers ι) (i : ι) (x : Process) : Peers ι :=
  { p with process := Function.update p.process i x }

/-- What a move leads to, if it can be made. -/
def move (r : ι → Rotater) (p : Peers ι) : Move ι → Option (Peers ι)
  | .clock now => some { p with now }
  | .begin i e =>
    match p.process i with
    | ⟨o, none⟩ =>
      some (p.setProcess i ⟨o.fresh, some ⟨e, e.program (r i), p.now, (p.shared, o.fresh)⟩⟩)
    | ⟨_, some _⟩ => none
  | .answer i reply =>
    match p.process i with
    | ⟨o, some ⟨e, .ask q next, began, before⟩⟩ =>
      match reply.answer? (r i).interval p.now q (p.shared, o) with
      | some (a, shared, o) =>
        some { p.setProcess i ⟨o, some ⟨e, next a, began, before⟩⟩ with shared }
      | none => none
    | _ => none
  | .conclude i =>
    match p.process i with
    | ⟨o, some ⟨e, .done outcome, began, before⟩⟩ =>
      some { p.setProcess i ⟨{ o with settled := (e.settled outcome).or o.settled }, none⟩ with
        journal := p.journal ++ [⟨i, e, outcome, began, before, o⟩] }
    | _ => none
  | .abandon i => some (p.setProcess i { p.process i with task := none })

/-- The call that a process waits for. -/
def pending? (p : Peers ι) (i : ι) : Option Call :=
  match p.process i with
  | ⟨_, some ⟨_, .ask (.store c) _, _, _⟩⟩ => some c
  | _ => none

/-- If the move is an answer to a call, then the call comes at a time at which it may. -/
def Heeds (ok : Duration → Call → Prop) (p : Peers ι) : Move ι → Prop
  | .answer i _ => ∀ c ∈ p.pending? i, ok p.now c
  | _ => True

instance (ok : Duration → Call → Prop) [∀ now c, Decidable (ok now c)] (p : Peers ι) (m : Move ι) :
    Decidable (p.Heeds ok m) :=
  match m with
  | .answer i _ => inferInstanceAs (Decidable (∀ c ∈ p.pending? i, ok p.now c))
  | .clock _ | .begin _ _ | .conclude _ | .abandon _ => isTrue trivial

/-- What peers can come to that start with empty windows and an empty store. -/
def Reachable (r : ι → Rotater) (ok : Duration → Call → Prop) (p : Peers ι) : Prop :=
  ∃ now, Reaches (move r) (fun p m _ => p.Heeds ok m) { now } p

/-- Peers after the moves of a run. -/
def after (r : ι → Rotater) (ok : Duration → Call → Prop) [∀ now c, Decidable (ok now c)]
    (now : Duration) (ms : List (Move ι)) : Option (Peers ι) :=
  play (move r) (fun p m _ => p.Heeds ok m) ms { now }

/-- What a list of moves leads to is reachable. -/
theorem reachable_after {r : ι → Rotater} {ok : Duration → Call → Prop}
    [∀ now c, Decidable (ok now c)] {now : Duration} {ms : List (Move ι)} {p : Peers ι}
    (h : after r ok now ms = some p) : Reachable r ok p :=
  ⟨now, Reaches.refl.play h⟩

end Peers

end Keyring.Rotation
