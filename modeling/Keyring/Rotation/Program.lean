import Keyring.KeyWindow
import Keyring.Store.Basic

/-! # Programs of requests

What a process does to bring its keys up to date is a tree of requests: each node asks for something
and goes on as the answer decides. The requests to the window of keys are answered by the process
itself, at once; all others come from the world outside, where time passes and other processes act
between one request and the next.
-/

namespace Keyring.Rotation

/-- What a process asks for. -/
inductive Request
  /-- The time since the epoch. -/
  | time
  /-- A call on the shared store. -/
  | store (c : Store.Call)
  /-- A fresh key of a size in bits. -/
  | generate (bits : Nat)
  /-- The current key of the process's own window. -/
  | current
  /-- Installs a key in the process's own window. -/
  | install (key : Key)
  deriving DecidableEq

namespace Request

/-- What a request is answered with. -/
@[reducible] def Answer : Request → Type
  | time => Duration
  | store c => Except Error c.Answer
  | generate _ => Except Error Key
  | current => Option Key
  | install _ => Unit

/-- Whether the process has to wait for the answer, so that others may act first. -/
def isAwaited : Request → Bool
  | store _ => true
  | generate _ => true
  | _ => false

end Request

/-- The world outside a process, as a state machine that answers requests. -/
structure World (σ : Type) where
  time : σ → Duration
  call : (c : Store.Call) → σ → Except Error c.Answer × σ
  generate : (bits : Nat) → σ → Except Error Key × σ

/-- Answers one request of a process with a window in a state of the world. -/
def Request.answer {σ : Type} (w : World σ) :
    (r : Request) → KeyWindow → σ → r.Answer × KeyWindow × σ
  | .time, window, s => (w.time s, window, s)
  | .store c, window, s => let (a, s) := w.call c s; (a, window, s)
  | .generate bits, window, s => let (a, s) := w.generate bits s; (a, window, s)
  | .current, window, s => (window.current?, window, s)
  | .install key, window, s => ((), window.rotate key, s)

/-- A tree of requests that ends in a result. -/
inductive Program (α : Type)
  | done (a : α)
  | ask (r : Request) (next : r.Answer → Program α)

namespace Program

variable {α β σ : Type}

/-- Goes on with another program at each end. -/
def bind : Program α → (α → Program β) → Program β
  | done a, f => f a
  | ask r next, f => ask r fun a => bind (next a) f

instance : Monad Program where
  pure := done
  bind := bind

@[simp] theorem bind_done (a : α) (f : α → Program β) : (done a).bind f = f a := rfl

@[simp] theorem bind_ask (r : Request) (next : r.Answer → Program α) (f : α → Program β) :
    (ask r next).bind f = ask r fun a => (next a).bind f := rfl

/-- Runs a program without interruption. -/
def run (w : World σ) : Program α → KeyWindow → σ → α × KeyWindow × σ
  | done a, window, s => (a, window, s)
  | ask r next, window, s =>
    let (a, window, s) := r.answer w window s
    run w (next a) window s

/-- Running one program after the other. -/
theorem run_bind (w : World σ) (p : Program α) (f : α → Program β) (window : KeyWindow) (s : σ) :
    (p.bind f).run w window s =
      (f (p.run w window s).1).run w (p.run w window s).2.1 (p.run w window s).2.2 := by
  induction p generalizing window s with
  | done => rfl
  | ask r next ih => simp [run, ih]

end Program

/-! ## Fallible programs -/

/-- A program that may end in an error. -/
abbrev Action (α : Type) := ExceptT Error Program α

namespace Action

/-- The time since the epoch. -/
def now : Action Duration := ExceptT.lift (.ask .time .done)

/-- The current key of the window. -/
def currentKey : Action (Option Key) := ExceptT.lift (.ask .current .done)

/-- Installs a key in the window. -/
def install (key : Key) : Action Unit := ExceptT.lift (.ask (.install key) .done)

/-- Calls the store, and ends in its error if it fails. -/
def call (c : Store.Call) : Action c.Answer := .mk (.ask (.store c) .done)

/-- Generates a key, and ends in the error if that fails. -/
def freshKey (bits : Nat) : Action Key := .mk (.ask (.generate bits) .done)

/-- Ends in an error or goes on with a value. -/
def ofExcept {α : Type} (r : Except Error α) : Action α :=
  .mk (.done r)

end Action

end Keyring.Rotation
