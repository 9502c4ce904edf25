import Keyring.Rotation.Rotater

/-! # What programs promise

A program is judged by rules: what it may ask for, and how a request may be answered. Under rules, a
program meets a promise if it asks only for what it may and every end that it can reach is as
promised. Promises are computed from the end of a program backwards, one request at a time.
-/

namespace Keyring.Rotation

/-- The world around a program, as far as it is known: `γ` is what the program stands before. -/
structure Rules (γ : Type) where
  /-- What may be asked for. -/
  may : γ → Request → Prop
  /-- How a request may be answered, and what the program stands before then. -/
  answers : γ → (q : Request) → q.Answer → γ → Prop

namespace Program

variable {α β γ : Type} {R : Rules γ} {Q Q' : α → γ → Prop}

/-- The program asks only for what it may, and each end that it can reach is as promised. -/
def Meets (R : Rules γ) (Q : α → γ → Prop) : Program α → γ → Prop
  | done a, g => Q a g
  | ask q next, g => R.may g q ∧ ∀ a g', R.answers g q a g' → (next a).Meets R Q g'

@[simp] theorem meets_done (a : α) (g : γ) : (done a).Meets R Q g ↔ Q a g := Iff.rfl

@[simp] theorem meets_ask (q : Request) (next : q.Answer → Program α) (g : γ) :
    (ask q next).Meets R Q g ↔ R.may g q ∧ ∀ a g', R.answers g q a g' → (next a).Meets R Q g' :=
  Iff.rfl

/-- A weaker promise is met as well. -/
theorem Meets.mono {p : Program α} {g : γ} (h : p.Meets R Q g) (hQ : ∀ a g, Q a g → Q' a g) :
    p.Meets R Q' g := by
  induction p generalizing g with
  | done a => exact hQ a g h
  | ask q next ih => exact ⟨h.1, fun a g' ha => ih a (h.2 a g' ha)⟩

/-- One program after another meets a promise if the first one promises that the second one does. -/
theorem meets_bind (p : Program β) (f : β → Program α) (g : γ) :
    (p.bind f).Meets R Q g ↔ p.Meets R (fun b => (f b).Meets R Q) g := by
  induction p generalizing g with
  | done b => rfl
  | ask q next ih => simp only [bind_ask, meets_ask, ih]

/-- A promise about another view of the world is met there if its rules follow from those here. -/
theorem Meets.grow {p : Program α} {g h : γ} (hp : p.Meets R Q g)
    (hmay : ∀ q, R.may g q → R.may h q)
    (hanswers : ∀ q a g', R.answers h q a g' → R.answers g q a g') (hQ : ∀ a, Q a g → Q a h) :
    p.Meets R Q h := by
  cases p with
  | done a => exact hQ a hp
  | ask q next => exact ⟨hmay q hp.1, fun a g' ha => hp.2 a g' (hanswers q a g' ha)⟩

/-- Two promises are met together. -/
theorem Meets.and {p : Program α} {g : γ} (h : p.Meets R Q g) (h' : p.Meets R Q' g) :
    p.Meets R (fun a g => Q a g ∧ Q' a g) g := by
  induction p generalizing g with
  | done a => exact ⟨h, h'⟩
  | ask q next ih => exact ⟨h.1, fun a g' ha => ih a (h.2 a g' ha) (h'.2 a g' ha)⟩

/-- A promise about a view of the world is met in the world, if every answer of the world is one in
the view. -/
theorem Meets.view {δ : Type} {S : Rules δ} {f : δ → γ} {p : Program α} {d : δ}
    (h : p.Meets R Q (f d)) (hmay : ∀ d q, S.may d q)
    (hanswers : ∀ d q a d', S.answers d q a d' → R.answers (f d) q a (f d')) :
    p.Meets S (fun a d => Q a (f d)) d := by
  induction p generalizing d with
  | done a => exact h
  | ask q next ih => exact ⟨hmay d q, fun a d' ha => ih a (h.2 a (f d') (hanswers d q a d' ha))⟩

/-- What every answer leaves holds from the beginning of a program to its end. -/
theorem meets_of_answers {rel : γ → γ → Prop} (hrefl : ∀ g, rel g g)
    (htrans : ∀ {g g' g''}, rel g g' → rel g' g'' → rel g g'') (hmay : ∀ g q, R.may g q)
    (hanswers : ∀ g q a g', R.answers g q a g' → rel g g') (p : Program α) (g : γ) :
    p.Meets R (fun _ g' => rel g g') g := by
  induction p generalizing g with
  | done a => exact hrefl g
  | ask q next ih =>
      refine ⟨hmay g q, fun a g' ha => ?_⟩
      exact (ih a g').mono fun _ _ h => htrans (hanswers g q a g' ha) h

end Program

/-! ## Fallible programs -/

namespace Action

open Program

variable {α β γ : Type} {R : Rules γ} {Q : Except Error α → γ → Prop}

/-- One action after the other, as a program. -/
theorem run_bind_eq (x : Action β) (f : β → Action α) :
    (x >>= f).run = x.run.bind fun o => match o with
      | .ok b => (f b).run
      | .error e => .done (.error e) := by
  refine congrArg x.run.bind (funext fun o => ?_)
  cases o <;> rfl

/-- Rules are kept by one action after another if the first keeps them up to where the second
does. -/
theorem meets_bind (x : Action β) (f : β → Action α) (g : γ) :
    (x >>= f).run.Meets R Q g ↔ x.run.Meets R (fun o g' => match o with
      | .ok b => (f b).run.Meets R Q g'
      | .error e => Q (.error e) g') g := by
  rw [run_bind_eq, Program.meets_bind]
  constructor
  · intro h
    apply h.mono
    rintro (e | b) g' hg'
    · exact hg'
    · exact hg'
  · intro h
    apply h.mono
    rintro (e | b) g' hg'
    · exact hg'
    · exact hg'

@[simp] theorem meets_pure (a : α) (g : γ) : (pure a : Action α).run.Meets R Q g ↔ Q (.ok a) g :=
  Iff.rfl

@[simp] theorem meets_ofExcept (r : Except Error α) (g : γ) :
    (ofExcept r).run.Meets R Q g ↔ Q r g := Iff.rfl

@[simp] theorem meets_call (c : Store.Call) (Q : Except Error c.Answer → γ → Prop) (g : γ) :
    (call c).run.Meets R Q g ↔
      R.may g (.store c) ∧ ∀ a g', R.answers g (.store c) a g' → Q a g' := Iff.rfl

@[simp] theorem meets_freshKey (bits : Nat) (Q : Except Error Key → γ → Prop) (g : γ) :
    (freshKey bits).run.Meets R Q g ↔
      R.may g (.generate bits) ∧ ∀ a g', R.answers g (.generate bits) a g' → Q a g' := Iff.rfl

@[simp] theorem meets_now (Q : Except Error Duration → γ → Prop) (g : γ) :
    now.run.Meets R Q g ↔ R.may g .time ∧ ∀ t g', R.answers g .time t g' → Q (.ok t) g' := Iff.rfl

@[simp] theorem meets_currentKey (Q : Except Error (Option Key) → γ → Prop) (g : γ) :
    currentKey.run.Meets R Q g ↔
      R.may g .current ∧ ∀ k g', R.answers g .current k g' → Q (.ok k) g' := Iff.rfl

@[simp] theorem meets_install (key : Key) (Q : Except Error Unit → γ → Prop) (g : γ) :
    (install key).run.Meets R Q g ↔
      R.may g (.install key) ∧ ∀ u g', R.answers g (.install key) u g' → Q (.ok u) g' := Iff.rfl

end Action

end Keyring.Rotation
