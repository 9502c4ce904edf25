/-! # Runs

Systems that many parties act in are given by their moves. What holds at the start and is kept by
every move holds in every state that a run comes to.
-/

namespace Keyring

variable {σ μ : Type} {move : σ → μ → Option σ} {ok : σ → μ → σ → Prop} {s₀ s : σ}

/-- What a system can come to from a state by moves that are allowed. -/
inductive Reaches (move : σ → μ → Option σ) (ok : σ → μ → σ → Prop) (s₀ : σ) : σ → Prop
  | refl : Reaches move ok s₀ s₀
  | tail {s s' : σ} (m : μ) (h : Reaches move ok s₀ s) (hm : move s m = some s') (hok : ok s m s') :
    Reaches move ok s₀ s'

/-- What every allowed move keeps holds throughout a run. -/
theorem Reaches.invariant {P : σ → Prop} (h : Reaches move ok s₀ s) (h₀ : P s₀)
    (hstep : ∀ s m s', P s → move s m = some s' → ok s m s' → P s') : P s := by
  induction h with
  | refl => exact h₀
  | tail m h hm hok ih => exact hstep _ m _ ih hm hok

/-- Makes moves in turn, if each can be made and is allowed. -/
def play (move : σ → μ → Option σ) (ok : σ → μ → σ → Prop) [∀ s m s', Decidable (ok s m s')] :
    List μ → σ → Option σ
  | [], s => some s
  | m :: ms, s =>
    match move s m with
    | some s' => if ok s m s' then play move ok ms s' else none
    | none => none

theorem play_cons_eq_some_iff [∀ s m s', Decidable (ok s m s')] {m : μ} {ms : List μ} {s' : σ} :
    play move ok (m :: ms) s = some s' ↔
      ∃ s₁, move s m = some s₁ ∧ ok s m s₁ ∧ play move ok ms s₁ = some s' := by
  rw [play]
  cases move s m with
  | none => simp
  | some s₁ => by_cases hok : ok s m s₁ <;> simp [hok]

/-- What was played can be reached. -/
theorem Reaches.play [∀ s m s', Decidable (ok s m s')] {ms : List μ} {s' : σ}
    (h : Reaches move ok s₀ s) (hplay : play move ok ms s = some s') : Reaches move ok s₀ s' := by
  induction ms generalizing s with
  | nil =>
      obtain rfl := Option.some.inj hplay
      exact h
  | cons m ms ih =>
      obtain ⟨s₁, hm, hok, hplay⟩ := play_cons_eq_some_iff.mp hplay
      exact ih (h.tail m hm hok) hplay

end Keyring
