/-! # Computations that succeed

What a computation in `Except` gave when its last step succeeded: each step before it succeeded,
too.
-/

namespace Except

variable {ε ε' α β : Type}

theorem bind_eq_ok_iff {x : Except ε α} {f : α → Except ε β} {b : β} :
    (x >>= f) = .ok b ↔ ∃ a, x = .ok a ∧ f a = .ok b := by
  cases x with
  | error e =>
      constructor
      · intro h
        contradiction
      · rintro ⟨a, h, -⟩
        contradiction
  | ok a =>
      constructor
      · intro h
        exact ⟨a, rfl, h⟩
      · rintro ⟨a', ha, h⟩
        obtain rfl := Except.ok.inj ha
        exact h

/-- A step without a value comes before others. -/
theorem bind_unit_eq_ok_iff {x : Except ε Unit} {y : Except ε β} {b : β} :
    (x >>= fun _ => y) = .ok b ↔ x = .ok () ∧ y = .ok b := by
  rw [bind_eq_ok_iff]
  constructor
  · rintro ⟨⟨⟩, hx, hy⟩
    exact ⟨hx, hy⟩
  · rintro ⟨hx, hy⟩
    exact ⟨(), hx, hy⟩

theorem ok_bind (a : α) (f : α → Except ε β) : ((.ok a : Except ε α) >>= f) = f a := rfl

theorem map_eq_error_iff {x : Except ε α} {f : α → β} {e : ε} :
    x.map f = .error e ↔ x = .error e := by
  cases x with
  | error e' =>
      constructor
      · intro h
        rw [Except.error.inj h]
      · intro h
        rw [Except.error.inj h]
        rfl
  | ok a => exact iff_of_false (fun h => by contradiction) fun h => by contradiction

theorem mapError_eq_ok_iff {x : Except ε α} {f : ε → ε'} {a : α} :
    x.mapError f = .ok a ↔ x = .ok a := by
  cases x with
  | error e =>
      constructor
      · intro h
        contradiction
      · intro h
        contradiction
  | ok a' =>
      constructor
      · intro h
        rw [Except.ok.inj h]
      · intro h
        rw [h]
        rfl

/-- When all failures become errors of one sort, a computation without a value fails with such an
error. -/
theorem exists_mapError_eq_error_iff {x : Except ε α} {f : ε → ε'} {sort : ε' → Prop}
    (hsort : ∀ e, sort (f e)) : (∃ e, x.mapError f = .error e ∧ sort e) ↔ ∀ a, ¬ x = .ok a := by
  cases x with
  | error e =>
      constructor
      · rintro - a h
        contradiction
      · intro _
        exact ⟨f e, rfl, hsort e⟩
  | ok a =>
      constructor
      · rintro ⟨e, h, -⟩
        contradiction
      · intro h
        exact absurd rfl (h a)

/-- A check that was passed. -/
theorem check_eq_ok_iff {refused : Prop} [Decidable refused] {e : ε} {k : PUnit → Except ε β}
    {x : Except ε β} {b : β} :
    (if refused then throw e >>= k else x) = .ok b ↔ ¬ refused ∧ x = .ok b := by
  by_cases hrefused : refused
  · rw [if_pos hrefused]
    constructor
    · intro h
      contradiction
    · rintro ⟨hpassed, -⟩
      exact absurd hrefused hpassed
  · rw [if_neg hrefused]
    exact (and_iff_right hrefused).symm

end Except
