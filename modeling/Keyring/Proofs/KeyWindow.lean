import Keyring.KeyWindow
import Mathlib.Data.List.Induction

/-! # How windows change

A rotation settles on a key and the window accepts it: the key is installed, unless it is the
current one already. What was current before stays in the window, whatever is accepted.
-/

namespace Keyring

namespace Key

/-- Keys are taken to be the same by their names. -/
theorem same_iff {a b : Key} : a.same b ↔ a.id = b.id := by
  rw [same, beq_iff_eq]

end Key

namespace KeyWindow

variable {w : KeyWindow} {key : Key}

/-- Installs a key, unless it is the current one already. -/
def accept (w : KeyWindow) (key : Key) : KeyWindow :=
  if w.current?.any (·.same key) then w else w.rotate key

/-- A verifier finds a key exactly if a key of its name is in the window. -/
theorem isSome_find? (w : KeyWindow) (kid : String) :
    (w.find? kid).isSome ↔ ∃ k ∈ w.toList, k.id = kid := by
  rw [find?, List.find?_isSome]
  simp only [decide_eq_true_eq]

/-- The current key is in the window. -/
theorem mem_of_current? (h : w.current? = some key) : key ∈ w.toList := by
  rw [current?_eq_getLast?] at h
  exact List.mem_of_getLast? h

/-- The current key after a key is accepted has the name of that key. -/
theorem current?_accept (w : KeyWindow) (key : Key) :
    ∃ c, (w.accept key).current? = some c ∧ c.same key := by
  unfold accept
  split
  · next h => exact Option.any_eq_true _ _ |>.mp h
  · exact ⟨key, current?_rotate w key, Key.same_iff.mpr rfl⟩

/-- Once a key is accepted, a verifier finds it and the key that was current before, and nothing
else; but if it was current already, he finds what he found before. -/
theorem isSome_find?_accept (w : KeyWindow) (key : Key) (kid : String) :
    ((w.accept key).find? kid).isSome ↔ w.current?.any (·.id = kid) ∨ key.id = kid ∨
      (w.current?.any (·.same key) ∧ (w.find? kid).isSome) := by
  unfold accept
  split
  · next h =>
      obtain ⟨c, hc, hsame⟩ := Option.any_eq_true _ _ |>.mp h
      rw [Key.same_iff] at hsame
      -- The window is as it was, and its current key has the name of the accepted one.
      constructor
      · exact fun hfind => .inr (.inr ⟨h, hfind⟩)
      · rintro (hid | hid | ⟨-, hfind⟩)
        · rw [hc, Option.any_some, decide_eq_true_eq] at hid
          exact (isSome_find? w kid).mpr ⟨c, mem_of_current? hc, hid⟩
        · exact (isSome_find? w kid).mpr ⟨c, mem_of_current? hc, hsame.trans hid⟩
        · exact hfind
  · next h =>
      -- The window is now what was current before, if anything was, and the accepted key.
      rw [isSome_find?, toList_rotate]
      cases hc : w.current? with
      | none => simp
      | some c =>
          rw [hc] at h
          simp [h]

/-! ## Rotations -/

/-- What a rotation makes of a window: its key is accepted if it came out well. -/
def settle (w : KeyWindow) : Except Error Key → KeyWindow
  | .ok key => w.accept key
  | .error _ => w

/-- A window in use stays in use, whatever comes out of rotations. -/
theorem settle_ne_empty (h : w ≠ empty) (outcome : Except Error Key) :
    w.settle outcome ≠ empty := by
  cases outcome with
  | error e => exact h
  | ok key =>
      obtain ⟨c, hc, -⟩ := current?_accept w key
      intro hempty
      rw [settle] at hempty
      rw [hempty] at hc
      contradiction

/-- A window that holds a key never becomes empty. -/
theorem foldl_settle_ne_empty (h : w ≠ empty) (outcomes : List (Except Error Key)) :
    outcomes.foldl settle w ≠ empty := by
  induction outcomes generalizing w with
  | nil => exact h
  | cons outcome outcomes ih => exact ih (settle_ne_empty h outcome)

/-- A window in use holds one or two keys, of which the last is the current one. -/
theorem size_and_current? (h : w ≠ empty) :
    (w.size = 1 ∨ w.size = 2) ∧ ∃ key, w.current? = some key ∧ w.toList.getLast? = some key := by
  cases w with
  | empty => exact absurd rfl h
  | one current => exact ⟨.inl rfl, current, rfl, rfl⟩
  | two previous current => exact ⟨.inr rfl, current, rfl, rfl⟩

/-! ## Keys installed in turn -/

/-- The window after keys were installed, the first of them first. -/
def after (keys : List Key) : KeyWindow := keys.foldl rotate .empty

/-- The last key is rotated in last. -/
theorem after_append_singleton (keys : List Key) (key : Key) :
    after (keys ++ [key]) = (after keys).rotate key := by
  rw [after, List.foldl_append]
  rfl

/-- The current key is the last that was rotated in. -/
@[simp] theorem current?_after (keys : List Key) : (after keys).current? = keys.getLast? := by
  induction keys using List.reverseRecOn with
  | nil => rfl
  | append_singleton keys key ih =>
      rw [after_append_singleton, current?_rotate, List.getLast?_concat]

/-- The last two keys are in the window. -/
@[simp] theorem toList_after (keys : List Key) :
    (after keys).toList = keys.drop (keys.length - 2) := by
  induction keys using List.reverseRecOn with
  | nil => rfl
  | append_singleton keys key ih =>
      rw [after_append_singleton, toList_rotate, current?_after, List.length_append,
        List.length_singleton]
      rcases List.eq_nil_or_concat keys with rfl | ⟨front, last, rfl⟩
      · rfl
      · have hlength : front.length + 1 + 1 - 2 = front.length := by omega
        rw [List.concat_eq_append, List.getLast?_concat, List.length_append, List.length_singleton,
          hlength, List.append_assoc, List.drop_left]
        rfl

/-- A verifier finds each key under its name, if no other key of the window has it. -/
theorem find?_of_mem (hids : w.toList.Pairwise fun a b => a.id ≠ b.id) (hmem : key ∈ w.toList) :
    w.find? key.id = some key := by
  cases w with
  | empty => contradiction
  | one current =>
      obtain rfl := List.mem_singleton.mp hmem
      rw [find?, toList, List.find?_cons, decide_eq_true rfl]
  | two previous current =>
      have hne := List.rel_of_pairwise_cons hids (List.mem_singleton.mpr rfl)
      rw [find?, toList, List.find?_cons]
      rcases List.mem_cons.mp hmem with rfl | hmem
      · rw [decide_eq_true rfl]
      · obtain rfl := List.mem_singleton.mp hmem
        rw [decide_eq_false hne, List.find?_cons, decide_eq_true rfl]

end KeyWindow

end Keyring
