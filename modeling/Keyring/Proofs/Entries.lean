import Mathlib.Data.List.Nodup
import Mathlib.Data.String.Basic

/-! # Sorted entries

Entries are kept sorted by name: a new one goes to its place, or into the place of the one that has
its name.
-/

namespace Keyring.Entries

variable {β : Type} {name : String} {v : β} {e : String × β} {es : List (String × β)}

/-- Entries stand in the order of their names, and no name is repeated. -/
def Sorted (es : List (String × β)) : Prop := es.Pairwise (·.1 < ·.1)

/-- Puts an entry to its place. -/
def put (name : String) (v : β) : List (String × β) → List (String × β)
  | [] => [(name, v)]
  | (n, w) :: rest =>
    if name < n then (name, v) :: (n, w) :: rest
    else if name = n then (name, v) :: rest
    else (n, w) :: put name v rest

/-- Sorted entries have different names. -/
theorem Sorted.nodup (h : Sorted es) : (es.map (·.1)).Nodup :=
  List.pairwise_map.mpr (h.imp ne_of_lt)

/-- Nothing but the entry itself is put in. -/
theorem eq_or_mem_of_mem_put (h : e ∈ put name v es) : e = (name, v) ∨ e ∈ es := by
  induction es with
  | nil => exact .inl (List.mem_singleton.mp h)
  | cons k rest ih =>
      rw [put] at h
      split at h
      · exact List.mem_cons.mp h
      · split at h
        · exact (List.mem_cons.mp h).imp_right (List.mem_cons_of_mem k)
        · rcases List.mem_cons.mp h with rfl | h
          · exact .inr List.mem_cons_self
          · exact (ih h).imp_right (List.mem_cons_of_mem k)

/-- Entries stay sorted when one is put in. -/
theorem Sorted.put (h : Sorted es) : Sorted (put name v es) := by
  induction es with
  | nil => exact List.pairwise_singleton _ _
  | cons k rest ih =>
      obtain ⟨hk, hrest⟩ := List.pairwise_cons.mp h
      rw [Entries.put]
      split
      · next hlt =>
          refine List.pairwise_cons.mpr ⟨?_, h⟩
          intro e he
          rcases List.mem_cons.mp he with rfl | he
          · exact hlt
          · exact lt_trans hlt (hk e he)
      · next hnlt =>
          split
          · next heq => exact List.pairwise_cons.mpr ⟨fun e he => heq ▸ hk e he, hrest⟩
          · next hne =>
              -- the new entry goes somewhere behind `k`
              refine List.pairwise_cons.mpr ⟨?_, ih hrest⟩
              intro e he
              rcases eq_or_mem_of_mem_put he with rfl | he
              · exact lt_of_le_of_ne (not_lt.mp hnlt) (Ne.symm hne)
              · exact hk e he

end Keyring.Entries
