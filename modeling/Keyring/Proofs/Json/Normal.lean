import Keyring.Proofs.Entries
import Keyring.Proofs.Json.RoundTrip

/-! # The normal form of JSON

Normalizing sorts the members of every object by name and keeps the last of repeated ones. It
changes nothing that is sorted already, so a value has one normal form, and neither nests deeper nor
holds other numbers than the value.
-/

namespace Keyring.Json

/-- Members stand in the order of their names, and no name is repeated. -/
def Sorted (members : List (String × Json)) : Prop := members.Pairwise fun a b => a.1 < b.1

variable {m : String × Json} {members sorted : List (String × Json)} {name : String} {v : Json}

/-- The items of an array are brought in order one by one. -/
theorem normalizeItems_eq_map (items : List Json) : normalizeItems items = items.map normalize := by
  induction items with
  | nil => rfl
  | cons v rest ih => rw [normalizeItems, ih, List.map_cons]

/-! ## Inserting a member -/

/-- Putting a member in an object is putting it among sorted entries. -/
theorem insertMember_eq_put : insertMember name v members = Entries.put name v members := by
  induction members with
  | nil => rfl
  | cons k rest ih => rw [insertMember, Entries.put, ih]

/-- Nothing but the member itself is put in. -/
theorem mem_insertMember (h : m ∈ insertMember name v members) : m = (name, v) ∨ m ∈ members := by
  rw [insertMember_eq_put] at h
  exact Entries.eq_or_mem_of_mem_put h

/-- Members stay sorted when one is put in. -/
theorem sorted_insertMember (h : Sorted members) : Sorted (insertMember name v members) := by
  rw [insertMember_eq_put]
  exact Entries.Sorted.put h

/-- A member with the greatest name is put last. -/
theorem insertMember_of_lt (h : ∀ m ∈ members, m.1 < name) :
    insertMember name v members = members ++ [(name, v)] := by
  induction members with
  | nil => rfl
  | cons k rest ih =>
      have hk := h k List.mem_cons_self
      rw [insertMember, if_neg (lt_asymm hk), if_neg (ne_of_gt hk),
        ih fun m hm => h m (List.mem_cons_of_mem k hm), List.cons_append]

/-! ## Normalizing members -/

/-- Members that are brought in order are sorted. -/
theorem sorted_normalizeMembers (h : Sorted sorted) (members : List (String × Json)) :
    Sorted (normalizeMembers sorted members) := by
  induction members generalizing sorted with
  | nil => exact h
  | cons m rest ih => exact ih (sorted_insertMember h)

/-- Every member in order comes from one of the given. -/
theorem mem_normalizeMembers (h : m ∈ normalizeMembers sorted members) :
    m ∈ sorted ∨ ∃ k ∈ members, m = (k.1, k.2.normalize) := by
  induction members generalizing sorted with
  | nil => exact .inl h
  | cons k rest ih =>
      rcases ih h with hsorted | ⟨k', hk', rfl⟩
      · rcases mem_insertMember hsorted with rfl | hsorted
        · exact .inr ⟨k, List.mem_cons_self, rfl⟩
        · exact .inl hsorted
      · exact .inr ⟨k', List.mem_cons_of_mem k hk', rfl⟩

/-- Members that are sorted and normalized are appended as they are. -/
theorem normalizeMembers_of_sorted (h : Sorted (sorted ++ members))
    (hv : ∀ m ∈ members, m.2.normalize = m.2) :
    normalizeMembers sorted members = sorted ++ members := by
  induction members generalizing sorted with
  | nil => exact (List.append_nil sorted).symm
  | cons m rest ih =>
      have hlt : ∀ k ∈ sorted, k.1 < m.1 := by
        intro k hk
        exact (List.pairwise_append.mp h).2.2 k hk m List.mem_cons_self
      rw [List.append_cons] at h ⊢
      rw [normalizeMembers, hv m List.mem_cons_self, insertMember_of_lt hlt]
      exact ih h fun k hk => hv k (List.mem_cons_of_mem m hk)

/-- Members stay, whatever is added. -/
theorem normalizeMembers_ne_nil (h : sorted ≠ []) (members : List (String × Json)) :
    normalizeMembers sorted members ≠ [] := by
  have hinsert :
      ∀ (name : String) (v : Json) (ms : List (String × Json)), insertMember name v ms ≠ [] := by
    intro name v ms
    cases ms with
    | nil => exact List.cons_ne_nil _ _
    | cons m rest =>
        rw [insertMember]
        repeat' split
        all_goals exact List.cons_ne_nil _ _
  induction members generalizing sorted with
  | nil => exact h
  | cons m rest ih => exact ih (hinsert m.1 m.2.normalize sorted)

/-! ## Normal forms -/

/-- A value that is not nested is in order. -/
theorem normalize_of_depth (h : v.depth = 0) : v.normalize = v := by
  cases v with
  | arr items => rw [depth] at h; omega
  | obj members => rw [depth] at h; omega
  | null | bool | int | float | str => rfl

/-- A normal form is its own normal form. -/
theorem normalize_normalize (v : Json) : v.normalize.normalize = v.normalize := by
  induction v using induct with
  | scalar v hv => rw [normalize_of_depth hv, normalize_of_depth hv]
  | arr items ih =>
      simp only [normalize, normalizeItems_eq_map, List.map_map]
      exact congrArg Json.arr (List.map_congr_left ih)
  | obj members ih =>
      have hsorted := sorted_normalizeMembers (List.Pairwise.nil : Sorted []) members
      have hvalues : ∀ m ∈ normalizeMembers [] members, m.2.normalize = m.2 := by
        intro m hm
        rcases mem_normalizeMembers hm with hnil | ⟨k, hk, rfl⟩
        · contradiction
        · exact ih k hk
      rw [normalize, normalize, normalizeMembers_of_sorted hsorted hvalues, List.nil_append]

/-- A normal form is an array or an object exactly if the value is. -/
theorem depth_normalize_eq_zero : v.normalize.depth = 0 ↔ v.depth = 0 := by
  cases v with
  | arr items => simp [normalize, depth]
  | obj members => simp [normalize, depth]
  | null | bool | int | float | str => rfl

/-- A value of integers keeps them. -/
theorem isIntegral_normalize (h : v.isIntegral) : v.normalize.isIntegral := by
  induction v using induct with
  | scalar v hv => rwa [normalize_of_depth hv]
  | arr items ih =>
      rw [normalize, normalizeItems_eq_map, isIntegral_arr]
      intro w hw
      obtain ⟨v, hv, rfl⟩ := List.mem_map.mp hw
      exact ih v hv (isIntegral_arr.mp h v hv)
  | obj members ih =>
      rw [normalize, isIntegral_obj]
      intro m hm
      rcases mem_normalizeMembers hm with hnil | ⟨k, hk, rfl⟩
      · contradiction
      · exact ih k hk (isIntegral_obj.mp h k hk)

end Keyring.Json
