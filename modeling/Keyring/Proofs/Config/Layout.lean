import Keyring.Config.Extract
import Keyring.Proofs.Config.Tree
import Keyring.Proofs.Except

/-! # What a record is read as

The fields of a record do not meet: each is read and set by itself. So a record can be read from a
table exactly if each field that the table names can be read, and then each field is what its entry
says, or stays as it was. An array is read as the table of the same trees under the names of the
fields.
-/

namespace Keyring.Config

open Reading

/-- The fields of a record: how each is named, read and set. -/
structure Layout (α : Type) where
  Index : Type
  Value : Index → Type
  name : Index → String
  reading (i : Index) : Reading (Value i)
  get (i : Index) : α → Value i
  put (i : Index) : Value i → α → α
  /-- The fields in their order in an array. -/
  order : List Index
  default : α
  mem_order : ∀ i, i ∈ order := by rintro ⟨⟩ <;> simp
  nodup : (order.map name).Nodup := by decide
  get_put : ∀ i v a, get i (put i v a) = v := by rintro ⟨⟩ v a <;> rfl
  get_put_of_ne : ∀ i j, i ≠ j → ∀ v a, get i (put j v a) = get i a := by
    rintro ⟨⟩ ⟨⟩ h v a <;> first | rfl | contradiction
  /-- A record is its fields. -/
  ext {a b : α} (h : ∀ i, get i a = get i b) : a = b

namespace Layout

variable {α : Type} {L : Layout α} {i j : L.Index} {a b : α} {t : Tree} {es : List (String × Tree)}

/-- One field of the record. -/
def field (L : Layout α) (i : L.Index) : Reading.Field α :=
  Reading.field (L.name i) (L.reading i) (L.put i)

/-- The fields of the record in their order. -/
def fields (L : Layout α) : List (Reading.Field α) := L.order.map L.field

/-- The reading of the record. -/
def read (L : Layout α) : Reading α := record false L.fields L.default

/-- Fields have different names. -/
theorem name_injective : Function.Injective L.name := by
  intro i j h
  exact List.inj_on_of_nodup_map L.nodup (L.mem_order i) (L.mem_order j) h

/-- A field is found under its name. -/
theorem find?_fields : L.fields.find? (·.name = L.name i) = some (L.field i) := by
  cases hfound : L.fields.find? (·.name = L.name i) with
  | none =>
      have hno := List.find?_eq_none.mp hfound _ (List.mem_map_of_mem (L.mem_order i))
      exact absurd (decide_eq_true rfl) hno
  | some f =>
      obtain ⟨j, -, rfl⟩ := List.mem_map.mp (List.mem_of_find?_eq_some hfound)
      have hname : L.name j = L.name i := by
        have hsome := List.find?_some hfound
        exact of_decide_eq_true hsome
      rw [L.name_injective hname]

/-- No field is found under another name. -/
theorem find?_fields_eq_none {n : String} (h : ∀ i, L.name i ≠ n) :
    L.fields.find? (·.name = n) = none := by
  apply List.find?_eq_none.mpr
  intro f hf hname
  obtain ⟨i, -, rfl⟩ := List.mem_map.mp hf
  exact h i (of_decide_eq_true hname)

/-! ## One field after the other -/

/-- Field `i` of `b` is what the given tree says; without one it is that of `a`. -/
def Sets (L : Layout α) (i : L.Index) (given : Option Tree) (a b : α) : Prop :=
  match given with
  | none => L.get i b = L.get i a
  | some t => L.reading i t = .ok (L.get i b)

/-- A step that sets a field, and the rest after it. -/
theorem set_bind_eq_ok_iff {step : String} {rest : α → Except Misfit α} :
    (do rest (← ((L.field i).set t a).mapError (Misfit.under step))) = .ok b ↔
      ∃ v, L.reading i t = .ok v ∧ rest (L.put i v a) = .ok b := by
  have hset : (L.field i).set t a = (L.reading i t).map (L.put i · a) := rfl
  rw [Except.bind_eq_ok_iff, hset]
  constructor
  · rintro ⟨a', hput, hrest⟩
    rw [Except.mapError_eq_ok_iff] at hput
    cases hread : L.reading i t with
    | error m =>
        rw [hread] at hput
        contradiction
    | ok v =>
        rw [hread] at hput
        rw [← Except.ok.inj hput] at hrest
        exact ⟨v, rfl, hrest⟩
  · rintro ⟨v, hread, hrest⟩
    refine ⟨L.put i v a, ?_, hrest⟩
    rw [Except.mapError_eq_ok_iff, hread]
    rfl

/-- A field that is set first keeps its value if nothing else is given for it. -/
theorem exists_sets_put_iff {given given' : L.Index → Option Tree} (hold : given i = none)
    (hnew : given' i = some t) (hother : ∀ j, j ≠ i → given' j = given j) :
    (∃ v, L.reading i t = .ok v ∧ ∀ j, L.Sets j (given j) (L.put i v a) b) ↔
      ∀ j, L.Sets j (given' j) a b := by
  have hkept (v : L.Value i) {j : L.Index} (hne : j ≠ i) :
      L.Sets j (given j) (L.put i v a) b ↔ L.Sets j (given' j) a b := by
    rw [hother j hne]
    cases given j with
    | none => rw [Sets, Sets, L.get_put_of_ne j i hne]
    | some u => exact Iff.rfl
  constructor
  · rintro ⟨v, hread, hsets⟩ j
    by_cases hj : j = i
    · subst hj
      have hget := hsets j
      rw [hold, Sets, L.get_put] at hget
      rw [hnew, Sets, hread, hget]
    · exact (hkept v hj).mp (hsets j)
  · intro hsets
    have hread := hsets i
    rw [hnew] at hread
    refine ⟨L.get i b, hread, fun j => ?_⟩
    by_cases hj : j = i
    · subst hj
      rw [hold, Sets, L.get_put]
    · exact (hkept _ hj).mpr (hsets j)

/-! ## Tables and arrays -/

/-- Entries set a record exactly if each field is set by what stands under its name, if anything
does. -/
theorem setEntries_eq_ok_iff (h : (es.map (·.1)).Nodup) :
    setEntries L.fields es a = .ok b ↔ ∀ i, L.Sets i (Tree.lookup (L.name i) es) a b := by
  induction es generalizing a with
  | nil =>
      constructor
      · intro heq i
        rw [Except.ok.inj heq]
        rfl
      · intro hsets
        exact congrArg Except.ok (L.ext fun i => (hsets i).symm)
  | cons e rest ih =>
      obtain ⟨n, t⟩ := e
      obtain ⟨hn, hrest⟩ := List.nodup_cons.mp h
      by_cases hfield : ∃ i, L.name i = n
      · -- the rest has no entry of this name, so the field is not set again
        obtain ⟨i, rfl⟩ := hfield
        rw [setEntries, find?_fields]
        refine set_bind_eq_ok_iff.trans ?_
        simp only [ih hrest]
        apply exists_sets_put_iff
        · apply Tree.lookup_eq_none
          intro e he heq
          exact hn (List.mem_map.mpr ⟨e, he, heq⟩)
        · exact if_pos rfl
        · intro j hj
          exact if_neg fun heq => hj (L.name_injective heq.symm)
      · have hunknown (i : L.Index) : L.name i ≠ n := fun heq => hfield ⟨i, heq⟩
        rw [setEntries, find?_fields_eq_none hunknown]
        refine (ih hrest).trans (forall_congr' fun i => ?_)
        rw [Tree.lookup, if_neg (hunknown i).symm]

/-- The fields of an array are those of a table. -/
theorem setItems_eq_ok_iff {place : Nat} {order : List L.Index} {items : List Tree} :
    setItems false place (order.map L.field) items a = .ok b ↔
      setEntries L.fields ((order.map L.name).zip items) a = .ok b := by
  induction order generalizing place items a with
  | nil => cases items <;> rfl
  | cons i order ih =>
      cases items with
      | nil => rfl
      | cons t items =>
          rw [List.map_cons, List.map_cons, List.zip_cons_cons, setItems, setEntries, find?_fields]
          refine set_bind_eq_ok_iff.trans (Iff.trans ?_ set_bind_eq_ok_iff.symm)
          simp only [ih]

/-- Names that are paired with items are some of the names, in their order. -/
theorem map_fst_zip_sublist (names : List String) (items : List Tree) :
    ((names.zip items).map (·.1)).Sublist names := by
  induction names generalizing items with
  | nil => exact .slnil
  | cons n names ih =>
      cases items with
      | nil => exact List.nil_sublist _
      | cons t items => exact (ih items).cons_cons n

/-- The entries that a record is read from. -/
def entries? (L : Layout α) : Tree → Option (List (String × Tree))
  | .table es => some es
  | .list items => some ((L.order.map L.name).zip items)
  | _ => none

/-- A record can be read exactly if each field that is given can be read, and then it has what was
read. -/
theorem read_eq_ok_iff (h : t.Tidy) :
    L.read t = .ok a ↔
      ∃ es, L.entries? t = some es ∧ ∀ i, L.Sets i (Tree.lookup (L.name i) es) L.default a := by
  cases t with
  | table es =>
      refine (setEntries_eq_ok_iff h.sorted.nodup).trans ?_
      simp [entries?]
  | list items =>
      have hnodup : (((L.order.map L.name).zip items).map (·.1)).Nodup :=
        L.nodup.sublist (map_fst_zip_sublist _ _)
      refine (setItems_eq_ok_iff.trans (setEntries_eq_ok_iff hnodup)).trans ?_
      simp [entries?]
  | _ =>
      constructor
      · intro hread
        contradiction
      · rintro ⟨es, hes, -⟩
        contradiction

end Layout

end Keyring.Config
