import Keyring.Config.Tree
import Keyring.Proofs.Entries

/-! # Tables of a configuration tree

Tables stay sorted when entries are put in and when layers are merged, so each name has one entry.
What a merged table holds under a name depends on what the two layers hold there and on nothing
else.
-/

namespace Keyring.Config.Tree

open Entries (Sorted)

variable {name n : String} {t lower upper : Tree} {es : List (String × Tree)}

/-! ## Tables -/

/-- Putting an entry in a table is putting it among sorted entries. -/
theorem insert_eq_put : insert name t es = Entries.put name t es := by
  induction es with
  | nil => rfl
  | cons e rest ih => rw [insert, Entries.put, ih]

/-- What was put in is found under its name, and other names hold what they held. -/
theorem lookup_insert :
    lookup n (insert name t es) = if name = n then some t else lookup n es := by
  induction es with
  | nil => rfl
  | cons e rest ih =>
      obtain ⟨m, u⟩ := e
      rw [insert]
      split
      · rfl
      · split
        · next hsame =>
            subst hsame
            rw [lookup, lookup]
            by_cases hn : name = n
            · rw [if_pos hn, if_pos hn]
            · rw [if_neg hn, if_neg hn, if_neg hn]
        · next hne =>
            rw [lookup, lookup, ih]
            by_cases hm : m = n
            · rw [if_pos hm, if_pos hm, if_neg fun hn => hne (hn.trans hm.symm)]
            · rw [if_neg hm, if_neg hm]

/-- What is found under a name is an entry. -/
theorem mem_of_lookup (h : lookup n es = some t) : (n, t) ∈ es := by
  induction es with
  | nil => contradiction
  | cons e rest ih =>
      obtain ⟨m, u⟩ := e
      rw [lookup] at h
      by_cases hm : m = n
      · rw [if_pos hm] at h
        rw [hm, Option.some.inj h]
        exact List.mem_cons_self
      · rw [if_neg hm] at h
        exact List.mem_cons_of_mem _ (ih h)

/-- Nothing is found under a name that no entry bears. -/
theorem lookup_eq_none (h : ∀ e ∈ es, e.1 ≠ n) : lookup n es = none := by
  cases hfound : lookup n es with
  | none => rfl
  | some t => exact absurd rfl (h _ (mem_of_lookup hfound))

/-! ## Trees whose tables are sorted -/

/-- Whether the tree is a table. -/
def isTable : Tree → Bool
  | .table _ => true
  | _ => false

/-- Every table of the tree is sorted; tables in lists are not looked into. -/
inductive Tidy : Tree → Prop
  | table {es : List (String × Tree)} (sorted : Sorted es) (inside : ∀ e ∈ es, Tidy e.2) :
      Tidy (.table es)
  | other {t : Tree} (h : t.isTable = false) : Tidy t

/-- A tidy table is sorted. -/
theorem Tidy.sorted (h : Tidy (.table es)) : Sorted es := by
  cases h with
  | table sorted inside => exact sorted
  | other h => contradiction

/-- What a tidy table holds is tidy. -/
theorem Tidy.inside (h : Tidy (.table es)) : ∀ e ∈ es, Tidy e.2 := by
  cases h with
  | table sorted inside => exact inside
  | other h => contradiction

theorem Tidy.nil : Tidy (.table []) := .table .nil (List.forall_mem_nil _)

theorem Tidy.absent : Tidy .absent := .other rfl

/-- A table with one tidy entry is tidy. -/
theorem Tidy.singleton (h : t.Tidy) : Tidy (.table [(n, t)]) := by
  refine .table (List.pairwise_singleton _ _) ?_
  intro e he
  rw [List.mem_singleton.mp he]
  exact h

/-- A tidy entry can be put in a tidy table. -/
theorem Tidy.insert (hentries : Tidy (.table es)) (ht : t.Tidy) :
    Tidy (.table (insert n t es)) := by
  rw [insert_eq_put]
  refine .table hentries.sorted.put ?_
  intro e he
  rcases Entries.eq_or_mem_of_mem_put he with rfl | he
  · exact ht
  · exact hentries.inside e he

/-- A reader that makes its trees from something else. -/
theorem tidy_of_map {α : Type} {x : Option (α × List Char)} {f : α → Tree} {rest : List Char}
    (h : (x.map fun (a, rest) => (f a, rest)) = some (t, rest))
    (hf : ∀ a rest, x = some (a, rest) → (f a).Tidy) : t.Tidy := by
  obtain ⟨⟨a, rest'⟩, hx, heq⟩ := Option.map_eq_some_iff.mp h
  obtain ⟨rfl, -⟩ := Prod.mk.inj heq
  exact hf a rest' hx

/-! ## Merged tables -/

/-- The entries of a table; other trees have none. -/
def entries : Tree → List (String × Tree)
  | .table es => es
  | _ => []

/-- What a tree holds under a name. -/
def find? (t : Tree) (name : String) : Option Tree := lookup name t.entries

@[simp] theorem entries_table : (Tree.table es).entries = es := rfl

/-- Nothing is found in a tree that is not there. -/
theorem find?_getD (given : Option Tree) :
    (given.getD .absent).find? n = given.bind (·.find? n) := by
  cases given <;> rfl

/-- The entries of a tidy tree are a tidy table. -/
theorem Tidy.entries (h : t.Tidy) : Tidy (.table t.entries) := by
  cases h with
  | table sorted inside => exact .table sorted inside
  | other h =>
      cases t with
      | table es => contradiction
      | _ => exact .nil

/-- What is found in a tidy tree is tidy. -/
theorem Tidy.find? (h : t.Tidy) {u : Tree} (hu : t.find? n = some u) : u.Tidy :=
  h.entries.inside _ (mem_of_lookup hu)

/-- A table that is laid over a tree keeps its entries and those of the tree. -/
theorem merge_table : lower.merge (.table es) = .table (mergeEntries lower.entries es) := by
  cases lower <;> rfl

/-- What is no table replaces what it is laid over. -/
theorem merge_of_isTable (h : upper.isTable = false) : lower.merge upper = upper := by
  cases upper with
  | table es => contradiction
  | _ => rfl

/-- What a merged table holds under a name: the upper layer's tree, laid over the lower layer's
one. -/
theorem lookup_mergeEntries {below above : List (String × Tree)} (h : Sorted above) :
    lookup n (mergeEntries below above) =
      match lookup n above with
      | none => lookup n below
      | some t => some (((lookup n below).getD .absent).merge t) := by
  induction above generalizing below with
  | nil => rfl
  | cons e rest ih =>
      obtain ⟨m, u⟩ := e
      obtain ⟨hhead, hrest⟩ := List.pairwise_cons.mp h
      rw [mergeEntries, ih hrest, lookup_insert, lookup]
      by_cases hm : m = n
      · -- the names that follow are greater, so nothing else is laid over this one
        have hnone : lookup n rest = none := by
          apply lookup_eq_none
          intro e he heq
          have hlt := hhead e he
          rw [hm, heq] at hlt
          exact String.lt_irrefl n hlt
        rw [hnone, if_pos hm, if_pos hm, hm]
      · rw [if_neg hm, if_neg hm]

/-- What a merged tree holds under a name depends on what the two layers hold there. -/
theorem find?_merge_table (h : Sorted es) :
    (lower.merge (.table es)).find? n =
      match lookup n es with
      | none => lower.find? n
      | some t => some (((lower.find? n).getD .absent).merge t) := by
  rw [find?, merge_table]
  exact lookup_mergeEntries h

/-- Merging the entries of two tables gives a tidy table if merging their trees does. -/
theorem Tidy.mergeEntries {below above : List (String × Tree)} (hbelow : Tidy (.table below))
    (habove : ∀ e ∈ above, ∀ lower, Tidy lower → (lower.merge e.2).Tidy) :
    Tidy (.table (mergeEntries below above)) := by
  induction above generalizing below with
  | nil => exact hbelow
  | cons e rest ih =>
      obtain ⟨m, u⟩ := e
      rw [Tree.mergeEntries]
      refine ih (hbelow.insert ?_) fun e he => habove e (List.mem_cons_of_mem _ he)
      apply habove _ List.mem_cons_self
      cases hfound : lookup m below with
      | none => exact .absent
      | some t => exact hbelow.inside _ (mem_of_lookup hfound)

/-- Merging tidy trees gives a tidy tree, by induction on the upper layer. -/
theorem Tidy.merge (hlower : lower.Tidy) (hupper : upper.Tidy) : (lower.merge upper).Tidy := by
  induction hupper generalizing lower with
  | table sorted inside ih =>
      rw [merge_table]
      exact hlower.entries.mergeEntries fun e he _ hlower => ih e he hlower
  | other h =>
      rw [merge_of_isTable h]
      exact .other h

end Keyring.Config.Tree
