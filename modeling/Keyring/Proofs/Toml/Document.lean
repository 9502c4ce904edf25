import Keyring.Proofs.Config.Tree
import Keyring.Toml.Document

/-! # Documents give tidy trees

Every table that a document holds comes out sorted, with each name once: tables that headers and
dotted keys open, and inline tables.
-/

namespace Keyring.Toml

open Config (Tree)

variable {k : String} {t : Tree} {n : Node} {o : Origin} {es es' : Entries} {path : List String}

/-! ## Nodes -/

/-- The values in a node are tidy; arrays of tables are not looked into. -/
inductive Node.Tidy : Node → Prop
  | value {t : Tree} (h : t.Tidy) : Tidy (.value t)
  | table {o : Origin} {es : Entries} (h : ∀ e ∈ es, Tidy e.2) : Tidy (.table o es)
  | tables {items : List Entries} : Tidy (.tables items)

/-- The nodes of the entries are tidy. -/
def TidyEntries (es : Entries) : Prop := ∀ e ∈ es, e.2.Tidy

theorem TidyEntries.nil : TidyEntries [] := List.forall_mem_nil _

/-- Adding tidy entries to a tidy table gives a tidy table. -/
theorem tidy_entriesTree {table : List (String × Tree)} (htable : Tree.Tidy (.table table))
    (h : ∀ e ∈ es, e.2.tree.Tidy) : Tree.Tidy (.table (entriesTree table es)) := by
  induction es generalizing table with
  | nil => exact htable
  | cons e rest ih =>
      rw [entriesTree]
      exact ih (htable.insert (h e List.mem_cons_self)) fun e he => h e (List.mem_cons_of_mem _ he)

/-- A tidy node is a tidy tree. -/
theorem Node.Tidy.tree (h : n.Tidy) : n.tree.Tidy := by
  induction h with
  | value h => exact h
  | table h ih => exact tidy_entriesTree .nil ih
  | tables => exact .other rfl

/-- Tidy entries are a tidy tree. -/
theorem TidyEntries.tree (h : TidyEntries es) : Tree.Tidy (.table (entriesTree [] es)) :=
  tidy_entriesTree .nil fun e he => (h e he).tree

/-- A tidy node can be put under any name. -/
theorem TidyEntries.replace (h : TidyEntries es) (hn : n.Tidy) : TidyEntries (replace k n es) := by
  induction es with
  | nil =>
      intro e he
      rw [List.mem_singleton.mp he]
      exact hn
  | cons head rest ih =>
      have hrest : TidyEntries rest := fun e he => h e (List.mem_cons_of_mem _ he)
      intro e he
      rw [Toml.replace] at he
      split at he
      · rcases List.mem_cons.mp he with rfl | he
        · exact hn
        · exact hrest e he
      · rcases List.mem_cons.mp he with rfl | he
        · exact h _ List.mem_cons_self
        · exact ih hrest e he

/-- What tidy entries hold is tidy. -/
theorem TidyEntries.find? (h : TidyEntries es) (hn : Toml.find? k es = some n) : n.Tidy := by
  rw [Toml.find?, Option.map_eq_some_iff] at hn
  obtain ⟨e, he, rfl⟩ := hn
  exact h e (List.mem_of_find?_eq_some he)

/-- A table among tidy entries has tidy entries. -/
theorem TidyEntries.of_find?_table (h : TidyEntries es) {inner : Entries}
    (hn : Toml.find? k es = some (.table o inner)) : TidyEntries inner := by
  cases h.find? hn with
  | table h => exact h

/-! ## Assignments and declarations -/

/-- A change of entries that leaves them tidy. -/
def KeepsTidy (f : Origin → Entries → Option Entries) : Prop :=
  ∀ ⦃o es es'⦄, f o es = some es' → TidyEntries es → TidyEntries es'

/-- A change that leaves entries tidy does so in a table that a path leads to. -/
theorem KeepsTidy.enter {f : Origin → Entries → Option Entries} (hf : KeepsTidy f) (byDots : Bool)
    (path : List String) : KeepsTidy (enter byDots f path) := by
  -- on the path: an inner table is entered by the shorter path and then put in place of the old one
  induction path with
  | nil => exact hf
  | cons k path ih =>
      intro o es es' h hes
      rw [Toml.enter] at h
      split at h
      · obtain ⟨inner, hinner, heq⟩ := Option.bind_eq_some_iff.mp h
        rw [← Option.some.inj heq]
        exact hes.replace (.table (ih hinner .nil))
      · contradiction
      · split at h
        · contradiction
        · obtain ⟨inner, -, heq⟩ := Option.bind_eq_some_iff.mp h
          rw [← Option.some.inj heq]
          exact hes.replace .tables
      · next hfound =>
          split at h
          · contradiction
          · obtain ⟨inner, hinner, heq⟩ := Option.bind_eq_some_iff.mp h
            rw [← Option.some.inj heq]
            exact hes.replace (.table (ih hinner (hes.of_find?_table hfound)))

/-- A tidy value can be assigned to a key. -/
theorem keepsTidy_assign (byDots : Bool) (ht : t.Tidy) : KeepsTidy (assign byDots k t) := by
  intro o es es' h hes
  rw [assign] at h
  split at h
  · contradiction
  · split at h
    · rw [← Option.some.inj h]
      exact hes.replace (.value ht)
    · contradiction

/-- A tidy value can be assigned to a dotted key. -/
theorem keepsTidy_assignPath (ht : t.Tidy) : KeepsTidy (assignPath path t) := by
  intro o es es' h hes
  rw [assignPath] at h
  split at h
  · contradiction
  · exact (keepsTidy_assign _ ht).enter _ _ h hes

/-- The header of a table leaves entries tidy. -/
theorem keepsTidy_declare : KeepsTidy (declare k) := by
  intro o es es' h hes
  rw [declare] at h
  split at h
  · rw [← Option.some.inj h]
    exact hes.replace (.table TidyEntries.nil)
  · next hfound =>
      rw [← Option.some.inj h]
      exact hes.replace (.table (hes.of_find?_table hfound))
  · contradiction

/-- The header of an item of an array leaves entries tidy. -/
theorem keepsTidy_declareItem : KeepsTidy (declareItem k) := by
  intro o es es' h hes
  rw [declareItem] at h
  split at h
  · rw [← Option.some.inj h]
    exact hes.replace .tables
  · rw [← Option.some.inj h]
    exact hes.replace .tables
  · contradiction

/-! ## Values -/

/-- Everything that a reader gives is tidy. -/
def ReadsTidy (r : Reader Tree) : Prop := ∀ ⦃cs t rest⦄, r cs = some (t, rest) → t.Tidy

/-- A scalar is no table, and so it is tidy. -/
theorem readsTidy_scalar : ReadsTidy scalar := by
  intro cs t rest h
  unfold scalar at h
  split at h
  · exact Tree.tidy_of_map h fun _ _ _ => .other rfl
  · exact Tree.tidy_of_map h fun _ _ _ => .other rfl
  · obtain ⟨rfl, -⟩ := Prod.mk.inj (Option.some.inj h)
    exact .other rfl
  · obtain ⟨rfl, -⟩ := Prod.mk.inj (Option.some.inj h)
    exact .other rfl
  · split at h
    · obtain ⟨rfl, -⟩ := Prod.mk.inj (Option.some.inj h)
      exact .singleton (.other rfl)
    · split at h
      · obtain ⟨rfl, -⟩ := Prod.mk.inj (Option.some.inj h)
        exact .other rfl
      · exact Tree.tidy_of_map h fun _ _ _ => .other rfl

/-- A pair has a tidy value if its reader gives tidy ones. -/
theorem tidy_of_pair {value : Reader Tree} (hvalue : ReadsTidy value) {cs rest : List Char}
    (h : pair value cs = some ((path, t), rest)) : t.Tidy := by
  obtain ⟨⟨names, cs₁⟩, -, h⟩ := Option.bind_eq_some_iff.mp h
  obtain ⟨⟨⟨⟩, cs₂⟩, -, h⟩ := Option.bind_eq_some_iff.mp h
  obtain ⟨⟨v, rest'⟩, hread, heq⟩ := Option.bind_eq_some_iff.mp h
  obtain ⟨⟨-, rfl⟩, -⟩ := Prod.mk.inj (Option.some.inj heq)
  exact hvalue hread

/-- The pairs of an inline table are tidy entries. -/
theorem tidy_of_pairs {value : Reader Tree} (hvalue : ReadsTidy value) {fuel : Nat}
    {cs rest : List Char} (hes : TidyEntries es) (h : pairs value fuel es cs = some (es', rest)) :
    TidyEntries es' := by
  induction fuel generalizing es cs with
  | zero => contradiction
  | succ fuel ih =>
      obtain ⟨⟨⟨path, v⟩, cs'⟩, hpair, h⟩ := Option.bind_eq_some_iff.mp h
      obtain ⟨sofar, hassign, h⟩ := Option.bind_eq_some_iff.mp h
      have hsofar : TidyEntries sofar :=
        keepsTidy_assignPath (tidy_of_pair hvalue hpair) hassign hes
      split at h
      · exact ih hsofar h
      · obtain ⟨rfl, -⟩ := Prod.mk.inj (Option.some.inj h)
        exact hsofar
      · contradiction

/-- Every value is tidy, by induction on the depth it is read within. -/
theorem readsTidy_valueWithin (depth : Nat) : ReadsTidy (valueWithin depth) := by
  induction depth with
  | zero =>
      intro cs t rest h
      unfold valueWithin at h
      split at h
      · contradiction
      · contradiction
      · exact readsTidy_scalar h
  | succ depth ih =>
      intro cs t rest h
      unfold valueWithin at h
      split at h
      · exact Tree.tidy_of_map h fun _ _ _ => .other rfl
      · split at h
        · obtain ⟨rfl, -⟩ := Prod.mk.inj (Option.some.inj h)
          exact .nil
        · exact Tree.tidy_of_map h fun _ _ hpairs => (tidy_of_pairs ih .nil hpairs).tree
      · exact readsTidy_scalar h

/-! ## Lines -/

/-- A header leaves the entries of a document tidy. -/
theorem tidy_of_declareAt {s s' : State} {f : String → Origin → Entries → Option Entries}
    (hf : ∀ k, KeepsTidy (f k)) (hs : TidyEntries s.entries) (h : s.declareAt f path = some s') :
    TidyEntries s'.entries := by
  rw [State.declareAt] at h
  split at h
  · contradiction
  · obtain ⟨es, henter, heq⟩ := Option.bind_eq_some_iff.mp h
    rw [← Option.some.inj heq]
    exact (hf _).enter _ _ henter hs

/-- A line with a key and a tidy value leaves the entries of a document tidy. -/
theorem tidy_of_assign {s s' : State} (ht : t.Tidy) (hs : TidyEntries s.entries)
    (h : s.assign path t = some s') : TidyEntries s'.entries := by
  obtain ⟨es, henter, heq⟩ := Option.bind_eq_some_iff.mp h
  rw [← Option.some.inj heq]
  exact (keepsTidy_assignPath ht).enter _ _ henter hs

/-- One line leaves the document tidy. -/
theorem tidy_of_line {s s' : State} {cs rest : List Char} (hs : TidyEntries s.entries)
    (h : line s cs = some (s', rest)) : TidyEntries s'.entries := by
  rw [line] at h
  split at h
  · obtain ⟨rfl, -⟩ := Prod.mk.inj (Option.some.inj h)
    exact hs
  · obtain ⟨⟨path, cs₁⟩, -, h⟩ := Option.bind_eq_some_iff.mp h
    obtain ⟨⟨⟨⟩, cs₂⟩, -, h⟩ := Option.bind_eq_some_iff.mp h
    obtain ⟨s₁, hdeclare, h⟩ := Option.bind_eq_some_iff.mp h
    obtain ⟨⟨⟨⟩, cs₃⟩, -, heq⟩ := Option.bind_eq_some_iff.mp h
    obtain ⟨rfl, -⟩ := Prod.mk.inj (Option.some.inj heq)
    exact tidy_of_declareAt (fun _ => keepsTidy_declareItem) hs hdeclare
  · obtain ⟨⟨path, cs₁⟩, -, h⟩ := Option.bind_eq_some_iff.mp h
    obtain ⟨s₁, hdeclare, h⟩ := Option.bind_eq_some_iff.mp h
    obtain ⟨⟨⟨⟩, cs₂⟩, -, heq⟩ := Option.bind_eq_some_iff.mp h
    obtain ⟨rfl, -⟩ := Prod.mk.inj (Option.some.inj heq)
    exact tidy_of_declareAt (fun _ => keepsTidy_declare) hs hdeclare
  · split at h
    · obtain ⟨⟨⟨⟩, cs₁⟩, -, heq⟩ := Option.bind_eq_some_iff.mp h
      obtain ⟨rfl, -⟩ := Prod.mk.inj (Option.some.inj heq)
      exact hs
    · obtain ⟨⟨⟨path, v⟩, cs'⟩, hpair, h⟩ := Option.bind_eq_some_iff.mp h
      obtain ⟨s₁, hassign, h⟩ := Option.bind_eq_some_iff.mp h
      obtain ⟨⟨⟨⟩, cs₂⟩, -, heq⟩ := Option.bind_eq_some_iff.mp h
      obtain ⟨rfl, -⟩ := Prod.mk.inj (Option.some.inj heq)
      exact tidy_of_assign (tidy_of_pair (readsTidy_valueWithin maxDepth) hpair) hs hassign

/-- All lines of a document leave its entries tidy. -/
theorem tidy_of_lines {fuel : Nat} {s s' : State} {cs : List Char} (hs : TidyEntries s.entries)
    (h : lines fuel s cs = some s') : TidyEntries s'.entries := by
  induction fuel generalizing s cs with
  | zero =>
      rw [lines] at h
      split at h
      · rw [← Option.some.inj h]
        exact hs
      · contradiction
  | succ fuel ih =>
      unfold lines at h
      split at h
      · rw [← Option.some.inj h]
        exact hs
      · obtain ⟨⟨s₁, rest⟩, hline, h⟩ := Option.bind_eq_some_iff.mp h
        exact ih (tidy_of_line hs hline) h

/-- The tree of a document is tidy. -/
theorem tidy_of_parse? {text : String} (h : parse? text = some t) : t.Tidy := by
  obtain ⟨s, hlines, heq⟩ := Option.bind_eq_some_iff.mp h
  rw [← Option.some.inj heq]
  exact (tidy_of_lines .nil hlines).tree

end Keyring.Toml
