import Keyring.Config.Environment
import Keyring.Proofs.Config.Tree
import Mathlib.Data.List.Induction

/-! # What the environment says of a field

Variables are laid over one another in their order, so a path that no other path leads to or through
holds the value of the last variable that names it. A section is there exactly if some variable
leads into it.
-/

namespace Keyring.Config.Environment

open Json (Reader)

/-! ## Values are tidy -/

/-- Putting tidy entries in a tidy table one after the other leaves it tidy. -/
theorem tidy_foldl_insert {entries table : List (String × Tree)} (htable : Tree.Tidy (.table table))
    (h : ∀ e ∈ entries, e.2.Tidy) :
    Tree.Tidy (.table (entries.foldl (fun t e => Tree.insert e.1 e.2 t) table)) := by
  induction entries generalizing table with
  | nil => exact htable
  | cons e rest ih =>
      exact ih (htable.insert (h e List.mem_cons_self)) fun e he => h e (List.mem_cons_of_mem _ he)

/-- A table of tidy entries is tidy. -/
theorem tidy_tableOf {entries : List (String × Tree)} (h : ∀ e ∈ entries, e.2.Tidy) :
    (tableOf entries).Tidy :=
  tidy_foldl_insert .nil h

/-- Whatever holds of each item that is read holds of all of them. -/
theorem forall_of_separated {α : Type} {item : Reader α} {good : α → Prop}
    (hitem : ∀ cs a rest, item cs = some (a, rest) → good a) {close : Char} {fuel : Nat}
    {cs rest : List Char} {as : List α} (h : separated item close fuel cs = some (as, rest)) :
    ∀ a ∈ as, good a := by
  induction fuel generalizing cs as with
  | zero => contradiction
  | succ fuel ih =>
      rw [separated] at h
      split at h
      · obtain ⟨rfl, -⟩ := Prod.mk.inj (Option.some.inj h)
        exact List.forall_mem_nil _
      · obtain ⟨⟨a, cs₁⟩, hread, h⟩ := Option.bind_eq_some_iff.mp h
        have hgood := hitem _ _ _ hread
        dsimp only at h
        split at h
        · obtain ⟨⟨as', cs₂⟩, hmore, heq⟩ := Option.bind_eq_some_iff.mp h
          obtain ⟨rfl, rfl⟩ := Prod.mk.inj (Option.some.inj heq)
          exact List.forall_mem_cons.mpr ⟨hgood, ih hmore⟩
        · obtain ⟨⟨⟨⟩, cs₂⟩, -, heq⟩ := Option.bind_eq_some_iff.mp h
          obtain ⟨rfl, -⟩ := Prod.mk.inj (Option.some.inj heq)
          exact List.forall_mem_singleton.mpr hgood

/-- An entry has a tidy value if its reader gives tidy ones. -/
theorem tidy_of_entry {value : Reader Tree}
    (hvalue : ∀ cs t rest, value cs = some (t, rest) → t.Tidy) {cs rest : List Char}
    {e : String × Tree} (h : entry value cs = some (e, rest)) : e.2.Tidy := by
  obtain ⟨⟨n, cs₁⟩, -, h⟩ := Option.bind_eq_some_iff.mp h
  obtain ⟨⟨⟨⟩, cs₂⟩, -, h⟩ := Option.bind_eq_some_iff.mp h
  obtain ⟨⟨v, cs₃⟩, hread, heq⟩ := Option.bind_eq_some_iff.mp h
  obtain ⟨rfl, -⟩ := Prod.mk.inj (Option.some.inj heq)
  exact hvalue _ _ _ hread

/-- A plain value is no table, and so it is tidy. -/
theorem tidy_plain {cs : List Char} : (plain cs).Tidy := by
  rw [plain]
  split
  · exact .other rfl
  · split
    · exact .other rfl
    · exact .other rfl

/-- A reader that passes over what follows a value gives the value. -/
theorem exists_of_skipSpace {x : Option (Tree × List Char)} {t : Tree} {rest : List Char}
    (h : (do let (v, rest) ← x; return (v, skipSpace rest)) = some (t, rest)) :
    ∃ rest', x = some (t, rest') := by
  obtain ⟨⟨v, rest'⟩, rfl, heq⟩ := Option.bind_eq_some_iff.mp h
  obtain ⟨rfl, -⟩ := Prod.mk.inj (Option.some.inj heq)
  exact ⟨rest', rfl⟩

/-- Every value is tidy, by induction on the fuel it is read with. -/
theorem tidy_of_value {fuel : Nat} {cs rest : List Char} {t : Tree}
    (h : value fuel cs = some (t, rest)) : t.Tidy := by
  induction fuel generalizing cs t rest with
  | zero => contradiction
  | succ fuel ih =>
      rw [value] at h
      split at h
      all_goals obtain ⟨rest', hread⟩ := exists_of_skipSpace h
      · obtain ⟨rfl, -⟩ := Prod.mk.inj (Option.some.inj hread)
        exact .other rfl
      · obtain ⟨rfl, -⟩ := Prod.mk.inj (Option.some.inj hread)
        exact .other rfl
      · refine Tree.tidy_of_map hread fun es _ hentries => tidy_tableOf ?_
        exact forall_of_separated (fun _ _ _ => tidy_of_entry fun _ _ _ => ih) hentries
      · exact Tree.tidy_of_map hread fun _ _ _ => .other rfl
      · exact Tree.tidy_of_map hread fun _ _ _ => .other rfl
      · obtain ⟨rfl, -⟩ := Prod.mk.inj (Option.some.inj hread)
        exact .other rfl
      · contradiction
      · obtain ⟨rfl, -⟩ := Prod.mk.inj (Option.some.inj hread)
        exact tidy_plain

/-- What a variable says is tidy. -/
theorem tidy_parse (text : String) : (parse text).Tidy := by
  rw [parse]
  split
  · next v hread => exact tidy_of_value hread
  · exact .other rfl

/-! ## Paths -/

variable {start n k : String} {environment : List (String × String)} {v : String × String}
  {path : List String} {t lower : Tree}

/-- Every text has a first piece. -/
theorem splitAtChar_ne_nil (sep : Char) (cs : List Char) : Text.splitAtChar sep cs ≠ [] := by
  cases cs with
  | nil => exact List.cons_ne_nil _ _
  | cons c rest =>
      rw [Text.splitAtChar]
      split
      · exact List.cons_ne_nil _ _
      · split
        · exact List.cons_ne_nil _ _
        · exact List.cons_ne_nil _ _

/-- A path has a first name. -/
theorem exists_of_path? {name : String} (h : path? start name = some path) :
    ∃ n rest, path = n :: rest := by
  obtain ⟨rest, -, h⟩ := Option.bind_eq_some_iff.mp h
  dsimp only at h
  split at h
  · contradiction
  · rw [← Option.some.inj h]
    apply List.exists_cons_of_ne_nil
    rw [Ne, List.map_eq_nil_iff]
    exact splitAtChar_ne_nil _ _

/-- A tidy tree stays tidy under a path. -/
theorem tidy_nest (h : t.Tidy) (path : List String) : (nest t path).Tidy := by
  induction path with
  | nil => exact h
  | cons n rest ih => exact ih.singleton

/-- A path changes what its first name leads to, and nothing beside it. -/
theorem find?_merge_nest {m : String} :
    (lower.merge (nest t (m :: path))).find? n =
      if m = n then some (((lower.find? n).getD .absent).merge (nest t path))
      else lower.find? n := by
  rw [nest, Tree.find?_merge_table (List.pairwise_singleton _ _), Tree.lookup, Tree.lookup]
  by_cases hm : m = n
  · rw [if_pos hm, if_pos hm]
  · rw [if_neg hm, if_neg hm]

/-! ## Variables -/

/-- The last variable is laid over the tree of the others, if its name is a path. -/
theorem tree_concat :
    tree start (environment ++ [v]) =
      match path? start v.1 with
      | some path => (tree start environment).merge (nest (parse v.2) path)
      | none => tree start environment :=
  List.foldl_concat ..

/-- The tree of the variables is tidy. -/
theorem tidy_tree : (tree start environment).Tidy := by
  induction environment using List.reverseRecOn with
  | nil => exact .nil
  | append_singleton environment v ih =>
      rw [tree_concat]
      split
      · exact ih.merge (tidy_nest (tidy_parse _) _)
      · exact ih

/-- The paths lead to tables: they have names. -/
theorem tree_eq_table (start : String) (environment : List (String × String)) :
    ∃ es, tree start environment = .table es := by
  induction environment using List.reverseRecOn with
  | nil => exact ⟨[], rfl⟩
  | append_singleton environment v ih =>
      rw [tree_concat]
      cases hpath : path? start v.1 with
      | none => exact ih
      | some path =>
          obtain ⟨m, rest, rfl⟩ := exists_of_path? hpath
          exact ⟨_, Tree.merge_table⟩

/-- Some path starts with the name. -/
def Enters (start n : String) (environment : List (String × String)) : Prop :=
  ∃ v ∈ environment, (path? start v.1).bind List.head? = some n

instance : Decidable (Enters start n environment) :=
  inferInstanceAs (Decidable (∃ v ∈ environment, _))

/-- What the last variable of a path says. -/
def last? (start : String) (path : List String) (environment : List (String × String)) :
    Option Tree :=
  (environment.filter (path? start ·.1 = some path)).getLast?.map (parse ·.2)

/-- One more variable enters the sections that the others do, and its own. -/
theorem enters_concat :
    Enters start n (environment ++ [v]) ↔
      Enters start n environment ∨ (path? start v.1).bind List.head? = some n := by
  simp [Enters, or_and_right, exists_or]

/-- The last variable of a path overrides those before. -/
theorem last?_concat :
    last? start path (environment ++ [v]) =
      if path? start v.1 = some path then some (parse v.2) else last? start path environment := by
  by_cases hv : path? start v.1 = some path
  · simp [last?, hv]
  · simp [last?, hv]

/-- Nothing is said about a section that no variable enters. -/
theorem last?_eq_none (h : ¬ Enters start n environment) :
    last? start (n :: path) environment = none := by
  rw [last?, List.filter_eq_nil_iff.mpr, List.getLast?_nil, Option.map_none]
  intro v hv hpath
  refine h ⟨v, hv, ?_⟩
  rw [of_decide_eq_true hpath]
  rfl

/-- The environment has a section exactly if some variable leads into it, and then it is a table. -/
theorem find?_tree_section (hsection : ∀ v ∈ environment, path? start v.1 ≠ some [n]) :
    ¬ Enters start n environment ∧ (tree start environment).find? n = none ∨
      Enters start n environment ∧ ∃ fs, (tree start environment).find? n = some (.table fs) := by
  -- on the variables from the end: the last one is laid over all others
  induction environment using List.reverseRecOn with
  | nil => exact .inl ⟨by simp [Enters], rfl⟩
  | append_singleton environment v ih =>
      obtain ⟨hbefore, hv⟩ := List.forall_mem_append.mp hsection
      have hv : path? start v.1 ≠ some [n] := hv v List.mem_cons_self
      rw [enters_concat, tree_concat]
      cases hpath : path? start v.1 with
      | none => simpa using ih hbefore
      | some path =>
          obtain ⟨m, rest, rfl⟩ := exists_of_path? hpath
          dsimp only
          rw [find?_merge_nest]
          by_cases hm : m = n
          · subst hm
            obtain ⟨k, rest, rfl⟩ : ∃ k rest', rest = k :: rest' := by
              apply List.exists_cons_of_ne_nil
              rintro rfl
              exact hv hpath
            refine .inr ⟨.inr rfl, ?_⟩
            rw [if_pos rfl, nest, Tree.merge_table]
            exact ⟨_, rfl⟩
          · simpa [hm] using ih hbefore

/-- What was found is what is given, laid over something; nothing is found if nothing is given. -/
def LaidOver (given found : Option Tree) : Prop :=
  match given with
  | none => found = none
  | some t => ∃ lower : Tree, found = some (lower.merge t)

/-- The environment's section has under a name what the last variable of the path says. -/
theorem laidOver_tree (hsection : ∀ v ∈ environment, path? start v.1 ≠ some [n])
    (hfield : ∀ v ∈ environment, ∀ rest, path? start v.1 = some (n :: k :: rest) → rest = []) :
    LaidOver (last? start [n, k] environment)
      (((tree start environment).find? n).bind (·.find? k)) := by
  induction environment using List.reverseRecOn with
  | nil => exact rfl
  | append_singleton environment v ih =>
      obtain ⟨hsectionBefore, hsectionLast⟩ := List.forall_mem_append.mp hsection
      obtain ⟨hfieldBefore, hfieldLast⟩ := List.forall_mem_append.mp hfield
      have hbefore := ih hsectionBefore hfieldBefore
      rw [last?_concat, tree_concat]
      cases hpath : path? start v.1 with
      | none =>
          rw [if_neg (Option.some_ne_none _).symm]
          exact hbefore
      | some path =>
          obtain ⟨m, rest, rfl⟩ := exists_of_path? hpath
          dsimp only
          rw [find?_merge_nest]
          by_cases hm : m = n
          · subst hm
            obtain ⟨k', rest, rfl⟩ : ∃ k' rest', rest = k' :: rest' := by
              apply List.exists_cons_of_ne_nil
              rintro rfl
              exact hsectionLast v List.mem_cons_self hpath
            rw [if_pos rfl, Option.bind_some, find?_merge_nest]
            by_cases hk : k' = k
            · -- the path ends here, so the variable is the one that is asked for
              subst hk
              obtain rfl := hfieldLast v List.mem_cons_self rest hpath
              rw [if_pos rfl, if_pos rfl]
              exact ⟨_, rfl⟩
            · rw [if_neg hk, if_neg (by simp [hk]), Tree.find?_getD]
              exact hbefore
          · rw [if_neg hm, if_neg (by simp [hm])]
            exact hbefore

end Keyring.Config.Environment
