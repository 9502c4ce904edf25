import Keyring.Proofs.Json.Scalar
import Keyring.Proofs.Text.Utf8

/-! # Reading JSON that was written

A value whose numbers are integers of 64 bits is read back from its compact text, unless its arrays
and objects nest deeper than the reader allows: then its text is refused. Arrays and objects are
written alike, item after item, so they share the argument about lists; the induction over values is
on the depth that the reader still allows.
-/

namespace Keyring.Json

/-! ## The shape of a value -/

mutual

/-- How deep arrays and objects nest. -/
def depth : Json → Nat
  | .arr items => depthOfItems items + 1
  | .obj members => depthOfMembers members + 1
  | _ => 0

/-- How deep the items of an array nest. -/
def depthOfItems : List Json → Nat
  | [] => 0
  | v :: rest => max (depth v) (depthOfItems rest)

/-- How deep the members of an object nest. -/
def depthOfMembers : List (String × Json) → Nat
  | [] => 0
  | (_, v) :: rest => max (depth v) (depthOfMembers rest)

end

mutual

/-- Whether all numbers are integers of 64 bits. -/
def isIntegral : Json → Bool
  | .int n => decide (FitsWord n)
  | .float _ => false
  | .arr items => areIntegral items
  | .obj members => haveIntegral members
  | _ => true

/-- Whether all numbers in the items of an array are. -/
def areIntegral : List Json → Bool
  | [] => true
  | v :: rest => isIntegral v && areIntegral rest

/-- Whether all numbers in the members of an object are. -/
def haveIntegral : List (String × Json) → Bool
  | [] => true
  | (_, v) :: rest => isIntegral v && haveIntegral rest

end

variable {items : List Json} {members : List (String × Json)} {v : Json} {d : Nat}

/-- An array is one level deeper than its items. -/
theorem depth_arr_le : (arr items).depth ≤ d + 1 ↔ ∀ v ∈ items, v.depth ≤ d := by
  have hitems : depthOfItems items ≤ d ↔ ∀ v ∈ items, v.depth ≤ d := by
    induction items with
    | nil => simp [depthOfItems]
    | cons v rest ih => rw [depthOfItems, Nat.max_le, ih, List.forall_mem_cons]
  rw [depth, Nat.add_le_add_iff_right, hitems]

/-- An object is one level deeper than its members. -/
theorem depth_obj_le : (obj members).depth ≤ d + 1 ↔ ∀ m ∈ members, m.2.depth ≤ d := by
  have hmembers : depthOfMembers members ≤ d ↔ ∀ m ∈ members, m.2.depth ≤ d := by
    induction members with
    | nil => simp [depthOfMembers]
    | cons m rest ih => rw [depthOfMembers, Nat.max_le, ih, List.forall_mem_cons]
  rw [depth, Nat.add_le_add_iff_right, hmembers]

/-- An array is too deep if an item is. -/
theorem lt_depth_arr : d + 1 < (arr items).depth ↔ ∃ v ∈ items, d < v.depth := by
  rw [← Nat.not_le, depth_arr_le]
  simp

/-- An object is too deep if a member is. -/
theorem lt_depth_obj : d + 1 < (obj members).depth ↔ ∃ m ∈ members, d < m.2.depth := by
  rw [← Nat.not_le, depth_obj_le]
  simp

/-- The numbers of an array are integers if those of its items are. -/
theorem isIntegral_arr : (arr items).isIntegral ↔ ∀ v ∈ items, v.isIntegral := by
  rw [isIntegral]
  induction items with
  | nil => simp [areIntegral]
  | cons v rest ih => rw [areIntegral, Bool.and_eq_true, ih, List.forall_mem_cons]

/-- The numbers of an object are integers if those of its members are. -/
theorem isIntegral_obj : (obj members).isIntegral ↔ ∀ m ∈ members, m.2.isIntegral := by
  rw [isIntegral]
  induction members with
  | nil => simp [haveIntegral]
  | cons m rest ih => rw [haveIntegral, Bool.and_eq_true, ih, List.forall_mem_cons]

/-- What holds of every scalar and passes from the parts of a value to the value holds of all
values. -/
theorem induct {P : Json → Prop} (scalar : ∀ v, v.depth = 0 → P v)
    (arr : ∀ items, (∀ v ∈ items, P v) → P (.arr items))
    (obj : ∀ members, (∀ m ∈ members, P m.2) → P (.obj members)) (v : Json) : P v := by
  have hdepth : ∀ d v, depth v ≤ d → P v := by
    intro d
    induction d with
    | zero => exact fun v hv => scalar v (Nat.le_zero.mp hv)
    | succ d ih =>
        intro v hv
        cases v with
        | arr items => exact arr items fun v hmem => ih v (depth_arr_le.mp hv v hmem)
        | obj members => exact obj members fun m hmem => ih m.2 (depth_obj_le.mp hv m hmem)
        | null | bool | int | float | str => exact scalar _ rfl
  exact hdepth v.depth v (Nat.le_refl _)

/-! ## Lists -/

/-- The further elements of a list and its end, each element written by `text`. -/
def tailChars {α : Type} (text : α → List Char) (close : Char) : List α → List Char
  | [] => [close]
  | a :: rest => ',' :: (text a ++ tailChars text close rest)

/-- The characters of a member. -/
def memberText (m : String × Json) : List Char := stringChars m.1 ++ ':' :: chars m.2

/-- The items of an array are written as a tail. -/
theorem itemChars_eq (items : List Json) : itemChars items = tailChars chars ']' items := by
  induction items with
  | nil => rfl
  | cons v rest ih => rw [itemChars, tailChars, ih]

/-- The members of an object are written as a tail. -/
theorem memberChars_eq (members : List (String × Json)) :
    memberChars members = tailChars memberText '\x7d' members := by
  induction members with
  | nil => rfl
  | cons m rest ih =>
      obtain ⟨n, v⟩ := m
      rw [memberChars, tailChars, ih, memberText, List.append_assoc, List.cons_append]

/-- A tail has more characters than parts, so its length is fuel enough to read it. -/
theorem length_le_tailChars {α : Type} (text : α → List Char) (close : Char) (as : List α) :
    as.length < (tailChars text close as).length := by
  induction as with
  | nil => exact Nat.zero_lt_one
  | cons a as ih =>
      rw [tailChars, List.length_cons, List.length_cons, List.length_append]
      omega

namespace Reader

variable {α : Type} {item : Reader α} {text : α → List Char} {opening close : Char}

/-- What encloses a list: no space, and its end is neither a comma nor part of a number. -/
structure Encloses (opening close : Char) : Prop where
  opening_not_space : isSpace opening = false
  close_not_space : isSpace close = false
  close_ne_comma : close ≠ ','
  close_ends : close.isDigit = false ∧ close ≠ '.' ∧ close ≠ 'e' ∧ close ≠ 'E'

/-- The reader of an element reads it back wherever no number is continued. -/
def ReadsBack (item : Reader α) (text : α → List Char) (a : α) : Prop :=
  ∀ rest, Ends rest → item (text a ++ rest) = some (a, rest)

/-- The reader of an element refuses it wherever no number is continued. -/
def Refuses (item : Reader α) (text : α → List Char) (a : α) : Prop :=
  ∀ rest, Ends rest → item (text a ++ rest) = none

/-- A number that stands before a tail ends there. -/
theorem ends_tailChars (h : Encloses opening close) (text : α → List Char) (as : List α)
    (rest : List Char) :
    Ends (tailChars text close as ++ rest) := by
  cases as with
  | nil => exact ends_cons h.close_ends rest
  | cons a as => exact ends_cons (by decide) _

/-- Parts that are read back one by one are read back from their tail. -/
theorem separated_tailChars (h : Encloses opening close) {a : α} {as : List α}
    (hread : ∀ b ∈ a :: as, ReadsBack item text b) {fuel : Nat} (hfuel : as.length < fuel)
    (rest : List Char) :
    separated item close fuel (text a ++ (tailChars text close as ++ rest)) =
      some (a :: as, rest) := by
  induction as generalizing a fuel with
  | nil =>
      obtain ⟨fuel, rfl⟩ := Nat.exists_eq_add_one_of_ne_zero (Nat.ne_zero_of_lt hfuel)
      have ha := hread a List.mem_cons_self _ (ends_tailChars h text [] rest)
      rw [separated, ha, Option.bind_eq_bind, Option.bind_some]
      simp only [tailChars, List.singleton_append]
      rw [skipSpace_cons h.close_not_space]
      split
      · next heq => exact absurd (List.cons.inj heq).1 h.close_ne_comma
      · next heq =>
          obtain ⟨rfl, rfl⟩ := List.cons.inj heq
          rw [if_pos rfl]
      · contradiction
  | cons b as ih =>
      obtain ⟨fuel, rfl⟩ := Nat.exists_eq_add_one_of_ne_zero (Nat.ne_zero_of_lt hfuel)
      have ha := hread a List.mem_cons_self _ (ends_tailChars h text (b :: as) rest)
      have hrest :=
        ih (a := b) (fun c hc => hread c (List.mem_cons_of_mem a hc)) (Nat.lt_of_succ_lt_succ hfuel)
      rw [separated, ha, Option.bind_eq_bind, Option.bind_some]
      simp only [tailChars, List.cons_append, List.append_assoc]
      rw [skipSpace_cons (by rfl)]
      simp only [hrest, Option.bind_eq_bind, Option.bind_some, pure]

/-- A list is refused for one element that is. -/
theorem separated_tailChars_none (h : Encloses opening close) {a : α} {as : List α}
    (hread : ∀ b ∈ a :: as, ReadsBack item text b ∨ Refuses item text b)
    (hrefused : ∃ b ∈ a :: as, Refuses item text b) (fuel : Nat) (rest : List Char) :
    separated item close fuel (text a ++ (tailChars text close as ++ rest)) = none := by
  induction as generalizing a fuel with
  | nil =>
      obtain ⟨b, hb, hrefuses⟩ := hrefused
      obtain rfl := List.mem_singleton.mp hb
      cases fuel with
      | zero => rfl
      | succ fuel =>
          rw [separated, hrefuses _ (ends_tailChars h text [] rest)]
          rfl
  | cons b as ih =>
      have hends := ends_tailChars h text (b :: as) rest
      cases fuel with
      | zero => rfl
      | succ fuel =>
          by_cases hfirst : Refuses item text a
          · rw [separated, hfirst _ hends]
            rfl
          · -- Then a later element is refused.
            have ha := (hread a List.mem_cons_self).resolve_right hfirst _ hends
            have hlater : ∃ c ∈ b :: as, Refuses item text c := by
              obtain ⟨c, hc, hrefuses⟩ := hrefused
              rcases List.mem_cons.mp hc with rfl | hc
              · exact absurd hrefuses hfirst
              · exact ⟨c, hc, hrefuses⟩
            have hrest := ih (a := b) (fun c hc => hread c (List.mem_cons_of_mem a hc)) hlater fuel
            rw [separated, ha, Option.bind_eq_bind, Option.bind_some]
            simp only [tailChars, List.cons_append, List.append_assoc]
            rw [skipSpace_cons (by rfl)]
            simp only [hrest, Option.bind_eq_bind, Option.bind_none]

/-- Brackets with nothing between them are read as no parts. -/
theorem bracketed_nil (h : Encloses opening close) (item : Reader α) (rest : List Char) :
    bracketed item opening close (opening :: close :: rest) = some ([], rest) := by
  rw [bracketed, token_cons h.opening_not_space, Option.bind_eq_bind, Option.bind_some]
  simp only [token_cons h.close_not_space]

/-- A list whose first element does not start like its end is read element by element. -/
theorem bracketed_cons (h : Encloses opening close) (item : Reader α) {a : α}
    (hstart : ∃ c cs, text a = c :: cs ∧ isSpace c = false ∧ c ≠ close) (rest : List Char) :
    bracketed item opening close (opening :: (text a ++ rest)) =
      separated item close (text a ++ rest).length (text a ++ rest) := by
  have hnot : token close (text a ++ rest) = none := by
    obtain ⟨c, cs, htext, hspace, hne⟩ := hstart
    rw [htext, List.cons_append, token_cons_of_ne hspace hne]
  rw [bracketed, token_cons h.opening_not_space, Option.bind_eq_bind, Option.bind_some]
  simp only [hnot]

/-! ## Values -/

theorem encloses_array : Encloses '[' ']' := ⟨rfl, rfl, by decide, by decide⟩

theorem encloses_object : Encloses '\x7b' '\x7d' := ⟨rfl, rfl, by decide, by decide⟩

/-- A value starts with neither space nor the end of a list, and a scalar with no opening. -/
theorem exists_chars_eq_cons {v : Json} (hintegral : v.isIntegral) :
    ∃ c cs, chars v = c :: cs ∧ isSpace c = false ∧ c ≠ ']' ∧
      (v.depth = 0 → c ≠ '[' ∧ c ≠ '\x7b') := by
  cases v with
  | null => exact ⟨_, _, rfl, by decide⟩
  | bool b => cases b <;> exact ⟨_, _, rfl, by decide⟩
  | int n =>
      obtain ⟨c, cs, htext, hc⟩ := exists_toString_eq_cons n
      have hne : ∀ d, d.isDigit = false → d ≠ '-' → c ≠ d := fun d => ne_of_number hc
      exact ⟨c, cs, htext, isSpace_of_number hc, hne _ rfl (by decide),
        fun _ => ⟨hne _ rfl (by decide),
        hne _ rfl (by decide)⟩⟩
  | float x => contradiction
  | str s => exact ⟨_, _, rfl, rfl, by decide, fun _ => by decide⟩
  | arr items =>
      cases items <;> exact ⟨_, _, rfl, rfl, by decide, fun h => by rw [depth] at h; omega⟩
  | obj members =>
      cases members <;> exact ⟨_, _, rfl, rfl, by decide, fun h => by rw [depth] at h; omega⟩

/-- A scalar is read back. -/
theorem scalar_chars {v : Json} (hv : v.depth = 0) (hintegral : v.isIntegral) :
    ReadsBack scalar chars v := by
  intro rest hrest
  cases v with
  | null => rfl
  | bool b => cases b <;> rfl
  | int n =>
      obtain ⟨c, cs, htext, hc⟩ := exists_toString_eq_cons n
      have hread := Numeral.read_toString n hrest
      have hfits : FitsWord n := of_decide_eq_true hintegral
      rw [htext, List.cons_append] at hread
      rw [chars, htext, List.cons_append, scalar, skipSpace_cons (isSpace_of_number hc)]
      split
      · next h => exact absurd (List.cons.inj h).1 (ne_of_number hc rfl (by decide))
      · rw [atom_number hc, hread, Option.bind_eq_bind, Option.bind_some]
        simp only [Numeral.toJson?_integer hfits, Option.bind_eq_bind, Option.bind_some, pure]
  | float x => contradiction
  | str s =>
      have hread := string_stringChars s rest
      rw [stringChars, List.cons_append] at hread
      rw [chars, stringChars, List.cons_append, scalar, skipSpace_cons (by rfl)]
      simp only [hread, Option.map_some]
  | arr items => rw [depth] at hv; omega
  | obj members => rw [depth] at hv; omega

/-- A member is read back with its value. -/
theorem memberWith_memberText {item : Reader Json} {m : String × Json}
    (hread : ReadsBack item chars m.2) : ReadsBack (memberWith fun _ => item) memberText m := by
  intro rest hrest
  rw [memberWith, memberText, List.append_assoc, string_stringChars, Option.bind_eq_bind,
    Option.bind_some]
  simp only [List.cons_append, token_cons (show isSpace ':' = false from rfl), Option.bind_eq_bind,
    Option.bind_some]
  rw [hread rest hrest]
  rfl

/-- A member whose value is refused is refused. -/
theorem memberWith_memberText_none {item : Reader Json} {m : String × Json}
    (hrefuses : Refuses item chars m.2) : Refuses (memberWith fun _ => item) memberText m := by
  intro rest hrest
  rw [memberWith, memberText, List.append_assoc, string_stringChars, Option.bind_eq_bind,
    Option.bind_some]
  simp only [List.cons_append, token_cons (show isSpace ':' = false from rfl), Option.bind_eq_bind,
    Option.bind_some]
  rw [hrefuses rest hrest]
  rfl

/-- No scalar starts like an array or an object. -/
theorem scalar_cons_none {c : Char} (hc : c = '[' ∨ c = '\x7b') (cs : List Char) :
    scalar (c :: cs) = none := by
  rcases hc with rfl | rfl <;> rfl

/-- The empty array is read back. -/
theorem valueWithin_nil_arr (d : Nat) (rest : List Char) :
    valueWithin (d + 1) (chars (.arr []) ++ rest) = some (.arr [], rest) := by
  have hlist := bracketed_nil encloses_array (valueWithin d) rest
  rw [chars, List.cons_append, List.singleton_append]
  simp only [valueWithin, skipSpace_cons encloses_array.opening_not_space, elements, hlist,
    Option.map_some]

/-- The empty object is read back. -/
theorem valueWithin_nil_obj (d : Nat) (rest : List Char) :
    valueWithin (d + 1) (chars (.obj []) ++ rest) = some (.obj [], rest) := by
  have hlist := bracketed_nil encloses_object (memberWith fun _ => valueWithin d) rest
  rw [chars, List.cons_append, List.singleton_append]
  simp only [valueWithin, skipSpace_cons encloses_object.opening_not_space, Reader.members, hlist,
    Option.map_some]

/-- An array with items is read as items between commas. -/
theorem valueWithin_cons_arr (d : Nat) {v : Json} (hv : v.isIntegral) (items : List Json)
    (rest : List Char) :
    ∃ fuel, items.length < fuel ∧ valueWithin (d + 1) (chars (.arr (v :: items)) ++ rest) =
      (separated (valueWithin d) ']' fuel (chars v ++ (tailChars chars ']' items ++ rest))).map
        fun (vs, rest) => (.arr vs, rest) := by
  have hlength := length_le_tailChars chars ']' items
  obtain ⟨c, cs, htext, hspace, hne, -⟩ := exists_chars_eq_cons hv
  have hlist := bracketed_cons encloses_array (valueWithin d) ⟨c, cs, htext, hspace, hne⟩
    (tailChars chars ']' items ++ rest)
  refine ⟨(chars v ++ (tailChars chars ']' items ++ rest)).length, ?_, ?_⟩
  · rw [List.length_append, List.length_append]
    omega
  · rw [chars, List.cons_append, itemChars_eq, List.append_assoc]
    simp only [valueWithin, skipSpace_cons encloses_array.opening_not_space, elements, hlist]

/-- An object with members is read as members between commas. -/
theorem valueWithin_cons_obj (d : Nat) (m : String × Json) (members : List (String × Json))
    (rest : List Char) :
    ∃ fuel, members.length < fuel ∧ valueWithin (d + 1) (chars (.obj (m :: members)) ++ rest) =
      (separated (memberWith fun _ => valueWithin d) '\x7d' fuel
        (memberText m ++ (tailChars memberText '\x7d' members ++ rest))).map
        fun (ms, rest) => (.obj ms, rest) := by
  have hlength := length_le_tailChars memberText '\x7d' members
  have hstart : ∃ c cs, memberText m = c :: cs ∧ isSpace c = false ∧ c ≠ '\x7d' :=
    ⟨'"', _, rfl, rfl, by decide⟩
  have hlist := bracketed_cons encloses_object (memberWith fun _ => valueWithin d) hstart
    (tailChars memberText '\x7d' members ++ rest)
  refine ⟨(memberText m ++ (tailChars memberText '\x7d' members ++ rest)).length, ?_, ?_⟩
  · rw [List.length_append, List.length_append]
    omega
  · have htext : chars (.obj (m :: members)) ++ rest =
        '\x7b' :: (memberText m ++ (tailChars memberText '\x7d' members ++ rest)) := by
      rw [chars, memberChars_eq, memberText]
      simp only [List.cons_append, List.append_assoc]
    rw [htext]
    simp only [valueWithin, skipSpace_cons encloses_object.opening_not_space, Reader.members, hlist]

/-- A value that nests no deeper than allowed is read back. -/
theorem valueWithin_chars (d : Nat) {v : Json} (hd : v.depth ≤ d) (hintegral : v.isIntegral) :
    ReadsBack (valueWithin d) chars v := by
  induction d generalizing v with
  | zero => exact scalar_chars (Nat.le_zero.mp hd) hintegral
  | succ d ih =>
      intro rest hrest
      by_cases hscalar : v.depth = 0
      · -- It does not start like an array or an object.
        obtain ⟨c, cs, htext, hspace, -, hne⟩ := exists_chars_eq_cons hintegral
        have hread := scalar_chars hscalar hintegral rest hrest
        rw [htext, List.cons_append] at hread ⊢
        simp only [valueWithin]
        rw [skipSpace_cons hspace]
        split
        · next h => exact absurd (List.cons.inj h).1 (hne hscalar).1
        · next h => exact absurd (List.cons.inj h).1 (hne hscalar).2
        · exact hread
      cases v with
      | arr items =>
          have hread : ∀ v ∈ items, ReadsBack (valueWithin d) chars v := fun v hv =>
            ih (depth_arr_le.mp hd v hv) (isIntegral_arr.mp hintegral v hv)
          cases items with
          | nil => exact valueWithin_nil_arr d rest
          | cons v items =>
              have hv := isIntegral_arr.mp hintegral v List.mem_cons_self
              obtain ⟨fuel, hfuel, hlist⟩ := valueWithin_cons_arr d hv items rest
              rw [hlist, separated_tailChars encloses_array hread hfuel, Option.map_some]
      | obj members =>
          have hread : ∀ m ∈ members, ReadsBack (memberWith fun _ => valueWithin d) memberText m :=
            fun m hm =>
            memberWith_memberText (ih (depth_obj_le.mp hd m hm) (isIntegral_obj.mp hintegral m hm))
          cases members with
          | nil => exact valueWithin_nil_obj d rest
          | cons m members =>
              obtain ⟨fuel, hfuel, hlist⟩ := valueWithin_cons_obj d m members rest
              rw [hlist, separated_tailChars encloses_object hread hfuel, Option.map_some]
      | null | bool | int | float | str => exact absurd rfl hscalar

/-- A value that nests deeper than allowed is refused. -/
theorem valueWithin_chars_none (d : Nat) {v : Json} (hd : d < v.depth) (hintegral : v.isIntegral) :
    Refuses (valueWithin d) chars v := by
  induction d generalizing v with
  | zero =>
      intro rest _
      cases v with
      | arr items => cases items <;> exact scalar_cons_none (.inl rfl) _
      | obj members => cases members <;> exact scalar_cons_none (.inr rfl) _
      | null | bool | int | float | str => exact absurd hd (Nat.lt_irrefl 0)
  | succ d ih =>
      intro rest _
      -- One part nests too deep; every part is read back or refused.
      cases v with
      | arr items =>
          have hread :
              ∀ v ∈ items, ReadsBack (valueWithin d) chars v ∨ Refuses (valueWithin d) chars v := by
            intro v hv
            have hv' := isIntegral_arr.mp hintegral v hv
            exact (Nat.lt_or_ge d v.depth).symm.imp (valueWithin_chars d · hv') (ih · hv')
          have hrefused : ∃ v ∈ items, Refuses (valueWithin d) chars v := by
            obtain ⟨v, hv, hlt⟩ := lt_depth_arr.mp hd
            exact ⟨v, hv, ih hlt (isIntegral_arr.mp hintegral v hv)⟩
          cases items with
          | nil =>
              obtain ⟨v, hv, -⟩ := hrefused
              contradiction
          | cons v items =>
              have hv := isIntegral_arr.mp hintegral v List.mem_cons_self
              obtain ⟨fuel, -, hlist⟩ := valueWithin_cons_arr d hv items rest
              rw [hlist, separated_tailChars_none encloses_array hread hrefused, Option.map_none]
      | obj members =>
          have hread : ∀ m ∈ members, ReadsBack (memberWith fun _ => valueWithin d) memberText m ∨
              Refuses (memberWith fun _ => valueWithin d) memberText m := by
            intro m hm
            have hm' := isIntegral_obj.mp hintegral m hm
            exact (Nat.lt_or_ge d m.2.depth).symm.imp
              (fun hle => memberWith_memberText (valueWithin_chars d hle hm'))
              fun hlt => memberWith_memberText_none (ih hlt hm')
          have hrefused :
              ∃ m ∈ members, Refuses (memberWith fun _ => valueWithin d) memberText m := by
            obtain ⟨m, hm, hlt⟩ := lt_depth_obj.mp hd
            exact ⟨m, hm, memberWith_memberText_none (ih hlt (isIntegral_obj.mp hintegral m hm))⟩
          cases members with
          | nil =>
              obtain ⟨m, hm, -⟩ := hrefused
              contradiction
          | cons m members =>
              obtain ⟨fuel, -, hlist⟩ := valueWithin_cons_obj d m members rest
              rw [hlist, separated_tailChars_none encloses_object hread hrefused, Option.map_none]
      | null | bool | int | float | str => exact absurd hd (Nat.not_lt_zero _)

end Reader

/-- A value is read back from its text, unless it nests too deep. -/
theorem parse?_render {v : Json} (hintegral : v.isIntegral) :
    parse? v.render = if v.depth ≤ Reader.maxDepth then some v else none := by
  rw [parse?, Reader.whole, render, String.toList_ofList, Reader.value]
  split
  · next hdepth =>
      have hread := Reader.valueWithin_chars Reader.maxDepth hdepth hintegral [] ends_nil
      rw [List.append_nil] at hread
      rw [hread]
      rfl
  · next hdepth =>
      have hread :=
        Reader.valueWithin_chars_none Reader.maxDepth (Nat.not_le.mp hdepth) hintegral [] ends_nil
      rw [List.append_nil] at hread
      rw [hread]
      rfl

/-- A written value is read back from its bytes exactly if it is not nested too deep. -/
theorem parseBytes?_encode_render {v : Json} (hintegral : v.isIntegral) :
    parseBytes? (Utf8.encode v.render) = if v.depth ≤ Reader.maxDepth then some v else none := by
  rw [parseBytes?, Utf8.decode_encode]
  exact parse?_render hintegral

end Keyring.Json
