import Keyring.Proofs.Json.Normal
import Keyring.Token.Header

/-! # Reading token headers

A header is read from an object in which the algorithm and the key's identifier stand once each, and
a header that was written is read back.
-/

namespace Keyring.Token.Header

variable {name : String} {members : List (String × Json)} {h : Header} {v : Json}

/-! ## Members of one name -/

/-- The values of a name among members, from the first on. -/
theorem valuesOf_cons (m : String × Json) (members : List (String × Json)) :
    valuesOf name (m :: members) = (if m.1 = name then [m.2] else []) ++ valuesOf name members := by
  rw [valuesOf, List.filter_cons]
  by_cases hm : m.1 = name
  · rw [if_pos hm, if_pos (decide_eq_true hm)]
    rfl
  · rw [if_neg hm, if_neg (by simpa using hm)]
    rfl

/-- The member of a name is the last of that name. -/
theorem member?_eq_getLast? (name : String) (members : List (String × Json)) :
    (Json.obj members).member? name = (valuesOf name members).getLast? := by
  rw [Json.member?, valuesOf, List.getLast?_map, List.getLast?_eq_head?_reverse,
    ← List.filter_reverse, List.head?_filter]

/-- A member that is put in is the only one of its name. -/
theorem valuesOf_insertMember (hsorted : Json.Sorted members) (n : String) (v : Json) :
    valuesOf name (Json.insertMember n v members) =
      if n = name then [v] else valuesOf name members := by
  -- Names after one that is not less than `name` differ from it.
  have hnone : ∀ {ms : List (String × Json)}, (∀ m ∈ ms, name < m.1) → valuesOf name ms = [] := by
    intro ms hms
    rw [valuesOf, List.filter_eq_nil_iff.mpr, List.map_nil]
    intro m hm heq
    exact absurd (of_decide_eq_true heq) (ne_of_gt (hms m hm))
  induction members with
  | nil =>
      rw [Json.insertMember, valuesOf_cons, valuesOf, List.filter_nil, List.map_nil,
        List.append_nil]
  | cons m rest ih =>
      obtain ⟨hm, hrest⟩ := List.pairwise_cons.mp hsorted
      rw [Json.insertMember]
      split
      · next hlt =>
          rw [valuesOf_cons]
          split
          · next heq =>
              subst heq
              rw [hnone, List.append_nil]
              intro k hk
              rcases List.mem_cons.mp hk with rfl | hk
              · exact hlt
              · exact lt_trans hlt (hm k hk)
          · rfl
      · split
        · next heq =>
            rw [valuesOf_cons, valuesOf_cons m rest, heq]
            split
            · next hname =>
                rw [hnone, List.append_nil]
                rw [← hname]
                exact hm
            · rfl
        · next hne =>
            rw [valuesOf_cons, valuesOf_cons m rest, ih hrest]
            by_cases hn : n = name
            · rw [if_pos hn, if_pos hn, if_neg (by rw [← hn]; exact Ne.symm hne), List.nil_append]
            · rw [if_neg hn, if_neg hn]

/-- A normal form has one member of each name, which is that of the value in normal form. -/
theorem valuesOf_normalizeMembers {sorted : List (String × Json)} (hsorted : Json.Sorted sorted)
    (members : List (String × Json)) :
    valuesOf name (Json.normalizeMembers sorted members) =
      (((Json.obj members).member? name).map fun v => [v.normalize]).getD
        (valuesOf name sorted) := by
  induction members generalizing sorted with
  | nil => rfl
  | cons m rest ih =>
      rw [Json.normalizeMembers, ih (Json.sorted_insertMember hsorted),
        valuesOf_insertMember hsorted, member?_eq_getLast?, member?_eq_getLast?, valuesOf_cons,
        List.getLast?_append]
      cases (valuesOf name rest).getLast? with
      | some v => rfl
      | none =>
          split
          · rfl
          · rfl

/-! ## Reading -/

/-- Members with a meaning of their own stand at most once and have the type of their meaning, and
all others hold texts. -/
def WellFormed (members : List (String × Json)) : Prop :=
  (optional (·.str?.isSome) textMembers members && optional isTextList listMembers members
    && optional describesKey ["jwk"] members && members.all fun m => isKnown m.1 ||
    m.2.str?.isSome) = true

/-- Members that stand at most once do so. -/
theorem valuesOf_of_optional {ok : Json → Bool} {names : List String} (hnames : name ∈ names)
    (h : optional ok names members) :
    valuesOf name members = [] ∨ ∃ v, valuesOf name members = [v] := by
  have hname := List.all_eq_true.mp h name hnames
  split at hname
  · next hnil => exact .inl hnil
  · next v hv => exact .inr ⟨v, hv⟩
  · contradiction

/-- An algorithm is known by its name. -/
theorem ofName?_eq_some_iff {s : String} {a : Algorithm} :
    Algorithm.ofName? s = some a ↔ s = a.name := by
  constructor
  · intro h
    have hname := List.find?_some (p := fun b => decide (Algorithm.name b = s)) h
    exact (of_decide_eq_true hname).symm
  · rintro rfl
    exact Algorithm.ofName?_name a

/-- A header is read from well-formed members that name one algorithm and at most one key. -/
theorem ofMembers?_eq_some_iff :
    ofJson? (.obj members) = some h ↔ WellFormed members ∧
      valuesOf "alg" members = [.str h.algorithm.name] ∧
      ((Json.obj members).member? "kid" >>= Json.str?) = h.keyId := by
  rw [ofJson?, WellFormed]
  simp only [Bool.not_eq_true']
  split
  · next hmalformed =>
      simp [hmalformed]
  · next hwellFormed =>
      rw [Bool.not_eq_false] at hwellFormed
      rw [and_iff_right hwellFormed]
      split
      · next a halg =>
          rw [halg, Option.bind_eq_bind, Option.bind_eq_some_iff]
          constructor
          · rintro ⟨algorithm, hname, h⟩
            obtain rfl := Option.some.inj h
            rw [ofName?_eq_some_iff.mp hname]
            exact ⟨rfl, rfl⟩
          · rintro ⟨hname, hkid⟩
            obtain rfl := Json.str.inj (List.cons.inj hname).1
            exact ⟨h.algorithm, Algorithm.ofName?_name _,
              congrArg (fun k => some (Header.mk _ k)) hkid⟩
      · next hnot =>
          refine iff_of_false (by simp) ?_
          rintro ⟨halg, -⟩
          exact hnot _ halg

/-- A header is read from an object with such members. -/
theorem ofJson?_eq_some_iff :
    ofJson? v = some h ↔ ∃ members, v = .obj members ∧ WellFormed members ∧
      valuesOf "alg" members = [.str h.algorithm.name] ∧
      ((Json.obj members).member? "kid" >>= Json.str?) = h.keyId := by
  cases v with
  | obj members =>
      rw [ofMembers?_eq_some_iff]
      constructor
      · intro h
        exact ⟨members, rfl, h⟩
      · rintro ⟨members', hmembers, h⟩
        obtain rfl := Json.obj.inj hmembers
        exact h
  | null | bool | int | float | str | arr => simp [ofJson?]

/-- A header that names a key is read from an object in which the algorithm and the name of the key
stand once. -/
theorem ofJson?_eq_some_iff_named {a : Algorithm} {kid : String} :
    ofJson? v = some ⟨a, some kid⟩ ↔ ∃ members, v = .obj members ∧ WellFormed members ∧
      valuesOf "alg" members = [.str a.name] ∧ valuesOf "kid" members = [.str kid] := by
  have hkid : ∀ {members}, WellFormed members →
      (((Json.obj members).member? "kid" >>= Json.str?) = some kid ↔
        valuesOf "kid" members = [.str kid]) := by
    intro members hwellFormed
    have hoptional : optional (·.str?.isSome) textMembers members := by
      simp only [WellFormed, Bool.and_eq_true] at hwellFormed
      exact hwellFormed.1.1.1
    rw [member?_eq_getLast?]
    rcases valuesOf_of_optional (by decide : "kid" ∈ textMembers) hoptional with hnil | ⟨v, hv⟩
    · rw [hnil]
      simp
    · rw [hv]
      cases v <;> simp [Json.str?]
  rw [ofJson?_eq_some_iff]
  apply exists_congr
  intro members
  constructor
  · rintro ⟨hv, hwellFormed, halg, h⟩
    exact ⟨hv, hwellFormed, halg, (hkid hwellFormed).mp h⟩
  · rintro ⟨hv, hwellFormed, halg, h⟩
    exact ⟨hv, hwellFormed, halg, (hkid hwellFormed).mpr h⟩

/-- A header is read back. -/
theorem ofJson?_render (h : Header) :
    ∃ v, Json.parseBytes? (Utf8.encode h.render) = some v ∧ ofJson? v = some h := by
  obtain ⟨a, kid⟩ := h
  refine ⟨_, (Json.parseBytes?_encode_render ?_).trans (if_pos ?_), ?_⟩
  · cases kid <;> rfl
  · cases kid <;> simp [Json.depth, Json.depthOfMembers, Json.Reader.maxDepth]
  · rw [ofMembers?_eq_some_iff]
    refine ⟨?_, ?_, ?_⟩
    · cases kid <;> simp [WellFormed, optional, valuesOf, textMembers, listMembers, isKnown,
        Json.str?]
    · cases kid <;> simp [valuesOf]
    · cases kid <;> simp [Json.member?, Json.str?]

end Keyring.Token.Header
