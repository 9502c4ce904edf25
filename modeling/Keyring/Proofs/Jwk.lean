import Keyring.Jwk
import Keyring.Proofs.Json.RoundTrip
import Keyring.Proofs.Key.Sound
import Keyring.Proofs.Token.Lifetime
import Keyring.Proofs.Token.Soundness

/-! # Published key sets

A record is read back from the object that it is written as, and so is a list of records, whatever
stands in their texts. The set that is published for a window of keys lists each of them with its
numbers, and if their identifiers differ each is found under its own.
-/

namespace Keyring

namespace Json.Reader

variable {α β : Type} {rest : List Char}

/-! ## Arrays and records -/

/-- It makes no difference whether parts are mapped before or as they are written. -/
theorem tailChars_map (f : β → α) (text : α → List Char) (close : Char) (bs : List β) :
    tailChars text close (bs.map f) = tailChars (fun b => text (f b)) close bs := by
  induction bs with
  | nil => rfl
  | cons b bs ih => rw [List.map_cons, tailChars, tailChars, ih]

/-- A bracketed list is read back element by element. -/
theorem bracketed_tailChars {item : Reader α} (text : α → List Char) {opening close : Char}
    (h : Encloses opening close) {a : α} {as : List α}
    (hstart : ∃ c cs, text a = c :: cs ∧ isSpace c = false ∧ c ≠ close)
    (hread : ∀ b ∈ a :: as, ReadsBack item text b) (rest : List Char) :
    bracketed item opening close (opening :: (text a ++ (tailChars text close as ++ rest))) =
      some (a :: as, rest) := by
  have hlength := length_le_tailChars text close as
  rw [bracketed_cons h item hstart]
  apply separated_tailChars h hread
  rw [List.length_append, List.length_append]
  omega

/-- An array is read back if each of its items is. -/
theorem elements_chars {item : Reader β} {toJson : β → Json} {bs : List β}
    (hstart : ∀ b ∈ bs, ∃ c cs, chars (toJson b) = c :: cs ∧ isSpace c = false ∧ c ≠ ']')
    (hread : ∀ b ∈ bs, ReadsBack item (fun b => chars (toJson b)) b) :
    ReadsBack (elements item) (fun bs => chars (.arr (bs.map toJson))) bs := by
  intro rest _
  cases bs with
  | nil => exact bracketed_nil encloses_array item rest
  | cons b bs =>
      show elements item (chars (.arr (toJson b :: bs.map toJson)) ++ rest) = _
      rw [chars, itemChars_eq, tailChars_map, List.cons_append, List.append_assoc]
      exact bracketed_tailChars (fun b => chars (toJson b)) encloses_array
        (hstart b List.mem_cons_self) hread rest

/-- A member that a record knows is read back with its value. -/
theorem memberWith_knownMember {names : List String} {name : String} (hname : name ∈ names)
    {field : Reader β} {text : β → List Char} {b : β} (hread : ReadsBack field text b)
    (hrest : Ends rest) :
    memberWith (knownMember names field) (stringChars name ++ ':' :: text b ++ rest) =
      some ((name, some b), rest) := by
  rw [memberWith, List.append_assoc, string_stringChars, Option.bind_eq_bind, Option.bind_some]
  simp only [List.cons_append, token_cons (show isSpace ':' = false from rfl), Option.bind_eq_bind,
    Option.bind_some]
  rw [knownMember, if_pos (List.contains_iff_mem.mpr hname), hread rest hrest]
  rfl

variable {fields : List (String × β)}

/-- Among fields with different names, one bears a given name. -/
theorem filter_name_eq {f : String × β} (hnames : (fields.map (·.1)).Nodup) (hf : f ∈ fields) :
    fields.filter (·.1 = f.1) = [f] := by
  induction fields with
  | nil => contradiction
  | cons g gs ih =>
      obtain ⟨hfresh, hnames⟩ := List.nodup_cons.mp hnames
      obtain rfl | hf := List.mem_cons.mp hf
      · have hnone : gs.filter (·.1 = f.1) = [] := by
          rw [List.filter_eq_nil_iff]
          intro e he heq
          exact hfresh (List.mem_map.mpr ⟨e, he, of_decide_eq_true heq⟩)
        rw [List.filter_cons_of_pos (by simp), hnone]
      · have hne : g.1 ≠ f.1 := fun heq => hfresh (List.mem_map.mpr ⟨f, hf, heq.symm⟩)
        rw [List.filter_cons_of_neg (by simpa using hne), ih hnames hf]

/-- The values of members whose names differ. -/
theorem mapM_only? (hnames : (fields.map (·.1)).Nodup) :
    ((fields.map (·.1)).mapM fun name => only? name (fields.map fun f => (f.1, some f.2))) =
      some (fields.map (·.2)) := by
  have honly : ∀ f ∈ fields, only? f.1 (fields.map fun f => (f.1, some f.2)) = some f.2 := by
    intro f hf
    have hfilter :
        (fields.map fun f => (f.1, some f.2)).filter (·.1 = f.1) = [(f.1, some f.2)] := by
      rw [List.filter_map]
      exact congrArg (List.map _) (filter_name_eq hnames hf)
    rw [only?, hfilter]
  have hsub (gs : List (String × β)) (hgs : gs ⊆ fields) :
      ((gs.map (·.1)).mapM fun name => only? name (fields.map fun f => (f.1, some f.2))) =
        some (gs.map (·.2)) := by
    induction gs with
    | nil => rfl
    | cons g gs ih =>
        obtain ⟨hg, hgs⟩ := List.cons_subset.mp hgs
        rw [List.map_cons, List.mapM_cons, honly g hg, ih hgs]
        rfl
  exact hsub fields (List.Subset.refl _)

/-- A record is read back from the object that it is written as, if each of its fields is. -/
theorem record_chars (hne : fields ≠ []) (hnames : (fields.map (·.1)).Nodup) {field : Reader β}
    {toJson : β → Json} (hread : ∀ f ∈ fields, ReadsBack field (fun b => chars (toJson b)) f.2)
    (rest : List Char) :
    record (fields.map (·.1)) field (chars (.obj (fields.map fun f => (f.1, toJson f.2))) ++ rest) =
      some (fields.map (·.2), rest) := by
  obtain ⟨f, fs, rfl⟩ := List.exists_cons_of_ne_nil hne
  let known : Reader (String × Option β) := memberWith (knownMember ((f :: fs).map (·.1)) field)
  let text (m : String × Option β) : List Char := memberText (m.1, (m.2.map toJson).getD .null)
  have hmember : ∀ m ∈ (f :: fs).map (fun f => (f.1, some f.2)), ReadsBack known text m := by
    intro m hm rest hrest
    obtain ⟨g, hg, rfl⟩ := List.mem_map.mp hm
    have hname : g.1 ∈ (f :: fs).map (·.1) := List.mem_map_of_mem hg
    exact memberWith_knownMember hname (hread g hg) hrest
  have hstart : ∃ c cs, text (f.1, some f.2) = c :: cs ∧ isSpace c = false ∧ c ≠ '\x7d' :=
    ⟨'"', _, rfl, rfl, by decide⟩
  have hmembers : members (knownMember ((f :: fs).map (·.1)) field)
      ('\x7b' :: (text (f.1, some f.2) ++
        (tailChars text '\x7d' (fs.map fun f => (f.1, some f.2)) ++ rest))) =
      some ((f :: fs).map fun f => (f.1, some f.2), rest) :=
    bracketed_tailChars text encloses_object hstart hmember rest
  have htext : chars (.obj ((f :: fs).map fun f => (f.1, toJson f.2))) ++ rest =
      '\x7b' :: (text (f.1, some f.2) ++
        (tailChars text '\x7d' (fs.map fun f => (f.1, some f.2)) ++ rest)) := by
    rw [List.map_cons, chars, memberChars_eq, tailChars_map, tailChars_map]
    simp only [text, memberText, List.cons_append, List.append_assoc, Option.map_some,
      Option.getD_some]
  rw [htext, record, skipSpace_cons rfl]
  split
  · next heq => exact absurd (List.cons.inj heq).1 (by decide)
  · rw [hmembers, Option.bind_eq_bind, Option.bind_some]
    simp only [mapM_only? hnames, Option.bind_eq_bind, Option.bind_some]
    rfl

end Json.Reader

/-! ## Keys and sets of keys -/

open Json.Reader

/-- The fields of a public key with their names. -/
def Jwk.fields (k : Jwk) : List (String × String) :=
  Jwk.fieldNames.zip [k.kty, k.keyUse, k.alg, k.kid, k.n, k.e]

theorem Jwk.toJson_eq (k : Jwk) : k.toJson = .obj (k.fields.map fun f => (f.1, .str f.2)) := rfl

/-- A written key is read back. -/
theorem readsBack_jwk (k : Jwk) : ReadsBack jwk (fun k => k.toJson.chars) k := by
  intro rest _
  have hnodup : (k.fields.map (·.1)).Nodup := by
    show Jwk.fieldNames.Nodup
    decide
  have hread :
      record Jwk.fieldNames string (k.toJson.chars ++ rest) = some (k.fields.map (·.2), rest) := by
    rw [Jwk.toJson_eq]
    exact record_chars (List.cons_ne_nil _ _) hnodup (fun f _ rest _ => string_stringChars f.2 rest)
      rest
  rw [jwk, hread, Option.bind_eq_bind, Option.bind_some]
  rfl

/-- Every set of keys is read back from its text. -/
theorem JwkSet.parse_render (s : JwkSet) : parse s.toJson.render = .ok s := by
  have hstart (k : Jwk) : ∃ c cs, k.toJson.chars = c :: cs ∧ isSpace c = false ∧ c ≠ ']' := by
    rw [Jwk.toJson, Json.chars]
    exact ⟨_, _, rfl, rfl, by decide⟩
  have helements :
      ReadsBack (elements jwk) (fun ks => Json.chars (.arr (ks.map Jwk.toJson))) s.keys :=
    elements_chars (fun k _ => hstart k) fun k _ => readsBack_jwk k
  have hfields : ∀ f ∈ [("keys", s.keys)],
      ReadsBack (elements jwk) (fun ks => Json.chars (.arr (ks.map Jwk.toJson))) f.2 := by
    intro f hf
    rw [List.mem_singleton.mp hf]
    exact helements
  have hread := record_chars (List.cons_ne_nil _ _) (by simp) hfields []
  simp only [List.map_cons, List.map_nil, List.append_nil] at hread
  rw [parse, whole, Json.render, String.toList_ofList, toJson, jwkSet, hread]
  rfl

/-- A key among others with other identifiers is found under its own. -/
theorem JwkSet.find?_id {keys : List Key} (hids : (keys.map Key.id).Nodup) {k : Key}
    (hk : k ∈ keys) : (ofKeys keys).find? k.id = some k.publicJwk := by
  rw [find?_ofKeys]
  cases hfound : keys.find? (·.id = k.id) with
  | none => exact absurd (decide_eq_true rfl) (List.find?_eq_none.mp hfound k hk)
  | some k' =>
      have hid : k'.id = k.id := by simpa using List.find?_some hfound
      rw [List.inj_on_of_nodup_map hids (List.mem_of_find?_eq_some hfound) hk hid]
      rfl

/-- What a published key says about a key: its identifier and its numbers. -/
def Jwk.Names (jwk : Jwk) (k : Key) : Prop :=
  jwk.kid = k.id ∧ jwk.numbers = .ok (k.secret.modulus, k.secret.publicExponent)

/-- The public half of a key names it. -/
theorem Key.names_publicJwk (k : Key) : k.publicJwk.Names k := ⟨rfl, k.numbers_publicJwk⟩

/-- Every set of keys is read back from its text and then finds the same keys. The set of a list of
keys lists each of them in order, and if their identifiers differ each is found under its own, with
its numbers. -/
theorem JwkSet.parse_render_and_find? :
    (∀ s : JwkSet, ∃ t, parse s.toJson.render = .ok t ∧ t = s ∧ ∀ kid, t.find? kid = s.find? kid) ∧
      ∀ keys : List Key, keys.Forall₂ (fun k jwk => jwk.Names k) (ofKeys keys).keys ∧
        ((keys.map Key.id).Nodup →
          ∀ k ∈ keys, ∃ jwk, (ofKeys keys).find? k.id = some jwk ∧ jwk.Names k) := by
  refine ⟨fun s => ⟨s, parse_render s, rfl, fun _ => rfl⟩, fun keys => ⟨?_, fun hids k hk => ?_⟩⟩
  · rw [ofKeys, List.forall₂_map_right_iff, List.forall₂_same]
    exact fun k _ => k.names_publicJwk
  · exact ⟨k.publicJwk, find?_id hids hk, k.names_publicJwk⟩

/-! ## Texts with quotes, and three keys -/

/-- A public key whose members hold quotes, backslashes, control characters and letters beyond
ASCII. -/
def quotedJwk : Jwk where
  kty := "\"RSA\""
  keyUse := "\\u0041"
  alg := "\x00\n\x7f"
  kid := "\u00e9\u4e2d"
  n := ""
  e := "\x7b\"e\":[]\x7d"

/-- A set with two entries of one name in quotes and beyond ASCII, and a set of three keys. -/
theorem JwkSet.parse_render_and_find?_threeKeys :
    (∃ t, parse (toJson ⟨[quotedJwk, quotedJwk]⟩).render = .ok t ∧
      t.find? "\u00e9\u4e2d" = some quotedJwk) ∧
      (Token.threeKeys.map Key.id).Nodup ∧
      ∃ jwk, (ofKeys Token.threeKeys).find? Key.mersenne257.id = some jwk ∧
      jwk.Names Key.mersenne257 := by
  obtain ⟨hread, hfound⟩ := parse_render_and_find?
  have hids : (Token.threeKeys.map Key.id).Nodup := List.pairwise_map.mpr Token.ids_threeKeys
  have hmem : Key.mersenne257 ∈ Token.threeKeys := by simp [Token.threeKeys]
  obtain ⟨t, ht, -, hsame⟩ := hread ⟨[quotedJwk, quotedJwk]⟩
  exact ⟨⟨t, ht, (hsame _).trans (by decide)⟩, hids, (hfound _).2 hids _ hmem⟩

end Keyring
