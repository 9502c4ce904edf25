import Keyring.Proofs.Token.Signing

/-! # How long tokens are accepted

A token is accepted as long as the key that signed it is in the window, which the second
installation of a key after its own ends. From then on its name is unknown. That holds of claims
whose text can be read back; the text of others is refused from the start.
-/

namespace Keyring.Token

variable {keys : List Key} {claims : Json} {token : String} {now : Nat}

/-- Claims whose text is read back: they nest no deeper than the reader allows, and they are
legible. -/
def IsReadable (claims : Json) : Prop :=
  claims.normalize.depth ≤ Json.Reader.maxDepth ∧ IsLegible claims

/-- The last key that was rotated in is the current one. -/
theorem current?_take {i : Nat} (hi : i < keys.length) :
    (KeyWindow.after (keys.take (i + 1))).current? = some keys[i] := by
  rw [KeyWindow.current?_after, List.getLast?_take]
  simp [hi]

/-- A token that the key of a place in the row signed. -/
theorem sign_after {i : Nat} (hi : i < keys.length)
    (hsign : sign (KeyWindow.after (keys.take (i + 1))) claims = .ok token) :
    ∃ signature, keys[i].secret.sign (Utf8.encode (signedText (headerOf keys[i]) claims)) =
      .ok signature ∧
      token = (Compact.ofClaims keys[i] claims signature).text := by
  obtain ⟨key, hkey, -, signature, hsignature, htoken⟩ := sign_eq_ok_iff.mp hsign
  obtain rfl := Option.some.inj ((current?_take hi).symm.trans hkey)
  exact ⟨signature, hsignature, htoken⟩

/-- The key of a place in the row is found under its name as long as at most one key was installed
after it, and no key is from then on. -/
theorem find?_after (hids : keys.Pairwise fun a b => a.id ≠ b.id) {i : Nat} (hi : i < keys.length) :
    (KeyWindow.after keys).find? keys[i].id =
      if keys.length ≤ i + 2 then some keys[i] else none := by
  split
  · next hlast =>
      apply KeyWindow.find?_of_mem
      · rw [KeyWindow.toList_after]
        exact hids.sublist (List.drop_sublist _ _)
      · rw [KeyWindow.toList_after, List.mem_drop_iff_getElem]
        exact ⟨i - (keys.length - 2), by omega, by congr 1; omega⟩
  · next hgone =>
      rw [KeyWindow.find?, List.find?_eq_none, KeyWindow.toList_after]
      intro key hkey
      obtain ⟨j, hj, rfl⟩ := List.mem_drop_iff_getElem.mp hkey
      have hne := List.pairwise_iff_getElem.mp hids i (keys.length - 2 + j) hi (by omega) (by omega)
      rw [decide_eq_true_eq]
      exact hne.symm

/-! ## Lifetime -/

/-- What a verifier by the default rules answers after the keys were installed in turn. -/
def answer (keys : List Key) (now : Nat) (token : String) : Except Error Json :=
  (Verifier.default.verify (.after keys) now token).mapError Fault.error

/-- A token whose key is in the window yet is accepted if its claims can be read. -/
theorem answer_of_kept (hsound : ∀ key ∈ keys, key.IsSound)
    (hids : keys.Pairwise fun a b => a.id ≠ b.id) {i : Nat} (hi : i < keys.length)
    (hsign : sign (.after (keys.take (i + 1))) claims = .ok token) (hkept : keys.length ≤ i + 2)
    (hlasting : Lasting claims now) :
    (IsReadable claims → answer keys now token = .ok claims.normalize) ∧
    (¬ IsReadable claims → answer keys now token = .error
      (.plain .token "Token rejected: JSON error")) := by
  obtain ⟨signature, hsignature, rfl⟩ := sign_after hi hsign
  have hfind : (KeyWindow.after keys).find? keys[i].id = some keys[i] := by
    rw [find?_after hids hi, if_pos hkept]
  obtain ⟨hlegible, hillegible⟩ := judge_default hlasting
  rw [answer,
    verify_ofClaims _ (hsound _ (List.getElem_mem hi)) hlasting.isIntegral hsignature hfind]
  constructor
  · rintro ⟨hdepth, hclaims⟩
    rw [if_pos hdepth, hlegible hclaims]
    rfl
  · intro hunreadable
    split
    · next hdepth =>
        rw [hillegible fun hclaims => hunreadable ⟨hdepth, hclaims⟩]
        rfl
    · rfl

/-- A token whose key has left the window is refused under its name. -/
theorem answer_of_gone (hids : keys.Pairwise fun a b => a.id ≠ b.id) {i : Nat}
    (hi : i < keys.length) (hsign : sign (.after (keys.take (i + 1))) claims = .ok token)
    (hgone : i + 2 < keys.length) :
    answer keys now token = .error (.plain .token ("Unknown key id: " ++ keys[i].id)) := by
  obtain ⟨signature, -, rfl⟩ := sign_after hi hsign
  have hfind : (KeyWindow.after keys).find? keys[i].id = none := by
    rw [find?_after hids hi, if_neg (by omega)]
  rw [answer, Verifier.verify_of_readHeader
    (Verifier.readHeader_text.mpr (names_ofClaims _ claims signature)), hfind]
  rfl

/-- A token is accepted with the claims that were signed as long as at most one key was installed
after the key that signed it, provided that the claims can be read; then its key is unknown. A key
signs any claims if it has a document, and without a key nothing is signed. -/
theorem lifetime (hsound : ∀ key ∈ keys, key.IsSound)
    (hids : keys.Pairwise fun a b => a.id ≠ b.id) :
    (∀ claims, sign (.after []) claims = .error (.plain .token "No signing key available")) ∧
    ∀ (i : Nat) (hi : i < keys.length) (claims : Json),
      ((∃ token, sign (.after (keys.take (i + 1))) claims = .ok token) ↔ keys[i].document?.isSome) ∧
      ∀ token, sign (.after (keys.take (i + 1))) claims = .ok token → ∀ now,
        (keys.length ≤ i + 2 → Lasting claims now →
          (IsReadable claims → answer keys now token = .ok claims.normalize) ∧
          (¬ IsReadable claims → answer keys now token = .error
            (.plain .token "Token rejected: JSON error"))) ∧
        (i + 2 < keys.length →
          answer keys now token = .error (.plain .token ("Unknown key id: " ++ keys[i].id))) := by
  refine ⟨fun _ => rfl, ?_⟩
  intro i hi claims
  refine ⟨exists_sign_iff (current?_take hi) (hsound _ (List.getElem_mem hi)) claims, ?_⟩
  intro token hsign now
  exact ⟨answer_of_kept hsound hids hi hsign, answer_of_gone hids hi hsign⟩

/-! ## Three keys installed in turn -/

/-- Three keys. -/
def threeKeys : List Key := [.mersenne13, .mersenne257, .mersenne65537]

/-- The three keys are sound. -/
theorem isSound_threeKeys : ∀ key ∈ threeKeys, key.IsSound := by
  simp only [threeKeys, List.forall_mem_cons]
  exact ⟨Key.isSound_of_mersenne Key.ofMersenne?_13, Key.isSound_of_mersenne Key.ofMersenne?_257,
    Key.isSound_of_mersenne Key.ofMersenne?_65537, by simp⟩

/-- The three keys have different names. -/
theorem ids_threeKeys : threeKeys.Pairwise fun a b => a.id ≠ b.id := by
  have hne :
      ∀ {a b : Key} {x y : UInt8}, a.digest.head? = some x → b.digest.head? = some y → x ≠ y →
      a.id ≠ b.id := by
    intro a b x y ha hb hxy
    apply Key.id_ne_of_digest_ne
    intro hdigest
    rw [hdigest, hb] at ha
    exact hxy (Option.some.inj ha).symm
  simp only [threeKeys, List.pairwise_cons, List.mem_cons, List.not_mem_nil, or_false,
    forall_eq_or_imp, forall_eq]
  obtain ⟨h13, h257, h65537⟩ := Key.head_digests
  exact ⟨⟨hne h13 h257 (by decide), hne h13 h65537 (by decide)⟩, hne h257 h65537 (by decide),
    by simp⟩

/-- The three keys can be written as documents. -/
theorem isSome_document?_threeKeys : ∀ key ∈ threeKeys, key.document?.isSome := by
  decide +kernel

/-- The key with the exponent 65537 can be written as a document. -/
theorem isSome_document?_mersenne65537 : Key.mersenne65537.document?.isSome :=
  isSome_document?_threeKeys _ (by simp [threeKeys])

/-- Claims that expire in the year 2100. -/
def claimsUntil2100 (name : String) (v : Json) : Json := .obj [("exp", .int 4102444800), (name, v)]

/-- One more claim leaves the others lasting, unless it takes the place of the expiry or names an
audience. -/
theorem lasting_claimsUntil2100 {name : String} {v : Json} (hv : v.isIntegral) (hexp : name ≠ "exp")
    (haud : name ≠ "aud") : Lasting (claimsUntil2100 name v) 0 := by
  refine ⟨⟨_, rfl⟩, ?_, ⟨4102444800, ?_, by omega⟩, ?_⟩
  · rw [claimsUntil2100, Json.isIntegral_obj]
    simp [hv, Json.isIntegral, Json.FitsWord]
  · simp [claimsUntil2100, Json.member?, hexp]
  · simp [claimsUntil2100, Json.member?, haud]

/-- Claims with a subject last and can be read. -/
theorem isReadable_claimsUntil2100 :
    Lasting (claimsUntil2100 "sub" (.str "alice")) 0 ∧
      IsReadable (claimsUntil2100 "sub" (.str "alice")) := by
  refine ⟨lasting_claimsUntil2100 rfl (by decide) (by decide), by decide, ?_, ?_⟩
  · simp [claimsUntil2100, Json.member?, Json.depth]
  · simp [claimsUntil2100, Json.member?]

/-- Of the tokens of three keys the first is refused, and the last two are accepted. -/
theorem lifetime_threeKeys :
    (∃ token, sign (.after (threeKeys.take 1)) (claimsUntil2100 "sub" (.str "alice")) = .ok token ∧
      answer threeKeys 0 token = .error (.plain .token ("Unknown key id: " ++ Key.mersenne13.id))) ∧
    (∃ token, sign (.after (threeKeys.take 2)) (claimsUntil2100 "sub" (.str "alice")) = .ok token ∧
      answer threeKeys 0 token = .ok (claimsUntil2100 "sub" (.str "alice")).normalize) ∧
    (∃ token, sign (.after (threeKeys.take 3)) (claimsUntil2100 "sub" (.str "alice")) = .ok token ∧
      answer threeKeys 0 token = .ok (claimsUntil2100 "sub" (.str "alice")).normalize) := by
  obtain ⟨hlasting, hreadable⟩ := isReadable_claimsUntil2100
  obtain ⟨-, htokens⟩ := lifetime isSound_threeKeys ids_threeKeys
  refine ⟨?_, ?_, ?_⟩
  · obtain ⟨hsigns, hverdict⟩ := htokens 0 (by decide) (claimsUntil2100 "sub" (.str "alice"))
    obtain ⟨token, hsign⟩ := hsigns.mpr (isSome_document?_threeKeys _ (List.getElem_mem _))
    have hrefused := (hverdict token hsign 0).2 (by decide)
    rw [show threeKeys[0] = Key.mersenne13 from rfl] at hrefused
    exact ⟨token, hsign, hrefused⟩
  · obtain ⟨hsigns, hverdict⟩ := htokens 1 (by decide) (claimsUntil2100 "sub" (.str "alice"))
    obtain ⟨token, hsign⟩ := hsigns.mpr (isSome_document?_threeKeys _ (List.getElem_mem _))
    exact ⟨token, hsign, ((hverdict token hsign 0).1 (by decide) hlasting).1 hreadable⟩
  · obtain ⟨hsigns, hverdict⟩ := htokens 2 (by decide) (claimsUntil2100 "sub" (.str "alice"))
    obtain ⟨token, hsign⟩ := hsigns.mpr (isSome_document?_threeKeys _ (List.getElem_mem _))
    exact ⟨token, hsign, ((hverdict token hsign 0).1 (by decide) hlasting).1 hreadable⟩

/-! ## Claims that cannot be read back -/

/-- Arrays in an array, so many levels deep. -/
def nested : Nat → Json
  | 0 => .arr []
  | levels + 1 => .arr [nested levels]

/-- Arrays in arrays hold no numbers. -/
theorem isIntegral_nested (levels : Nat) : (nested levels).isIntegral := by
  induction levels with
  | zero => rfl
  | succ levels ih =>
      rw [nested, Json.isIntegral_arr]
      intro v hv
      rwa [List.mem_singleton.mp hv]

/-- A subject that is no text cannot be read. -/
theorem not_isReadable_subject : ¬ IsReadable (claimsUntil2100 "sub" (.arr [.str "alice"])) := by
  rintro ⟨-, hsubject, -⟩
  have hdepth := hsubject (.arr [.str "alice"]) rfl
  contradiction

/-- A start that is no number cannot be read. -/
theorem not_isReadable_notBefore : ¬ IsReadable (claimsUntil2100 "nbf" (.arr [.int 0])) := by
  rintro ⟨-, -, hnotBefore⟩
  exact hnotBefore (.arr [.int 0]) rfl rfl

/-- Claims that are nested too deep cannot be read. -/
theorem not_isReadable_nested : ¬ IsReadable (claimsUntil2100 "a" (nested 126)) := by
  rintro ⟨hdepth, -⟩
  have hdeep : (claimsUntil2100 "a" (nested 126)).normalize.depth = 128 := by decide +kernel
  rw [hdeep] at hdepth
  contradiction

/-- The claims are lasting, and a key in use signs them, but its token is refused at once. -/
def RefusedAtOnce (claims : Json) : Prop :=
  Lasting claims 0 ∧ ∃ token, sign (.after [.mersenne65537]) claims = .ok token ∧
    answer [.mersenne65537] 0 token = .error (.plain .token "Token rejected: JSON error")

/-- Lasting claims that cannot be read are refused as soon as they are signed. -/
theorem refusedAtOnce_of_not_readable (hlasting : Lasting claims 0)
    (hunreadable : ¬ IsReadable claims) : RefusedAtOnce claims := by
  have hkey := Key.isSound_of_mersenne Key.ofMersenne?_65537
  have hsound : ∀ key ∈ [Key.mersenne65537], key.IsSound := by
    intro key hmem
    rwa [List.mem_singleton.mp hmem]
  have hcurrent : (KeyWindow.after [.mersenne65537]).current? = some .mersenne65537 := by
    rw [KeyWindow.current?_after, List.getLast?_singleton]
  obtain ⟨token, hsign⟩ := (exists_sign_iff hcurrent hkey claims).mpr
    isSome_document?_mersenne65537
  have hverdict := answer_of_kept hsound (List.pairwise_singleton _ _) Nat.zero_lt_one hsign
    (Nat.le_succ 1) hlasting
  exact ⟨hlasting, token, hsign, hverdict.2 hunreadable⟩

/-- A subject that is no text, a start that is no number and a nest of arrays that is too deep. -/
theorem refusedAtOnce_unreadable :
    RefusedAtOnce (claimsUntil2100 "sub" (.arr [.str "alice"])) ∧
      RefusedAtOnce (claimsUntil2100 "nbf" (.arr [.int 0])) ∧
      RefusedAtOnce (claimsUntil2100 "a" (nested 126)) := by
  refine ⟨?_, ?_, ?_⟩
  · exact refusedAtOnce_of_not_readable (lasting_claimsUntil2100 rfl (by decide) (by decide))
      not_isReadable_subject
  · exact refusedAtOnce_of_not_readable (lasting_claimsUntil2100 rfl (by decide) (by decide))
      not_isReadable_notBefore
  · exact refusedAtOnce_of_not_readable
      (lasting_claimsUntil2100 (isIntegral_nested _) (by decide) (by decide))
      not_isReadable_nested

/-- Claims with a list as their subject, claims that are valid from a list on, and claims that nest
deeper than 127 are signed but not accepted. -/
theorem not_lifetime_of_unreadable :
    Key.mersenne65537.IsSound ∧ RefusedAtOnce (claimsUntil2100 "sub" (.arr [.str "alice"])) ∧
      RefusedAtOnce (claimsUntil2100 "nbf" (.arr [.int 0])) ∧
      RefusedAtOnce (claimsUntil2100 "a" (nested 126)) :=
  ⟨Key.isSound_of_mersenne Key.ofMersenne?_65537, refusedAtOnce_unreadable⟩

end Keyring.Token
