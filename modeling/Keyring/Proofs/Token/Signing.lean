import Keyring.Proofs.Key.Sound
import Keyring.Proofs.Token.Soundness

/-! # Signed tokens are accepted

A key signs whatever claims it is given, as long as it has a document. A verifier that finds the key
judges the claims. By the default rules, claims with an unexpired time of expiry and no audience are
accepted exactly if they can be read: they do not nest too deep, the subject is no array or object,
and the time from which they are valid is none that holds something.
-/

namespace Keyring

namespace Token

variable {window : KeyWindow} {key : Key} {claims : Json} {token : String} {signature : Bytes}
  {now : Nat}

/-! ## Signing -/

/-- The byte strings of a token. -/
def Compact.ofClaims (key : Key) (claims : Json) (signature : Bytes) : Compact :=
  ⟨Utf8.encode (headerOf key).render, Utf8.encode claims.normalize.render, signature⟩

/-- What is signed of a token is its header and its claims. -/
theorem Compact.message_ofClaims (key : Key) (claims : Json) (signature : Bytes) :
    (ofClaims key claims signature).message = signedText (headerOf key) claims := by
  rw [message, ofClaims, signedText]

/-- The text of a token is what was signed, a point and the signature. -/
theorem Compact.text_ofClaims (key : Key) (claims : Json) (signature : Bytes) :
    (ofClaims key claims signature).text =
      signedText (headerOf key) claims ++ "." ++ Base64.encode .urlSafe signature := by
  rw [text, message_ofClaims, ofClaims]

/-- The current key of a window signs if it has a document and a signature for the text. -/
theorem sign_eq_ok_iff :
    sign window claims = .ok token ↔ ∃ key, window.current? = some key ∧ key.document?.isSome ∧
      ∃ signature, key.secret.sign (Utf8.encode (signedText (headerOf key) claims)) =
        .ok signature ∧
        token = (Compact.ofClaims key claims signature).text := by
  simp only [Compact.text_ofClaims]
  rw [sign]
  split
  · next hnone =>
      simp [hnone]
  · next key hcurrent =>
      rw [hcurrent, Except.bind_eq_ok_iff]
      constructor
      · rintro ⟨document, hdocument, h⟩
        refine ⟨key, rfl, Key.isSome_document?.mpr ⟨document, hdocument⟩, ?_⟩
        simp only at h
        split at h
        · next signature hsignature => exact ⟨signature, hsignature, (Except.ok.inj h).symm⟩
        · contradiction
      · rintro ⟨key', hkey, hdocument, signature, hsignature, rfl⟩
        obtain rfl := Option.some.inj hkey
        obtain ⟨document, hdocument⟩ := Key.isSome_document?.mp hdocument
        refine ⟨document, hdocument, ?_⟩
        simp only [hsignature]
        rfl

/-- A sound key signs any claims, if it has a document. -/
theorem exists_sign_iff (hcurrent : window.current? = some key) (hkey : key.IsSound)
    (claims : Json) : (∃ token, sign window claims = .ok token) ↔ key.document?.isSome := by
  simp only [sign_eq_ok_iff]
  constructor
  · rintro ⟨token, key', hkey', hdocument, -⟩
    obtain rfl := Option.some.inj (hcurrent.symm.trans hkey')
    exact hdocument
  · intro hdocument
    obtain ⟨signature, hsignature⟩ :=
      hkey.exists_sign (Utf8.encode (signedText (headerOf key) claims))
    exact ⟨_, key, hcurrent, hdocument, signature, hsignature, rfl⟩

/-- A token names the key that signed it. -/
theorem names_ofClaims (key : Key) (claims : Json) (signature : Bytes) :
    (Compact.ofClaims key claims signature).Names key.id := by
  obtain ⟨v, hv, hheader⟩ := Header.ofJson?_render (headerOf key)
  have hnamed : Header.ofJson? v = some ⟨.rs256, some key.id⟩ := by rw [hheader, headerOf]
  obtain ⟨members, hmembers, hwellFormed, halg, hkid⟩ := Header.ofJson?_eq_some_iff_named.mp hnamed
  rw [Compact.Names, Compact.ofClaims]
  refine ⟨members, ?_, hwellFormed, ?_, hkid⟩
  · rw [hv, hmembers]
  · rw [halg]
    rfl

/-- A verifier that finds a key with the same public half judges the claims, if they do not nest too
deep. -/
theorem verify_ofClaims_of_find (v : Verifier) {found : Key}
    (hbits : key.secret.modulus.log2 + 1 ≤ Rsa.maxVerifyBits) (hintegral : claims.isIntegral)
    (hsignature : key.secret.sign (Utf8.encode (signedText (headerOf key) claims)) = .ok signature)
    (hfind : window.find? key.id = some found)
    (hmodulus : found.secret.modulus = key.secret.modulus)
    (hexponent : found.secret.publicExponent = key.secret.publicExponent) :
    v.verify window now (Compact.ofClaims key claims signature).text =
      (if claims.normalize.depth ≤ Json.Reader.maxDepth then v.rules.judge now claims.normalize
        else .error .json).mapError .rejected := by
  have hid : found.id = key.id := KeyWindow.id_of_find? hfind
  have hsigned : (Compact.ofClaims key claims signature).SignedBy found := by
    constructor
    · rw [hid]
      exact names_ofClaims key claims signature
    · rw [hmodulus, hexponent, Compact.message_ofClaims, Compact.ofClaims]
      exact Rsa.isSignature_of_sign hsignature
  have hparse : Json.parseBytes? (Compact.ofClaims key claims signature).payload =
      if claims.normalize.depth ≤ Json.Reader.maxDepth then some claims.normalize else none := by
    rw [Compact.ofClaims]
    exact Json.parseBytes?_encode_render (Json.isIntegral_normalize hintegral)
  rw [← hid] at hfind
  rw [← hmodulus] at hbits
  rw [Verifier.verify_signed hfind hbits hsigned, hparse]
  by_cases hdepth : claims.normalize.depth ≤ Json.Reader.maxDepth
  · rw [if_pos hdepth, if_pos hdepth]
  · rw [if_neg hdepth, if_neg hdepth]

/-- A verifier that finds the key judges the claims, if they do not nest too deep. -/
theorem verify_ofClaims (v : Verifier) (hkey : key.IsSound) (hintegral : claims.isIntegral)
    (hsignature : key.secret.sign (Utf8.encode (signedText (headerOf key) claims)) = .ok signature)
    (hfind : window.find? key.id = some key) :
    v.verify window now (Compact.ofClaims key claims signature).text =
      (if claims.normalize.depth ≤ Json.Reader.maxDepth then v.rules.judge now claims.normalize
        else .error .json).mapError .rejected :=
  verify_ofClaims_of_find v hkey.log2_lt hintegral hsignature hfind rfl rfl

/-! ## Reading claims -/

variable {v : Json} {members : List (String × Json)}

/-- A time cannot be read from an array or object that holds something. -/
theorem readTime_eq_none_iff : readTime v = none ↔ isInhabited v := by
  rw [readTime.eq_def]
  by_cases h : isInhabited v
  · rw [if_pos h]
    exact iff_of_true rfl h
  · rw [if_neg h]
    refine iff_of_false ?_ h
    cases v with
    | int n => by_cases hn : 0 ≤ n <;> simp [hn]
    | float x =>
        simp only
        split <;> simp
    | null | bool | str | arr | obj => simp

/-- A subject cannot be read from an array or object. -/
theorem readSubject_eq_none_iff : readSubject v = none ↔ v.depth ≠ 0 := by
  cases v <;> simp [readSubject, Json.depth]

/-- No value is refused as names: those that are none are passed over. -/
theorem exists_readNames (v : Json) : ∃ names, readNames v = some names := by
  cases v <;> exact ⟨_, rfl⟩

/-- Normalizing empties no object and no array, and fills none. -/
theorem isInhabited_normalize (v : Json) : isInhabited v.normalize = isInhabited v := by
  cases v with
  | arr items =>
      rw [Json.normalize, Json.normalizeItems_eq_map]
      cases items <;> rfl
  | obj members =>
      cases members with
      | nil => rfl
      | cons m rest =>
          have hne : Json.normalizeMembers [] (m :: rest) ≠ [] :=
            Json.normalizeMembers_ne_nil (List.cons_ne_nil _ _) rest
          obtain ⟨k, ks, hks⟩ := List.exists_cons_of_ne_nil hne
          rw [Json.normalize, hks]
          rfl
  | null | bool | int | float | str => rfl

/-- A claim of a payload in normal form is that of the payload. -/
theorem claimOf_normalize {α : Type} (read : Json → Option (Claim α)) (name : String)
    (members : List (String × Json)) :
    Claims.claimOf read name (Json.normalizeMembers [] members) =
      match (Json.obj members).member? name with
      | none => some .absent
      | some v => read v.normalize := by
  rw [Claims.claimOf, Header.valuesOf_normalizeMembers List.Pairwise.nil]
  cases (Json.obj members).member? name <;> rfl

/-- A claim of normalized members cannot be read exactly if there is one that cannot. -/
theorem claimOf_normalize_eq_none_iff {α : Type} {read : Json → Option (Claim α)} {name : String} :
    Claims.claimOf read name (Json.normalizeMembers [] members) = none ↔
      ∃ v ∈ (Json.obj members).member? name, read v.normalize = none := by
  rw [claimOf_normalize]
  cases (Json.obj members).member? name <;> simp

/-- The subject of claims is no array or object, and the time from which they are valid is none that
holds something. Of such claims the text can be read on after either. -/
def IsLegible (claims : Json) : Prop :=
  (∀ v ∈ claims.member? "sub", v.depth = 0) ∧ ∀ v ∈ claims.member? "nbf", ¬ isInhabited v

/-- Either part of a text that is not legible cannot be read. -/
theorem isLegible_iff :
    IsLegible (.obj members) ↔
      Claims.claimOf readSubject "sub" (Json.normalizeMembers [] members) ≠ none ∧
      Claims.claimOf readTime "nbf" (Json.normalizeMembers [] members) ≠ none := by
  have hsubject : Claims.claimOf readSubject "sub" (Json.normalizeMembers [] members) = none ↔
      ∃ v ∈ (Json.obj members).member? "sub", v.depth ≠ 0 := by
    rw [claimOf_normalize_eq_none_iff]
    simp only [readSubject_eq_none_iff, ne_eq, Json.depth_normalize_eq_zero]
  have hnotBefore : Claims.claimOf readTime "nbf" (Json.normalizeMembers [] members) = none ↔
      ∃ v ∈ (Json.obj members).member? "nbf", isInhabited v := by
    rw [claimOf_normalize_eq_none_iff]
    simp only [readTime_eq_none_iff, isInhabited_normalize]
  rw [IsLegible, ne_eq, ne_eq, hsubject, hnotBefore]
  simp only [not_exists, not_and, ne_eq, not_not]

/-- Claims with a time of expiry and without an audience can be read if they are legible. -/
theorem ofJson?_normalize {t : Nat} (hexp : (Json.obj members).member? "exp" = some (.int t))
    (haud : (Json.obj members).member? "aud" = none) :
    (IsLegible (.obj members) → ∃ known, Claims.ofJson? (Json.obj members).normalize = some known ∧
      known.expiry = .stated t ∧ known.audience = .absent) ∧
    (¬ IsLegible (.obj members) → Claims.ofJson? (Json.obj members).normalize = none) := by
  have hexpiry :
      Claims.claimOf readTime "exp" (Json.normalizeMembers [] members) = some (.stated t) := by
    rw [claimOf_normalize, hexp]
    simp [Json.normalize, readTime, isInhabited]
  have haudience :
      Claims.claimOf readNames "aud" (Json.normalizeMembers [] members) = some .absent := by
    rw [claimOf_normalize, haud]
  obtain ⟨issuers, hissuers⟩ :
      ∃ issuers, Claims.claimOf readNames "iss" (Json.normalizeMembers [] members) =
        some issuers := by
    rw [claimOf_normalize]
    cases (Json.obj members).member? "iss" with
    | none => exact ⟨_, rfl⟩
    | some v => exact exists_readNames v.normalize
  rw [isLegible_iff, Json.normalize, Claims.ofJson?, Claims.ofMembers?, hexpiry, haudience,
    hissuers]
  constructor
  · rintro ⟨hsubject, hnotBefore⟩
    obtain ⟨subject, hsubject⟩ := Option.ne_none_iff_exists'.mp hsubject
    obtain ⟨notBefore, hnotBefore⟩ := Option.ne_none_iff_exists'.mp hnotBefore
    rw [hsubject, hnotBefore]
    exact ⟨_, rfl, rfl, rfl⟩
  · intro hillegible
    cases hnotBefore : Claims.claimOf readTime "nbf" (Json.normalizeMembers [] members) with
    | none => rfl
    | some notBefore =>
        cases hsubject : Claims.claimOf readSubject "sub" (Json.normalizeMembers [] members) with
        | none => rfl
        | some subject =>
            rw [hsubject, hnotBefore] at hillegible
            exact absurd ⟨by simp, by simp⟩ hillegible

/-! ## The default rules -/

/-- Claims that expire are accepted by the default rules until a minute after that. -/
theorem check_default {t : Nat} {known : Claims} (hexpiry : known.expiry = .stated t)
    (ht : now ≤ t + 60) (haudience : known.audience = .absent) :
    Verifier.default.rules.check now known = .ok () := by
  have hrules : Verifier.default.rules = {} := rfl
  have hrequired : Rules.checkRequired {} known = .ok () := by
    simp [Rules.checkRequired, Claims.makes, hexpiry, Claim.said?]
  have hexpired : Rules.checkExpiry {} now known = .ok () := by
    rw [Rules.checkExpiry, if_pos rfl, hexpiry]
    simp only
    rw [if_neg (by omega)]
  have hsubject : Rules.checkSubject {} known = .ok () := by
    rw [Rules.checkSubject]
    cases known.subject <;> rfl
  have hissuers : Rules.checkIssuers {} known = .ok () := by
    rw [Rules.checkIssuers]
    cases known.issuers <;> rfl
  have haud : Rules.checkAudience {} known = .ok () := by
    rw [Rules.checkAudience, if_pos rfl, haudience]
  rw [hrules, Rules.check, hrequired]
  show (do
    Rules.checkExpiry {} now known
    Rules.checkNotBefore {} now known
    Rules.checkSubject {} known
    Rules.checkIssuers {} known
    Rules.checkAudience {} known) = _
  rw [hexpired, hsubject, hissuers, haud]
  rfl

/-- The claims are an object, whose numbers are integers of 64 bits, with a time of expiry that is
not past by more than a minute and without an audience. -/
structure Lasting (claims : Json) (now : Nat) : Prop where
  isObject : ∃ members, claims = .obj members
  isIntegral : claims.isIntegral
  unexpired : ∃ t : Nat, claims.member? "exp" = some (.int t) ∧ now ≤ t + 60
  noAudience : claims.member? "aud" = none

/-- What the default rules make of lasting claims. -/
theorem judge_default (h : Lasting claims now) :
    (IsLegible claims → Verifier.default.rules.judge now claims.normalize = .ok claims.normalize) ∧
    (¬ IsLegible claims → Verifier.default.rules.judge now claims.normalize = .error .json) := by
  obtain ⟨⟨members, rfl⟩, -, ⟨t, hexp, ht⟩, haud⟩ := h
  obtain ⟨hread, hunread⟩ := ofJson?_normalize hexp haud
  constructor
  · intro hlegible
    obtain ⟨known, hknown, hexpiry, haudience⟩ := hread hlegible
    rw [Rules.judge, hknown]
    simp only [check_default hexpiry ht haudience]
    exact congrArg Except.ok (Json.normalize_normalize _)
  · intro hillegible
    rw [Rules.judge, hunread hillegible]

end Token

end Keyring
