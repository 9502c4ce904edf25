import Keyring.Proofs.KeyWindow
import Keyring.Proofs.Rsa.Signature
import Keyring.Proofs.Token.Header
import Keyring.Proofs.Token.Parts

/-! # Verification is sound

A token is accepted exactly if it is the text of three byte strings of which the first is a header
that names the algorithm and a key of the window, the last is that key's own signature of the text
before it, and the middle one holds claims that the rules permit. Which algorithms the rules name
makes no difference.
-/

namespace Keyring

/-! ## Published keys -/

/-- The numbers of a key are read back from its published half. -/
theorem Key.numbers_publicJwk (k : Key) :
    k.publicJwk.numbers = .ok (k.secret.modulus, k.secret.publicExponent) := by
  rw [Jwk.numbers, publicJwk, modulusText, exponentText, encodeNat, encodeNat, Base64.decode_encode,
    Base64.decode_encode]
  show Except.ok (Bytes.toNat (Bytes.ofNat _), Bytes.toNat (Bytes.ofNat _)) = _
  rw [Bytes.toNat_ofNat, Bytes.toNat_ofNat]

/-- The published half of a key is found where the key is. -/
theorem JwkSet.find?_ofKeys (keys : List Key) (kid : String) :
    (ofKeys keys).find? kid = (keys.find? (·.id = kid)).map Key.publicJwk := by
  have hname : ((fun jwk : Jwk => decide (jwk.kid = kid)) ∘ Key.publicJwk) =
      fun k => decide (k.id = kid) := by
    funext k
    rw [Function.comp_apply, Key.publicJwk]
  rw [ofKeys, find?, List.find?_map, hname]

/-- The published set of a window names the keys that the window holds. -/
theorem KeyWindow.find?_jwks (w : KeyWindow) (kid : String) :
    w.jwks.find? kid = (w.find? kid).map Key.publicJwk :=
  JwkSet.find?_ofKeys w.toList kid

theorem KeyWindow.id_of_find? {w : KeyWindow} {kid : String} {key : Key}
    (h : w.find? kid = some key) : key.id = kid :=
  of_decide_eq_true (List.find?_some (p := fun k => decide (Key.id k = kid)) h)

namespace Token

variable {window : KeyWindow} {now : Nat} {token : String} {claims : Json}

/-! ## Signed tokens -/

/-- The header names the algorithm of all signatures and a key, each once. -/
def Compact.Names (c : Compact) (kid : String) : Prop :=
  ∃ members, Json.parseBytes? c.header = some (.obj members) ∧ Header.WellFormed members ∧
    Header.valuesOf "alg" members = [.str signingAlgorithm] ∧
    Header.valuesOf "kid" members = [.str kid]

/-- The header names the key, and the key signed the text of header and payload. -/
structure Compact.SignedBy (c : Compact) (key : Key) : Prop where
  names : c.Names key.id
  signature : Rsa.IsSignature key.secret.modulus key.secret.publicExponent
    (Utf8.encode c.message) c.signature

/-- What becomes of a payload under rules. -/
def Rules.judge (r : Rules) (now : Nat) (payload : Json) : Except Refusal Json :=
  match Claims.ofJson? payload with
  | none => .error .json
  | some known => do
    r.check now known
    return payload.normalize

/-- The claims with a meaning can be read, and none of them breaks a rule. -/
def Rules.Permits (r : Rules) (now : Nat) (payload : Json) : Prop :=
  ∃ known, Claims.ofJson? payload = some known ∧ r.check now known = .ok ()

/-- Claims pass exactly if the rules permit them, and they come out in order. -/
theorem Rules.judge_eq_ok_iff {r : Rules} {payload : Json} :
    r.judge now payload = .ok claims ↔ r.Permits now payload ∧ claims = payload.normalize := by
  rw [judge, Permits]
  split
  · next hnone =>
      simp [hnone]
  · next known hknown =>
      rw [hknown, Except.bind_eq_ok_iff]
      constructor
      · rintro ⟨u, hcheck, h⟩
        exact ⟨⟨known, rfl, hcheck⟩, (Except.ok.inj h).symm⟩
      · rintro ⟨⟨known', hsame, hcheck⟩, rfl⟩
        obtain rfl := Option.some.inj hsame
        exact ⟨(), hcheck, rfl⟩

/-- A key of the window, of at most 4096 bits, signed the token, whose payload holds claims that the
rules permit. -/
def Vouched (r : Rules) (window : KeyWindow) (now : Nat) (token : String) (claims : Json) : Prop :=
  ∃ (c : Compact) (key : Key) (payload : Json), token = c.text ∧
    window.find? key.id = some key ∧ key.secret.modulus.log2 + 1 ≤ Rsa.maxVerifyBits ∧
    c.SignedBy key ∧
    Json.parseBytes? c.payload = some payload ∧ r.Permits now payload ∧ claims = payload.normalize

namespace Verifier

variable {v : Verifier} {parts : Parts} {key : Key} {c : Compact} {kid : String}

/-! ## Headers -/

/-- The header of a token is read as naming a key exactly if it does. -/
theorem readHeader_text :
    Parts.readHeader c.text = .ok (c.parts, ⟨.rs256, some kid⟩) ↔ c.Names kid := by
  rw [Parts.readHeader_eq_ok_iff, and_iff_right (Compact.ofToken?_eq_some_iff.mpr rfl),
    Compact.Names]
  constructor
  · rintro ⟨bs, w, hbs, hw, hheader⟩
    obtain ⟨members, rfl, hnames⟩ := Header.ofJson?_eq_some_iff_named.mp hheader
    have hread := Base64.decode_encode .urlSafe bs
    rw [← hbs, Compact.parts, Base64.decode_encode] at hread
    rw [Except.ok.inj hread]
    exact ⟨members, hw, hnames⟩
  · rintro ⟨members, hw, hnames⟩
    exact ⟨c.header, _, rfl, hw, Header.ofJson?_eq_some_iff_named.mpr ⟨members, rfl, hnames⟩⟩

/-- A token whose header names a key is decided by the key of that name. -/
theorem verify_of_readHeader {algorithm : Algorithm}
    (h : Parts.readHeader token = .ok (parts, ⟨algorithm, some kid⟩)) :
    v.verify window now token = match window.find? kid with
      | none => .error (.unknownKey kid)
      | some key => (v.accept now key.secret.modulus key.secret.publicExponent parts
          ⟨algorithm, some kid⟩).mapError .rejected := by
  rw [verify, h]
  simp only [Except.mapError, bind, Except.bind, KeyWindow.find?_jwks]
  cases window.find? kid with
  | none => rfl
  | some key =>
      simp only [Option.map_some, Key.numbers_publicJwk]
      rfl

/-! ## Signatures and claims -/

theorem algorithms_contains {algorithm : Algorithm} :
    (!v.rules.algorithms.contains algorithm) = true ↔ algorithm ≠ .rs256 := by
  rw [v.algorithms_eq]
  simp

/-- Whoever passes the checks of signature and claims has a signature by the only algorithm. -/
theorem of_accept {modulus exponent : Nat} {header : Header}
    (h : v.accept now modulus exponent parts header = .ok claims) :
    header.algorithm = .rs256 ∧ ∃ signature payload,
      parts.signature = Base64.encode .urlSafe signature ∧
      parts.payload = Base64.encode .urlSafe payload ∧ modulus.log2 + 1 ≤ Rsa.maxVerifyBits ∧
      Rsa.IsSignature modulus exponent (Utf8.encode parts.message) signature := by
  rw [accept, Except.check_eq_ok_iff, algorithms_contains, not_not] at h
  obtain ⟨halgorithm, h⟩ := h
  obtain ⟨signature, hsignature, h⟩ := Except.bind_eq_ok_iff.mp h
  rw [Except.check_eq_ok_iff] at h
  obtain ⟨hvalid, h⟩ := h
  obtain ⟨w, hpayload, -⟩ := Except.bind_eq_ok_iff.mp h
  obtain ⟨payload, hpayload, -⟩ := Parts.decodeJson_eq_ok_iff.mp hpayload
  exact ⟨halgorithm, signature, payload, Parts.decode_eq_ok_iff.mp hsignature, hpayload,
    Rsa.verify_iff.mp (by simpa using hvalid)⟩

/-- What is signed is judged by its payload. -/
theorem accept_signed {modulus exponent : Nat} (hbits : modulus.log2 + 1 ≤ Rsa.maxVerifyBits)
    (hsigned : Rsa.IsSignature modulus exponent (Utf8.encode c.message) c.signature) :
    v.accept now modulus exponent c.parts ⟨.rs256, some kid⟩ = match Json.parseBytes? c.payload with
      | some payload => v.rules.judge now payload
      | none => .error .json := by
  have hvalid : Rsa.verify modulus exponent (Utf8.encode c.parts.message) c.signature :=
    Rsa.verify_iff.mpr ⟨hbits, hsigned⟩
  have hsignature : Parts.decode c.parts.signature = .ok c.signature :=
    Parts.decode_eq_ok_iff.mpr rfl
  have hpayload : Parts.decode c.parts.payload = .ok c.payload := Parts.decode_eq_ok_iff.mpr rfl
  rw [accept, if_neg (by rw [algorithms_contains]; simp), hsignature]
  show (if (!Rsa.verify modulus exponent (Utf8.encode c.parts.message) c.signature) = true then _
    else _) = _
  rw [hvalid, if_neg (by decide), Parts.decodeJson, hpayload]
  show ((match Json.parseBytes? c.payload with
      | some w => Except.ok w
      | none => Except.error Refusal.json) >>= v.rules.judge now) = _
  cases Json.parseBytes? c.payload with
  | none => rfl
  | some payload => rfl

/-- The token of a key in the window is judged by its payload. -/
theorem verify_signed (hfind : window.find? key.id = some key)
    (hbits : key.secret.modulus.log2 + 1 ≤ Rsa.maxVerifyBits) (hsigned : c.SignedBy key) :
    v.verify window now c.text = (match Json.parseBytes? c.payload with
      | some payload => v.rules.judge now payload
      | none => .error .json).mapError .rejected := by
  rw [verify_of_readHeader (readHeader_text.mpr hsigned.names), hfind]
  simp only
  rw [accept_signed hbits hsigned.signature]

/-- Exactly the tokens that a key of the window vouches for are accepted. -/
theorem verify_eq_ok_iff :
    v.verify window now token = .ok claims ↔ Vouched v.rules window now token claims := by
  constructor
  · intro h
    obtain ⟨⟨parts, ⟨algorithm, keyId⟩⟩, hread, hverdict⟩ := Except.bind_eq_ok_iff.mp h
    rw [Except.mapError_eq_ok_iff] at hread
    cases keyId with
    | none => contradiction
    | some kid =>
        rw [verify_of_readHeader hread] at h
        split at h
        · contradiction
        · next key hfind =>
            rw [Except.mapError_eq_ok_iff] at h
            obtain ⟨rfl, signature, payload, hsignature, hpayload, hbits, hvalid⟩ := of_accept h
            obtain ⟨hparts, header, -, hheader, -⟩ := Parts.readHeader_eq_ok_iff.mp hread
            -- The three parts are the texts of three byte strings.
            obtain ⟨c, rfl, rfl⟩ : ∃ c : Compact, parts = c.parts ∧ c.signature = signature := by
              refine ⟨⟨header, payload, signature⟩, ?_, rfl⟩
              rw [Compact.parts, ← hheader, ← hpayload, ← hsignature]
            obtain rfl := Compact.ofToken?_eq_some_iff.mp hparts
            obtain rfl := KeyWindow.id_of_find? hfind
            rw [accept_signed hbits hvalid] at h
            split at h
            · next w hparse =>
                obtain ⟨hpermits, hclaims⟩ := Rules.judge_eq_ok_iff.mp h
                exact ⟨c, key, w, rfl, hfind, hbits, ⟨readHeader_text.mp hread, hvalid⟩, hparse,
                  hpermits, hclaims⟩
            · contradiction
  · rintro ⟨c, key, payload, rfl, hfind, hbits, hsigned, hparse, hpermits, rfl⟩
    rw [verify_signed hfind hbits hsigned, hparse, Except.mapError_eq_ok_iff]
    exact Rules.judge_eq_ok_iff.mpr ⟨hpermits, rfl⟩

/-- Under any rules, exactly the tokens that a key of the window vouches for are accepted, whatever
algorithms the rules name, and every other token is refused with a token error. -/
theorem accepts_iff_vouched (rules : Rules) (window : KeyWindow) (now : Nat) (token : String) :
    (∀ claims, ((ofRules rules).verify window now token).mapError Fault.error = .ok claims ↔
      Vouched rules window now token claims) ∧
    ((∃ e, ((ofRules rules).verify window now token).mapError Fault.error = .error e ∧
      e.kind = .token) ↔
      ∀ claims, ¬ Vouched rules window now token claims) := by
  have haccepted : ∀ claims, (ofRules rules).verify window now token = .ok claims ↔
      Vouched rules window now token claims := fun _ => verify_eq_ok_iff
  constructor
  · intro claims
    rw [Except.mapError_eq_ok_iff, haccepted]
  · have hkind : ∀ fault : Fault, fault.error.kind = .token := fun _ => rfl
    rw [Except.exists_mapError_eq_error_iff hkind]
    simp only [haccepted]

end Verifier

end Token

end Keyring
