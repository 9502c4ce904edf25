import Keyring.Proofs.Key.NormalForm
import Keyring.Proofs.Rsa.Inverse
import Keyring.Token

/-! # Which keys can be written

Of a key that is read it is checked that its factors give the modulus and that its exponents undo
each other. To be written, and so to sign, it needs more: factors without a common divisor, and a
document that is not too long. The second is true of every key from a text of moderate size. The
first may fail, as for two factors that are equal: such a key is read, but can be used for nothing.
-/

namespace Keyring.Key

variable {k : Key} {text der : Bytes}

/-- The factors have no common divisor, and the document, with the inverse of the second factor
modulo the first, is not too long. -/
structure Encodable (k : Key) : Prop where
  coprime : k.secret.p.Coprime k.secret.q
  fits : ∀ qinv < k.secret.p, k.secret.q * qinv % k.secret.p = 1 →
    (Der.integers (k.numbersWith (k.secret.privateExponent % (k.secret.p - 1))
      (k.secret.privateExponent % (k.secret.q - 1)) qinv)).length ≤ Der.maxSize

/-- The keys that have a document. -/
theorem isSome_document?_iff_encodable : k.document?.isSome ↔ k.Encodable := by
  rw [Option.isSome_iff_exists]
  simp only [document?_eq_some_iff]
  constructor
  · rintro ⟨document, qinv, hqinv, rfl, hle⟩
    rw [Rsa.PrivateKey.coefficient?] at hqinv
    refine ⟨?_, fun c hlt hone => ?_⟩
    · exact ((Rsa.isSome_inverse?_iff k.secret.one_lt_p).mp (Option.isSome_of_eq_some hqinv)).symm
    · have hc := (Rsa.inverse?_eq_some_iff k.secret.one_lt_p).mpr ⟨hlt, hone⟩
      rw [Option.some.inj (hc.symm.trans hqinv)]
      exact hle
  · rintro ⟨hcoprime, hfits⟩
    obtain ⟨qinv, hqinv⟩ :=
      Option.isSome_iff_exists.mp ((Rsa.isSome_inverse?_iff k.secret.one_lt_p).mpr hcoprime.symm)
    obtain ⟨hlt, hone⟩ := (Rsa.inverse?_eq_some_iff k.secret.one_lt_p).mp hqinv
    exact ⟨_, qinv, hqinv, rfl, hfits qinv hlt hone⟩

/-! ## Sizes -/

/-- The numbers of a key fit into as many bytes as its document has. -/
theorem lt_of_ofDer? (h : ofDer? der = some k) :
    k.secret.modulus < 256 ^ der.length ∧ k.secret.privateExponent < 256 ^ der.length ∧
      k.secret.p < 256 ^ der.length ∧ k.secret.q < 256 ^ der.length := by
  rw [ofDer?] at h
  split at h
  · contradiction
  · rw [Option.bind_eq_bind, Option.bind_eq_some_iff] at h
    obtain ⟨ns, hns, h⟩ := h
    have hlt := Der.lt_of_mem_readSequence hns
    split at h
    · next version n e d p q dp dq qinv =>
        split at h
        · rw [Option.bind_eq_bind, Option.bind_eq_some_iff] at h
          obtain ⟨s, hs, h⟩ := h
          obtain rfl := Option.some.inj h
          obtain ⟨rfl, -, rfl, rfl, rfl⟩ := ofComponents?_eq_some hs
          exact ⟨hlt _ (by simp), hlt _ (by simp), hlt _ (by simp), hlt _ (by simp)⟩
        · contradiction
    · contradiction

/-- A key that is read from a text is read from a document that is not longer. -/
theorem exists_ofDer?_of_ofPem (h : ofPem text = .ok k) :
    ∃ der, der.length ≤ text.length ∧ ofDer? der = some k := by
  rw [ofPem] at h
  split at h
  · contradiction
  · split at h
    · next k' hk =>
        obtain rfl := Except.ok.inj h
        obtain ⟨der, hder, hread⟩ := Option.bind_eq_some_iff.mp hk
        exact ⟨der, Pem.length_le_of_decode hder, hread⟩
    · contradiction

/-- Numbers below those of the key make a document that is not too long, if the key's own take at
most 32 MiB each. -/
theorem length_integers_numbersWith_le {dp dq qinv size : Nat} (hsize : size ≤ 2 ^ 25)
    (hmodulus : k.secret.modulus < 256 ^ size) (hexponent : k.secret.privateExponent < 256 ^ size)
    (hp : k.secret.p < 256 ^ size) (hq : k.secret.q < 256 ^ size)
    (hdp : dp ≤ k.secret.privateExponent) (hdq : dq ≤ k.secret.privateExponent)
    (hqinv : qinv < k.secret.p) :
    (Der.integers (k.numbersWith dp dq qinv)).length ≤ Der.maxSize := by
  have hpublic : Bytes.natSize k.secret.publicExponent ≤ 5 :=
    Bytes.natSize_le (Nat.lt_of_le_of_lt k.secret.exponent_le (by decide))
  have hzero : Bytes.natSize 0 = 0 := rfl
  have hsum :
      ((k.numbersWith dp dq qinv).map fun n => Bytes.natSize n + 8).sum ≤ 7 * size + 77 := by
    have h₁ := Bytes.natSize_le hmodulus
    have h₂ := Bytes.natSize_le hexponent
    have h₃ := Bytes.natSize_le hp
    have h₄ := Bytes.natSize_le hq
    have h₅ := Bytes.natSize_le (Nat.lt_of_le_of_lt hdp hexponent)
    have h₆ := Bytes.natSize_le (Nat.lt_of_le_of_lt hdq hexponent)
    have h₇ := Bytes.natSize_le (Nat.lt_trans hqinv hp)
    simp only [numbersWith, List.map_cons, List.map_nil, List.sum_cons, List.sum_nil, hzero]
    omega
  have hfield : 7 * 2 ^ 25 + 77 < 256 ^ 4 := by decide
  have hmax : 7 * 2 ^ 25 + 83 ≤ Der.maxSize := by decide
  calc (Der.integers (k.numbersWith dp dq qinv)).length
      ≤ ((k.numbersWith dp dq qinv).map fun n => Bytes.natSize n + 8).sum + 6 :=
        Der.length_integers_le (by omega)
    _ ≤ Der.maxSize := by omega

/-- A key from a text of at most 32 MiB has a document that is not too long. -/
theorem encodable_iff_coprime (hread : ofPem text = .ok k) (hsize : text.length ≤ 2 ^ 25) :
    k.Encodable ↔ k.secret.p.Coprime k.secret.q := by
  refine ⟨Encodable.coprime, fun hcoprime => ⟨hcoprime, fun qinv hlt _ => ?_⟩⟩
  obtain ⟨der, hlength, hder⟩ := exists_ofDer?_of_ofPem hread
  obtain ⟨hmodulus, hexponent, hp, hq⟩ := lt_of_ofDer? hder
  exact length_integers_numbersWith_le (Nat.le_trans hlength hsize) hmodulus hexponent hp hq
    (Nat.mod_le _ _)
    (Nat.mod_le _ _) hlt

/-- The key with the modulus 25, whose factors are equal. -/
def square25 : Key := ⟨(Rsa.PrivateKey.ofComponents? 25 3 3 5 5).get (by decide)⟩

/-- A text of the key. There is no coefficient that could stand in it. -/
def text25 : Bytes := Pem.encode label (Der.integers (square25.numbersWith 3 3 0))

theorem holds_text25 : Holds text25 square25 :=
  ⟨3, 3, 0, by decide, Pem.spelled_encode label _⟩

end Keyring.Key

namespace Keyring.Token

variable {key : Key} {text : Bytes}

/-- Signing fails for the encoding of the key exactly if the key is not written. -/
theorem keyEncoding_of_sign_iff {window : KeyWindow} {claims : Json}
    (hcurrent : window.current? = some key) :
    (∃ e, sign window claims = .error e ∧ e.kind = .keyEncoding) ↔
      ¬ ∃ der, key.toDer = .ok der := by
  have hder : (∃ der, key.toDer = .ok der) ∨ key.toDer = .error (Key.encodingError "DER") := by
    rw [Key.toDer]
    cases key.document? with
    | none => exact .inr rfl
    | some der => exact .inl ⟨der, rfl⟩
  rw [sign, hcurrent]
  dsimp only
  rcases hder with ⟨der, hder⟩ | hder
  · rw [hder]
    refine iff_of_false ?_ fun h => h ⟨der, rfl⟩
    rintro ⟨e, h, hkind⟩
    rw [Except.ok_bind] at h
    split at h
    · contradiction
    · obtain rfl := Except.error.inj h
      contradiction
  · rw [hder]
    refine iff_of_true ⟨Key.encodingError "DER", rfl, rfl⟩ ?_
    rintro ⟨der, h⟩
    contradiction

/-- A key that was read is written, as DER and as PEM, and signs without a failure of its encoding,
exactly if it is encodable. If it was read from a text of at most 32 MiB it is encodable exactly if
its factors have no common divisor. -/
theorem signs_iff_encodable (hread : Key.ofPem text = .ok key) :
    ((∃ der, key.toDer = .ok der) ↔ key.Encodable) ∧
      ((∃ pem, key.toPem = .ok pem) ↔ key.Encodable) ∧
      (∀ window claims, window.current? = some key →
        ((∃ e, sign window claims = .error e ∧ e.kind = .keyEncoding) ↔ ¬ key.Encodable)) ∧
      (text.length ≤ 2 ^ 25 → (key.Encodable ↔ key.secret.p.Coprime key.secret.q)) := by
  have hder : (∃ der, key.toDer = .ok der) ↔ key.Encodable :=
    Key.isSome_document?.symm.trans Key.isSome_document?_iff_encodable
  have hpem : (∃ pem, key.toPem = .ok pem) ↔ key.Encodable :=
    Key.isSome_document?_iff_toPem.symm.trans Key.isSome_document?_iff_encodable
  refine ⟨hder, hpem, fun window claims hcurrent => ?_, Key.encodable_iff_coprime hread⟩
  exact (keyEncoding_of_sign_iff hcurrent).trans (not_congr hder)

/-- A key with different prime factors is written, whatever text it was read from. -/
theorem encodable_text55 : Key.ofPem Key.text55 = .ok .small55 ∧ (Key.small55).Encodable ∧
    (∃ der, (Key.small55).toDer = .ok der) ∧ (∃ pem, (Key.small55).toPem = .ok pem) ∧
    ¬ ∃ e, sign (.one .small55) (.obj []) = .error e ∧ e.kind = .keyEncoding := by
  have hread := Key.ofPem_of_holds Key.holds_text55
  obtain ⟨hder, hpem, hsign, hcoprime⟩ := signs_iff_encodable hread
  have hencodable : (Key.small55).Encodable := (hcoprime (by decide)).mpr (by decide)
  refine ⟨hread, hencodable, hder.mpr hencodable, hpem.mpr hencodable, fun h => ?_⟩
  exact (hsign (.one .small55) (.obj []) rfl).mp h hencodable

/-- A key with equal factors is read. It is not written, and whoever installs it cannot sign. -/
theorem unusable_text25 : Key.ofPem Key.text25 = .ok .square25 ∧
    (Key.square25).toDer = .error (Key.encodingError "DER") ∧
    (Key.square25).toPem = .error (Key.encodingError "PEM") ∧
    sign (KeyWindow.empty.rotate .square25) (.obj []) = .error (Key.encodingError "DER") := by
  have hdocument : (Key.square25).document? = none := by decide
  have hder : (Key.square25).toDer = .error (Key.encodingError "DER") := by
    rw [Key.toDer, hdocument]
  refine ⟨Key.ofPem_of_holds Key.holds_text25, hder, by rw [Key.toPem, hdocument], ?_⟩
  rw [sign, KeyWindow.current?_rotate]
  simp only [hder]
  rfl

end Keyring.Token
