import Keyring.Proofs.Json.RoundTrip
import Keyring.Proofs.Key.Sound

/-! # Names tell keys apart

A key is named by the digest of a text that spells out its modulus and its public exponent, and by
nothing else. Two keys with one name have the same public half, unless their texts collide.
-/

namespace Keyring.Key

variable {a b : Key}

/-- The keys have the same modulus and the same public exponent. -/
def SamePublic (a b : Key) : Prop :=
  a.secret.modulus = b.secret.modulus ∧ a.secret.publicExponent = b.secret.publicExponent

instance : Decidable (a.SamePublic b) := instDecidableAnd

/-- The digest does not map different texts of the two keys to the same name. -/
def NoCollision (a b : Key) : Prop :=
  a.digest = b.digest →
    canonicalText a.modulusText a.exponentText = canonicalText b.modulusText b.exponentText

/-- The text spells out the two numbers. -/
theorem eq_of_canonicalText_eq {n e n' e' : String} (h : canonicalText n e = canonicalText n' e') :
    n = n' ∧ e = e' := by
  have hread (n e : String) : Json.parse? (canonicalText n e) =
      some (.obj [("e", .str e), ("kty", .str "RSA"), ("n", .str n)]) := by
    have hintegral : (Json.obj [("e", .str e), ("kty", .str "RSA"), ("n", .str n)]).isIntegral := by
      rw [Json.isIntegral_obj]
      simp [Json.isIntegral]
    have hdepth : (Json.obj [("e", .str e), ("kty", .str "RSA"), ("n", .str n)]).depth ≤ 1 := by
      rw [Json.depth_obj_le]
      simp [Json.depth]
    rw [canonicalText, Json.parse?_render hintegral, if_pos (Nat.le_trans hdepth (by decide))]
  have hsame := hread n e
  rw [h, hread] at hsame
  simp only [Option.some.injEq, Json.obj.injEq, List.cons.injEq, Prod.mk.injEq, Json.str.injEq,
    and_true, true_and] at hsame
  exact ⟨hsame.2.symm, hsame.1.symm⟩

/-- Numbers with one text are the same. -/
theorem encodeNat_injective : Function.Injective encodeNat := by
  intro m n h
  rw [encodeNat, encodeNat] at h
  have hread := Base64.decode_encode .urlSafe (Bytes.ofNat m)
  rw [h, Base64.decode_encode] at hread
  rw [← Bytes.toNat_ofNat m, ← Except.ok.inj hread, Bytes.toNat_ofNat]

/-- Keys of one name have the same public half, unless their texts collide. -/
theorem samePublic_of_id_eq (hid : a.id = b.id) (hcollision : a.NoCollision b) :
    a.SamePublic b := by
  have hdigest : a.digest = b.digest := by
    by_contra hne
    exact id_ne_of_digest_ne hne hid
  obtain ⟨hmodulus, hexponent⟩ := eq_of_canonicalText_eq (hcollision hdigest)
  exact ⟨encodeNat_injective hmodulus, encodeNat_injective hexponent⟩

theorem text_eq_of_samePublic (h : a.SamePublic b) :
    canonicalText a.modulusText a.exponentText = canonicalText b.modulusText b.exponentText := by
  rw [modulusText, modulusText, exponentText, exponentText, h.1, h.2]

/-- The private exponent and the primes are not part of the name. -/
theorem id_eq_of_samePublic (h : a.SamePublic b) : a.id = b.id := by
  rw [id, id, thumbprint, thumbprint, text_eq_of_samePublic h]

/-- Without a collision, names tell public halves apart. -/
theorem id_eq_iff_samePublic (hcollision : a.NoCollision b) : a.id = b.id ↔ a.SamePublic b :=
  ⟨fun hid => samePublic_of_id_eq hid hcollision, id_eq_of_samePublic⟩

/-- A name: 43 characters of the URL-safe alphabet. -/
structure IsName (name : String) : Prop where
  length : name.length = 43
  symbols : ∀ c ∈ name.toList, c.isAlphanum ∨ c = '-' ∨ c = '_'

/-- Every key has such a name. -/
theorem isName_id (k : Key) : IsName k.id := by
  rw [id, thumbprint, Base64.encode]
  constructor
  · -- The 32 bytes of a digest are 43 symbols, the last of which has two bits to spare.
    rw [String.length_ofList, List.length_map, Base64.length_encodeBytes_urlSafe,
      Sha256.length_digest]
  · have hsymbol : ∀ v < 64, (Char.ofNat (Base64.symbol .urlSafe v).toNat).isAlphanum ∨
        Char.ofNat (Base64.symbol .urlSafe v).toNat = '-' ∨
        Char.ofNat (Base64.symbol .urlSafe v).toNat = '_' := by
      decide
    intro c hc
    rw [String.toList_ofList] at hc
    obtain ⟨b, hb, rfl⟩ := List.mem_map.mp hc
    rcases Base64.eq_of_mem_encodeBytes hb with ⟨hform, -⟩ | ⟨v, hv, rfl⟩
    · contradiction
    · exact hsymbol v hv

end Keyring.Key
