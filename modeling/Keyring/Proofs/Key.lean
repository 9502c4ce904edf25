import Keyring.Key
import Keyring.Proofs.Encoding.Der
import Keyring.Proofs.Encoding.Pem

/-! # Reading stored keys

A key that has a document at all is read back from it, in every component. So whoever reads a stored
blob comes to hold the very key that its writer generated.
-/

namespace Keyring.Key

variable {k : Key} {document text pem : Bytes}

/-- The numbers of a document of the key, with any numbers in the places of the three that follow
from the others. -/
def numbersWith (k : Key) (dp dq qinv : Nat) : List Nat :=
  [0, k.secret.modulus, k.secret.publicExponent, k.secret.privateExponent, k.secret.p, k.secret.q,
    dp, dq, qinv]

/-- A key has a document if the second factor has an inverse modulo the first and the numbers do not
take too many bytes. -/
theorem document?_eq_some_iff :
    k.document? = some document ↔ ∃ qinv, k.secret.coefficient? = some qinv ∧
    document = Der.integers (k.numbersWith (k.secret.privateExponent % (k.secret.p - 1))
      (k.secret.privateExponent % (k.secret.q - 1)) qinv) ∧ document.length ≤ Der.maxSize := by
  rw [document?, documentNumbers?]
  cases k.secret.coefficient? with
  | none => simp
  | some c =>
      simp only [Option.bind_eq_bind, Option.bind_some, pure, Option.some.injEq, exists_eq_left']
      rw [← numbersWith]
      split
      · next hle =>
          rw [Option.some_inj]
          constructor
          · rintro rfl
            exact ⟨rfl, hle⟩
          · exact fun h => h.1.symm
      · next hle =>
          refine iff_of_false (by simp) ?_
          rintro ⟨rfl, h⟩
          exact hle h

/-- A key with a document is written as PEM. -/
theorem exists_toPem (h : k.document?.isSome) : ∃ pem, k.toPem = .ok pem := by
  obtain ⟨document, hdocument⟩ := Option.isSome_iff_exists.mp h
  rw [toPem, hdocument]
  exact ⟨_, rfl⟩

/-- A key has a document exactly if it is written as DER. -/
theorem isSome_document? : k.document?.isSome ↔ ∃ document, k.toDer = .ok document := by
  rw [toDer]
  cases k.document? with
  | none => simp
  | some document => simp

/-- A key has a document exactly if it is written as PEM. -/
theorem isSome_document?_iff_toPem : k.document?.isSome ↔ ∃ pem, k.toPem = .ok pem := by
  refine ⟨exists_toPem, ?_⟩
  rintro ⟨pem, h⟩
  rw [toPem] at h
  split at h
  · next document hdocument => exact Option.isSome_of_eq_some hdocument
  · contradiction

/-- The conditions of a key hold of its own components. -/
theorem ofComponents?_self (s : Rsa.PrivateKey) :
    Rsa.PrivateKey.ofComponents? s.modulus s.publicExponent s.privateExponent s.p s.q = some s := by
  rw [Rsa.PrivateKey.ofComponents?, dif_pos ⟨s.modulus_eq, s.modulus_odd, s.exponent_odd,
    s.exponent_ge, s.exponent_le, s.exponent_lt, s.one_lt_p, s.one_lt_q, s.undoes_p, s.undoes_q⟩]

/-- A key has the components it was made of. -/
theorem ofComponents?_eq_some {n e d p q : Nat} {s : Rsa.PrivateKey}
    (h : Rsa.PrivateKey.ofComponents? n e d p q = some s) :
    s.modulus = n ∧ s.publicExponent = e ∧ s.privateExponent = d ∧ s.p = p ∧ s.q = q := by
  rw [Rsa.PrivateKey.ofComponents?] at h
  split at h
  · obtain rfl := Option.some.inj h
    exact ⟨rfl, rfl, rfl, rfl, rfl⟩
  · contradiction

/-- A key is read from a document, whatever the numbers are that follow from the others. -/
theorem ofDer?_integers {dp dq qinv : Nat}
    (h : (Der.integers (k.numbersWith dp dq qinv)).length ≤ Der.maxSize) :
    ofDer? (Der.integers (k.numbersWith dp dq qinv)) = some k := by
  have hread := Der.readSequence_integers h
  rw [ofDer?, if_neg (Nat.not_lt.mpr h)]
  simp only [numbersWith, List.length_cons, List.length_nil, Nat.zero_add, Nat.reduceAdd] at hread ⊢
  simp only [hread, Option.bind_eq_bind, Option.bind_some, if_true, ofComponents?_self, pure]

/-- The label's lines are ASCII. -/
private theorem label_lines :
    (∀ b ∈ Pem.openingLine label, b < 0x80) ∧ (∀ b ∈ Pem.closingLine label, b < 0x80) := by
  decide +kernel

/-- A key is read from every spelling of a document that holds it. -/
theorem ofPem_spelled (h : Pem.Spelled label document text)
    (hdocument : ofDer? document = some k) : ofPem text = .ok k := by
  obtain ⟨s, hs⟩ := Utf8.decode_ascii (h.lt label_lines.1 label_lines.2)
  have hread : (Pem.decode label text).bind ofDer? = some k := by
    rw [h.decode_eq, Option.bind_some, hdocument]
  rw [ofPem, hs]
  simp only [hread]

/-- A key is read back from its PEM document. -/
theorem ofPem_toPem (h : k.toPem = .ok pem) : ofPem pem = .ok k := by
  rw [toPem] at h
  split at h
  · next document hdocument =>
      obtain rfl := Except.ok.inj h
      obtain ⟨qinv, -, rfl, hle⟩ := document?_eq_some_iff.mp hdocument
      exact ofPem_spelled (Pem.spelled_encode label _) (ofDer?_integers hle)
  · contradiction

/-! ## Small keys

Keys that are small enough to compute with. -/

/-- The key with the modulus 55. -/
def small55 : Key := ⟨(Rsa.PrivateKey.ofComponents? 55 3 27 5 11).get (by decide)⟩

/-- The key with the modulus 85. -/
def small85 : Key := ⟨(Rsa.PrivateKey.ofComponents? 85 3 43 5 17).get (by decide)⟩

/-- The key with the modulus 187. -/
def small187 : Key := ⟨(Rsa.PrivateKey.ofComponents? 187 3 107 11 17).get (by decide)⟩

end Keyring.Key
