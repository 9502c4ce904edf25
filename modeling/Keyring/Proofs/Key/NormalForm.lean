import Keyring.Jwk
import Keyring.Proofs.Except
import Keyring.Proofs.Key

/-! # What is written is a normal form

A document holds the five numbers of a key and three more that follow from them. A reader passes
over those three and a writer computes them anew. So a key can be read from many texts, which differ
in these numbers and in the ends of their lines, but only one of them is written, and reading and
writing leaves that one as it is.
-/

namespace Keyring.Key

variable {k : Key} {text pem : Bytes}

/-- A text holds a key: it spells a document of the key, whatever the numbers are that follow from
the others. -/
def Holds (text : Bytes) (k : Key) : Prop :=
  ∃ dp dq qinv, (Der.integers (k.numbersWith dp dq qinv)).length ≤ Der.maxSize ∧
    Pem.Spelled label (Der.integers (k.numbersWith dp dq qinv)) text

/-- Reads a text and writes the key that it holds. -/
def reencode (text : Bytes) : Except Error Bytes := do
  (← ofPem text).toPem

/-- Two keys agree: in their numbers, the order of the factors included, in their name and in what
is published of them. -/
structure Agrees (a b : Key) : Prop where
  modulus : a.secret.modulus = b.secret.modulus
  publicExponent : a.secret.publicExponent = b.secret.publicExponent
  privateExponent : a.secret.privateExponent = b.secret.privateExponent
  p : a.secret.p = b.secret.p
  q : a.secret.q = b.secret.q
  id : a.id = b.id
  publicJwk : a.publicJwk = b.publicJwk

theorem agrees_refl (k : Key) : k.Agrees k :=
  ⟨rfl, rfl, rfl, rfl, rfl, rfl, rfl⟩

/-- A document is read as the key that it holds. -/
theorem ofPem_of_holds (h : Holds text k) : ofPem text = .ok k := by
  obtain ⟨dp, dq, qinv, hle, hspelled⟩ := h
  exact ofPem_spelled hspelled (ofDer?_integers hle)

/-- Whatever was read, what is written is read as the same key. -/
theorem reencode_eq_ok_iff :
    reencode text = .ok pem ↔ ∃ k, ofPem text = .ok k ∧ k.toPem = .ok pem := by
  rw [reencode, Except.bind_eq_ok_iff]

/-- A key that is written at all is read back and written as before. A text that was read and
written is left as it is by reading and writing. Every text that holds a key is read as that key, so
that all of them are written alike. -/
theorem normalForm :
    (∀ k pem, k.toPem = .ok pem → ∃ k', ofPem pem = .ok k' ∧ k'.Agrees k ∧ k'.toPem = .ok pem) ∧
    (∀ text pem, reencode text = .ok pem → reencode pem = .ok pem) ∧
    ∀ text k, Holds text k → ofPem text = .ok k ∧ reencode text = k.toPem := by
  refine ⟨?written, ?normal, ?held⟩
  case written =>
    intro k pem h
    exact ⟨k, ofPem_toPem h, agrees_refl k, h⟩
  case normal =>
    intro text pem h
    obtain ⟨k, -, hwritten⟩ := reencode_eq_ok_iff.mp h
    exact reencode_eq_ok_iff.mpr ⟨k, ofPem_toPem hwritten, hwritten⟩
  case held =>
    intro text k h
    have hread := ofPem_of_holds h
    refine ⟨hread, ?_⟩
    rw [reencode, hread]
    rfl

/-- A text of the key with the modulus 55. Its lines end in a carriage return, with a line feed
after the first, the last line does not end, and the numbers that follow from the others are none
that do. -/
def text55 : Bytes :=
  Pem.openingLine label ++ ([Pem.cr, Pem.lf] ++
    (Base64.encodeBytes .standard (Der.integers (small55.numbersWith 7 8 9)) ++
      ([Pem.cr] ++ (Pem.closingLine label ++ []))))

theorem holds_text55 : Holds text55 small55 := by
  refine ⟨7, 8, 9, by decide, ?_⟩
  exact .intro (.last (by decide)) .crlf .cr (.inl rfl) (fun h => absurd h (by decide))

/-- The text is read, and what is written instead of it is left as it is. -/
theorem normalForm_text55 :
    ∃ pem k', small55.toPem = .ok pem ∧ text55 ≠ pem ∧ Holds text55 small55 ∧
    ofPem text55 = .ok small55 ∧ reencode text55 = .ok pem ∧ reencode pem = .ok pem ∧
    ofPem pem = .ok k' ∧
    k'.Agrees small55 ∧ k'.toPem = .ok pem := by
  obtain ⟨pem, hpem⟩ := exists_toPem (k := small55) (by decide)
  obtain ⟨hwritten, hnormal, hheld⟩ := normalForm
  obtain ⟨k', hread, hagrees, hagain⟩ := hwritten small55 pem hpem
  obtain ⟨htext, htextWritten⟩ := hheld text55 small55 holds_text55
  have hpemEq := htextWritten.trans hpem
  refine ⟨pem, k', hpem, ?_, holds_text55, htext, hpemEq, hnormal text55 pem hpemEq, hread, hagrees,
    hagain⟩
  rintro rfl
  revert hpem
  decide

end Keyring.Key
