import Keyring.Proofs.Text.Base64.Canonical
import Keyring.Token
import Mathlib.Data.List.TakeWhile

/-! # The parts of a token

A token is cut at its last two points. Base64 writes no points, so a token whose three parts can be
decoded has exactly two of them and is the text of three byte strings; they determine the token, and
the token determines them.
-/

namespace Keyring.Token

/-! ## Cutting -/

/-- A text is cut where nothing after the point is one. -/
theorem Parts.cutLast?_eq_some_iff {cs front back : List Char} :
    cutLast? cs = some (front, back) ↔ cs = front ++ '.' :: back ∧ '.' ∉ back := by
  constructor
  · intro h
    have hsplit := List.takeWhile_append_dropWhile (p := (· ≠ '.')) (l := cs.reverse)
    have htake : ∀ c ∈ cs.reverse.takeWhile (· ≠ '.'), c ≠ '.' := by
      intro c hc
      exact of_decide_eq_true (List.mem_takeWhile_imp (p := fun c => decide (c ≠ '.')) hc)
    rw [cutLast?] at h
    split at h
    · contradiction
    · next c rest hdrop =>
        obtain ⟨rfl, rfl⟩ := Prod.mk.inj (Option.some.inj h)
        have hc : c = '.' := by
          have hhead := List.head?_dropWhile_not (p := (· ≠ '.')) (l := cs.reverse)
          rw [hdrop] at hhead
          simpa using hhead
        rw [hdrop, hc] at hsplit
        constructor
        · have hreverse := congrArg List.reverse hsplit
          rw [List.reverse_append, List.reverse_cons, List.append_assoc, List.reverse_reverse]
            at hreverse
          exact hreverse.symm
        · intro hmem
          exact htake '.' (List.mem_reverse.mp hmem) rfl
  · rintro ⟨rfl, hback⟩
    have hpos : ∀ c ∈ back.reverse, decide (c ≠ '.') = true := by
      rintro c hc
      apply decide_eq_true
      rintro rfl
      exact hback (List.mem_reverse.mp hc)
    have hreverse : (front ++ '.' :: back).reverse = back.reverse ++ '.' :: front.reverse := by simp
    have hstop : decide ('.' ≠ '.') = false := by decide
    rw [cutLast?, hreverse, List.dropWhile_append_of_pos hpos, List.takeWhile_append_of_pos hpos,
      List.dropWhile_cons, List.takeWhile_cons, hstop]
    simp

theorem point_not_mem_encode (form : Base64.Form) (bs : Bytes) :
    '.' ∉ (Base64.encode form bs).toList := by
  have hsymbol : ∀ v < 64, Char.ofNat (Base64.symbol form v).toNat ≠ '.' := by cases form <;> decide
  rw [Base64.encode, String.toList_ofList]
  intro hmem
  obtain ⟨b, hb, hpoint⟩ := List.mem_map.mp hmem
  rcases Base64.eq_of_mem_encodeBytes hb with ⟨-, rfl⟩ | ⟨v, hv, rfl⟩
  · exact absurd hpoint (by decide)
  · exact hsymbol v hv hpoint

/-! ## Tokens of three byte strings -/

/-- The byte strings that a token is the text of. -/
structure Compact where
  header : Bytes
  payload : Bytes
  signature : Bytes

namespace Compact

/-- The text that the signature covers. -/
def message (c : Compact) : String :=
  Base64.encode .urlSafe c.header ++ "." ++ Base64.encode .urlSafe c.payload

/-- The token. -/
def text (c : Compact) : String := c.message ++ "." ++ Base64.encode .urlSafe c.signature

/-- The texts of the three parts. -/
def parts (c : Compact) : Parts :=
  ⟨Base64.encode .urlSafe c.header, Base64.encode .urlSafe c.payload,
    Base64.encode .urlSafe c.signature⟩

/-- The text of three byte strings, and no other, has their texts as its parts. -/
theorem ofToken?_eq_some_iff {c : Compact} {token : String} :
    Parts.ofToken? token = some c.parts ↔ token = c.text := by
  have hlists : token = c.text ↔ token.toList = (Base64.encode .urlSafe c.header).toList ++
      '.' :: (Base64.encode .urlSafe c.payload).toList ++ '.' ::
        (Base64.encode .urlSafe c.signature).toList := by
    rw [← String.toList_inj, text, message]
    simp
  rw [hlists]
  constructor
  · intro h
    obtain ⟨⟨message, signature⟩, hsignature, h⟩ := Option.bind_eq_some_iff.mp h
    obtain ⟨⟨header, payload⟩, hpayload, h⟩ := Option.bind_eq_some_iff.mp h
    obtain ⟨hheader', hpayload', hsignature'⟩ := Parts.mk.inj (Option.some.inj h)
    rw [(Parts.cutLast?_eq_some_iff.mp hsignature).1, (Parts.cutLast?_eq_some_iff.mp hpayload).1,
      ← hheader', ← hpayload', ← hsignature', String.toList_ofList, String.toList_ofList,
      String.toList_ofList]
  · intro h
    have hsignature := Parts.cutLast?_eq_some_iff.mpr ⟨h, point_not_mem_encode _ _⟩
    have hpayload := Parts.cutLast?_eq_some_iff.mpr
      ⟨(rfl : (Base64.encode .urlSafe c.header).toList ++ '.' ::
        (Base64.encode .urlSafe c.payload).toList = _),
        point_not_mem_encode _ _⟩
    rw [Parts.ofToken?, hsignature, Option.bind_eq_bind, Option.bind_some]
    simp only [hpayload, Option.bind_some, pure, String.ofList_toList]
    rfl

end Compact

/-! ## Decoding parts -/

namespace Parts

variable {text : String} {v : Json}

theorem decode_eq_ok_iff {bs : Bytes} :
    decode text = .ok bs ↔ text = Base64.encode .urlSafe bs := by
  rw [decode, Except.mapError_eq_ok_iff, Base64.decode_eq_ok_iff]

/-- A part of a token is read as a value only if it is how the bytes of the value are encoded. -/
theorem decodeJson_eq_ok_iff :
    decodeJson text = .ok v ↔
      ∃ bs, text = Base64.encode .urlSafe bs ∧ Json.parseBytes? bs = some v := by
  rw [decodeJson, Except.bind_eq_ok_iff]
  constructor
  · rintro ⟨bs, hbs, h⟩
    split at h
    · next w hw =>
        obtain rfl := Except.ok.inj h
        exact ⟨bs, decode_eq_ok_iff.mp hbs, hw⟩
    · contradiction
  · rintro ⟨bs, hbs, hv⟩
    refine ⟨bs, decode_eq_ok_iff.mpr hbs, ?_⟩
    rw [hv]

/-- A header is read from the bytes of the first part. -/
theorem readHeader_eq_ok_iff {token : String} {parts : Parts} {header : Header} :
    readHeader token = .ok (parts, header) ↔
      ofToken? token = some parts ∧ ∃ bs v, parts.header = Base64.encode .urlSafe bs ∧
        Json.parseBytes? bs = some v ∧ Header.ofJson? v = some header := by
  rw [readHeader]
  split
  · next hnone =>
      simp [hnone]
  · next found hfound =>
      rw [hfound, Except.bind_eq_ok_iff, Option.some.injEq]
      constructor
      · rintro ⟨v, hv, h⟩
        obtain ⟨bs, hbs, hparse⟩ := decodeJson_eq_ok_iff.mp hv
        split at h
        · next header' hheader =>
            obtain ⟨rfl, rfl⟩ := Prod.mk.inj (Except.ok.inj h)
            exact ⟨rfl, bs, v, hbs, hparse, hheader⟩
        · contradiction
      · rintro ⟨rfl, bs, v, hbs, hparse, hheader⟩
        refine ⟨v, decodeJson_eq_ok_iff.mpr ⟨bs, hbs, hparse⟩, ?_⟩
        rw [hheader]

end Parts

end Keyring.Token
