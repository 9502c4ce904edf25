import Keyring.Text.Base64

/-! # Sealed blobs

A sealed blob is what a shared store holds of a secret: the ciphertext, the nonce it was sealed with
and the tag that authenticates it. Its wire text is the three in standard base64, joined by two
hyphens. Neither the alphabet nor the padding contains a hyphen, so the text splits back in one way,
and strict base64 leaves each segment one spelling.
-/

namespace Keyring

/-- A sealed blob. -/
structure SealedBlob where
  /-- The ciphertext without the tag. -/
  ciphertext : Bytes
  nonce : Bytes
  tag : Bytes
  deriving DecidableEq, Repr

namespace SealedBlob

/-- The length of a nonce in bytes. -/
def nonceSize : Nat := 12

/-- The length of a tag in bytes. -/
def tagSize : Nat := 16

/-- The parts of a sealed blob. -/
inductive Part
  | ciphertext
  | nonce
  | tag
  deriving DecidableEq, Repr

/-- The word for a part. -/
def Part.word : Part → String
  | .ciphertext => "ciphertext"
  | .nonce => "nonce"
  | .tag => "tag"

/-- Why a stored byte string gives no secret. -/
inductive Fault
  | notUtf8
  | segmentCount (count : Nat)
  | badSegment (part : Part) (fault : Base64.Fault)
  | nonceLength (length : Nat)
  | tagLength (length : Nat)
  /-- The tag does not belong to the ciphertext under this key and nonce. -/
  | notAuthentic
  deriving DecidableEq, Repr

/-- The wording of a fault. -/
def Fault.message : Fault → String
  | .notUtf8 => "Encrypted blob is not valid UTF-8"
  | .segmentCount count => s!"Encrypted blob has {count} segments, expected 3"
  | .badSegment part fault => s!"Invalid base64 in {part.word}: {fault.message}"
  | .nonceLength length => s!"Invalid nonce length: expected {nonceSize}, got {length}"
  | .tagLength length => s!"Invalid tag length: expected {tagSize}, got {length}"
  | .notAuthentic => "Authentication failed: wrong key or tampered data"

/-- The hyphen. -/
def hyphen : UInt8 := 45

/-- The wire text as bytes. -/
def wireBytes (b : SealedBlob) : Bytes :=
  Base64.encodeBytes .standard b.ciphertext ++ hyphen :: hyphen
    :: (Base64.encodeBytes .standard b.nonce ++ hyphen :: hyphen
      :: Base64.encodeBytes .standard b.tag)

/-- The wire text. -/
def wire (b : SealedBlob) : String :=
  String.ofList (b.wireBytes.map fun c => Char.ofNat c.toNat)

/-- Splits at each pair of hyphens, the leftmost first. -/
def segments : Bytes → List Bytes
  | [] => [[]]
  | a :: rest =>
    match rest with
    | b :: rest' =>
      if a = hyphen ∧ b = hyphen then [] :: segments rest'
      else match segments (b :: rest') with
        | [] => [[a]]
        | s :: ss => (a :: s) :: ss
    | [] => [[a]]

/-- Decodes one segment. -/
def decodeSegment (part : Part) (text : Bytes) : Except Fault Bytes :=
  (Base64.decodeBytes .standard text).mapError (.badSegment part)

/-- Checks the lengths that the cipher prescribes. -/
def checkLengths (b : SealedBlob) : Except Fault Unit :=
  if b.nonce.length ≠ nonceSize then .error (.nonceLength b.nonce.length)
  else if b.tag.length ≠ tagSize then .error (.tagLength b.tag.length)
  else .ok ()

/-- Reads a wire text. -/
def ofWire (w : Bytes) : Except Fault SealedBlob := do
  match Utf8.decode w with
  | .error _ => throw .notUtf8
  | .ok _ =>
    match segments w with
    | [c, n, t] =>
      let ciphertext ← decodeSegment .ciphertext c
      let nonce ← decodeSegment .nonce n
      let tag ← decodeSegment .tag t
      let b : SealedBlob := ⟨ciphertext, nonce, tag⟩
      checkLengths b
      return b
    | ss => throw (.segmentCount ss.length)

/-- The text of a sealed blob in diagnostics: lengths only. -/
def display (b : SealedBlob) : String :=
  s!"EncryptedData \x7b ciphertext: {b.ciphertext.length} bytes, nonce: {b.nonce.length} bytes, " ++
    s!"tag: {b.tag.length} bytes \x7d"

end SealedBlob

end Keyring
