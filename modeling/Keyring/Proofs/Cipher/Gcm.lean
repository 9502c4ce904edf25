import Keyring.Cipher.Gcm
import Mathlib.Data.List.Basic

/-! # Counter mode undoes itself

The keystream depends on the key and the nonce only, and a byte combined with the same byte of the
keystream twice is the byte itself. So what was encrypted is decrypted, whatever its length, and its
tag is right.
-/

namespace Keyring

/-- Bytes are added up to the end of the shorter string. -/
theorem Bytes.length_xor (a b : Bytes) : (xor a b).length = min a.length b.length :=
  List.length_zipWith

/-- The same mask twice is none. -/
theorem Bytes.xor_xor {a mask : Bytes} (h : a.length ≤ mask.length) :
    xor (xor a mask) mask = a := by
  induction a generalizing mask with
  | nil => rfl
  | cons x a ih =>
      cases mask with
      | nil => simp at h
      | cons y mask =>
          have hbyte : x ^^^ y ^^^ y = x := by rw [UInt8.xor_assoc, UInt8.xor_self, UInt8.xor_zero]
          have htail := ih (Nat.le_of_succ_le_succ h)
          calc xor (xor (x :: a) (y :: mask)) (y :: mask)
              = (x ^^^ y ^^^ y) :: xor (xor a mask) mask := rfl
            _ = x :: a := by rw [hbyte, htail]

theorem Aes.Block.length_bytes (block : Block) : block.bytes.length = 16 := rfl

namespace Gcm

variable (keys : List Aes.Block) (nonce : Bytes)

/-- Encryption keeps the length of what fits the blocks. -/
theorem length_cryptBlocks {blocks : Nat} (counter : Nat) {bs : Bytes}
    (h : bs.length ≤ 16 * blocks) :
    (cryptBlocks keys nonce blocks counter bs).length = bs.length := by
  induction blocks generalizing counter bs with
  | zero =>
      obtain rfl := List.eq_nil_of_length_eq_zero (Nat.le_zero.mp h)
      rfl
  | succ blocks ih =>
      rw [cryptBlocks, List.length_append, Bytes.length_xor, Aes.Block.length_bytes,
        List.length_take, ih _ (by rw [List.length_drop]; omega), List.length_drop]
      omega

/-- Block by block, the same keystream twice is none. The first block of the result is that of the
text, for it is shorter than a block only if nothing follows it. -/
theorem cryptBlocks_cryptBlocks {blocks : Nat} (counter : Nat) {bs : Bytes}
    (h : bs.length ≤ 16 * blocks) :
    cryptBlocks keys nonce blocks counter (cryptBlocks keys nonce blocks counter bs) = bs := by
  induction blocks generalizing counter bs with
  | zero =>
      obtain rfl := List.eq_nil_of_length_eq_zero (Nat.le_zero.mp h)
      rfl
  | succ blocks ih =>
      have hrest : (bs.drop 16).length ≤ 16 * blocks := by
        rw [List.length_drop]
        omega
      set mask := (Aes.encrypt keys (counterBlock nonce counter)).bytes
      have hmask : mask.length = 16 := Aes.Block.length_bytes _
      set head := Bytes.xor (bs.take 16) mask with hhead
      set tail := cryptBlocks keys nonce blocks (counter + 1) (bs.drop 16) with htail
      have hlength : head.length = min bs.length 16 := by
        rw [hhead, Bytes.length_xor, hmask, List.length_take]
        omega
      have hsplit : (head ++ tail).take 16 = head ∧ (head ++ tail).drop 16 = tail := by
        rcases Nat.le_total 16 bs.length with hfull | hshort
        · have h16 : head.length = 16 := by omega
          exact ⟨List.take_left' h16, List.drop_left' h16⟩
        · have hnil : tail = [] := by
            apply List.eq_nil_of_length_eq_zero
            rw [htail, length_cryptBlocks keys nonce _ hrest, List.length_drop]
            omega
          rw [hnil, List.append_nil]
          exact ⟨List.take_of_length_le (by omega), List.drop_of_length_le (by omega)⟩
      have hback : Bytes.xor head mask = bs.take 16 := by
        apply Bytes.xor_xor
        rw [hmask, List.length_take]
        omega
      calc cryptBlocks keys nonce (blocks + 1) counter (head ++ tail)
          = Bytes.xor ((head ++ tail).take 16) mask
              ++ cryptBlocks keys nonce blocks (counter + 1) ((head ++ tail).drop 16) := rfl
        _ = bs.take 16 ++ bs.drop 16 := by rw [hsplit.1, hsplit.2, hback, htail, ih _ hrest]
        _ = bs := List.take_append_drop 16 bs

/-- There are blocks enough for all bytes. -/
theorem le_blockCount (bs : Bytes) : bs.length ≤ 16 * blockCount bs := by
  rw [blockCount]
  omega

/-- Encryption keeps the length. -/
theorem length_crypt (bs : Bytes) : (crypt keys nonce bs).length = bs.length :=
  length_cryptBlocks keys nonce 2 (le_blockCount bs)

/-- The same keystream twice is none. -/
theorem crypt_crypt (bs : Bytes) : crypt keys nonce (crypt keys nonce bs) = bs := by
  have hcount : blockCount (crypt keys nonce bs) = blockCount bs := by
    rw [blockCount, blockCount, length_crypt]
  rw [crypt, hcount]
  exact cryptBlocks_cryptBlocks keys nonce 2 (le_blockCount bs)

/-- A tag has 16 bytes. -/
theorem length_tag (ciphertext : Bytes) : (tag keys nonce ciphertext).length = 16 := by
  have hhash : ∀ x : Element, x.bytes.length = 16 := by
    intro x
    rw [Element.bytes, List.length_append, Bytes.length_ofNatFixed, Bytes.length_ofNatFixed]
  rw [tag, Bytes.length_xor, hhash, Aes.Block.length_bytes, Nat.min_self]

/-- What was encrypted is decrypted. -/
theorem decrypt?_encrypt (plaintext : Bytes) :
    decrypt? keys nonce (encrypt keys nonce plaintext).1 (encrypt keys nonce plaintext).2 =
      some plaintext := by
  rw [encrypt, decrypt?, if_pos rfl, crypt_crypt]

end Gcm

end Keyring
