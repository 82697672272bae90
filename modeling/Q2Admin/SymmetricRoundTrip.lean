import Mathlib.Order.Bounds.Basic
import Q2Admin.Crypto

/-! `SymmetricDecrypt` undoes `SymmetricEncrypt`. Both are computed on blocks: the padded
plaintext is a whole number of them, at least one, and the last byte counts the padding. -/

namespace Q2Admin
open Lib

/-- The number of blocks a plaintext becomes, a whole block of padding included. -/
def blockCount (plaintext : Bytes) : Nat := plaintext.length / aesBlockLength + 1

def paddedBlocks (plaintext : Bytes) : List Block :=
  Blocks.cut 0 (blockCount plaintext) (pkcs5Padding plaintext aesBlockLength)

def cipherBlocks (aes : Aes) (key nonce plaintext : Bytes) : List Block :=
  Cbc.encrypt Block.xor (aes.permute key) (Blocks.block 0 nonce) (paddedBlocks plaintext)

theorem length_pkcs5Padding (plaintext : Bytes) :
    (pkcs5Padding plaintext aesBlockLength).length = aesBlockLength * blockCount plaintext := by
  simp only [pkcs5Padding, List.length_append, List.length_replicate, blockCount, aesBlockLength]
  omega

theorem flatten_paddedBlocks (plaintext : Bytes) :
    Blocks.flatten (paddedBlocks plaintext) = pkcs5Padding plaintext aesBlockLength :=
  Blocks.flatten_cut 0 _ _ (length_pkcs5Padding plaintext)

theorem length_paddedBlocks (plaintext : Bytes) :
    (paddedBlocks plaintext).length = blockCount plaintext := Blocks.length_cut 0 _ _

theorem length_cipherBlocks (aes : Aes) (key nonce plaintext : Bytes) :
    (cipherBlocks aes key nonce plaintext).length = blockCount plaintext := by
  rw [cipherBlocks, Cbc.length_encrypt, length_paddedBlocks]

theorem pkcs5Padding_last (plaintext : Bytes) :
    ((pkcs5Padding plaintext aesBlockLength).getLastD 0).toNat =
      aesBlockLength - plaintext.length % aesBlockLength := by
  have bound : aesBlockLength - plaintext.length % aesBlockLength < 256 := by
    simp only [aesBlockLength]
    omega
  obtain ⟨rest, count⟩ : ∃ rest, aesBlockLength - plaintext.length % aesBlockLength = rest + 1 :=
    ⟨aesBlockLength - plaintext.length % aesBlockLength - 1, by simp only [aesBlockLength]; omega⟩
  simp only [pkcs5Padding, count, List.replicate_succ', ← List.append_assoc, List.getLastD_concat]
  rw [count] at bound
  exact UInt8.toNat_ofNat_of_lt' bound

theorem unpad_pkcs5Padding (plaintext : Bytes) :
    unpad (pkcs5Padding plaintext aesBlockLength) = (plaintext, plaintext.length) := by
  have last := pkcs5Padding_last plaintext
  have total : (pkcs5Padding plaintext aesBlockLength).length =
      plaintext.length + (aesBlockLength - plaintext.length % aesBlockLength) := by
    simp only [pkcs5Padding, List.length_append, List.length_replicate]
  have kept : (pkcs5Padding plaintext aesBlockLength).take plaintext.length = plaintext := by
    rw [pkcs5Padding, List.take_left]
  simp only [unpad, last, total, Nat.add_sub_cancel, kept]
  rw [if_neg (by omega)]

theorem cipherBlocks_ne_nil (aes : Aes) (key nonce plaintext : Bytes) :
    cipherBlocks aes key nonce plaintext ≠ [] := by
  intro empty
  have count := length_cipherBlocks aes key nonce plaintext
  rw [empty] at count
  exact absurd count.symm (Nat.succ_ne_zero _)

theorem cipherLength (aes : Aes) (key nonce plaintext : Bytes) :
    IsLeast {n | aesBlockLength ∣ n ∧ plaintext.length < n}
      (Blocks.flatten (cipherBlocks aes key nonce plaintext)).length := by
  rw [Blocks.length_flatten, length_cipherBlocks, blockCount]
  simp only [aesBlockLength]
  constructor
  · exact ⟨Nat.dvd_mul_right _ _, by omega⟩
  · rintro n ⟨⟨blocks, rfl⟩, longer⟩
    omega

section
variable (aes : Aes) {key nonce : Bytes} (keyLength : key.length = aesBlockLength)
  (nonceLength : nonce.length = aesBlockLength)
include keyLength nonceLength

theorem symmetricEncrypt_eq (plaintext : Bytes) :
    symmetricEncrypt aes key nonce plaintext =
      .ok (Blocks.flatten (cipherBlocks aes key nonce plaintext)) := by
  have blocks := length_pkcs5Padding plaintext
  have count : aesBlockLength * blockCount plaintext / aesBlockLength = blockCount plaintext :=
    Nat.mul_div_cancel_left _ (by decide)
  have accepted : aes.newCipher key = some (aes.permute key) := if_pos (.inl keyLength)
  simp only [symmetricEncrypt, accepted, cryptBlocks, nonceLength, blocks, Nat.mul_mod_right, count,
    ne_eq, not_true_eq_false, ↓reduceIte]
  rfl

theorem symmetricDecrypt_eq (blocks : List Block) (nonempty : blocks ≠ []) :
    symmetricDecrypt aes key nonce (Blocks.flatten blocks) =
      .ok (unpad (Blocks.flatten
        (Cbc.decrypt Block.xor (aes.permute key) (Blocks.block 0 nonce) blocks))) := by
  have total := Blocks.length_flatten blocks
  have count : 16 * blocks.length / 16 = blocks.length := Nat.mul_div_cancel_left _ (by decide)
  have accepted : aes.newCipher key = some (aes.permute key) := if_pos (.inl keyLength)
  have whole := Blocks.cut_flatten 0 blocks
  have length : 16 * blocks.length ≠ 0 := by
    have positive := List.length_pos_iff.mpr nonempty
    omega
  simp only [aesBlockLength] at keyLength nonceLength
  simp only [symmetricDecrypt, cryptBlocks, keyLength, nonceLength, total, count, accepted, whole,
    length, aesBlockLength, Nat.mul_mod_right, ne_eq, not_true_eq_false, ↓reduceIte,
    Nat.reduceEqDiff]
  rfl

theorem symmetricDecrypt_encrypted (plaintext : Bytes) :
    symmetricDecrypt aes key nonce (Blocks.flatten (cipherBlocks aes key nonce plaintext)) =
      .ok (plaintext, plaintext.length) := by
  rw [symmetricDecrypt_eq aes keyLength nonceLength _ (cipherBlocks_ne_nil aes key nonce plaintext),
    cipherBlocks, Cbc.decrypt_encrypt _ Block.xor_xor, flatten_paddedBlocks, unpad_pkcs5Padding]

/-- Encryption round trip: every plaintext comes back with its length, and the ciphertext
is the shortest whole number of blocks that is longer than the plaintext. -/
theorem symmetric_round_trip (plaintext : Bytes) : ∃ ciphertext,
    symmetricEncrypt aes key nonce plaintext = .ok ciphertext ∧
    symmetricDecrypt aes key nonce ciphertext = .ok (plaintext, plaintext.length) ∧
    IsLeast {n | aesBlockLength ∣ n ∧ plaintext.length < n} ciphertext.length :=
  ⟨_, symmetricEncrypt_eq aes keyLength nonceLength plaintext,
    symmetricDecrypt_encrypted aes keyLength nonceLength plaintext,
    cipherLength aes key nonce plaintext⟩

end

/-- A key of sixteen zero bytes and a plaintext that fills its block. -/
theorem symmetric_round_trip_full_block : ∃ ciphertext,
    symmetricEncrypt ⟨fun _ => Equiv.refl _⟩ (List.replicate 16 0) (List.replicate 16 1)
      (ascii "My hyperblaster!") = .ok ciphertext ∧
    symmetricDecrypt ⟨fun _ => Equiv.refl _⟩ (List.replicate 16 0) (List.replicate 16 1)
      ciphertext = .ok (ascii "My hyperblaster!", 16) ∧
    IsLeast {n | aesBlockLength ∣ n ∧ 16 < n} ciphertext.length :=
  symmetric_round_trip ⟨fun _ => Equiv.refl _⟩ (by decide) (by decide) (ascii "My hyperblaster!")

end Q2Admin
