import Q2Admin.SymmetricRoundTrip

/-! What `SymmetricDecrypt` takes for a message. Only the last byte of the plaintext is looked at:
one that counts more than there are is refused, and any other is believed. -/

namespace Q2Admin
open Lib

/-- As many bytes at the end as they say, up to a block of them. -/
def Padded (plaintext : Bytes) : Prop :=
  ∃ padding, 1 ≤ padding ∧ padding ≤ aesBlockLength ∧ List.replicate padding (UInt8.ofNat padding) <:+ plaintext

/-- The last byte counts the whole plaintext, or more. -/
def Consumed (plaintext : Bytes) : Prop := plaintext.length ≤ (plaintext.getLastD 0).toNat

def cbcPlaintext (aes : Aes) (key nonce ciphertext : Bytes) : Bytes :=
  Blocks.flatten (Cbc.decrypt Block.xor (aes.permute key) (Blocks.block 0 nonce)
    (Blocks.cut 0 (ciphertext.length / aesBlockLength) ciphertext))

/-- What is decrypted is what was encrypted, and what was not is refused with size 0. -/
def Authentic (aes : Aes) (key nonce ciphertext : Bytes) : Prop :=
  ∃ plaintext size, symmetricDecrypt aes key nonce ciphertext = .ok (plaintext, size) ∧
    (0 < size → symmetricEncrypt aes key nonce plaintext = .ok ciphertext) ∧
    (¬ Padded (cbcPlaintext aes key nonce ciphertext) → size = 0)

theorem unpad_size (plaintext : Bytes) : (unpad plaintext).2 = 0 ↔ Consumed plaintext := by
  by_cases more : plaintext.length < (plaintext.getLastD 0).toNat
  · have refused : unpad plaintext = ([], 0) := if_pos more
    rw [refused]
    exact ⟨fun _ => Nat.le_of_lt more, fun _ => rfl⟩
  · have taken : unpad plaintext = (plaintext.take (plaintext.length - (plaintext.getLastD 0).toNat),
        (plaintext.take (plaintext.length - (plaintext.getLastD 0).toNat)).length) := if_neg more
    rw [taken, List.length_take, Consumed]
    omega

/-- A whole number of blocks is padded exactly if `PKCS5Padding` has made it. -/
theorem padded_iff {plaintext : Bytes} (whole : plaintext.length % aesBlockLength = 0) :
    Padded plaintext ↔ ∃ front, plaintext = pkcs5Padding front aesBlockLength := by
  constructor
  · rintro ⟨padding, positive, bound, front, same⟩
    refine ⟨front, ?_⟩
    have total := congrArg List.length same
    rw [List.length_append, List.length_replicate] at total
    have count : padding = aesBlockLength - front.length % aesBlockLength := by
      simp only [aesBlockLength] at *
      omega
    rw [pkcs5Padding, ← count, same]
  · rintro ⟨front, rfl⟩
    have inside : front.length % aesBlockLength < aesBlockLength := Nat.mod_lt _ (by decide)
    exact ⟨aesBlockLength - front.length % aesBlockLength, by omega, by omega, List.suffix_append _ _⟩

section
variable (aes : Aes) {key nonce ciphertext : Bytes} (keyLength : key.length = aesBlockLength)
  (nonceLength : nonce.length = aesBlockLength) (whole : ciphertext.length % aesBlockLength = 0)
include whole

theorem flatten_cipher : Blocks.flatten
    (Blocks.cut 0 (ciphertext.length / aesBlockLength) ciphertext : List Block) = ciphertext :=
  Blocks.flatten_cut 0 _ _ (Nat.mul_div_cancel' (Nat.dvd_of_mod_eq_zero whole)).symm

theorem length_cbcPlaintext : (cbcPlaintext aes key nonce ciphertext).length = ciphertext.length := by
  rw [cbcPlaintext, Blocks.length_flatten, Cbc.length_decrypt, Blocks.length_cut]
  exact Nat.mul_div_cancel' (Nat.dvd_of_mod_eq_zero whole)

include keyLength nonceLength

theorem decrypt_cbcPlaintext (some : ciphertext ≠ []) :
    symmetricDecrypt aes key nonce ciphertext = .ok (unpad (cbcPlaintext aes key nonce ciphertext)) := by
  have blocks : (Blocks.cut 0 (ciphertext.length / aesBlockLength) ciphertext : List Block) ≠ [] := by
    intro none
    have flat := flatten_cipher whole
    rw [none] at flat
    exact some flat.symm
  have decrypted := symmetricDecrypt_eq aes keyLength nonceLength _ blocks
  rwa [flatten_cipher whole] at decrypted

/-- Encrypted again, the plaintext before its padding gives the ciphertext. -/
theorem encrypt_front {front : Bytes}
    (padded : cbcPlaintext aes key nonce ciphertext = pkcs5Padding front aesBlockLength) :
    symmetricEncrypt aes key nonce front = .ok ciphertext := by
  have blocks : paddedBlocks front = Cbc.decrypt Block.xor (aes.permute key) (Blocks.block 0 nonce)
      (Blocks.cut 0 (ciphertext.length / aesBlockLength) ciphertext) := by
    have total := length_pkcs5Padding front
    rw [← padded, cbcPlaintext, Blocks.length_flatten] at total
    have count := Nat.eq_of_mul_eq_mul_left (by decide) total
    rw [paddedBlocks, ← padded, ← count, cbcPlaintext, Blocks.cut_flatten]
  rw [symmetricEncrypt_eq aes keyLength nonceLength, cipherBlocks, blocks, Cbc.encrypt_decrypt _ Block.xor_xor,
    flatten_cipher whole]

/-- Only what was encrypted is decrypted, exactly where the plaintext is padded, or refused for its last byte. -/
theorem authentic_iff (some : ciphertext ≠ []) : Authentic aes key nonce ciphertext ↔
    Padded (cbcPlaintext aes key nonce ciphertext) ∨ Consumed (cbcPlaintext aes key nonce ciphertext) := by
  have decrypted := decrypt_cbcPlaintext aes keyLength nonceLength whole some
  constructor
  · rintro ⟨plaintext, size, returned, -, refused⟩
    by_cases padded : Padded (cbcPlaintext aes key nonce ciphertext)
    · exact .inl padded
    · rw [decrypted, Except.ok.injEq] at returned
      have none := refused padded
      rw [← unpad_size, returned]
      exact .inr none
  · intro fine
    refine ⟨(unpad (cbcPlaintext aes key nonce ciphertext)).1, (unpad (cbcPlaintext aes key nonce ciphertext)).2,
      decrypted, ?_, ?_⟩
    · intro taken
      have last : ¬ Consumed (cbcPlaintext aes key nonce ciphertext) := fun consumed =>
        absurd ((unpad_size _).mpr consumed) (Nat.ne_of_gt taken)
      have blocks : (cbcPlaintext aes key nonce ciphertext).length % aesBlockLength = 0 := by
        rw [length_cbcPlaintext aes whole, whole]
      obtain ⟨front, padded⟩ := (padded_iff blocks).mp (fine.resolve_right last)
      rw [padded, unpad_pkcs5Padding]
      exact encrypt_front aes keyLength nonceLength whole padded
    · intro unpadded
      exact (unpad_size _).mpr (fine.resolve_left unpadded)

end

/-- AES that leaves every block as it is. -/
def Aes.leaving : Aes := ⟨fun _ => Equiv.refl _⟩

theorem authentic_farewell : Authentic .leaving (List.replicate 16 0) (List.replicate 16 0)
    (ascii "bye" ++ List.replicate 13 13) := by
  have padded : Padded (cbcPlaintext .leaving (List.replicate 16 0) (List.replicate 16 0)
      (ascii "bye" ++ List.replicate 13 13)) := ⟨13, by decide, by decide, by decide +kernel⟩
  exact (authentic_iff .leaving (by decide) (by decide) (by decide) (by decide)).mpr (.inl padded)

/-- Sixteen zeros: no padding at all is believed. -/
theorem authentic_zeros : ¬ ∀ (aes : Aes) (key nonce ciphertext : Bytes), key.length = aesBlockLength →
    nonce.length = aesBlockLength → ciphertext.length % aesBlockLength = 0 → ciphertext ≠ [] →
    Authentic aes key nonce ciphertext := by
  intro promised
  obtain ⟨plaintext, size, returned, encrypted, -⟩ := promised .leaving (List.replicate 16 0) (List.replicate 16 0)
    (List.replicate 16 0) (by decide) (by decide) (by decide) (by decide)
  have taken : symmetricDecrypt .leaving (List.replicate 16 0) (List.replicate 16 0) (List.replicate 16 0) =
      .ok (List.replicate 16 0, 16) := by decide +kernel
  rw [taken] at returned
  cases returned
  have again : symmetricEncrypt .leaving (List.replicate 16 0) (List.replicate 16 0) (List.replicate 16 0) ≠
      .ok (List.replicate 16 0) := by decide +kernel
  exact again (encrypted (by decide))

end Q2Admin
