import Q2Admin.Connection
import Q2Admin.SymmetricRoundTrip

/-! The second attempt at a packet, under the previous initial vector. A wrong vector
garbles the first block only, and shows only if it makes the padding byte too large; the
second attempt is then made on the empty result of the first. -/

namespace Q2Admin
open Lib

/-- An encrypted connection in its message loop that has sent a packet before. -/
structure Frontend.Chained (fe : Frontend) : Prop where
  trusted : fe.trusted = true
  encrypted : fe.encrypted = true
  keyLength : fe.symmetricKey.length = aesBlockLength
  ivLength : fe.initVector.length = aesBlockLength
  previousLength : fe.previousIV.length = aesBlockLength

/-- The two vectors agree wherever the first block of the padded message is read. -/
def Interchangeable (m iv other : Bytes) : Prop :=
  ∀ k : Fin 16, k.val < m.length ∨ k.val = 15 →
    (Blocks.block 0 iv : Block) k = (Blocks.block 0 other : Block) k

instance (m iv other : Bytes) : Decidable (Interchangeable m iv other) :=
  inferInstanceAs (Decidable (∀ k : Fin 16, k.val < m.length ∨ k.val = 15 →
    (Blocks.block 0 iv : Block) k = (Blocks.block 0 other : Block) k))

/-! ## The padding check -/

theorem unpad_eq_iff {garbled m : Bytes} (nonempty : m ≠ []) : unpad garbled = (m, m.length) ↔
    (garbled.getLastD 0).toNat + m.length = garbled.length ∧ garbled.take m.length = m := by
  have positive : 0 < m.length := List.length_pos_iff.mpr nonempty
  unfold unpad
  by_cases spills : (garbled.getLastD 0).toNat > garbled.length
  case pos =>
    simp only [spills, ↓reduceIte, Prod.mk.injEq]
    constructor
    · intro same
      omega
    · intro same
      omega
  case neg =>
    simp only [spills, ↓reduceIte, Prod.mk.injEq]
    constructor
    · rintro ⟨same, length⟩
      rw [List.length_take] at length
      have count : garbled.length - (garbled.getLastD 0).toNat = m.length := by omega
      exact ⟨by omega, count ▸ same⟩
    · rintro ⟨length, same⟩
      have count : garbled.length - (garbled.getLastD 0).toNat = m.length := by omega
      rw [count, same]
      exact ⟨rfl, rfl⟩

theorem take_eq_iff {α : Type} (xs ys : List α) (n : Nat) :
    xs.take n = ys.take n ↔ ∀ k < n, xs[k]? = ys[k]? := by
  constructor
  · intro same k inside
    have entry := congrArg (·[k]?) same
    simpa only [List.getElem?_take, inside, ↓reduceIte] using entry
  · intro same
    apply List.ext_getElem?
    intro k
    rw [List.getElem?_take, List.getElem?_take]
    split
    next inside => exact same k inside
    next => rfl

theorem getLastD_eq_iff {xs ys : Bytes} (length : xs.length = ys.length) (nonempty : ys ≠ []) :
    xs.getLastD 0 = ys.getLastD 0 ↔ xs[ys.length - 1]? = ys[ys.length - 1]? := by
  have positive := List.length_pos_iff.mpr nonempty
  have left : ys.length - 1 < xs.length := by omega
  have right : ys.length - 1 < ys.length := by omega
  simp only [List.getLastD_eq_getLast?, List.getLast?_eq_getElem?, length,
    List.getElem?_eq_getElem left, List.getElem?_eq_getElem right, Option.getD_some,
    Option.some.injEq]

/-- A garbled plaintext passes as the message when it differs neither in the message nor
in its last byte. -/
theorem unpad_garbled_iff {garbled m : Bytes} (nonempty : m ≠ [])
    (length : garbled.length = (pkcs5Padding m aesBlockLength).length) :
    unpad garbled = (m, m.length) ↔
      ∀ k, k < m.length ∨ k = (pkcs5Padding m aesBlockLength).length - 1 →
        garbled[k]? = (pkcs5Padding m aesBlockLength)[k]? := by
  have genuine := (unpad_eq_iff nonempty).mp (unpad_pkcs5Padding m)
  have padded : pkcs5Padding m aesBlockLength ≠ [] := by simp [pkcs5Padding, nonempty]
  have last : (garbled.getLastD 0).toNat + m.length = garbled.length ↔
      garbled.getLastD 0 = (pkcs5Padding m aesBlockLength).getLastD 0 := by
    rw [← UInt8.toNat_inj]
    omega
  have text : garbled.take m.length = m ↔
      garbled.take m.length = (pkcs5Padding m aesBlockLength).take m.length := by rw [genuine.2]
  rw [unpad_eq_iff nonempty, last, getLastD_eq_iff length padded, text, take_eq_iff]
  constructor
  · rintro ⟨ending, text⟩ k (inside | rfl)
    · exact text k inside
    · exact ending
  · intro same
    exact ⟨same _ (.inr rfl), fun k inside => same k (.inl inside)⟩

/-! ## The garbled block -/

theorem masked_twice_iff (p iv other : Block) (rest : Bytes) (k : Nat) :
    (List.ofFn ((p.xor iv).xor other) ++ rest)[k]? = (List.ofFn p ++ rest)[k]? ↔
      ∀ inside : k < 16, iv ⟨k, inside⟩ = other ⟨k, inside⟩ := by
  by_cases inside : k < 16
  · have unmasked : p ⟨k, inside⟩ ^^^ iv ⟨k, inside⟩ ^^^ other ⟨k, inside⟩ = p ⟨k, inside⟩ ↔
        iv ⟨k, inside⟩ = other ⟨k, inside⟩ := by
      rw [UInt8.xor_assoc]
      nth_rewrite 2 [← UInt8.xor_zero (a := p ⟨k, inside⟩)]
      rw [UInt8.xor_right_inj, UInt8.xor_eq_zero_iff]
    rw [Blocks.getElem?_inside _ rest inside, Blocks.getElem?_inside _ rest inside, Option.some.injEq]
    exact unmasked.trans ⟨fun same _ => same, fun same => same inside⟩
  · have behind : 16 ≤ k := Nat.le_of_not_lt inside
    rw [Blocks.getElem?_behind _ rest behind, Blocks.getElem?_behind _ rest behind]
    exact ⟨fun _ within => absurd within inside, fun _ => rfl⟩

theorem unpad_other_iff (aes : Aes) (key : Bytes) {iv other m : Bytes} (nonempty : m ≠ []) :
    unpad (Blocks.flatten (Cbc.decrypt Block.xor (aes.permute key) (Blocks.block 0 other)
      (cipherBlocks aes key iv m))) = (m, m.length) ↔ Interchangeable m iv other := by
  have total := length_pkcs5Padding m
  have flat := flatten_paddedBlocks m
  have count := length_paddedBlocks m
  rw [blockCount] at total count
  cases blocks : paddedBlocks m with
  | nil => simp [blocks] at count
  | cons p rest =>
    rw [blocks, Blocks.flatten_cons] at flat
    rw [cipherBlocks, blocks, Cbc.decrypt_encrypt_other _ Block.xor_xor, Blocks.flatten_cons]
    have length : (List.ofFn ((p.xor (Blocks.block 0 iv)).xor (Blocks.block 0 other)) ++
        Blocks.flatten rest).length = (pkcs5Padding m aesBlockLength).length := by
      rw [← flat]
      simp
    rw [unpad_garbled_iff nonempty length]
    nth_rewrite 2 [← flat]
    simp only [masked_twice_iff]
    rw [total]
    simp only [aesBlockLength]
    -- the last byte lies in the first block only when the message is shorter than a block
    constructor
    · intro same k read
      refine same k.val ?_ k.isLt
      have bound : k.val < 16 := k.isLt
      omega
    · intro same k read inside
      refine same ⟨k, inside⟩ ?_
      simp only
      omega

/-! ## The loop -/

/-- There is nothing left for the second attempt to decrypt. -/
theorem retry_empty (aes : Aes) {key previous : Bytes} (keyLength : key.length = aesBlockLength)
    (previousLength : previous.length = aesBlockLength) :
    symmetricDecrypt aes key previous [] = .ok ([], 0) := by
  simp [symmetricDecrypt, keyLength, previousLength, aesBlockLength]

theorem unpad_length (plaintext : Bytes) : (unpad plaintext).2 = (unpad plaintext).1.length := by
  simp only [unpad]
  split
  · rfl
  · rfl

theorem receive_iff (aes : Aes) {fe : Frontend} (chained : fe.Chained) {input plaintext m : Bytes}
    (nonempty : m ≠ [])
    (decrypted : symmetricDecrypt aes fe.symmetricKey fe.initVector input = .ok (unpad plaintext)) :
    fe.receive aes input = .ok (some m) ↔ unpad plaintext = (m, m.length) := by
  have retry := retry_empty aes chained.keyLength chained.previousLength
  have length := unpad_length plaintext
  generalize unpad plaintext = opened at decrypted length ⊢
  obtain ⟨text, size⟩ := opened
  change size = text.length at length
  subst length
  have session : (fe.encrypted && fe.trusted) = true := by simp [chained.encrypted, chained.trusted]
  simp only [Frontend.receive, session, decrypted, Bind.bind, Except.bind, ↓reduceIte]
  by_cases empty : text.length = 0
  case pos =>
    have missing := List.length_eq_zero_iff.mp empty
    subst missing
    simp [retry, Ne.symm nonempty]
  case neg =>
    simp only [empty, ↓reduceIte, List.take_length, Except.ok.injEq, Option.some.injEq, Prod.mk.injEq]
    constructor
    · rintro rfl
      exact ⟨rfl, rfl⟩
    · exact fun same => same.1

/-- What is cut off at the size of the buffer is no whole number of blocks. -/
theorem receive_cut (aes : Aes) {fe : Frontend} (chained : fe.Chained) {packet : Bytes}
    (longer : netReadLength < packet.length) :
    fe.receive aes (packet.take netReadLength) = .error .cryptoPanic := by
  have length : (packet.take netReadLength).length = 5000 := by
    rw [List.length_take]
    simp only [netReadLength] at longer ⊢
    omega
  simp [Frontend.receive, chained.encrypted, chained.trusted, symmetricDecrypt, chained.keyLength,
    chained.ivLength, length, aesBlockLength, Bind.bind, Except.bind]

section
variable (aes : Aes) {fe : Frontend} (chained : fe.Chained) {m packet : Bytes} (nonempty : m ≠ [])
include chained nonempty

theorem current_vector_delivers
    (sealed : symmetricEncrypt aes fe.symmetricKey fe.initVector m = .ok packet)
    (fits : packet.length ≤ netReadLength) :
    fe.receive aes (packet.take netReadLength) = .ok (some m) := by
  rw [symmetricEncrypt_eq aes chained.keyLength chained.ivLength, Except.ok.injEq] at sealed
  subst sealed
  have opened := symmetricDecrypt_encrypted aes chained.keyLength chained.ivLength m
  rw [← unpad_pkcs5Padding] at opened
  rw [List.take_of_length_le fits, receive_iff aes chained nonempty opened]
  exact unpad_pkcs5Padding m

/-- The previous vector is of no use: a packet under it is delivered exactly if the
current vector would do for it. -/
theorem previous_vector_delivers_iff
    (sealed : symmetricEncrypt aes fe.symmetricKey fe.previousIV m = .ok packet) :
    fe.receive aes (packet.take netReadLength) = .ok (some m) ↔
      packet.length ≤ netReadLength ∧ Interchangeable m fe.previousIV fe.initVector := by
  rw [symmetricEncrypt_eq aes chained.keyLength chained.previousLength, Except.ok.injEq] at sealed
  subst sealed
  have blocks := cipherBlocks_ne_nil aes fe.symmetricKey fe.previousIV m
  have opened := symmetricDecrypt_eq aes chained.keyLength chained.ivLength _ blocks
  by_cases fits : (Blocks.flatten (cipherBlocks aes fe.symmetricKey fe.previousIV m)).length ≤ netReadLength
  case pos =>
    rw [List.take_of_length_le fits, receive_iff aes chained nonempty opened,
      unpad_other_iff aes fe.symmetricKey nonempty]
    exact ⟨fun same => ⟨fits, same⟩, fun given => given.2⟩
  case neg =>
    rw [receive_cut aes chained (Nat.lt_of_not_le fits)]
    simp [fits]

end

def chainedFrontend : Frontend where
  connection := some 0
  encrypted := true
  initVector := List.replicate 16 3
  previousIV := List.replicate 16 0
  symmetricKey := List.replicate 16 7
  trusted := true

theorem chainedFrontend_chained : chainedFrontend.Chained := by
  constructor <;> decide

/-- A ping, encrypted under a previous vector of sixteen zeros. -/
def stalePing : Bytes := 11 :: List.replicate 15 8

example : symmetricEncrypt Aes.masking chainedFrontend.symmetricKey chainedFrontend.previousIV
    [cmdPing] = .ok stalePing := by decide

/-- The packet is no ping any more, and of a vector farther off the connection dies. -/
example : chainedFrontend.receive Aes.masking stalePing = .ok (some [15, 12, 12, 12]) := by decide

example : { chainedFrontend with initVector := List.replicate 16 128 }.receive Aes.masking stalePing =
    .ok none := by decide

theorem previous_vector_garbles : ¬ ∀ (aes : Aes) (fe : Frontend) (m packet : Bytes), fe.Chained →
    m ≠ [] → symmetricEncrypt aes fe.symmetricKey fe.previousIV m = .ok packet →
    fe.receive aes (packet.take netReadLength) = .ok (some m) := by
  intro works
  have delivered := works Aes.masking chainedFrontend [cmdPing] stalePing chainedFrontend_chained
    (by decide) (by decide)
  have garbled : chainedFrontend.receive Aes.masking (stalePing.take netReadLength) =
    .ok (some [15, 12, 12, 12]) := by decide
  rw [garbled] at delivered
  exact absurd delivered (by decide)

/-- Vectors that differ where a ping is not read. -/
def agreeingFrontend : Frontend :=
  { chainedFrontend with initVector := 0 :: List.replicate 14 3 ++ [0] }

theorem agreeingFrontend_chained : agreeingFrontend.Chained := by
  constructor <;> decide

theorem previous_vector_delivers_ping :
    agreeingFrontend.receive Aes.masking (stalePing.take netReadLength) = .ok (some [cmdPing]) ↔
      stalePing.length ≤ netReadLength ∧
        Interchangeable [cmdPing] agreeingFrontend.previousIV agreeingFrontend.initVector :=
  previous_vector_delivers_iff Aes.masking agreeingFrontend_chained (by decide) (by decide)

end Q2Admin
