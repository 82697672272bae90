import Q2Admin.Lib.Blocks
import Q2Admin.Lib.Cbc
import Q2Admin.Go

/-! `crypto/crypto.go`: AES-128-CBC with the padding byte that says its own number,
and the hash and RSA calls of the handshake. -/

namespace Q2Admin
open Lib

def aesBlockLength : Nat := 16
def aesIVLength : Nat := 16
def rsaKeyLength : Nat := 256

/-- A block of AES, sixteen bytes whatever the key. -/
abbrev Block := Fin 16 → Byte

def Block.xor (a b : Block) : Block := fun i => a i ^^^ b i

theorem Block.xor_xor (a b : Block) : (a.xor b).xor b = a := by
  funext i
  show a i ^^^ b i ^^^ b i = a i
  rw [UInt8.xor_assoc, UInt8.xor_self, UInt8.xor_zero]

/-- AES: under each key a permutation of the blocks. -/
structure Aes where
  permute : Bytes → Equiv.Perm Block

/-- A cipher that masks with the key, for runs on concrete bytes. -/
def Aes.masking : Aes :=
  ⟨fun key => Function.Involutive.toPerm (fun b => b.xor (Blocks.block 0 key)) fun b => b.xor_xor _⟩

/-- `aes.NewCipher`, which takes keys of three lengths. -/
def Aes.newCipher (aes : Aes) (key : Bytes) : Option (Equiv.Perm Block) :=
  if key.length = 16 ∨ key.length = 24 ∨ key.length = 32 then some (aes.permute key) else none

def pkcs5Padding (input : Bytes) (blockSize : Nat) : Bytes :=
  let padding := blockSize - input.length % blockSize
  input ++ List.replicate padding (UInt8.ofNat padding)

/-- `NewCBCEncrypter` or `NewCBCDecrypter` and `CryptBlocks`, with the panics of both. -/
def cryptBlocks (mode : Block → List Block → List Block) (nonce input : Bytes) : Except Fault Bytes :=
  if nonce.length ≠ aesBlockLength then .error .cryptoPanic
  else if input.length % aesBlockLength ≠ 0 then .error .cryptoPanic
  else .ok (Blocks.flatten
    (mode (Blocks.block 0 nonce) (Blocks.cut 0 (input.length / aesBlockLength) input)))

section
variable (aes : Aes)

/-- A key that AES refuses is only printed, and the nil cipher then dereferenced. -/
def symmetricEncrypt (key nonce plaintext : Bytes) : Except Fault Bytes :=
  match aes.newCipher key with
  | none => .error .cryptoPanic
  | some block => cryptBlocks (Cbc.encrypt Block.xor block) nonce (pkcs5Padding plaintext aesBlockLength)

/-- The last byte is the number of bytes padded; length 0 stands for a failure as well. -/
def unpad (plaintext : Bytes) : Bytes × Nat :=
  let padding := (plaintext.getLastD 0).toNat
  if padding > plaintext.length then ([], 0)
  else
    let unpadded := plaintext.take (plaintext.length - padding)
    (unpadded, unpadded.length)

def symmetricDecrypt (key nonce ciphertext : Bytes) : Except Fault (Bytes × Nat) :=
  if key.length ≠ nonce.length then .error .cryptoPanic
  else if key.length = 0 then .error .cryptoPanic
  else if ciphertext.length % key.length ≠ 0 then .error .cryptoPanic
  else if ciphertext.length = 0 then .ok ([], 0)
  else match aes.newCipher key with
    | none => .error .cryptoPanic
    | some block => do
      let plaintext ← cryptBlocks (Cbc.decrypt Block.xor block) nonce ciphertext
      .ok (unpad plaintext)

end

/-- `rsa.PublicKey`. -/
structure PublicKey where
  n : Nat
  e : Nat
  deriving DecidableEq, Repr

/-- The hashes and the RSA operations, with our private key already in place. -/
structure KeyLib where
  md5 : Bytes → Bytes
  /-- The digest of SHA-256 is 32 bytes. -/
  sha256 : Bytes → Fin 32 → Byte
  /-- The type and the bytes of the first block. -/
  pemDecode : Bytes → Option (Bytes × Bytes)
  /-- `x509.ParsePKIXPublicKey`, if it gives an RSA key. -/
  parsePKIXPublicKey : Bytes → Option PublicKey
  parsePKCS1PublicKey : Bytes → Option PublicKey
  /-- `rsa.EncryptPKCS1v15`, with the random bytes it pads with. -/
  encryptPKCS1v15 : PublicKey → Bytes → (Nat → Byte) → Option Bytes
  /-- `key.Decrypt` with our private key. -/
  privateDecrypt : Bytes → Option Bytes

/-- Hashes that keep the first bytes, and RSA with its exponents one: the ciphertext is the
padded message. For runs on concrete bytes. -/
def KeyLib.plain : KeyLib where
  md5 input := input.take 16
  sha256 := Blocks.block 0
  pemDecode text := if text = [] then none else some (ascii "PUBLIC KEY", text)
  parsePKIXPublicKey _ := some ⟨0, 0⟩
  parsePKCS1PublicKey _ := some ⟨0, 0⟩
  encryptPKCS1v15 _ message random :=
    if rsaKeyLength < message.length + 11 then none
    else some (0 :: 2 :: (List.range (rsaKeyLength - 3 - message.length)).map (fun k => max 1 (random k)) ++
      0 :: message)
  privateDecrypt
    | 0 :: 2 :: padded =>
      if padded.length + 2 = rsaKeyLength then some (padded.dropWhile (· ≠ 0)).tail else none
    | _ => none

/-- `LoadPublicKey` on what the file holds, if it can be read. No result is its error; the key
it returns without one may be nil, since neither parser is asked for its error. -/
def KeyLib.loadPublicKey (keys : KeyLib) (pub : Option Bytes) : Except Fault (Option (Option PublicKey)) :=
  match pub with
  | none => .ok none
  | some pub => match keys.pemDecode pub with
    | none => .error .nilBlock
    | some (type, der) =>
      if type = ascii "PUBLIC KEY" then
        -- `public.(*rsa.PublicKey)`
        match keys.parsePKIXPublicKey der with
        | none => .error .typeAssertion
        | some key => .ok (some (some key))
      else if type = ascii "RSA PUBLIC KEY" then .ok (some (keys.parsePKCS1PublicKey der))
      else .ok none

/-- The text of a digest in hexadecimal. -/
def hexString (bytes : Bytes) : Bytes :=
  bytes.flatMap fun b =>
    [b.toNat / 16, b.toNat % 16].map fun d => UInt8.ofNat (if d < 10 then 48 + d else 87 + d)

def md5Hash (keys : KeyLib) (input : Bytes) : Bytes :=
  if input = [] then [] else hexString (keys.md5 input)

/-- `MessageDigest`, an error on empty input. -/
def messageDigest (keys : KeyLib) (input : Bytes) : Option Bytes :=
  if input = [] then none else some (List.ofFn (keys.sha256 input))

end Q2Admin
