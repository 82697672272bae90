import Mathlib.Logic.Equiv.Defs

/-! Cipher block chaining over any type of blocks. A block is masked with the cipher
block before it and then permuted; the mask undoes itself, as exclusive or does. -/

namespace Q2Admin.Lib.Cbc

variable {X : Type} (mask : X → X → X) (cipher : Equiv.Perm X)

def encrypt : X → List X → List X
  | _, [] => []
  | iv, p :: rest => cipher (mask p iv) :: encrypt (cipher (mask p iv)) rest

def decrypt : X → List X → List X
  | _, [] => []
  | iv, c :: rest => mask (cipher.symm c) iv :: decrypt c rest

@[simp] theorem length_encrypt (iv : X) (blocks : List X) :
    (encrypt mask cipher iv blocks).length = blocks.length := by
  induction blocks generalizing iv with
  | nil => rfl
  | cons p rest ih => simp only [encrypt, List.length_cons, ih]

@[simp] theorem length_decrypt (iv : X) (blocks : List X) :
    (decrypt mask cipher iv blocks).length = blocks.length := by
  induction blocks generalizing iv with
  | nil => rfl
  | cons c rest ih => simp only [decrypt, List.length_cons, ih]

variable {mask} (undo : ∀ p v, mask (mask p v) v = p)
include undo

theorem decrypt_encrypt (iv : X) (blocks : List X) :
    decrypt mask cipher iv (encrypt mask cipher iv blocks) = blocks := by
  induction blocks generalizing iv with
  | nil => rfl
  | cons p rest ih => rw [encrypt, decrypt, Equiv.symm_apply_apply, undo, ih]

theorem encrypt_decrypt (iv : X) (blocks : List X) :
    encrypt mask cipher iv (decrypt mask cipher iv blocks) = blocks := by
  induction blocks generalizing iv with
  | nil => rfl
  | cons c rest ih => rw [decrypt, encrypt, undo, Equiv.apply_symm_apply, ih]

/-- The initial vector reaches the first block only: every later block is masked with
a cipher block that the receiver has. -/
theorem decrypt_encrypt_other (iv other : X) (p : X) (rest : List X) :
    decrypt mask cipher other (encrypt mask cipher iv (p :: rest)) =
      mask (mask p iv) other :: rest := by
  rw [encrypt, decrypt, Equiv.symm_apply_apply, decrypt_encrypt cipher undo]

end Q2Admin.Lib.Cbc
