import Mathlib.Data.List.OfFn
import Mathlib.Algebra.BigOperators.Group.List.Basic

/-! Lists cut into blocks of equal size, and blocks laid end to end again. -/

namespace Q2Admin.Lib.Blocks

variable {α : Type} {n : Nat}

def flatten (blocks : List (Fin n → α)) : List α := blocks.flatMap List.ofFn

/-- The first `n` elements as a block; `fill` stands in where the list ends early. -/
def block (fill : α) (xs : List α) : Fin n → α := fun i => xs.getD i fill

def cut (fill : α) : Nat → List α → List (Fin n → α)
  | 0, _ => []
  | count + 1, xs => block fill xs :: cut fill count (xs.drop n)

theorem flatten_cons (b : Fin n → α) (rest : List (Fin n → α)) :
    flatten (b :: rest) = List.ofFn b ++ flatten rest := List.flatMap_cons

theorem length_flatten (blocks : List (Fin n → α)) : (flatten blocks).length = n * blocks.length := by
  induction blocks with
  | nil => rfl
  | cons b rest ih =>
    rw [flatten_cons, List.length_append, List.length_ofFn, ih, List.length_cons, Nat.mul_succ]
    omega

@[simp] theorem length_cut (fill : α) (count : Nat) (xs : List α) :
    (cut fill count xs : List (Fin n → α)).length = count := by
  induction count generalizing xs with
  | zero => rfl
  | succ count ih => simp only [cut, List.length_cons, ih]

theorem block_append (fill : α) (b : Fin n → α) (rest : List α) :
    block fill (List.ofFn b ++ rest) = b := by
  funext i
  have inside : i.val < (List.ofFn b).length := by simp
  rw [block, List.getD_eq_getElem?_getD, List.getElem?_append_left inside]
  simp

theorem ofFn_block (fill : α) (xs : List α) (long : n ≤ xs.length) :
    List.ofFn (block fill xs : Fin n → α) = xs.take n := by
  apply List.ext_getElem
  · simp [long]
  · intro i inside _
    have bound : i < xs.length := by
      rw [List.length_ofFn] at inside
      omega
    simp [block, List.getD_eq_getElem?_getD, bound]

theorem getElem?_inside (b : Fin n → α) (rest : List α) {k : Nat} (inside : k < n) :
    (List.ofFn b ++ rest)[k]? = some (b ⟨k, inside⟩) := by
  have bound : k < (List.ofFn b).length := by rwa [List.length_ofFn]
  rw [List.getElem?_append_left bound, List.getElem?_ofFn, dif_pos inside]

theorem getElem?_behind (b : Fin n → α) (rest : List α) {k : Nat} (behind : n ≤ k) :
    (List.ofFn b ++ rest)[k]? = rest[k - n]? := by
  have bound : (List.ofFn b).length ≤ k := by rwa [List.length_ofFn]
  rw [List.getElem?_append_right bound, List.length_ofFn]

theorem cut_flatten (fill : α) (blocks : List (Fin n → α)) :
    cut fill blocks.length (flatten blocks) = blocks := by
  induction blocks with
  | nil => rfl
  | cons b rest ih =>
    have tail : (List.ofFn b ++ flatten rest).drop n = flatten rest := by
      rw [List.drop_append_of_le_length (by simp), List.drop_of_length_le (by simp), List.nil_append]
    rw [List.length_cons, flatten_cons, cut, block_append, tail, ih]

theorem flatten_cut (fill : α) (count : Nat) (xs : List α) (whole : xs.length = n * count) :
    flatten (cut fill count xs : List (Fin n → α)) = xs := by
  induction count generalizing xs with
  | zero =>
    rw [Nat.mul_zero, List.length_eq_zero_iff] at whole
    subst whole
    rfl
  | succ count ih =>
    rw [Nat.mul_succ] at whole
    rw [cut, flatten_cons, ofFn_block fill xs (by omega), ih (xs.drop n) (by simp [whole]),
      List.take_append_drop]

end Q2Admin.Lib.Blocks
