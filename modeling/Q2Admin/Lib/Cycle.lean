import Mathlib.Data.Int.ModEq
import Mathlib.Data.List.Nodup
import Mathlib.Data.List.Perm.Subperm
import Mathlib.RingTheory.Coprime.Basic

/-! Going round in a circle of positions. A stride that is coprime to their number comes past
each of them once before it is back where it began. -/

namespace Q2Admin.Lib.Cycle

variable {n : Nat} {start stride : Int}

/-- The position after so many strides. -/
def position (n : Nat) (start stride : Int) (count : Nat) : Int := (start + count * stride) % n

theorem position_zero (low : 0 ≤ start) (high : start < n) : position n start stride 0 = start := by
  rw [position, Nat.cast_zero, zero_mul, add_zero]
  exact Int.emod_eq_of_lt low high

/-- Going on from where one has come. -/
theorem position_position (first second : Nat) :
    position n (position n start stride first) stride second = position n start stride (first + second) := by
  rw [position, position, position, Int.emod_add_emod]
  congr 1
  push_cast
  ring

/-- A whole turn. -/
theorem position_full (low : 0 ≤ start) (high : start < n) : position n start stride n = start := by
  rw [position, Int.add_mul_emod_self_left]
  exact Int.emod_eq_of_lt low high

theorem position_inside (start stride : Int) (positive : 0 < n) (count : Nat) :
    0 ≤ position n start stride count ∧ position n start stride count < n :=
  ⟨Int.emod_nonneg _ (by omega), Int.emod_lt_of_pos _ (by omega)⟩

theorem position_injective (coprime : IsCoprime stride n) {a b : Nat} (below : a < n) (below' : b < n)
    (same : position n start stride (a + 1) = position n start stride (b + 1)) : a = b := by
  have divides : (n : Int) ∣ (a - b) * stride := by
    have difference : (n : Int) ∣ start + (a + 1 : Nat) * stride - (start + (b + 1 : Nat) * stride) :=
      Int.ModEq.dvd (Int.ModEq.symm same)
    convert difference using 1
    push_cast
    ring
  have apart : (n : Int) ∣ a - b := coprime.symm.dvd_of_dvd_mul_right divides
  have none : (a : Int) - b = 0 := Int.eq_zero_of_abs_lt_dvd apart (abs_lt.mpr ⟨by omega, by omega⟩)
  omega

/-- The positions passed on a turn. -/
def turn (n : Nat) (start stride : Int) (count : Nat) : List Int :=
  (List.range count).map fun k => position n start stride (k + 1)

theorem turn_succ (count : Nat) : turn n start stride (count + 1) =
    position n start stride 1 :: turn n (position n start stride 1) stride count := by
  rw [turn, List.range_succ_eq_map, List.map_cons, List.map_map]
  congr 1
  apply List.map_congr_left
  intro k _
  rw [position_position, Nat.add_comm 1]
  rfl

/-- Each position comes once. -/
theorem turn_perm (coprime : IsCoprime stride n) (positive : 0 < n) :
    (turn n start stride n).Perm ((List.range n).map (Nat.cast : Nat → Int)) := by
  have distinct : (turn n start stride n).Nodup := by
    apply List.nodup_range.map_on
    intro a below b below' same
    exact position_injective coprime (List.mem_range.mp below) (List.mem_range.mp below') same
  have inside : turn n start stride n ⊆ (List.range n).map (Nat.cast : Nat → Int) := by
    intro value passed
    obtain ⟨k, -, rfl⟩ := List.mem_map.mp passed
    obtain ⟨low, high⟩ := position_inside start stride positive (k + 1)
    refine List.mem_map.mpr ⟨(position n start stride (k + 1)).toNat, List.mem_range.mpr (by omega), by omega⟩
  apply (distinct.subperm inside).perm_of_length_le
  rw [turn, List.length_map, List.length_map]

end Q2Admin.Lib.Cycle
