import Mathlib.Data.List.Basic

/-! Lists split at a separator. The pieces are one more than the separators, which
is all a parser needs to know about the parity of its fields. -/

namespace Q2Admin.Lib.Separated

variable {α : Type} [BEq α]

theorem length_splitOn (separator : α) (xs : List α) :
    (xs.splitOn separator).length = xs.count separator + 1 := by
  induction xs with
  | nil => simp
  | cons x rest ih =>
    rw [List.splitOn_cons_eq_if_modifyHead, List.count_cons]
    split
    · simp only [List.length_cons, ih]
    · simp only [List.length_modifyHead, ih, Nat.add_zero]

theorem length_splitOn_even (separator : α) (xs : List α) :
    (xs.splitOn separator).length % 2 = 0 ↔ xs.count separator % 2 = 1 := by
  rw [length_splitOn]
  omega

/-- What is no separator is in one of the pieces. -/
theorem exists_mem_splitOn [LawfulBEq α] {separator x : α} {xs : List α} (member : x ∈ xs) (other : x ≠ separator) :
    ∃ piece ∈ xs.splitOn separator, x ∈ piece := by
  induction xs with
  | nil => cases member
  | cons y rest ih =>
    rw [List.splitOn_cons_eq_if_modifyHead]
    split
    · next cut =>
      have later : x ∈ rest := (List.mem_cons.mp member).resolve_left fun same => other (same.trans (eq_of_beq cut))
      obtain ⟨piece, split, inside⟩ := ih later
      exact ⟨piece, List.mem_cons_of_mem [] split, inside⟩
    · cases pieces : rest.splitOn separator with
      | nil => exact absurd pieces (List.splitOn_ne_nil separator rest)
      | cons first others =>
        rw [List.modifyHead_cons]
        rcases List.mem_cons.mp member with here | later
        · exact ⟨y :: first, List.mem_cons_self, here ▸ List.mem_cons_self⟩
        · obtain ⟨piece, split, inside⟩ := ih later
          rcases List.mem_cons.mp (pieces ▸ split) with same | tail
          · exact ⟨y :: first, List.mem_cons_self, List.mem_cons_of_mem y (same ▸ inside)⟩
          · exact ⟨piece, List.mem_cons_of_mem _ tail, inside⟩

end Q2Admin.Lib.Separated
