import Mathlib.Algebra.BigOperators.Group.List.Basic
import Mathlib.Algebra.Order.Ring.Nat

/-! Counting a conjunction. A test that has to hold adds to what is needed, and to
what is had when it holds; the conjunction is read off by comparing the two sums.
That works exactly as long as no part adds more than it asked for. -/

namespace Q2Admin.Lib

structure Tally where
  needs : Nat
  haves : Nat
  matched : Bool
  deriving DecidableEq, Repr

namespace Tally

def zero : Tally := ⟨0, 0, false⟩

def add (s t : Tally) : Tally := ⟨s.needs + t.needs, s.haves + t.haves, s.matched || t.matched⟩

def total (parts : List Tally) : Tally := parts.foldl add zero

/-- How much of what a part needs it does not have. -/
def missing (t : Tally) : Nat := t.needs - t.haves

def deficit (parts : List Tally) : Nat := (parts.map missing).sum

/-- A part that never has more than it needs, and reports a match when it needs
something and has all of it. -/
structure Honest (t : Tally) : Prop where
  haves_le : t.haves ≤ t.needs
  matched_iff : t.matched = true ↔ t.needs ≠ 0 ∧ t.haves = t.needs

@[simp] theorem needs_add (s t : Tally) : (s.add t).needs = s.needs + t.needs := rfl
@[simp] theorem haves_add (s t : Tally) : (s.add t).haves = s.haves + t.haves := rfl
@[simp] theorem matched_add (s t : Tally) : (s.add t).matched = (s.matched || t.matched) := rfl

theorem add_assoc (r s t : Tally) : (r.add s).add t = r.add (s.add t) := by
  simp only [add, Nat.add_assoc, Bool.or_assoc]

theorem zero_add (t : Tally) : zero.add t = t := by
  simp only [add, zero, Nat.zero_add, Bool.false_or]

theorem add_zero (t : Tally) : t.add zero = t := by
  simp only [add, zero, Nat.add_zero, Bool.or_false]

theorem foldl_add (parts : List Tally) (start : Tally) :
    parts.foldl add start = start.add (total parts) := by
  induction parts generalizing start with
  | nil => exact (add_zero start).symm
  | cons part rest ih =>
    rw [total, List.foldl_cons, List.foldl_cons, ih, ih (zero.add part), zero_add, add_assoc]

theorem total_cons (part : Tally) (rest : List Tally) :
    total (part :: rest) = part.add (total rest) := by
  rw [total, List.foldl_cons, foldl_add, zero_add]

theorem deficit_cons (part : Tally) (rest : List Tally) :
    deficit (part :: rest) = part.missing + deficit rest := by
  simp only [deficit, List.map_cons, List.sum_cons]

/-- With honest parts only, what is needed is what is had and what is missing. -/
theorem needs_total {parts : List Tally} (honest : ∀ part ∈ parts, Honest part) :
    (total parts).needs = (total parts).haves + deficit parts := by
  induction parts with
  | nil => rfl
  | cons part rest ih =>
    have tail := ih (fun other member => honest other (List.mem_cons_of_mem _ member))
    have head := (honest part List.mem_cons_self).haves_le
    rw [total_cons, deficit_cons, needs_add, haves_add, tail, missing]
    omega

theorem deficit_eq_zero {parts : List Tally} (honest : ∀ part ∈ parts, Honest part) :
    deficit parts = 0 ↔ ∀ part ∈ parts, part.haves = part.needs := by
  induction parts with
  | nil => simp [deficit]
  | cons part rest ih =>
    have tail := ih (fun other member => honest other (List.mem_cons_of_mem _ member))
    have head := (honest part List.mem_cons_self).haves_le
    rw [deficit_cons, Nat.add_eq_zero_iff, tail, List.forall_mem_cons, missing]
    exact and_congr_left (fun _ => by omega)

theorem matched_total (parts : List Tally) :
    (total parts).matched = true ↔ ∃ part ∈ parts, part.matched = true := by
  induction parts with
  | nil => simp [total, zero]
  | cons part rest ih => simp [total_cons, ih]

/-- Something is needed and nothing is missing: then some part reported a match. -/
theorem matched_of_met {parts : List Tally} (honest : ∀ part ∈ parts, Honest part)
    (met : deficit parts = 0) (asked : ∃ part ∈ parts, part.needs ≠ 0) :
    (total parts).matched = true := by
  obtain ⟨part, member, needed⟩ := asked
  have full := (deficit_eq_zero honest).mp met part member
  exact (matched_total parts).mpr ⟨part, member, (honest part member).matched_iff.mpr ⟨needed, full⟩⟩

end Tally
end Q2Admin.Lib
