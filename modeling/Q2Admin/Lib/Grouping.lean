import Mathlib.Data.List.Perm.Basic

/-! Lists put into groups by a key, the groups in the order of a list of keys and each of them in
the order of the list. Where the keys are ranked, that is a stable sort. -/

namespace Q2Admin.Lib.Grouping

variable {α κ : Type} [DecidableEq κ] (key : α → κ)

def grouped (order : List κ) (l : List α) : List α := order.flatMap fun k => l.filter fun a => key a = k

variable {key} {order : List κ} {l : List α}

theorem mem_grouped {a : α} : a ∈ grouped key order l ↔ a ∈ l ∧ key a ∈ order := by
  simp only [grouped, List.mem_flatMap, List.mem_filter, decide_eq_true_eq]
  constructor
  · rintro ⟨k, listed, member, rfl⟩
    exact ⟨member, listed⟩
  · intro both
    exact ⟨key a, both.2, both.1, rfl⟩

/-- A group keeps its order. -/
theorem filter_grouped (distinct : order.Nodup) {k : κ} (known : k ∈ order) :
    (grouped key order l).filter (fun a => key a = k) = l.filter fun a => key a = k := by
  induction order with
  | nil => cases known
  | cons c rest ih =>
    have fresh := (List.nodup_cons.mp distinct).1
    have split : grouped key (c :: rest) l = l.filter (fun a => key a = c) ++ grouped key rest l := rfl
    rw [split, List.filter_append, List.filter_filter]
    by_cases first : k = c
    · have later : (grouped key rest l).filter (fun a => key a = k) = [] := by
        apply List.filter_eq_nil_iff.mpr
        intro a member
        have listed := (mem_grouped.mp member).2
        simp only [decide_eq_true_eq]
        rintro rfl
        exact fresh (first ▸ listed)
      rw [later, List.append_nil, first]
      simp only [Bool.and_self]
    · have none : l.filter (fun a => decide (key a = k) && decide (key a = c)) = [] := by
        apply List.filter_eq_nil_iff.mpr
        intro a _
        simp only [Bool.and_eq_true, decide_eq_true_eq]
        rintro ⟨rfl, same⟩
        exact first same
      rw [none, List.nil_append]
      exact ih (List.nodup_cons.mp distinct).2 ((List.mem_cons.mp known).resolve_left first)

theorem grouped_grouped (distinct : order.Nodup) : grouped key order (grouped key order l) = grouped key order l :=
  List.flatMap_congr fun _ known => filter_grouped distinct known

/-- Nothing is lost, and nothing doubled. -/
theorem grouped_perm (distinct : order.Nodup) (covered : ∀ a ∈ l, key a ∈ order) : (grouped key order l).Perm l := by
  classical
  apply List.perm_iff_count.mpr
  intro a
  by_cases known : key a ∈ order
  · calc (grouped key order l).count a
        = ((grouped key order l).filter fun b => key b = key a).count a := (List.count_filter (by simp)).symm
      _ = (l.filter fun b => key b = key a).count a := by rw [filter_grouped distinct known]
      _ = l.count a := List.count_filter (by simp)
  · rw [List.count_eq_zero_of_not_mem fun member => known (mem_grouped.mp member).2,
      List.count_eq_zero_of_not_mem fun member => known (covered a member)]

/-- The groups come in the order of their keys. -/
theorem grouped_pairwise {r : κ → κ → Prop} (same : ∀ k, r k k) (ranked : order.Pairwise r) :
    (grouped key order l).Pairwise fun a b => r (key a) (key b) := by
  have own {a : α} {k : κ} (member : a ∈ l.filter fun a => key a = k) : key a = k :=
    of_decide_eq_true (List.mem_filter.mp member).2
  refine List.pairwise_flatMap.mpr ⟨fun k _ => ?_, ranked.imp fun {k k'} above a member b member' => ?_⟩
  · apply List.pairwise_of_forall_mem_list
    intro a member b member'
    rw [own member, own member']
    exact same k
  · rw [own member, own member']
    exact above

theorem filter_of_grouped (p : α → Bool) : (grouped key order l).filter p = grouped key order (l.filter p) := by
  rw [grouped, List.filter_flatMap]
  apply List.flatMap_congr
  intro k _
  rw [List.filter_filter, List.filter_filter]
  congr 1
  funext a
  exact Bool.and_comm ..

end Q2Admin.Lib.Grouping
