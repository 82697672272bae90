import Mathlib.Data.List.Basic

/-! Patterns in which wildcards and literals take turns. A wildcard stands for any symbols
without a line break, at least one, and takes as many as it can: the match is what a search
with backtracking finds first, starting as far to the left as there is a match. -/

namespace Q2Admin.Lib.Wildcard

variable {α : Type}

/-- A wildcard and the literal behind it. -/
structure Piece (α : Type) where
  captured : Bool
  literal : List α
  deriving DecidableEq

abbrev Pattern (α : Type) := List (Piece α)

/-- The text with these symbols for the wildcards. -/
def render : Pattern α → List (List α) → List α
  | piece :: pattern, fill :: fills => fill ++ (piece.literal ++ render pattern fills)
  | _, _ => []

section
variable [DecidableEq α] (stop : α)

/-- The text starts with a match, in which the wildcards stand for the `fills`. -/
inductive Splits : Pattern α → List (List α) → List α → Prop where
  | nil (text : List α) : Splits [] [] text
  | cons {piece : Piece α} {pattern : Pattern α} {fill : List α} {fills : List (List α)} {text : List α}
      (some : fill ≠ []) (whole : stop ∉ fill) (rest : Splits pattern fills text) :
      Splits (piece :: pattern) (fill :: fills) (fill ++ (piece.literal ++ text))

/-- There is a match at the start of the text. -/
def Legible (pattern : Pattern α) (text : List α) : Prop := ∃ fills, Splits stop pattern fills text

/-- The longest of the first `count` prefixes that is not empty and before an accepted rest. -/
def longest {γ : Type} (accepts : List α → Option γ) (text : List α) : Nat → Option (List α × γ)
  | 0 => none
  | count + 1 =>
    match accepts (text.drop (count + 1)) with
    | some result => some (text.take (count + 1), result)
    | none => longest accepts text count

/-- What is left behind a literal. -/
def behind (literal text : List α) : Option (List α) :=
  if literal <+: text then some (text.drop literal.length) else none

/-- The match at the start of the text: what its wildcards stand for. -/
def matchStart : Pattern α → List α → Option (List (List α))
  | [], _ => some []
  | piece :: pattern, text =>
    (longest (fun rest => (behind piece.literal rest).bind fun rest => matchStart pattern rest) text
      (text.takeWhile (· ≠ stop)).length).map fun (fill, fills) => fill :: fills

/-- The leftmost match. -/
def search (pattern : Pattern α) (text : List α) : Option (List (List α)) :=
  match matchStart stop pattern text with
  | some fills => some fills
  | none =>
    match text with
    | [] => none
    | _ :: text => search pattern text

/-- What was captured of a match. -/
def captures : Pattern α → List (List α) → List (List α)
  | piece :: pattern, fill :: fills =>
    if piece.captured then fill :: captures pattern fills else captures pattern fills
  | _, _ => []

end

/-! ## The first match is the longest -/

theorem longest_some {γ : Type} {accepts : List α → Option γ} {text fill : List α} {count : Nat} {result : γ}
    (found : longest accepts text count = some (fill, result)) :
    ∃ size, 0 < size ∧ size ≤ count ∧ fill = text.take size ∧ accepts (text.drop size) = some result ∧
      ∀ other, size < other → other ≤ count → accepts (text.drop other) = none := by
  induction count with
  | zero => cases found
  | succ count ih =>
    rw [longest] at found
    split at found
    next accepted =>
      cases found
      exact ⟨count + 1, Nat.succ_pos _, Nat.le_refl _, rfl, accepted, fun other more less => by omega⟩
    next refused =>
      obtain ⟨size, positive, bound, same, accepted, later⟩ := ih found
      refine ⟨size, positive, Nat.le_succ_of_le bound, same, accepted, fun other more less => ?_⟩
      rcases Nat.lt_or_eq_of_le less with less | last
      · exact later other more (by omega)
      · exact last ▸ refused

theorem longest_none {γ : Type} {accepts : List α → Option γ} {text : List α} {count : Nat} :
    longest accepts text count = none ↔ ∀ size, 0 < size → size ≤ count → accepts (text.drop size) = none := by
  induction count with
  | zero => exact ⟨fun _ size positive bound => by omega, fun _ => rfl⟩
  | succ count ih =>
    rw [longest]
    split
    next result accepted =>
      refine ⟨fun impossible => (by cases impossible), fun refused => ?_⟩
      rw [refused (count + 1) (Nat.succ_pos _) (Nat.le_refl _)] at accepted
      cases accepted
    next refused =>
      rw [ih]
      refine ⟨fun all size positive bound => ?_, fun all size positive bound => all size positive (by omega)⟩
      rcases Nat.lt_or_eq_of_le bound with less | last
      · exact all size positive (by omega)
      · exact last ▸ refused

variable {stop : α} {piece : Piece α} {pattern : Pattern α} {fill : List α} {fills : List (List α)} {text : List α}

theorem splits_cons_iff : Splits stop (piece :: pattern) (fill :: fills) text ↔
    ∃ rest, fill ≠ [] ∧ stop ∉ fill ∧ text = fill ++ (piece.literal ++ rest) ∧ Splits stop pattern fills rest := by
  constructor
  · intro splits
    cases splits with
    | cons some whole rest => exact ⟨_, some, whole, rfl, rest⟩
  · rintro ⟨rest, some, whole, rfl, splits⟩
    exact .cons some whole splits

theorem legible_cons_iff : Legible stop (piece :: pattern) text ↔
    ∃ fill rest, fill ≠ [] ∧ stop ∉ fill ∧ text = fill ++ (piece.literal ++ rest) ∧ Legible stop pattern rest := by
  constructor
  · rintro ⟨fills, splits⟩
    cases splits with
    | cons some whole rest => exact ⟨_, _, some, whole, rfl, _, rest⟩
  · rintro ⟨fill, rest, some, whole, rfl, fills, splits⟩
    exact ⟨fill :: fills, .cons some whole splits⟩

/-- The first wildcard takes in whatever stands before a match. -/
theorem legible_append {front : List α} (whole : stop ∉ front) (legible : Legible stop (piece :: pattern) text) :
    Legible stop (piece :: pattern) (front ++ text) := by
  obtain ⟨fill, rest, some, whole', same, later⟩ := legible_cons_iff.mp legible
  refine legible_cons_iff.mpr ⟨front ++ fill, rest, List.append_ne_nil_of_right_ne_nil _ some, ?_, ?_, later⟩
  · exact fun member => (List.mem_append.mp member).elim whole whole'
  · rw [same, List.append_assoc]

theorem not_mem_render (literals : ∀ piece ∈ pattern, stop ∉ piece.literal) (fine : ∀ fill ∈ fills, stop ∉ fill) :
    stop ∉ render pattern fills := by
  induction pattern generalizing fills with
  | nil => exact List.not_mem_nil
  | cons piece pattern ih =>
    cases fills with
    | nil => exact List.not_mem_nil
    | cons fill fills =>
      have later := ih (fun other member => literals other (List.mem_cons_of_mem piece member))
        fun other member => fine other (List.mem_cons_of_mem fill member)
      rw [render, List.mem_append, List.mem_append, not_or, not_or]
      exact ⟨fine fill List.mem_cons_self, literals piece List.mem_cons_self, later⟩

/-- Symbols for all the wildcards, and there is a match. -/
theorem splits_render (count : fills.length = pattern.length) (fine : ∀ fill ∈ fills, fill ≠ [] ∧ stop ∉ fill) :
    Splits stop pattern fills (render pattern fills) := by
  induction pattern generalizing fills with
  | nil =>
    rw [List.length_eq_zero_iff.mp count]
    exact .nil _
  | cons piece pattern ih =>
    cases fills with
    | nil => cases count
    | cons fill fills =>
      have own := fine fill List.mem_cons_self
      have later := ih (Nat.succ.inj count) fun other member => fine other (List.mem_cons_of_mem fill member)
      exact .cons own.1 own.2 later

section
variable [DecidableEq α]

theorem behind_some {literal text rest : List α} : behind literal text = some rest ↔ text = literal ++ rest := by
  unfold behind
  split
  next front =>
    obtain ⟨tail, rfl⟩ := front
    simp
  next other =>
    refine ⟨fun impossible => (by cases impossible), fun same => ?_⟩
    exact absurd (List.prefix_append literal rest) (same ▸ other)

/-- The prefixes without a line break. -/
theorem take_free_iff {text : List α} {size : Nat} (inside : size ≤ text.length) :
    stop ∉ text.take size ↔ size ≤ (text.takeWhile (· ≠ stop)).length := by
  induction text generalizing size with
  | nil => simp_all
  | cons x text ih =>
    cases size with
    | zero => simp
    | succ size =>
      have tail := ih (Nat.le_of_succ_le_succ inside)
      by_cases same : x = stop
      · simp [same]
      · have other : stop ≠ x := fun eq => same eq.symm
        simp [same, other, tail]

/-- What the first wildcard is tried with: a prefix without a break, at least one symbol long. -/
theorem prefix_iff {rest : List α} : (fill ≠ [] ∧ stop ∉ fill ∧ text = fill ++ rest) ↔
    ∃ size, 0 < size ∧ size ≤ (text.takeWhile (· ≠ stop)).length ∧ fill = text.take size ∧ rest = text.drop size := by
  constructor
  · rintro ⟨some, whole, rfl⟩
    have inside : fill.length ≤ (fill ++ rest).length := by
      rw [List.length_append]
      omega
    have front : (fill ++ rest).take fill.length = fill := List.take_left
    exact ⟨fill.length, List.length_pos_of_ne_nil some, (take_free_iff inside).mp (front.symm ▸ whole), front.symm,
      List.drop_left.symm⟩
  · rintro ⟨size, positive, bound, rfl, rfl⟩
    have inside : size ≤ text.length := Nat.le_trans bound (List.takeWhile_prefix _).length_le
    refine ⟨?_, (take_free_iff inside).mpr bound, (List.take_append_drop size text).symm⟩
    rw [← List.length_pos_iff_ne_nil, List.length_take]
    omega

theorem matchStart_none : matchStart stop pattern text = none ↔ ¬ Legible stop pattern text := by
  induction pattern generalizing text with
  | nil => exact ⟨fun impossible => (by cases impossible), fun absent => absurd ⟨[], .nil text⟩ absent⟩
  | cons piece pattern ih =>
    rw [matchStart, Option.map_eq_none_iff, longest_none, legible_cons_iff]
    constructor
    · rintro refused ⟨fill, rest, some, whole, same, later⟩
      obtain ⟨size, positive, bound, -, tail⟩ := prefix_iff.mp ⟨some, whole, same⟩
      have accepted := refused size positive bound
      rw [← tail, behind_some.mpr rfl, Option.bind_some, ih] at accepted
      exact accepted later
    · intro absent size positive bound
      cases left : behind piece.literal (text.drop size) with
      | none => rfl
      | some rest =>
        rw [Option.bind_some, ih]
        intro later
        obtain ⟨some, whole, same⟩ := prefix_iff.mpr ⟨size, positive, bound, rfl, rfl⟩
        rw [behind_some.mp left] at same
        exact absent ⟨text.take size, rest, some, whole, same, later⟩

/-- What is found is a match, and no match gives the first wildcard more. -/
theorem matchStart_cons (found : matchStart stop (piece :: pattern) text = some fills) :
    ∃ fill more, fills = fill :: more ∧ Legible stop (piece :: pattern) text ∧
      (∃ rest, fill ≠ [] ∧ stop ∉ fill ∧ text = fill ++ (piece.literal ++ rest) ∧
        matchStart stop pattern rest = some more) ∧
      ∀ other others, Splits stop (piece :: pattern) (other :: others) text → other.length ≤ fill.length := by
  have legible : Legible stop (piece :: pattern) text := by
    by_contra absent
    rw [matchStart_none.mpr absent] at found
    cases found
  rw [matchStart, Option.map_eq_some_iff] at found
  obtain ⟨⟨fill, more⟩, first, rfl⟩ := found
  obtain ⟨size, positive, bound, rfl, accepted, longer⟩ := longest_some first
  obtain ⟨rest, left, later⟩ := Option.bind_eq_some_iff.mp accepted
  obtain ⟨some, whole, same⟩ := prefix_iff.mpr ⟨size, positive, bound, rfl, rfl⟩
  rw [behind_some.mp left] at same
  refine ⟨text.take size, more, rfl, legible, ⟨rest, some, whole, same, later⟩, fun other others splits => ?_⟩
  obtain ⟨tail, some', whole', same', splits'⟩ := splits_cons_iff.mp splits
  obtain ⟨size', -, bound', rfl, drop'⟩ := prefix_iff.mp ⟨some', whole', same'⟩
  by_contra less
  have inside : size' ≤ text.length := Nat.le_trans bound' (List.takeWhile_prefix _).length_le
  have more' : size < size' := by
    rw [List.length_take, List.length_take] at less
    omega
  have refused := longer size' more' bound'
  rw [← drop', behind_some.mpr rfl, Option.bind_some, matchStart_none] at refused
  exact refused ⟨others, splits'⟩

instance (pattern : Pattern α) (text : List α) : Decidable (Legible stop pattern text) :=
  decidable_of_iff (matchStart stop pattern text ≠ none) (by rw [ne_eq, matchStart_none, not_not])

/-! ## Texts without a line break -/

theorem search_eq (whole : stop ∉ text) :
    search stop (piece :: pattern) text = matchStart stop (piece :: pattern) text := by
  induction text with
  | nil =>
    rw [search]
    split <;> simp_all
  | cons x text ih =>
    have first : stop ∉ [x] := fun member => whole (List.mem_singleton.mp member ▸ List.mem_cons_self)
    have rest : stop ∉ text := fun member => whole (List.mem_cons_of_mem x member)
    rw [search]
    split
    next found => exact found.symm
    next missed =>
      have absent : ¬ Legible stop (piece :: pattern) text := fun legible =>
        matchStart_none.mp missed (legible_append first legible)
      show search stop (piece :: pattern) text = _
      rw [ih rest, missed, matchStart_none.mpr absent]

/-- The first wildcard of the match stands for what it was meant to exactly if there is no match
in what follows. -/
theorem search_first_iff (whole : stop ∉ text) (splits : Splits stop (piece :: pattern) (fill :: fills) text) :
    (∃ more, search stop (piece :: pattern) text = some (fill :: more)) ↔
      ¬ Legible stop (piece :: pattern) (text.drop fill.length) := by
  obtain ⟨rest, some, clean, same, later⟩ := splits_cons_iff.mp splits
  rw [search_eq whole]
  constructor
  · rintro ⟨more, found⟩ again
    obtain ⟨_, _, shape, -, -, longest⟩ := matchStart_cons found
    cases shape
    obtain ⟨further, rest', some', clean', same', fills', later'⟩ := legible_cons_iff.mp again
    have longer : Splits stop (piece :: pattern) ((fill ++ further) :: fills') text := by
      apply splits_cons_iff.mpr ⟨rest', List.append_ne_nil_of_left_ne_nil some _, ?_, ?_, later'⟩
      · exact fun member => (List.mem_append.mp member).elim clean clean'
      · rw [List.append_assoc, ← same', same, List.drop_left]
    have bound := longest _ _ longer
    have positive := List.length_pos_of_ne_nil some'
    rw [List.length_append] at bound
    omega
  · intro last
    cases found : matchStart stop (piece :: pattern) text with
    | none => exact absurd ⟨_, splits⟩ (matchStart_none.mp found)
    | some all =>
      obtain ⟨taken, more, rfl, -, ⟨tail, -, -, same', left⟩, longest⟩ := matchStart_cons found
      have bound := longest _ _ splits
      -- the one is a prefix of the other, and what it has more would be a match of its own
      have front : fill <+: taken :=
        List.prefix_of_prefix_length_le ⟨_, same.symm⟩ ⟨_, same'.symm⟩ bound
      obtain ⟨further, rfl⟩ := front
      by_cases exact_ : further = []
      · exact ⟨more, by rw [exact_, List.append_nil]⟩
      · refine absurd (legible_cons_iff.mpr ⟨further, tail, exact_, ?_, ?_, ?_⟩) last
        · intro member
          exact whole (same' ▸ List.mem_append_left _ (List.mem_append_right _ member))
        · rw [same', List.append_assoc, List.drop_left]
        · by_contra absent
          rw [matchStart_none.mpr absent] at left
          cases left

/-- A last wildcard, and a text that ends as the pattern does. -/
theorem matchStart_last (some : fill ≠ []) (whole : stop ∉ fill)
    (found : matchStart stop [piece] (fill ++ piece.literal) = .some fills) : fills = [fill] := by
  obtain ⟨taken, more, rfl, -, ⟨tail, -, -, same, left⟩, longest⟩ := matchStart_cons found
  have end_ : more = [] := (Option.some.inj left).symm
  have exact_ : Splits stop [piece] [fill] (fill ++ (piece.literal ++ [])) := .cons some whole (.nil [])
  rw [List.append_nil] at exact_
  have bound := longest _ _ exact_
  have sizes := congrArg List.length same
  simp only [List.length_append] at sizes
  have equal : fill.length = taken.length := by omega
  rw [end_, (List.append_inj same equal).1]

end
end Q2Admin.Lib.Wildcard
