import Mathlib.Data.List.Induction
import Q2Admin.Intervals
import Q2Admin.Lib.Separated

/-! Whether the result of `durationToSeconds` depends on the order of its range over the unit map.
Of several letters at the end the loop takes off as many as it comes to in their order, and what
is left is read only if that was all of them. -/

namespace Q2Admin
open Go Lib

/-- What `strconv.ParseFloat` does: whether it takes a text has nothing to do with the unit that
the number is then multiplied with, and no number with a point ends in the letter of a unit. -/
structure RuleLib.ReadsDecimals (lib : RuleLib) : Prop where
  unscaled : ∀ text unit, (lib.scaledFloat text unit).isSome = (lib.scaledFloat text 1).isSome
  numbers : ∀ text (u : TimeUnit), charByte '.' ∈ text → lib.scaledFloat (text ++ u.name) 1 = none

/-- Decimals, and one, two or three integers with colons between them. -/
def Readable (lib : RuleLib) (text : Bytes) : Prop :=
  if charByte '.' ∈ text then (lib.scaledFloat text 1).isSome = true
  else (split text ':').length ≤ 3 ∧ ∀ field ∈ split text ':', (parseInt 32 field).isSome = true

/-- Two or more units, all different, behind what can be read. -/
def Stacked (lib : RuleLib) (text : Bytes) : Prop :=
  ∃ (front : Bytes) (units : List TimeUnit), text = front ++ units.map TimeUnit.letter ∧ units.Nodup ∧
    2 ≤ units.length ∧ Readable lib front

/-- The result is the same in whatever order the range comes to the units. -/
def OrderFree (lib : RuleLib) (ts : Bytes) : Prop :=
  ∀ order order' : List TimeUnit, order.Perm TimeUnit.all → order'.Perm TimeUnit.all →
    durationToSeconds (lib.visiting order) ts = durationToSeconds (lib.visiting order') ts

/-! ## What is read -/

section
variable {lib : RuleLib} (decimals : lib.ReadsDecimals)
include decimals

theorem measured_isSome_iff (text units : Bytes) : (measured lib text units).isSome = true ↔ Readable lib text := by
  have point : contains text (ascii ".") = true ↔ charByte '.' ∈ text := contains_byte text _
  have colon : contains text (ascii ":") = true ↔ charByte ':' ∈ text := contains_byte text _
  simp only [measured, Readable, point, colon]
  by_cases decimal : charByte '.' ∈ text
  · rw [if_pos decimal, if_pos decimal, decimals.unscaled]
  rw [if_neg decimal, if_neg decimal]
  by_cases clock : charByte ':' ∈ text
  · have whole : parseInt 32 text = none := by
      cases read : parseInt 32 text with
      | none => rfl
      | some n => exact absurd clock (parseInt_colonless read)
    rw [if_pos clock, whole, clockSeconds]
    rcases fields : split text ':' with _ | ⟨first, _ | ⟨second, _ | ⟨third, _ | ⟨fourth, others⟩⟩⟩⟩
    · exact absurd fields (List.splitOn_ne_nil _ _)
    · have count : (split text ':').length = text.count (charByte ':') + 1 := Separated.length_splitOn _ text
      have positive := List.count_pos_iff.mpr clock
      rw [fields, List.length_singleton] at count
      omega
    · cases mm : parseInt 32 first <;> cases ss : parseInt 32 second <;> simp [mm, ss]
    · cases hh : parseInt 32 first <;> cases mm : parseInt 32 second <;> cases ss : parseInt 32 third <;>
        simp [hh, mm, ss]
    · simp
  · have single : split text ':' = [text] := List.splitOn_eq_singleton clock
    rw [if_neg clock, single]
    simp

/-- Nothing that ends in the letter of a unit is read. -/
theorem measured_unit (text units : Bytes) (u : TimeUnit) : measured lib (text ++ u.name) units = none := by
  rw [← Option.not_isSome_iff_eq_none, measured_isSome_iff decimals, Readable]
  have own : u.letter ∈ text ++ u.name := List.mem_append_right text (List.mem_singleton_self _)
  split
  · next point =>
    have inside : charByte '.' ∈ text := by
      rcases List.mem_append.mp point with front | last
      · exact front
      · exact absurd (List.mem_singleton.mp last) (by cases u <;> decide)
    rw [decimals.numbers text u inside]
    exact Bool.false_ne_true
  · intro readable
    have other : u.letter ≠ charByte ':' := by cases u <;> decide
    obtain ⟨field, listed, last⟩ := Separated.exists_mem_splitOn own other
    obtain ⟨n, read⟩ := Option.isSome_iff_exists.mp (readable.2 field listed)
    exact (clockByte_of_parseInt read _ last).ne_letter u rfl

end

/-! ## What is taken off -/

/-- The units that were taken off come in the order of the loop, from the end of the text. -/
theorem stripUnits_peels (order : List TimeUnit) (text units : Bytes) : ∃ peeled : List TimeUnit,
    text = (stripUnits (order.map TimeUnit.name) text units).1 ++ peeled.map TimeUnit.letter ∧
      (stripUnits (order.map TimeUnit.name) text units).2 = peeled.head?.elim units TimeUnit.name ∧
      peeled.reverse.Sublist order := by
  induction order generalizing text units with
  | nil => exact ⟨[], (List.append_nil text).symm, rfl, List.nil_sublist _⟩
  | cons u rest ih =>
    by_cases last : hasSuffix text u.name = true
    · obtain ⟨front, rfl⟩ := List.getLast?_eq_some_iff.mp ((hasSuffix_name text u).mp last)
      obtain ⟨peeled, whole, unit, sub⟩ := ih front u.name
      rw [List.map_cons, stripUnits, if_pos last, List.dropLast_concat]
      refine ⟨peeled ++ [u], ?_, ?_, ?_⟩
      · rw [List.map_append, ← List.append_assoc, ← whole]
        rfl
      · rw [unit]
        cases peeled <;> rfl
      · rw [List.reverse_concat]
        exact sub.cons_cons u
    · obtain ⟨peeled, whole, unit, sub⟩ := ih text units
      rw [List.map_cons, stripUnits, if_neg last]
      exact ⟨peeled, whole, unit, sub.cons u⟩

theorem letters_concat (front : Bytes) (units : List TimeUnit) (u : TimeUnit) :
    front ++ (units ++ [u]).map TimeUnit.letter = front ++ units.map TimeUnit.letter ++ u.name := by
  rw [List.map_append, ← List.append_assoc]
  rfl

/-- A loop that comes to the units of a stack from its end takes it off. -/
theorem stripUnits_stack (after units : List TimeUnit) (front unit : Bytes) :
    stripUnits ((units.reverse ++ after).map TimeUnit.name) (front ++ units.map TimeUnit.letter) unit =
      stripUnits (after.map TimeUnit.name) front (units.head?.elim unit TimeUnit.name) := by
  induction units using List.reverseRecOn generalizing unit with
  | nil => rw [List.map_nil, List.append_nil]; rfl
  | append_singleton units u ih =>
    rw [List.reverse_concat, List.cons_append, letters_concat]
    refine (stripUnits_own List.not_mem_nil _ unit).trans ((ih u.name).trans ?_)
    cases units <;> rfl

/-! ## The order matters -/

section
variable {lib : RuleLib} (decimals : lib.ReadsDecimals) {ts : Bytes}
include decimals

/-- Without a stack the result is that of taking off the last letter. -/
theorem durationToSeconds_unstacked (unstacked : ¬ Stacked lib (trim ts blanks)) {order : List TimeUnit}
    (visits : order.Perm TimeUnit.all) {front : Bytes} {u : TimeUnit} (last : trim ts blanks = front ++ u.name) :
    durationToSeconds (lib.visiting order) ts = measured lib front u.name := by
  obtain ⟨before, after, rfl, first⟩ := List.eq_append_cons_of_mem (visits.mem_iff.mpr u.mem_all)
  have distinct : (u :: after).Nodup := by
    have whole := visits.nodup_iff.mpr (by decide)
    exact (List.nodup_append.mp whole).2.1
  obtain ⟨peeled, whole, unit, sub⟩ := stripUnits_peels after front u.name
  rw [durationToSeconds_eq lib (by rw [last, stripUnits_own first])]
  generalize stripUnits (after.map TimeUnit.name) front u.name = stripped at whole unit ⊢
  rcases List.eq_nil_or_concat' peeled with none | ⟨init, w, rfl⟩
  · rw [none, List.map_nil, List.append_nil] at whole
    rw [none] at unit
    rw [whole, unit]
    rfl
  · have apart : measured lib front u.name = none := by
      rw [whole, letters_concat]
      exact measured_unit decimals _ _ w
    rw [apart, ← Option.not_isSome_iff_eq_none, measured_isSome_iff decimals]
    intro readable
    refine unstacked ⟨stripped.1, init ++ [w] ++ [u], ?_, ?_, by simp, readable⟩
    · rw [last, whole, letters_concat, letters_concat, letters_concat]
    · rw [← List.nodup_reverse, List.reverse_concat]
      exact distinct.sublist (sub.cons_cons u)

theorem orderFree_of_unstacked (unstacked : ¬ Stacked lib (trim ts blanks)) : OrderFree lib ts := by
  intro order order' visits visits'
  by_cases last : ∃ u : TimeUnit, (trim ts blanks).getLast? = some u.letter
  · obtain ⟨u, own⟩ := last
    obtain ⟨front, ends⟩ := List.getLast?_eq_some_iff.mp own
    rw [durationToSeconds_unstacked decimals unstacked visits ends,
      durationToSeconds_unstacked decimals unstacked visits' ends]
  · have other : ∀ u : TimeUnit, (trim ts blanks).getLast? ≠ some u.letter := fun u own => last ⟨u, own⟩
    rw [durationToSeconds_eq lib (stripUnits_other (fun u _ => other u) _),
      durationToSeconds_eq lib (stripUnits_other (fun u _ => other u) _)]

/-- What is read does not end in a unit. -/
theorem last_of_readable {front : Bytes} (readable : Readable lib front) (u : TimeUnit) :
    front.getLast? ≠ some u.letter := by
  intro own
  obtain ⟨inner, rfl⟩ := List.getLast?_eq_some_iff.mp own
  have read := (measured_isSome_iff decimals (inner ++ u.name) []).mpr readable
  rw [measured_unit decimals inner [] u] at read
  exact Bool.false_ne_true read

variable {front : Bytes} {units : List TimeUnit}

/-- A loop that comes to the units of a stack from its end reads the text. -/
theorem stack_read (whole : trim ts blanks = front ++ units.map TimeUnit.letter) (distinct : units.Nodup)
    (readable : Readable lib front) :
    ∃ order : List TimeUnit, order.Perm TimeUnit.all ∧
      (durationToSeconds (lib.visiting order) ts).isSome = true := by
  have all : TimeUnit.all.Nodup := by decide
  refine ⟨units.reverse ++ TimeUnit.all.filter (· ∉ units), ?_, ?_⟩
  · apply (List.perm_ext_iff_of_nodup ?_ all).mpr
    · intro w
      simp only [List.mem_append, List.mem_reverse, List.mem_filter, w.mem_all, true_and, decide_eq_true_eq, iff_true]
      exact em _
    · apply List.Nodup.append (List.nodup_reverse.mpr distinct) (all.filter _)
      intro w inside outside
      exact (of_decide_eq_true (List.mem_filter.mp outside).2) (List.mem_reverse.mp inside)
  · have stripped := stripUnits_stack (TimeUnit.all.filter (· ∉ units)) units front TimeUnit.second.name
    rw [stripUnits_other (fun u _ => last_of_readable decimals readable u), ← whole] at stripped
    rw [durationToSeconds_eq lib stripped, measured_isSome_iff decimals]
    exact readable

/-- A loop that comes to the last unit behind the last but one stops there. -/
theorem stack_unread {u v : TimeUnit} (whole : trim ts blanks = front ++ (units ++ [v] ++ [u]).map TimeUnit.letter)
    (apart : u ≠ v) :
    ∃ order : List TimeUnit, order.Perm TimeUnit.all ∧ durationToSeconds (lib.visiting order) ts = none := by
  have all : TimeUnit.all.Nodup := by decide
  refine ⟨[v] ++ u :: (TimeUnit.all.erase v).erase u, ?_, ?_⟩
  · have other : u ∈ TimeUnit.all.erase v := (List.mem_erase_of_ne apart).mpr u.mem_all
    exact ((List.perm_cons_erase v.mem_all).trans ((List.perm_cons_erase other).cons v)).symm
  · have kept : ∀ w ∈ (TimeUnit.all.erase v).erase u,
        (front ++ units.map TimeUnit.letter ++ v.name).getLast? ≠ some w.letter := by
      intro w member own
      have same : v = w := TimeUnit.letter_injective (Option.some.inj (List.getLast?_concat.symm.trans own))
      exact all.not_mem_erase (List.mem_of_mem_erase (same ▸ member))
    have first : u ∉ [v] := fun member => apart (List.mem_singleton.mp member)
    rw [letters_concat, letters_concat] at whole
    rw [durationToSeconds_eq lib (by rw [whole, stripUnits_own first, stripUnits_other kept])]
    exact measured_unit decimals _ _ v

theorem not_orderFree_of_stacked (stacked : Stacked lib (trim ts blanks)) : ¬ OrderFree lib ts := by
  obtain ⟨front, units, whole, distinct, several, readable⟩ := stacked
  obtain ⟨order, visits, read⟩ := stack_read decimals whole distinct readable
  rcases List.eq_nil_or_concat' units with none | ⟨init, u, rfl⟩
  · simp [none] at several
  rcases List.eq_nil_or_concat' init with none | ⟨rest, v, rfl⟩
  · simp [none] at several
  have apart : u ≠ v := by
    rintro rfl
    have twice : [u, u].Nodup := (List.nodup_append.mp (List.append_assoc rest [u] [u] ▸ distinct)).2.1
    exact absurd twice (by simp)
  obtain ⟨order', visits', unread⟩ := stack_unread decimals whole apart
  intro free
  rw [free order order' visits visits', unread] at read
  exact Bool.false_ne_true read

/-- The result depends on the order exactly for two or more different units behind what is read. -/
theorem orderFree_iff (ts : Bytes) : OrderFree lib ts ↔ ¬ Stacked lib (trim ts blanks) :=
  ⟨fun free stacked => not_orderFree_of_stacked decimals stacked free, orderFree_of_unstacked decimals⟩

end

theorem literalLib_readsDecimals : literalLib.ReadsDecimals where
  unscaled _ _ := rfl
  numbers _ _ _ := rfl

theorem not_orderFree_clock : ¬ OrderFree literalLib (ascii " 1:30hd") := by
  have readable : Readable literalLib (ascii "1:30") := by
    unfold Readable
    decide
  intro free
  exact (orderFree_iff literalLib_readsDecimals (ascii " 1:30hd")).mp free
    ⟨ascii "1:30", [.hour, .day], rfl, by decide, by decide, readable⟩

/-- Five minutes, if the loop comes to the seconds first, and else no interval. -/
theorem not_orderFree : ¬ ∀ lib : RuleLib, lib.ReadsDecimals → ∀ ts, OrderFree lib ts := by
  intro free
  have same := free literalLib literalLib_readsDecimals (ascii "5ms") TimeUnit.all TimeUnit.all.reverse (.refl _)
    (List.reverse_perm _)
  exact absurd same (by decide)

end Q2Admin
