import Mathlib.Algebra.Order.Field.Basic
import Mathlib.Data.Rat.Cast.Order
import Q2Admin.Scores

/-! How the ratio of `CalculateKDR` orders players. It is a quotient of the larger counter by
the smaller one, so its size falls as the smaller one grows: also where that is a number of
frags below zero. -/

namespace Q2Admin

/-- A player in use, found by its number, with so many frags and deaths. -/
def Frontend.Tallies (fe : Frontend) (cid frags deaths : Int) : Prop :=
  0 ≤ cid ∧ cid < fe.maxPlayers ∧ ∃ slot, fe.findPlayer cid = some slot ∧
    (fe.player slot).frags = frags ∧ (fe.player slot).deaths = deaths

theorem Frontend.Tallies.calculateKDR {fe : Frontend} {cid frags deaths : Int} (tallies : fe.Tallies cid frags deaths) :
    fe.calculateKDR cid = Player.ratio { frags := frags, deaths := deaths } := by
  obtain ⟨low, high, slot, found, rfl, rfl⟩ := tallies
  rw [Frontend.calculateKDR, if_neg (by omega), found]
  rfl

/-- What the counters are divided by. -/
def divisor (n : Int) : Int := max |n| 1

theorem divisor_pos (n : Int) : 0 < divisor n := lt_of_lt_of_le one_pos (le_max_right _ _)

/-- With no more deaths than frags. -/
theorem ratio_ahead {frags deaths : Int} (some : 0 ≤ deaths) (ahead : deaths ≤ frags) :
    Player.ratio { frags := frags, deaths := deaths } = (frags : Rat) / divisor deaths := by
  have fewer : ¬ frags < deaths := not_lt.mpr ahead
  have positive : (0 : Rat) ≤ frags := Int.cast_nonneg (some.trans ahead)
  simp only [Player.ratio, fewer, ↓reduceIte, mul_one]
  by_cases none : deaths = 0
  · simp [none, divisor, abs_of_nonneg positive]
  · have whole : divisor deaths = deaths := by
      rw [divisor, abs_of_nonneg some]
      exact max_eq_left (by omega)
    have zero : (deaths : Rat) ≠ 0 := Int.cast_ne_zero.mpr none
    rw [if_neg zero, whole, abs_of_nonneg (div_nonneg positive (Int.cast_nonneg some))]

/-- With more deaths than frags. -/
theorem ratio_behind {frags deaths : Int} (some : 0 ≤ deaths) (behind : frags < deaths) :
    Player.ratio { frags := frags, deaths := deaths } = -((deaths : Rat) / divisor frags) := by
  have positive : (0 : Rat) ≤ deaths := Int.cast_nonneg some
  simp only [Player.ratio, behind, ↓reduceIte, mul_neg, mul_one]
  by_cases none : frags = 0
  · simp [none, divisor, abs_of_nonneg positive]
  · have whole : divisor frags = |frags| := max_eq_left (Int.one_le_abs none)
    have zero : (frags : Rat) ≠ 0 := Int.cast_ne_zero.mpr none
    rw [if_neg zero, whole, abs_div, abs_of_nonneg positive, Int.cast_abs]

/-- The order of two ratios, each with more deaths than frags. -/
theorem ratio_behind_le_iff {frags frags' deaths deaths' : Int} (some : 0 ≤ deaths) (some' : 0 ≤ deaths')
    (behind : frags < deaths) (behind' : frags' < deaths') :
    Player.ratio { frags := frags, deaths := deaths } ≤ Player.ratio { frags := frags', deaths := deaths' } ↔
      deaths' * divisor frags ≤ deaths * divisor frags' := by
  have first : (0 : Rat) < divisor frags := Int.cast_pos.mpr (divisor_pos _)
  have second : (0 : Rat) < divisor frags' := Int.cast_pos.mpr (divisor_pos _)
  rw [ratio_behind some behind, ratio_behind some' behind', neg_le_neg_iff, div_le_div_iff₀ second first]
  exact_mod_cast Iff.rfl

theorem divisor_mono {n n' : Int} (low : 0 ≤ n) (le : n ≤ n') : divisor n ≤ divisor n' := by
  rw [divisor, divisor, abs_of_nonneg low, abs_of_nonneg (low.trans le)]
  exact max_le_max_right 1 le

/-- More frags and fewer deaths mean no lower ratio exactly if the frags were not below zero, or
the other player has as many frags as deaths, or the deaths make up for the divisors. -/
theorem ratio_le_iff {frags frags' deaths deaths' : Int} (more : frags ≤ frags') (fewer : deaths' ≤ deaths)
    (some : 0 ≤ deaths') :
    Player.ratio { frags := frags, deaths := deaths } ≤ Player.ratio { frags := frags', deaths := deaths' } ↔
      0 ≤ frags ∨ deaths' ≤ frags' ∨ deaths' * |frags| ≤ deaths * max |frags'| 1 := by
  have positive := fun n : Int => Int.cast_pos (R := Rat).mpr (divisor_pos n)
  rcases lt_or_ge frags' deaths' with behind' | ahead'
  · have behind : frags < deaths := by omega
    rw [ratio_behind_le_iff (some.trans fewer) some behind behind']
    by_cases low : 0 ≤ frags
    · have grows := divisor_mono low more
      exact iff_of_true (mul_le_mul fewer grows (divisor_pos _).le (some.trans fewer)) (.inl low)
    · have whole : divisor frags = |frags| := max_eq_left (Int.one_le_abs (by omega))
      rw [whole]
      simp only [low, not_le.mpr behind', false_or]
      rfl
  · refine iff_of_true ?_ (.inr (.inl ahead'))
    rw [ratio_ahead some ahead']
    rcases lt_or_ge frags deaths with behind | ahead
    · rw [ratio_behind (some.trans fewer) behind]
      have down : (0 : Rat) ≤ deaths / divisor frags := div_nonneg (Int.cast_nonneg (some.trans fewer)) (positive _).le
      have up : (0 : Rat) ≤ frags' / divisor deaths' := div_nonneg (Int.cast_nonneg (some.trans ahead')) (positive _).le
      exact (neg_nonpos.mpr down).trans up
    · rw [ratio_ahead (some.trans fewer) ahead]
      have grows : (divisor deaths' : Rat) ≤ divisor deaths := Int.cast_le.mpr (divisor_mono some fewer)
      exact div_le_div₀ (Int.cast_nonneg (some.trans ahead')) (Int.cast_le.mpr more) (positive _) grows

/-- The ratios of two players, one of whom has no fewer frags and no more deaths. -/
theorem calculateKDR_le_iff (fe fe' : Frontend) (cid cid' frags frags' deaths deaths' : Int)
    (tallies : fe.Tallies cid frags deaths) (tallies' : fe'.Tallies cid' frags' deaths') (more : frags ≤ frags')
    (fewer : deaths' ≤ deaths) (some : 0 ≤ deaths') :
    fe.calculateKDR cid ≤ fe'.calculateKDR cid' ↔
      0 ≤ frags ∨ deaths' ≤ frags' ∨ deaths' * |frags| ≤ deaths * max |frags'| 1 := by
  rw [tallies.calculateKDR, tallies'.calculateKDR]
  exact ratio_le_iff more fewer some

/-- A player with these counters in slot 0. -/
def playerWith (frags deaths : Int) : Frontend where
  maxPlayers := 8
  players := [{ connectTime := 1, frags := frags, deaths := deaths }]

theorem playerWith_tallies (frags deaths : Int) : (playerWith frags deaths).Tallies 0 frags deaths :=
  ⟨le_rfl, (by decide : (0 : Int) < 8), 0, rfl, rfl, rfl⟩

theorem calculateKDR_le_one_more : (playerWith 3 10).calculateKDR 0 ≤ (playerWith 4 10).calculateKDR 0 :=
  (calculateKDR_le_iff _ _ 0 0 3 4 10 10 (playerWith_tallies 3 10) (playerWith_tallies 4 10) (by decide) (by decide)
    (by decide)).mpr (.inl (by decide))

/-- With ten deaths, four frags below zero stand at -2.5, and none at -10. -/
theorem calculateKDR_falls : ¬ ∀ (fe fe' : Frontend) (cid cid' frags frags' deaths deaths' : Int),
    fe.Tallies cid frags deaths → fe'.Tallies cid' frags' deaths' → frags ≤ frags' → deaths' ≤ deaths →
    0 ≤ deaths' → fe.calculateKDR cid ≤ fe'.calculateKDR cid' := by
  intro ordered
  have order := ordered _ _ 0 0 (-4) 0 10 10 (playerWith_tallies (-4) 10) (playerWith_tallies 0 10) (by decide)
    (by decide) (by decide)
  rw [(playerWith_tallies (-4) 10).calculateKDR, (playerWith_tallies 0 10).calculateKDR] at order
  exact absurd ((ratio_le_iff (by decide) (by decide) (by decide)).mp order) (by decide)

end Q2Admin
