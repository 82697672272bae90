import Mathlib.Algebra.Order.Ring.Int
import Mathlib.Tactic.Ring

/-! Rationing over time. A bucket holds tokens that are spent, and is refilled one token at a
time; an allowance is used up and then renewed in full after a rest. Both carry the times of
what was done, the latest first, and what these promise for every closed window. -/

namespace Q2Admin.Lib

/-- How many of the times lie in a closed window. -/
def within (a b : Int) (times : List Int) : Nat := times.countP fun t => a ≤ t && t ≤ b

/-- The latest first, each so much later than all before it. -/
def Spaced (gap : Int) (times : List Int) : Prop := times.Pairwise fun later earlier => earlier + gap ≤ later

section
variable {a b t gap : Int} {times : List Int}

theorem within_inside (low : a ≤ t) (high : t ≤ b) : within a b (t :: times) = within a b times + 1 := by
  simp [within, low, high]

theorem within_outside (outside : t < a ∨ b < t) : within a b (t :: times) = within a b times := by
  have none : ¬ (a ≤ t ∧ t ≤ b) := by omega
  simp [within, none]

theorem within_eq_zero (outside : ∀ t ∈ times, t < a ∨ b < t) : within a b times = 0 := by
  rw [within, List.countP_eq_zero]
  intro t member
  have apart := outside t member
  simp
  omega

theorem within_cons_le (a b t : Int) (times : List Int) : within a b (t :: times) ≤ within a b times + 1 := by
  by_cases inside : a ≤ t ∧ t ≤ b
  · rw [within_inside inside.1 inside.2]
  · rw [within_outside (by omega)]
    omega

/-- Times that are spaced take up their gaps in the window. -/
theorem Spaced.gaps_le (positive : 0 < gap) (spaced : Spaced gap times) (a b : Int) :
    within a b times = 0 ∨ ((within a b times : Int) - 1) * gap ≤ b - a := by
  induction times generalizing b with
  | nil => exact .inl rfl
  | cons t rest ih =>
    obtain ⟨behind, spaced⟩ := List.pairwise_cons.mp spaced
    by_cases inside : a ≤ t ∧ t ≤ b
    case neg =>
      rw [within_outside (by omega)]
      exact ih spaced b
    right
    rw [within_inside inside.1 inside.2]
    have earlier : within a b rest ≤ within a (t - gap) rest := by
      apply List.countP_mono_left
      intro s member
      have before := behind s member
      simp only [Bool.and_eq_true, decide_eq_true_eq]
      omega
    rcases ih spaced (t - gap) with none | gaps
    · have alone : within a b rest = 0 := by omega
      rw [alone]
      simp
      omega
    · calc ((within a b rest + 1 : Nat) - 1 : Int) * gap
        _ = (within a b rest : Int) * gap := by
          push_cast
          ring
        _ ≤ (within a (t - gap) rest : Int) * gap :=
          mul_le_mul_of_nonneg_right (by exact_mod_cast earlier) positive.le
        _ = ((within a (t - gap) rest : Int) - 1) * gap + gap := by ring
        _ ≤ b - a := by omega

theorem Spaced.within_le (positive : 0 < gap) (spaced : Spaced gap times) (a : Int) {T : Int} (nonneg : 0 ≤ T) :
    (within a (a + T) times : Int) ≤ T / gap + 1 := by
  have quotient := Int.ediv_nonneg nonneg positive.le
  rcases spaced.gaps_le positive a (a + T) with none | gaps
  · omega
  · have fits := (Int.le_ediv_iff_mul_le positive).mpr (gaps.trans (by omega : a + T - a ≤ T))
    omega

theorem Spaced.cons {last : Int} (spaced : Spaced gap times) (past : ∀ s ∈ times, s ≤ last)
    (rested : last + gap ≤ t) : Spaced gap (t :: times) := by
  refine List.pairwise_cons.mpr ⟨fun s member => ?_, spaced⟩
  have before := past s member
  omega

theorem past_cons {now : Int} (past : ∀ s ∈ times, s ≤ now) (later : now ≤ t) : ∀ s ∈ t :: times, s ≤ t := by
  intro s member
  rcases List.mem_cons.mp member with rfl | old
  · exact le_rfl
  · exact (past s old).trans later

end

/-! ## Buckets -/

/-- A bucket for so many tokens, with the time between two refills. -/
structure Bucket (cap gap : Int) where
  tokens : Int
  /-- The last refill. -/
  last : Int
  /-- Nothing has been done since. -/
  now : Int
  spent : List Int
  refilled : List Int
  positive : 0 < gap
  nonneg : 0 ≤ tokens
  atMost : tokens ≤ cap
  spentPast : ∀ t ∈ spent, t ≤ now
  refilledPast : ∀ t ∈ refilled, t ≤ last
  spaced : Spaced gap refilled
  covered : ∀ a b, now ≤ b → (within a b spent : Int) + tokens ≤ cap + within a b refilled
  bounded : ∀ a b, (within a b spent : Int) ≤ cap + within a b refilled

namespace Bucket
variable {cap gap : Int} (b : Bucket cap gap) {t : Int}

/-- A bucket that is full. -/
def full (last now : Int) (nonneg : 0 ≤ cap) (positive : 0 < gap) : Bucket cap gap where
  tokens := cap
  last := last
  now := now
  spent := []
  refilled := []
  positive := positive
  nonneg := nonneg
  atMost := le_rfl
  spentPast := by simp
  refilledPast := by simp
  spaced := List.Pairwise.nil
  covered _ _ _ := by simp [within]
  bounded _ _ := by simpa [within] using nonneg

def spend (later : b.now ≤ t) (left : b.tokens ≠ 0) : Bucket cap gap where
  tokens := b.tokens - 1
  last := b.last
  now := t
  spent := t :: b.spent
  refilled := b.refilled
  positive := b.positive
  nonneg := by
    have nonneg := b.nonneg
    omega
  atMost := by
    have atMost := b.atMost
    omega
  spentPast := past_cons b.spentPast later
  refilledPast := b.refilledPast
  spaced := b.spaced
  covered low high after := by
    have before := b.covered low high (later.trans after)
    have one := within_cons_le low high t b.spent
    omega
  bounded low high := by
    have nonneg := b.nonneg
    by_cases after : t ≤ high
    · have before := b.covered low high (later.trans after)
      have one := within_cons_le low high t b.spent
      omega
    · rw [within_outside (by omega)]
      exact b.bounded low high

def refill (later : b.now ≤ t) (room : b.tokens < cap) (rested : b.last + gap ≤ t) : Bucket cap gap where
  tokens := b.tokens + 1
  last := t
  now := t
  spent := b.spent
  refilled := t :: b.refilled
  positive := b.positive
  nonneg := by
    have nonneg := b.nonneg
    omega
  atMost := by omega
  spentPast s member := (b.spentPast s member).trans later
  refilledPast := by
    have positive := b.positive
    exact past_cons b.refilledPast (by omega)
  spaced := b.spaced.cons b.refilledPast rested
  covered low high after := by
    by_cases inside : low ≤ t
    · have before := b.covered low high (later.trans after)
      rw [within_inside inside after]
      omega
    · -- the window is yet to come
      have none : within low high b.spent = 0 := by
        apply within_eq_zero
        intro s member
        have past := b.spentPast s member
        omega
      omega
  bounded low high := by
    have before := b.bounded low high
    have more : within low high b.refilled ≤ within low high (t :: b.refilled) :=
      (List.sublist_cons_self t b.refilled).countP_le
    omega

/-- What is spent in a window of some length: a full bucket, and a token for each refill. -/
theorem within_spent_le (a : Int) {T : Int} (nonneg : 0 ≤ T) :
    (within a (a + T) b.spent : Int) ≤ cap + T / gap + 1 := by
  have bounded := b.bounded a (a + T)
  have refills := b.spaced.within_le b.positive a nonneg
  omega

end Bucket
/-! ## Allowances -/

/-- An allowance of so many uses, to be renewed after a rest, with a pause between two uses. -/
structure Allowance (cap rest pause : Int) where
  left : Int
  /-- The last use. -/
  last : Int
  /-- Nothing has been done since. -/
  now : Int
  uses : List Int
  nonneg : 0 ≤ left
  atMost : left ≤ cap
  past : ∀ t ∈ uses, t ≤ now
  spent : ∀ t ∈ uses, t ≤ last
  spaced : Spaced pause uses
  covered : ∀ a b, b - a ≤ rest → now ≤ b → (within a b uses : Int) + left ≤ cap
  bounded : ∀ a b, b - a ≤ rest → (within a b uses : Int) ≤ cap

namespace Allowance
variable {cap rest pause : Int} (al : Allowance cap rest pause) {t : Int}

/-- An allowance of which so much is left, and no use is known. -/
def opening (left last now : Int) (nonneg : 0 ≤ left) (atMost : left ≤ cap) : Allowance cap rest pause where
  left := left
  last := last
  now := now
  uses := []
  nonneg := nonneg
  atMost := atMost
  past := by simp
  spent := by simp
  spaced := List.Pairwise.nil
  covered _ _ _ _ := by simpa [within] using atMost
  bounded _ _ _ := by simpa [within] using nonneg.trans atMost

def use (later : al.now ≤ t) (some : al.left ≠ 0) (paused : al.last + pause ≤ t) (nonneg : 0 ≤ pause) :
    Allowance cap rest pause where
  left := al.left - 1
  last := t
  now := t
  uses := t :: al.uses
  nonneg := by
    have nonneg := al.nonneg
    omega
  atMost := by
    have atMost := al.atMost
    omega
  past := past_cons al.past later
  spent := past_cons al.spent (by omega)
  spaced := al.spaced.cons al.spent paused
  covered low high narrow after := by
    have before := al.covered low high narrow (later.trans after)
    have one := within_cons_le low high t al.uses
    omega
  bounded low high narrow := by
    have nonneg := al.nonneg
    by_cases after : t ≤ high
    · have before := al.covered low high narrow (later.trans after)
      have one := within_cons_le low high t al.uses
      omega
    · rw [within_outside (by omega)]
      exact al.bounded low high narrow

/-- The use that renews the allowance. -/
def renew (later : al.now ≤ t) (rested : al.last + rest < t) (pausing : 0 ≤ pause ∧ pause ≤ rest) (some : 0 < cap) :
    Allowance cap rest pause :=
  -- no window that reaches up to this use goes back as far as the last one
  have fresh (low high : Int) (narrow : high - low ≤ rest) (after : t ≤ high) :
      (within low high (t :: al.uses) : Int) ≤ 1 := by
    have none : within low high al.uses = 0 := by
      apply within_eq_zero
      intro s member
      have before := al.spent s member
      omega
    have one := within_cons_le low high t al.uses
    omega
  { left := cap - 1
    last := t
    now := t
    uses := t :: al.uses
    nonneg := by omega
    atMost := by omega
    past := past_cons al.past later
    spent := past_cons al.spent (by omega)
    spaced := al.spaced.cons al.spent (by omega)
    covered := fun low high narrow after => by
      have few := fresh low high narrow after
      omega
    bounded := fun low high narrow => by
      by_cases after : t ≤ high
      · have few := fresh low high narrow after
        omega
      · rw [within_outside (by omega)]
        exact al.bounded low high narrow }

end Allowance
end Q2Admin.Lib
