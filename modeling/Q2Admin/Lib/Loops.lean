import Q2Admin.Lib.Outcome

/-! Loops whose turns may fail. Without a bound on its turns a loop is a relation between
where it starts and what it comes to; with one it is a function. Where every turn lowers a
measure, a bound above the measure makes no difference, and the loop comes to an end. -/

namespace Q2Admin.Lib

variable {σ φ : Type} (done : σ → Prop) (turn : σ → Except φ σ)

/-- The loop comes to this outcome after so many turns, the last of which may have failed. -/
inductive Loops : Nat → σ → Except φ σ → Prop where
  | leave {s : σ} (past : done s) : Loops 0 s (.ok s)
  | fail {s : σ} {e : φ} (going : ¬ done s) (failed : turn s = .error e) : Loops 1 s (.error e)
  | again {s s' : σ} {n : Nat} {x : Except φ σ} (going : ¬ done s) (turned : turn s = .ok s')
    (rest : Loops n s' x) : Loops (n + 1) s x

/-- The loop for at most so many turns. -/
def boundedLoop [DecidablePred done] (stuck : φ) : Nat → σ → Except φ σ
  | 0, _ => .error stuck
  | bound + 1, s => if done s then .ok s else turn s >>= boundedLoop stuck bound

variable {done turn}

/-- A loop comes to one end only. -/
theorem Loops.unique {s : σ} {m n : Nat} {x y : Except φ σ} (first : Loops done turn m s x)
    (second : Loops done turn n s y) : m = n ∧ x = y := by
  induction first generalizing n y with
  | leave past =>
    cases second with
    | leave _ => exact ⟨rfl, rfl⟩
    | fail going _ => exact absurd past going
    | again going _ _ => exact absurd past going
  | fail going failed =>
    cases second with
    | leave past => exact absurd past going
    | fail _ other =>
      rw [failed, Except.error.injEq] at other
      exact ⟨rfl, congrArg Except.error other⟩
    | again _ turned _ => cases failed.symm.trans turned
  | again going turned _ ih =>
    cases second with
    | leave past => exact absurd past going
    | fail _ failed => cases failed.symm.trans turned
    | again _ other rest =>
      rw [turned, Except.ok.injEq] at other
      obtain ⟨turns, outcome⟩ := ih (other ▸ rest)
      exact ⟨congrArg Nat.succ turns, outcome⟩

/-- With more turns to spare than the measure, the bounded loop comes to what the loop comes
to, and the measure bounds the turns. -/
theorem loops_bounded [DecidablePred done] {stuck : φ} {measure : σ → Nat}
    (lowers : ∀ s s', ¬ done s → turn s = .ok s' → measure s' < measure s)
    (positive : ∀ s, ¬ done s → 0 < measure s) {bound : Nat} {s : σ} (enough : measure s < bound) :
    ∃ n, n ≤ measure s ∧ Loops done turn n s (boundedLoop done turn stuck bound s) := by
  induction bound generalizing s with
  | zero => omega
  | succ bound ih =>
    unfold boundedLoop
    by_cases past : done s
    · rw [if_pos past]
      exact ⟨0, Nat.zero_le _, .leave past⟩
    rw [if_neg past]
    cases turned : turn s with
    | error e => exact ⟨1, positive s past, .fail past turned⟩
    | ok s' =>
      have less := lowers s s' past turned
      obtain ⟨n, few, rest⟩ := ih (s := s') (by omega)
      exact ⟨n + 1, by omega, .again past turned rest⟩

end Q2Admin.Lib
