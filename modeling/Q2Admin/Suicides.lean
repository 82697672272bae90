import Mathlib.Algebra.Group.Prod
import Q2Admin.DeathNotices
import Q2Admin.Slots

/-! Whose suicides an obituary counts. `CalculateDeath` notes with a death whether there was
anybody else in it; `ParseObituary` goes by the murderer, who may also be a name that nobody has. -/

namespace Q2Admin
open Go Lib

/-- What a suicide changes: the suicides, and the frags. -/
def Player.toll (p : Player) : Int × Int := (p.suicides, p.frags)

/-- A suicide is held against the player. -/
def Player.Blamed (p p' : Player) : Prop := p.suicides < p'.suicides ∨ p'.frags < p.frags

section
variable (submatch : Bytes → Bytes → Option (Nat → Bytes)) (i : Nat) (obit : Bytes) (w w' : World)

/-- Suicides are deaths without a second name, and other deaths are not held against the victim. -/
structure SoloOnly : Prop where
  blamed : ∀ slot, ((w.fe i).player slot).Blamed ((w'.fe i).player slot) →
    ∃ death, (w.fe i).calculateDeath submatch obit = some death ∧ death.solo = true
  spared : ∀ death victim, (w.fe i).calculateDeath submatch obit = some death → death.solo = false →
    death.victim = some victim → ((w'.fe i).player victim).toll = ((w.fe i).player victim).toll

/-- Who dies by somebody's hand dies by the hand of a player, and of another one. -/
def KillerKnown : Prop := ∀ death victim, (w.fe i).calculateDeath submatch obit = some death →
  death.solo = false → death.victim = some victim →
  ∃ murderer, death.murderer = some murderer ∧ ((w.fe i).player murderer).clientID ≠ victim

end

section
variable {i : Nat} {w w' : World}

/-- One player's toll has changed by this much. -/
structure Tolled (i : Nat) (cid : Int) (amount : Int × Int) (w w' : World) : Prop where
  inside : 0 ≤ cid
  tolls : ∀ slot : Nat,
    ((w'.fe i).player slot).toll = ((w.fe i).player slot).toll + if (slot : Int) = cid then amount else 0

theorem atClient_tolled {cid : Int} {f : Player → Player} {a : Int × Int}
    (counts : ∀ p, (f p).toll = p.toll + a) (w : World) :
    Yields (atClient i cid f w) (Tolled i cid a w) fun _ => True := by
  unfold atClient
  by_cases valid : (w.fe i).validPlayerID cid = true
  · rw [if_pos valid]
    obtain ⟨low, high⟩ := (validPlayerID_iff _ _).mp valid
    refine ⟨low, fun slot => ?_⟩
    have players := players_updatePlayer i cid.toNat f w
    by_cases here : (slot : Int) = cid
    · obtain rfl : slot = cid.toNat := by omega
      rw [if_pos here, Frontend.player_modify (by omega) players, counts]
    · have other : slot ≠ cid.toNat := by omega
      rw [if_neg here, add_zero, Frontend.player_modify_ne other players]
  · rw [if_neg valid]
    trivial

theorem recordKDR_tolled (cid : Int) (w : World) :
    Yields (recordKDR i cid w) (Tolled i cid 0 w) fun _ => True :=
  atClient_tolled (f := fun p => { p with kdr := (w.fe i).calculateKDR cid }) (fun p => (add_zero p.toll).symm) w

theorem countSolo_tolled (cid : Int) (w : World) :
    Yields (countSolo i cid w) (Tolled i cid (1, -1) w) fun _ => True := by
  apply Yields.bind (atClient_tolled (f := Player.diedAlone) (a := (1, -1)) (fun _ => rfl) w)
  rintro w₁ - died
  apply (recordKDR_tolled cid w₁).mono _ fun _ => id
  intro w' recorded
  refine ⟨died.inside, fun slot => ?_⟩
  rw [recorded.tolls, died.tolls, ite_self, add_zero]

theorem countDuo_tolled (cidV cidM : Int) (w : World) :
    Yields (countDuo i cidV cidM w) (Tolled i cidM (0, 1) w) fun _ => True := by
  apply Yields.bind (atClient_tolled (f := Player.died) (fun p => (add_zero p.toll).symm) w)
  rintro w₁ - died
  apply Yields.bind (atClient_tolled (f := Player.scored) (a := (0, 1)) (fun p => ?_) w₁)
  · rintro w₂ - scored
    apply Yields.bind (recordKDR_tolled cidV w₂)
    rintro w₃ - first
    apply (recordKDR_tolled cidM w₃).mono _ fun _ => id
    intro w' second
    refine ⟨scored.inside, fun slot => ?_⟩
    rw [second.tolls, first.tolls, scored.tolls, died.tolls]
    simp only [ite_self, add_zero]
  · simp [Player.toll, Player.scored]

variable {submatch : Bytes → Bytes → Option (Nat → Bytes)} {obit : Bytes}

/-- A death that is counted as a suicide is held against the victim, whoever was in it. -/
theorem Tolled.blamed {cid : Int} (tolled : Tolled i cid (1, -1) w w') :
    ((w.fe i).player cid.toNat).Blamed ((w'.fe i).player cid.toNat) := by
  have toll := tolled.tolls cid.toNat
  rw [if_pos (Int.toNat_of_nonneg tolled.inside)] at toll
  have suicides : ((w'.fe i).player cid.toNat).suicides = ((w.fe i).player cid.toNat).suicides + 1 :=
    congrArg Prod.fst toll
  exact .inl (by omega)

/-- A frag is not. -/
theorem Tolled.not_blamed {cid : Int} (tolled : Tolled i cid (0, 1) w w') (slot : Nat) :
    ¬ ((w.fe i).player slot).Blamed ((w'.fe i).player slot) := by
  have toll := tolled.tolls slot
  by_cases here : (slot : Int) = cid
  · rw [if_pos here] at toll
    have suicides : ((w'.fe i).player slot).suicides = ((w.fe i).player slot).suicides + 0 := congrArg Prod.fst toll
    have frags : ((w'.fe i).player slot).frags = ((w.fe i).player slot).frags + 1 := congrArg Prod.snd toll
    rintro (more | fewer) <;> omega
  · rw [if_neg here, add_zero] at toll
    have suicides : ((w'.fe i).player slot).suicides = ((w.fe i).player slot).suicides := congrArg Prod.fst toll
    have frags : ((w'.fe i).player slot).frags = ((w.fe i).player slot).frags := congrArg Prod.snd toll
    rintro (more | fewer) <;> omega

/-- A frag leaves the victim's toll where it is not the victim's own. -/
theorem Tolled.spared_iff {cid : Int} (tolled : Tolled i cid (0, 1) w w') (victim : Nat) :
    ((w'.fe i).player victim).toll = ((w.fe i).player victim).toll ↔ cid ≠ victim := by
  rw [tolled.tolls victim]
  constructor
  · intro same own
    rw [if_pos own.symm] at same
    have frags := congrArg Prod.snd same
    simp at frags
  · intro other
    rw [if_neg other.symm, add_zero]

section
variable {death : Death} (judged : (w.fe i).calculateDeath submatch obit = some death)
include judged

theorem soloOnly_judged : SoloOnly submatch i obit w w' ↔ (death.solo = false →
    (∀ slot, ¬ ((w.fe i).player slot).Blamed ((w'.fe i).player slot)) ∧
    ∀ victim, death.victim = some victim → ((w'.fe i).player victim).toll = ((w.fe i).player victim).toll) := by
  constructor
  · rintro ⟨blamed, spared⟩ two
    refine ⟨fun slot hit => ?_, fun victim named => spared death victim judged two named⟩
    obtain ⟨other, same, alone⟩ := blamed slot hit
    rw [judged, Option.some.injEq] at same
    rw [same, alone] at two
    cases two
  · intro only
    refine ⟨fun slot hit => ⟨death, judged, ?_⟩, fun other victim same two named => ?_⟩
    · by_contra two
      exact (only (Bool.eq_false_of_not_eq_true two)).1 slot hit
    · rw [judged, Option.some.injEq] at same
      rw [← same] at two named
      exact (only two).2 victim named

theorem killerKnown_judged : KillerKnown submatch i obit w ↔ (death.solo = false →
    ∀ victim, death.victim = some victim →
      ∃ murderer, death.murderer = some murderer ∧ ((w.fe i).player murderer).clientID ≠ victim) := by
  constructor
  · intro known two victim named
    exact known death victim judged two named
  · intro known other victim same two named
    rw [judged, Option.some.injEq] at same
    rw [← same] at two named ⊢
    exact known two victim named

end

/-- Deaths by another's hand count as what they are exactly if the other is a player, and another. -/
theorem soloOnly_iff (ran : parseObituary i submatch obit w = .ok w') :
    SoloOnly submatch i obit w w' ↔ KillerKnown submatch i obit w := by
  unfold parseObituary at ran
  cases judged : (w.fe i).calculateDeath submatch obit with
  | none =>
    rw [judged] at ran
    cases ran
    refine ⟨fun _ death victim same => ?_, fun _ => ⟨fun slot hit => ?_, fun death victim same => ?_⟩⟩
    · rw [judged] at same
      cases same
    · exact absurd hit (by simp [Player.Blamed])
    · rw [judged] at same
      cases same
  | some death =>
    rw [soloOnly_judged judged, killerKnown_judged judged]
    apply imp_congr_right
    intro two
    simp only [judged] at ran
    obtain ⟨murderer, victim, means, solo⟩ := death
    cases victim with
    | none =>
      cases ran
      exact ⟨fun _ victim named => (by cases named), fun _ => ⟨fun slot hit => absurd hit (by simp [Player.Blamed]),
        fun victim named => rfl⟩⟩
    | some victim =>
      cases murderer with
      | none =>
        have tolled := (countSolo_tolled _ w).of_ok ran
        refine ⟨fun only => absurd tolled.blamed (only.1 _), fun known => ?_⟩
        obtain ⟨murderer, found, -⟩ := known victim rfl
        cases found
      | some murderer =>
        have tolled := (countDuo_tolled _ _ w).of_ok ran
        constructor
        · rintro ⟨-, spared⟩ _ named
          cases named
          exact ⟨murderer, rfl, (tolled.spared_iff victim).mp (spared victim rfl)⟩
        · intro known
          obtain ⟨_, found, other⟩ := known victim rfl
          cases found
          refine ⟨tolled.not_blamed, fun _ named => ?_⟩
          cases named
          exact (tolled.spared_iff victim).mpr other

end

/-- A server with two players. -/
def duelWorld (victim murderer : String) : World :=
  { frontends := [duel victim murderer], host := .counting }

theorem soloOnly_scarred : ∃ w', parseObituary 0 wildcardSubmatch (ascii "claire was blasted by scarred")
      (duelWorld "claire" "scarred") = .ok w' ∧
    SoloOnly wildcardSubmatch 0 (ascii "claire was blasted by scarred") (duelWorld "claire" "scarred") w' := by
  have judged : ((duelWorld "claire" "scarred").fe 0).calculateDeath wildcardSubmatch
      (ascii "claire was blasted by scarred") = some ⟨some 1, some 0, .blaster, false⟩ := by decide +kernel
  have told : Yields (parseObituary 0 wildcardSubmatch (ascii "claire was blasted by scarred")
      (duelWorld "claire" "scarred")) (fun _ => True) fun _ => False := by
    rw [parseObituary, judged]
    decide +kernel
  obtain ⟨w', ran, -⟩ := told.returns
  refine ⟨w', ran, (soloOnly_iff ran).mpr fun death victim same _ named => ?_⟩
  rw [judged] at same
  cases same
  cases named
  exact ⟨1, rfl, by decide⟩

/-- The murderer has left by the time the obituary is printed. -/
theorem soloOnly_departed : ¬ ∀ (i : Nat) (obit : Bytes) (w w' : World),
    parseObituary i wildcardSubmatch obit w = .ok w' → SoloOnly wildcardSubmatch i obit w w' := by
  intro promised
  have judged : ((duelWorld "claire" "scarred").fe 0).calculateDeath wildcardSubmatch
      (ascii "claire was blasted by bob") = some ⟨none, some 0, .blaster, false⟩ := by decide +kernel
  have told : Yields (parseObituary 0 wildcardSubmatch (ascii "claire was blasted by bob")
      (duelWorld "claire" "scarred")) (fun w' => ((w'.fe 0).player 0).toll = (1, -1)) fun _ => False := by
    rw [parseObituary, judged]
    decide +kernel
  obtain ⟨w', ran, toll⟩ := told.returns
  have spared := (promised 0 _ _ w' ran).spared _ 0 judged rfl rfl
  rw [toll] at spared
  exact absurd spared (by decide)

end Q2Admin
