import Mathlib.Algebra.Group.Hom.Defs
import Mathlib.Algebra.GroupWithZero.Nat
import Q2Admin.Lib.Outcome

/-! Runs of a machine whose steps may fail. A run is a list of events; rules for what
every step preserves, for what the steps add up to, and for leaving out events that change
nothing that counts. -/

namespace Q2Admin.Lib

variable {σ ε φ : Type}

def run (step : σ → ε → Except φ σ) : σ → List ε → Except φ σ
  | s, [] => .ok s
  | s, e :: rest => step s e >>= fun s' => run step s' rest

/-- Every event of the run is allowed in the state it comes in. -/
def Allowed (step : σ → ε → Except φ σ) (allowed : σ → ε → Prop) : σ → List ε → Prop
  | _, [] => True
  | s, e :: rest => allowed s e ∧ ∀ s', step s e = .ok s' → Allowed step allowed s' rest

instance instDecidableAllowed (step : σ → ε → Except φ σ) (allowed : σ → ε → Prop) [∀ s e, Decidable (allowed s e)] :
    (s : σ) → (events : List ε) → Decidable (Allowed step allowed s events)
  | _, [] => inferInstanceAs (Decidable True)
  | s, e :: rest =>
    match stepped : step s e with
    | .ok s' =>
      have := instDecidableAllowed step allowed s' rest
      decidable_of_iff (allowed s e ∧ Allowed step allowed s' rest) (by simp [Allowed, stepped])
    | .error _ => decidable_of_iff (allowed s e) (by simp [Allowed, stepped])

theorem run_cons_ok {step : σ → ε → Except φ σ} {s s'' : σ} {e : ε} {rest : List ε}
    (ran : run step s (e :: rest) = .ok s'') :
    ∃ s', step s e = .ok s' ∧ run step s' rest = .ok s'' := by
  unfold run at ran
  cases first : step s e with
  | error fault => simp [first, Bind.bind, Except.bind] at ran
  | ok s' => exact ⟨s', rfl, by simpa [first, Bind.bind, Except.bind] using ran⟩

theorem run_cons {step : σ → ε → Except φ σ} {s s' : σ} {e : ε} (rest : List ε)
    (first : step s e = .ok s') : run step s (e :: rest) = run step s' rest := by
  simp only [run, first, Bind.bind, Except.bind]

theorem run_append {step : σ → ε → Except φ σ} {s s' : σ} {front : List ε} (rest : List ε)
    (ran : run step s front = .ok s') : run step s (front ++ rest) = run step s' rest := by
  induction front generalizing s with
  | nil => exact Except.ok.inj ran ▸ rfl
  | cons e front ih =>
    obtain ⟨middle, first, later⟩ := run_cons_ok ran
    exact (run_cons _ first).trans (ih later)

theorem allowed_append {step : σ → ε → Except φ σ} {allowed : σ → ε → Prop} {s : σ} {front rest : List ε} :
    Allowed step allowed s (front ++ rest) ↔ Allowed step allowed s front ∧
      ∀ s', run step s front = .ok s' → Allowed step allowed s' rest := by
  induction front generalizing s with
  | nil =>
    refine ⟨fun fine => ⟨trivial, fun s' ran => Except.ok.inj ran ▸ fine⟩, fun fine => fine.2 s rfl⟩
  | cons e front ih =>
    constructor
    · rintro ⟨first, later⟩
      refine ⟨⟨first, fun s' ran => (ih.mp (later s' ran)).1⟩, fun s'' ran => ?_⟩
      obtain ⟨middle, stepped, last⟩ := run_cons_ok ran
      exact (ih.mp (later middle stepped)).2 s'' last
    · rintro ⟨⟨first, later⟩, behind⟩
      refine ⟨first, fun s' stepped => ih.mpr ⟨later s' stepped, fun s'' ran => ?_⟩⟩
      exact behind s'' ((run_cons front stepped).trans ran)

/-- What every allowed step preserves, every allowed run preserves. -/
theorem run_invariant {step : σ → ε → Except φ σ} {allowed : σ → ε → Prop} (holds : σ → Prop)
    (step_holds : ∀ s e s', holds s → allowed s e → step s e = .ok s' → holds s')
    {s s' : σ} {events : List ε} (start : holds s) (fine : Allowed step allowed s events)
    (ran : run step s events = .ok s') : holds s' := by
  induction events generalizing s with
  | nil =>
    simp only [run, Except.ok.injEq] at ran
    exact ran ▸ start
  | cons e rest ih =>
    obtain ⟨middle, first, later⟩ := run_cons_ok ran
    exact ih (step_holds s e middle start fine.1 first) (fine.2 middle first) later

/-- What holds after a run and not before, a step has brought about. -/
theorem run_becomes {step : σ → ε → Except φ σ} {holds : σ → Prop} {s s' : σ} {events : List ε}
    (ran : run step s events = .ok s') (before : ¬ holds s) (after : holds s') :
    ∃ front e rest q q', events = front ++ e :: rest ∧ run step s front = .ok q ∧ step q e = .ok q' ∧
      ¬ holds q ∧ holds q' := by
  induction events generalizing s with
  | nil => exact absurd (Except.ok.inj ran ▸ after) before
  | cons e rest ih =>
    obtain ⟨middle, first, later⟩ := run_cons_ok ran
    by_cases now : holds middle
    · exact ⟨[], e, rest, s, middle, rfl, rfl, first, before, now⟩
    · obtain ⟨front, turn, behind, q, q', split, reached, stepped, bare, held⟩ := ih later now
      refine ⟨e :: front, turn, behind, q, q', by rw [split, List.cons_append], ?_, stepped, bare, held⟩
      exact (run_cons front first).trans reached

/-- Conditions that agree on allowed events in good states agree on allowed runs from them. -/
theorem allowed_congr {step : σ → ε → Except φ σ} {allowed fine fine' : σ → ε → Prop} (good : σ → Prop)
    (keeps : ∀ s e s', good s → allowed s e → step s e = .ok s' → good s')
    (agree : ∀ s e, good s → allowed s e → (fine s e ↔ fine' s e)) {s : σ} {events : List ε} (start : good s)
    (fair : Allowed step allowed s events) : Allowed step fine s events ↔ Allowed step fine' s events := by
  induction events generalizing s with
  | nil => rfl
  | cons e rest ih =>
    apply and_congr (agree s e start fair.1)
    apply forall_congr'
    intro s'
    apply imp_congr_right
    intro stepped
    exact ih (keeps s e s' start fair.1 stepped) (fair.2 s' stepped)

/-- Where fine events keep a state good and the others spoil it, all states on the way are
good exactly when all events are fine. -/
theorem run_always_iff {step : σ → ε → Except φ σ} (good : σ → Prop) (fine : σ → ε → Prop) {s : σ}
    {events : List ε} (start : good s)
    (keeps : ∀ s e s', e ∈ events → good s → fine s e → step s e = .ok s' → good s')
    (spoils : ∀ s e, e ∈ events → good s → ¬ fine s e → ∃ s', step s e = .ok s' ∧ ¬ good s') :
    (∀ front s', front <+: events → run step s front = .ok s' → good s') ↔ Allowed step fine s events := by
  induction events generalizing s with
  | nil =>
    refine iff_of_true (fun front s' nothing ran => ?_) trivial
    rw [List.prefix_nil.mp nothing] at ran
    exact Except.ok.inj ran ▸ start
  | cons e rest ih =>
    have keepsLater := fun s f s' member => keeps s f s' (List.mem_cons_of_mem e member)
    have spoilsLater := fun s f member => spoils s f (List.mem_cons_of_mem e member)
    have first_good {s' : σ} (first : fine s e) (stepped : step s e = .ok s') : good s' :=
      keeps s e s' List.mem_cons_self start first stepped
    constructor
    · intro always
      have first : fine s e := by
        by_contra bad
        obtain ⟨s', stepped, spoiled⟩ := spoils s e List.mem_cons_self start bad
        exact spoiled (always [e] s' ⟨rest, rfl⟩ (run_cons [] stepped))
      refine ⟨first, fun s' stepped => (ih (first_good first stepped) keepsLater spoilsLater).mp ?_⟩
      intro front s'' initial ran
      exact always (e :: front) s'' ((List.prefix_cons_inj e).mpr initial) ((run_cons front stepped).trans ran)
    · rintro ⟨first, behind⟩ front s'' initial ran
      cases front with
      | nil => exact Except.ok.inj ran ▸ start
      | cons f front =>
        obtain ⟨rfl, shorter⟩ := List.cons_prefix_cons.mp initial
        obtain ⟨s', stepped, through⟩ := run_cons_ok ran
        exact (ih (first_good first stepped) keepsLater spoilsLater).mpr (behind s' stepped) front s'' shorter
          through

/-- What holds after a step exactly if it held before and the step was fine holds after a run
exactly if it held before and all steps were. -/
theorem run_lasts_iff {step : σ → ε → Except φ σ} {fine : σ → ε → Prop} (good holds : σ → Prop) {s s' : σ}
    {events : List ε}
    (step_lasts : ∀ s e s', e ∈ events → good s → step s e = .ok s' → good s' ∧ (holds s' ↔ holds s ∧ fine s e))
    (start : good s) (ran : run step s events = .ok s') :
    good s' ∧ (holds s' ↔ holds s ∧ Allowed step fine s events) := by
  induction events generalizing s with
  | nil =>
    obtain rfl := Except.ok.inj ran
    exact ⟨start, (and_iff_left trivial).symm⟩
  | cons e rest ih =>
    obtain ⟨middle, first, later⟩ := run_cons_ok ran
    obtain ⟨kept, here⟩ := step_lasts s e middle List.mem_cons_self start first
    obtain ⟨last, behind⟩ := ih (fun s f s' member => step_lasts s f s' (List.mem_cons_of_mem e member)) kept later
    have only (s' : σ) (stepped : step s e = .ok s') : s' = middle := Except.ok.inj (stepped.symm.trans first)
    refine ⟨last, behind.trans ?_⟩
    rw [here, and_assoc]
    apply and_congr_right
    intro _
    apply and_congr_right
    intro _
    exact ⟨fun fair s' stepped => (only s' stepped).symm ▸ fair, fun fair => fair middle first⟩

/-- Where every event either resets what is observed or leaves it, a run has reset it if one
of its events has, and left it otherwise. -/
theorem run_resets {step : σ → ε → Except φ σ} {β : Type} (obs : σ → β) (bare : β) (holds : σ → Prop)
    (resets : ε → Prop) {s s' : σ} {events : List ε}
    (step_resets : ∀ s e s', e ∈ events → holds s → step s e = .ok s' →
      holds s' ∧ (resets e → obs s' = bare) ∧ (¬ resets e → obs s' = obs s))
    (start : holds s) (ran : run step s events = .ok s') :
    ((∃ e ∈ events, resets e) → obs s' = bare) ∧ ((∀ e ∈ events, ¬ resets e) → obs s' = obs s) := by
  induction events generalizing s with
  | nil =>
    simp only [run, Except.ok.injEq] at ran
    exact ⟨by simp, fun _ => by rw [ran]⟩
  | cons e rest ih =>
    obtain ⟨middle, first, later⟩ := run_cons_ok ran
    obtain ⟨held, reset, left⟩ := step_resets s e middle List.mem_cons_self start first
    obtain ⟨resetLater, leftLater⟩ :=
      ih (fun s f s' member => step_resets s f s' (List.mem_cons_of_mem e member)) held later
    constructor
    · intro some
      by_cases behind : ∃ f ∈ rest, resets f
      · exact resetLater behind
      · have here : resets e := by simpa [behind] using some
        rw [leftLater (by simpa using behind), reset here]
    · intro none
      rw [leftLater fun f member => none f (List.mem_cons_of_mem e member), left (none e List.mem_cons_self)]

/-- Erased events that the other run does not notice can be left out of a run: `same`
relates the states of the run with them and the run without. -/
theorem run_erase {step : σ → ε → Except φ σ} {allowed : σ → ε → Prop} {erased : ε → Bool}
    {same : σ → σ → Prop} {s t s' : σ} {events : List ε} (start : same s t)
    (fine : Allowed step allowed s events) (ran : run step s events = .ok s')
    (unnoticed : ∀ s t e s', same s t → erased e = true → allowed s e → step s e = .ok s' → same s' t)
    (followed : ∀ s t e s', same s t → erased e = false → step s e = .ok s' →
      ∃ t', step t e = .ok t' ∧ same s' t') :
    ∃ t', run step t (events.filter fun e => !erased e) = .ok t' ∧ same s' t' := by
  induction events generalizing s t with
  | nil =>
    simp only [run, Except.ok.injEq] at ran
    exact ⟨t, rfl, ran ▸ start⟩
  | cons e rest ih =>
    obtain ⟨middle, first, later⟩ := run_cons_ok ran
    cases left : erased e with
    | true =>
      have kept := unnoticed s t e middle start left fine.1 first
      rw [List.filter_cons_of_neg (by simp [left])]
      exact ih kept (fine.2 middle first) later
    | false =>
      obtain ⟨other, matched, kept⟩ := followed s t e middle start left first
      obtain ⟨last, through, done⟩ := ih kept (fine.2 middle first) later
      rw [List.filter_cons_of_pos (by simp [left])]
      exact ⟨last, (run_cons _ matched).trans through, done⟩

/-- Where another machine follows every allowed step, it follows every allowed run. -/
theorem run_simulates {τ ψ : Type} {step : σ → ε → Except φ σ} {step' : τ → ε → Except ψ τ} {allowed : σ → ε → Prop}
    (related : σ → τ → Prop) {s s' : σ} {t : τ} {events : List ε}
    (step_simulates : ∀ s t e s', related s t → allowed s e → step s e = .ok s' →
      ∃ t', step' t e = .ok t' ∧ related s' t')
    (start : related s t) (fine : Allowed step allowed s events) (ran : run step s events = .ok s') :
    ∃ t', run step' t events = .ok t' ∧ related s' t' := by
  induction events generalizing s t with
  | nil =>
    obtain rfl := Except.ok.inj ran
    exact ⟨t, rfl, start⟩
  | cons e rest ih =>
    obtain ⟨middle, first, later⟩ := run_cons_ok ran
    obtain ⟨other, matched, kept⟩ := step_simulates s t e middle start fine.1 first
    obtain ⟨last, through, done⟩ := ih kept (fine.2 middle first) later
    exact ⟨last, (run_cons rest matched).trans through, done⟩

/-- When every step succeeds from a good state and leaves a good one, so does every run. -/
theorem run_total {step : σ → ε → Except φ σ} (good : σ → Prop)
    (step_total : ∀ s e, good s → ∃ s', step s e = .ok s' ∧ good s')
    {s : σ} (start : good s) (events : List ε) : ∃ s', run step s events = .ok s' ∧ good s' := by
  induction events generalizing s with
  | nil => exact ⟨s, rfl, start⟩
  | cons e rest ih =>
    obtain ⟨middle, first, fine⟩ := step_total s e start
    obtain ⟨last, later, done⟩ := ih fine
    exact ⟨last, (run_cons rest first).trans later, done⟩

/-- When every allowed step succeeds from a good state and leaves a good one, so does every
allowed run. -/
theorem run_returns {step : σ → ε → Except φ σ} {allowed : σ → ε → Prop} (good : σ → Prop)
    (step_returns : ∀ s e, good s → allowed s e → ∃ s', step s e = .ok s' ∧ good s')
    {s : σ} {events : List ε} (start : good s) (fine : Allowed step allowed s events) :
    ∃ s', run step s events = .ok s' ∧ good s' := by
  induction events generalizing s with
  | nil => exact ⟨s, rfl, start⟩
  | cons e rest ih =>
    obtain ⟨middle, first, held⟩ := step_returns s e start fine.1
    obtain ⟨last, later, done⟩ := ih held (fine.2 middle first)
    exact ⟨last, (run_cons rest first).trans later, done⟩

/-- When an allowed step from a good state succeeds exactly if it is fine, and leaves a good
one, an allowed run succeeds exactly if all its steps are fine. -/
theorem run_returns_iff {step : σ → ε → Except φ σ} {allowed fine : σ → ε → Prop} (good : σ → Prop)
    (keeps : ∀ s e s', good s → allowed s e → step s e = .ok s' → good s')
    (step_iff : ∀ s e, good s → allowed s e → ((∃ s', step s e = .ok s') ↔ fine s e))
    {s : σ} {events : List ε} (start : good s) (fair : Allowed step allowed s events) :
    (∃ s', run step s events = .ok s') ↔ Allowed step fine s events := by
  induction events generalizing s with
  | nil => exact ⟨fun _ => trivial, fun _ => ⟨s, rfl⟩⟩
  | cons e rest ih =>
    constructor
    · intro returned
      obtain ⟨last, ran⟩ := returned
      obtain ⟨middle, first, later⟩ := run_cons_ok ran
      refine ⟨(step_iff s e start fair.1).mp ⟨middle, first⟩, fun s' stepped => ?_⟩
      have same : s' = middle := Except.ok.inj (stepped.symm.trans first)
      rw [same]
      exact (ih (keeps s e middle start fair.1 first) (fair.2 middle first)).mp ⟨last, later⟩
    · intro allFine
      obtain ⟨middle, first⟩ := (step_iff s e start fair.1).mpr allFine.1
      rw [run_cons rest first]
      exact (ih (keeps s e middle start fair.1 first) (fair.2 middle first)).mpr (allFine.2 middle first)

/-- What holds at every allowed event in a good state holds at every event of the run. -/
theorem allowed_of_good {step : σ → ε → Except φ σ} {allowed fine : σ → ε → Prop} (good : σ → Prop)
    (keeps : ∀ s e s', good s → allowed s e → step s e = .ok s' → good s')
    (holds : ∀ s e, good s → allowed s e → fine s e) {s : σ} {events : List ε} (start : good s)
    (fair : Allowed step allowed s events) : Allowed step fine s events := by
  induction events generalizing s with
  | nil => trivial
  | cons e rest ih =>
    exact ⟨holds s e start fair.1, fun s' stepped => ih (keeps s e s' start fair.1 stepped) (fair.2 s' stepped)⟩

/-- Where every allowed step can be recorded in a ledger that only grows, so can every
allowed run. -/
theorem run_recorded {γ : Type} {step : σ → ε → Except φ σ} {allowed : σ → ε → Prop} (grows : γ → γ → Prop)
    (refl : ∀ g, grows g g) (trans : ∀ g g' g'', grows g g' → grows g' g'' → grows g g'')
    (holds : σ → γ → Prop)
    (step_recorded : ∀ s e s' g, holds s g → allowed s e → step s e = .ok s' → ∃ g', grows g g' ∧ holds s' g')
    {s s' : σ} {g : γ} {events : List ε} (start : holds s g) (fine : Allowed step allowed s events)
    (ran : run step s events = .ok s') : ∃ g', grows g g' ∧ holds s' g' := by
  induction events generalizing s g with
  | nil => exact ⟨g, refl g, Except.ok.inj ran ▸ start⟩
  | cons e rest ih =>
    obtain ⟨middle, first, later⟩ := run_cons_ok ran
    obtain ⟨g', grown, held⟩ := step_recorded s e middle g start fine.1 first
    obtain ⟨g'', more, done⟩ := ih held (fine.2 middle first) later
    exact ⟨g'', trans g g' g'' grown more, done⟩

/-! ## Totals -/

/-- What the events of a run amount to, each in the state it comes in. -/
def total {M : Type} [Zero M] [Add M] (step : σ → ε → Except φ σ) (amount : σ → ε → M) : σ → List ε → M
  | _, [] => 0
  | s, e :: rest => amount s e + match step s e with
    | .ok s' => total step amount s' rest
    | .error _ => 0

/-- What every allowed step raises by its amount, every allowed run raises by the total. -/
theorem run_raises {M : Type} [AddMonoid M] {step : σ → ε → Except φ σ} {allowed : σ → ε → Prop}
    {amount : σ → ε → M} (measure : σ → M)
    (step_raises : ∀ s e s', allowed s e → step s e = .ok s' → measure s' = measure s + amount s e)
    {s s' : σ} {events : List ε} (fine : Allowed step allowed s events)
    (ran : run step s events = .ok s') : measure s' = measure s + total step amount s events := by
  induction events generalizing s with
  | nil =>
    simp only [run, Except.ok.injEq] at ran
    rw [total, add_zero, ran]
  | cons e rest ih =>
    obtain ⟨middle, first, later⟩ := run_cons_ok ran
    calc measure s'
      _ = measure middle + total step amount middle rest := ih (fine.2 middle first) later
      _ = measure s + amount s e + total step amount middle rest := by
        rw [step_raises s e middle fine.1 first]
      _ = measure s + total step amount s (e :: rest) := by simp only [total, first, add_assoc]

theorem map_total {M N : Type} [AddMonoid M] [AddMonoid N] (h : M →+ N) (step : σ → ε → Except φ σ)
    (amount : σ → ε → M) (s : σ) (events : List ε) :
    total step (fun s e => h (amount s e)) s events = h (total step amount s events) := by
  induction events generalizing s with
  | nil => exact (map_zero h).symm
  | cons e rest ih =>
    rw [total, total, map_add]
    cases step s e with
    | error fault => simp only [map_zero]
    | ok s' => simp only [ih]

theorem total_eq_zero_iff {step : σ → ε → Except φ σ} {amount : σ → ε → Nat} {s : σ} {events : List ε} :
    total step amount s events = 0 ↔ Allowed step (fun s e => amount s e = 0) s events := by
  induction events generalizing s with
  | nil => simp only [total, Allowed]
  | cons e rest ih =>
    rw [total, Allowed, Nat.add_eq_zero_iff]
    cases step s e with
    | error fault => simp
    | ok s' => simp [ih]

theorem allowed_of_mem {step : σ → ε → Except φ σ} {allowed : σ → ε → Prop} {s : σ} {events : List ε}
    (all : ∀ e ∈ events, ∀ s, allowed s e) : Allowed step allowed s events := by
  induction events generalizing s with
  | nil => trivial
  | cons e rest ih =>
    exact ⟨all e List.mem_cons_self s, fun _ _ => ih fun f member => all f (List.mem_cons_of_mem e member)⟩

theorem allowed_all {step : σ → ε → Except φ σ} (s : σ) (events : List ε) :
    Allowed step (fun _ _ => True) s events := by
  induction events generalizing s with
  | nil => trivial
  | cons e rest ih => exact ⟨trivial, fun s' _ => ih s'⟩

end Q2Admin.Lib
