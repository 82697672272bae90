import Mathlib.Logic.Function.Basic
import Q2Admin.Lib.Runs

/-! Cells that change one at a time. A history of changes is replayed on all of them, and what
becomes of a cell is read off the changes of that cell alone. A machine is shown to replay a
history by what each of its steps does. -/

namespace Q2Admin.Lib

variable {κ δ α : Type} [DecidableEq κ]

/-- The changes made to the cells, one after the other. -/
def replay (act : δ → α → α) (cells : κ → α) (changes : List (κ × δ)) : κ → α :=
  changes.foldl (fun cells change => Function.update cells change.1 (act change.2 (cells change.1))) cells

/-- The changes of one cell. -/
def changesOf (k : κ) (changes : List (κ × δ)) : List δ := (changes.filter (·.1 = k)).map (·.2)

section
variable (act : δ → α → α) (cells : κ → α)

theorem replay_cons (change : κ × δ) (rest : List (κ × δ)) : replay act cells (change :: rest) =
    replay act (Function.update cells change.1 (act change.2 (cells change.1))) rest := rfl

theorem replay_append (front rest : List (κ × δ)) :
    replay act cells (front ++ rest) = replay act (replay act cells front) rest := List.foldl_append ..

/-- A cell is what its own changes make of it, in their order. -/
theorem replay_at (changes : List (κ × δ)) (k : κ) :
    replay act cells changes k = (changesOf k changes).foldl (fun a d => act d a) (cells k) := by
  induction changes generalizing cells with
  | nil => rfl
  | cons change rest ih =>
    rw [replay_cons, ih]
    by_cases here : change.1 = k
    · subst here
      simp [changesOf]
    · rw [Function.update_of_ne (fun same => here same.symm)]
      simp [changesOf, here]

end

/-- A machine of which every step replays its changes replays those of a whole run. -/
theorem run_replays {σ ε φ : Type} {step : σ → ε → Except φ σ} {act : δ → α → α} {changes : ε → List (κ × δ)}
    (holds : σ → Prop) (shows : σ → (κ → α) → Prop)
    (step_replays : ∀ s e s' cells, holds s → shows s cells → step s e = .ok s' →
      holds s' ∧ shows s' (replay act cells (changes e)))
    {s s' : σ} {cells : κ → α} {events : List ε} (held : holds s) (start : shows s cells)
    (ran : run step s events = .ok s') : holds s' ∧ shows s' (replay act cells (events.flatMap changes)) := by
  induction events generalizing s cells with
  | nil => exact Except.ok.inj ran ▸ ⟨held, start⟩
  | cons e rest ih =>
    obtain ⟨middle, first, later⟩ := run_cons_ok ran
    obtain ⟨still, shown⟩ := step_replays s e middle cells held start first
    rw [List.flatMap_cons, replay_append]
    exact ih still shown later

end Q2Admin.Lib
