/-! Pre- and postconditions of code that may fail: one condition on what it returns, and
one on what it fails with. With `False` for the second the code returns; with `True` the
rules are those of partial correctness. The same for two runs of code side by side: a
relation between what they return. -/

namespace Q2Admin.Lib

variable {α β φ : Type}

def Yields (x : Except φ α) (post : α → Prop) (fault : φ → Prop) : Prop :=
  match x with
  | .ok a => post a
  | .error e => fault e

instance (x : Except φ α) (post : α → Prop) (fault : φ → Prop) [DecidablePred post]
    [DecidablePred fault] : Decidable (Yields x post fault) :=
  match x with
  | .ok a => inferInstanceAs (Decidable (post a))
  | .error e => inferInstanceAs (Decidable (fault e))

namespace Yields
variable {x : Except φ α} {f : α → Except φ β} {post post' : α → Prop} {fault fault' : φ → Prop}

@[simp] theorem ok_iff (a : α) : Yields (.ok a : Except φ α) post fault ↔ post a := Iff.rfl

@[simp] theorem error_iff (e : φ) : Yields (.error e : Except φ α) post fault ↔ fault e := Iff.rfl

theorem mono (yields : Yields x post fault) (results : ∀ a, post a → post' a)
    (faults : ∀ e, fault e → fault' e) : Yields x post' fault' := by
  cases x with
  | ok a => exact results a yields
  | error e => exact faults e yields

/-- Nothing is asked and nothing is said. -/
theorem top (x : Except φ α) : Yields x (fun _ => True) fun _ => True := by
  cases x with
  | ok a => trivial
  | error e => trivial

theorem bind {last : β → Prop} (first : Yields x post fault)
    (next : ∀ a, x = .ok a → post a → Yields (f a) last fault) : Yields (x >>= f) last fault := by
  cases x with
  | ok a => exact next a rfl first
  | error e => exact first

theorem of_ok {a : α} (yields : Yields x post fault) (returned : x = .ok a) : post a := by
  subst returned
  exact yields

theorem returns (yields : Yields x post fun _ => False) : ∃ a, x = .ok a ∧ post a := by
  cases x with
  | ok a => exact ⟨a, rfl, yields⟩
  | error e => exact yields.elim

end Yields

/-- The code does not return. -/
def Fails (x : Except φ α) : Prop := ∃ e, x = .error e

namespace Fails
variable {x : Except φ α} {f : α → Except φ β}

theorem bind (fails : Fails x) : Fails (x >>= f) := by
  obtain ⟨e, failed⟩ := fails
  exact ⟨e, by rw [failed]; rfl⟩

theorem later {a : α} (returned : x = .ok a) (fails : Fails (f a)) : Fails (x >>= f) := by
  rw [returned]
  exact fails

end Fails

/-- Both return, and what they return is related; or both fail alike. -/
def Matches (related : α → β → Prop) : Except φ α → Except φ β → Prop
  | .ok a, .ok b => related a b
  | .error e, .error e' => e = e'
  | _, _ => False

namespace Matches
variable {γ δ : Type} {related : α → β → Prop} {last : γ → δ → Prop} {x : Except φ α}
  {y : Except φ β} {f : α → Except φ γ} {g : β → Except φ δ}

theorem bind (first : Matches related x y) (next : ∀ a b, related a b → Matches last (f a) (g b)) :
    Matches last (x >>= f) (y >>= g) := by
  match x, y, first with
  | .ok a, .ok b, pair => exact next a b pair
  | .error e, .error _, same => exact same

/-- Where one side returns, so does the other. -/
theorem returns {a : α} (alike : Matches related x y) (returned : x = .ok a) : ∃ b, y = .ok b ∧ related a b := by
  subst returned
  match y, alike with
  | .ok b, pair => exact ⟨b, rfl, pair⟩

end Matches
end Q2Admin.Lib
