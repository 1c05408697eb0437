import CommandStation.Lib.Run

/-!
# Endless runs

A component that waits for its surroundings is given an endless stream of inputs. `states` are the
states it goes through. `exists_leaves` is the rule for waiting: an input that the component waits at
leaves its state alone, so if not all inputs are such, there comes one that is not, and it meets the
very same state.
-/

namespace CommandStation.Lib

variable {σ ι : Type}

/-- The state after `n` inputs of the stream. -/
def states (step : σ → ι → σ) (s : σ) (is : Nat → ι) : Nat → σ
  | 0 => s
  | n + 1 => step (states step s is n) (is n)

variable {step : σ → ι → σ} {s x : σ} {is : Nat → ι} {n : Nat}

/-- **The rule for waiting.** -/
theorem exists_leaves (waits : ι → Prop) (hstay : ∀ i, waits i → step x i = x)
    (hfair : ∃ m, n ≤ m ∧ ¬ waits (is m)) (hx : states step s is n = x) :
    ∃ m, n ≤ m ∧ ¬ waits (is m) ∧ states step s is m = x := by
  obtain ⟨m, hm, hleaves⟩ := hfair
  obtain ⟨k, rfl⟩ := Nat.exists_eq_add_of_le hm
  induction k generalizing n with
  | zero => exact ⟨n, Nat.le_refl n, hleaves, hx⟩
  | succ k ih =>
    by_cases hwaits : waits (is n)
    · have hnext : states step s is (n + 1) = x := by rw [states, hx, hstay _ hwaits]
      rw [show n + (k + 1) = n + 1 + k by omega] at hleaves
      obtain ⟨m, hm, h⟩ := ih hnext (Nat.le_add_right (n + 1) k) hleaves
      exact ⟨m, Nat.le_of_succ_le hm, h⟩
    · exact ⟨n, Nat.le_refl n, hwaits, hx⟩

/-- A step that needs no waiting. -/
theorem states_succ (hx : states step s is n = x) : states step s is (n + 1) = step x (is n) := by
  rw [states, hx]

end CommandStation.Lib
