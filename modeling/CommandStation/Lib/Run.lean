import Mathlib.Data.List.Basic

/-!
# Runs of a step function

A component is a state type, a type of calls and a total step function. A run folds a list of
calls over a start state. `Along P` says that `P` holds of every state/call pair that a run goes
through, which is how a condition on the calls of a history is stated; `inv_run` is the one
induction every safety theorem about such a component uses.
-/

namespace CommandStation.Lib

variable {σ ι : Type}

/-- The state after the calls of `is`, oldest first. -/
def run (step : σ → ι → σ) (s : σ) (is : List ι) : σ := is.foldl step s

/-- `P` holds of each call of `is` and the state it is made in. -/
def Along (step : σ → ι → σ) (P : σ → ι → Prop) : σ → List ι → Prop
  | _, [] => True
  | s, i :: is => P s i ∧ Along step P (step s i) is

variable {step : σ → ι → σ} {P : σ → ι → Prop}

instance decidableAlong [∀ s i, Decidable (P s i)] :
    ∀ (s : σ) (is : List ι), Decidable (Along step P s is)
  | _, [] => isTrue trivial
  | s, i :: is =>
    have := decidableAlong (step s i) is
    inferInstanceAs (Decidable (P s i ∧ Along step P (step s i) is))

@[simp] theorem run_nil (s : σ) : run step s [] = s := rfl

@[simp] theorem run_cons (s : σ) (i : ι) (is : List ι) :
    run step s (i :: is) = run step (step s i) is := rfl

theorem run_append (s : σ) (is js : List ι) :
    run step s (is ++ js) = run step (run step s is) js :=
  List.foldl_append ..

theorem along_append {s : σ} {is js : List ι} :
    Along step P s (is ++ js) ↔ Along step P s is ∧ Along step P (run step s is) js := by
  induction is generalizing s with
  | nil => simp [Along]
  | cons i is ih => simp [Along, ih, and_assoc]

theorem Along.imp {Q : σ → ι → Prop} (hPQ : ∀ s i, P s i → Q s i) {s : σ} {is : List ι}
    (h : Along step P s is) : Along step Q s is := by
  induction is generalizing s with
  | nil => trivial
  | cons i is ih => exact ⟨hPQ s i h.1, ih h.2⟩

/-- A run goes through the call at position `k`. -/
theorem run_eq_of_getElem? {is : List ι} {k : Nat} {i : ι} (hk : is[k]? = some i) (s : σ) :
    run step s is = run step (step (run step s (is.take k)) i) (is.drop (k + 1)) := by
  obtain ⟨hlt, rfl⟩ := List.getElem?_eq_some_iff.mp hk
  have hsplit : is = is.take k ++ is[k] :: is.drop (k + 1) := by simp
  rw [← run_cons, ← run_append, ← hsplit]

theorem Along.drop_of_getElem? {is : List ι} {k : Nat} {i : ι} (hk : is[k]? = some i) {s : σ}
    (h : Along step P s is) :
    Along step P (step (run step s (is.take k)) i) (is.drop (k + 1)) := by
  obtain ⟨hlt, rfl⟩ := List.getElem?_eq_some_iff.mp hk
  have hsplit : is = is.take k ++ is[k] :: is.drop (k + 1) := by simp
  rw [hsplit, along_append] at h
  exact h.2.2

/-- **The invariant rule.** What every step keeps, under a condition on the call, holds after
every run whose calls meet the condition. -/
theorem inv_run (Inv : σ → Prop) (hstep : ∀ s i, P s i → Inv s → Inv (step s i))
    {s : σ} (hs : Inv s) {is : List ι} (h : Along step P s is) : Inv (run step s is) := by
  induction is generalizing s with
  | nil => exact hs
  | cons i is ih => exact ih (hstep s i h.1 hs) h.2

/-- The invariant rule with no condition on the calls. -/
theorem inv_run_of_step (Inv : σ → Prop) (hstep : ∀ s i, Inv s → Inv (step s i))
    {s : σ} (hs : Inv s) (is : List ι) : Inv (run step s is) := by
  induction is generalizing s with
  | nil => exact hs
  | cons i is ih => exact ih (hstep s i hs)

/-- Two conditions that are the same in every state that a run goes through. -/
theorem along_congr {Q : σ → ι → Prop} (Inv : σ → Prop) (hstep : ∀ s i, Inv s → Inv (step s i))
    (hPQ : ∀ s i, Inv s → (P s i ↔ Q s i)) {s : σ} (hs : Inv s) (is : List ι) :
    Along step P s is ↔ Along step Q s is := by
  induction is generalizing s with
  | nil => exact Iff.rfl
  | cons i is ih => exact and_congr (hPQ s i hs) (ih (hstep s i hs))

end CommandStation.Lib
