import Mathlib.Data.List.Basic

/-!
# Absorbing blocks

A long input is taken in blocks of `n`, from its front. What is left is shorter than a block, and waits
for more input. What matters is the whole input, and not how it was cut.
-/

namespace CommandStation.Lib

variable {α σ : Type*}

/-- The blocks that `xs` has, taken into the state one by one, and what is left of `xs`. -/
def absorb (n : Nat) (f : σ → List α → σ) (s : σ) (xs : List α) : σ × List α :=
  if 0 < n ∧ n ≤ xs.length then absorb n f (f s (xs.take n)) (xs.drop n) else (s, xs)
termination_by xs.length
decreasing_by simp_wf; omega

/-- An input that is absorbed without a rest. -/
def absorbed (n : Nat) (f : σ → List α → σ) (s : σ) (xs : List α) : σ := (absorb n f s xs).1

variable {n : Nat} {f : σ → List α → σ} {s : σ} {xs ys : List α}

theorem absorb_of_lt (h : xs.length < n) : absorb n f s xs = (s, xs) := by
  rw [absorb, if_neg (by omega)]

theorem absorb_of_le (hn : 0 < n) (h : n ≤ xs.length) :
    absorb n f s xs = absorb n f (f s (xs.take n)) (xs.drop n) := by
  rw [absorb, if_pos ⟨hn, h⟩]

/-- One block in front of the rest. -/
theorem absorb_block (hn : 0 < n) (h : xs.length = n) :
    absorb n f s (xs ++ ys) = absorb n f (f s xs) ys := by
  rw [absorb_of_le hn (by simp; omega), List.take_left' h, List.drop_left' h]

/-- **What is left after the first input stands in front of the second.** -/
theorem absorb_append (hn : 0 < n) (s : σ) (xs ys : List α) :
    absorb n f s (xs ++ ys) =
      absorb n f (absorb n f s xs).1 ((absorb n f s xs).2 ++ ys) := by
  by_cases h : n ≤ xs.length
  · have hshort : (xs.drop n).length < xs.length := by simp; omega
    have hlong : n ≤ (xs ++ ys).length := by simp; omega
    rw [absorb_of_le hn h, absorb_of_le hn hlong, List.take_append_of_le_length h,
      List.drop_append_of_le_length h]
    exact absorb_append hn (f s (xs.take n)) (xs.drop n) ys
  · have hshort : absorb n f s xs = (s, xs) := absorb_of_lt (by omega)
    rw [hshort]
termination_by xs.length

theorem absorb_rest_lt (hn : 0 < n) (s : σ) (xs : List α) : (absorb n f s xs).2.length < n := by
  by_cases h : n ≤ xs.length
  · have hshort : (xs.drop n).length < xs.length := by simp; omega
    rw [absorb_of_le hn h]
    exact absorb_rest_lt hn (f s (xs.take n)) (xs.drop n)
  · rw [absorb_of_lt (by omega)]
    simpa using h
termination_by xs.length

/-- The length of what is left. -/
theorem absorb_rest_length (hn : 0 < n) (s : σ) (xs : List α) :
    (absorb n f s xs).2.length = xs.length % n := by
  by_cases h : n ≤ xs.length
  · have hshort : (xs.drop n).length < xs.length := by simp; omega
    rw [absorb_of_le hn h, absorb_rest_length hn (f s (xs.take n)) (xs.drop n), List.length_drop,
      ← Nat.mod_eq_sub_mod h]
  · rw [absorb_of_lt (by omega), Nat.mod_eq_of_lt (by omega)]
termination_by xs.length

end CommandStation.Lib
