import Mathlib.Data.List.Basic

/-!
# Readers that look at a front part

A reader is given all that follows, and has no result if it would look beyond. `Local f` says that what
follows the part it has looked at does not matter.
-/

namespace CommandStation.Lib

variable {α β γ : Type}

/-- A result stays the result, whatever is put behind. -/
def Local (f : List α → Option β) : Prop := ∀ xs ys b, f xs = some b → f (xs ++ ys) = some b

theorem local_const (r : Option β) : Local fun _ : List α => r := fun _ _ _ h => h

theorem local_getElem (i : Nat) : Local fun xs : List α => xs[i]? := by
  intro xs ys b h
  obtain ⟨hlt, -⟩ := List.getElem?_eq_some_iff.mp h
  exact (List.getElem?_append_left hlt).trans h

theorem Local.bind {f : List α → Option β} {g : β → List α → Option γ} (hf : Local f)
    (hg : ∀ b, Local (g b)) : Local fun xs => (f xs).bind fun b => g b xs := by
  intro xs ys c h
  obtain ⟨b, hb, hc⟩ := Option.bind_eq_some_iff.mp h
  simp only [hf xs ys b hb, Option.bind_some]
  exact hg b xs ys c hc

theorem Local.map {f : List α → Option β} (hf : Local f) (g : β → γ) :
    Local fun xs => (f xs).map g := by
  intro xs ys c h
  obtain ⟨b, hb, hc⟩ := Option.map_eq_some_iff.mp h
  simp only [hf xs ys b hb, Option.map_some, hc]

theorem local_ite {c : Prop} [Decidable c] {f g : List α → Option β} (hf : Local f) (hg : Local g) :
    Local fun xs => if c then f xs else g xs := by
  intro xs ys b h
  by_cases hc : c
  · simp only [hc, if_true] at h ⊢
    exact hf xs ys b h
  · simp only [hc, if_false] at h ⊢
    exact hg xs ys b h

/-- A reader that begins further on. -/
theorem Local.drop {f : List α → Option β} (hf : Local f) (n : Nat) : Local fun xs => f (xs.drop n) := by
  intro xs ys b h
  simp only [List.drop_append]
  exact hf _ _ b h

end CommandStation.Lib
