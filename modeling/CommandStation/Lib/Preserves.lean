import CommandStation.Lib.Program
import Mathlib.Order.Defs.Unbundled

/-!
# Programs that keep a relation

`Preserves R m` says that every run of `m` that returns ends in a state related by `R` to the state
it started in. For a preorder `R` the property is closed under everything programs are built from,
so it is proved for the primitive programs and then follows the structure of the program text,
without any knowledge of the states in between.
-/

namespace CommandStation.Lib

variable {σ τ ε α β ι : Type}

/-- Every run that returns ends in a state related to the first one. -/
def Preserves (R : σ → σ → Prop) (m : Prog σ ε α) : Prop :=
  ∀ s, wp (fun _ => True) m (fun _ s' => R s s') s

variable {R : σ → σ → Prop} {m : Prog σ ε α} {f : α → Prog σ ε β}

section Reflexive

variable [Std.Refl R]

theorem preserves_pure (a : α) : Preserves R (pure a : Prog σ ε α) := fun s => Std.Refl.refl s

theorem preserves_get : Preserves R (get : Prog σ ε σ) := fun s => Std.Refl.refl s

end Reflexive

theorem preserves_throw (e : ε) : Preserves R (throw e : Prog σ ε α) := fun _ => trivial

theorem preserves_modify {g : σ → σ} (h : ∀ s, R s (g s)) :
    Preserves R (modify g : Prog σ ε PUnit) := h

/-- The program reads the state first: what it goes on with is only run from the state it read. -/
theorem preserves_get_bind {f : σ → Prog σ ε β}
    (h : ∀ s, wp (fun _ => True) (f s) (fun _ s' => R s s') s) : Preserves R (get >>= f) := by
  intro s
  rw [wp_bind]
  exact h s

theorem preserves_ite {c : Prop} [Decidable c] {m m' : Prog σ ε α} (h : c → Preserves R m)
    (h' : ¬ c → Preserves R m') : Preserves R (if c then m else m') := by
  split
  · next hc => exact h hc
  · next hc => exact h' hc

theorem preserves_when [Std.Refl R] {c : Prop} [Decidable c] {m : Prog σ ε Unit}
    (h : c → Preserves R m) : Preserves R (when c m) :=
  preserves_ite h fun _ => preserves_pure ()

/-- A program on a part of the state, where the relation says nothing about the part. -/
theorem preserves_zoom {T : τ → τ → Prop} {part : τ → σ} {put : τ → σ → τ} {m : Prog σ ε α}
    (hT : ∀ t s', T t (put t s')) : Preserves T (zoom part put m) := by
  intro t
  simp only [wp_zoom]
  rw [wp_iff_forall]
  exact fun _ s' _ => hT t s'

theorem Preserves.mono {R' : σ → σ → Prop} (h : Preserves R m) (hR : ∀ s s', R s s' → R' s s') :
    Preserves R' m :=
  fun s => wp_mono (h s) fun _ s' hs' => hR s s' hs'

section Transitive

variable [IsTrans σ R]

theorem preserves_bind (h : Preserves R m) (h' : ∀ a, Preserves R (f a)) :
    Preserves R (m >>= f) := by
  intro s
  rw [wp_bind]
  refine wp_mono (h s) ?_
  intro a s₁ h₁
  exact wp_mono (h' a s₁) fun _ s₂ h₂ => IsTrans.trans _ _ _ h₁ h₂

theorem preserves_loop [Std.Refl R] {body : α → β → Prog σ ε (Option α × β)} {endless : ε}
    (h : ∀ a b, Preserves R (body a b)) (fuel : Nat) (p : Option α) (b : β) :
    Preserves R (loop body endless fuel p b) := by
  intro s
  refine wp_loop_of_turns trivial ?_ (Std.Refl.refl s)
  intro a b s₁ h₁
  exact wp_mono (h a b s₁) fun _ s₂ h₂ => IsTrans.trans _ _ _ h₁ h₂

theorem preserves_runProg [Std.Refl R] {exec : ι → Prog σ ε α} (h : ∀ i, Preserves R (exec i))
    (is : List ι) : Preserves R (runProg exec is) := by
  induction is with
  | nil => exact preserves_pure ()
  | cons i is ih => exact preserves_bind (h i) fun _ => ih

end Transitive

end CommandStation.Lib
