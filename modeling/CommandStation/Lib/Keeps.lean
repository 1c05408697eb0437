import CommandStation.Lib.Program

/-!
# Programs that keep an invariant

`Keeps F I m` says that the program `m`, started where `I` holds, ends where `I` holds, unless it
stops with a fault that `F` allows. The property follows the text of the program.
-/

namespace CommandStation.Lib

variable {σ τ ε α β ι : Type}

/-- Wherever the invariant holds, it holds after the program. -/
def Keeps (F : ε → Prop) (I : σ → Prop) (m : Prog σ ε α) : Prop :=
  ∀ s, I s → wp F m (fun _ => I) s

variable {F : ε → Prop} {I : σ → Prop} {m : Prog σ ε α} {f : α → Prog σ ε β}

theorem keeps_pure (a : α) : Keeps F I (pure a : Prog σ ε α) := fun _ h => h

theorem keeps_modify {g : σ → σ} (h : ∀ s, I s → I (g s)) :
    Keeps F I (modify g : Prog σ ε PUnit) := h

theorem keeps_bind (h : Keeps F I m) (h' : ∀ a, Keeps F I (f a)) : Keeps F I (m >>= f) := by
  intro s hs
  rw [wp_bind]
  exact wp_mono (h s hs) fun a s' hs' => h' a s' hs'

/-- The program reads the state first. -/
theorem keeps_get_bind {f : σ → Prog σ ε β} (h : ∀ s, Keeps F I (f s)) : Keeps F I (get >>= f) := by
  intro s hs
  rw [wp_bind]
  exact h s s hs

theorem keeps_ite {c : Prop} [Decidable c] {m m' : Prog σ ε α} (h : c → Keeps F I m)
    (h' : ¬ c → Keeps F I m') : Keeps F I (if c then m else m') := by
  split
  · next hc => exact h hc
  · next hc => exact h' hc

theorem keeps_when {c : Prop} [Decidable c] {m : Prog σ ε Unit} (h : c → Keeps F I m) :
    Keeps F I (when c m) :=
  keeps_ite h fun _ => keeps_pure ()

theorem keeps_runProg {exec : ι → Prog σ ε α} {is : List ι} (h : ∀ i ∈ is, Keeps F I (exec i)) :
    Keeps F I (runProg exec is) := by
  induction is with
  | nil => exact keeps_pure ()
  | cons i is ih =>
    exact keeps_bind (h i List.mem_cons_self) fun _ => ih fun j hj => h j (List.mem_cons_of_mem i hj)

end CommandStation.Lib
