import CommandStation.Lib.Program

/-!
# Programs with history variables

A program may be run with additional state that records what it does. `Shadows part m n` says that
`m`, which has this state, does to the part of its state that `part` selects what `n` does, with the
same result and the same faults. The rules follow the parts of a program; the ones about `peek` and
`ghost` are for the steps that only the recording program takes.
-/

namespace CommandStation.Lib

variable {σ τ ε α β ι : Type}

/-- `m` does to a part of its state what `n` does. -/
def Shadows (part : τ → σ) (m : Prog τ ε α) (n : Prog σ ε α) : Prop :=
  ∀ t, (m t).map (fun r => (r.1, part r.2)) = n (part t)

namespace Shadows

variable {part : τ → σ} {m : Prog τ ε α} {n : Prog σ ε α}

theorem pure (a : α) : Shadows part (Pure.pure a : Prog τ ε α) (Pure.pure a) := fun _ => rfl

theorem throw (e : ε) : Shadows part (MonadExcept.throw e : Prog τ ε α) (MonadExcept.throw e) :=
  fun _ => rfl

theorem zoom {put : τ → σ → τ} (hput : ∀ t s, part (put t s) = s) (n : Prog σ ε α) :
    Shadows part (Lib.zoom part put n) n := by
  intro t
  unfold Lib.zoom
  cases hn : n (part t) with
  | ok r => simp [Except.map, hput]
  | error e => rfl

theorem bind {f : α → Prog τ ε β} {g : α → Prog σ ε β} (h : Shadows part m n)
    (hf : ∀ a, Shadows part (f a) (g a)) : Shadows part (m >>= f) (n >>= g) := by
  intro t
  have hm := h t
  simp only [Bind.bind, StateT.bind, Except.bind]
  rw [← hm]
  cases m t with
  | ok r => exact hf r.1 r.2
  | error e => rfl

theorem get {f : τ → Prog τ ε β} {g : σ → Prog σ ε β}
    (hf : ∀ t, Shadows part (f t) (g (part t))) :
    Shadows part (MonadState.get >>= f) (MonadState.get >>= g) := fun t => hf t t

/-- The recording program reads its state. -/
theorem peek {f : τ → Prog τ ε α} (hf : ∀ t, Shadows part (f t) n) :
    Shadows part (MonadState.get >>= f) n := fun t => hf t t

/-- The recording program writes something down. -/
theorem ghost {g : τ → τ} (hg : ∀ t, part (g t) = part t) (h : Shadows part m n) :
    Shadows part (modify g >>= fun _ => m) n := by
  intro t
  rw [← hg t]
  exact h (g t)

theorem ite {c : Prop} [Decidable c] {m' : Prog τ ε α} {n' : Prog σ ε α}
    (h : c → Shadows part m n) (h' : ¬ c → Shadows part m' n') :
    Shadows part (if c then m else m') (if c then n else n') := by
  split
  · next hc => exact h hc
  · next hc => exact h' hc

theorem when {c : Prop} [Decidable c] {m : Prog τ ε Unit} {n : Prog σ ε Unit}
    (h : c → Shadows part m n) : Shadows part (Lib.when c m) (Lib.when c n) :=
  ite h fun _ => pure ()

theorem loop {body : α → β → Prog τ ε (Option α × β)} {body' : α → β → Prog σ ε (Option α × β)}
    (h : ∀ a b, Shadows part (body a b) (body' a b)) (endless : ε) (fuel : Nat) (p : Option α)
    (b : β) : Shadows part (Lib.loop body endless fuel p b) (Lib.loop body' endless fuel p b) := by
  induction fuel generalizing p b with
  | zero =>
    cases p with
    | none => exact pure b
    | some a => exact throw endless
  | succ fuel ih =>
    cases p with
    | none => exact pure b
    | some a => exact bind (h a b) fun r => ih r.1 r.2

theorem runProg {exec : ι → Prog τ ε α} {exec' : ι → Prog σ ε α}
    (h : ∀ i, Shadows part (exec i) (exec' i)) (is : List ι) :
    Shadows part (Lib.runProg exec is) (Lib.runProg exec' is) := by
  induction is with
  | nil => exact pure ()
  | cons i is ih => exact bind (h i) fun _ => ih

/-- What the program does can be recorded. -/
theorem exists_run (h : Shadows part m n) {t : τ} {a : α} {s' : σ}
    (hn : n (part t) = .ok (a, s')) : ∃ t', m t = .ok (a, t') ∧ part t' = s' := by
  have hm := h t
  rw [hn] at hm
  cases ht : m t with
  | ok r =>
    rw [ht] at hm
    cases hm
    exact ⟨r.2, rfl, rfl⟩
  | error e =>
    rw [ht] at hm
    cases hm

theorem wp_iff {F : ε → Prop} {Q : α → σ → Prop} (h : Shadows part m n) {t : τ} :
    wp F m (fun a t' => Q a (part t')) t ↔ wp F n Q (part t) := by
  unfold wp
  rw [← h t]
  cases m t <;> rfl

end Shadows

end CommandStation.Lib
