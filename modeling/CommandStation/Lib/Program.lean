import Mathlib.Order.Basic

/-!
# Programs over a state that can fail

`Prog σ ε α` is a program that reads and writes a state `σ`, returns an `α` or stops with a fault
`ε`. `wp F m Q s` says that `m`, started in `s`, either returns with `Q` or stops with a fault that
`F` allows: with `F := fun _ => False` it is total correctness, with `F := fun _ => True` partial
correctness. The rules for the parts of a program are equivalences and simp lemmas, so that `simp`
runs a program symbolically; `loop` and its rules are the `for (p = start; p; p = …)` loops of
pointer programs.
-/

namespace CommandStation.Lib

variable {σ τ ε α β γ : Type}

/-- A program with state `σ` and faults `ε`. -/
abbrev Prog (σ ε α : Type) : Type := StateT σ (Except ε) α

/-- The program returns with `Q`, or stops with a fault that `F` allows. -/
def wp (F : ε → Prop) (m : Prog σ ε α) (Q : α → σ → Prop) (s : σ) : Prop :=
  match m s with
  | .ok (a, s') => Q a s'
  | .error e => F e

instance (F : ε → Prop) [DecidablePred F] (m : Prog σ ε α) (Q : α → σ → Prop)
    [∀ a s, Decidable (Q a s)] (s : σ) : Decidable (wp F m Q s) := by
  unfold wp
  split <;> infer_instance

section Rules

variable {F : ε → Prop} {s : σ}

@[simp] theorem wp_pure {a : α} {Q : α → σ → Prop} : wp F (pure a : Prog σ ε α) Q = Q a := rfl

@[simp] theorem wp_bind {m : Prog σ ε α} {f : α → Prog σ ε β} {Q : β → σ → Prop} :
    wp F (m >>= f) Q = wp F m fun a => wp F (f a) Q := by
  funext s
  unfold wp
  simp only [bind, StateT.bind, Except.bind]
  cases m s <;> rfl

@[simp] theorem wp_get {Q : σ → σ → Prop} : wp F (get : Prog σ ε σ) Q = fun s => Q s s := rfl

@[simp] theorem wp_set {s' : σ} {Q : PUnit → σ → Prop} :
    wp F (set s' : Prog σ ε PUnit) Q = fun _ => Q ⟨⟩ s' := rfl

@[simp] theorem wp_modify {f : σ → σ} {Q : PUnit → σ → Prop} :
    wp F (modify f : Prog σ ε PUnit) Q = fun s => Q ⟨⟩ (f s) := rfl

@[simp] theorem wp_throw {e : ε} {Q : α → σ → Prop} :
    wp F (throw e : Prog σ ε α) Q = fun _ => F e := rfl

theorem wp_mono {m : Prog σ ε α} {Q Q' : α → σ → Prop} (h : wp F m Q s)
    (hQ : ∀ a s', Q a s' → Q' a s') : wp F m Q' s := by
  unfold wp at *
  split at h
  · exact hQ _ _ h
  · exact h

/-- What follows may depend on the result that the program has. -/
theorem wp_mono_ok {m : Prog σ ε α} {Q Q' : α → σ → Prop} (h : wp F m Q s)
    (hQ : ∀ a s', m s = .ok (a, s') → Q a s' → Q' a s') : wp F m Q' s := by
  unfold wp at *
  split at h
  · next a s' hm => exact hQ a s' hm h
  · exact h

/-- More faults may be allowed. -/
theorem wp_mono_fault {F' : ε → Prop} {m : Prog σ ε α} {Q : α → σ → Prop} (hF : ∀ e, F e → F' e)
    (h : wp F m Q s) : wp F' m Q s := by
  unfold wp at *
  split at h
  · exact h
  · exact hF _ h

/-- Only what the program does in this state matters. -/
theorem wp_of_eq {m m' : Prog σ ε α} {Q : α → σ → Prop} (h : m s = m' s) (hm : wp F m' Q s) :
    wp F m Q s := by
  unfold wp at *
  rw [h]
  exact hm

/-- A program that returns has a result. -/
theorem wp_iff_exists {m : Prog σ ε α} {Q : α → σ → Prop} :
    wp (fun _ => False) m Q s ↔ ∃ a s', m s = .ok (a, s') ∧ Q a s' := by
  unfold wp
  cases m s with
  | ok r => simp [Prod.ext_iff, and_assoc]
  | error e => simp

/-- Partial correctness speaks about the result the program has, if it has one. -/
theorem wp_iff_forall {m : Prog σ ε α} {Q : α → σ → Prop} :
    wp (fun _ => True) m Q s ↔ ∀ a s', m s = .ok (a, s') → Q a s' := by
  unfold wp
  cases m s with
  | ok r => simp [Prod.ext_iff]
  | error e => simp

/-- What is shown of the program holds of the result that it has. -/
theorem wp_of_ok {m : Prog σ ε α} {Q : α → σ → Prop} {a : α} {s' : σ} (hm : m s = .ok (a, s'))
    (h : wp F m Q s) : Q a s' := by
  unfold wp at h
  rw [hm] at h
  exact h

theorem wp_iff_of_ok {m : Prog σ ε α} {Q : α → σ → Prop} {a : α} {s' : σ} (hm : m s = .ok (a, s')) :
    wp F m Q s ↔ Q a s' := by
  unfold wp
  rw [hm]

/-- The program stops with this fault. -/
theorem wp_iff_error {m : Prog σ ε α} {e : ε} :
    wp (· = e) m (fun _ _ => False) s ↔ m s = .error e := by
  unfold wp
  cases m s with
  | ok r => simp
  | error e => simp

end Rules

/-! ## One-armed conditionals -/

/-- `if (c) m;` -/
def when (c : Prop) [Decidable c] (m : Prog σ ε Unit) : Prog σ ε Unit := if c then m else pure ()

theorem wp_when {F : ε → Prop} {c : Prop} [Decidable c] {m : Prog σ ε Unit}
    {Q : Unit → σ → Prop} {s : σ} (hthen : c → wp F m Q s) (helse : ¬ c → Q () s) :
    wp F (when c m) Q s := by
  unfold when
  split
  · next hc => exact hthen hc
  · next hc => exact helse hc

theorem wp_ite {F : ε → Prop} {c : Prop} [Decidable c] {m m' : Prog σ ε α} {Q : α → σ → Prop}
    {s : σ} (hthen : c → wp F m Q s) (helse : ¬ c → wp F m' Q s) :
    wp F (if c then m else m') Q s := by
  split
  · next hc => exact hthen hc
  · next hc => exact helse hc

/-! ## Programs on a part of the state -/

/-- Run a program on the part of the state that `get` and `put` select. -/
def zoom (part : τ → σ) (put : τ → σ → τ) (m : Prog σ ε α) : Prog τ ε α := fun t =>
  match m (part t) with
  | .ok (a, s') => .ok (a, put t s')
  | .error e => .error e

@[simp] theorem wp_zoom {F : ε → Prop} {part : τ → σ} {put : τ → σ → τ} {m : Prog σ ε α}
    {Q : α → τ → Prop} :
    wp F (zoom part put m) Q = fun t => wp F m (fun a s' => Q a (put t s')) (part t) := by
  funext t
  unfold wp zoom
  cases m (part t) <;> rfl

/-! ## Loops along pointers -/

/-- The loop `for (p = start; p; …)`: `body` is given the address and what the loop has gathered
so far, and returns the next pointer, null to leave the loop. A loop that goes on for more than
`fuel` turns is reported as endless. -/
def loop (body : α → β → Prog σ ε (Option α × β)) (endless : ε) :
    Nat → Option α → β → Prog σ ε β
  | _, none, b => pure b
  | 0, some _, _ => throw endless
  | n + 1, some a, b => body a b >>= fun r => loop body endless n r.1 r.2

@[simp] theorem wp_loop_none {F : ε → Prop} {body : α → β → Prog σ ε (Option α × β)}
    {endless : ε} {fuel : Nat} {b : β} {Q : β → σ → Prop} :
    wp F (loop body endless fuel none b) Q = Q b := by
  cases fuel <;> rfl

/-- **The loop rule.** `xs` are the addresses the loop may still visit: each turn takes one off. -/
theorem wp_loop {F : ε → Prop} {body : α → β → Prog σ ε (Option α × β)} {endless : ε}
    {Q : β → σ → Prop} (I : List α → Option α → β → σ → Prop)
    (hstep : ∀ xs a b s, I xs (some a) b s →
      ∃ rest, xs = a :: rest ∧ wp F (body a b) (fun r s' => I rest r.1 r.2 s') s)
    (hdone : ∀ xs b s, I xs none b s → Q b s)
    {fuel : Nat} {xs : List α} {p : Option α} {b : β} {s : σ} (hlen : xs.length ≤ fuel)
    (h : I xs p b s) : wp F (loop body endless fuel p b) Q s := by
  induction fuel generalizing xs p b s with
  | zero =>
    cases p with
    | none => exact hdone xs b s h
    | some a =>
      obtain ⟨rest, rfl, -⟩ := hstep xs a b s h
      simp at hlen
  | succ n ih =>
    cases p with
    | none => exact hdone xs b s h
    | some a =>
      obtain ⟨rest, rfl, hbody⟩ := hstep xs a b s h
      rw [loop, wp_bind]
      refine wp_mono hbody ?_
      intro r s' hr
      exact ih (by simpa using hlen) hr

/-- A loop that may go on for ever: what its turns keep, of the pointer as well, holds when it is
left. -/
theorem wp_loop_of_turn {F : ε → Prop} {body : α → β → Prog σ ε (Option α × β)} {endless : ε}
    (hF : F endless) (I : Option α → β → σ → Prop)
    (hbody : ∀ a b s, I (some a) b s → wp F (body a b) (fun r s' => I r.1 r.2 s') s)
    {fuel : Nat} {p : Option α} {b : β} {s : σ} (h : I p b s) :
    wp F (loop body endless fuel p b) (fun b s' => I none b s') s := by
  induction fuel generalizing p b s with
  | zero =>
    cases p with
    | none => exact h
    | some a => exact hF
  | succ n ih =>
    cases p with
    | none => exact h
    | some a =>
      rw [loop, wp_bind]
      exact wp_mono (hbody a b s h) fun r s' hr => ih hr

/-- A loop whose turns all keep a relation to the start state keeps it, however long it runs. -/
theorem wp_loop_of_turns {F : ε → Prop} {body : α → β → Prog σ ε (Option α × β)} {endless : ε}
    (hF : F endless) {I : σ → Prop} (hbody : ∀ a b s, I s → wp F (body a b) (fun _ => I) s)
    {fuel : Nat} {p : Option α} {b : β} {s : σ} (h : I s) :
    wp F (loop body endless fuel p b) (fun _ => I) s :=
  wp_loop_of_turn hF (fun _ _ => I) hbody h

/-! ## Runs -/

/-- The programs of a list of calls, one after the other. -/
def runProg {ι : Type} (exec : ι → Prog σ ε α) : List ι → Prog σ ε Unit
  | [] => pure ()
  | i :: is => exec i >>= fun _ => runProg exec is

theorem runProg_map {ι κ : Type} {exec : κ → Prog σ ε α} (f : ι → κ) (is : List ι) :
    runProg exec (is.map f) = runProg (fun i => exec (f i)) is := by
  induction is with
  | nil => rfl
  | cons i is ih => rw [List.map_cons, runProg, runProg, ih]

/-- `P` holds of each call and the state it is made in, as far as the run gets. -/
def AlongProg {ι : Type} (exec : ι → Prog σ ε α) (P : σ → ι → Prop) : List ι → σ → Prop
  | [], _ => True
  | i :: is, s => P s i ∧ wp (fun _ => True) (exec i) (fun _ => AlongProg exec P is) s

instance decidableAlongProg {ι : Type} (exec : ι → Prog σ ε α) (P : σ → ι → Prop)
    [∀ s i, Decidable (P s i)] : ∀ is s, Decidable (AlongProg exec P is s)
  | [], _ => isTrue trivial
  | _ :: is, _ =>
    have := fun s => decidableAlongProg exec P is s
    inferInstanceAs (Decidable (_ ∧ wp _ _ _ _))

section Runs

variable {ι : Type} {F : ε → Prop} {exec : ι → Prog σ ε α} {P : σ → ι → Prop}

/-- What holds of the result, and what holds of it if there is one. -/
theorem wp_and {m : Prog σ ε α} {Q Q' : α → σ → Prop} {s : σ} (h : wp F m Q s)
    (h' : wp (fun _ => True) m Q' s) : wp F m (fun a s' => Q a s' ∧ Q' a s') s := by
  unfold wp at *
  cases hm : m s with
  | ok r => simp only [hm] at h h' ⊢; exact ⟨h, h'⟩
  | error e => simp only [hm] at h ⊢; exact h

/-- A condition on the calls that does not depend on the states. -/
theorem alongProg_of_forall {is : List ι} (h : ∀ i ∈ is, ∀ s, P s i) (s : σ) :
    AlongProg exec P is s := by
  induction is generalizing s with
  | nil => trivial
  | cons i is ih =>
    refine ⟨h i List.mem_cons_self s, ?_⟩
    rw [wp_iff_forall]
    exact fun _ s' _ => ih (fun j hj => h j (List.mem_cons_of_mem i hj)) s'

/-- `P` holds along a run that keeps an invariant which implies it. -/
theorem alongProg_of_inv (Inv : σ → Prop) {is : List ι} (hP : ∀ i ∈ is, ∀ s, Inv s → P s i)
    (hstep : ∀ i ∈ is, ∀ s, Inv s → wp (fun _ => True) (exec i) (fun _ => Inv) s) {s : σ}
    (hs : Inv s) : AlongProg exec P is s := by
  induction is generalizing s with
  | nil => trivial
  | cons i is ih =>
    refine ⟨hP i List.mem_cons_self s hs, wp_mono (hstep i List.mem_cons_self s hs) fun _ s' hs' => ?_⟩
    exact ih (fun j hj => hP j (List.mem_cons_of_mem i hj))
      (fun j hj => hstep j (List.mem_cons_of_mem i hj)) hs'

theorem AlongProg.mono {P' : σ → ι → Prop} (hP : ∀ s i, P s i → P' s i) {is : List ι} {s : σ}
    (h : AlongProg exec P is s) : AlongProg exec P' is s := by
  induction is generalizing s with
  | nil => trivial
  | cons i is ih => exact ⟨hP s i h.1, wp_mono h.2 fun _ _ h' => ih h'⟩

/-- What holds along a run holds along its two parts. -/
theorem AlongProg.of_append {is js : List ι} {s s' : σ} (h : AlongProg exec P (is ++ js) s)
    (hrun : runProg exec is s = .ok ((), s')) : AlongProg exec P is s ∧ AlongProg exec P js s' := by
  induction is generalizing s with
  | nil =>
    cases hrun
    exact ⟨trivial, h⟩
  | cons i is ih =>
    simp only [List.cons_append, AlongProg] at h ⊢
    simp only [runProg, bind, StateT.bind, Except.bind] at hrun
    unfold wp at h ⊢
    cases hi : exec i s with
    | error e => simp [hi] at hrun
    | ok r =>
      simp only [hi] at h hrun ⊢
      obtain ⟨his, hjs⟩ := ih h.2 hrun
      exact ⟨⟨h.1, his⟩, hjs⟩

/-- Two conditions on the calls that agree where an invariant holds. -/
theorem alongProg_congr {P' : σ → ι → Prop} (Inv : σ → Prop)
    (hP : ∀ s i, Inv s → (P s i ↔ P' s i))
    (hstep : ∀ s i, Inv s → P s i → wp (fun _ => True) (exec i) (fun _ => Inv) s) {is : List ι}
    {s : σ} (hs : Inv s) : AlongProg exec P is s ↔ AlongProg exec P' is s := by
  induction is generalizing s with
  | nil => exact Iff.rfl
  | cons i is ih =>
    simp only [AlongProg]
    constructor
    · rintro ⟨hp, hrest⟩
      refine ⟨(hP s i hs).mp hp, wp_mono (wp_and hrest (hstep s i hs hp)) ?_⟩
      exact fun _ s' h => (ih h.2).mp h.1
    · rintro ⟨hp', hrest⟩
      have hp := (hP s i hs).mpr hp'
      refine ⟨hp, wp_mono (wp_and hrest (hstep s i hs hp)) ?_⟩
      exact fun _ s' h => (ih h.2).mpr h.1

/-- **The invariant rule.** -/
theorem wp_runProg (Inv : σ → Prop)
    (hstep : ∀ s i, P s i → Inv s → wp F (exec i) (fun _ => Inv) s) {is : List ι} {s : σ}
    (hs : Inv s) (h : AlongProg exec P is s) : wp F (runProg exec is) (fun _ => Inv) s := by
  induction is generalizing s with
  | nil => exact hs
  | cons i is ih =>
    rw [runProg, wp_bind]
    refine wp_mono (wp_and (hstep s i h.1 hs) h.2) ?_
    intro _ s' hs'
    exact ih hs'.1 hs'.2

/-- A run goes well exactly if all of its calls do. -/
theorem wp_runProg_iff (Inv : σ → Prop)
    (hgood : ∀ s i, Inv s → P s i → wp F (exec i) (fun _ => Inv) s)
    (hneeded : ∀ s i, Inv s → wp F (exec i) (fun _ _ => True) s → P s i) {is : List ι} {s : σ}
    (hs : Inv s) : wp F (runProg exec is) (fun _ => Inv) s ↔ AlongProg exec P is s := by
  refine ⟨fun h => ?_, wp_runProg Inv (fun s i hP hs => hgood s i hs hP) hs⟩
  induction is generalizing s with
  | nil => trivial
  | cons i is ih =>
    rw [runProg, wp_bind] at h
    have hP := hneeded s i hs (wp_mono h fun _ _ _ => trivial)
    have hboth := wp_and (hgood s i hs hP) (wp_mono_fault (fun _ _ => trivial) h)
    exact ⟨hP, wp_mono_fault (fun _ _ => trivial) (wp_mono hboth fun _ s' hs' => ih hs'.1 hs'.2)⟩

end Runs

end CommandStation.Lib
