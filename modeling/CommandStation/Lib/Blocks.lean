import Mathlib.Order.Basic

/-!
# Blocks in linear code

A structured program of statements and conditions with an optional else part, and the way it lies in
a row of cells: a condition is followed by the block for the case that it holds, an optional `ELSE`
with the other block, and an `ENDIF`; a statement or condition may take more than one cell, and what
is behind its first cell is padding. `Rest` says what is left to do from a cell on, also from one in
the middle of a block.
-/

namespace CommandStation.Lib

/-- Structured programs with statements `σ` and conditions `γ`. -/
inductive Block (σ γ : Type) where
  | done
  | stmt (s : σ) (rest : Block σ γ)
  | ifThen (c : γ) (thens rest : Block σ γ)
  | ifElse (c : γ) (thens elses rest : Block σ γ)

/-- What is seen of a run: a statement, or a condition with its outcome. -/
inductive Event (σ γ : Type) where
  | visit (s : σ)
  | branch (c : γ) (held : Bool)

variable {σ γ : Type}

namespace Block

/-- First the one, then the other. -/
def append : Block σ γ → Block σ γ → Block σ γ
  | done, b => b
  | stmt s rest, b => stmt s (rest.append b)
  | ifThen c thens rest, b => ifThen c thens (rest.append b)
  | ifElse c thens elses rest, b => ifElse c thens elses (rest.append b)

/-- How deep conditions are nested. -/
def depth : Block σ γ → Nat
  | done => 0
  | stmt _ rest => rest.depth
  | ifThen _ thens rest => max (thens.depth + 1) rest.depth
  | ifElse _ thens elses rest => max (max thens.depth elses.depth + 1) rest.depth

/-- The meaning of structured programs. -/
inductive Step : Block σ γ → Event σ γ → Block σ γ → Prop where
  | stmt (s rest) : Step (stmt s rest) (.visit s) rest
  | ifThen_held (c thens rest) : Step (ifThen c thens rest) (.branch c true) (thens.append rest)
  | ifThen_failed (c thens rest) : Step (ifThen c thens rest) (.branch c false) rest
  | ifElse_held (c thens elses rest) :
      Step (ifElse c thens elses rest) (.branch c true) (thens.append rest)
  | ifElse_failed (c thens elses rest) :
      Step (ifElse c thens elses rest) (.branch c false) (elses.append rest)

@[simp] theorem append_done (b : Block σ γ) : b.append done = b := by
  induction b with
  | done => rfl
  | stmt s rest ih => rw [append, ih]
  | ifThen c thens rest _ ih => rw [append, ih]
  | ifElse c thens elses rest _ _ ih => rw [append, ih]

end Block

/-- How statements, conditions and the marks between blocks look in the cells. A statement lies in
the cells from the first position up to the second one. -/
structure Layout (σ γ : Type) where
  stmt : σ → Nat → Nat → Prop
  cond : γ → Nat → Nat → Prop
  pad : Nat → Prop
  else_ : Nat → Prop
  endif : Nat → Prop
  stmt_pads : ∀ {s k k'}, stmt s k k' → k < k' ∧ ∀ j, k < j → j < k' → pad j
  cond_pads : ∀ {c k k'}, cond c k k' → k < k' ∧ ∀ j, k < j → j < k' → pad j

/-- The block lies in the cells from `k` on, and `K` holds of the cell behind it. -/
def Placed (L : Layout σ γ) : Block σ γ → (Nat → Prop) → Nat → Prop
  | .done, K, k => K k
  | .stmt s rest, K, k => ∃ k', L.stmt s k k' ∧ Placed L rest K k'
  | .ifThen c thens rest, K, k => ∃ k', L.cond c k k' ∧
      Placed L thens (fun q => L.endif q ∧ Placed L rest K (q + 1)) k'
  | .ifElse c thens elses rest, K, k => ∃ k', L.cond c k k' ∧
      Placed L thens (fun q => L.else_ q ∧
        Placed L elses (fun q' => L.endif q' ∧ Placed L rest K (q' + 1)) (q + 1)) k'

/-- What is left to do from a cell on. No block that may have to be skipped is nested deeper than
`bound`. -/
inductive Rest (L : Layout σ γ) (finish : Nat → Prop) (bound : Nat) : Block σ γ → Nat → Prop where
  | done {k} : finish k → Rest L finish bound .done k
  | pad {todo k} : L.pad k → Rest L finish bound todo (k + 1) → Rest L finish bound todo k
  | endif {todo k} : L.endif k → Rest L finish bound todo (k + 1) → Rest L finish bound todo k
  | else_ {todo elses K k} : L.else_ k → Placed L elses K (k + 1) → elses.depth < bound →
      (∀ q, K q → L.endif q) → (∀ q, K q → Rest L finish bound todo (q + 1)) →
      Rest L finish bound todo k
  | stmt {s rest k k'} : L.stmt s k k' → Rest L finish bound rest k' →
      Rest L finish bound (.stmt s rest) k
  | ifThen {c thens rest K k k'} : L.cond c k k' → Placed L thens K k' → thens.depth < bound →
      (∀ q, K q → L.endif q) → (∀ q, K q → Rest L finish bound rest (q + 1)) →
      Rest L finish bound (thens.append rest) k' → Rest L finish bound (.ifThen c thens rest) k
  | ifElse {c thens elses rest K k k'} : L.cond c k k' → Placed L thens K k' →
      thens.depth < bound → (∀ q, K q → L.else_ q) →
      (∀ q, K q → Rest L finish bound (elses.append rest) (q + 1)) →
      Rest L finish bound (thens.append rest) k' → Rest L finish bound (.ifElse c thens elses rest) k

variable {L : Layout σ γ} {finish : Nat → Prop} {bound k k' : Nat} {b todo : Block σ γ}
  {K K' : Nat → Prop}

/-- **A block that is placed is read as it stands**, and then what is behind it. -/
theorem Placed.rest (h : Placed L b K k) (hdepth : b.depth ≤ bound)
    (hK : ∀ q, K q → Rest L finish bound todo q) : Rest L finish bound (b.append todo) k := by
  induction b generalizing K k todo with
  | done => exact hK k h
  | stmt s rest ih =>
    obtain ⟨k', hs, hrest⟩ := h
    exact .stmt hs (ih hrest hdepth hK)
  | ifThen c thens rest ihthens ih =>
    obtain ⟨k', hc, hthens⟩ := h
    have hdepths := Nat.max_le.mp hdepth
    have hrest : ∀ q, Placed L rest K (q + 1) → Rest L finish bound (rest.append todo) (q + 1) :=
      fun q hq => ih hq hdepths.2 hK
    refine .ifThen hc hthens hdepths.1 (fun q hq => hq.1) (fun q hq => hrest q hq.2) ?_
    exact ihthens hthens (Nat.le_of_lt hdepths.1) fun q hq => .endif hq.1 (hrest q hq.2)
  | ifElse c thens elses rest ihthens ihelses ih =>
    obtain ⟨k', hc, hthens⟩ := h
    have hdepths := Nat.max_le.mp hdepth
    have hthensle : thens.depth < bound :=
      Nat.lt_of_le_of_lt (Nat.le_max_left _ _) hdepths.1
    have helsesle : elses.depth < bound :=
      Nat.lt_of_le_of_lt (Nat.le_max_right _ _) hdepths.1
    have hrest : ∀ q, Placed L rest K (q + 1) → Rest L finish bound (rest.append todo) (q + 1) :=
      fun q hq => ih hq hdepths.2 hK
    refine .ifElse hc hthens hthensle (fun q hq => hq.1) (fun q hq => ?_) ?_
    · exact ihelses hq.2 (Nat.le_of_lt helsesle) fun q' hq' => .endif hq'.1 (hrest q' hq'.2)
    · refine ihthens hthens (Nat.le_of_lt hthensle) fun q hq => ?_
      exact .else_ hq.1 hq.2 helsesle (fun q' hq' => hq'.1) fun q' hq' => hrest q' hq'.2

/-- Padding is passed over. -/
theorem Rest.of_pads (hpads : ∀ j, k ≤ j → j < k' → L.pad j) (hk : k ≤ k')
    (h : Rest L finish bound todo k') : Rest L finish bound todo k := by
  obtain ⟨n, rfl⟩ := Nat.exists_eq_add_of_le hk
  induction n generalizing k with
  | zero => exact h
  | succ n ih =>
    refine .pad (hpads k (Nat.le_refl _) (by omega)) (ih (k := k + 1) ?_ (by omega) ?_)
    · exact fun j hj hlt => hpads j (by omega) (by omega)
    · rwa [Nat.add_right_comm, Nat.add_assoc]

/-- The first cell and the padding behind it. -/
theorem rest_of_head {todo' : Block σ γ} (hpads : ∀ j, k < j → j < k' → L.pad j)
    (hhead : Rest L finish bound todo k) (hbehind : Rest L finish bound todo' k') {j : Nat}
    (hj : k ≤ j) (hlt : j < k') : ∃ todo, Rest L finish bound todo j := by
  rcases Nat.lt_or_eq_of_le hj with hj | rfl
  · exact ⟨todo', hbehind.of_pads (fun i hi => hpads i (by omega)) (Nat.le_of_lt hlt)⟩
  · exact ⟨todo, hhead⟩

/-- There is something to read at every cell of a block, if there is at every cell behind it. -/
theorem Placed.rest_everywhere {last : Nat} (h : Placed L b K k) (hdepth : b.depth ≤ bound)
    (hK : ∀ q, K q → Rest L finish bound todo q)
    (hbehind : ∀ q, K q → ∀ j, q ≤ j → j ≤ last → ∃ todo, Rest L finish bound todo j) :
    ∀ j, k ≤ j → j ≤ last → ∃ todo, Rest L finish bound todo j := by
  intro j hj hlast
  have hhere := h.rest hdepth hK
  -- by the block; a cell is in its first statement or behind that
  induction b generalizing K k todo j with
  | done => exact hbehind k h j hj hlast
  | stmt s rest ih =>
    obtain ⟨k', hs, hrest⟩ := h
    rcases Nat.lt_or_ge j k' with hlt | hge
    · exact rest_of_head (L.stmt_pads hs).2 hhere (hrest.rest hdepth hK) hj hlt
    · exact ih hrest hdepth hK hbehind j hge hlast (hrest.rest hdepth hK)
  | ifThen c thens rest ihthens ih =>
    obtain ⟨k', hc, hthens⟩ := h
    have hdepths := Nat.max_le.mp hdepth
    have hthensle := Nat.le_of_lt hdepths.1
    have hrest : ∀ q, Placed L rest K (q + 1) → Rest L finish bound (rest.append todo) (q + 1) :=
      fun q hq => Placed.rest hq hdepths.2 hK
    have hend := fun q (hq : L.endif q ∧ Placed L rest K (q + 1)) =>
      Rest.endif hq.1 (hrest q hq.2)
    rcases Nat.lt_or_ge j k' with hlt | hge
    · exact rest_of_head (L.cond_pads hc).2 hhere (hthens.rest hthensle hend) hj hlt
    · refine ihthens hthens hthensle hend (fun q hq i hi hlast => ?_) j hge hlast
        (hthens.rest hthensle hend)
      rcases Nat.lt_or_eq_of_le hi with hi | rfl
      · exact ih hq.2 hdepths.2 hK hbehind i hi hlast (hrest q hq.2)
      · exact ⟨_, hend q hq⟩
  | ifElse c thens elses rest ihthens ihelses ih =>
    obtain ⟨k', hc, hthens⟩ := h
    have hdepths := Nat.max_le.mp hdepth
    have hthenslt := Nat.lt_of_le_of_lt (Nat.le_max_left _ _) hdepths.1
    have helseslt := Nat.lt_of_le_of_lt (Nat.le_max_right _ _) hdepths.1
    have hthensle := Nat.le_of_lt hthenslt
    have helsesle := Nat.le_of_lt helseslt
    have hrest : ∀ q, Placed L rest K (q + 1) → Rest L finish bound (rest.append todo) (q + 1) :=
      fun q hq => Placed.rest hq hdepths.2 hK
    have hend := fun q (hq : L.endif q ∧ Placed L rest K (q + 1)) =>
      Rest.endif hq.1 (hrest q hq.2)
    have helse := fun q (hq : L.else_ q ∧ Placed L elses (fun q' => L.endif q' ∧
        Placed L rest K (q' + 1)) (q + 1)) =>
      Rest.else_ hq.1 hq.2 helseslt (fun q' hq' => hq'.1) fun q' hq' => hrest q' hq'.2
    rcases Nat.lt_or_ge j k' with hlt | hge
    · exact rest_of_head (L.cond_pads hc).2 hhere (hthens.rest hthensle helse) hj hlt
    · refine ihthens hthens hthensle helse (fun q hq i hi hlast => ?_) j hge hlast
        (hthens.rest hthensle helse)
      rcases Nat.lt_or_eq_of_le hi with hi | rfl
      · refine ihelses hq.2 helsesle hend (fun q' hq' i hi hlast => ?_) i hi hlast
          (Placed.rest hq.2 helsesle hend)
        rcases Nat.lt_or_eq_of_le hi with hi | rfl
        · exact ih hq'.2 hdepths.2 hK hbehind i hi hlast (hrest q' hq'.2)
        · exact ⟨_, hend q' hq'⟩
      · exact ⟨_, helse q hq⟩

end CommandStation.Lib
