import Mathlib.Data.List.Basic

/-!
# Call stacks

What a call stack of bounded depth is for: a run of calls and returns pushes a position with each
call and takes the last one off with each return. `Matched` are the runs in which every call has
returned. A return resumes at the position of the call that it matches, which is the last one before
it with a matched run in between.
-/

namespace CommandStation.Lib

/-- A call, with the position where it is to be resumed, or a return. -/
inductive Transfer (α : Type) where
  | call (resume : α)
  | ret
  deriving DecidableEq, Repr

variable {α : Type} {bound : Nat} {a : α} {stack stack' : List α} {ts us : List (Transfer α)}

namespace Transfer

/-- One call or return; there is no result for a call at full depth and a return at depth zero. -/
def step (bound : Nat) : Transfer α → List α → Option (List α)
  | .call a, stack => if stack.length < bound then some (a :: stack) else none
  | .ret, [] => none
  | .ret, _ :: stack => some stack

/-- The stack after a run. -/
def run (bound : Nat) : List (Transfer α) → List α → Option (List α)
  | [], stack => some stack
  | t :: ts, stack => (t.step bound stack).bind (run bound ts)

@[simp] theorem step_call :
    (Transfer.call a).step bound stack = some stack' ↔ stack.length < bound ∧ a :: stack = stack' := by
  show (if stack.length < bound then some (a :: stack) else none) = some stack' ↔ _
  split
  · next hlt => simp [hlt]
  · next hge => simp [hge]

@[simp] theorem step_ret :
    (Transfer.ret : Transfer α).step bound stack = some stack' ↔ ∃ a, stack = a :: stack' := by
  cases stack with
  | nil => simp [step]
  | cons b stack => simp [step]

@[simp] theorem run_nil : run bound ([] : List (Transfer α)) stack = some stack := rfl

theorem run_append :
    run bound (ts ++ us) stack = (run bound ts stack).bind (run bound us) := by
  induction ts generalizing stack with
  | nil => rfl
  | cons t ts ih =>
    rw [List.cons_append, run, run]
    cases t.step bound stack with
    | none => rfl
    | some stack' => exact ih

theorem length_step {t : Transfer α} (h : t.step bound stack = some stack')
    (hle : stack.length ≤ bound) : stack'.length ≤ bound := by
  cases t with
  | call a =>
    obtain ⟨hlt, rfl⟩ := step_call.mp h
    exact hlt
  | ret =>
    obtain ⟨a, rfl⟩ := step_ret.mp h
    exact Nat.le_of_succ_le hle

/-- The stack never grows beyond its bound. -/
theorem length_run (h : run bound ts stack = some stack') (hle : stack.length ≤ bound) :
    stack'.length ≤ bound := by
  induction ts generalizing stack with
  | nil =>
    cases h
    exact hle
  | cons t ts ih =>
    obtain ⟨stack₁, hstep, hrun⟩ := Option.bind_eq_some_iff.mp h
    exact ih hrun (length_step hstep hle)

/-- Runs in which every call has returned, and every return is that of a call. -/
inductive Matched : List (Transfer α) → Prop where
  | nil : Matched []
  | call (a : α) {ts us : List (Transfer α)} (h : Matched ts) (h' : Matched us) :
      Matched (.call a :: (ts ++ .ret :: us))

theorem Matched.append (h : Matched ts) (h' : Matched us) : Matched (ts ++ us) := by
  induction h with
  | nil => exact h'
  | call a h₁ _ _ ih =>
    rw [List.cons_append, List.append_assoc, List.cons_append]
    exact .call a h₁ ih

/-- A matched run leaves the stack as it was. -/
theorem Matched.run_eq (h : Matched ts) (hrun : run bound ts stack = some stack') :
    stack' = stack := by
  induction h generalizing stack stack' with
  | nil => exact (Option.some.inj hrun).symm
  | call a h h' ih ih' =>
    obtain ⟨stack₁, hcall, hrest⟩ := Option.bind_eq_some_iff.mp hrun
    rw [run_append] at hrest
    obtain ⟨stack₂, hts, hback⟩ := Option.bind_eq_some_iff.mp hrest
    obtain rfl := ih hts
    obtain ⟨-, rfl⟩ := step_call.mp hcall
    obtain ⟨stack₃, hret, hus⟩ := Option.bind_eq_some_iff.mp hback
    obtain ⟨b, hb⟩ := step_ret.mp hret
    rw [ih' hus]
    exact (List.cons.inj hb).2.symm

/-- **A return resumes behind the call it matches**, and the stack is again what it was before. -/
theorem top_of_matched {before : List (Transfer α)} (h : Matched ts)
    (hrun : run bound (before ++ .call a :: ts) stack = some stack') :
    ∃ rest, stack' = a :: rest ∧ run bound before stack = some rest := by
  rw [run_append] at hrun
  obtain ⟨rest, hbefore, hrest⟩ := Option.bind_eq_some_iff.mp hrun
  obtain ⟨stack₁, hcall, hts⟩ := Option.bind_eq_some_iff.mp hrest
  obtain rfl := h.run_eq hts
  exact ⟨rest, (step_call.mp hcall).2.symm, hbefore⟩

/-- **What is on top of the stack is the position of a call** that has not returned yet, with a
matched run behind it. -/
theorem matched_of_top (hrun : run bound ts [] = some (a :: stack)) :
    ∃ before us, ts = before ++ .call a :: us ∧ Matched us ∧ run bound before [] = some stack := by
  induction hn : ts.length using Nat.strongRecOn generalizing ts a stack with
  | _ n ih =>
  rcases List.eq_nil_or_concat' ts with rfl | ⟨ts, t, rfl⟩
  · cases hrun
  have hlen : ts.length < n := by
    rw [← hn, List.length_append]
    exact Nat.lt_succ_self _
  rw [run_append] at hrun
  obtain ⟨stack₁, hts, hlast⟩ := Option.bind_eq_some_iff.mp hrun
  obtain ⟨stack₂, hstep, heq⟩ := Option.bind_eq_some_iff.mp hlast
  cases heq
  cases t with
  | call b =>
    obtain ⟨-, hcons⟩ := step_call.mp hstep
    obtain ⟨rfl, rfl⟩ := List.cons.inj hcons
    exact ⟨ts, [], rfl, .nil, hts⟩
  | ret =>
    obtain ⟨b, rfl⟩ := step_ret.mp hstep
    -- the return matches a call, and before that one is the call on top
    obtain ⟨before, us, rfl, hus, hbefore⟩ := ih _ hlen hts rfl
    have hlen' : before.length < n := by
      rw [List.length_append] at hlen
      omega
    obtain ⟨before', us', rfl, hus', hbefore'⟩ := ih _ hlen' hbefore rfl
    refine ⟨before', us' ++ .call b :: (us ++ [.ret]), by simp, ?_, hbefore'⟩
    exact hus'.append (.call b hus .nil)

end Transfer

end CommandStation.Lib
