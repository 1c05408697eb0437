import CommandStation.Lib.Run
import Mathlib.Data.List.Nodup
import Mathlib.Data.List.TakeWhile

/-!
# Round robin

The members of a group wait in a queue. A turn goes to the first member that is ready; the members that
stand before it are passed over, and they and the served one go to the end. New members may join
anywhere, at any time.

A member that stays ready gets its turn: each turn of another one brings it nearer to the front, and a
joining one pushes it back by one place. Until then nobody else is served twice.
-/

namespace CommandStation.Lib.RoundRobin

variable {α : Type}

/-- One turn: who is served, and the queue after it. -/
def turn (ready : α → Bool) (queue : List α) : Option α × List α :=
  match queue.dropWhile (!ready ·) with
  | [] => (none, queue)
  | d :: rest => (some d, rest ++ (queue.takeWhile (!ready ·) ++ [d]))

/-- What can happen to the queue. -/
inductive Event (α : Type) where
  | turn (ready : α → Bool)
  | join (place : Nat) (d : α)
  | pause

def step (queue : List α) : Event α → List α
  | .turn ready => (turn ready queue).2
  | .join place d => queue.take place ++ d :: queue.drop place
  | .pause => queue

/-- Who is served by an event. -/
def Event.serves (queue : List α) : Event α → Option α
  | .turn ready => (RoundRobin.turn ready queue).1
  | _ => none

/-- Those that a run serves, in order. -/
def served : List α → List (Event α) → List α
  | _, [] => []
  | queue, e :: es => (e.serves queue).toList ++ served (step queue e) es

def Event.isTurn : Event α → Bool
  | .turn _ => true
  | _ => false

def Event.isJoin : Event α → Bool
  | .join _ _ => true
  | _ => false

/-- How many turns a run has. -/
def turns (es : List (Event α)) : Nat := es.countP Event.isTurn

/-- How many join in a run. -/
def joins (es : List (Event α)) : Nat := es.countP Event.isJoin

/-- A member that joins was not in the queue. -/
def Event.Proper (queue : List α) : Event α → Prop
  | .join _ d => d ∉ queue
  | _ => True

/-- `b` is ready in this turn, and another one is served. -/
def Event.Passes (b : α) (queue : List α) : Event α → Prop
  | .turn ready => ready b = true ∧ (RoundRobin.turn ready queue).1 ≠ some b
  | _ => True

/-! ## One turn -/

section Turn

variable {ready : α → Bool}

theorem turn_none {queue : List α} (h : ∀ x ∈ queue, ready x = false) :
    turn ready queue = (none, queue) := by
  have hdrop : queue.dropWhile (!ready ·) = [] := by
    rw [List.dropWhile_eq_nil_iff]
    intro x hx
    simp [h x hx]
  simp only [turn, hdrop]

theorem turn_some {skipped rest : List α} {d : α} (h : ∀ x ∈ skipped, ready x = false)
    (hd : ready d = true) :
    turn ready (skipped ++ d :: rest) = (some d, rest ++ (skipped ++ [d])) := by
  have hs : ∀ x ∈ skipped, (!ready x) = true := fun x hx => by simp [h x hx]
  have hdrop : (skipped ++ d :: rest).dropWhile (!ready ·) = d :: rest := by
    rw [List.dropWhile_append_of_pos hs, List.dropWhile_cons_of_neg (by simp [hd])]
  have htake : (skipped ++ d :: rest).takeWhile (!ready ·) = skipped := by
    rw [List.takeWhile_append_of_pos hs, List.takeWhile_cons_of_neg (by simp [hd]), List.append_nil]
  simp only [turn, hdrop, htake]

/-- Nobody is ready, or the first one that is ready is served. -/
theorem turn_cases (ready : α → Bool) (queue : List α) :
    ((∀ x ∈ queue, ready x = false) ∧ turn ready queue = (none, queue)) ∨
      ∃ skipped d rest, queue = skipped ++ d :: rest ∧ (∀ x ∈ skipped, ready x = false) ∧
        ready d = true ∧ turn ready queue = (some d, rest ++ (skipped ++ [d])) := by
  induction queue with
  | nil => exact .inl ⟨by simp, rfl⟩
  | cons x queue ih =>
    cases hx : ready x with
    | true =>
      have hturn : turn ready ([] ++ x :: queue) = _ := turn_some (by simp) hx
      exact .inr ⟨[], x, queue, rfl, by simp, hx, hturn⟩
    | false =>
      obtain ⟨hall, -⟩ | ⟨skipped, d, rest, rfl, hs, hd, -⟩ := ih
      · have hall' : ∀ y ∈ x :: queue, ready y = false := by simpa [hx] using hall
        exact .inl ⟨hall', turn_none hall'⟩
      · have hs' : ∀ y ∈ x :: skipped, ready y = false := by simpa [hx] using hs
        exact .inr ⟨x :: skipped, d, rest, rfl, hs', hd, turn_some hs' hd⟩

/-- The first member that is ready is served. -/
theorem turn_fst (ready : α → Bool) (queue : List α) : (turn ready queue).1 = queue.find? ready := by
  obtain ⟨hall, h⟩ | ⟨skipped, d, rest, rfl, hs, hd, h⟩ := turn_cases ready queue
  · rw [h, List.find?_eq_none.2 (by simpa using hall)]
  · rw [h, List.find?_append, List.find?_eq_none.2 (by simpa using hs), List.find?_cons_of_pos hd,
      Option.none_or]

/-- A turn serves somebody when anyone is ready. -/
theorem turn_serves {queue : List α} {b : α} (hb : b ∈ queue) (hr : ready b = true) :
    ∃ d, (turn ready queue).1 = some d := by
  obtain ⟨hall, -⟩ | ⟨_, d, _, _, _, _, h⟩ := turn_cases ready queue
  · simp [hall b hb] at hr
  · exact ⟨d, by rw [h]⟩

/-- The members stay the same. -/
theorem turn_perm (ready : α → Bool) (queue : List α) : (turn ready queue).2.Perm queue := by
  obtain ⟨-, h⟩ | ⟨skipped, d, rest, rfl, -, -, h⟩ := turn_cases ready queue
  · rw [h]
  · rw [h]
    calc rest ++ (skipped ++ [d])
        _ |>.Perm (skipped ++ [d] ++ rest) := List.perm_append_comm
        _ = skipped ++ d :: rest := by simp

/-- A ready member that is passed over was behind the one that is served. -/
theorem turn_passes {queue : List α} {b : α} (hb : b ∈ queue) (hr : ready b = true)
    (hne : (turn ready queue).1 ≠ some b) :
    ∃ skipped d rest, queue = skipped ++ d :: rest ∧ b ∉ skipped ++ [d] ∧
      turn ready queue = (some d, rest ++ (skipped ++ [d])) := by
  obtain ⟨hall, -⟩ | ⟨skipped, d, rest, hq, hs, -, h⟩ := turn_cases ready queue
  · simp [hall b hb] at hr
  · refine ⟨skipped, d, rest, hq, ?_, h⟩
    rw [List.mem_append, List.mem_singleton]
    rintro (hmem | rfl)
    · simp [hs b hmem] at hr
    · rw [h] at hne
      exact hne rfl

end Turn

/-! ## Runs -/

theorem sublist_join (queue : List α) (place : Nat) (d : α) :
    queue.Sublist (queue.take place ++ d :: queue.drop place) := by
  have h := (List.Sublist.refl (queue.take place)).append (List.sublist_cons_self d (queue.drop place))
  rwa [List.take_append_drop] at h

theorem join_perm (queue : List α) (place : Nat) (d : α) :
    (queue.take place ++ d :: queue.drop place).Perm (d :: queue) := by
  have h : (queue.take place ++ d :: queue.drop place).Perm (d :: (queue.take place ++ queue.drop place)) :=
    List.perm_middle
  rwa [List.take_append_drop] at h

theorem step_mem {queue : List α} {b : α} (hb : b ∈ queue) (e : Event α) : b ∈ step queue e := by
  cases e with
  | turn ready => exact (turn_perm ready queue).symm.subset hb
  | join place d => exact (sublist_join queue place d).subset hb
  | pause => exact hb

theorem step_nodup {queue : List α} (hq : queue.Nodup) {e : Event α} (he : e.Proper queue) :
    (step queue e).Nodup := by
  cases e with
  | turn ready => exact (turn_perm ready queue).nodup_iff.2 hq
  | join place d => exact (join_perm queue place d).nodup_iff.2 (List.nodup_cons.2 ⟨he, hq⟩)
  | pause => exact hq

section Distance

variable [DecidableEq α] {b : α}

/-- A turn of another member brings `b` nearer to the front. -/
theorem idxOf_turn {ready : α → Bool} {queue : List α} (hb : b ∈ queue) (hr : ready b = true)
    (hne : (turn ready queue).1 ≠ some b) :
    (turn ready queue).2.idxOf b + 1 ≤ queue.idxOf b := by
  obtain ⟨skipped, d, rest, rfl, hnot, h⟩ := turn_passes hb hr hne
  have hsplit : skipped ++ d :: rest = (skipped ++ [d]) ++ rest := by simp
  have hmem : b ∈ rest := by
    rw [hsplit, List.mem_append] at hb
    exact hb.resolve_left hnot
  rw [h, hsplit, List.idxOf_append_of_mem hmem, List.idxOf_append_of_notMem hnot, List.length_append,
    List.length_singleton]
  omega

/-- One that joins pushes `b` back by at most one place. -/
theorem idxOf_join {queue : List α} (hb : b ∈ queue) (place : Nat) (d : α) :
    (queue.take place ++ d :: queue.drop place).idxOf b ≤ queue.idxOf b + 1 := by
  obtain ⟨front, back, rfl, hplace⟩ : ∃ front back, queue = front ++ back ∧
      queue.take place ++ d :: queue.drop place = front ++ d :: back :=
    ⟨queue.take place, queue.drop place, (List.take_append_drop ..).symm, rfl⟩
  rw [hplace]
  by_cases hfront : b ∈ front
  · rw [List.idxOf_append_of_mem hfront, List.idxOf_append_of_mem hfront]
    omega
  · rw [List.idxOf_append_of_notMem hfront, List.idxOf_append_of_notMem hfront, List.idxOf_cons]
    cases d == b with
    | true => exact Nat.le_succ_of_le (Nat.le_add_right ..)
    | false => exact Nat.le_refl _

/-- **Nobody waits long.** While `b` is ready and waits, a run has no more turns than members stood
before `b` and have joined since. -/
theorem turns_le {queue : List α} (hb : b ∈ queue) {es : List (Event α)}
    (h : Along step (Event.Passes b) queue es) : turns es ≤ queue.idxOf b + joins es := by
  induction es generalizing queue with
  | nil => simp [turns]
  | cons e es ih =>
    have := ih (step_mem hb e) h.2
    cases e with
    | turn ready =>
      have hstep : (turn ready queue).2.idxOf b + 1 ≤ queue.idxOf b := idxOf_turn hb h.1.1 h.1.2
      simp only [turns, joins, List.countP_cons, step, Event.isTurn, Event.isJoin] at this ⊢
      simp only [if_true, Bool.false_eq_true, if_false]
      omega
    | join place d =>
      have hstep := idxOf_join hb place d
      simp only [turns, joins, List.countP_cons, step, Event.isTurn, Event.isJoin] at this ⊢
      simp only [if_true, Bool.false_eq_true, if_false]
      omega
    | pause =>
      simp only [turns, joins, List.countP_cons, step, Event.isTurn, Event.isJoin] at this ⊢
      simp only [Bool.false_eq_true, if_false]
      omega

end Distance

/-! ## Nobody is served twice -/

section Behind

variable {b d : α}

theorem sublist_of_append {skipped rest : List α} (hnot : b ∉ skipped)
    (h : [b, d].Sublist (skipped ++ rest)) : [b, d].Sublist rest := by
  obtain ⟨l₁, l₂, hl, h₁, h₂⟩ := List.sublist_append_iff.1 h
  cases l₁ with
  | nil => simpa [hl] using h₂
  | cons x l₁ =>
    obtain ⟨rfl, -⟩ := List.cons.inj hl
    exact absurd (h₁.subset List.mem_cons_self) hnot

/-- Behind `b` is still behind `b` after a turn of another member. -/
theorem behind_turn {ready : α → Bool} {queue : List α} (hr : ready b = true)
    (hne : (turn ready queue).1 ≠ some b) (h : [b, d].Sublist queue) :
    [b, d].Sublist (turn ready queue).2 := by
  obtain ⟨skipped, e, rest, rfl, hnot, heq⟩ := turn_passes (h.subset List.mem_cons_self) hr hne
  rw [heq]
  have hsplit : skipped ++ e :: rest = (skipped ++ [e]) ++ rest := by simp
  rw [hsplit] at h
  exact (sublist_of_append hnot h).trans (List.sublist_append_left _ _)

/-- One that stands behind `b` is not served before `b`. -/
theorem not_served_behind {ready : α → Bool} {queue : List α} (hq : queue.Nodup) (hr : ready b = true)
    (hne : (turn ready queue).1 ≠ some b) (h : [b, d].Sublist queue) :
    (turn ready queue).1 ≠ some d := by
  obtain ⟨skipped, e, rest, rfl, hnot, heq⟩ := turn_passes (h.subset List.mem_cons_self) hr hne
  rw [heq]
  rintro ⟨⟩
  have hsplit : skipped ++ d :: rest = (skipped ++ [d]) ++ rest := by simp
  rw [hsplit] at h hq
  have hrest : d ∈ rest := (sublist_of_append hnot h).subset (by simp)
  exact (List.disjoint_of_nodup_append hq) (by simp) hrest

/-- The one that is served goes behind `b`. -/
theorem behind_served {ready : α → Bool} {queue : List α} (hb : b ∈ queue) (hr : ready b = true)
    (hne : (turn ready queue).1 ≠ some b) (hd : (turn ready queue).1 = some d) :
    [b, d].Sublist (turn ready queue).2 := by
  obtain ⟨skipped, e, rest, rfl, hnot, heq⟩ := turn_passes hb hr hne
  rw [heq] at hd ⊢
  obtain rfl : e = d := by simpa using hd
  have hsplit : skipped ++ e :: rest = (skipped ++ [e]) ++ rest := by simp
  have hmem : b ∈ rest := by
    rw [hsplit, List.mem_append] at hb
    exact hb.resolve_left hnot
  exact (List.singleton_sublist.2 hmem).append (List.singleton_sublist.2 (by simp))

/-- Nobody is served from behind a member that is ready. -/
theorem not_mem_served {queue : List α} (hq : queue.Nodup) (h : [b, d].Sublist queue)
    {es : List (Event α)} (hes : Along step (fun q e => e.Proper q ∧ e.Passes b q) queue es) :
    d ∉ served queue es := by
  induction es generalizing queue with
  | nil => simp [served]
  | cons e es ih =>
    obtain ⟨⟨hproper, hpass⟩, hes⟩ := hes
    have hq' := step_nodup hq hproper
    rw [served, List.mem_append, not_or]
    cases e with
    | turn ready =>
      refine ⟨?_, ih hq' (behind_turn hpass.1 hpass.2 h) hes⟩
      simpa [Event.serves] using not_served_behind hq hpass.1 hpass.2 h
    | join place x =>
      exact ⟨by simp [Event.serves], ih hq' (h.trans (sublist_join queue place x)) hes⟩
    | pause => exact ⟨by simp [Event.serves], ih hq' h hes⟩

/-- **Nobody is served twice** while `b` is ready and waits. -/
theorem served_nodup {queue : List α} (hq : queue.Nodup) (hb : b ∈ queue) {es : List (Event α)}
    (hes : Along step (fun q e => e.Proper q ∧ e.Passes b q) queue es) : (served queue es).Nodup := by
  induction es generalizing queue with
  | nil => simp [served]
  | cons e es ih =>
    obtain ⟨⟨hproper, hpass⟩, hes⟩ := hes
    have hq' := step_nodup hq hproper
    have htail := ih hq' (step_mem hb e) hes
    rw [served]
    cases e with
    | turn ready =>
      obtain ⟨x, hx⟩ := turn_serves hb hpass.1
      have hbehind := not_mem_served hq' (behind_served hb hpass.1 hpass.2 hx) hes
      simp only [Event.serves, hx, Option.toList_some, List.singleton_append]
      exact List.nodup_cons.2 ⟨hbehind, htail⟩
    | join place x => simpa [Event.serves] using htail
    | pause => simpa [Event.serves] using htail

/-- A member that is ready in every turn and is not served is passed over. -/
theorem along_of_not_mem_served {queue : List α} {es : List (Event α)}
    (hes : ∀ e ∈ es, e = .pause ∨ ∃ ready, e = .turn ready ∧ ready b = true) (hb : b ∉ served queue es) :
    Along step (fun q e => e.Proper q ∧ e.Passes b q) queue es := by
  induction es generalizing queue with
  | nil => trivial
  | cons e es ih =>
    rw [served, List.mem_append, not_or] at hb
    have hrest := ih (fun e he => hes e (List.mem_cons_of_mem _ he)) hb.2
    obtain rfl | ⟨ready, rfl, hready⟩ := hes e List.mem_cons_self
    · exact ⟨⟨trivial, trivial⟩, hrest⟩
    · refine ⟨⟨trivial, hready, fun hserved => hb.1 ?_⟩, hrest⟩
      rw [Event.serves, hserved]
      exact List.mem_singleton_self b

/-- Who is served was ready. -/
theorem ready_of_mem_served {P : α → Prop} {queue : List α} {es : List (Event α)}
    (hes : ∀ e ∈ es, ∀ ready, e = .turn ready → ∀ x, ready x = true → P x) (hd : d ∈ served queue es) : P d := by
  induction es generalizing queue with
  | nil => cases hd
  | cons e es ih =>
    rw [served, List.mem_append] at hd
    obtain hd | hd := hd
    · cases e with
      | turn ready =>
        rw [Event.serves, Option.mem_toList, turn_fst] at hd
        exact hes _ List.mem_cons_self ready rfl d (List.find?_some hd)
      | join place x => cases hd
      | pause => cases hd
    · exact ih (fun e he => hes e (List.mem_cons_of_mem _ he)) hd

end Behind

end CommandStation.Lib.RoundRobin
