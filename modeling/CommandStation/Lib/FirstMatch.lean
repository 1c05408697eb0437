import Mathlib.Data.List.Basic

/-!
# The first element of a list that meets a test, with its context

`splitFirst` is the loop `for (p = head; p; p = p->next) if (test(p)) …` on a list: what was
passed over, the element found, what follows it. The element is then replaced in its context or
taken out of it.
-/

namespace CommandStation.Lib

variable {α : Type}

/-- Split a list at its first element that meets `test`. -/
def splitFirst (test : α → Bool) : List α → Option (List α × α × List α)
  | [] => none
  | a :: as =>
    if test a then some ([], a, as)
    else (splitFirst test as).map fun (before, x, after) => (a :: before, x, after)

variable {test : α → Bool} {l : List α}

theorem splitFirst_eq_none : splitFirst test l = none ↔ ∀ a ∈ l, test a = false := by
  induction l with
  | nil => simp [splitFirst]
  | cons a as ih =>
    by_cases ha : test a
    · simp [splitFirst, ha]
    · simp [splitFirst, ha, ih]

/-- The list is split at the first element that meets the test. -/
theorem splitFirst_eq_some {before after : List α} {x : α}
    (h : splitFirst test l = some (before, x, after)) :
    l = before ++ x :: after ∧ test x = true ∧ ∀ a ∈ before, test a = false := by
  induction l generalizing before with
  | nil => simp [splitFirst] at h
  | cons a as ih =>
    by_cases ha : test a
    · simp only [splitFirst, ha, if_true, Option.some.injEq, Prod.mk.injEq] at h
      obtain ⟨rfl, rfl, rfl⟩ := h
      simp [ha]
    · simp only [splitFirst, ha, Bool.false_eq_true, if_false, Option.map_eq_some_iff] at h
      obtain ⟨⟨b, y, c⟩, hsplit, heq⟩ := h
      simp only [Prod.mk.injEq] at heq
      obtain ⟨rfl, rfl, rfl⟩ := heq
      obtain ⟨rfl, hx, hb⟩ := ih hsplit
      refine ⟨rfl, hx, ?_⟩
      intro c hc
      rcases List.mem_cons.mp hc with rfl | hc
      · simpa using ha
      · exact hb c hc

theorem splitFirst_append {before after : List α} {x : α} (hx : test x = true)
    (hb : ∀ a ∈ before, test a = false) :
    splitFirst test (before ++ x :: after) = some (before, x, after) := by
  induction before with
  | nil => simp [splitFirst, hx]
  | cons a before ih =>
    have ha := hb a List.mem_cons_self
    have hrest := ih fun b hin => hb b (List.mem_cons_of_mem a hin)
    simp [splitFirst, ha, hrest]

/-- An element is replaced by one that is related to the others at least as well. -/
theorem pairwise_replace {R : α → α → Prop} {before after : List α} {x x' : α}
    (h : (before ++ x :: after).Pairwise R) (hl : ∀ y ∈ before, R y x → R y x')
    (hr : ∀ y ∈ after, R x y → R x' y) : (before ++ x' :: after).Pairwise R := by
  rw [List.pairwise_append, List.pairwise_cons] at h ⊢
  obtain ⟨hb, ⟨hxa, ha⟩, hcross⟩ := h
  refine ⟨hb, ⟨fun y hy => hr y hy (hxa y hy), ha⟩, ?_⟩
  intro y hy z hz
  rcases List.mem_cons.mp hz with rfl | hz
  · exact hl y hy (hcross y hy x List.mem_cons_self)
  · exact hcross y hy z (List.mem_cons_of_mem _ hz)

/-- An element is taken out. -/
theorem pairwise_remove {R : α → α → Prop} {before after : List α} {x : α}
    (h : (before ++ x :: after).Pairwise R) : (before ++ after).Pairwise R :=
  h.sublist (List.Sublist.append_left (List.sublist_cons_self ..) before)

end CommandStation.Lib
