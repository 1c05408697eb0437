import CommandStation.Lib.Links
import Mathlib.Data.List.Iterate
import Mathlib.Data.List.Nodup

/-!
# Circles of pointers

Objects that are linked through one pointer that is never null form a ring: a list without
repetitions in which `next` leads from each address to the one behind it, and from the last one to
the first. Where the list starts does not matter: it can be turned so that any member comes first.
-/

namespace CommandStation.Lib

variable {α : Type} {next next' : α → α} {xs ys : List α} {a b : α}

/-- The addresses are different, and `next` goes round them. -/
structure Circle (next : α → α) (xs : List α) : Prop where
  nodup : xs.Nodup
  seg : Seg (fun a => some (next a)) xs.head? xs xs.head?

theorem Circle.nil : Circle next ([] : List α) := ⟨List.nodup_nil, rfl⟩

theorem circle_cons : Circle next (a :: xs) ↔
    (a :: xs).Nodup ∧ Seg (fun a => some (next a)) (some (next a)) xs (some a) :=
  ⟨fun h => ⟨h.nodup, h.seg.2⟩, fun h => ⟨h.1, rfl, h.2⟩⟩

theorem circle_singleton : Circle next [a] ↔ next a = a := by
  simp [circle_cons]

namespace Circle

theorem rotate (h : Circle next (xs ++ ys)) : Circle next (ys ++ xs) := by
  cases xs with
  | nil => simpa using h
  | cons x xs =>
    cases ys with
    | nil => simpa using h
    | cons y ys =>
      refine ⟨(List.perm_append_comm.nodup_iff).mp h.nodup, ?_⟩
      obtain ⟨q, hxs, hq, hys⟩ := seg_append.mp h.seg
      subst hq
      exact seg_append.mpr ⟨some x, ⟨rfl, hys⟩, ⟨rfl, hxs.2⟩⟩

/-- Any member can come first. -/
theorem from_mem (h : Circle next xs) (ha : a ∈ xs) :
    ∃ ys, Circle next (a :: ys) ∧ (a :: ys).Perm xs := by
  obtain ⟨front, back, rfl⟩ := List.append_of_mem ha
  have hperm : ((a :: back) ++ front).Perm (front ++ a :: back) := List.perm_append_comm
  exact ⟨back ++ front, h.rotate, hperm⟩

/-- Only what `next` is on the members matters. -/
theorem congr (h : Circle next xs) (heq : ∀ a ∈ xs, next' a = next a) : Circle next' xs :=
  ⟨h.nodup, h.seg.congr fun a ha => congrArg some (heq a ha)⟩

theorem next_head (h : Circle next (a :: b :: xs)) : next a = b :=
  Option.some.inj (circle_cons.mp h).2.1

theorem head?_eq (h : Circle next (a :: xs)) (hxs : xs ≠ []) : xs.head? = some (next a) := by
  cases xs with
  | nil => exact absurd rfl hxs
  | cons b xs => rw [h.next_head]; rfl

theorem next_mem (h : Circle next xs) (ha : a ∈ xs) : next a ∈ xs := by
  obtain ⟨ys, hc, hperm⟩ := h.from_mem ha
  cases ys with
  | nil => rwa [circle_singleton.mp hc]
  | cons b ys =>
    rw [hc.next_head]
    exact hperm.subset (by simp)

/-- A member that leads to itself is alone. -/
theorem next_self_iff (h : Circle next (a :: xs)) : next a = a ↔ xs = [] := by
  cases xs with
  | nil => simp [circle_singleton.mp h]
  | cons b xs =>
    have hne : b ≠ a := fun heq => by simpa [heq] using h.nodup
    simp [h.next_head, hne]

/-- The member behind `a` is the next one in the list, or the first one again. -/
theorem next_eq (h : Circle next (xs ++ a :: ys)) :
    some (next a) = if ys = [] then (xs ++ [a]).head? else ys.head? := by
  have hrot : Circle next (a :: (ys ++ xs)) := h.rotate
  cases ys with
  | nil =>
    cases xs with
    | nil => simp [circle_singleton.mp h]
    | cons x xs => simp [hrot.next_head]
  | cons y ys => simp [hrot.next_head]

/-- Only the last member leads to the first one. -/
theorem next_eq_head_iff (h : Circle next (xs ++ a :: ys)) :
    some (next a) = (xs ++ [a]).head? ↔ ys = [] := by
  rw [h.next_eq]
  refine ⟨fun heq => ?_, fun hys => by rw [if_pos hys]⟩
  by_contra hys
  rw [if_neg hys] at heq
  obtain ⟨b, hb⟩ : ∃ b, ys.head? = some b := Option.isSome_iff_exists.mp (by simpa using hys)
  have hdisjoint : (xs ++ [a]).Disjoint ys := by
    refine List.disjoint_of_nodup_append ?_
    simpa using h.nodup
  exact hdisjoint (List.mem_of_head? (heq ▸ hb)) (List.mem_of_head? hb)

/-- Only the last of the members behind `a` leads back to `a`. -/
theorem next_eq_iff (h : Circle next (a :: (xs ++ b :: ys))) : next b = a ↔ ys = [] := by
  have hrot : Circle next (b :: (ys ++ a :: xs)) :=
    (show Circle next ((a :: xs) ++ b :: ys) from h).rotate
  cases ys with
  | nil => simp [hrot.next_head]
  | cons c ys =>
    have hnext : next b = c := hrot.next_head
    have hne : c ≠ a := fun heq => by
      have := h.nodup
      simp [heq] at this
    simp [hnext, hne]

/-- A new member is put behind `a`. -/
theorem insert (h : Circle next (a :: xs)) (hnew : b ∉ a :: xs) (hb : next' b = next a)
    (ha : next' a = b) (hsame : ∀ c ∈ xs, next' c = next c) : Circle next' (a :: b :: xs) := by
  obtain ⟨hnodup, hseg⟩ := circle_cons.mp h
  refine circle_cons.mpr ⟨?_, by rw [ha], ?_⟩
  · simp only [List.nodup_cons, List.mem_cons] at hnodup hnew ⊢
    tauto
  · show Seg _ (some (next' b)) xs (some a)
    rw [hb]
    exact hseg.congr fun c hc => congrArg some (hsame c hc)

/-- The first member is taken out: the last one is linked to the one behind it. -/
theorem remove (h : Circle next (a :: (xs ++ [b]))) (hb : next' b = next a)
    (hsame : ∀ c ∈ xs, next' c = next c) : Circle next' (xs ++ [b]) := by
  obtain ⟨hnodup, hseg⟩ := circle_cons.mp h
  refine ⟨(List.nodup_cons.mp hnodup).2, ?_⟩
  obtain ⟨q, hxs, hq, -⟩ := seg_append.mp hseg
  rw [h.head?_eq (by simp)]
  refine seg_append.mpr ⟨q, hxs.congr fun c hc => congrArg some (hsame c hc), hq, ?_⟩
  show some (next' b) = some (next a)
  rw [hb]

end Circle

theorem seg_iterate {q : Option α} (h : Seg (fun a => some (next a)) (some a) xs q) :
    List.iterate next a xs.length = xs := by
  induction xs generalizing a with
  | nil => rfl
  | cons b xs ih =>
    obtain ⟨hab, hxs⟩ := h
    obtain rfl := Option.some.inj hab
    rw [List.length_cons, List.iterate, ih hxs]

/-- Following the pointers gives the members. -/
theorem Circle.iterate (h : Circle next (a :: xs)) :
    List.iterate next a (xs.length + 1) = a :: xs := seg_iterate h.seg

end CommandStation.Lib
