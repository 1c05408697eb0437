import Mathlib.Data.List.Basic
import Mathlib.Data.List.Perm.Subperm

/-!
# Lists linked through a `next` pointer

`next : α → Option α` is the pointer field of the nodes, `none` the null pointer. `Seg next p xs q`
says that following `next` from `p` visits exactly the nodes `xs` and arrives at `q`; `Links` is the
case of a list that ends with null. A change of the field is described by another function `next'`,
and the lemmas ask only that the two agree on the nodes that are not written.
-/

namespace CommandStation.Lib

variable {α : Type} {next next' : α → Option α}

/-- From `p`, through the nodes `xs`, to `q`. -/
def Seg (next : α → Option α) : Option α → List α → Option α → Prop
  | p, [], q => p = q
  | p, a :: xs, q => p = some a ∧ Seg next (next a) xs q

/-- The list that starts at `p` has the nodes `xs`. -/
def Links (next : α → Option α) (p : Option α) (xs : List α) : Prop := Seg next p xs none

@[simp] theorem seg_nil {p q : Option α} : Seg next p [] q ↔ p = q := Iff.rfl

@[simp] theorem seg_cons {p q : Option α} {a : α} {xs : List α} :
    Seg next p (a :: xs) q ↔ p = some a ∧ Seg next (next a) xs q := Iff.rfl

@[simp] theorem links_nil {p : Option α} : Links next p [] ↔ p = none := Iff.rfl

@[simp] theorem links_cons {p : Option α} {a : α} {xs : List α} :
    Links next p (a :: xs) ↔ p = some a ∧ Links next (next a) xs := Iff.rfl

theorem seg_append {p r : Option α} {xs ys : List α} :
    Seg next p (xs ++ ys) r ↔ ∃ q, Seg next p xs q ∧ Seg next q ys r := by
  induction xs generalizing p with
  | nil => simp
  | cons a xs ih => simp [ih, and_assoc]

theorem Seg.append {p q r : Option α} {xs ys : List α} (h : Seg next p xs q)
    (h' : Seg next q ys r) : Seg next p (xs ++ ys) r :=
  seg_append.mpr ⟨q, h, h'⟩

/-- The frame rule: only the fields of the visited nodes matter. -/
theorem Seg.congr {p q : Option α} {xs : List α} (h : Seg next p xs q)
    (hsame : ∀ a ∈ xs, next' a = next a) : Seg next' p xs q := by
  induction xs generalizing p with
  | nil => exact h
  | cons a xs ih =>
    rw [seg_cons, hsame a List.mem_cons_self]
    exact ⟨h.1, ih h.2 fun b hb => hsame b (List.mem_cons_of_mem a hb)⟩

theorem Links.congr {p : Option α} {xs : List α} (h : Links next p xs)
    (hsame : ∀ a ∈ xs, next' a = next a) : Links next' p xs := Seg.congr h hsame

/-- A write to a node that is not visited. -/
theorem Links.update [DecidableEq α] {p b : Option α} {xs : List α} {a : α} (h : Links next p xs)
    (ha : a ∉ xs) : Links (Function.update next a b) p xs := by
  apply h.congr
  intro c hc
  have hne : c ≠ a := fun heq => ha (heq ▸ hc)
  exact Function.update_of_ne hne ..

/-- The start determines the list. -/
theorem Links.unique {p : Option α} {xs ys : List α} (hx : Links next p xs)
    (hy : Links next p ys) : xs = ys := by
  induction xs generalizing p ys with
  | nil =>
    cases ys with
    | nil => rfl
    | cons b ys =>
      have hp := hx.symm.trans hy.1
      cases hp
  | cons a xs ih =>
    cases ys with
    | nil =>
      have hp := hx.1.symm.trans hy
      cases hp
    | cons b ys =>
      obtain ⟨hxa, hx⟩ := hx
      obtain ⟨hyb, hy⟩ := hy
      rw [hxa, Option.some.injEq] at hyb
      subst hyb
      rw [ih hx hy]

/-- A node in the middle of a list is skipped by its predecessor. -/
theorem Links.remove {p : Option α} {before after : List α} {b a : α}
    (h : Links next p (before ++ b :: a :: after)) (hb : next' b = next a)
    (hsame : ∀ c ∈ before ++ after, next' c = next c) :
    Links next' p (before ++ b :: after) := by
  obtain ⟨q, hbefore, rfl, -, hafter⟩ := seg_append.mp h
  refine Seg.append (hbefore.congr fun c hc => hsame c (by simp [hc])) ⟨rfl, ?_⟩
  rw [hb]
  exact hafter.congr fun c hc => hsame c (by simp [hc])

/-- A node is appended to the last one. -/
theorem Links.snoc {p : Option α} {xs : List α} {b a : α} (h : Links next p (xs ++ [b]))
    (hb : next' b = some a) (ha : next' a = none) (hsame : ∀ c ∈ xs, next' c = next c) :
    Links next' p (xs ++ [b] ++ [a]) := by
  obtain ⟨q, hxs, rfl, -⟩ := seg_append.mp h
  rw [List.append_assoc]
  refine Seg.append (hxs.congr hsame) ⟨rfl, ?_⟩
  rw [hb]
  exact ⟨rfl, ha⟩

/-- The start is the first node. -/
theorem Links.head {p : Option α} {xs : List α} (h : Links next p xs) : p = xs.head? := by
  cases xs with
  | nil => exact h
  | cons a xs => exact h.1

/-- What lies behind a node of a list. -/
theorem Links.of_append {p : Option α} {before after : List α} {a : α}
    (h : Links next p (before ++ a :: after)) :
    Seg next p before (some a) ∧ Links next (next a) after := by
  obtain ⟨q, hbefore, rfl, hafter⟩ := seg_append.mp h
  exact ⟨hbefore, hafter⟩

/-- Every node but the first one has a predecessor. -/
theorem Links.exists_prev {p : Option α} {xs : List α} {a : α} (h : Links next p xs)
    (ha : a ∈ xs) (hp : p ≠ some a) : ∃ b ∈ xs, next b = some a := by
  induction xs generalizing p with
  | nil => cases ha
  | cons c xs ih =>
    obtain ⟨rfl, hlinks⟩ := h
    rcases List.mem_cons.mp ha with rfl | ha
    · exact absurd rfl hp
    · by_cases hc : next c = some a
      · exact ⟨c, List.mem_cons_self, hc⟩
      · obtain ⟨b, hb, hnext⟩ := ih hlinks ha hc
        exact ⟨b, List.mem_cons_of_mem c hb, hnext⟩

/-- Distinct addresses below `n` are at most `n`. -/
theorem length_le_of_nodup_of_lt {xs : List Nat} {n : Nat} (hnd : xs.Nodup)
    (hlt : ∀ a ∈ xs, a < n) : xs.length ≤ n := by
  have hsub : xs ⊆ List.range n := fun a ha => List.mem_range.mpr (hlt a ha)
  simpa using (List.subperm_of_subset hnd hsub).length_le

end CommandStation.Lib
