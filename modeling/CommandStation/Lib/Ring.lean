import Mathlib.Data.List.Basic
import Mathlib.Data.Nat.ModEq

/-!
# Ring buffers

A ring buffer is an array of `len` cells with a position to read from and a position to write to.
`Holds` says which elements are stored between the two. As an array with both positions equal is
taken to be empty, a ring of `len` cells holds less than `len` elements.
-/

namespace CommandStation.Lib

variable {α : Type} {len : Nat} {buffer : Nat → α} {posRead posWrite : Nat} {xs ys : List α} {x : α}

/-- The position after this one. -/
def nextPos (len pos : Nat) : Nat := if pos + 1 = len then 0 else pos + 1

theorem nextPos_eq_mod {pos : Nat} (h : pos < len) : nextPos len pos = (pos + 1) % len := by
  unfold nextPos
  split
  · next heq => rw [heq, Nat.mod_self]
  · next hne => rw [Nat.mod_eq_of_lt (by omega)]

/-- The elements from the read position to the write position. -/
structure Holds (len : Nat) (buffer : Nat → α) (posRead posWrite : Nat) (xs : List α) : Prop where
  read : posRead < len
  write : posWrite = (posRead + xs.length) % len
  room : xs.length < len
  cells : ∀ i < xs.length, xs[i]? = some (buffer ((posRead + i) % len))

/-- Different offsets within one round are different cells. -/
theorem offset_inj {i j : Nat} (hi : i < len) (hj : j < len)
    (h : (posRead + i) % len = (posRead + j) % len) : i = j := by
  have hmod : i % len = j % len := Nat.ModEq.add_left_cancel' posRead h
  rwa [Nat.mod_eq_of_lt hi, Nat.mod_eq_of_lt hj] at hmod

namespace Holds

theorem nil (h : posRead < len) : Holds len buffer posRead posRead [] :=
  ⟨h, by simp [Nat.mod_eq_of_lt h], Nat.zero_lt_of_lt h, fun _ hi => by cases hi⟩

/-- Any two positions have the cells between them. -/
theorem between (hread : posRead < len) (hwrite : posWrite < len) (buffer : Nat → α) :
    ∃ xs : List α, Holds len buffer posRead posWrite xs := by
  let n := (posWrite + len - posRead) % len
  have hroom : n < len := Nat.mod_lt _ (Nat.zero_lt_of_lt hread)
  have hend : posWrite = (posRead + n) % len := by
    rw [Nat.add_mod_mod, show posRead + (posWrite + len - posRead) = posWrite + len by omega,
      Nat.add_mod_right, Nat.mod_eq_of_lt hwrite]
  refine ⟨(List.range n).map fun i => buffer ((posRead + i) % len), hread, ?_, ?_, fun i hi => ?_⟩
  · rw [List.length_map, List.length_range]
    exact hend
  · rwa [List.length_map, List.length_range]
  · rw [List.length_map, List.length_range] at hi
    rw [List.getElem?_map, List.getElem?_range hi]
    rfl

theorem write_lt (h : Holds len buffer posRead posWrite xs) : posWrite < len := by
  rw [h.write]
  exact Nat.mod_lt _ (Nat.zero_lt_of_lt h.read)

/-- The cell that is written next. -/
theorem next_write (h : Holds len buffer posRead posWrite xs) :
    nextPos len posWrite = (posRead + (xs.length + 1)) % len := by
  rw [nextPos_eq_mod h.write_lt, h.write, Nat.mod_add_mod, Nat.add_assoc]

/-- The positions are equal if and only if the ring is empty. -/
theorem eq_iff (h : Holds len buffer posRead posWrite xs) : posRead = posWrite ↔ xs = [] := by
  constructor
  · intro heq
    have hzero : (posRead + 0) % len = (posRead + xs.length) % len := by
      rw [← h.write, ← heq, Nat.add_zero, Nat.mod_eq_of_lt h.read]
    have := offset_inj (Nat.zero_lt_of_lt h.read) h.room hzero
    exact List.length_eq_zero_iff.mp this.symm
  · intro hnil
    rw [h.write, hnil, List.length_nil, Nat.add_zero, Nat.mod_eq_of_lt h.read]

/-- A cell outside the stored elements may be written. -/
theorem of_outside (h : Holds len buffer posRead posWrite xs) {k : Nat} (hk : xs.length ≤ k)
    (hlen : k < len) (x : α) :
    Holds len (Function.update buffer ((posRead + k) % len) x) posRead posWrite xs := by
  refine ⟨h.read, h.write, h.room, fun i hi => ?_⟩
  rw [h.cells i hi, Function.update_of_ne]
  intro heq
  have := offset_inj (by omega) hlen heq
  omega

/-- An element is stored behind the others. -/
theorem push (h : Holds len buffer posRead posWrite xs) (hroom : xs.length + 1 < len) (x : α) :
    Holds len (Function.update buffer posWrite x) posRead (nextPos len posWrite) (xs ++ [x]) := by
  have hold := h.of_outside (Nat.le_refl _) h.room x
  rw [← h.write] at hold
  refine ⟨h.read, by rw [h.next_write, List.length_append, List.length_singleton],
    by simpa using hroom, fun i hi => ?_⟩
  rw [List.length_append, List.length_singleton] at hi
  by_cases hlast : i = xs.length
  · rw [hlast, List.getElem?_append_right (Nat.le_refl _), Nat.sub_self, ← h.write,
      Function.update_self]
    rfl
  · rw [List.getElem?_append_left (by omega)]
    exact hold.cells i (by omega)

/-- With one element more the positions do not meet, as long as there is room. -/
theorem next_write_ne (h : Holds len buffer posRead posWrite xs) (hroom : xs.length + 1 < len) :
    nextPos len posWrite ≠ posRead := by
  intro heq
  have hpush := h.push hroom (buffer 0)
  have := hpush.eq_iff.mp heq.symm
  simp at this

theorem next_write_eq (h : Holds len buffer posRead posWrite xs) (hfull : xs.length + 1 = len) :
    nextPos len posWrite = posRead := by
  rw [h.next_write, hfull, Nat.add_mod_right, Nat.mod_eq_of_lt h.read]

/-- The first element is read. -/
theorem pop (h : Holds len buffer posRead posWrite (x :: xs)) :
    buffer posRead = x ∧ Holds len buffer (nextPos len posRead) posWrite xs := by
  have hfirst := h.cells 0 (by simp)
  rw [Nat.add_zero, Nat.mod_eq_of_lt h.read] at hfirst
  have hnext := nextPos_eq_mod h.read
  have hroom := h.room
  rw [List.length_cons] at hroom
  refine ⟨(Option.some.inj hfirst).symm, ?_, ?_, by omega, fun i hi => ?_⟩
  · rw [hnext]
    exact Nat.mod_lt _ (Nat.zero_lt_of_lt h.read)
  · rw [h.write, hnext, Nat.mod_add_mod, List.length_cons, Nat.add_assoc, Nat.add_comm 1]
  · have hcell := h.cells (i + 1) (by simpa using hi)
    rw [hnext, Nat.mod_add_mod, Nat.add_assoc, Nat.add_comm 1]
    simpa using hcell

/-- A stored element is replaced. -/
theorem set (h : Holds len buffer posRead posWrite xs) {k : Nat} (hk : k < xs.length) (x : α) :
    Holds len (Function.update buffer ((posRead + k) % len) x) posRead posWrite (xs.set k x) := by
  have hroom := h.room
  refine ⟨h.read, by rw [List.length_set]; exact h.write, by rwa [List.length_set], fun i hi => ?_⟩
  rw [List.length_set] at hi
  by_cases hik : i = k
  · rw [hik, List.getElem?_set_self hk, Function.update_self]
  · rw [List.getElem?_set_ne (fun heq => hik heq.symm), h.cells i hi, Function.update_of_ne]
    intro heq
    exact hik (offset_inj (by omega) (by omega) heq)

end Holds

end CommandStation.Lib
