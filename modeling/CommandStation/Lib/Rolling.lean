import Mathlib.Data.List.Basic
import Mathlib.Data.Nat.ModEq

/-!
# Rolling logs

A log of `len` cells takes a sequence without end: element number `i` goes to cell `i % len`, over the one
that was there. So the cells hold the last `len` elements.

A reader polls the log. It keeps the number of the next element that it wants, takes at most `chunk`
elements at a time, and goes on with the oldest one there is when its own is no longer in the log. What it
has read is part of the sequence, in order, and it is all of it as long as the reader never was more than
`len` elements behind.
-/

namespace CommandStation.Lib

variable {α : Type} {len : Nat} {buffer : Nat → α} {xs : List α}

/-- The last `len` elements are in their cells. -/
def Rolls (len : Nat) (buffer : Nat → α) (xs : List α) : Prop :=
  ∀ i < xs.length, xs.length ≤ i + len → xs[i]? = some (buffer (i % len))

namespace Rolls

theorem nil : Rolls len buffer ([] : List α) := fun _ h => absurd h (Nat.not_lt_zero _)

/-- Two numbers less than `len` apart have different cells. -/
theorem cell_ne {i j : Nat} (hij : i < j) (hj : j < i + len) : i % len ≠ j % len := by
  intro h
  have hsub : (j - i) % len = 0 := Nat.sub_mod_eq_zero_of_mod_eq h.symm
  rw [Nat.mod_eq_of_lt (by omega)] at hsub
  omega

/-- The next element goes over the oldest one. -/
theorem write (h : Rolls len buffer xs) (x : α) :
    Rolls len (Function.update buffer (xs.length % len) x) (xs ++ [x]) := by
  intro i hi hkept
  rw [List.length_append, List.length_singleton] at hi hkept
  obtain hlt | rfl : i < xs.length ∨ i = xs.length := by omega
  · rw [List.getElem?_append_left hlt, Function.update_of_ne (cell_ne hlt (by omega))]
    exact h i hlt (by omega)
  · rw [List.getElem?_concat_length, Function.update_self]

/-- The cells of `n` numbers, the first of them still in the log, hold these elements. -/
theorem read (h : Rolls len buffer xs) (start n : Nat) (hstart : xs.length ≤ start + len)
    (hn : start + n ≤ xs.length) :
    ((List.range n).map fun s => buffer ((start + s) % len)) = (xs.drop start).take n := by
  apply List.ext_getElem?
  intro s
  by_cases hs : s < n
  · rw [List.getElem?_map, List.getElem?_range hs, List.getElem?_take_of_lt hs, List.getElem?_drop]
    exact (h (start + s) (by omega) (by omega)).symm
  · rw [List.getElem?_eq_none, List.getElem?_eq_none]
    · rw [List.length_take]
      omega
    · rw [List.length_map, List.length_range]
      omega

/-- The cells from `pos` to the end, and then those before it, when `pos` is where the next element
goes and all cells have been written. -/
theorem read_round (h : Rolls len buffer xs) {pos : Nat} (hpos : pos ≤ len) (hlen : len ≤ xs.length)
    (hnext : pos % len = xs.length % len) :
    ((List.range (len - pos)).map fun i => buffer (pos + i)) ++ (List.range pos).map buffer =
      xs.drop (xs.length - len) := by
  have hcell : ∀ s < len, (xs.length - len + s) % len = (pos + s) % len := by
    intro s _
    apply Nat.ModEq.add_right
    show (xs.length - len) % len = pos % len
    rw [hnext, ← Nat.mod_eq_sub_mod hlen]
  have hall := h.read (xs.length - len) len (by omega) (by omega)
  rw [List.take_of_length_le (by rw [List.length_drop]; omega)] at hall
  rw [← hall, ← Nat.sub_add_cancel hpos, List.range_add, List.map_append, List.map_map,
    Nat.sub_add_cancel hpos]
  congr 1
  · apply List.map_congr_left
    intro s hs
    have hlt := List.mem_range.1 hs
    rw [hcell s (by omega), Nat.mod_eq_of_lt (by omega)]
  · apply List.map_congr_left
    intro s hs
    have hlt := List.mem_range.1 hs
    have hround : pos + (len - pos + s) = s + len := by omega
    rw [Function.comp_apply, hcell _ (by omega), hround, Nat.add_mod_right, Nat.mod_eq_of_lt (by omega)]

end Rolls

/-! ## Readers -/

/-- The number that is wanted next, what was read, and how many elements were missed. -/
structure Reader (α : Type) where
  seq : Nat
  text : List α
  missed : Nat

namespace Reader

def new : Reader α := ⟨0, [], 0⟩

/-- The first element that a poll takes. -/
def start (len : Nat) (xs : List α) (r : Reader α) : Nat := max r.seq (xs.length - len)

/-- The reader gets `n` elements of the sequence `xs` from number `start` on. -/
def receive (start n : Nat) (xs : List α) (r : Reader α) : Reader α :=
  ⟨start + n, r.text ++ (xs.drop start).take n, r.missed + (start - r.seq)⟩

/-- The reader takes the next elements of the sequence `xs`. -/
def poll (len chunk : Nat) (xs : List α) (r : Reader α) : Reader α :=
  r.receive (r.start len xs) (min chunk (xs.length - r.start len xs)) xs

/-- What a reader has read of the sequence. -/
structure Reads (xs : List α) (r : Reader α) : Prop where
  le : r.seq ≤ xs.length
  sublist : r.text.Sublist (xs.take r.seq)
  length : r.text.length + r.missed = r.seq

namespace Reads

variable {r : Reader α}

theorem new (xs : List α) : Reads xs Reader.new :=
  ⟨Nat.zero_le _, List.nil_sublist _, rfl⟩

theorem append (h : Reads xs r) (ys : List α) : Reads (xs ++ ys) r := by
  refine ⟨?_, ?_, h.length⟩
  · rw [List.length_append]
    exact Nat.le_add_right_of_le h.le
  · rw [List.take_append_of_le_length h.le]
    exact h.sublist

theorem receive (h : Reads xs r) {start n : Nat} (hstart : r.seq ≤ start) (hend : start + n ≤ xs.length) :
    Reads xs (r.receive start n xs) := by
  have hlength := h.length
  refine ⟨hend, ?_, ?_⟩
  · show (r.text ++ _).Sublist (xs.take (start + n))
    rw [List.take_add]
    apply List.Sublist.append_right
    exact h.sublist.trans (List.take_sublist_take_left hstart)
  · show (r.text ++ (xs.drop start).take n).length + (r.missed + (start - r.seq)) = start + n
    rw [List.length_append, List.length_take, List.length_drop]
    omega

theorem poll (h : Reads xs r) (len chunk : Nat) : Reads xs (r.poll len chunk xs) := by
  have hend : r.start len xs ≤ xs.length := Nat.max_le.2 ⟨h.le, Nat.sub_le _ _⟩
  exact h.receive (Nat.le_max_left _ _) (by omega)

/-- The reader has all of the sequence up to its number if and only if it has missed nothing. -/
theorem text_eq_iff (h : Reads xs r) : r.text = xs.take r.seq ↔ r.missed = 0 := by
  have hlength := h.length
  have htake : (xs.take r.seq).length = r.seq := List.length_take_of_le h.le
  constructor
  · intro heq
    rw [heq] at hlength
    omega
  · intro hmissed
    apply h.sublist.eq_of_length
    omega

end Reads

variable {r : Reader α}

/-- Elements are missed if and only if the first one is not the one that is wanted, nor one before it. -/
theorem missed_receive (r : Reader α) (start n : Nat) (xs : List α) :
    (r.receive start n xs).missed = 0 ↔ r.missed = 0 ∧ start ≤ r.seq := by
  show r.missed + (start - r.seq) = 0 ↔ _
  omega

theorem seq_poll (h : r.seq ≤ xs.length) (len chunk : Nat) :
    (r.poll len chunk xs).seq = min (r.start len xs + chunk) xs.length := by
  have hend : r.start len xs ≤ xs.length := Nat.max_le.2 ⟨h, Nat.sub_le _ _⟩
  show r.start len xs + min chunk (xs.length - r.start len xs) = _
  omega

/-- Polls with nothing written between them. -/
theorem seq_polls (h : Reads xs r) (len chunk k : Nat) :
    ((Reader.poll len chunk xs)^[k + 1] r).seq = min (r.start len xs + (k + 1) * chunk) xs.length := by
  induction k generalizing r with
  | zero => simpa using seq_poll h.le len chunk
  | succ k ih =>
    rw [Function.iterate_succ_apply, ih (h.poll len chunk)]
    have hseq := seq_poll h.le len chunk
    have hold : xs.length - len ≤ r.start len xs := Nat.le_max_right _ _
    have hmul : (k + 1 + 1) * chunk = chunk + (k + 1) * chunk := by
      rw [Nat.add_mul (k + 1), Nat.one_mul, Nat.add_comm]
    rw [Reader.start, hseq, hmul]
    omega

end Reader

end CommandStation.Lib
