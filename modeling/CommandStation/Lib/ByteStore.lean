import Mathlib.Logic.Function.Basic
import Mathlib.Algebra.Group.Nat.Defs

/-!
# Stores of bytes

A `ByteStore` is a memory of `size` bytes that is read and written in blocks: a write outside it is
lost, and `cell` also tells what a read outside it gives. `Lies b a bs` says that the bytes `bs`
are found from address `a` on; a sequence of records lies in the store when each of them lies
behind the one before, and a block that is written over leaves what lies around it.

A `ByteLayout` is the way a record is laid out in bytes: a record is a number, least significant byte
first, and the number is put together from the fields of the record, the first of them in its least
significant bits.
-/

namespace CommandStation.Lib

/-- A memory of `size` bytes. -/
structure ByteStore where
  size : Nat
  cell : Nat → UInt8

namespace ByteStore

variable {b b' : ByteStore} {a n i : Nat} {bs bs' cs ds : List UInt8} {x : UInt8}

/-- The `n` bytes from address `a` on. -/
def read (b : ByteStore) (a : Nat) : Nat → List UInt8
  | 0 => []
  | n + 1 => b.cell a :: b.read (a + 1) n

/-- Write one byte. -/
def set (b : ByteStore) (a : Nat) (x : UInt8) : ByteStore :=
  { b with cell := if a < b.size then Function.update b.cell a x else b.cell }

/-- Write bytes from address `a` on. -/
def write (b : ByteStore) (a : Nat) : List UInt8 → ByteStore
  | [] => b
  | x :: bs => (b.set a x).write (a + 1) bs

@[simp] theorem size_set : (b.set a x).size = b.size := rfl

theorem cell_set : (b.set a x).cell i = if i = a ∧ i < b.size then x else b.cell i := by
  unfold set
  by_cases hi : i = a
  · subst hi
    by_cases h : i < b.size <;> simp [h]
  · by_cases h : a < b.size <;> simp [h, hi]

@[simp] theorem size_write : (b.write a bs).size = b.size := by
  induction bs generalizing b a with
  | nil => rfl
  | cons x bs ih => simp [write, ih]

/-- A cell that the block does not cover keeps its byte. -/
theorem cell_write_frame (h : i < a ∨ a + bs.length ≤ i) :
    (b.write a bs).cell i = b.cell i := by
  induction bs generalizing b a with
  | nil => rfl
  | cons x bs ih =>
    simp only [List.length_cons] at h
    have hia : i ≠ a := by omega
    rw [write, ih (by omega), cell_set, if_neg fun hi => hia hi.1]

/-- A cell of the block holds the byte written to it. -/
theorem cell_write_of_lt (hi : i < bs.length) (hfit : a + bs.length ≤ b.size) :
    (b.write a bs).cell (a + i) = bs[i] := by
  induction bs generalizing b a i with
  | nil => simp at hi
  | cons x bs ih =>
    simp only [List.length_cons] at hi hfit
    cases i with
    | zero =>
      rw [write, cell_write_frame (by omega), cell_set, if_pos ⟨rfl, by omega⟩]
      rfl
    | succ i =>
      have hstep : a + (i + 1) = a + 1 + i := by omega
      rw [write, hstep, ih (b := b.set a x) (a := a + 1) (by omega) (by simp only [size_set]; omega)]
      rfl

@[simp] theorem length_read : (b.read a n).length = n := by
  induction n generalizing a with
  | zero => rfl
  | succ n ih => simp [read, ih]

theorem getElem_read (hi : i < (b.read a n).length) : (b.read a n)[i] = b.cell (a + i) := by
  induction n generalizing a i with
  | zero => simp [read] at hi
  | succ n ih =>
    cases i with
    | zero => rfl
    | succ i =>
      have hstep : a + (i + 1) = a + 1 + i := by omega
      simp only [read, List.getElem_cons_succ, ih, hstep]

/-! ## What lies in a store -/

/-- The bytes `bs` are found from address `a` on. -/
def Lies (b : ByteStore) (a : Nat) (bs : List UInt8) : Prop := b.read a bs.length = bs

instance : Decidable (Lies b a bs) := inferInstanceAs (Decidable (_ = _))

theorem lies_iff : Lies b a bs ↔ ∀ (i : Nat) (h : i < bs.length), b.cell (a + i) = bs[i] := by
  constructor
  · intro h i hi
    rw [← getElem_read (n := bs.length) (by simpa using hi)]
    exact List.getElem_of_eq h (by simpa using hi)
  · intro h
    apply List.ext_getElem (by simp)
    intro i hi hi'
    rw [getElem_read, h i hi']

/-- Bytes lie one behind the other. -/
theorem lies_append : Lies b a (bs ++ cs) ↔ Lies b a bs ∧ Lies b (a + bs.length) cs := by
  simp only [lies_iff, List.length_append]
  constructor
  · intro h
    constructor
    · intro i hi
      rw [h i (by omega), List.getElem_append_left hi]
    · intro i hi
      have hat := h (bs.length + i) (by omega)
      rw [List.getElem_append_right (by omega)] at hat
      simpa [Nat.add_assoc] using hat
  · rintro ⟨hbs, hcs⟩ i hi
    by_cases hlt : i < bs.length
    · rw [List.getElem_append_left hlt, hbs i hlt]
    · obtain ⟨j, rfl⟩ := Nat.exists_eq_add_of_le (Nat.le_of_not_lt hlt)
      rw [List.getElem_append_right (by omega), ← Nat.add_assoc, hcs j (by omega)]
      simp

/-- What lies in a store only depends on the cells it covers. -/
theorem Lies.of_cells (h : Lies b a bs) (hcell : ∀ i < bs.length, b'.cell (a + i) = b.cell (a + i)) :
    Lies b' a bs := by
  rw [lies_iff] at h ⊢
  intro i hi
  rw [hcell i hi, h i hi]

/-- A block that fits lies where it was written. -/
theorem lies_write (hfit : a + bs.length ≤ b.size) : Lies (b.write a bs) a bs :=
  lies_iff.mpr fun _ hi => cell_write_of_lt hi hfit

/-- A write beside a block leaves the block. -/
theorem Lies.write (h : Lies b a bs) (hoff : a + bs.length ≤ n ∨ n + cs.length ≤ a) :
    Lies (b.write n cs) a bs :=
  h.of_cells fun _ _ => cell_write_frame (by omega)

end ByteStore

/-! ## Numbers as bytes -/

/-- The number that the bytes are, least significant byte first. -/
def ofBytes : List UInt8 → Nat
  | [] => 0
  | x :: bs => x.toNat + 256 * ofBytes bs

/-- The `w` low bytes of a number. -/
def toBytes : Nat → Nat → List UInt8
  | 0, _ => []
  | w + 1, n => UInt8.ofNat n :: toBytes w (n / 256)

@[simp] theorem length_toBytes (w n : Nat) : (toBytes w n).length = w := by
  induction w generalizing n with
  | zero => rfl
  | succ w ih => simp [toBytes, ih]

theorem ofBytes_toBytes {w n : Nat} (hn : n < 256 ^ w) : ofBytes (toBytes w n) = n := by
  induction w generalizing n with
  | zero =>
    rw [Nat.pow_zero] at hn
    simp only [toBytes, ofBytes]
    omega
  | succ w ih =>
    have hdiv : n / 256 < 256 ^ w := by
      rw [Nat.pow_succ] at hn
      omega
    simp only [toBytes, ofBytes, ih hdiv, UInt8.toNat_ofNat']
    omega

/-- The way an `α` is laid out in `width` bytes. -/
structure ByteLayout (α : Type) where
  width : Nat
  toNat : α → Nat
  ofNat : Nat → α
  toNat_lt : ∀ x, toNat x < 256 ^ width
  ofNat_toNat : ∀ x, ofNat (toNat x) = x

namespace ByteLayout

variable {α : Type} (L : ByteLayout α) {b : ByteStore} {a : Nat} {x : α}

/-- The bytes of a record. -/
def encode (x : α) : List UInt8 := toBytes L.width (L.toNat x)

/-- `get(a, x)`: the record whose bytes are found at `a`. -/
def get (b : ByteStore) (a : Nat) : α := L.ofNat (ofBytes (b.read a L.width))

/-- `put(a, x)` -/
def put (b : ByteStore) (a : Nat) (x : α) : ByteStore := b.write a (L.encode x)

@[simp] theorem length_encode : (L.encode x).length = L.width := length_toBytes _ _

/-- A record that lies in the store is read back. -/
theorem get_of_lies (h : b.Lies a (L.encode x)) : L.get b a = x := by
  unfold ByteStore.Lies at h
  rw [length_encode] at h
  rw [get, h, encode, ofBytes_toBytes (L.toNat_lt x), ofNat_toNat]

end ByteLayout

/-! ## Bit fields -/

/-- A field with `size` values is a digit of the number that its record is. -/
structure Field (α : Type) where
  size : Nat
  toNat : α → Nat
  ofNat : Nat → α
  toNat_lt : ∀ x, toNat x < size
  ofNat_toNat : ∀ x, ofNat (toNat x) = x

namespace Field

variable {α β : Type}

/-- `bool x : 1` -/
def bool : Field Bool where
  size := 2
  toNat := Bool.toNat
  ofNat n := n == 1
  toNat_lt := Bool.toNat_lt
  ofNat_toNat x := by cases x <;> rfl

/-- An unsigned field of `w` bits. -/
def bits (w : Nat) : Field (BitVec w) where
  size := 2 ^ w
  toNat := BitVec.toNat
  ofNat := BitVec.ofNat w
  toNat_lt := BitVec.isLt
  ofNat_toNat x := by simp

/-- `uint8_t` -/
def uint8 : Field UInt8 where
  size := 256
  toNat := UInt8.toNat
  ofNat := UInt8.ofNat
  toNat_lt := UInt8.toNat_lt
  ofNat_toNat x := by simp

/-- `uint16_t` -/
def uint16 : Field UInt16 where
  size := 65536
  toNat := UInt16.toNat
  ofNat := UInt16.ofNat
  toNat_lt := UInt16.toNat_lt
  ofNat_toNat x := by simp

/-- `int16_t`, in two's complement. -/
def int16 : Field Int16 where
  size := 65536
  toNat x := x.toUInt16.toNat
  ofNat n := .ofUInt16 (.ofNat n)
  toNat_lt x := x.toUInt16.toNat_lt
  ofNat_toNat x := by simp

/-- One field behind the other. -/
def seq (f : Field α) (g : Field β) : Field (α × β) where
  size := f.size * g.size
  toNat x := f.toNat x.1 + f.size * g.toNat x.2
  ofNat n := (f.ofNat (n % f.size), g.ofNat (n / f.size))
  toNat_lt x := by
    have hf := f.toNat_lt x.1
    calc f.toNat x.1 + f.size * g.toNat x.2
        < f.size + f.size * g.toNat x.2 := by omega
      _ = f.size * (g.toNat x.2 + 1) := by rw [Nat.mul_add, Nat.mul_one, Nat.add_comm]
      _ ≤ f.size * g.size := Nat.mul_le_mul_left _ (g.toNat_lt x.2)
  ofNat_toNat x := by
    have hf := f.toNat_lt x.1
    have hmod : (f.toNat x.1 + f.size * g.toNat x.2) % f.size = f.toNat x.1 := by
      rw [Nat.add_mul_mod_self_left, Nat.mod_eq_of_lt hf]
    have hdiv : (f.toNat x.1 + f.size * g.toNat x.2) / f.size = g.toNat x.2 := by
      rw [Nat.add_mul_div_left _ _ (by omega), Nat.div_eq_of_lt hf, Nat.zero_add]
    rw [hmod, hdiv, f.ofNat_toNat, g.ofNat_toNat]

/-- The layout of a record whose fields fill its bytes. -/
def layout (f : Field β) (width : Nat) (fields : α → β) (record : β → α)
    (record_fields : ∀ x, record (fields x) = x) (size_eq : f.size = 256 ^ width) : ByteLayout α where
  width := width
  toNat x := f.toNat (fields x)
  ofNat n := record (f.ofNat n)
  toNat_lt x := size_eq ▸ f.toNat_lt (fields x)
  ofNat_toNat x := by rw [f.ofNat_toNat, record_fields]

end Field

end CommandStation.Lib
