import Mathlib.Order.Bounds.Basic
import CommandStation.RingStream.Spec

/-!
# The free space of the ring

A sender may ask for the free space before it writes a message. Three of the free cells go to the
client and the length, and one more stays empty, as a ring with equal positions is taken to be empty.
`freeSpace` allows for the three only.
-/

namespace CommandStation

open CommandStation.Lib

namespace RingStream

variable {r : RingStream} {xs : List UInt8}

/-- A message of `n` bytes is committed. -/
def Accepts (r : RingStream) (n : Nat) : Prop :=
  ∀ client bytes, bytes.length = n → ((r.mark client).print bytes).commit.2 = true

/-- `freeSpace` is the length of the longest message that is committed. It is not positive where there
is no room for a single byte. -/
structure FreeSpaceExact (r : RingStream) : Prop where
  largest : 0 < r.freeSpace → IsGreatest {k : Int | ∃ n : Nat, k = n ∧ r.Accepts n} r.freeSpace
  none : r.freeSpace ≤ 0 → ∀ n, 1 ≤ n → ¬ r.Accepts n

/-- Without an overflow `commit` always works. -/
theorem commit_snd (r : RingStream) : r.commit.2 = !r.overflow := by
  unfold commit
  cases ho : r.overflow with
  | true => simp
  | false =>
    by_cases hzero : r.counter = 0
    · simp [hzero]
    · simp [hzero]

/-- The message has room together with the unread cells, and a cell stays empty. -/
theorem commit_iff (h : Holds r.len r.buffer r.posRead r.posWrite xs) (ho : r.overflow = false)
    (client : UInt8) (bytes : List UInt8) :
    ((r.mark client).print bytes).commit.2 = true ↔ xs.length + 3 + bytes.length < r.len := by
  obtain ⟨hmark, hsame⟩ := writing_mark h ho client
  obtain ⟨hw, hsame'⟩ := writing_print hmark bytes
  have hlen : ((r.mark client).print bytes).len = r.len := hsame'.len.trans hsame.len
  have hcells : (xs ++ ([client, 0, 0] ++ bytes)).length = xs.length + 3 + bytes.length := by
    simp only [List.length_append, List.length_cons, List.length_nil]
    omega
  rw [commit_snd]
  cases hover : ((r.mark client).print bytes).overflow with
  | true =>
    have hfull := hw.full hover
    rw [hlen, ← List.length_append, hcells] at hfull
    simpa using hfull
  | false =>
    have hroom := (hw.fits hover).1.room
    rw [hlen, hcells] at hroom
    simpa using hroom

theorem accepts_iff (h : Holds r.len r.buffer r.posRead r.posWrite xs) (ho : r.overflow = false)
    (n : Nat) : r.Accepts n ↔ xs.length + 3 + n < r.len := by
  constructor
  · intro haccepts
    have hdone := haccepts 0 (List.replicate n 0) List.length_replicate
    rwa [commit_iff h ho, List.length_replicate] at hdone
  · intro hroom client bytes hbytes
    rw [commit_iff h ho, hbytes]
    exact hroom

/-- The cell that stays empty is not allowed for. -/
theorem isGreatest_accepts (h : Holds r.len r.buffer r.posRead r.posWrite xs) (ho : r.overflow = false)
    (hfree : 0 < r.freeSpace) :
    IsGreatest {k : Int | ∃ n : Nat, k = n ∧ r.Accepts n} (r.freeSpace - 1) := by
  rw [freeSpace_eq h] at hfree ⊢
  constructor
  · refine ⟨r.len - xs.length - 4, by omega, ?_⟩
    rw [accepts_iff h ho]
    omega
  · rintro k ⟨n, rfl, haccepts⟩
    rw [accepts_iff h ho] at haccepts
    omega

/-- **The free space is one too large.** It is the length of the longest message that is committed
only where at most three cells are free, and it says that nothing fits. -/
theorem freeSpace_exact_iff (r : RingStream) (hread : r.posRead < r.len) (hwrite : r.posWrite < r.len)
    (ho : r.overflow = false) : FreeSpaceExact r ↔ r.len ≤ r.used + 3 := by
  obtain ⟨xs, h⟩ := Holds.between hread hwrite r.buffer
  have hfree := freeSpace_eq h
  rw [used_eq h]
  constructor
  · intro hexact
    by_contra hroom
    have hpos : 0 < r.freeSpace := by omega
    have hsame := (hexact.largest hpos).unique (isGreatest_accepts h ho hpos)
    omega
  · intro hfull
    refine ⟨fun hpos => ?_, fun _ n hn => ?_⟩
    · omega
    · rw [accepts_iff h ho]
      omega

/-- A ring of eight cells with one unread, and a free space of four. -/
theorem freeSpace_exact_iff_unread :
    let r : RingStream := { new 8 with posRead := 6, posWrite := 7 }
    r.freeSpace = 4 ∧ (FreeSpaceExact r ↔ 8 ≤ 1 + 3) :=
  ⟨by decide, freeSpace_exact_iff { new 8 with posRead := 6, posWrite := 7 } (by decide) (by decide) rfl⟩

/-- A message of as many bytes as there is free space is thrown away. -/
theorem freeSpace_rolled_back :
    let r := new 8
    r.freeSpace = 5 ∧ ((r.mark 1).print [65, 66, 67, 68, 69]).commit.2 = false ∧ ¬ FreeSpaceExact r := by
  intro r
  have hback : ((r.mark 1).print [65, 66, 67, 68, 69]).commit.2 = false := by decide
  refine ⟨by decide, hback, fun hexact => ?_⟩
  obtain ⟨⟨n, hn, haccepts⟩, -⟩ := hexact.largest (by decide)
  have hfive : [65, 66, 67, 68, 69].length = n := by
    have hfree : r.freeSpace = 5 := by decide
    rw [hfree] at hn
    exact Int.ofNat_inj.mp hn
  rw [haccepts 1 [65, 66, 67, 68, 69] hfive] at hback
  cases hback

end RingStream

end CommandStation
