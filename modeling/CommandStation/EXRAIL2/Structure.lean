import CommandStation.EXRAIL2.Loop
import CommandStation.Lib.Blocks

/-!
# Structured scripts

The macros write statements, conditions, `ELSE` and `ENDIF` one after the other. A script whose
conditions are well nested is a block of statements and conditions, laid out in cells. Skipping is a
scan along these cells that counts conditions: it goes to the end of the block it is in, as long as
the count stays within a `short`.
-/

namespace CommandStation

open CommandStation.Lib

/-- The opcode stands for itself: it is no condition and no mark between blocks. -/
def Opcode.isStatement (op : Opcode) : Bool :=
  !opensIf op.toByte && op != .else_ && op != .endif && op != .endexrail && op != .pad

/-- An opcode that is no condition, with the number of the `PAD` cells behind it. -/
structure Statement where
  op : Opcode
  pads : Nat
  isStatement : op.isStatement = true

/-- A condition, with the number of the `PAD` cells behind it. -/
structure Condition where
  op : Opcode
  pads : Nat
  opens : Opcode.opensIf op.toByte = true

theorem Statement.ne_endexrail (s : Statement) : s.op ≠ .endexrail := by
  have h := s.isStatement
  simp only [Opcode.isStatement, Bool.and_eq_true, bne_iff_ne] at h
  exact h.1.2

theorem Condition.ne_endexrail (c : Condition) : c.op ≠ .endexrail := by
  intro heq
  have h := c.opens
  rw [heq] at h
  cases h

/-- The message makes a condition fail or hold. -/
def Message.isCondition : Message → Bool
  | .text => false
  | .parse _ => false
  | _ => true

namespace Script

variable (script : Script)

/-- The opcode of a cell. -/
def cellAt (k : Nat) : UInt8 := script.getOpcode (3 * k)

/-- Cells of operands behind the first one. -/
def padded (k k' : Nat) : Prop := k < k' ∧ ∀ j, k < j → j < k' → script.cellAt j = Opcode.pad.toByte

/-- The message that a cell names. -/
def messageAt (k : Nat) : Message := script.messages (script.getOperand (3 * k) 0)

/-- How the macros lay out scripts. `IFLOCO` names a condition, and `PRINT` does not. -/
def layout : Layout Statement Condition where
  stmt s k k' := k' = k + 1 + s.pads ∧ script.padded k k' ∧ script.cellAt k = s.op.toByte ∧
    (s.op = .print → (script.messageAt k).isCondition = false)
  cond c k k' := k' = k + 1 + c.pads ∧ script.padded k k' ∧ script.cellAt k = c.op.toByte ∧
    (c.op = .ifloco → (script.messageAt k).isCondition = true)
  pad k := script.cellAt k = Opcode.pad.toByte
  else_ k := script.cellAt k = Opcode.else_.toByte
  endif k := script.cellAt k = Opcode.endif.toByte
  stmt_pads h := h.2.1
  cond_pads h := h.2.1

end Script

namespace Exrail

variable {script : Script} {b : Block Statement Condition} {K : Nat → Prop} {k m fuel : Nat}

/-! ## One cell -/

/-- One turn of the loop of `skipIfBlock`, with a count that is not zero. -/
theorem skipFrom_succ (hm : 0 < m) (hmax : m ≤ 32767) :
    skipFrom script (fuel + 1) (Int16.ofNat m) (3 * k) =
      if Opcode.opensIf (script.cellAt (k + 1)) then
        skipFrom script fuel (Int16.ofNat (m + 1)) (3 * (k + 1 : Nat))
      else if script.cellAt (k + 1) = Opcode.endexrail.toByte then some (3 * (k + 1 : Nat), false)
      else if script.cellAt (k + 1) = Opcode.endif.toByte then
        skipFrom script fuel (Int16.ofNat (m - 1)) (3 * (k + 1 : Nat))
      else if script.cellAt (k + 1) = Opcode.else_.toByte ∧ m = 1 then
        skipFrom script fuel 0 (3 * (k + 1 : Nat))
      else skipFrom script fuel (Int16.ofNat m) (3 * (k + 1 : Nat)) := by
  have hpos : ¬ Int16.ofNat m ≤ 0 := by
    rw [Int16.not_le, Int16.lt_iff_toInt_lt, Int16.toInt_ofNat_of_lt (by omega)]
    simpa using hm
  have hone : Int16.ofNat m = 1 ↔ m = 1 := by
    rw [← Int16.toInt_inj, Int16.toInt_ofNat_of_lt (by omega)]
    exact Int.ofNat_inj (n := 1)
  have hsucc : Int16.ofNat m + 1 = Int16.ofNat (m + 1) := by
    rw [Int16.ofNat_add]
    rfl
  have hpred : Int16.ofNat m - 1 = Int16.ofNat (m - 1) := by
    obtain ⟨n, rfl⟩ := Nat.exists_eq_add_of_lt hm
    simp
  have hpc : (3 * k + 3 : Int) = 3 * (k + 1 : Nat) := by omega
  simp only [skipFrom, hpos, if_false, hpc, hsucc, hpred, hone]
  rfl

/-- The scan comes from one cell to another, and the count changes accordingly. The scan has looked
at the cell it is at. -/
structure Scans (script : Script) (m k m' q : Nat) : Prop where
  le : k ≤ q
  last : k + 1 ≤ script.lastCell → q + 1 ≤ script.lastCell
  eq : ∀ fuel, skipFrom script (fuel + (q - k)) (Int16.ofNat m) (3 * k) =
    skipFrom script fuel (Int16.ofNat m') (3 * q)

theorem Scans.refl : Scans script m k m k := ⟨Nat.le_refl k, id, fun _ => by rw [Nat.sub_self]; rfl⟩

theorem Scans.trans {m' m'' q q' : Nat} (h : Scans script m k m' q) (h' : Scans script m' q m'' q') :
    Scans script m k m'' q' where
  le := Nat.le_trans h.le h'.le
  last hlast := h'.last (h.last hlast)
  eq fuel := by
    have hle := h.le
    have hle' := h'.le
    rw [← h'.eq, ← h.eq]
    congr 1
    omega

/-- The count after a cell. -/
def countAfter (op : Opcode) (m : Nat) : Nat :=
  if Opcode.opensIf op.toByte then m + 1
  else if op = .endif then m - 1
  else if op = .else_ ∧ m = 1 then 0
  else m

/-- A cell is passed, and counts if it begins or ends a block. -/
theorem Scans.cell {op : Opcode} (hm : 0 < m) (hmax : m ≤ 32767)
    (hop : script.cellAt (k + 1) = op.toByte) (hend : op ≠ .endexrail) :
    Scans script m k (countAfter op m) (k + 1) where
  le := Nat.le_succ k
  last hlast := by
    rcases Nat.lt_or_eq_of_le hlast with hlt | heq
    · exact hlt
    · exact absurd (Opcode.toByte_injective (hop.symm.trans (heq ▸ script.ends))) hend
  eq fuel := by
    have hne : ∀ op' : Opcode, op.toByte = op'.toByte ↔ op = op' := fun op' =>
      ⟨Opcode.toByte_injective, congrArg _⟩
    rw [Nat.add_sub_cancel_left, skipFrom_succ hm hmax, hop]
    simp only [hne, hend, if_false, countAfter]
    repeat' split
    all_goals rfl

/-! ## Blocks -/

theorem Scans.pads {k' : Nat} (hm : 0 < m) (hmax : m ≤ 32767) (hk : k + 1 ≤ k')
    (h : ∀ j, k < j → j < k' → script.cellAt j = Opcode.pad.toByte) :
    Scans script m k m (k' - 1) := by
  obtain ⟨n, rfl⟩ := Nat.exists_eq_add_of_le hk
  induction n with
  | zero => exact .refl
  | succ n ih =>
    refine (ih (by omega) fun j hj hlt => h j hj (by omega)).trans ?_
    have hcell : Scans script m (k + 1 + n - 1) (countAfter .pad m) (k + 1 + n - 1 + 1) :=
      Scans.cell hm hmax (h _ (by omega) (by omega)) (by decide)
    rwa [show k + 1 + n - 1 + 1 = k + 1 + (n + 1) - 1 by omega] at hcell

/-- A statement or the head of a condition. -/
theorem Scans.head {op : Opcode} {k' : Nat} (hm : 0 < m) (hmax : countAfter op m ≤ 32767)
    (hcount : m ≤ countAfter op m) (hop : script.cellAt (k + 1) = op.toByte)
    (hend : op ≠ .endexrail) (hpads : script.padded (k + 1) k') :
    Scans script m k (countAfter op m) (k' - 1) ∧ k' - 1 + 1 = k' := by
  refine ⟨(Scans.cell hm (by omega) hop hend).trans ?_, by have := hpads.1; omega⟩
  exact Scans.pads (by omega) hmax hpads.1 hpads.2

theorem countAfter_statement (s : Statement) : countAfter s.op m = m := by
  have h := s.isStatement
  simp only [Opcode.isStatement, Bool.and_eq_true, Bool.not_eq_true', bne_iff_ne] at h
  simp [countAfter, h]

theorem countAfter_condition (c : Condition) : countAfter c.op m = m + 1 := if_pos c.opens

/-- A condition is counted. -/
theorem Scans.condition (c : Condition) {k' : Nat} (hm : 0 < m) (hmax : m + 1 ≤ 32767)
    (hop : script.cellAt (k + 1) = c.op.toByte) (hpads : script.padded (k + 1) k') :
    Scans script m k (m + 1) (k' - 1) ∧ k' - 1 + 1 = k' := by
  have hcount : countAfter c.op m = m + 1 := countAfter_condition c
  have hhead := Scans.head hm (by omega) (by omega) hop c.ne_endexrail hpads
  rwa [hcount] at hhead

theorem countAfter_else (hm : m ≠ 1) : countAfter .else_ m = m := by
  simp [countAfter, hm, show Opcode.opensIf Opcode.else_.toByte = false from rfl]

/-- **A block is skipped as a whole.** The count is what it was, and the scan goes on behind it. -/
theorem Scans.placed (h : Placed script.layout b K (k + 1)) (hm : 0 < m)
    (hmax : m + b.depth ≤ 32767) : ∃ q, Scans script m k m q ∧ K (q + 1) := by
  induction b generalizing K k m with
  | done => exact ⟨k, .refl, h⟩
  | stmt s rest ih =>
    obtain ⟨k', ⟨-, hpads, hop, -⟩, hrest⟩ := h
    have hcount : countAfter s.op m = m := countAfter_statement s
    obtain ⟨hhead, hk'⟩ := Scans.head hm (by omega) (by omega) hop s.ne_endexrail hpads
    rw [hcount] at hhead
    rw [← hk'] at hrest
    obtain ⟨q, hscan, hq⟩ := ih hrest hm hmax
    exact ⟨q, hhead.trans hscan, hq⟩
  | ifThen c thens rest ihthens ih =>
    obtain ⟨k', ⟨-, hpads, hop, -⟩, hthens⟩ := h
    rw [Block.depth] at hmax
    obtain ⟨hhead, hk'⟩ := Scans.condition c hm (by omega) hop hpads
    rw [← hk'] at hthens
    obtain ⟨q, hscan, hendif, hrest⟩ := ihthens hthens (Nat.succ_pos m) (by omega)
    have hclose : Scans script (m + 1) q m (q + 1) :=
      Scans.cell (Nat.succ_pos m) (by omega) hendif (by decide)
    obtain ⟨q', hscan', hq'⟩ := ih hrest hm (by omega)
    exact ⟨q', hhead.trans (hscan.trans (hclose.trans hscan')), hq'⟩
  | ifElse c thens elses rest ihthens ihelses ih =>
    obtain ⟨k', ⟨-, hpads, hop, -⟩, hthens⟩ := h
    rw [Block.depth] at hmax
    obtain ⟨hhead, hk'⟩ := Scans.condition c hm (by omega) hop hpads
    rw [← hk'] at hthens
    obtain ⟨q, hscan, helse, helses⟩ := ihthens hthens (Nat.succ_pos m) (by omega)
    -- the ELSE of a condition inside is not the one the scan looks for
    have hmiddle : Scans script (m + 1) q (m + 1) (q + 1) := by
      have hcell : Scans script (m + 1) q (countAfter .else_ (m + 1)) (q + 1) :=
        Scans.cell (Nat.succ_pos m) (by omega) helse (by decide)
      rwa [countAfter_else (by omega)] at hcell
    obtain ⟨q₁, hscan₁, hendif, hrest⟩ := ihelses helses (Nat.succ_pos m) (by omega)
    have hclose : Scans script (m + 1) q₁ m (q₁ + 1) :=
      Scans.cell (Nat.succ_pos m) (by omega) hendif (by decide)
    obtain ⟨q', hscan', hq'⟩ := ih hrest hm (by omega)
    exact ⟨q', hhead.trans (hscan.trans (hmiddle.trans (hscan₁.trans (hclose.trans hscan')))), hq'⟩

/-- **Skipping.** From the head of a block that ends with `ENDIF`, or with `ELSE`, the scan finds this
end, and does not run out of cells. -/
theorem skipFrom_placed {k' : Nat} (hpads : script.padded k k')
    (h : Placed script.layout b K k') (hmax : b.depth < 32767) (hlast : k + 1 ≤ script.lastCell)
    (hend : ∀ q, K q →
      script.cellAt q = Opcode.endif.toByte ∨ script.cellAt q = Opcode.else_.toByte) :
    ∃ q, K q ∧ q + 1 ≤ script.lastCell ∧
      skipFrom script (script.lastCell + 2) 1 (3 * k) = some (3 * (q : Int), true) := by
  have hpadded : Scans script 1 k 1 (k' - 1) :=
    Scans.pads Nat.one_pos (by decide) hpads.1 hpads.2
  rw [← Nat.sub_add_cancel (Nat.one_le_of_lt hpads.1)] at h
  obtain ⟨q, hscan, hq⟩ := Scans.placed h Nat.one_pos (by omega)
  have hstop : ∃ op : Opcode, script.cellAt (q + 1) = op.toByte ∧ op ≠ .endexrail ∧
      countAfter op 1 = 0 := by
    rcases hend (q + 1) hq with hop | hop
    · exact ⟨_, hop, by decide, rfl⟩
    · exact ⟨_, hop, by decide, rfl⟩
  obtain ⟨op, hop, hne, hzero⟩ := hstop
  have hcell : Scans script 1 q 0 (q + 1) := hzero ▸ Scans.cell Nat.one_pos (by omega) hop hne
  have hall := hpadded.trans (hscan.trans hcell)
  refine ⟨q + 1, hq, hall.last hlast, ?_⟩
  have hle := hall.le
  have hbound := hall.last hlast
  have heq := hall.eq (script.lastCell + 2 - (q + 1 - k))
  rw [show script.lastCell + 2 - (q + 1 - k) + (q + 1 - k) = script.lastCell + 2 by omega] at heq
  rw [show (1 : Int16) = Int16.ofNat 1 from rfl, heq,
    show script.lastCell + 2 - (q + 1 - k) = script.lastCell + 1 - (q + 1 - k) + 1 by omega]
  rfl

end Exrail

end CommandStation
