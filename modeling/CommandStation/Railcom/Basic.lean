import Mathlib.Data.List.Basic

/-!
# Railcom

A loco answers the read of a CV on the main track by Railcom, through a collector that sends its
records in buffers. `Railcom` keeps what is expected: one callback, with the loco, the CV and the
time of its request.

The callbacks are of any type. `process` and `loop` give those that they call with the record or
the result they call them with. What a block record tells EXRAIL is left out.
-/

namespace CommandStation

/-- The statics of `Railcom`. -/
structure Railcom (κ : Type) where
  expectLoco : UInt16
  expectCV : UInt16
  expectWait : UInt32
  expectCallback : Option κ

namespace Railcom

variable {κ : Type}

/-- In milliseconds, as per spec. -/
def pomReadTimeout : UInt32 := 500

def init : Railcom κ := ⟨0, 0, 0, none⟩

/-- A buffer from a collector: the memory from its start on, of which `length` bytes belong to
it. -/
structure Buffer where
  memory : Nat → UInt8
  length : UInt8

/-- `ResponseType` -/
inductive ResponseType where
  | enterBlock | exitBlock | cvValue | cvValueList
  deriving DecidableEq, Repr

/-- The type bits of the first byte of a record. -/
def responseType (b : UInt8) : ResponseType :=
  if b &&& 0xC0 = 0 then .enterBlock
  else if b &&& 0xC0 = 0x80 then .exitBlock
  else if b &&& 0xC0 = 0x40 then .cvValue
  else .cvValueList

/-- A record with the value of a CV, and whether it lies in its buffer to the end. -/
structure CvValue where
  loco : UInt16
  cv : UInt16
  value : UInt8
  complete : Bool
  deriving DecidableEq, Repr

/-- Two bytes, the high one first. -/
def Buffer.word (buffer : Buffer) (i : Nat) : UInt16 :=
  (buffer.memory i).toUInt16 <<< 8 ||| (buffer.memory (i + 1)).toUInt16

/-- The CV record at `i`. -/
def Buffer.cvValue (buffer : Buffer) (i : UInt8) : CvValue where
  loco := buffer.word (i.toNat + 1)
  cv := buffer.word (i.toNat + 3)
  value := buffer.memory (i.toNat + 5)
  complete := i.toNat + 6 ≤ buffer.length.toNat

/-- `Railcom::anticipate` -/
def anticipate (loco cv : UInt16) (now : UInt32) (callback : κ) : Railcom κ where
  expectLoco := loco
  expectCV := cv
  expectWait := now
  expectCallback := some callback

/-- `turns` turns of the loop of `Railcom::process`. The index is a byte. -/
def processFrom (buffer : Buffer) : Nat → UInt8 → Railcom κ → Railcom κ × List (κ × CvValue)
  | 0, _, s => (s, [])
  | turns + 1, i, s =>
    if i < buffer.length then
      match responseType (buffer.memory i.toNat) with
      | .enterBlock | .exitBlock => processFrom buffer turns (i + 3) s
      | .cvValue =>
        let (s', called) := processFrom buffer turns (i + 6) { s with expectCallback := none }
        (s', s.expectCallback.toList.map (·, buffer.cvValue i) ++ called)
      | .cvValueList => (s, [])  -- Unknown RC Collector code
    else (s, [])

/-- `Railcom::process`, as far as `turns` turns of its loop go. -/
def process (buffer : Buffer) (turns : Nat) (s : Railcom κ) : Railcom κ × List (κ × CvValue) :=
  processFrom buffer turns 0 s

/-- `Railcom::loop`: the callback that is called with -1. -/
def loop (now : UInt32) (s : Railcom κ) : Railcom κ × Option κ :=
  if s.expectCallback.isSome ∧ pomReadTimeout < now - s.expectWait then
    ({ s with expectCallback := none }, s.expectCallback)
  else (s, none)

/-! ## What `process` does -/

/-- The first CV record that the loop comes to. -/
def Buffer.firstCvValue (buffer : Buffer) : Nat → UInt8 → Option CvValue
  | 0, _ => none
  | turns + 1, i =>
    if i < buffer.length then
      match responseType (buffer.memory i.toNat) with
      | .enterBlock | .exitBlock => buffer.firstCvValue turns (i + 3)
      | .cvValue => some (buffer.cvValue i)
      | .cvValueList => none
    else none

/-- Nobody is called while no callback is expected. -/
theorem processFrom_none (buffer : Buffer) (turns : Nat) (i : UInt8) {s : Railcom κ}
    (h : s.expectCallback = none) : processFrom buffer turns i s = (s, []) := by
  induction turns generalizing i s with
  | zero => rfl
  | succ turns ih =>
    have hsame : { s with expectCallback := none } = s := by
      cases s
      cases h
      rfl
    rw [processFrom]
    split
    · split
      · exact ih _ h
      · exact ih _ h
      · rw [hsame, ih _ h, h]
        rfl
      · rfl
    · rfl

/-- Only the first CV record matters: whoever waits is given it. -/
theorem processFrom_eq (buffer : Buffer) (turns : Nat) (i : UInt8) (s : Railcom κ) :
    processFrom buffer turns i s = match buffer.firstCvValue turns i with
      | none => (s, [])
      | some r => ({ s with expectCallback := none }, s.expectCallback.toList.map (·, r)) := by
  induction turns generalizing i with
  | zero => rfl
  | succ turns ih =>
    rw [processFrom, Buffer.firstCvValue]
    by_cases hi : i < buffer.length
    · rw [if_pos hi, if_pos hi]
      cases responseType (buffer.memory i.toNat) with
      | enterBlock => exact ih _
      | exitBlock => exact ih _
      | cvValue =>
        simp only [processFrom_none buffer turns (i + 6) (s := { s with expectCallback := none }) rfl,
          List.append_nil]
      | cvValueList => rfl
    · rw [if_neg hi, if_neg hi]

end Railcom

end CommandStation
