import CommandStation.IODevice.GPIOBase
import Mathlib.Data.List.Destutter

/-!
# Groups of sensors

EXRAIL can declare a range of pins as sensors. A group has one bit for each pin. `prepare` sets the bits
to what the pins show, and `check` broadcasts each pin that shows something else than its bit, and flips the
bit. So what the clients are told about a pin is what the checks see of it, without repetitions
(`told_changes`).

The place of a bit is computed in a `byte`, so this is about groups of up to 2048 pins. Of a larger one pins
that are 2048 apart would share their bit.
-/

namespace CommandStation

open CommandStation.Lib

/-- The arguments of `doSensorGroup`. -/
structure SensorGroup where
  firstVpin : UInt16
  nPins : Nat
  statebits : UInt8 → BitVec 8

namespace SensorGroup

def vpin (g : SensorGroup) (i : Nat) : UInt16 := g.firstVpin + UInt16.ofNat i

/-- `byte stateByte=i/8` -/
def stateByte (i : Nat) : UInt8 := UInt8.ofNat (i / 8)

/-- `byte stateMask=1<<(i%8)` -/
def stateMask (i : Nat) : BitVec 8 := 1#8 <<< (i % 8)

/-- `statebits[stateByte]&stateMask` -/
def bit (g : SensorGroup) (i : Nat) : Bool := g.statebits (stateByte i) &&& stateMask i ≠ 0

def setByte (g : SensorGroup) (stateByte : UInt8) (byte : BitVec 8) : SensorGroup :=
  { g with statebits := Function.update g.statebits stateByte byte }

/-- `GroupProcess::prepare` of one pin. -/
def preparePin (read : UInt16 → Bool) (g : SensorGroup) (i : Nat) : SensorGroup :=
  if read (g.vpin i) then g.setByte (stateByte i) (g.statebits (stateByte i) ||| stateMask i) else g

/-- `GroupProcess::check` of one pin, with what is broadcast. -/
def checkPin (read : UInt16 → Bool) (g : SensorGroup) (i : Nat) : SensorGroup × List (UInt16 × Bool) :=
  if g.bit i = read (g.vpin i) then (g, [])  -- no change
  else
    -- flip state bit
    let g := g.setByte (stateByte i) (g.statebits (stateByte i) ^^^ stateMask i)
    (g, [(g.vpin i, g.bit i)])

/-- The loop of `doSensorGroup`, for `count` pins from `i` on. -/
def prepareFrom (read : UInt16 → Bool) : Nat → Nat → SensorGroup → SensorGroup
  | 0, _, g => g
  | count + 1, i, g => prepareFrom read count (i + 1) (g.preparePin read i)

def checkFrom (read : UInt16 → Bool) : Nat → Nat → SensorGroup → SensorGroup × List (UInt16 × Bool)
  | 0, _, g => (g, [])
  | count + 1, i, g =>
    let (g, told) := g.checkPin read i
    let (g, more) := checkFrom read count (i + 1) g
    (g, told ++ more)

def prepare (g : SensorGroup) (read : UInt16 → Bool) : SensorGroup := prepareFrom read g.nPins 0 g

def check (g : SensorGroup) (read : UInt16 → Bool) : SensorGroup × List (UInt16 × Bool) :=
  checkFrom read g.nPins 0 g

/-- A group before `prepare`. -/
def new (firstVpin : UInt16) (nPins : Nat) : SensorGroup := ⟨firstVpin, nPins, fun _ => 0⟩

/-! ## The bits -/

variable {g : SensorGroup} {read : UInt16 → Bool} {i j : Nat}

theorem bit_eq (g : SensorGroup) (i : Nat) : g.bit i = (g.statebits (stateByte i)).getLsbD (i % 8) := by
  rw [bit, stateMask]
  cases hbit : (g.statebits (stateByte i)).getLsbD (i % 8) with
  | true => exact decide_eq_true ((GPIOBase.and_mask_ne_zero _ _).2 hbit)
  | false =>
    apply decide_eq_false
    rw [GPIOBase.and_mask_ne_zero, hbit]
    exact Bool.false_ne_true

/-- Up to 2048 pins the byte of a pin does not wrap. -/
theorem stateByte_inj (hi : i < 2048) (hj : j < 2048) : stateByte j = stateByte i ↔ j / 8 = i / 8 := by
  rw [stateByte, stateByte, ← UInt8.toNat_inj, UInt8.toNat_ofNat', UInt8.toNat_ofNat']
  omega

theorem bit_setByte (g : SensorGroup) (byte : BitVec 8) (hi : i < 2048) (hj : j < 2048) :
    (g.setByte (stateByte i) byte).bit j = if j / 8 = i / 8 then byte.getLsbD (j % 8) else g.bit j := by
  rw [bit_eq, bit_eq, setByte]
  by_cases hbyte : j / 8 = i / 8
  · rw [if_pos hbyte, (stateByte_inj hi hj).2 hbyte]
    exact congrArg (fun b : BitVec 8 => b.getLsbD (j % 8)) (Function.update_self ..)
  · rw [if_neg hbyte]
    exact congrArg (fun b : BitVec 8 => b.getLsbD (j % 8))
      (Function.update_of_ne (fun heq => hbyte ((stateByte_inj hi hj).1 heq)) ..)

/-- In the byte of pin `i` the mask is at the bit of that pin only. -/
theorem getLsbD_stateMask (hbyte : j / 8 = i / 8) : (stateMask i).getLsbD (j % 8) = decide (j = i) := by
  have hj : j % 8 < 8 := Nat.mod_lt _ (by decide)
  have hsame : j % 8 = i % 8 ↔ j = i := by omega
  have hmask : (1#8 <<< (i % 8)).getLsbD (j % 8) = decide (j % 8 = i % 8) := by
    rw [BitVec.getLsbD_shiftLeft, BitVec.getLsbD_one]
    grind
  rw [stateMask, hmask]
  exact decide_eq_decide.2 hsame

theorem bit_preparePin (hi : i < 2048) (hj : j < 2048) :
    (g.preparePin read i).bit j = if j = i then g.bit j || read (g.vpin i) else g.bit j := by
  unfold preparePin
  cases hread : read (g.vpin i) with
  | false => simp
  | true =>
    rw [if_pos rfl, bit_setByte _ _ hi hj]
    by_cases hbyte : j / 8 = i / 8
    · rw [if_pos hbyte, BitVec.getLsbD_or, getLsbD_stateMask hbyte, ← (stateByte_inj hi hj).2 hbyte,
        ← bit_eq]
      by_cases hj : j = i <;> simp [hj]
    · have hj : j ≠ i := fun h => hbyte (h ▸ rfl)
      rw [if_neg hbyte, if_neg hj]

/-- A check of one pin takes in its state, and leaves the bits of the others. -/
theorem bit_checkPin (hi : i < 2048) (hj : j < 2048) :
    (g.checkPin read i).1.bit j = if j = i then read (g.vpin i) else g.bit j := by
  unfold checkPin
  split
  · next hsame =>
    split
    · next hj => rw [hj, hsame]
    · rfl
  · next hne =>
    have hflip : read (g.vpin i) = !g.bit i := Bool.eq_not_of_ne (Ne.symm hne)
    show (g.setByte (stateByte i) _).bit j = _
    rw [bit_setByte _ _ hi hj, hflip]
    by_cases hbyte : j / 8 = i / 8
    · rw [if_pos hbyte, BitVec.getLsbD_xor, getLsbD_stateMask hbyte, ← (stateByte_inj hi hj).2 hbyte,
        ← bit_eq]
      by_cases hj : j = i <;> simp [hj]
    · have hj : j ≠ i := fun h => hbyte (h ▸ rfl)
      rw [if_neg hbyte, if_neg hj]

/-- The pins of a group stay. -/
def SamePins (g g' : SensorGroup) : Prop := g'.firstVpin = g.firstVpin ∧ g'.nPins = g.nPins

theorem SamePins.trans {a b c : SensorGroup} (h : SamePins a b) (h' : SamePins b c) : SamePins a c :=
  ⟨h'.1.trans h.1, h'.2.trans h.2⟩

theorem SamePins.vpin {g' : SensorGroup} (h : SamePins g g') (j : Nat) : g'.vpin j = g.vpin j := by
  rw [SensorGroup.vpin, h.1, SensorGroup.vpin]

theorem samePins_preparePin : SamePins g (g.preparePin read i) := by
  unfold preparePin
  split <;> exact ⟨rfl, rfl⟩

theorem samePins_checkPin : SamePins g (g.checkPin read i).1 := by
  unfold checkPin
  split <;> exact ⟨rfl, rfl⟩

/-- What a check of one pin broadcasts. -/
theorem told_checkPin (hi : i < 2048) : (g.checkPin read i).2 =
    if g.bit i = read (g.vpin i) then [] else [(g.vpin i, read (g.vpin i))] := by
  have hbit : (g.checkPin read i).1.bit i = read (g.vpin i) := by rw [bit_checkPin hi hi, if_pos rfl]
  unfold checkPin at *
  split
  · rfl
  · next hne =>
    rw [if_neg hne] at hbit
    exact congrArg (fun b => [(g.vpin i, b)]) hbit

/-! ## One pass over the pins -/

variable {count : Nat}

theorem bit_prepareFrom (hj : j < 2048) (hpins : i + count ≤ 2048) : (prepareFrom read count i g).bit j =
    if i ≤ j ∧ j < i + count then g.bit j || read (g.vpin j) else g.bit j := by
  induction count generalizing i g with
  | zero => simp [prepareFrom]
  | succ count ih =>
    rw [prepareFrom, ih (by omega), bit_preparePin (by omega) hj, samePins_preparePin.vpin]
    grind

theorem bit_checkFrom (hj : j < 2048) (hpins : i + count ≤ 2048) : (checkFrom read count i g).1.bit j =
    if i ≤ j ∧ j < i + count then read (g.vpin j) else g.bit j := by
  induction count generalizing i g with
  | zero => simp [checkFrom]
  | succ count ih =>
    show (checkFrom read count (i + 1) (g.checkPin read i).1).1.bit j = _
    rw [ih (by omega), bit_checkPin (by omega) hj, samePins_checkPin.vpin]
    grind

/-- What a pass broadcasts about a pin. -/
theorem told_checkFrom (hj : j < 2048) (hpins : i + count ≤ 2048) :
    (checkFrom read count i g).2.filter (·.1 = g.vpin j) =
      if i ≤ j ∧ j < i + count ∧ g.bit j ≠ read (g.vpin j) then [(g.vpin j, read (g.vpin j))] else [] := by
  induction count generalizing i g with
  | zero =>
    rw [if_neg (by omega)]
    rfl
  | succ count ih =>
    have hrest := ih (i := i + 1) (g := (g.checkPin read i).1) (by omega)
    rw [samePins_checkPin.vpin, bit_checkPin (by omega) hj] at hrest
    show ((g.checkPin read i).2 ++ (checkFrom read count (i + 1) (g.checkPin read i).1).2).filter _ = _
    rw [List.filter_append, hrest, told_checkPin (by omega)]
    by_cases hij : j = i
    · subst hij
      by_cases hsame : g.bit j = read (g.vpin j) <;> simp [hsame]
    · have hne : g.vpin i ≠ g.vpin j := fun h => hij (GPIOBase.vpin_inj (by omega) (by omega) h.symm)
      have hnone : List.filter (·.1 = g.vpin j)
          (if g.bit i = read (g.vpin i) then [] else [(g.vpin i, read (g.vpin i))]) = [] := by
        split
        · rfl
        · exact List.filter_cons_of_neg (by simpa using hne)
      rw [hnone, List.nil_append, if_neg hij]
      grind

theorem samePins_prepareFrom : SamePins g (prepareFrom read count i g) := by
  induction count generalizing i g with
  | zero => exact ⟨rfl, rfl⟩
  | succ count ih => exact samePins_preparePin.trans ih

theorem samePins_checkFrom : SamePins g (checkFrom read count i g).1 := by
  induction count generalizing i g with
  | zero => exact ⟨rfl, rfl⟩
  | succ count ih => exact samePins_checkPin.trans ih

/-! ## Runs -/

/-- Everything that is broadcast when the pins are checked again and again. -/
def broadcasts : SensorGroup → List (UInt16 → Bool) → List (UInt16 × Bool)
  | _, [] => []
  | g, read :: reads => (g.check read).2 ++ broadcasts (g.check read).1 reads

/-- What was broadcast about a vpin. -/
def about (vpin : UInt16) (told : List (UInt16 × Bool)) : List Bool :=
  (told.filter (·.1 = vpin)).map Prod.snd

/-- What is broadcast of a pin is its readings, with repetitions left out. -/
theorem about_broadcasts (hpins : g.nPins ≤ 2048) (hj : j < g.nPins) (reads : List (UInt16 → Bool)) :
    g.bit j :: about (g.vpin j) (g.broadcasts reads) =
      (reads.map fun read => read (g.vpin j)).destutter' (· ≠ ·) (g.bit j) := by
  induction reads generalizing g with
  | nil => rfl
  | cons read reads ih =>
    have hsame : SamePins g (g.check read).1 := samePins_checkFrom
    have hvpin := hsame.vpin j
    have hcount := hsame.2
    have hbit : (g.check read).1.bit j = read (g.vpin j) := by
      rw [check, bit_checkFrom (by omega) (by omega), if_pos (by omega)]
    have htold : about (g.vpin j) (g.check read).2 =
        if g.bit j ≠ read (g.vpin j) then [read (g.vpin j)] else [] := by
      rw [about, check, told_checkFrom (by omega) (by omega)]
      by_cases hsame : g.bit j = read (g.vpin j) <;> simp [hsame, hj]
    have hrest := ih (g := (g.check read).1) (by omega) (by omega)
    rw [hvpin, hbit] at hrest
    have hsplit : about (g.vpin j) (g.broadcasts (read :: reads)) =
        about (g.vpin j) (g.check read).2 ++ about (g.vpin j) ((g.check read).1.broadcasts reads) := by
      rw [broadcasts, about, List.filter_append, List.map_append]
      rfl
    rw [hsplit, htold, List.map_cons]
    by_cases hsame : g.bit j = read (g.vpin j)
    · rw [List.destutter'_cons_neg _ (not_not.2 hsame), if_neg (not_not.2 hsame), hsame]
      exact hrest
    · rw [List.destutter'_cons_pos _ hsame, if_pos hsame, ← hrest]
      rfl

/-- **What the clients are told.** For each pin of a group, what it showed at the start and what is
broadcast about it after that is what it showed at the start and in the checks, without repetitions. -/
theorem told_changes (firstVpin : UInt16) {nPins : Nat} (hpins : nPins ≤ 2048) (read : UInt16 → Bool)
    (reads : List (UInt16 → Bool)) {j : Nat} (hj : j < nPins) :
    let v := firstVpin + UInt16.ofNat j
    read v :: about v (((new firstVpin nPins).prepare read).broadcasts reads) =
      (read v :: reads.map fun read => read v).destutter (· ≠ ·) := by
  intro v
  have hsame : SamePins (new firstVpin nPins) ((new firstVpin nPins).prepare read) := samePins_prepareFrom
  have hvpin : ((new firstVpin nPins).prepare read).vpin j = v := hsame.vpin j
  have hcount : ((new firstVpin nPins).prepare read).nPins = nPins := hsame.2
  have hclear : (new firstVpin nPins).bit j = false := by simp [bit_eq, new]
  have hbit : ((new firstVpin nPins).prepare read).bit j = read v := by
    have hplace : 0 ≤ j ∧ j < 0 + (new firstVpin nPins).nPins := ⟨Nat.zero_le j, by rw [Nat.zero_add]; exact hj⟩
    rw [prepare, bit_prepareFrom (by omega) (by rw [Nat.zero_add]; exact hpins), hclear, if_pos hplace]
    rfl
  have hin : j < ((new firstVpin nPins).prepare read).nPins := by rwa [hcount]
  have hall := about_broadcasts (hcount.trans_le hpins) hin reads
  rw [hvpin, hbit] at hall
  exact hall

/-- Two pins of one byte, of which both change. -/
theorem told_changes_two :
    let v := (100 : UInt16) + UInt16.ofNat 9
    let start : UInt16 → Bool := fun vpin => vpin = 108
    let reads : List (UInt16 → Bool) := [fun _ => true, fun vpin => vpin = 109, fun vpin => vpin = 108]
    false :: about v (((new 100 10).prepare start).broadcasts reads) =
        (false :: reads.map fun read => read v).destutter (· ≠ ·) ∧
      about v (((new 100 10).prepare start).broadcasts reads) = [true, false] := by
  intro v start reads
  have htold := told_changes 100 (show 10 ≤ 2048 by decide) start reads (show 9 < 10 by decide)
  exact ⟨htold, (List.cons.inj htold).2⟩

end SensorGroup

end CommandStation
