import CommandStation.DCCDecoder.Spec
import CommandStation.Lib.Framing
import Mathlib.Tactic.IntervalCases

/-!
# What one station sends another one follows

The packets that `setThrottleDCC`, `issueReminder` and `setAccessory` build are given their checksum
and sniffed by a second station. The decoder there puts together what the encoder took apart: the
two bytes of a long address, the light in bit 4 of function group 1, the two nibbles of the groups
above F12, the complemented address bits of an accessory. It also leaves out what it takes for a
repetition, which on a slot that has just been created means nothing is lost.
-/

namespace CommandStation

open CommandStation.Lib LocoTable

variable {F : Fault → Prop} {s s₀ : Station} {xs ys : List Addr} {a : Addr} {locoId : UInt16}

/-! ## Function bits -/

namespace DCC

/-- The functions of a slot after one of them was set. -/
theorem functions_withFunction (f : UInt16) (on : Bool) (slot : LocoSlot) :
    (withFunction f on slot).functions =
      if on then slot.functions ||| 1 <<< f.toUInt32
      else slot.functions &&& ~~~(1 <<< f.toUInt32) := by
  unfold withFunction
  extract_lets funcmask newset
  split
  · next hsame => exact hsame.symm
  · split <;> rfl

theorem bit_withFunction {f : UInt16} (hf : f.toNat < 32) (on : Bool) (slot : LocoSlot)
    {j : Nat} (hj : j < 32) : (withFunction f on slot).functions.toBitVec.getLsbD j =
      if j = f.toNat then on else slot.functions.toBitVec.getLsbD j := by
  have hmod : f.toNat % 32 = f.toNat := Nat.mod_eq_of_lt hf
  rw [functions_withFunction]
  cases on with
  | true =>
    simp [hmod, hj]
    grind
  | false =>
    simp [hmod, hj]
    grind

/-- What `funcmap` makes of a slot: functions `i` to `i + n - 1` from the bits of `value`. -/
def withFunctions (i : Nat) : Nat → UInt8 → LocoSlot → LocoSlot
  | 0, _, slot => slot
  | n + 1, value, slot =>
    withFunctions (i + 1) n (value >>> 1) (withFunction (UInt16.ofNat i) (value &&& 1 != 0) slot)

/-- The functions of a group are set, and all the others are kept. -/
theorem bit_withFunctions {i n : Nat} (hn : i + n ≤ 32) (value : UInt8) (slot : LocoSlot)
    {j : Nat} (hj : j < 32) : (withFunctions i n value slot).functions.toBitVec.getLsbD j =
      if i ≤ j ∧ j < i + n then value.toBitVec.getLsbD (j - i)
      else slot.functions.toBitVec.getLsbD j := by
  induction n generalizing i value slot with
  | zero =>
    rw [withFunctions, if_neg (by omega)]
  | succ n ih =>
    have hi : (UInt16.ofNat i).toNat = i := by
      rw [UInt16.toNat_ofNat']
      exact Nat.mod_eq_of_lt (by omega)
    have hbit : (value &&& 1 != 0) = value.toBitVec.getLsbD 0 := by
      have hzero : value &&& 1 = 0 ↔ value.toBitVec.getLsbD 0 = false := by
        rw [← UInt8.toNat_inj]
        simp [BitVec.getLsbD]
      grind
    rw [withFunctions, ih (by omega), bit_withFunction (by omega) _ _ hj, hi, hbit]
    by_cases hin : i + 1 ≤ j ∧ j < i + 1 + n
    · rw [if_pos hin, if_pos (by omega)]
      simp only [UInt8.toBitVec_shiftRight, BitVec.ushiftRight_eq', BitVec.getLsbD_ushiftRight]
      congr 1
      simp
      omega
    · rw [if_neg hin]
      by_cases hji : j = i
      · rw [if_pos hji, if_pos (by omega), hji, Nat.sub_self]
      · rw [if_neg hji, if_neg (by omega)]

/-- Functions and group flags apart, nothing in the slot changes. -/
theorem withFunctions_eq (i n : Nat) (value : UInt8) (slot : LocoSlot) :
    withFunctions i n value slot = { slot with
      functions := (withFunctions i n value slot).functions
      groupFlags := (withFunctions i n value slot).groupFlags } := by
  have hone : ∀ (f : UInt16) (on : Bool) (slot : LocoSlot), withFunction f on slot = { slot with
      functions := (withFunction f on slot).functions
      groupFlags := (withFunction f on slot).groupFlags } := by
    intro f on slot
    unfold withFunction
    extract_lets funcmask newset
    split
    · rfl
    · split <;> rfl
  induction n generalizing i value slot with
  | zero => rfl
  | succ n ih =>
    rw [withFunctions, ih]
    rw [hone]

end DCC

/-! ## Instructions for a loco that has a slot -/

/-- The station with another content of slot `a`. -/
def Station.put (s : Station) (a : Addr) (slot : LocoSlot) : Station :=
  { s with locos := s.locos.write a slot }

namespace Station

@[simp] theorem mem_put (s : Station) (a : Addr) (slot : LocoSlot) :
    (s.put a slot).locos.mem a = slot := LocoTable.mem_write_self ..

@[simp] theorem put_put (s : Station) (a : Addr) (slot slot' : LocoSlot) :
    (s.put a slot).put a slot' = s.put a slot' := by
  rw [put, put, put]
  simp only [LocoTable.write_write]

@[simp] theorem put_mem (s : Station) (a : Addr) : s.put a (s.locos.mem a) = s := by
  rw [put, LocoTable.write, Function.update_eq_self]

theorem lists_put (h : Lists s.locos xs ys) {slot : LocoSlot}
    (hslot : slot.place = (s.locos.mem a).place) : Lists (s.put a slot).locos xs ys :=
  (Retuned.write _ a _ hslot).lists h

theorem wp_put (h : Lists s.locos xs ys) (ha : a ∈ xs) {f : LocoSlot → LocoSlot}
    {Q : Unit → Station → Prop} :
    wp F (onSlots (writeSlot a f)) Q s ↔ Q () (s.put a (f (s.locos.mem a))) :=
  wp_write (h.live_inUse ha)

end Station

open Station

/-- The slot of a loco that has one is found. -/
theorem wp_ownSlot (h : Lists s.locos xs ys) (ha : a ∈ xs) (hid : (s.locos.mem a).loco = locoId)
    {autoCreate : Bool} {Q : Option Addr → Station → Prop} (hQ : Q (some a) s) :
    wp F (onSlots (LocoSlot.getSlot locoId autoCreate)) Q s := by
  rw [wp_onSlots]
  refine wp_mono (getSlot_spec h locoId autoCreate) ?_
  intro r t' hr
  cases hr with
  | zero h0 => exact absurd (hid.trans h0) (h.nonzero a ha)
  | found _ hb hbid =>
    rw [h.loco_inj hb ha (hbid.trans hid.symm)]
    exact hQ
  | unknown _ hno _ => exact absurd hid (hno a ha)
  | full _ hno _ _ => exact absurd hid (hno a ha)
  | created _ hno _ _ _ => exact absurd hid (hno a ha)

/-- `getSlot` gives slot `a` for the loco, new or not, and leaves the station `s`. -/
def Gets (s₀ : Station) (locoId : UInt16) (a : Addr) (s : Station) : Prop :=
  onSlots (LocoSlot.getSlot locoId true) s₀ = .ok (some a, s)

theorem gets_own (h : Lists s.locos xs ys) (ha : a ∈ xs) (hid : (s.locos.mem a).loco = locoId) :
    Gets s locoId a s := by
  have hown : wp (fun _ => False) (onSlots (LocoSlot.getSlot locoId true))
      (fun r s' => r = some a ∧ s' = s) s := wp_ownSlot h ha hid ⟨rfl, rfl⟩
  obtain ⟨_, _, hget, rfl, rfl⟩ := wp_iff_exists.mp hown
  exact hget

/-- Only the loco table has changed. -/
theorem Gets.locos (h : Gets s₀ locoId a s) :
    LocoSlot.getSlot locoId true s₀.locos = .ok (some a, s.locos) ∧
      s = { s₀ with locos := s.locos } := by
  unfold Gets onSlots zoom at h
  split at h
  · next r t' hget =>
    cases h
    exact ⟨hget, rfl⟩
  · cases h

namespace DCC

/-- `setFn` for a loco with a slot sets the function in this slot. -/
theorem wp_setFn_own (h : Lists s.locos xs ys) (ha : a ∈ xs) {cab : Int} (hcab : 0 < cab)
    (hid : (s.locos.mem a).loco = UInt16.ofInt cab) {i : Nat} (hi : i ≤ 28) {on : Bool}
    {Q : Bool → Station → Prop}
    (hQ : Q true (s.put a (withFunction (UInt16.ofNat i) on (s.locos.mem a)))) :
    wp F (setFn cab (Int16.ofNat i) on) Q s := by
  have hf : (Int16.ofNat i).toUInt16 = UInt16.ofNat i := rfl
  have hi' : (UInt16.ofNat i).toNat = i := by
    rw [UInt16.toNat_ofNat']
    exact Nat.mod_eq_of_lt (by omega)
  have hpos : ¬ Int16.ofNat i < 0 := by
    rw [Int16.lt_iff_toInt_lt, Int16.toInt_ofNat_of_lt (by omega)]
    exact Int.not_lt.mpr (Int.natCast_nonneg i)
  have h28 : ¬ 28 < UInt16.ofNat i := by
    rw [UInt16.lt_iff_toNat_lt, hi']
    exact Nat.not_lt.mpr hi
  have h31 : ¬ 31 < UInt16.ofNat i := by
    rw [UInt16.lt_iff_toNat_lt, hi']
    exact Nat.not_lt.mpr (Nat.le_trans hi (by decide))
  simp only [setFn, hf, h31, hpos, Int.not_le.mpr hcab, or_self, if_false, wp_bind]
  apply wp_when
  · intro hno
    exact absurd hno h28
  · intro _
    refine wp_ownSlot h ha hid ?_
    simp only [wp_bind]
    rw [wp_put h ha]
    exact hQ

/-- **`funcmap`** sets the functions one after the other. -/
theorem wp_funcmapFrom_own (h : Lists s.locos xs ys) (ha : a ∈ xs) {cab : Int16}
    (hcab : 0 < cab.toInt) (hid : (s.locos.mem a).loco = UInt16.ofInt cab.toInt) {i n : Nat}
    (hn : i + n ≤ 29) {value : UInt8} {Q : Bool → Station → Prop}
    (hQ : Q true (s.put a (withFunctions i n value (s.locos.mem a)))) :
    wp F (DCCEXParser.funcmapFrom cab (Int16.ofNat i) n value) Q s := by
  induction n generalizing s i value with
  | zero =>
    rw [withFunctions, put_mem] at hQ
    exact hQ
  | succ n ih =>
    rw [DCCEXParser.funcmapFrom, wp_bind]
    apply wp_setFn_own h ha hcab hid (by omega)
    have hnext : Int16.ofNat i + 1 = Int16.ofNat (i + 1) := by
      rw [Int16.ofNat_add]
      rfl
    rw [if_pos rfl, hnext]
    apply ih (lists_put h (place_withFunction _ _ _)) _ (by omega)
    · rw [put_put, mem_put]
      exact hQ
    · rw [mem_put]
      have hplace := congrArg LocoSlot.loco
        (place_withFunction (UInt16.ofNat i) (value &&& 1 != 0) (s.locos.mem a))
      exact hplace.trans hid

end DCC

namespace DCCDecoder

/-- A group packet sets its functions, where F0 is the fifth bit of the first group. -/
theorem bit_putFunctions (previous : UInt32) (func : UInt8) {shift : Nat} (hshift : 1 ≤ shift)
    (hshift' : shift ≤ 28) {j : Nat} (hj : j < 32) :
    (putFunctions previous func shift).toBitVec.getLsbD j =
      if shift ≤ j ∧ j < shift + 4 then func.toBitVec.getLsbD (j - shift)
      else if shift = 1 ∧ j = 0 then func.toBitVec.getLsbD 4
      else previous.toBitVec.getLsbD j := by
  have hmod : shift % 4294967296 % 32 = shift := by omega
  have hfour : ∀ k : Fin 32, (15#32).getLsbD k = decide (k.val < 4) := by decide
  unfold putFunctions
  by_cases h1 : shift = 1
  · subst h1
    have hlight : ∀ k : Fin 32, (4294967294#32).getLsbD k = !decide (k.val = 0) := by decide
    have hgroup : ∀ k : Fin 32, (4294967265#32).getLsbD k = !decide (1 ≤ k.val ∧ k.val < 5) := by
      decide
    have := hlight ⟨j, hj⟩
    have := hgroup ⟨j, hj⟩
    have := hfour ⟨j - 1, by omega⟩
    simp [hj, -BitVec.getLsbD_eq_getElem]
    grind
  · have := hfour ⟨j - shift, by omega⟩
    simp [h1, hmod, hj, -BitVec.getLsbD_eq_getElem]
    grind

/-- Two words with the same bits. -/
theorem eq_of_bits {x y : UInt32} (h : ∀ j < 32, x.toBitVec.getLsbD j = y.toBitVec.getLsbD j) :
    x = y :=
  UInt32.toBitVec_inj.mp (BitVec.eq_of_getLsbD_eq h)

/-- The four functions from `shift` on: the sniffer and `funcmap` agree. -/
theorem merge_nibble {shift : Nat} (hshift : 5 ≤ shift) (hshift' : shift ≤ 28) (func : UInt8)
    (slot : LocoSlot) :
    (DCC.withFunctions shift 4 func slot).functions = putFunctions slot.functions func shift := by
  apply eq_of_bits
  intro j hj
  rw [DCC.bit_withFunctions (by omega) _ _ hj, bit_putFunctions _ _ (by omega) hshift' hj]
  have h1 : ¬ (shift = 1 ∧ j = 0) := by omega
  rw [if_neg h1]

/-- The functions F0 to F4, where the light is bit 4 of the instruction. -/
theorem merge_light (instr0 : UInt8) (slot : LocoSlot) :
    (DCC.withFunctions 0 5 (normalized instr0) slot).functions =
      putFunctions slot.functions instr0 1 := by
  apply eq_of_bits
  intro j hj
  rw [DCC.bit_withFunctions (by omega) _ _ hj, bit_putFunctions _ _ (by omega) (by omega) hj]
  have hbits : ∀ instr0 : UInt8, ∀ k < 5, (normalized instr0).toBitVec.getLsbD k =
      if k = 0 then instr0.toBitVec.getLsbD 4 else instr0.toBitVec.getLsbD (k - 1) :=
    byte_forall (by decide +kernel)
  by_cases hin : j < 5
  · rw [if_pos (by omega), Nat.sub_zero, hbits instr0 j hin]
    by_cases h0 : j = 0
    · simp [h0]
    · simp [h0]
      grind
  · rw [if_neg (by omega), if_neg (by omega), if_neg (by omega)]

/-- The sniffed functions and those of the loco are `functions`; nothing else changes but the group
flags. -/
def Sniffed (functions : UInt32) (slot slot' : LocoSlot) : Prop :=
  slot' = { slot with
    functions := functions, snifferFunctions := functions, groupFlags := slot'.groupFlags }

theorem Sniffed.refl {slot : LocoSlot} (h : slot.snifferFunctions = slot.functions) :
    Sniffed slot.functions slot slot := by
  rw [Sniffed, ← h]
  cases slot
  simp_all

/-- The updates of the sniffer, for a loco that gets a slot. -/
theorem wp_update_own (h : Lists s.locos xs ys) (ha : a ∈ xs)
    (hgets : Gets s₀ locoId a s) {same : LocoSlot → Prop}
    [∀ slot, Decidable (same slot)] {f : LocoSlot → LocoSlot} {Q : Bool → Station → Prop}
    (hsame : same (s.locos.mem a) → Q false s)
    (hnew : ¬ same (s.locos.mem a) → Q true (s.put a (f (s.locos.mem a)))) :
    wp F (onSlots do
      let slot ← LocoSlot.getSlot locoId true
      let a ← nonNull slot
      let slot ← readSlot a
      if same slot then pure false
      else
        writeSlot a f
        pure true) Q s₀ := by
  obtain ⟨hget, hrest⟩ := hgets.locos
  have hget' : ∀ {Q : Option Addr → LocoTable → Prop},
      wp F (LocoSlot.getSlot locoId true) Q s₀.locos ↔ Q (some a) s.locos := by
    intro Q
    rw [wp, hget]
  have hput : ∀ t, { s₀ with locos := t } = { s with locos := t } := by
    intro t
    rw [hrest]
  have hlive := h.live_inUse ha
  simp only [wp_onSlots, wp_bind, hget', nonNull, wp_pure, hput]
  rw [wp_readSlot hlive]
  split
  · next hyes => exact hsame hyes
  · next hno =>
    rw [wp_bind, wp_writeSlot hlive]
    exact hnew hno

/-- A loco id is the same number as an `int16_t`. -/
theorem toInt_toInt16 (h : locoId.toNat < 32768) : locoId.toInt16.toInt = locoId.toNat :=
  BitVec.toInt_eq_toNat_of_lt (show 2 * locoId.toNat < 2 ^ 16 by omega)

/-- A function instruction for a loco whose functions are those last sniffed. -/
theorem wp_functionChange_own (h : Lists s.locos xs ys) (ha : a ∈ xs)
    (hlow : locoId.toNat < 32768) (hid : (s.locos.mem a).loco = locoId)
    (hgets : Gets s₀ locoId a s)
    (hsame : (s.locos.mem a).snifferFunctions = (s.locos.mem a).functions)
    {func value fstart fstop : UInt8} {shift : Nat} (hstop : fstart ≤ fstop ∧ fstop ≤ 28)
    (hmerge : ∀ slot, (DCC.withFunctions fstart.toNat (fstop.toNat + 1 - fstart.toNat) value
      slot).functions = putFunctions slot.functions func shift) {Q : Bool → Station → Prop}
    (hQ : ∀ changed slot, Sniffed (putFunctions (s.locos.mem a).functions func shift)
      (s.locos.mem a) slot → Q changed (s.put a slot)) :
    wp F (functionChange locoId func shift value fstart fstop) Q s₀ := by
  rw [functionChange, wp_bind]
  apply wp_update_own h ha hgets
  · -- nothing new was sniffed: the functions are there already
    intro heq
    rw [hsame] at heq
    have hput := hQ false (s.locos.mem a) (by rw [heq]; exact Sniffed.refl hsame)
    rw [put_mem] at hput
    exact hput
  · intro _
    have hstop' : fstart.toNat ≤ fstop.toNat ∧ fstop.toNat ≤ 28 := hstop
    have hzero : locoId.toNat ≠ 0 := by
      intro h0
      exact h.nonzero a ha (hid.trans (UInt16.toNat_inj.mp h0))
    have hcab : UInt16.ofInt locoId.toInt16.toInt = locoId := by
      have hmod : ((locoId.toNat : Int) % 2 ^ 16).toNat = locoId.toNat := by omega
      rw [toInt_toInt16 hlow, UInt16.ofInt, hmod]
      exact UInt16.ofNat_toNat
    rw [if_pos rfl, wp_bind, DCCEXParser.funcmap]
    refine DCC.wp_funcmapFrom_own (lists_put h ?_) ha ?_ ?_ ?_ ?_
    · rfl
    · rw [toInt_toInt16 hlow]
      omega
    · rw [mem_put, hcab]
      exact hid
    · omega
    · rw [put_put, mem_put]
      apply hQ
      rw [Sniffed, DCC.withFunctions_eq, hmerge, hsame]

/-! ### Function groups -/

/-- The function group that function `j` belongs to. -/
def groupOf (j : Nat) : Nat :=
  if j ≤ 4 then 1 else if j ≤ 8 then 2 else if j ≤ 12 then 3 else if j ≤ 20 then 4 else 5

/-- The functions after those of a group have been taken over from `f`. -/
def Merged (group : Nat) (f previous functions : UInt32) : Prop :=
  ∀ j < 32, functions.toBitVec.getLsbD j =
    if j ≤ 28 ∧ groupOf j = group then f.toBitVec.getLsbD j else previous.toBitVec.getLsbD j

theorem bit_functionByte_light (f : UInt32) {k : Nat} (hk : k < 5) :
    (DCC.functionByte f 1).toBitVec.getLsbD k =
      f.toBitVec.getLsbD (if k = 4 then 0 else k + 1) := by
  interval_cases k <;> simp [DCC.functionByte, DCC.bits]

theorem bit_functionByte_low (f : UInt32) {k : Nat} (hk : k < 4) :
    (DCC.functionByte f 2).toBitVec.getLsbD k = f.toBitVec.getLsbD (5 + k) ∧
    (DCC.functionByte f 3).toBitVec.getLsbD k = f.toBitVec.getLsbD (9 + k) := by
  interval_cases k <;> simp [DCC.functionByte, DCC.bits]

/-- The two nibbles of the groups above F12. -/
theorem bit_functionByte_high (f : UInt32) {k : Nat} (hk : k < 4) :
    (DCC.functionByte f 4).toBitVec.getLsbD k = f.toBitVec.getLsbD (13 + k) ∧
    (DCC.functionByte f 4 >>> 4).toBitVec.getLsbD k = f.toBitVec.getLsbD (17 + k) ∧
    (DCC.functionByte f 5).toBitVec.getLsbD k = f.toBitVec.getLsbD (21 + k) ∧
    (DCC.functionByte f 5 >>> 4).toBitVec.getLsbD k = f.toBitVec.getLsbD (25 + k) := by
  interval_cases k <;> simp [DCC.functionByte]

theorem byte_eq_of_bits {x y : UInt8} (h : ∀ j < 8, x.toBitVec.getLsbD j = y.toBitVec.getLsbD j) :
    x = y :=
  UInt8.toBitVec_inj.mp (BitVec.eq_of_getLsbD_eq h)

/-- The bits by which the decoder tells the first three groups. -/
theorem groupBits_functionByte (f : UInt32) :
    DCC.functionByte f 1 &&& 0xE0 = 0x80 ∧
    DCC.functionByte f 2 &&& 0xE0 = 0xA0 ∧ DCC.functionByte f 2 &&& 0x10 = 0x10 ∧
    DCC.functionByte f 3 &&& 0xE0 = 0xA0 ∧ DCC.functionByte f 3 &&& 0x10 = 0 := by
  refine ⟨?_, ?_, ?_, ?_, ?_⟩
  all_goals
    apply byte_eq_of_bits
    intro i hi
    interval_cases i <;> simp [DCC.functionByte, DCC.bits]

theorem merged_light (f previous : UInt32) :
    Merged 1 f previous (putFunctions previous (DCC.functionByte f 1) 1) := by
  intro j hj
  rw [bit_putFunctions _ _ (by omega) (by omega) hj]
  have hgroup : (j ≤ 28 ∧ groupOf j = 1) ↔ j ≤ 4 := by grind [groupOf]
  by_cases h0 : j = 0
  · subst h0
    rw [if_neg (by omega), if_pos (by omega), if_pos (by decide), bit_functionByte_light f (by omega)]
    rfl
  by_cases h4 : j ≤ 4
  · rw [if_pos (by omega), if_pos (hgroup.mpr h4), bit_functionByte_light f (by omega),
      if_neg (by omega), Nat.sub_add_cancel (by omega)]
  · rw [if_neg (by omega), if_neg (by omega), if_neg (hgroup.not.mpr h4)]

/-- A nibble that carries the functions from `shift` on. -/
theorem bit_putNibble {f previous : UInt32} {func : UInt8} {shift : Nat} (hshift : 5 ≤ shift)
    (hshift' : shift ≤ 28)
    (hfunc : ∀ k < 4, func.toBitVec.getLsbD k = f.toBitVec.getLsbD (shift + k)) {j : Nat}
    (hj : j < 32) : (putFunctions previous func shift).toBitVec.getLsbD j =
      if shift ≤ j ∧ j < shift + 4 then f.toBitVec.getLsbD j
      else previous.toBitVec.getLsbD j := by
  rw [bit_putFunctions _ _ (by omega) hshift' hj]
  by_cases hin : shift ≤ j ∧ j < shift + 4
  · rw [if_pos hin, if_pos hin, hfunc _ (by omega), Nat.add_sub_cancel' hin.1]
  · rw [if_neg hin, if_neg hin, if_neg (by omega)]

theorem merged_nibble {f previous : UInt32} {func : UInt8} {group shift : Nat}
    (hshift : 5 ≤ shift) (hshift' : shift ≤ 28)
    (hfunc : ∀ k < 4, func.toBitVec.getLsbD k = f.toBitVec.getLsbD (shift + k))
    (hgroup : ∀ j, j ≤ 28 ∧ groupOf j = group ↔ shift ≤ j ∧ j < shift + 4) :
    Merged group f previous (putFunctions previous func shift) := by
  intro j hj
  rw [bit_putNibble hshift hshift' hfunc hj]
  simp only [hgroup j]

/-- A packet with eight functions of a group sets these eight, in two parts. -/
theorem merged_byte {f previous : UInt32} {func : UInt8} {group shift : Nat}
    (hshift : 5 ≤ shift) (hshift' : shift ≤ 24)
    (hlow : ∀ k < 4, func.toBitVec.getLsbD k = f.toBitVec.getLsbD (shift + k))
    (hhigh : ∀ k < 4, (func >>> 4).toBitVec.getLsbD k = f.toBitVec.getLsbD (shift + 4 + k))
    (hgroup : ∀ j, j ≤ 28 ∧ groupOf j = group ↔ shift ≤ j ∧ j < shift + 8) :
    Merged group f previous
      (putFunctions (putFunctions previous func shift) (func >>> 4) (shift + 4)) := by
  intro j hj
  rw [bit_putNibble (by omega) (by omega) hhigh hj, bit_putNibble hshift (by omega) hlow hj]
  simp only [hgroup j]
  by_cases hin : shift + 4 ≤ j ∧ j < shift + 4 + 4
  · rw [if_pos hin, if_pos (by omega)]
  · rw [if_neg hin]
    by_cases hin' : shift ≤ j ∧ j < shift + 4
    · rw [if_pos hin', if_pos (by omega)]
    · rw [if_neg hin', if_neg (by omega)]

/-- A group of eight functions: the second nibble finds the slot as the first one left it. -/
theorem wp_functionChange_byte (h : Lists s.locos xs ys) (ha : a ∈ xs) (hlow : locoId.toNat < 32768)
    (hid : (s.locos.mem a).loco = locoId) (hgets : Gets s₀ locoId a s)
    (hsame : (s.locos.mem a).snifferFunctions = (s.locos.mem a).functions)
    {func fstart fstop fstart' fstop' : UInt8} {shift : Nat} (hshift : 5 ≤ shift)
    (hstop : fstart ≤ fstop ∧ fstop ≤ 28) (hstop' : fstart' ≤ fstop' ∧ fstop' ≤ 28)
    (hn : fstart.toNat = shift ∧ fstop.toNat + 1 - fstart.toNat = 4)
    (hn' : fstart'.toNat = shift + 4 ∧ fstop'.toNat + 1 - fstart'.toNat = 4)
    {Q : Bool → Station → Prop}
    (hQ : ∀ changed slot, Sniffed (putFunctions (putFunctions (s.locos.mem a).functions func shift)
      (func >>> 4) (shift + 4)) (s.locos.mem a) slot → Q changed (s.put a slot)) :
    wp F (do
      let _ ← functionChange locoId func shift func fstart fstop
      functionChange locoId (func >>> 4) (shift + 4) (func >>> 4) fstart' fstop') Q s₀ := by
  have hle : fstop'.toNat ≤ 28 := hstop'.2
  rw [wp_bind]
  apply wp_functionChange_own h ha hlow hid hgets hsame hstop
  · intro slot
    rw [hn.2, hn.1]
    exact merge_nibble hshift (by omega) func slot
  · intro _ slot hslot
    have hplace : slot.place = (s.locos.mem a).place := by
      rw [hslot]
      rfl
    have hid' : ((s.put a slot).locos.mem a).loco = locoId := by
      rw [mem_put, hslot]
      exact hid
    apply wp_functionChange_own (lists_put h hplace) ha hlow hid'
    · exact gets_own (lists_put h hplace) ha hid'
    · rw [mem_put, hslot]
    · exact hstop'
    · intro slot
      rw [hn'.2, hn'.1]
      exact merge_nibble (by omega) (by omega) _ slot
    · intro changed slot' hslot'
      rw [put_put]
      rw [mem_put, hslot] at hslot'
      exact hQ changed slot' hslot'

/-- The instruction that the reminder of a function group sends, and its data byte. -/
def instruction (group : Nat) (f : UInt32) : UInt8 :=
  if group ≤ 3 then DCC.functionByte f group else DCC.functionInstruction group

/-- **A function group** is taken over by a loco whose functions are those last sniffed. -/
theorem wp_mobile_functions (h : Lists s.locos xs ys) (ha : a ∈ xs)
    (hlow : locoId.toNat < 32768) (hid : (s.locos.mem a).loco = locoId)
    (hgets : Gets s₀ locoId a s)
    (hsame : (s.locos.mem a).snifferFunctions = (s.locos.mem a).functions) {group : Nat}
    (hgroup : 1 ≤ group ∧ group ≤ 5) (f : UInt32) {instr1 : UInt8}
    (hinstr1 : 4 ≤ group → instr1 = DCC.functionByte f group) (now : UInt32)
    {Q : Bool → Station → Prop}
    (hQ : ∀ changed functions slot, Merged group f (s.locos.mem a).functions functions →
      Sniffed functions (s.locos.mem a) slot → Q changed (s.put a slot)) :
    wp F (mobile locoId (instruction group f) instr1 now) Q s₀ := by
  obtain ⟨h1, h2, h2', h3, h3'⟩ := groupBits_functionByte f
  -- a group of four or five functions
  have hone : ∀ {func value fstart fstop : UInt8} {shift : Nat}, fstart ≤ fstop ∧ fstop ≤ 28 →
      (∀ slot, (DCC.withFunctions fstart.toNat (fstop.toNat + 1 - fstart.toNat) value
        slot).functions = putFunctions slot.functions func shift) →
      Merged group f (s.locos.mem a).functions
        (putFunctions (s.locos.mem a).functions func shift) →
      wp F (functionChange locoId func shift value fstart fstop) Q s₀ := by
    intro func value fstart fstop shift hstop hmerge hmerged
    exact wp_functionChange_own h ha hlow hid hgets hsame hstop hmerge
      fun changed slot hslot => hQ changed _ slot hmerged hslot
  -- a group of eight functions
  have htwo : ∀ {func fstart fstop fstart' fstop' : UInt8} {shift : Nat}, 5 ≤ shift →
      fstart ≤ fstop ∧ fstop ≤ 28 → fstart' ≤ fstop' ∧ fstop' ≤ 28 →
      fstart.toNat = shift ∧ fstop.toNat + 1 - fstart.toNat = 4 →
      fstart'.toNat = shift + 4 ∧ fstop'.toNat + 1 - fstart'.toNat = 4 →
      Merged group f (s.locos.mem a).functions (putFunctions
        (putFunctions (s.locos.mem a).functions func shift) (func >>> 4) (shift + 4)) →
      wp F (do
        let _ ← functionChange locoId func shift func fstart fstop
        functionChange locoId (func >>> 4) (shift + 4) (func >>> 4) fstart' fstop') Q s₀ := by
    intro func fstart fstop fstart' fstop' shift hshift hstop hstop' hn hn' hmerged
    exact wp_functionChange_byte h ha hlow hid hgets hsame hshift hstop hstop' hn hn'
      fun changed slot hslot => hQ changed _ slot hmerged hslot
  obtain rfl | rfl | rfl | rfl | rfl : group = 1 ∨ group = 2 ∨ group = 3 ∨ group = 4 ∨ group = 5 := by
    omega
  · have hmobile : mobile locoId (instruction 1 f) instr1 now = functionChange locoId
        (DCC.functionByte f 1) 1 (normalized (DCC.functionByte f 1)) 0 4 := by
      simp [mobile, instruction, h1]
    rw [hmobile]
    exact hone (by decide) (merge_light _) (merged_light f _)
  · have hmobile : mobile locoId (instruction 2 f) instr1 now = functionChange locoId
        (DCC.functionByte f 2) 5 (DCC.functionByte f 2) 5 8 := by
      simp [mobile, instruction, h2, h2']
    rw [hmobile]
    exact hone (by decide) (merge_nibble (by decide) (by decide) _) (merged_nibble (by omega) (by omega)
      (fun k hk => (bit_functionByte_low f hk).1) (by grind [groupOf]))
  · have hmobile : mobile locoId (instruction 3 f) instr1 now = functionChange locoId
        (DCC.functionByte f 3) 9 (DCC.functionByte f 3) 9 12 := by
      simp [mobile, instruction, h3, h3']
    rw [hmobile]
    exact hone (by decide) (merge_nibble (by decide) (by decide) _) (merged_nibble (by omega) (by omega)
      (fun k hk => (bit_functionByte_low f hk).2) (by grind [groupOf]))
  · have hmobile : mobile locoId (instruction 4 f) instr1 now = (do
        let _ ← functionChange locoId (DCC.functionByte f 4) 13 (DCC.functionByte f 4) 13 16
        functionChange locoId (DCC.functionByte f 4 >>> 4) (13 + 4) (DCC.functionByte f 4 >>> 4)
          17 20) := by
      rw [hinstr1 (by omega)]
      simp [mobile, instruction, DCC.functionInstruction, show (222 : UInt8) &&& 224 = 192 from rfl]
    rw [hmobile]
    exact htwo (by omega) (by decide) (by decide) (by decide) (by decide) (merged_byte (by omega)
      (by omega) (fun k hk => (bit_functionByte_high f hk).1)
      (fun k hk => (bit_functionByte_high f hk).2.1) (by grind [groupOf]))
  · have hmobile : mobile locoId (instruction 5 f) instr1 now = (do
        let _ ← functionChange locoId (DCC.functionByte f 5) 21 (DCC.functionByte f 5) 21 24
        functionChange locoId (DCC.functionByte f 5 >>> 4) (21 + 4) (DCC.functionByte f 5 >>> 4)
          25 28) := by
      rw [hinstr1 (by omega)]
      simp [mobile, instruction, DCC.functionInstruction, show (223 : UInt8) &&& 224 = 192 from rfl]
    rw [hmobile]
    exact htwo (by omega) (by decide) (by decide) (by decide) (by decide) (merged_byte (by omega)
      (by omega) (fun k hk => (bit_functionByte_high f hk).2.2.1)
      (fun k hk => (bit_functionByte_high f hk).2.2.2) (by grind [groupOf]))

end DCCDecoder

/-! ## Speeds -/

namespace DCC

/-- `throttleTo` sets the target speed, with or without momentum. -/
theorem throttleTo_target (h : Lists s.locos xs ys) (hc : Consists s.locos xs none) (ha : a ∈ xs)
    (hroot : s.locos.leadOf a = none) (cab : UInt16) (tSpeed speedCode : UInt8) (now : UInt32) :
    wp F (throttleTo a cab tSpeed speedCode now)
      (fun _ s' => (s'.locos.mem a).targetSpeed = speedCode) s := by
  have hret : Retuned s.locos (s.put a ((s.locos.mem a).setTargetSpeed speedCode)).locos :=
    Retuned.write _ a _ rfl
  simp only [throttleTo, wp_bind]
  rw [wp_put h ha]
  have h₁ := hret.lists h
  obtain ⟨zs, hzs⟩ := (hret.consists hc).forest.exists_chain ha ((hret.leadOf a).trans hroot)
  rw [wp_read (h₁.live_inUse ha)]
  refine wp_mono (copyTarget_spec h₁ hzs speedCode) ?_
  intro _ s₂ hs₂
  -- the root is not among its followers
  have htarget : (s₂.locos.mem a).targetSpeed = speedCode := by
    rw [hs₂.locos, mem_mapSlots_of_not_mem hzs.not_mem, mem_put]
    rfl
  have hret₂ := hs₂.retuned fun _ => rfl
  have h₂ := hret₂.lists h₁
  rw [wp_read (h₂.live_inUse ha)]
  simp only [wp_get]
  split
  · rw [wp_put h₂ ha, mem_put]
    exact htarget
  · have hzs₂ : Forest.Chain xs s₂.locos.leadOf s₂.locos.consistNextOf a zs := by
      rw [funext hret₂.leadOf, funext hret₂.consistNextOf]
      exact hzs
    rw [wp_bind]
    refine wp_mono (setThrottle2_spec h₂ hzs₂ speedCode) ?_
    intro _ s₃ hs₃
    have htarget₃ : (s₃.locos.mem a).targetSpeed = speedCode := by
      rw [hs₃.locos, mem_mapSlots_of_mem List.mem_cons_self]
      exact htarget
    apply wp_when
    · intro _
      have h₃ := (hs₃.retuned fun _ => rfl).lists h₂
      refine wp_mono (TrackManager.setDCSignal_spec h₃) ?_
      intro _ s₄ hs₄
      rw [hs₄.rest]
      exact htarget₃
    · exact fun _ => htarget₃

end DCC

namespace DCCDecoder

/-- **A speed instruction** is followed by a loco of its own or a consist lead, unless it repeats
the target speed. -/
theorem wp_mobile_speed (h : Lists s.locos xs ys) (hc : Consists s.locos xs none) (ha : a ∈ xs)
    (hid : (s.locos.mem a).loco = locoId) (hgets : Gets s₀ locoId a s)
    (hroot : s.locos.leadOf a = none)
    (hsame : (s.locos.mem a).snifferSpeedCode = (s.locos.mem a).targetSpeed) (speedCode : UInt8)
    (now : UInt32) :
    wp F (mobile locoId 0x3F speedCode now)
      (fun _ s' => Kept s s' ∧ (s'.locos.mem a).targetSpeed = speedCode) s₀ := by
  have hmobile : mobile locoId 0x3F speedCode now = speedChange locoId speedCode
      (speedCode &&& 0x7F) (speedCode &&& 0x80 != 0) now := by
    simp [mobile, show (63 : UInt8) &&& 224 = 32 from rfl]
  have hnonzero : locoId ≠ 0 := hid ▸ h.nonzero a ha
  rw [hmobile, speedChange, wp_bind, updateLoco, if_neg hnonzero]
  apply wp_update_own h ha hgets
  · intro heq
    exact ⟨Kept.refl s, (heq.trans hsame).symm⟩
  · intro hne
    rw [if_pos rfl, wp_bind, DCC.setThrottle, if_neg fun hestop => hnonzero hestop.2,
      DCC.speedCode_eq]
    have hret : Retuned s.locos
        (s.put a { s.locos.mem a with snifferSpeedCode := speedCode }).locos :=
      Retuned.write _ a _ rfl
    have hkept : Kept s (s.put a { s.locos.mem a with snifferSpeedCode := speedCode }) :=
      Kept.of_retuned hret
    have h₁ := hret.lists h
    rw [wp_bind]
    refine wp_ownSlot h₁ ha (by rw [mem_put]; exact hid) ?_
    simp only [wp_bind]
    rw [wp_read (h₁.live_inUse ha), mem_put]
    have hleader : (s.locos.mem a).consistLead = none := hroot
    split
    · next hfollower =>
      simp [LocoSlot.isConsistFollower, hleader] at hfollower
    · split
      · next hreached =>
        rw [wp_pure, wp_pure, mem_put]
        exact ⟨hkept, hreached⟩
      · rw [wp_bind]
        have hroot₁ := (hret.leadOf a).trans hroot
        refine wp_mono (wp_and (DCC.throttleTo_kept h₁ (hret.consists hc) ha hroot₁ _ _ _ _)
          (DCC.throttleTo_target h₁ (hret.consists hc) ha hroot₁ _ _ _ _)) ?_
        rintro _ s' ⟨hs', htarget⟩
        exact ⟨hkept.trans hs', htarget⟩

end DCCDecoder

end CommandStation
