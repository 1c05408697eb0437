import Mathlib.Tactic.IntervalCases
import CommandStation.Sniffer.Basic

/-!
# What the receiver decodes

A frame is sent with two half-bits for every bit. The receiver finds the end of the preamble from
whatever it holds, as 22 half-bits of one and two of zero; from there on it counts 18 half-bits for each
byte and the bit behind it. The zero before each byte stays among the last 24 half-bits until the
byte is over, so that nothing in a frame is taken for a preamble.
-/

namespace CommandStation

open CommandStation.Lib

/-- Every bit is sent as two half-bits. -/
def doubled (bits : List Bool) : List Bool := bits.flatMap fun b => [b, b]

/-- The half-bits of a frame and its stop bit. -/
def frameHalfbits (f : Frame) : List Bool := doubled (f.bits ++ [true])

@[simp] theorem doubled_nil : doubled [] = [] := rfl

@[simp] theorem doubled_cons (b : Bool) (bits : List Bool) :
    doubled (b :: bits) = b :: b :: doubled bits := rfl

@[simp] theorem doubled_append (bits bits' : List Bool) :
    doubled (bits ++ bits') = doubled bits ++ doubled bits' := by
  simp [doubled]

@[simp] theorem length_doubled (bits : List Bool) : (doubled bits).length = 2 * bits.length := by
  induction bits with
  | nil => rfl
  | cons b bits ih =>
    simp [ih]
    omega

theorem doubled_replicate (n : Nat) (b : Bool) :
    doubled (List.replicate n b) = List.replicate (2 * n) b := by
  induction n with
  | zero => rfl
  | succ n ih => rw [List.replicate_succ, doubled_cons, ih, Nat.mul_succ, List.replicate_succ,
      List.replicate_succ]

/-! ## The byte of 16 half-bits -/

theorem getLsbD_bitMask : ∀ n < 8, ∀ i < 8,
    ((1 : UInt8) <<< UInt8.ofNat n).toBitVec.getLsbD i = decide (i = n) := by
  decide

theorem getLsbD_bitSet (x : UInt8) {n i : Nat} (hn : n < 8) (hi : i < 8) :
    (bitSet x n).toBitVec.getLsbD i = (x.toBitVec.getLsbD i || decide (i = n)) := by
  rw [bitSet, UInt8.toBitVec_or, BitVec.getLsbD_or, getLsbD_bitMask n hn i hi]

theorem getLsbD_bitClear (x : UInt8) {n i : Nat} (hn : n < 8) (hi : i < 8) :
    (bitClear x n).toBitVec.getLsbD i = (x.toBitVec.getLsbD i && !decide (i = n)) := by
  rw [bitClear, UInt8.toBitVec_and, BitVec.getLsbD_and, UInt8.toBitVec_not, BitVec.getLsbD_not,
    getLsbD_bitMask n hn i hi]
  simp [hi]

theorem and_three_of_pair {w : UInt16} {b : Bool} (h0 : w.toBitVec.getLsbD 0 = b)
    (h1 : w.toBitVec.getLsbD 1 = b) : w &&& 0x03 = if b then 0x03 else 0x00 := by
  have hmask : ∀ i < 16, (0x03 : UInt16).toBitVec.getLsbD i = decide (i < 2) := by decide
  have hright : ∀ i < 16, (if b then (0x03 : UInt16) else 0x00).toBitVec.getLsbD i =
      (b && decide (i < 2)) := by
    intro i hi
    cases b with
    | false => simp
    | true => simpa using hmask i hi
  apply UInt16.toBitVec_inj.mp
  apply BitVec.eq_of_getLsbD_eq
  intro i hi
  rw [UInt16.toBitVec_and, BitVec.getLsbD_and, hmask i hi, hright i hi]
  by_cases hlow : i < 2
  · obtain rfl | rfl : i = 0 ∨ i = 1 := by omega
    · rw [h0]
    · rw [h1]
  · simp [hlow]

/-- The pairs of half-bits of `w` are the bits of `b` from bit `i` on. -/
def PairsOf (w : UInt16) (b : UInt8) (i : Nat) : Prop :=
  ∀ n, i + n < 8 → w.toBitVec.getLsbD (2 * n) = b.toBitVec.getLsbD (i + n) ∧
    w.toBitVec.getLsbD (2 * n + 1) = b.toBitVec.getLsbD (i + n)

theorem PairsOf.shift {w : UInt16} {b : UInt8} {i : Nat} (h : PairsOf w b i) :
    PairsOf (w >>> 2) b (i + 1) := by
  intro n hn
  have hshift : (w >>> 2).toBitVec = w.toBitVec >>> 2 := by simp
  have hpair := h (n + 1) (by omega)
  rw [hshift, BitVec.getLsbD_ushiftRight, BitVec.getLsbD_ushiftRight,
    show 2 + 2 * n = 2 * (n + 1) by omega, show 2 + (2 * n + 1) = 2 * (n + 1) + 1 by omega,
    show i + 1 + n = i + (n + 1) by omega]
  exact hpair

/-- With `k` bits to go, the bits before are right already. -/
theorem halfbitsLoop_eq {b : UInt8} {k : Nat} (hk : k ≤ 8) {w : UInt16} {x : UInt8}
    (hw : PairsOf w b (8 - k)) (hx : ∀ i < 8 - k, x.toBitVec.getLsbD i = b.toBitVec.getLsbD i) :
    halfbitsLoop k w x = (true, b) := by
  induction k generalizing w x with
  | zero =>
    rw [halfbitsLoop]
    congr 1
    apply UInt8.toBitVec_inj.mp
    exact BitVec.eq_of_getLsbD_eq hx
  | succ k ih =>
    have hn : 8 - (k + 1) < 8 := by omega
    have hnext : 8 - k = 8 - (k + 1) + 1 := by omega
    obtain ⟨hlow, hhigh⟩ := hw 0 hn
    rw [Nat.add_zero] at hlow hhigh
    have hpair := and_three_of_pair hlow hhigh
    have hrest : PairsOf (w >>> 2) b (8 - k) := hnext ▸ hw.shift
    -- the bit that this turn writes is the bit of `b`, and the ones below stay
    rw [halfbitsLoop, hpair]
    cases hbit : b.toBitVec.getLsbD (8 - (k + 1)) with
    | false =>
      rw [if_pos (by decide)]
      apply ih (by omega) hrest
      intro i hi
      rw [getLsbD_bitClear x hn (by omega)]
      by_cases heq : i = 8 - (k + 1)
      · rw [heq, hbit, decide_eq_true rfl]
        simp
      · rw [hx i (by omega), decide_eq_false heq]
        simp
    | true =>
      rw [if_neg (by decide), if_pos (by rfl)]
      apply ih (by omega) hrest
      intro i hi
      rw [getLsbD_bitSet x hn (by omega)]
      by_cases heq : i = 8 - (k + 1)
      · rw [heq, hbit, decide_eq_true rfl]
        simp
      · rw [hx i (by omega), decide_eq_false heq]
        simp

/-- **Sixteen half-bits make a byte**, whatever stood in its place. -/
theorem halfbits2byte_eq {w : UInt16} {b : UInt8} (h : PairsOf w b 0) (x : UInt8) :
    halfbits2byte w x = (true, b) :=
  halfbitsLoop_eq (Nat.le_refl 8) h (fun i hi => absurd hi (Nat.not_lt_zero i))

/-! ## The bit field -/

/-- A bit that is shifted in is the lowest, and moves all the others up. -/
theorem getLsbD_shiftIn (field : UInt64) (bit : Bool) {i : Nat} (hi : i < 64) :
    ((field <<< 1) + (if bit then 1 else 0)).toBitVec.getLsbD i =
      if i = 0 then bit else field.toBitVec.getLsbD (i - 1) := by
  have hone : ∀ i < 64, (1#64).getLsbD i = decide (i = 0) := by decide
  have hshift : (field <<< 1).toBitVec = field.toBitVec <<< 1 := by simp
  cases bit with
  | false =>
    rw [if_neg (by decide), UInt64.add_zero, hshift, BitVec.getLsbD_shiftLeft]
    cases i <;> simp [hi]
  | true =>
    have hdisjoint : field.toBitVec <<< 1 &&& 1#64 = 0#64 := by
      apply BitVec.eq_of_getLsbD_eq
      intro i hi
      rw [BitVec.getLsbD_and, BitVec.getLsbD_shiftLeft, hone i hi]
      cases i <;> simp
    rw [if_pos rfl, UInt64.toBitVec_add, hshift]
    change (field.toBitVec <<< 1 + 1#64).getLsbD i = _
    rw [BitVec.add_eq_or_of_and_eq_zero _ _ hdisjoint, BitVec.getLsbD_or,
      BitVec.getLsbD_shiftLeft, hone i hi]
    cases i <;> simp [hi]

/-- The newest half-bits of the field are these, the newest first. -/
def Ends (field : UInt64) (newest : List Bool) : Prop :=
  ∀ i < 64, ∀ b, newest[i]? = some b → field.toBitVec.getLsbD i = b

theorem Ends.shiftIn {field : UInt64} {newest : List Bool} (h : Ends field newest) (bit : Bool) :
    Ends ((field <<< 1) + (if bit then 1 else 0)) (bit :: newest) := by
  intro i hi b hb
  rw [getLsbD_shiftIn field bit hi]
  cases i with
  | zero => simpa using hb
  | succ i => exact h i (by omega) b hb

theorem Ends.mono {field : UInt64} {newest bits : List Bool} (h : Ends field bits)
    (hle : newest <+: bits) : Ends field newest := by
  obtain ⟨older, rfl⟩ := hle
  intro i hi b hb
  have hlt := (List.getElem?_eq_some_iff.mp hb).1
  exact h i hi b (by rw [List.getElem?_append_left hlt, hb])

/-- The field with the half-bits shifted in. -/
def shifted (field : UInt64) (bits : List Bool) : UInt64 :=
  bits.foldl (fun field bit => (field <<< 1) + (if bit then 1 else 0)) field

theorem Ends.shifted {field : UInt64} {newest : List Bool} (h : Ends field newest)
    (bits : List Bool) : Ends (shifted field bits) (bits.reverse ++ newest) := by
  induction bits generalizing field newest with
  | nil => exact h
  | cons bit bits ih =>
    rw [List.reverse_cons, List.append_assoc]
    exact ih (h.shiftIn bit)

namespace Receiver

/-- A preamble has been seen if two half bits of a zero come behind 22 ones. -/
theorem preambleSeen_iff (r : Receiver) :
    r.preambleSeen = true ↔ ∀ i < 24, r.bitfield.toBitVec.getLsbD i = decide (2 ≤ i) := by
  have hmask : ∀ i < 64, (0xFFFFFF : UInt64).toBitVec.getLsbD i = decide (i < 24) := by decide
  have hpattern : ∀ i < 64, (0xFFFFFC : UInt64).toBitVec.getLsbD i =
      decide (2 ≤ i ∧ i < 24) := by
    decide
  rw [preambleSeen, beq_iff_eq, ← UInt64.toBitVec_inj, BitVec.eq_of_getLsbD_eq_iff,
    UInt64.toBitVec_and]
  constructor
  · intro h i hi
    have hbit := h i (by omega)
    rw [BitVec.getLsbD_and, hmask i (by omega), hpattern i (by omega)] at hbit
    simpa [hi] using hbit
  · intro h i hi
    rw [BitVec.getLsbD_and, hmask i hi, hpattern i hi]
    by_cases hlow : i < 24
    · simp [h i hlow, hlow]
    · simp [hlow]

/-- The two newest half-bits, where they are the same. -/
theorem and_three_of_ends {field : UInt64} {b b' : Bool} (h : Ends field [b, b']) :
    field &&& 0x03 = (if b then 1 else 0) + (if b' then 2 else 0) := by
  have hmask : ∀ i < 64, (0x03 : UInt64).toBitVec.getLsbD i = decide (i < 2) := by decide
  have hright : ∀ b b' : Bool, ∀ i < 64,
      ((if b then (1 : UInt64) else 0) + (if b' then 2 else 0)).toBitVec.getLsbD i =
        ((i == 0 && b) || (i == 1 && b')) := by
    decide
  apply UInt64.toBitVec_inj.mp
  apply BitVec.eq_of_getLsbD_eq
  intro i hi
  rw [UInt64.toBitVec_and, BitVec.getLsbD_and, hmask i hi, hright b b' i hi]
  rcases i with _ | _ | i
  · rw [h 0 (by decide) b rfl]
    simp
  · rw [h 1 (by decide) b' rfl]
    simp
  · simp

/-- The half-bits of a byte in the field. -/
theorem getElem?_reverse_doubled (b : UInt8) {n : Nat} (hn : n < 8) :
    (doubled (byteBits b)).reverse[2 * n]? = some (b.toBitVec.getLsbD n) ∧
      (doubled (byteBits b)).reverse[2 * n + 1]? = some (b.toBitVec.getLsbD n) := by
  have hbits : byteBits b = [b.toBitVec.getLsbD 7, b.toBitVec.getLsbD 6, b.toBitVec.getLsbD 5,
    b.toBitVec.getLsbD 4, b.toBitVec.getLsbD 3, b.toBitVec.getLsbD 2, b.toBitVec.getLsbD 1,
    b.toBitVec.getLsbD 0] := rfl
  rw [hbits]
  interval_cases n <;> exact ⟨rfl, rfl⟩

/-- Above the separator, the field has each bit of the byte twice. -/
theorem pairsOf_field {field : UInt64} {b : UInt8} {sep sep' : Bool}
    (h : Ends field (sep :: sep' :: (doubled (byteBits b)).reverse)) :
    PairsOf ((field &&& 0x3FFFF) >>> 2).toUInt16 b 0 := by
  have hmask : ∀ i < 64, (0x3FFFF : UInt64).toBitVec.getLsbD i = decide (i < 18) := by decide
  have hbit : ∀ i < 16, ((field &&& 0x3FFFF) >>> 2).toUInt16.toBitVec.getLsbD i =
      field.toBitVec.getLsbD (i + 2) := by
    intro i hi
    have hshift : ((field &&& 0x3FFFF) >>> 2).toBitVec =
        (field.toBitVec &&& (0x3FFFF : UInt64).toBitVec) >>> 2 := by
      simp
    rw [UInt64.toBitVec_toUInt16, BitVec.getLsbD_setWidth, hshift, BitVec.getLsbD_ushiftRight,
      BitVec.getLsbD_and, Nat.add_comm 2 i, hmask (i + 2) (by omega)]
    simp [hi, show i + 2 < 18 by omega]
  intro n hn
  rw [Nat.zero_add] at hn ⊢
  obtain ⟨hlow, hhigh⟩ := getElem?_reverse_doubled b hn
  rw [hbit _ (by omega), hbit _ (by omega)]
  exact ⟨h _ (by omega) _ hlow, h _ (by omega) _ hhigh⟩

/-! ## Half-bits of a frame -/

/-- The receiver after half-bits, each with the clock at its end. -/
def halfbits (r : Receiver) (l : List (Bool × UInt32)) : Receiver :=
  l.foldl (fun r x => r.halfbit x.1 x.2) r

theorem halfbits_append (r : Receiver) (l l' : List (Bool × UInt32)) :
    r.halfbits (l ++ l') = (r.halfbits l).halfbits l' :=
  List.foldl_append

theorem bitfield_endOfPacket (r : Receiver) (millis : UInt32) :
    (r.endOfPacket millis).bitfield = r.bitfield := by
  simp only [endOfPacket]
  split <;> split <;> rfl

theorem bitfield_endOfByte (r : Receiver) (millis : UInt32) :
    (r.endOfByte millis).bitfield = r.bitfield := by
  simp only [endOfByte]
  split
  · rfl
  · split
    · rfl
    · split
      · rw [bitfield_endOfPacket]
      · split <;> rfl

theorem bitfield_halfbit (r : Receiver) (bit : Bool) (millis : UInt32) :
    (r.halfbit bit millis).bitfield = (r.shiftIn bit).bitfield := by
  simp only [halfbit]
  split
  · rfl
  · split
    · split
      · rfl
      · rw [bitfield_endOfByte]
    · rfl

/-- The bit field holds the half-bits, whatever comes of them. -/
theorem bitfield_halfbits (r : Receiver) (l : List (Bool × UInt32)) :
    (r.halfbits l).bitfield = shifted r.bitfield (l.map Prod.fst) := by
  induction l generalizing r with
  | nil => rfl
  | cons x l ih =>
    change ((r.halfbit x.1 x.2).halfbits l).bitfield = _
    rw [ih, bitfield_halfbit]
    rfl

/-- There is no preamble where a zero lies within the last half-bits. -/
theorem preambleSeen_shiftIn {r : Receiver} {z : Nat} (hz : r.bitfield.toBitVec.getLsbD z = false)
    (hlow : 1 ≤ z) (hhigh : z < 23) (bit : Bool) : (r.shiftIn bit).preambleSeen = false := by
  rw [← Bool.not_eq_true, preambleSeen_iff]
  intro h
  have hbit := h (z + 1) (by omega)
  rw [shiftIn, getLsbD_shiftIn _ _ (by omega), if_neg (by omega), Nat.add_sub_cancel, hz] at hbit
  simp only [Bool.false_eq, decide_eq_false_iff_not] at hbit
  omega

/-- Within a packet half bits are shifted in, until the byte and its separator are there. -/
theorem halfbit_of_inpacket {r : Receiver} (hin : r.inpacket = true) {z : Nat}
    (hz : r.bitfield.toBitVec.getLsbD z = false) (hlow : 1 ≤ z) (hhigh : z < 23) (bit : Bool)
    (millis : UInt32) :
    r.halfbit bit millis =
      if r.halfbitcounter - 1 ≠ 0 then
        { r.shiftIn bit with halfbitcounter := r.halfbitcounter - 1 }
      else ({ r.shiftIn bit with halfbitcounter := 0 } : Receiver).endOfByte millis := by
  have hin' : (r.shiftIn bit).inpacket = true := hin
  rw [halfbit]
  simp only [preambleSeen_shiftIn hz hlow hhigh bit, hin', Bool.false_eq_true, if_true, if_false]
  change (if r.halfbitcounter - 1 ≠ 0 then _ else _) = _
  by_cases h : r.halfbitcounter - 1 = 0
  · rw [if_neg (not_not_intro h), if_neg (not_not_intro h), ← h]
    rfl
  · rw [if_pos h, if_pos h]
    rfl

/-- Within a byte the half-bits are only counted. -/
theorem halfbits_within {r : Receiver} (hin : r.inpacket = true) {z : Nat}
    (hz : r.bitfield.toBitVec.getLsbD z = false) (hlow : 1 ≤ z) {l : List (Bool × UInt32)}
    (hhigh : z + l.length ≤ 23) (hcounter : l.length < r.halfbitcounter.toNat) :
    r.halfbits l =
      { r with
        bitfield := shifted r.bitfield (l.map Prod.fst)
        halfbitcounter := r.halfbitcounter - UInt8.ofNat l.length } := by
  induction l generalizing r z with
  | nil => simp [halfbits, shifted]
  | cons x l ih =>
    rw [List.length_cons] at hhigh hcounter
    have htoNat : (r.halfbitcounter - 1).toNat = r.halfbitcounter.toNat - 1 := by
      rw [UInt8.toNat_sub_of_le]
      · rfl
      · rw [UInt8.le_iff_toNat_le]
        change 1 ≤ _
        omega
    have hne : r.halfbitcounter - 1 ≠ 0 := by
      intro h
      rw [h] at htoNat
      change 0 = _ at htoNat
      omega
    have hz' : (r.shiftIn x.1).bitfield.toBitVec.getLsbD (z + 1) = false := by
      rw [shiftIn, getLsbD_shiftIn _ _ (by omega), if_neg (by omega), Nat.add_sub_cancel, hz]
    have hstep := halfbit_of_inpacket hin hz hlow (by omega) x.1 x.2
    rw [if_pos hne] at hstep
    change (r.halfbit x.1 x.2).halfbits l = _
    rw [hstep, ih (r := { r.shiftIn x.1 with halfbitcounter := r.halfbitcounter - 1 }) hin hz'
      (by omega) (by omega) (by change _ < (r.halfbitcounter - 1).toNat; omega)]
    simp only [shiftIn, shifted, List.map_cons, List.foldl_cons, List.length_cons, mk.injEq,
      true_and, and_true]
    rw [UInt8.ofNat_add]
    grind

/-- Eighteen half-bits of a byte and the bit behind it. -/
theorem endOfByte_eq {r : Receiver} {b : UInt8} {sep : Bool}
    (h : Ends r.bitfield (sep :: sep :: (doubled (byteBits b)).reverse))
    (hroom : (r.currentbyte + 1).toNat < maxDccPacketLen) (millis : UInt32) :
    r.endOfByte millis =
      let r' := { r with dccbytes := r.dccbytes.setIfInBounds r.currentbyte.toNat b }
      if sep then r'.endOfPacket millis
      else { r' with halfbitcounter := 18, currentbyte := r.currentbyte + 1 } := by
  have htwo : r.bitfield &&& 0x03 = _ := and_three_of_ends (h.mono ⟨_, rfl⟩ : Ends _ [sep, sep])
  have hbyte := halfbits2byte_eq (pairsOf_field h) (r.dccbytes.toList.getD r.currentbyte.toNat 0)
  simp only [endOfByte, htwo, hbyte]
  cases sep with
  | true => rfl
  | false => exact if_neg (Nat.not_le.mpr hroom)

/-- The receiver waits for the half-bits of a byte; the bytes before it are `done`. -/
structure AtByte (r : Receiver) (done : List UInt8) : Prop where
  inpacket : r.inpacket = true
  counter : r.halfbitcounter = 18
  currentbyte : r.currentbyte.toNat = done.length
  dccbytes : r.dccbytes.toList.take done.length = done
  zeros : Ends r.bitfield [false, false]

/-- A packet is decoded. A queue of more than three packets, which should have been fetched, is
given up. -/
structure Decoded (before after : Receiver) (bytes : List UInt8) : Prop where
  inpacket : after.inpacket = false
  dcclen : after.dcclen.toNat = bytes.length
  dccbytes : after.dccbytes.toList.take bytes.length = bytes
  outpacket : after.outpacket =
    (if 3 < before.outpacket.length then [] else before.outpacket) ++
      (if bytes = before.prevpacket then [] else [bytes])
  prevpacket : after.prevpacket = bytes

theorem decoded_endOfPacket {r : Receiver} {bytes : List UInt8}
    (hlen : (r.currentbyte + 1).toNat = bytes.length)
    (hbytes : r.dccbytes.toList.take bytes.length = bytes) (millis : UInt32) :
    Decoded r (r.endOfPacket millis) bytes := by
  have htemp : r.dccbytes.toList.take (r.currentbyte + 1).toNat = bytes := by rw [hlen, hbytes]
  by_cases hqueue : 3 < r.outpacket.length <;> by_cases hprev : bytes = r.prevpacket
  all_goals
    simp only [endOfPacket, hqueue, htemp, hprev, if_true, if_false]
    constructor
  all_goals simp_all

/-- The state after a byte and the bit behind it. -/
theorem AtByte.halfbits_eq {r : Receiver} {done : List UInt8} (h : r.AtByte done) {b : UInt8}
    {sep : Bool} {l : List (Bool × UInt32)}
    (hl : l.map Prod.fst = doubled (byteBits b) ++ [sep, sep]) :
    ∃ field millis, Ends field (sep :: sep :: (doubled (byteBits b)).reverse) ∧
      r.halfbits l =
        ({ r with bitfield := field, halfbitcounter := 0 } : Receiver).endOfByte millis := by
  have hlength : l.length = 18 := by
    simpa using congrArg List.length hl
  obtain ⟨l', x, rfl⟩ : ∃ l' x, l = l' ++ [x] :=
    ⟨_, _, (List.dropLast_append_getLast (by rintro rfl; simp at hlength)).symm⟩
  have hlength' : l'.length = 17 := by
    simpa using hlength
  have hsplit : l'.map Prod.fst = doubled (byteBits b) ++ [sep] ∧ x.1 = sep := by
    rw [List.map_append, show [sep, sep] = [sep] ++ [sep] from rfl, ← List.append_assoc] at hl
    have hinj := List.append_inj' hl rfl
    simpa using hinj
  obtain ⟨hl', hx⟩ := hsplit
  have hzero : r.bitfield.toBitVec.getLsbD 1 = false := h.zeros 1 (by decide) false rfl
  have hwithin := halfbits_within (l := l') h.inpacket hzero (Nat.le_refl 1) (by omega)
    (by rw [h.counter, hlength']; decide)
  rw [hl', hlength', h.counter] at hwithin
  -- the zeros before the byte are still among the last half-bits
  have hends := h.zeros.shifted (doubled (byteBits b) ++ [sep])
  have hzero' : (shifted r.bitfield (doubled (byteBits b) ++ [sep])).toBitVec.getLsbD 18 =
      false := by
    apply hends 18 (by decide)
    rw [List.getElem?_append_right (by simp)]
    simp
  have hends' := hends.shiftIn sep
  rw [List.reverse_append, List.append_assoc] at hends'
  have hin : (r.halfbits l').inpacket = true := by rw [hwithin, ← h.inpacket]
  have hz : (r.halfbits l').bitfield.toBitVec.getLsbD 18 = false := by rw [hwithin, ← hzero']
  have hone : (r.halfbits l').halfbitcounter - 1 = 0 := by
    rw [hwithin]
    exact (by decide : (18 : UInt8) - UInt8.ofNat 17 - 1 = 0)
  have hlast := halfbit_of_inpacket hin hz (by decide) (by decide) x.1 x.2
  rw [if_neg (not_not_intro hone)] at hlast
  refine ⟨_, x.2, hends'.mono ⟨[false, false], rfl⟩, ?_⟩
  rw [halfbits_append]
  change (r.halfbits l').halfbit x.1 x.2 = _
  rw [hlast, hwithin, hx]
  rfl

theorem AtByte.setByte {r : Receiver} {done : List UInt8} (h : r.AtByte done)
    (hroom : done.length < 7) (b : UInt8) :
    (r.dccbytes.setIfInBounds r.currentbyte.toNat b).toList.take (done ++ [b]).length =
      done ++ [b] := by
  rw [Vector.toList_setIfInBounds, h.currentbyte, List.length_append, List.length_singleton,
    take_set_succ (by rw [Vector.length_toList]; exact Nat.lt_succ_of_lt hroom), h.dccbytes]

theorem AtByte.succ_currentbyte {r : Receiver} {done : List UInt8} (h : r.AtByte done)
    (hroom : done.length < 7) : (r.currentbyte + 1).toNat = done.length + 1 := by
  rw [UInt8.toNat_add, h.currentbyte]
  change (done.length + 1) % 256 = _
  omega

/-- A zero behind a byte: the next one follows. -/
theorem AtByte.next {r : Receiver} {done : List UInt8} (h : r.AtByte done)
    (hroom : done.length < 7) {b : UInt8} {l : List (Bool × UInt32)}
    (hl : l.map Prod.fst = doubled (byteBits b) ++ [false, false]) :
    (r.halfbits l).AtByte (done ++ [b]) ∧ (r.halfbits l).outpacket = r.outpacket ∧
      (r.halfbits l).prevpacket = r.prevpacket := by
  obtain ⟨field, millis, hends, heq⟩ := h.halfbits_eq hl
  have hsucc := h.succ_currentbyte hroom
  rw [heq, endOfByte_eq hends (by rw [hsucc]; exact Nat.succ_lt_succ hroom)]
  refine ⟨⟨h.inpacket, rfl, ?_, h.setByte hroom b, ?_⟩, rfl, rfl⟩
  · rw [List.length_append, List.length_singleton, ← hsucc]
    rfl
  · exact hends.mono ⟨_, rfl⟩

/-- A one behind a byte: the packet is over. -/
theorem AtByte.last {r : Receiver} {done : List UInt8} (h : r.AtByte done)
    (hroom : done.length < 7) {b : UInt8} {l : List (Bool × UInt32)}
    (hl : l.map Prod.fst = doubled (byteBits b) ++ [true, true]) :
    Decoded r (r.halfbits l) (done ++ [b]) := by
  obtain ⟨field, millis, hends, heq⟩ := h.halfbits_eq hl
  have hsucc := h.succ_currentbyte hroom
  rw [heq, endOfByte_eq hends (by rw [hsucc]; exact Nat.succ_lt_succ hroom)]
  have hdecoded := decoded_endOfPacket
    (r := { r with
      bitfield := field
      halfbitcounter := 0
      dccbytes := r.dccbytes.setIfInBounds r.currentbyte.toNat b })
    (by rw [List.length_append, List.length_singleton, ← hsucc]) (h.setByte hroom b) millis
  exact ⟨hdecoded.1, hdecoded.2, hdecoded.3, hdecoded.4, hdecoded.5⟩

/-- The bytes of a packet, from one of them on. -/
theorem AtByte.decoded {r : Receiver} {done : List UInt8} (h : r.AtByte done) {b : UInt8}
    {bytes : List UInt8} (hroom : done.length + bytes.length < 7) {l : List (Bool × UInt32)}
    (hl : l.map Prod.fst = doubled (byteBits b ++ dataBits bytes ++ [true])) :
    Decoded r (r.halfbits l) (done ++ b :: bytes) := by
  induction bytes generalizing r done b l with
  | nil => exact h.last (by simpa using hroom) (by simpa using hl)
  | cons b' bytes ih =>
    rw [List.length_cons] at hroom
    have hsplit : l.map Prod.fst = (doubled (byteBits b) ++ [false, false]) ++
        doubled (byteBits b' ++ dataBits bytes ++ [true]) := by
      simp [hl]
    obtain ⟨l₁, l₂, rfl, hl₁, hl₂⟩ := List.map_eq_append_iff.mp hsplit
    obtain ⟨hat, hout, hprev⟩ := h.next (by omega) hl₁
    have hdecoded := ih hat (by simp; omega) hl₂
    rw [List.append_assoc, List.singleton_append] at hdecoded
    rw [halfbits_append]
    exact ⟨hdecoded.1, hdecoded.2, hdecoded.3, hout ▸ hprev ▸ hdecoded.4, hdecoded.5⟩

/-- The first zero after a one does not end a packet: at the end of a byte it is a broken bit. -/
theorem halfbit_false_of_one {r : Receiver} (h : Ends r.bitfield [true]) (millis : UInt32) :
    ∃ inpacket counter, r.halfbit false millis =
      { r.shiftIn false with inpacket := inpacket, halfbitcounter := counter } := by
  have hends : Ends (r.shiftIn false).bitfield [false, true] := h.shiftIn false
  have hseen : (r.shiftIn false).preambleSeen = false := by
    rw [← Bool.not_eq_true, preambleSeen_iff]
    intro hall
    have hbit := hall 1 (by decide)
    rw [hends 1 (by decide) true rfl] at hbit
    cases hbit
  have htwo := and_three_of_ends hends
  rw [halfbit]
  simp only [hseen, Bool.false_eq_true, if_false]
  by_cases hin : (r.shiftIn false).inpacket = true
  · by_cases hcounter : (r.shiftIn false).halfbitcounter - 1 = 0
    · refine ⟨false, 0, ?_⟩
      rw [if_pos hin, if_neg (not_not_intro hcounter), endOfByte, hcounter]
      exact if_pos (.inr htwo)
    · exact ⟨_, _, by rw [if_pos hin, if_pos hcounter]⟩
  · exact ⟨_, _, if_neg hin⟩

/-- **The preamble ends**: whatever the receiver was doing, it starts with the first byte. -/
theorem atByte_of_preamble {r : Receiver} (h : Ends r.bitfield (List.replicate 22 true))
    (millis millis' : UInt32) :
    ((r.halfbit false millis).halfbit false millis').AtByte [] ∧
      ((r.halfbit false millis).halfbit false millis').outpacket = r.outpacket ∧
      ((r.halfbit false millis).halfbit false millis').prevpacket = r.prevpacket := by
  obtain ⟨inpacket, counter, hfirst⟩ :=
    halfbit_false_of_one (h.mono ⟨List.replicate 21 true, rfl⟩) millis
  have hends : Ends ((r.halfbit false millis).shiftIn false).bitfield
      (false :: false :: List.replicate 22 true) := by
    rw [hfirst]
    exact (h.shiftIn false).shiftIn false
  have hseen : ((r.halfbit false millis).shiftIn false).preambleSeen = true := by
    rw [preambleSeen_iff]
    intro i hi
    apply hends i (by omega)
    interval_cases i <;> rfl
  rw [halfbit.eq_1 (r.halfbit false millis)]
  simp only [hseen, if_true]
  refine ⟨⟨rfl, rfl, rfl, rfl, hends.mono ⟨_, rfl⟩⟩, ?_, ?_⟩
  · change (r.halfbit false millis).outpacket = _
    rw [hfirst]
    rfl
  · change (r.halfbit false millis).prevpacket = _
    rw [hfirst]
    rfl

/-- **A frame is decoded**, once the receiver has seen 22 half-bits of its preamble. -/
theorem decoded_of_preamble {r : Receiver} (h : Ends r.bitfield (List.replicate 22 true))
    {bytes : List UInt8} (hne : bytes ≠ []) (hlen : bytes.length ≤ 7) {l : List (Bool × UInt32)}
    (hl : l.map Prod.fst = doubled (dataBits bytes ++ [true])) :
    Decoded r (r.halfbits l) bytes := by
  obtain ⟨b, bytes, rfl⟩ := List.exists_cons_of_ne_nil hne
  have hsplit : l.map Prod.fst = [false, false] ++
      doubled (byteBits b ++ dataBits bytes ++ [true]) := by
    simp [hl]
  obtain ⟨l₁, l₂, rfl, hl₁, hl₂⟩ := List.map_eq_append_iff.mp hsplit
  obtain ⟨x, y, rfl⟩ : ∃ x y, l₁ = [(false, x), (false, y)] := by
    match l₁, hl₁ with
    | [(_, x), (_, y)], hl₁ =>
      simp only [List.map_cons, List.map_nil, List.cons.injEq, and_true] at hl₁
      exact ⟨x, y, by rw [hl₁.1, hl₁.2]⟩
  obtain ⟨hat, hout, hprev⟩ := atByte_of_preamble h x y
  rw [List.length_cons] at hlen
  have hdecoded := hat.decoded (by rw [List.length_nil]; omega) hl₂
  rw [halfbits_append]
  exact ⟨hdecoded.1, hdecoded.2, hdecoded.3, hout ▸ hprev ▸ hdecoded.4, hdecoded.5⟩

end Receiver

end CommandStation
