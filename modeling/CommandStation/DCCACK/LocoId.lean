import CommandStation.DCCACK.Service

/-!
# Addresses of locos and consists

The address of a loco is in CV 1 if it is short, and in CVs 17 and 18 if it is long, which bit 5 of
CV 29 tells. A consist is in CV 19, with the direction as its highest bit, and in CV 20 for the
hundreds. What the programs for writing leave in these CVs is what the programs for reading find.
-/

namespace CommandStation

open CommandStation.Lib

/-- The CVs whose numbers stand in a program. -/
theorem setcv_range {cv : UInt8} (h : cv ≠ 0) : 1 ≤ cv.toUInt16 ∧ cv.toUInt16 ≤ 1024 := by
  revert cv
  apply byte_forall
  decide +kernel

namespace Yields

variable {rest : List AckOp} {r : AckRegisters} {mem mem' : UInt16 → UInt8} {value : Int16}

/-- A CV is read and verified. -/
theorem readVerified (hlow : 1 ≤ r.ackManagerCv) (hhigh : r.ackManagerCv ≤ 1024)
    (h : ∀ bitNum, Yields rest { r with
      ackManagerByte := mem r.ackManagerCv, ackManagerBitNum := bitNum, ackReceived := true }
      mem value mem') :
    Yields (.startmerge :: (AckProgram.mergeBits 8 ++ .vb :: .wack :: rest)) r mem value mem' := by
  refine next rfl ?_
  apply mergeByte
  · exact hlow
  · exact hhigh
  · rfl
  · rfl
  intro bitNum ack
  refine verifyByte hlow hhigh ?_
  have hrest := h bitNum
  rw [← beq_self_eq_true (mem r.ackManagerCv)] at hrest
  exact hrest

/-- A byte that stands in the program is verified. -/
theorem verifyEqual (hlow : 1 ≤ r.ackManagerCv) (hhigh : r.ackManagerCv ≤ 1024) {byte : UInt8}
    {ack : Bool} (hack : (mem r.ackManagerCv == byte) = ack)
    (h : Yields rest { r with ackManagerByte := byte, ackReceived := ack } mem value mem') :
    Yields (.setbyte byte :: .vb :: .wack :: rest) r mem value mem' := by
  refine next rfl ?_
  refine verifyByte hlow hhigh ?_
  change Yields rest { r with ackManagerByte := byte, ackReceived := mem r.ackManagerCv == byte } _ _ _
  rw [hack]
  exact h

end Yields

namespace AckProgram

variable {rest : List AckOp} {r : AckRegisters} {mem mem' : UInt16 → UInt8} {value : Int16}

/-! ## Reading -/

/-- With bit 5 of CV 29 clear, the id of the loco is its CV 1. -/
theorem yields_locoId_short (hflag : ServiceDecoder.bit (mem 29) 5 = false)
    (hshort : ServiceDecoder.upper (mem 1) 7 = 0) :
    Yields locoId r mem (mem 1).toUInt16.toInt16 mem := by
  have h29 := @setcv_range 29 (by decide)
  have h1 := @setcv_range 1 (by decide)
  have hfive : (5 : UInt8) < 8 := by decide
  rw [locoId]
  simp only [List.append_assoc, List.cons_append, List.nil_append]
  refine Yields.next rfl ?_
  refine Yields.next rfl ?_
  refine Yields.verifyBit h29.1 h29.2 hfive rfl ?_
  refine Yields.itskip (congrArg (· == false) hflag) ?_
  refine Yields.next rfl ?_
  refine Yields.next rfl ?_
  refine Yields.next rfl ?_
  apply Yields.mergeBits (n := 7)
  · exact h1.1
  · exact h1.2
  · decide
  · exact hshort.symm
  · rfl
  intro bitNum ack
  refine Yields.verifyByte h1.1 h1.2 ?_
  exact Yields.acked rfl (beq_self_eq_true _)

/-- The address that CVs 17 and 18 make. -/
def longAddress (cv17 cv18 : UInt8) : Int16 :=
  (DCC.longAddrMarker ||| (cv18.toUInt16 + ((cv17.toUInt16 - 192) <<< 8))).toInt16

/-- With bit 5 of CV 29 set, the id of the loco is in CVs 17 and 18. -/
theorem yields_locoId_long (hflag : ServiceDecoder.bit (mem 29) 5 = true) :
    Yields locoId r mem (longAddress (mem 17) (mem 18)) mem := by
  have h29 := @setcv_range 29 (by decide)
  have h17 := @setcv_range 17 (by decide)
  have h18 := @setcv_range 18 (by decide)
  have hfive : (5 : UInt8) < 8 := by decide
  rw [locoId]
  simp only [List.append_assoc, List.cons_append, List.nil_append]
  refine Yields.next rfl ?_
  refine Yields.next rfl ?_
  refine Yields.verifyBit h29.1 h29.2 hfive rfl ?_
  refine Yields.not_itskip (congrArg (· == false) hflag) ?_
  -- CV 17
  refine Yields.next rfl ?_
  refine Yields.readVerified h17.1 h17.2 fun _ => ?_
  refine Yields.nakfail rfl ?_
  refine Yields.next rfl ?_
  -- CV 18
  refine Yields.next rfl ?_
  refine Yields.readVerified h18.1 h18.2 fun _ => ?_
  refine Yields.nakfail rfl ?_
  exact Yields.call rfl

/-- CV 20 says that there are no hundreds. -/
theorem yields_extendedConsist_zero (hzero : mem 20 = 0)
    (h : ∀ r, Yields rest r mem value mem') : Yields (extendedConsist ++ rest) r mem value mem' := by
  have h20 := @setcv_range 20 (by decide)
  rw [extendedConsist]
  simp only [List.append_assoc, List.cons_append, List.nil_append]
  refine Yields.next rfl ?_
  refine Yields.verifyEqual h20.1 h20.2 (beq_iff_eq.mpr hzero) ?_
  refine Yields.itskip rfl ?_
  exact h _

/-- The consist that CVs 20 and 19 make. -/
def extendedAddress (cv20 cv19 : UInt8) : Int16 :=
  (cv20.toUInt16 * 100 + ((cv19 &&& 0x7F) % 100).toUInt16).toInt16

/-- With CV 20 up to 120, the consist is that of CVs 20 and 19 together. -/
theorem yields_extendedConsist (hzero : mem 20 ≠ 0) (hlow : ¬ 120 < mem 20) :
    Yields (extendedConsist ++ rest) r mem (extendedAddress (mem 20) (mem 19)) mem := by
  have h20 := @setcv_range 20 (by decide)
  have h19 := @setcv_range 19 (by decide)
  rw [extendedConsist]
  simp only [List.append_assoc, List.cons_append, List.nil_append]
  refine Yields.next rfl ?_
  refine Yields.verifyEqual h20.1 h20.2 (beq_eq_false_iff_ne.mpr hzero) ?_
  refine Yields.not_itskip rfl ?_
  -- CV 20
  refine Yields.readVerified h20.1 h20.2 fun _ => ?_
  refine Yields.next rfl ?_
  refine Yields.next (if_neg hlow) ?_
  refine Yields.next rfl ?_
  -- CV 19
  refine Yields.next rfl ?_
  refine Yields.readVerified h19.1 h19.2 fun _ => ?_
  refine Yields.nakfail rfl ?_
  exact Yields.call rfl

/-- No consist: the address of the loco. -/
theorem yields_locoDriveaway_loco (h20 : mem 20 = 0) (h19 : mem 19 = 0)
    (h : ∀ r, Yields locoId r mem value mem) : Yields locoDriveaway.tail r mem value mem := by
  have hcv := @setcv_range 19 (by decide)
  rw [locoDriveaway]
  simp only [List.append_assoc, List.cons_append, List.nil_append, List.tail_cons]
  refine yields_extendedConsist_zero h20 fun r => ?_
  refine Yields.next rfl ?_
  refine Yields.verifyEqual hcv.1 hcv.2 (beq_iff_eq.mpr h19) ?_
  refine Yields.itskip rfl ?_
  exact h _

theorem yields_locoDriveaway_short (h20 : mem 20 = 0) (hzero : mem 19 ≠ 0) (hmarker : mem 19 ≠ 128) :
    Yields locoDriveaway.tail r mem (mem 19 &&& 0x7F).toUInt16.toInt16 mem := by
  have hcv := @setcv_range 19 (by decide)
  rw [locoDriveaway]
  simp only [List.append_assoc, List.cons_append, List.nil_append, List.tail_cons]
  refine yields_extendedConsist_zero h20 fun r => ?_
  refine Yields.next rfl ?_
  refine Yields.verifyEqual hcv.1 hcv.2 (beq_eq_false_iff_ne.mpr hzero) ?_
  refine Yields.not_itskip rfl ?_
  refine Yields.verifyEqual hcv.1 hcv.2 (beq_eq_false_iff_ne.mpr hmarker) ?_
  refine Yields.not_itskip rfl ?_
  refine Yields.readVerified hcv.1 hcv.2 fun _ => ?_
  exact Yields.acked rfl rfl

theorem yields_locoDriveaway_extended (hzero : mem 20 ≠ 0) (hlow : ¬ 120 < mem 20) :
    Yields locoDriveaway.tail r mem (extendedAddress (mem 20) (mem 19)) mem := by
  rw [locoDriveaway]
  simp only [List.append_assoc, List.cons_append, List.nil_append, List.tail_cons]
  exact yields_extendedConsist hzero hlow

/-- With CV 20 zero, the consist of a loco is the seven bits of CV 19. -/
theorem yields_locoReadConsist_short (h20 : mem 20 = 0) :
    Yields locoReadConsist.tail r mem (mem 19 &&& 0x7F).toUInt16.toInt16 mem := by
  have hcv := @setcv_range 19 (by decide)
  rw [locoReadConsist]
  simp only [List.append_assoc, List.cons_append, List.nil_append, List.tail_cons]
  refine yields_extendedConsist_zero h20 fun r => ?_
  refine Yields.next rfl ?_
  by_cases hzero : mem 19 = 0
  · rw [hzero]
    refine Yields.verifyEqual hcv.1 hcv.2 (beq_iff_eq.mpr hzero) ?_
    exact Yields.acked rfl rfl
  refine Yields.verifyEqual hcv.1 hcv.2 (beq_eq_false_iff_ne.mpr hzero) ?_
  refine Yields.nacked rfl rfl ?_
  by_cases hmarker : mem 19 = 128
  · rw [hmarker]
    refine Yields.verifyEqual hcv.1 hcv.2 (beq_iff_eq.mpr hmarker) ?_
    exact Yields.acked rfl rfl
  refine Yields.verifyEqual hcv.1 hcv.2 (beq_eq_false_iff_ne.mpr hmarker) ?_
  refine Yields.nacked rfl rfl ?_
  refine Yields.readVerified hcv.1 hcv.2 fun _ => ?_
  exact Yields.acked rfl rfl

theorem yields_locoReadConsist_extended (hzero : mem 20 ≠ 0) (hlow : ¬ 120 < mem 20) :
    Yields locoReadConsist.tail r mem (extendedAddress (mem 20) (mem 19)) mem := by
  rw [locoReadConsist]
  simp only [List.append_assoc, List.cons_append, List.nil_append, List.tail_cons]
  exact yields_extendedConsist hzero hlow

/-! ## Writing -/

/-- The CVs when the consist is cleared. -/
def cleared (mem : UInt16 → UInt8) : UInt16 → UInt8 :=
  Function.update (Function.update mem 20 0) 19 0

theorem yields_clearConsist (h : ∀ r', r'.ackManagerWord = r.ackManagerWord →
      Yields rest r' (cleared mem) value mem') :
    Yields (clearConsist ++ rest) r mem value mem' := by
  have h20 := @setcv_range 20 (by decide)
  have h19 := @setcv_range 19 (by decide)
  rw [clearConsist]
  simp only [List.cons_append, List.nil_append]
  refine Yields.next rfl ?_
  refine Yields.next rfl ?_
  refine Yields.writeByte h20.1 h20.2 ?_
  refine Yields.next rfl ?_
  refine Yields.next rfl ?_
  refine Yields.writeByte h19.1 h19.2 ?_
  exact h _ rfl

/-- The CVs with the flag for long addresses set to `on`. -/
def flagged (mem : UInt16 → UInt8) (on : Bool) : UInt16 → UInt8 :=
  Function.update mem 29 (ServiceDecoder.setBit (mem 29) 5 on)

theorem bit_flagged (mem : UInt16 → UInt8) (on : Bool) :
    ServiceDecoder.bit (flagged mem on 29) 5 = on := by
  rw [flagged, Function.update_self]
  exact ServiceDecoder.bit_setBit _ (by decide) on

/-- A short address clears the consist and bit 5 of CV 29, and goes to CV 1. -/
theorem yields_shortLocoId :
    Yields shortLocoId.tail r mem 1
      (Function.update (flagged (cleared mem) false) 1 r.ackManagerWord.toUInt8) := by
  have h29 := @setcv_range 29 (by decide)
  have h1 := @setcv_range 1 (by decide)
  have hfive : (5 : UInt8) < 8 := by decide
  rw [shortLocoId]
  simp only [List.cons_append, List.nil_append, List.tail_cons]
  refine yields_clearConsist fun r' hword => ?_
  rw [← hword]
  refine Yields.next rfl ?_
  refine Yields.next rfl ?_
  refine Yields.writeBit h29.1 h29.2 hfive rfl ?_
  refine Yields.verifyBit h29.1 h29.2 hfive rfl ?_
  refine Yields.nakfail (congrArg (· == false) (bit_flagged (cleared mem) false)) ?_
  refine Yields.next rfl ?_
  refine Yields.next rfl ?_
  refine Yields.writeByte h1.1 h1.2 ?_
  exact Yields.acked rfl rfl

/-- A long address clears the consist, sets bit 5 of CV 29, and goes to CVs 17 and 18. -/
theorem yields_longLocoId :
    Yields longLocoId.tail r mem 1
      (Function.update
        (Function.update (flagged (cleared mem) true) 17 (r.ackManagerWord >>> 8).toUInt8) 18
        r.ackManagerWord.toUInt8) := by
  have h29 := @setcv_range 29 (by decide)
  have h17 := @setcv_range 17 (by decide)
  have h18 := @setcv_range 18 (by decide)
  have hfive : (5 : UInt8) < 8 := by decide
  rw [longLocoId]
  simp only [List.cons_append, List.nil_append, List.tail_cons]
  refine yields_clearConsist fun r' hword => ?_
  refine Yields.next rfl ?_
  refine Yields.next rfl ?_
  refine Yields.writeBit h29.1 h29.2 hfive rfl ?_
  refine Yields.verifyBit h29.1 h29.2 hfive rfl ?_
  refine Yields.nakfail (congrArg (· == true) (bit_flagged (cleared mem) true)) ?_
  rw [← hword]
  -- CV 17
  refine Yields.next rfl ?_
  refine Yields.next rfl ?_
  refine Yields.writeByte h17.1 h17.2 ?_
  refine Yields.itskip rfl ?_
  -- CV 18
  refine Yields.next rfl ?_
  refine Yields.next rfl ?_
  refine Yields.writeByte h18.1 h18.2 ?_
  exact Yields.acked rfl rfl

/-- The id of a consist goes to CVs 20 and 19. -/
theorem yields_consistId :
    Yields consistId.tail r mem 1
      (Function.update (Function.update mem 20 (r.ackManagerWord >>> 8).toUInt8) 19
        r.ackManagerWord.toUInt8) := by
  have h20 := @setcv_range 20 (by decide)
  have h19 := @setcv_range 19 (by decide)
  rw [consistId, List.tail_cons]
  refine Yields.next rfl ?_
  refine Yields.next rfl ?_
  refine Yields.writeByte h20.1 h20.2 ?_
  refine Yields.itskip rfl ?_
  refine Yields.next rfl ?_
  refine Yields.next rfl ?_
  refine Yields.writeByte h19.1 h19.2 ?_
  exact Yields.acked rfl rfl

end AckProgram

/-! ## Splitting and combining -/

section

theorem toNat_ofInt16 {id : Int} (hlow : 0 ≤ id) (hhigh : id < 65536) :
    (UInt16.ofInt id).toNat = id.toNat := by
  rw [UInt16.ofInt, UInt16.toNat_ofNat']
  omega

theorem toNat_ofInt8 {id : Int} (hlow : 0 ≤ id) (hhigh : id < 256) :
    (UInt8.ofInt id).toNat = id.toNat := by
  rw [UInt8.ofInt, UInt8.toNat_ofNat']
  omega

theorem toInt16_of_toNat {w : UInt16} {id : Int} (h : (w.toNat : Int) = id) :
    w.toInt16 = .ofInt id := by
  have hw : w = .ofNat w.toNat := UInt16.ofNat_toNat.symm
  rw [← h, Int16.ofInt_eq_ofNat, ← UInt16.toInt16_ofNat', ← hw]

theorem toInt16_ne_neg_one {w : UInt16} (h : w.toNat < 32768) : w.toInt16 ≠ -1 := by
  intro heq
  have hw : w = (-1 : Int16).toUInt16 := by rw [← heq, UInt16.toUInt16_toInt16]
  rw [hw] at h
  exact absurd h (by decide)

theorem toNat_or_long {id : UInt16} (h : id.toNat < 16384) :
    (id ||| 0xc000).toNat = 0xc000 + id.toNat := by
  rw [UInt16.toNat_or, Nat.or_comm]
  exact (Nat.two_pow_add_eq_or_of_lt (i := 14) h 3).symm

theorem toNat_or_marker {id : UInt16} (h : id.toNat < 16384) :
    (DCC.longAddrMarker ||| id).toNat = 0x4000 + id.toNat := by
  rw [UInt16.toNat_or]
  exact (Nat.two_pow_add_eq_or_of_lt (i := 14) h 1).symm

/-- A long address comes back from the bytes it was split into. -/
theorem longAddress_split {id : UInt16} (h : id.toNat < 16384) :
    AckProgram.longAddress ((id ||| 0xc000) >>> 8).toUInt8 (id ||| 0xc000).toUInt8 =
      (DCC.longAddrMarker ||| id).toInt16 := by
  have hid : (id ||| 0xc000).toUInt8.toUInt16 +
      ((((id ||| 0xc000) >>> 8).toUInt8.toUInt16 - 192) <<< 8) = id := by
    apply UInt16.toNat_inj.mp
    simp only [UInt16.toNat_add, UInt16.toNat_shiftLeft, UInt16.toNat_sub, UInt8.toNat_toUInt16,
      UInt16.toNat_toUInt8, UInt16.toNat_shiftRight, toNat_or_long h, UInt16.reduceToNat,
      Nat.shiftLeft_eq, Nat.shiftRight_eq_div_pow, Nat.reduceMod, Nat.reducePow]
    omega
  rw [AckProgram.longAddress, hid]

theorem high_word (high low : UInt8) :
    (((high.toUInt16 <<< 8) ||| low.toUInt16) >>> 8).toUInt8 = high := by
  have hhigh := high.toNat_lt
  have hlow := low.toNat_lt
  apply UInt8.toNat_inj.mp
  rw [toNat_highByte, toNat_word]
  omega

theorem low_word (high low : UInt8) : ((high.toUInt16 <<< 8) ||| low.toUInt16).toUInt8 = low := by
  have hlow := low.toNat_lt
  apply UInt8.toNat_inj.mp
  simp only [UInt16.toNat_toUInt8, toNat_word, Nat.reducePow]
  omega

/-- CV 19 with the direction. -/
theorem and_direction (byte : UInt8) (h : byte < 128) (reverse : Bool) :
    (if reverse then byte ||| 0x80 else byte) &&& 0x7F = byte := by
  have hlt : byte.toNat < 2 ^ 7 := UInt8.lt_iff_toNat_lt.mp h
  rw [← UInt8.toNat_inj, UInt8.toNat_and]
  apply (Nat.and_two_pow_sub_one_eq_mod _ 7).trans
  cases reverse with
  | false => exact Nat.mod_eq_of_lt hlt
  | true =>
    rw [if_pos rfl, UInt8.toNat_or, Nat.or_mod_two_pow, Nat.mod_eq_of_lt hlt]
    exact Nat.or_zero _

theorem direction_ne (byte : UInt8) (hlow : byte < 128) (hzero : byte ≠ 0) (reverse : Bool) :
    (if reverse then byte ||| 0x80 else byte) ≠ 0 ∧ (if reverse then byte ||| 0x80 else byte) ≠ 128 := by
  have hand := and_direction byte hlow reverse
  constructor
  · intro h
    rw [h] at hand
    exact hzero hand.symm
  · intro h
    rw [h] at hand
    exact hzero hand.symm

/-- A consist comes back from its hundreds and the rest. -/
theorem toNat_extendedAddress {id : Int} (hlow : 0 ≤ id) (hhigh : id ≤ 10239) (reverse : Bool) :
    (((UInt8.ofInt (id / 100)).toUInt16 * 100 + (((if reverse then .ofInt (id % 100) ||| 0x80
      else UInt8.ofInt (id % 100)) &&& 0x7F) % 100).toUInt16).toNat : Int) = id := by
  have hhundreds := @toNat_ofInt8 (id / 100) (by omega) (by omega)
  have hrest := @toNat_ofInt8 (id % 100) (by omega) (by omega)
  have hlt : UInt8.ofInt (id % 100) < 128 := by
    rw [UInt8.lt_iff_toNat_lt, hrest]
    change _ < 128
    omega
  rw [and_direction _ hlt]
  simp only [UInt16.toNat_add, UInt16.toNat_mul, UInt8.toNat_toUInt16, UInt8.toNat_mod, hhundreds,
    hrest, UInt16.reduceToNat, UInt8.reduceToNat, Nat.reducePow]
  omega

end

/-! ## The interpreter -/

namespace DCCACK

variable {κ : Type} {s : DCCACK κ} {t : Nat} {mem mem' : UInt16 → UInt8} {cb : κ} {value : Int16}
  {rest : List AckOp} {Post : DCCACK κ → (UInt16 → UInt8) → Prop}

theorem power_ne_overload (h : s.tracks.CanProgram t) : s.tracks.power t ≠ some .overload := by
  have hpower := h.power
  rw [ProgTracks.power_unjoined h.driver] at hpower
  rcases hpower with hpower | hpower <;> rw [hpower] <;> decide

/-- A word is written, and the tracks are as before. -/
theorem answers_setupWord (h : s.tracks.CanProgram t) {word : UInt16}
    (hprogram : .baseline :: rest ∈ AckProgram.all)
    (hyields : ∀ r : AckRegisters, r.ackManagerWord = word → Yields rest r mem 1 mem')
    (hpost : ∀ s' : DCCACK κ, s'.tracks = s.tracks.rejoined → Post s' mem') :
    Answers (fun s => s.setupWord word (.baseline :: rest) cb) s mem cb 1 Post := by
  refine answers_setup
    (s := { s with registers := { s.registers with ackManagerWord := word } })
    h.toCanStart (power_ne_overload h) hprogram (hyields _ rfl) (by decide) ?_
  intro s' hfinished
  exact hpost s' (hfinished.tracks_rejoined h)

variable {id : Int}

theorem setLocoId_short (hlow : 1 ≤ id) (hhigh : id ≤ 127) :
    DCC.setLocoId id cb s = s.setupWord (.ofInt id) AckProgram.shortLocoId cb := by
  rw [DCC.setLocoId, if_neg (by omega), if_pos]
  exact hhigh

theorem setLocoId_long (hlow : 128 ≤ id) (hhigh : id ≤ 10239) :
    DCC.setLocoId id cb s = s.setupWord (.ofInt id ||| 0xc000) AckProgram.longLocoId cb := by
  rw [DCC.setLocoId, if_neg (by omega), if_neg]
  change ¬ id ≤ 127
  omega

/-- CVs 20 and 19 of a consist. -/
def consistWord (id : Int) (reverse : Bool) : UInt8 × UInt8 :=
  if id ≤ 127 then (0, if reverse then .ofInt id ||| 0x80 else .ofInt id)
  else (.ofInt (id / 100), if reverse then .ofInt (id % 100) ||| 0x80 else .ofInt (id % 100))

theorem setConsistId_eq (hlow : 0 ≤ id) (hhigh : id ≤ 10239) (reverse : Bool) :
    DCC.setConsistId id reverse cb s = s.setupWord
      (((consistWord id reverse).1.toUInt16 <<< 8) ||| (consistWord id reverse).2.toUInt16)
      AckProgram.consistId cb := by
  rw [DCC.setConsistId, if_neg (by omega)]
  by_cases hshort : id ≤ 127
  · have hshort' : id ≤ (DCC.highestShortAddr : Int) := hshort
    simp only [consistWord, if_pos hshort, if_pos hshort']
  · have hshort' : ¬ id ≤ (DCC.highestShortAddr : Int) := hshort
    simp only [consistWord, if_neg hshort, if_neg hshort']

/-! ### Reading -/

section

variable (h : s.tracks.CanProgram t) (hvalue : value ≠ -1)

include h hvalue

theorem answers_getLocoId (hyields : ∀ r, Yields AckProgram.locoId r mem value mem) :
    Answers (DCC.getLocoId cb) s mem cb value fun _ mem' => mem' = mem :=
  answers_setup h.toCanStart (power_ne_overload h) (by decide) (hyields _) hvalue fun _ _ => rfl

theorem answers_getDriveawayLocoId
    (hyields : ∀ r, Yields AckProgram.locoDriveaway.tail r mem value mem) :
    Answers (DCC.getDriveawayLocoId cb) s mem cb value fun _ mem' => mem' = mem :=
  answers_setup h.toCanStart (power_ne_overload h) (by decide) (hyields _) hvalue fun _ _ => rfl

theorem answers_getConsistId
    (hyields : ∀ r, Yields AckProgram.locoReadConsist.tail r mem value mem) :
    Answers (DCC.getConsistId cb) s mem cb value fun _ mem' => mem' = mem :=
  answers_setup h.toCanStart (power_ne_overload h) (by decide) (hyields _) hvalue fun _ _ => rfl

end

/-! ### Writing and reading -/

/-- The request for an address is answered with `value`. -/
def Reads (request : κ → DCCACK κ → DCCACK κ) (s : DCCACK κ) (mem : UInt16 → UInt8) (value : Int16) :
    Prop :=
  ∀ cb, Answers (request cb) s mem cb value fun _ mem' => mem' = mem

section

variable (h : s.tracks.CanProgram t) (hplain : s.tracks.Plain)

include h hplain

/-- A loco with the address that is read back. -/
theorem reads_of_loco {s' : DCCACK κ} (htracks : s'.tracks = s.tracks.rejoined) (h20 : mem 20 = 0)
    (h19 : mem 19 = 0) (hvalue : value ≠ -1) (hyields : ∀ r, Yields AckProgram.locoId r mem value mem) :
    Reads DCC.getLocoId s' mem value ∧ Reads DCC.getDriveawayLocoId s' mem value := by
  have h' : s'.tracks.CanProgram t := htracks ▸ ProgTracks.canProgram_rejoined h hplain
  constructor
  · intro cb
    exact answers_getLocoId h' hvalue hyields
  · intro cb
    exact answers_getDriveawayLocoId h' hvalue fun _ =>
      AckProgram.yields_locoDriveaway_loco h20 h19 hyields

/-- A short id that was written is read back by both commands that read an id. -/
theorem answers_setLocoId_short (hlow : 1 ≤ id) (hhigh : id ≤ 127) :
    Answers (DCC.setLocoId id cb) s mem cb 1 fun s' mem' =>
      Reads DCC.getLocoId s' mem' (.ofInt id) ∧ Reads DCC.getDriveawayLocoId s' mem' (.ofInt id) := by
  refine @answers_of_eq κ _ (setupWord · (.ofInt id) AckProgram.shortLocoId cb) _ _ _ _ _
    (setLocoId_short hlow hhigh) ?_
  have hyields : ∀ r : AckRegisters, r.ackManagerWord = .ofInt id →
      Yields AckProgram.shortLocoId.tail r mem 1 (Function.update
        (AckProgram.flagged (AckProgram.cleared mem) false) 1 (UInt16.ofInt id).toUInt8) := by
    intro r hword
    rw [← hword]
    exact AckProgram.yields_shortLocoId
  refine answers_setupWord h (by decide) hyields fun s' htracks => ?_
  have hbyte : (UInt16.ofInt id).toUInt8.toNat = id.toNat := by
    rw [UInt16.toNat_toUInt8, toNat_ofInt16 (by omega) (by omega)]
    omega
  have hvalue : (UInt16.ofInt id).toUInt8.toUInt16.toInt16 = .ofInt id := by
    apply toInt16_of_toNat
    rw [UInt8.toNat_toUInt16, hbyte]
    omega
  rw [← hvalue]
  refine reads_of_loco h hplain htracks rfl rfl (byteValue_ne_neg_one _) fun r => ?_
  refine AckProgram.yields_locoId_short (AckProgram.bit_flagged _ false) ?_
  change ServiceDecoder.upper (UInt16.ofInt id).toUInt8 7 = 0
  rw [ServiceDecoder.upper, hbyte, Nat.shiftRight_eq_div_pow, Nat.div_eq_of_lt (by omega)]
  rfl

/-- A long id that was written is read back with the marker for a long address. -/
theorem answers_setLocoId_long (hlow : 128 ≤ id) (hhigh : id ≤ 10239) :
    Answers (DCC.setLocoId id cb) s mem cb 1 fun s' mem' =>
      Reads DCC.getLocoId s' mem' (DCC.longAddrMarker ||| .ofInt id).toInt16 ∧
      Reads DCC.getDriveawayLocoId s' mem' (DCC.longAddrMarker ||| .ofInt id).toInt16 := by
  refine @answers_of_eq κ _ (fun s => s.setupWord (UInt16.ofInt id ||| 0xc000) AckProgram.longLocoId cb)
    s mem cb _ _ (setLocoId_long hlow hhigh) ?_
  have hyields : ∀ r : AckRegisters, r.ackManagerWord = .ofInt id ||| 0xc000 →
      Yields AckProgram.longLocoId.tail r mem 1 (Function.update (Function.update
        (AckProgram.flagged (AckProgram.cleared mem) true) 17 ((UInt16.ofInt id ||| 0xc000) >>> 8).toUInt8)
        18 (UInt16.ofInt id ||| 0xc000).toUInt8) := by
    intro r hword
    rw [← hword]
    exact AckProgram.yields_longLocoId
  refine answers_setupWord h (by decide) hyields fun s' htracks => ?_
  have hid : (UInt16.ofInt id).toNat < 16384 := by
    rw [toNat_ofInt16 (by omega) (by omega)]
    omega
  have hne : (DCC.longAddrMarker ||| .ofInt id).toInt16 ≠ -1 := by
    apply toInt16_ne_neg_one
    rw [toNat_or_marker hid]
    omega
  refine reads_of_loco h hplain htracks rfl rfl hne fun r => ?_
  rw [← longAddress_split hid]
  exact AckProgram.yields_locoId_long (AckProgram.bit_flagged _ true)

/-- A consist whose CVs 20 and 19 are these. -/
theorem reads_of_consist {s' : DCCACK κ} (htracks : s'.tracks = s.tracks.rejoined) (hlow : 0 ≤ id)
    (hhigh : id ≤ 10239) {reverse : Bool} (h20 : mem 20 = (consistWord id reverse).1)
    (h19 : mem 19 = (consistWord id reverse).2) :
    Reads DCC.getConsistId s' mem (.ofInt id) ∧
      (id ≠ 0 → Reads DCC.getDriveawayLocoId s' mem (.ofInt id)) := by
  have h' : s'.tracks.CanProgram t := htracks ▸ ProgTracks.canProgram_rejoined h hplain
  -- a short address has CV 20 zero, a long one has its hundreds there
  by_cases hshort : id ≤ 127
  · simp only [consistWord, if_pos hshort] at h20 h19
    have hbyte := @toNat_ofInt8 id hlow (by omega)
    have hlt : UInt8.ofInt id < 128 := by
      rw [UInt8.lt_iff_toNat_lt, hbyte]
      change _ < 128
      omega
    have hvalue : (mem 19 &&& 0x7F).toUInt16.toInt16 = .ofInt id := by
      rw [h19, and_direction _ hlt]
      apply toInt16_of_toNat
      rw [UInt8.toNat_toUInt16, hbyte]
      omega
    rw [← hvalue]
    constructor
    · intro cb
      exact answers_getConsistId h' (byteValue_ne_neg_one _) fun _ =>
        AckProgram.yields_locoReadConsist_short h20
    · intro hid cb
      have hzero : UInt8.ofInt id ≠ 0 := by
        intro heq
        rw [heq] at hbyte
        change 0 = _ at hbyte
        omega
      obtain ⟨hne, hmarker⟩ := direction_ne _ hlt hzero reverse
      rw [← h19] at hne hmarker
      exact answers_getDriveawayLocoId h' (byteValue_ne_neg_one _) fun _ =>
        AckProgram.yields_locoDriveaway_short h20 hne hmarker
  · simp only [consistWord, if_neg hshort] at h20 h19
    have hbyte := @toNat_ofInt8 (id / 100) (by omega) (by omega)
    have hword := toNat_extendedAddress hlow hhigh reverse
    rw [← h20, ← h19] at hword
    have hvalue : AckProgram.extendedAddress (mem 20) (mem 19) = .ofInt id := toInt16_of_toNat hword
    have hne : AckProgram.extendedAddress (mem 20) (mem 19) ≠ -1 := by
      apply toInt16_ne_neg_one
      omega
    rw [← h20] at hbyte
    have hzero : mem 20 ≠ 0 := by
      intro heq
      rw [heq] at hbyte
      change 0 = _ at hbyte
      omega
    have hgood : ¬ 120 < mem 20 := by
      rw [UInt8.lt_iff_toNat_lt, hbyte]
      change ¬ 120 < _
      omega
    rw [← hvalue]
    constructor
    · intro cb
      exact answers_getConsistId h' hne fun _ =>
        AckProgram.yields_locoReadConsist_extended hzero hgood
    · intro _ cb
      exact answers_getDriveawayLocoId h' hne fun _ =>
        AckProgram.yields_locoDriveaway_extended hzero hgood

/-- The id of a consist that was written is read back, and by a drive away unless it is 0. -/
theorem answers_setConsistId (hlow : 0 ≤ id) (hhigh : id ≤ 10239) (reverse : Bool) :
    Answers (DCC.setConsistId id reverse cb) s mem cb 1 fun s' mem' =>
      Reads DCC.getConsistId s' mem' (.ofInt id) ∧
      (id ≠ 0 → Reads DCC.getDriveawayLocoId s' mem' (.ofInt id)) := by
  refine @answers_of_eq κ _ (setupWord · _ AckProgram.consistId cb) _ _ _ _ _
    (setConsistId_eq hlow hhigh reverse) ?_
  have hyields : ∀ r : AckRegisters, r.ackManagerWord =
        ((consistWord id reverse).1.toUInt16 <<< 8) ||| (consistWord id reverse).2.toUInt16 →
      Yields AckProgram.consistId.tail r mem 1 (Function.update (Function.update mem 20
        (consistWord id reverse).1) 19 (consistWord id reverse).2) := by
    intro r hword
    have hwrite := @AckProgram.yields_consistId r mem
    rw [hword, high_word, low_word] at hwrite
    exact hwrite
  refine answers_setupWord h (by decide) hyields fun s' htracks => ?_
  exact reads_of_consist h hplain htracks hlow hhigh rfl rfl

end

/-- **Addresses are read as they were written**, by a decoder with any CVs: short and long addresses of
a loco, and the address of a consist in either direction. -/
theorem addresses_read_back (h : s.tracks.CanProgram t) (hplain : s.tracks.Plain)
    (mem : UInt16 → UInt8) (cb : κ) (id : Int) :
    (1 ≤ id → id ≤ 127 → Answers (DCC.setLocoId id cb) s mem cb 1 fun s' mem' =>
      Reads DCC.getLocoId s' mem' (.ofInt id) ∧ Reads DCC.getDriveawayLocoId s' mem' (.ofInt id)) ∧
    (128 ≤ id → id ≤ 10239 → Answers (DCC.setLocoId id cb) s mem cb 1 fun s' mem' =>
      Reads DCC.getLocoId s' mem' (DCC.longAddrMarker ||| .ofInt id).toInt16 ∧
      Reads DCC.getDriveawayLocoId s' mem' (DCC.longAddrMarker ||| .ofInt id).toInt16) ∧
    (0 ≤ id → id ≤ 10239 → ∀ reverse, Answers (DCC.setConsistId id reverse cb) s mem cb 1 fun s' mem' =>
      Reads DCC.getConsistId s' mem' (.ofInt id) ∧
      (id ≠ 0 → Reads DCC.getDriveawayLocoId s' mem' (.ofInt id))) :=
  ⟨answers_setLocoId_short h hplain, answers_setLocoId_long h hplain,
    answers_setConsistId h hplain⟩

/-- Loco 5000, in a decoder that has been in consist 3. -/
theorem addresses_read_back_loco5000 :
    Answers (DCC.setLocoId 5000 ()) (idle .shield ()) (Function.update (fun _ => 255) 19 3) () 1
      fun s' mem' =>
        Reads DCC.getLocoId s' mem' 21384 ∧ Reads DCC.getDriveawayLocoId s' mem' 21384 := by
  have hvalue : (DCC.longAddrMarker ||| .ofInt 5000).toInt16 = 21384 := by decide
  rw [← hvalue]
  exact (addresses_read_back (s := idle .shield ()) ProgTracks.canProgram_shield (by decide)
    _ () 5000).2.1 (by decide) (by decide)

end DCCACK

end CommandStation
