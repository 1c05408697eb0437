import CommandStation.DCCACK.Bench
import CommandStation.DCCACK.Attempts

/-!
# A decoder on the programming track

The instructions of service mode in direct mode: a byte or a bit of a CV is verified or written. The
decoder of this file acknowledges a verification if and only if it is right, and every write. What the
programs do with it is derived from rules, one for each kind of opcode: `Yields` goes backwards through
a program, from the callback to its start.

With answers that are no one's, nothing can be said about the value of a CV. But a byte is called back
only if the decoder has just acknowledged that it is this byte, which is what `Verified` is about.
-/

namespace CommandStation

open CommandStation.Lib

/-- The configuration variables, and the answer to the last instruction. -/
structure ServiceDecoder where
  cv : UInt16 → UInt8
  acks : Bool

namespace ServiceDecoder

/-- The CV with this number in the first two bytes, `011100AA AAAAAAAA`. -/
def address (b0 b1 : UInt8) : UInt16 := (((b0 &&& 0x03).toUInt16 <<< 8) ||| b1.toUInt16) + 1

def bit (byte bitNum : UInt8) : Bool := (byte >>> bitNum) &&& 1 = 1

def setBit (byte bitNum : UInt8) (on : Bool) : UInt8 :=
  if on then byte ||| (1 <<< bitNum) else byte &&& ~~~(1 <<< bitNum)

/-- The byte without its lowest `n` bits. -/
def upper (byte : UInt8) (n : Nat) : UInt8 := .ofNat (byte.toNat >>> n)

/-- What an instruction does. -/
def receive (d : ServiceDecoder) : List UInt8 → ServiceDecoder
  | [b0, b1, b2] =>
    let cv := address b0 b1
    if b0 &&& 0xFC = 0x7C then ⟨Function.update d.cv cv b2, true⟩  -- write byte
    else if b0 &&& 0xFC = 0x74 then { d with acks := d.cv cv == b2 }  -- verify byte
    else if b0 &&& 0xFC = 0x78 ∧ b2 &&& 0xF0 = 0xF0 then  -- write bit
      ⟨Function.update d.cv cv (setBit (d.cv cv) (b2 &&& 0x07) (b2 &&& 0x08 = 0x08)), true⟩
    else if b0 &&& 0xFC = 0x78 ∧ b2 &&& 0xF0 = 0xE0 then  -- verify bit
      { d with acks := bit (d.cv cv) (b2 &&& 0x07) == decide (b2 &&& 0x08 = 0x08) }
    else { d with acks := false }
  | _ => { d with acks := false }

end ServiceDecoder

theorem toNat_word (high low : UInt8) :
    ((high.toUInt16 <<< 8) ||| low.toUInt16).toNat = high.toNat * 256 + low.toNat := by
  have hhigh := high.toNat_lt
  simp only [UInt16.toNat_or, UInt16.toNat_shiftLeft, UInt8.toNat_toUInt16, UInt16.reduceToNat,
    Nat.shiftLeft_eq, Nat.reduceMod, Nat.reducePow]
  rw [Nat.mod_eq_of_lt (by omega), Nat.mul_comm]
  exact (Nat.two_pow_add_eq_or_of_lt (i := 8) low.toNat_lt high.toNat).symm

/-- The decoder at the end of the track. -/
def service : Device ServiceDecoder where
  send := ServiceDecoder.receive
  ack d := some (d.acks, d)

namespace ServiceDecoder

/-! ## Instructions -/

/-- The third byte of a bit instruction. -/
theorem bitByte (bitNum : UInt8) (h : bitNum < 8) (on : Bool) : ∀ kind ∈ [0xE0, 0xF0],
    (kind ||| (if on then 0x08 else 0x00) ||| bitNum) &&& 0xF0 = kind ∧
      (kind ||| (if on then 0x08 else 0x00) ||| bitNum) &&& 0x07 = bitNum ∧
      decide ((kind ||| (if on then 0x08 else 0x00) ||| bitNum) &&& 0x08 = 0x08) = on := by
  revert bitNum on
  apply byte_forall
  decide +kernel

/-- The first byte of an instruction holds the two high bits of the address. -/
theorem addressByte : ∀ high : UInt8, high < 4 → ∀ opcode ∈ ([0x74, 0x78, 0x7C] : List UInt8),
    ((high &&& 0x03) ||| opcode) &&& 0x03 = high ∧
      ((high &&& 0x03) ||| opcode) &&& 0xFC = opcode := by
  apply byte_forall
  decide +kernel

variable {cv : UInt16} (hlow : 1 ≤ cv) (hhigh : cv ≤ 1024)

include hlow hhigh

/-- The packets of the service mode have the number of the CV in ten bits. -/
theorem address_cv : ∀ opcode ∈ [0x74, 0x78, 0x7C],
    address (DCC.cv1 opcode cv) (DCC.cv2 cv) = cv ∧ DCC.cv1 opcode cv &&& 0xFC = opcode := by
  have hlow' := UInt16.le_iff_toNat_le.mp hlow
  have hhigh' := UInt16.le_iff_toNat_le.mp hhigh
  simp only [UInt16.reduceToNat] at hlow' hhigh'
  have hcv : (cv - 1).toNat = cv.toNat - 1 := by
    rw [UInt16.toNat_sub_of_le _ _ hlow]
    rfl
  have hhigh : ((cv - 1) >>> 8).toUInt8.toNat = (cv.toNat - 1) / 256 := by
    rw [toNat_highByte, hcv]
  intro opcode hopcode
  obtain ⟨hbits, hkept⟩ := addressByte ((cv - 1) >>> 8).toUInt8
    (UInt8.lt_iff_toNat_lt.mpr (by simp only [hhigh, UInt8.reduceToNat]; omega)) opcode hopcode
  refine ⟨?_, hkept⟩
  rw [← UInt16.toNat_inj, address, DCC.cv1, hbits, UInt16.toNat_add, toNat_word, hhigh, DCC.cv2,
    UInt16.toNat_toUInt8, hcv]
  simp only [UInt16.reduceToNat]
  omega

theorem receive_writeByte (d : ServiceDecoder) (byte : UInt8) :
    d.receive [DCC.cv1 0x7C cv, DCC.cv2 cv, byte] = ⟨Function.update d.cv cv byte, true⟩ := by
  obtain ⟨haddress, hopcode⟩ := address_cv hlow hhigh 0x7C (by decide)
  rw [receive, if_pos hopcode, haddress]

theorem receive_verifyByte (d : ServiceDecoder) (byte : UInt8) :
    d.receive [DCC.cv1 0x74 cv, DCC.cv2 cv, byte] = { d with acks := d.cv cv == byte } := by
  obtain ⟨haddress, hopcode⟩ := address_cv hlow hhigh 0x74 (by decide)
  rw [receive, if_neg (by rw [hopcode]; decide), if_pos hopcode, haddress]

theorem receive_writeBit (d : ServiceDecoder) {bitNum : UInt8} (h : bitNum < 8) (on : Bool) :
    d.receive [DCC.cv1 0x78 cv, DCC.cv2 cv, 0xF0 ||| (if on then 0x08 else 0x00) ||| bitNum] =
      ⟨Function.update d.cv cv (setBit (d.cv cv) bitNum on), true⟩ := by
  obtain ⟨haddress, hopcode⟩ := address_cv hlow hhigh 0x78 (by decide)
  obtain ⟨hkind, hnum, hon⟩ := bitByte bitNum h on 0xF0 (by decide)
  rw [receive, if_neg (by rw [hopcode]; decide), if_neg (by rw [hopcode]; decide),
    if_pos ⟨hopcode, hkind⟩, haddress, hnum, hon]

theorem receive_verifyBit (d : ServiceDecoder) {bitNum : UInt8} (h : bitNum < 8) (on : Bool) :
    d.receive [DCC.cv1 0x78 cv, DCC.cv2 cv, 0xE0 ||| (if on then 0x08 else 0x00) ||| bitNum] =
      { d with acks := bit (d.cv cv) bitNum == on } := by
  obtain ⟨haddress, hopcode⟩ := address_cv hlow hhigh 0x78 (by decide)
  obtain ⟨hkind, hnum, hon⟩ := bitByte bitNum h on 0xE0 (by decide)
  rw [receive, if_neg (by rw [hopcode]; decide), if_neg (by rw [hopcode]; decide),
    if_neg (by rw [hkind]; exact fun h => absurd h.2 (by decide)), if_pos ⟨hopcode, hkind⟩,
    haddress, hnum, hon]

omit hlow hhigh in
theorem bit_eq_getLsbD (byte : UInt8) {bitNum : UInt8} (h : bitNum < 8) :
    bit byte bitNum = byte.toBitVec.getLsbD bitNum.toNat := by
  have hlt : bitNum.toNat < 8 := UInt8.lt_iff_toNat_lt.mp h
  rw [bit, Bool.eq_iff_iff, decide_eq_true_iff, ← UInt8.toNat_inj, UInt8.toNat_and,
    UInt8.toNat_shiftRight, BitVec.getLsbD, Nat.testBit, UInt8.toNat_toBitVec]
  simp [Nat.mod_eq_of_lt hlt, Nat.and_comm]

omit hlow hhigh in
theorem bit_setBit (byte : UInt8) {bitNum : UInt8} (h : bitNum < 8) (on : Bool) :
    bit (setBit byte bitNum on) bitNum = on := by
  have hlt : bitNum.toNat < 8 := UInt8.lt_iff_toNat_lt.mp h
  rw [bit_eq_getLsbD _ h]
  cases on with
  | false => simp [setBit, Nat.mod_eq_of_lt hlt, hlt]
  | true => simp [setBit, Nat.mod_eq_of_lt hlt, hlt]

end ServiceDecoder

/-! ## Rules -/

/-- With the registers `r` and the CVs `mem` the program calls back `value`, and leaves the CVs
`mem'`. -/
def Yields (program : List AckOp) (r : AckRegisters) (mem : UInt16 → UInt8) (value : Int16)
    (mem' : UInt16 → UInt8) : Prop :=
  ∀ acks, (perform service program r ⟨mem, acks⟩).result = some value ∧
    (perform service program r ⟨mem, acks⟩).device.cv = mem'

namespace Yields

variable {op : AckOp} {rest : List AckOp} {r r' : AckRegisters} {mem mem' : UInt16 → UInt8}
  {value : Int16}

theorem next (ha : op.action r = .next r') (h : Yields rest r' mem value mem') :
    Yields (op :: rest) r mem value mem' := by
  intro acks
  rw [perform_next ha]
  exact h acks

theorem skip (ha : op.action r = .skip) (h : Yields (DCCACK.skipped rest) r mem value mem') :
    Yields (op :: rest) r mem value mem' := by
  intro acks
  rw [perform_skip ha]
  exact h acks

theorem call (ha : op.action r = .call value r') : Yields (op :: rest) r mem value mem := by
  intro acks
  rw [perform_call ha]
  exact ⟨rfl, rfl⟩

/-- A callback if there was an ack, and there was. -/
theorem acked (ha : op.action r = .callIf r r.ackReceived value) (hack : r.ackReceived = true) :
    Yields (op :: rest) r mem value mem := by
  have hcall : op.action r = .call value r := by rw [ha, hack]; rfl
  exact call hcall

/-- A callback if there was an ack, and there was none. -/
theorem nacked {value' : Int16} (ha : op.action r = .callIf r r.ackReceived value')
    (hack : r.ackReceived = false) (h : Yields rest r mem value mem') :
    Yields (op :: rest) r mem value mem' := by
  apply next _ h
  rw [ha, hack]
  rfl

theorem nakfail (hack : r.ackReceived = true) (h : Yields rest r mem value mem') :
    Yields (.nakfail :: rest) r mem value mem' := by
  apply next _ h
  rw [AckOp.action, hack]
  rfl

theorem itskip (hack : r.ackReceived = true)
    (h : Yields (DCCACK.skipped rest) r mem value mem') :
    Yields (.itskip :: rest) r mem value mem' :=
  skip (if_pos hack) h

theorem not_itskip (hack : r.ackReceived = false) (h : Yields rest r mem value mem') :
    Yields (.itskip :: rest) r mem value mem' := by
  apply next _ h
  rw [AckOp.action, hack]
  rfl

/-- An instruction and its answer. -/
theorem exchange {packet : List UInt8} {write : Bool} (ha : op.action r = .send packet write)
    {mem'' : UInt16 → UInt8} {ack : Bool}
    (hreceive : ∀ acks, ServiceDecoder.receive ⟨mem, acks⟩ packet = ⟨mem'', ack⟩)
    (h : Yields rest { r with ackReceived := ack } mem'' value mem') :
    Yields (op :: .wack :: rest) r mem value mem' := by
  intro acks
  have hsend : service.send ⟨mem, acks⟩ packet = ⟨mem'', ack⟩ := hreceive acks
  rw [perform_send ha, hsend, perform_wait rfl rfl]
  exact h ack

section

variable (hlow : 1 ≤ r.ackManagerCv) (hhigh : r.ackManagerCv ≤ 1024)

include hlow hhigh

theorem writeByte
    (h : Yields rest { r with ackReceived := true }
      (Function.update mem r.ackManagerCv r.ackManagerByte) value mem') :
    Yields (.wb :: .wack :: rest) r mem value mem' :=
  exchange rfl (fun _ => ServiceDecoder.receive_writeByte hlow hhigh _ _) h

theorem verifyByte
    (h : Yields rest { r with ackReceived := mem r.ackManagerCv == r.ackManagerByte } mem value mem') :
    Yields (.vb :: .wack :: rest) r mem value mem' :=
  exchange rfl (fun _ => ServiceDecoder.receive_verifyByte hlow hhigh _ _) h

variable (hbit : r.ackManagerBitNum < 8)

include hbit

theorem writeBit {on : Bool} (ha : op.action r = .send (r.writeBit on) true)
    (h : Yields rest { r with ackReceived := true }
      (Function.update mem r.ackManagerCv
        (ServiceDecoder.setBit (mem r.ackManagerCv) r.ackManagerBitNum on)) value mem') :
    Yields (op :: .wack :: rest) r mem value mem' :=
  exchange ha (fun _ => ServiceDecoder.receive_writeBit hlow hhigh _ hbit on) h

theorem verifyBit {on : Bool} (ha : op.action r = .send (r.verifyBit on) false)
    (h : Yields rest { r with
      ackReceived := ServiceDecoder.bit (mem r.ackManagerCv) r.ackManagerBitNum == on } mem value mem') :
    Yields (op :: .wack :: rest) r mem value mem' :=
  exchange ha (fun _ => ServiceDecoder.receive_verifyBit hlow hhigh _ hbit on) h

end

/-! ## Reading a byte -/

theorem upper_zero (byte : UInt8) : ServiceDecoder.upper byte 0 = byte := by
  rw [ServiceDecoder.upper, Nat.shiftRight_zero, UInt8.ofNat_toNat]

theorem upper_eight (byte : UInt8) : ServiceDecoder.upper byte 8 = 0 := by
  rw [ServiceDecoder.upper, Nat.shiftRight_eq_div_pow, Nat.div_eq_of_lt byte.toNat_lt]
  rfl

theorem getElem_upper (byte : UInt8) (n : Nat) {i : Nat} (hi : i < 8) :
    (ServiceDecoder.upper byte n).toBitVec[i] = byte.toBitVec.getLsbD (n + i) := by
  rw [ServiceDecoder.upper, UInt8.toBitVec_ofNat', ← BitVec.getLsbD_eq_getElem hi,
    BitVec.getLsbD_ofNat, Nat.testBit_shiftRight, decide_eq_true hi, Bool.true_and]
  rfl

/-- The bit that an answer tells is merged. -/
theorem upper_merge (byte : UInt8) {n : Nat} (hn : n < 8) :
    (ServiceDecoder.upper byte (n + 1) <<< 1) |||
      (if !(ServiceDecoder.bit byte (.ofNat n) == false) then 1 else 0) =
    ServiceDecoder.upper byte n := by
  have hn' : (UInt8.ofNat n).toNat = n := by
    rw [UInt8.toNat_ofNat', Nat.mod_eq_of_lt (by omega)]
  rw [ServiceDecoder.bit_eq_getLsbD _ (UInt8.lt_iff_toNat_lt.mpr (by rw [hn']; exact hn)), hn']
  apply UInt8.toBitVec_inj.mp
  ext i hi
  rw [getElem_upper byte n hi]
  -- the lowest bit is the one that is merged, the others are those above it
  cases i with
  | zero => cases hbit : byte.toBitVec.getLsbD n <;> simp
  | succ i =>
    have hupper := getElem_upper byte (n + 1) (i := i) (by omega)
    cases hbit : byte.toBitVec.getLsbD n <;> simp [hupper, Nat.add_right_comm, Nat.add_assoc]

section

variable (hlow : 1 ≤ r.ackManagerCv) (hhigh : r.ackManagerCv ≤ 1024)

include hlow hhigh

/-- The lowest `n` bits of the CV are read when the others are known. -/
theorem mergeBits {n : Nat} (hn : n ≤ 8)
    (hbyte : r.ackManagerByte = ServiceDecoder.upper (mem r.ackManagerCv) n)
    (hbit : r.ackManagerBitNum = .ofNat n - 1)
    (h : ∀ bitNum ack, Yields rest { r with
      ackManagerByte := mem r.ackManagerCv, ackManagerBitNum := bitNum, ackReceived := ack }
      mem value mem') :
    Yields (AckProgram.mergeBits n ++ rest) r mem value mem' := by
  induction n generalizing r with
  | zero =>
    have hrest := h r.ackManagerBitNum r.ackReceived
    rw [← upper_zero (mem r.ackManagerCv), ← hbyte] at hrest
    exact hrest
  | succ n ih =>
    have hbit' : r.ackManagerBitNum = .ofNat n := by
      rw [hbit, UInt8.ofNat_add]
      exact UInt8.add_sub_cancel _ _
    have hlt : r.ackManagerBitNum < 8 := by
      rw [hbit', UInt8.lt_iff_toNat_lt, UInt8.toNat_ofNat']
      exact Nat.lt_of_le_of_lt (Nat.mod_le _ _) hn
    refine verifyBit hlow hhigh hlt rfl ?_
    apply next rfl
    apply ih
    · exact hlow
    · exact hhigh
    · exact Nat.le_of_succ_le hn
    · rw [hbyte, hbit']
      exact upper_merge _ hn
    · exact congrArg (· - 1) hbit'
    · exact h

/-- All of the CV is read. -/
theorem mergeByte (hbyte : r.ackManagerByte = 0) (hbit : r.ackManagerBitNum = 7)
    (h : ∀ bitNum ack, Yields rest { r with
      ackManagerByte := mem r.ackManagerCv, ackManagerBitNum := bitNum, ackReceived := ack }
      mem value mem') :
    Yields (AckProgram.mergeBits 8 ++ rest) r mem value mem' := by
  apply mergeBits hlow hhigh (Nat.le_refl 8) _ hbit h
  rw [hbyte, upper_eight]

/-- The bits of a CV are read one after the other, and give its byte. -/
theorem readByte
    (h : ∀ bitNum ack, Yields rest { r with
      ackManagerByte := mem r.ackManagerCv, ackManagerBitNum := bitNum, ackReceived := ack }
      mem value mem') :
    Yields (AckProgram.readByte ++ rest) r mem value mem' := by
  have hseven : (7 : UInt8) < 8 := by decide
  have hsix : (7 : UInt8) - 1 = 6 := by decide
  have hfirst := upper_merge (mem r.ackManagerCv) (show 7 < 8 by decide)
  rw [upper_eight] at hfirst
  refine next rfl ?_
  refine verifyBit hlow hhigh hseven rfl ?_
  refine next rfl ?_
  have hrest : ∀ byte bitNum ack, byte = ServiceDecoder.upper (mem r.ackManagerCv) 7 → bitNum = 6 →
      Yields (AckProgram.mergeBits 7 ++ rest)
        { r with ackManagerByte := byte, ackManagerBitNum := bitNum, ackReceived := ack }
        mem value mem' := by
    intro byte bitNum ack hbyte hbit
    apply mergeBits
    · exact hlow
    · exact hhigh
    · exact Nat.le_succ 7
    · exact hbyte
    · exact hbit
    · exact h
  rcases Bool.eq_false_or_eq_true (ServiceDecoder.bit (mem r.ackManagerCv) 7) with hbit7 | hbit7
  · -- bit 7 is tested the other way round, too
    refine not_itskip (congrArg (· == false) hbit7) ?_
    refine next rfl ?_
    refine verifyBit hlow hhigh hseven rfl ?_
    refine nakfail (congrArg (· == true) hbit7) ?_
    refine next rfl ?_
    refine next rfl ?_
    exact hrest _ _ _ hfirst rfl
  · refine itskip (congrArg (· == false) hbit7) ?_
    exact hrest _ _ _ hfirst hsix

end

end Yields

/-! ## The programs for a CV -/

namespace AckProgram

variable {r : AckRegisters} {mem : UInt16 → UInt8} (hlow : 1 ≤ r.ackManagerCv)
  (hhigh : r.ackManagerCv ≤ 1024)

include hlow hhigh

theorem yields_readCv :
    Yields readCv.tail r mem (mem r.ackManagerCv).toUInt16.toInt16 mem := by
  refine Yields.readByte hlow hhigh fun bitNum ack => ?_
  refine Yields.verifyByte hlow hhigh ?_
  exact Yields.acked rfl (beq_self_eq_true _)

theorem yields_verifyByte :
    Yields verifyByte.tail r mem (mem r.ackManagerCv).toUInt16.toInt16 mem := by
  refine Yields.next rfl ?_
  refine Yields.verifyByte hlow hhigh ?_
  by_cases hequal : mem r.ackManagerCv = r.ackManagerByteVerify
  · have hack : (mem r.ackManagerCv == r.ackManagerByteVerify) = true := beq_iff_eq.mpr hequal
    rw [hequal]
    exact Yields.acked rfl (hequal ▸ hack)
  · have hnak : (mem r.ackManagerCv == r.ackManagerByteVerify) = false := beq_eq_false_iff_ne.mpr hequal
    refine Yields.nacked rfl hnak ?_
    refine Yields.readByte hlow hhigh fun bitNum ack => ?_
    refine Yields.verifyByte hlow hhigh ?_
    exact Yields.acked rfl (beq_self_eq_true _)

theorem yields_writeByte :
    Yields writeByte.tail r mem 1 (Function.update mem r.ackManagerCv r.ackManagerByte) := by
  refine Yields.writeByte hlow hhigh ?_
  exact Yields.acked rfl rfl

variable (hbit : r.ackManagerBitNum < 8)

include hbit

/-- The bit is verified one way and then the other. -/
theorem yields_bit {first second callFirst callSecond : AckOp} {on : Bool}
    (hfirst : ∀ r : AckRegisters, first.action r = .send (r.verifyBit on) false)
    (hsecond : ∀ r : AckRegisters, second.action r = .send (r.verifyBit !on) false)
    (hcallFirst : ∀ r : AckRegisters,
      callFirst.action r = .callIf r r.ackReceived (if on then 1 else 0))
    (hcallSecond : ∀ r : AckRegisters,
      callSecond.action r = .callIf r r.ackReceived (if !on then 1 else 0)) :
    Yields [first, .wack, callFirst, second, .wack, callSecond, .callfail] r mem
      (if ServiceDecoder.bit (mem r.ackManagerCv) r.ackManagerBitNum then 1 else 0) mem := by
  refine Yields.verifyBit hlow hhigh hbit (hfirst r) ?_
  by_cases hequal : ServiceDecoder.bit (mem r.ackManagerCv) r.ackManagerBitNum = on
  · rw [hequal]
    exact Yields.acked (hcallFirst _) (beq_self_eq_true on)
  · have hother := Bool.eq_not_of_ne hequal
    refine Yields.nacked (hcallFirst _) (beq_eq_false_iff_ne.mpr hequal) ?_
    refine Yields.verifyBit hlow hhigh hbit (hsecond _) ?_
    rw [hother]
    exact Yields.acked (hcallSecond _) (beq_self_eq_true _)

theorem yields_verifyBit0 : Yields verifyBit0.tail r mem
    (if ServiceDecoder.bit (mem r.ackManagerCv) r.ackManagerBitNum then 1 else 0) mem :=
  yields_bit hlow hhigh hbit (fun _ => rfl) (fun _ => rfl) (fun _ => rfl) (fun _ => rfl)

theorem yields_verifyBit1 : Yields verifyBit1.tail r mem
    (if ServiceDecoder.bit (mem r.ackManagerCv) r.ackManagerBitNum then 1 else 0) mem :=
  yields_bit hlow hhigh hbit (fun _ => rfl) (fun _ => rfl) (fun _ => rfl) (fun _ => rfl)

theorem yields_writeBit {write verify : AckOp} {on : Bool}
    (hwrite : ∀ r : AckRegisters, write.action r = .send (r.writeBit on) true)
    (hverify : ∀ r : AckRegisters, verify.action r = .send (r.verifyBit on) false) :
    Yields [write, .wack, verify, .wack, .itc1, .callfail] r mem 1
      (Function.update mem r.ackManagerCv
        (ServiceDecoder.setBit (mem r.ackManagerCv) r.ackManagerBitNum on)) := by
  refine Yields.writeBit hlow hhigh hbit (hwrite r) ?_
  refine Yields.verifyBit hlow hhigh hbit (hverify _) ?_
  refine Yields.acked rfl ?_
  change (ServiceDecoder.bit (Function.update mem r.ackManagerCv _ r.ackManagerCv) _ == on) = true
  rw [Function.update_self, ServiceDecoder.bit_setBit _ hbit]
  exact beq_self_eq_true on

end AckProgram

/-! ## The interpreter and the decoder -/

namespace DCCACK

variable {κ : Type}

/-- The request, made in the state `s` with a decoder with the CVs `mem` on the track, is called back
with `value` on the first attempt, however long anything takes; then `Post` holds of the interpreter
and of the CVs. -/
def Answers (request : DCCACK κ → DCCACK κ) (s : DCCACK κ) (mem : UInt16 → UInt8) (cb : κ)
    (value : Int16) (Post : DCCACK κ → (UInt16 → UInt8) → Prop) : Prop :=
  ∀ ticks, Fair ticks → ∀ acks, ∃ n s' d',
    states (bench service) (request s, ⟨mem, acks⟩) ticks n = (s', d') ∧ s'.isActive = false ∧
    s'.calls = s.calls ++ [(cb, value)] ∧ s'.past = [] ∧ Post s' d'.cv

theorem answers_of_eq {request request' : DCCACK κ → DCCACK κ} {s : DCCACK κ}
    {mem : UInt16 → UInt8} {cb : κ} {value : Int16} {Post : DCCACK κ → (UInt16 → UInt8) → Prop}
    (h : request s = request' s) (ha : Answers request' s mem cb value Post) :
    Answers request s mem cb value Post := by
  rw [Answers, h]
  exact ha

/-- What the interpreter does with a device is a run of it. -/
theorem exists_run_of_states {δ : Type} (dev : Device δ) (x : DCCACK κ × δ) (ticks : Nat → Tick)
    (n : Nat) : ∃ is, (states (bench dev) x ticks n).1 = run turn x.1 is := by
  induction n with
  | zero => exact ⟨[], rfl⟩
  | succ n ih =>
    obtain ⟨is, his⟩ := ih
    have hstep : ∀ (y : DCCACK κ × δ) t, ∃ i, (bench dev y t).1 = y.1.turn i :=
      fun y t => ⟨_, rfl⟩
    obtain ⟨i, hi⟩ := hstep (states (bench dev) x ticks n) (ticks n)
    refine ⟨is ++ [i], ?_⟩
    rw [run_append, ← his, states, hi]
    rfl

variable {s : DCCACK κ} {t : Nat} {cv : UInt16} {b : UInt8} {rest : List AckOp} {cb : κ}
  {mem mem' : UInt16 → UInt8} {value : Int16} {Post : DCCACK κ → (UInt16 → UInt8) → Prop}

/-- The registers at the start of a program. -/
def loaded (r : AckRegisters) (cv : UInt16) (b : UInt8) : AckRegisters :=
  { r with ackManagerCv := cv, ackManagerByte := b, ackManagerByteVerify := b, ackManagerBitNum := b }

/-- **From the rules to the interpreter.** -/
theorem answers_setup (hstart : s.tracks.CanStart t) (hpower : s.tracks.power t ≠ some .overload)
    (hprogram : .baseline :: rest ∈ AckProgram.all)
    (hyields : Yields rest (loaded s.registers cv b) mem value mem') (hvalue : value ≠ -1)
    (hpost : ∀ s', Finished (s.setup cv b (.baseline :: rest) cb) s' value → Post s' mem') :
    Answers (fun s => s.setup cv b (.baseline :: rest) cb) s mem cb value Post := by
  intro ticks hfair acks
  have hsetup := @setup_eq κ s t cv b (.baseline :: rest) cb hstart
  have hregisters : (s.setup cv b (.baseline :: rest) cb).registers = loaded s.registers cv b := by
    rw [hsetup]
    rfl
  have hon : (s.setup cv b (.baseline :: rest) cb).getPower ≠ some .overload := by
    rw [power_setup hstart]
    split
    · exact nofun
    · exact hpower
  obtain ⟨hresult, hcv⟩ := hyields acks
  rw [← hregisters] at hresult hcv
  -- the bench gets to the callback with the value that the rules derive
  obtain ⟨n, s', hs', hcalled⟩ := bench_calls hfair (by rw [hsetup]; rfl) hon hresult hvalue
  have hcalls : s'.calls = s.calls ++ [(cb, value)] := by
    rw [hcalled.calls, hsetup]
    rfl
  refine ⟨n, s', _, hs', ?_, hcalls, ?_, ?_⟩
  · rw [isActive, hcalled.prog]
    rfl
  · rw [hcalled.past, hsetup]
    rfl
  · -- the run to it is one of the interpreter, so the state there is a finished one
    rw [hcv]
    apply hpost
    obtain ⟨is, his⟩ :=
      exists_run_of_states service (s.setup cv b (.baseline :: rest) cb, ⟨mem, acks⟩) ticks n
    rw [hs'] at his
    rcases @setup_run κ s t cv b _ cb hstart (AckOp.repeatable_all _ hprogram) is with
      ⟨p, hrunning⟩ | ⟨value', hfinished⟩
    · rw [← his] at hrunning
      have hprog := hcalled.prog
      rw [hrunning.prog] at hprog
      cases hprog
    · rw [← his] at hfinished
      have heq := hfinished.calls
      rw [hcalled.calls] at heq
      obtain rfl : value = value' := by simpa using heq
      exact hfinished

end DCCACK

/-! ## Any answers -/

/-- An instruction and its answer. -/
theorem perform_exchange {op : AckOp} {rest : List AckOp} {r : AckRegisters} {packet : List UInt8}
    {write : Bool} {acks : List Bool} {packets : List (List UInt8)} {value : Int16}
    (ha : op.action r = .send packet write)
    (h : perform oracle (op :: .wack :: rest) r acks = ⟨packets, some value, []⟩) :
    ∃ ack acks' packets', acks = ack :: acks' ∧ packets = packet :: packets' ∧
      perform oracle rest { r with ackReceived := ack } acks' = ⟨packets', some value, []⟩ := by
  rw [perform_send ha] at h
  cases acks with
  | nil =>
    rw [perform_wait_none rfl rfl, Performed.after] at h
    simp at h
  | cons ack acks =>
    rw [perform_wait rfl rfl, Performed.after] at h
    simp only [Performed.mk.injEq, List.cons_append, List.nil_append] at h
    obtain ⟨hpackets, hresult, hdevice⟩ := h
    exact ⟨ack, acks, _, rfl, hpackets.symm, by rw [← hresult, ← hdevice]⟩

/-- Every instruction has been answered, the last one is the verification of the byte that is called
back, and it was acknowledged. -/
def VerifiedBy (cv : UInt16) (packets : List (List UInt8)) (acks : List Bool) (value : Int16) : Prop :=
  packets.length = acks.length ∧ acks.getLast? = some true ∧
    ∃ byte : UInt8, value = byte.toUInt16.toInt16 ∧
      packets.getLast? = some [DCC.cv1 0x74 cv, DCC.cv2 cv, byte]

theorem VerifiedBy.cons {cv : UInt16} {packets : List (List UInt8)} {acks : List Bool} {value : Int16}
    (h : VerifiedBy cv packets acks value) (packet : List UInt8) (ack : Bool) :
    VerifiedBy cv (packet :: packets) (ack :: acks) value := by
  obtain ⟨hlength, hlast, byte, hvalue, hpacket⟩ := h
  refine ⟨congrArg (· + 1) hlength, ?_, byte, hvalue, ?_⟩
  · rw [List.getLast?_cons, hlast]
    rfl
  · rw [List.getLast?_cons, hpacket]
    rfl

/-- A value that is not negative is a verified byte. -/
def Verified (cv : UInt16) (program : List AckOp) : Prop :=
  ∀ r : AckRegisters, r.ackManagerCv = cv → ∀ acks packets value,
    perform oracle program r acks = ⟨packets, some value, []⟩ → 0 ≤ value →
    VerifiedBy cv packets acks value

namespace Verified

variable {cv : UInt16} {op : AckOp} {rest : List AckOp}

theorem exchange (ha : ∀ r : AckRegisters, ∃ packet write, op.action r = .send packet write)
    (h : Verified cv rest) : Verified cv (op :: .wack :: rest) := by
  intro r hr acks packets value hperform hvalue
  obtain ⟨packet, write, ha⟩ := ha r
  obtain ⟨ack, acks, packets, rfl, rfl, hrest⟩ := perform_exchange ha hperform
  exact (h { r with ackReceived := ack } hr acks packets value hrest hvalue).cons packet ack

/-- The byte is verified and called back. -/
theorem verify
    (ha : ∀ r : AckRegisters, op.action r =
      .callIf r r.ackReceived r.ackManagerByte.toUInt16.toInt16)
    (h : Verified cv rest) : Verified cv (.vb :: .wack :: op :: rest) := by
  intro r hr acks packets value hperform hvalue
  obtain ⟨ack, acks, packets, rfl, rfl, hrest⟩ := perform_exchange rfl hperform
  cases ack with
  | true =>
    rw [perform_call (ha _)] at hrest
    cases hrest
    refine ⟨rfl, rfl, r.ackManagerByte, rfl, ?_⟩
    rw [← hr]
    rfl
  | false =>
    rw [perform_next (ha _)] at hrest
    exact (h { r with ackReceived := false } hr acks packets value hrest hvalue).cons _ _

theorem next {f : AckRegisters → AckRegisters} (ha : ∀ r : AckRegisters, op.action r = .next (f r))
    (hcv : ∀ r : AckRegisters, (f r).ackManagerCv = r.ackManagerCv) (h : Verified cv rest) :
    Verified cv (op :: rest) := by
  intro r hr acks packets value hperform hvalue
  rw [perform_next (ha r)] at hperform
  exact h (f r) ((hcv r).trans hr) acks packets value hperform hvalue

theorem nakfail (h : Verified cv rest) : Verified cv (.nakfail :: rest) := by
  intro r hr acks packets value hperform hvalue
  cases hack : r.ackReceived with
  | true =>
    have ha : AckOp.nakfail.action r = .next r := by rw [AckOp.action, hack]; rfl
    rw [perform_next ha] at hperform
    exact h r hr acks packets value hperform hvalue
  | false =>
    have ha : AckOp.nakfail.action r = .call (-1) r := by rw [AckOp.action, hack]; rfl
    rw [perform_call ha] at hperform
    cases hperform
    exact absurd hvalue (by decide)

theorem callfail : Verified cv (.callfail :: rest) := by
  intro r hr acks packets value hperform hvalue
  rw [perform_call rfl] at hperform
  cases hperform
  exact absurd hvalue (by decide)

theorem itskip (h : Verified cv rest) (hskip : Verified cv (DCCACK.skipped rest)) :
    Verified cv (.itskip :: rest) := by
  intro r hr acks packets value hperform hvalue
  cases hack : r.ackReceived with
  | true =>
    have ha : AckOp.itskip.action r = .skip := by rw [AckOp.action, hack]; rfl
    rw [perform_skip ha] at hperform
    exact hskip r hr acks packets value hperform hvalue
  | false =>
    have ha : AckOp.itskip.action r = .next r := by rw [AckOp.action, hack]; rfl
    rw [perform_next ha] at hperform
    exact h r hr acks packets value hperform hvalue

theorem mergeBits (h : Verified cv rest) (n : Nat) :
    Verified cv (AckProgram.mergeBits n ++ rest) := by
  induction n with
  | zero => exact h
  | succ n ih =>
    refine exchange (fun _ => ⟨_, _, rfl⟩) ?_
    exact next (fun _ => rfl) (fun _ => rfl) ih

theorem readByte (h : Verified cv rest) : Verified cv (AckProgram.readByte ++ rest) := by
  have hmerge := mergeBits h 7
  refine next (fun _ => rfl) (fun _ => rfl) ?_
  refine exchange (fun _ => ⟨_, _, rfl⟩) ?_
  refine next (fun _ => rfl) (fun _ => rfl) ?_
  refine itskip ?_ hmerge
  refine next (fun _ => rfl) (fun _ => rfl) ?_
  refine exchange (fun _ => ⟨_, _, rfl⟩) ?_
  apply nakfail
  refine next (fun _ => rfl) (fun _ => rfl) ?_
  exact next (fun _ => rfl) (fun _ => rfl) hmerge

theorem readCv (cv : UInt16) : Verified cv AckProgram.readCv.tail :=
  readByte (verify (fun _ => rfl) callfail)

theorem verifyByte (cv : UInt16) : Verified cv AckProgram.verifyByte.tail := by
  refine next (fun _ => rfl) (fun _ => rfl) ?_
  refine verify (fun _ => rfl) ?_
  exact readByte (verify (fun _ => rfl) callfail)

end Verified

namespace DCCACK

variable {κ : Type} {s : DCCACK κ} {t : Nat} {cv : UInt16} {b : UInt8} {program rest : List AckOp}
  {cb : κ} {value : Int16}

/-- A callback that has been made is not taken back. -/
theorem calls_run (s : DCCACK κ) (is : List AckInput) : s.calls <+: (run turn s is).calls := by
  apply inv_run_of_step (fun s' : DCCACK κ => s.calls <+: s'.calls)
  · intro s' i h
    rcases turn_quiet_or_calls s' i with hquiet | ⟨-, -, -, value, hcalls⟩
    · rw [hquiet.calls]
      exact h
    · rw [hcalls]
      exact h.trans (List.prefix_append _ _)
  · exact List.prefix_rfl

/-- A program is started. -/
theorem setup_started (h : s.tracks.CanStart t) :
    (s.setup cv b program cb).registers = loaded s.registers cv b ∧
      (s.setup cv b program cb).ackManagerCallback = cb ∧
      (s.setup cv b program cb).calls = s.calls ∧ (s.setup cv b program cb).isActive = true := by
  rw [setup_eq h]
  exact ⟨rfl, rfl, rfl, rfl⟩

/-- No program is started. -/
theorem setup_refused (h : ∀ t, ¬ s.tracks.CanStart t) :
    ∃ value, (value = -2 ∨ value = -3) ∧
      (s.setup cv b program cb).calls = s.calls ++ [(cb, value)] ∧
      (s.setup cv b program cb).ackManagerProg = s.ackManagerProg := by
  rw [setup]
  cases hdriver : s.tracks.unjoined.getProgDriver with
  | none => exact ⟨-3, .inr rfl, rfl, rfl⟩
  | some t =>
    have hmeasure : ¬ s.tracks.unjoined.track[t]?.any ProgDriver.canMeasureCurrent = true :=
      fun hmeasure => h t ⟨hdriver, hmeasure⟩
    simp only [hmeasure, Bool.false_eq_true, if_false]
    exact ⟨-2, .inl rfl, rfl, trivial⟩

/-- A byte is called back only when it is verified. -/
theorem verifiedBy_of_calls (hprogram : .baseline :: rest ∈ AckProgram.all) (hrest : Verified cv rest)
    (is : List AckInput)
    (hcalls : (run turn (s.setup cv b (.baseline :: rest) cb) is).calls = s.calls ++ [(cb, value)])
    (hvalue : 0 ≤ value) :
    VerifiedBy cv (run turn (s.setup cv b (.baseline :: rest) cb) is).attempt.packets
      (run turn (s.setup cv b (.baseline :: rest) cb) is).attempt.acks value := by
  by_cases hstart : ∃ t, s.tracks.CanStart t
  · obtain ⟨t, hstart⟩ := hstart
    have hsetup := @setup_eq κ s t cv b (.baseline :: rest) cb hstart
    rcases @setup_run κ s t cv b _ cb hstart (AckOp.repeatable_all _ hprogram) is with
      ⟨p, hrunning⟩ | ⟨value', hfinished⟩
    · rw [hrunning.calls, hsetup] at hcalls
      simp [load] at hcalls
    · have heq := hfinished.calls
      rw [hcalls, hsetup] at heq
      obtain rfl : value = value' := by simpa [load] using heq
      have hlast := hfinished.last []
      rw [progStart_setup hstart, perform_start rfl, List.append_nil] at hlast
      have hcv : (s.setup cv b (.baseline :: rest) cb).registers.ackManagerCv = cv := by
        rw [hsetup]
        rfl
      exact hrest _ hcv _ _ _ hlast hvalue
  · obtain ⟨value', hnegative, hrefused, -⟩ :=
      @setup_refused κ s cv b (.baseline :: rest) cb (not_exists.mp hstart)
    have hle := calls_run (s.setup cv b (.baseline :: rest) cb) is
    rw [hrefused, hcalls, List.prefix_append_right_inj] at hle
    obtain rfl : value' = value := by simpa using hle
    rcases hnegative with rfl | rfl <;> exact absurd hvalue (by decide)

/-! ## Programming a CV -/

theorem byteValue_ne_neg_one (byte : UInt8) : byte.toUInt16.toInt16 ≠ -1 := by
  revert byte
  apply byte_forall
  decide +kernel

section

variable {mem : UInt16 → UInt8} (hstart : s.tracks.CanStart t)
  (hpower : s.tracks.power t ≠ some .overload) (hlow : 1 ≤ cv) (hhigh : cv ≤ 1024)

include hstart hpower hlow hhigh

theorem answers_readCV :
    Answers (DCC.readCV cv cb) s mem cb (mem cv).toUInt16.toInt16 fun _ mem' => mem' = mem :=
  answers_setup hstart hpower (by decide)
    (AckProgram.yields_readCv (r := loaded s.registers cv 0) hlow hhigh)
    (byteValue_ne_neg_one _) fun _ _ => rfl

theorem answers_verifyCVByte (b : UInt8) :
    Answers (DCC.verifyCVByte cv b cb) s mem cb (mem cv).toUInt16.toInt16 fun _ mem' => mem' = mem :=
  answers_setup hstart hpower (by decide)
    (AckProgram.yields_verifyByte (r := loaded s.registers cv b) hlow hhigh)
    (byteValue_ne_neg_one _) fun _ _ => rfl

theorem answers_writeCVByte (b : UInt8) :
    Answers (DCC.writeCVByte cv b cb) s mem cb 1 fun _ mem' => mem' = Function.update mem cv b :=
  answers_setup hstart hpower (by decide)
    (AckProgram.yields_writeByte (r := loaded s.registers cv b) hlow hhigh)
    (by decide) fun _ _ => rfl

variable {bitNum : UInt8} (hbit : bitNum < 8)

include hbit

theorem answers_readCVBit :
    Answers (DCC.readCVBit cv bitNum cb) s mem cb
      (if ServiceDecoder.bit (mem cv) bitNum then 1 else 0) fun _ mem' => mem' = mem := by
  have hrequest : DCC.readCVBit cv bitNum cb s = s.setup cv bitNum AckProgram.readBit cb :=
    if_neg (UInt8.not_le.mpr hbit)
  refine @answers_of_eq κ _ (setup · cv bitNum AckProgram.readBit cb) _ _ _ _ _ hrequest ?_
  exact answers_setup hstart hpower (by decide)
    (AckProgram.yields_verifyBit1 (r := loaded s.registers cv bitNum) hlow hhigh hbit)
    (by split <;> decide) fun _ _ => rfl

/-- A bit is verified as the decoder has it, and nothing is written. -/
theorem answers_verifyCVBit (on : Bool) :
    Answers (DCC.verifyCVBit cv bitNum on cb) s mem cb
      (if ServiceDecoder.bit (mem cv) bitNum then 1 else 0) fun _ mem' => mem' = mem := by
  have hrequest : DCC.verifyCVBit cv bitNum on cb s =
      s.setup cv bitNum (if on then AckProgram.verifyBit1 else AckProgram.verifyBit0) cb :=
    if_neg (UInt8.not_le.mpr hbit)
  refine @answers_of_eq κ _ (setup · cv bitNum _ cb) _ _ _ _ _ hrequest ?_
  cases on with
  | true =>
    exact answers_setup hstart hpower (by decide)
      (AckProgram.yields_verifyBit1 (r := loaded s.registers cv bitNum) hlow hhigh hbit)
      (by split <;> decide) fun _ _ => rfl
  | false =>
    exact answers_setup hstart hpower (by decide)
      (AckProgram.yields_verifyBit0 (r := loaded s.registers cv bitNum) hlow hhigh hbit)
      (by split <;> decide) fun _ _ => rfl

/-- A bit is written, and the others of the CV are kept. -/
theorem answers_writeCVBit (on : Bool) :
    Answers (DCC.writeCVBit cv bitNum on cb) s mem cb 1 fun _ mem' =>
      mem' = Function.update mem cv (ServiceDecoder.setBit (mem cv) bitNum on) := by
  have hrequest : DCC.writeCVBit cv bitNum on cb s =
      s.setup cv bitNum (if on then AckProgram.writeBit1 else AckProgram.writeBit0) cb :=
    if_neg (UInt8.not_le.mpr hbit)
  refine @answers_of_eq κ _ (setup · cv bitNum _ cb) _ _ _ _ _ hrequest ?_
  cases on with
  | true =>
    exact answers_setup hstart hpower (by decide)
      (AckProgram.yields_writeBit (r := loaded s.registers cv bitNum) hlow hhigh hbit
        (fun _ => rfl) (fun _ => rfl)) (by decide) fun _ _ => rfl
  | false =>
    exact answers_setup hstart hpower (by decide)
      (AckProgram.yields_writeBit (r := loaded s.registers cv bitNum) hlow hhigh hbit
        (fun _ => rfl) (fun _ => rfl)) (by decide) fun _ _ => rfl

end

/-- **Service mode.** With a decoder that answers as it should, every request for a CV is called back
with what is in the CV, or the CV is changed as requested. Whatever the answers are, a value that is
called back by `readCV` or `verifyCVByte` has just been verified. -/
theorem cvs_are_programmed (s : DCCACK κ) (cv : UInt16) (b : UInt8) (cb : κ) :
    (∀ t, s.tracks.CanStart t → s.tracks.power t ≠ some .overload → 1 ≤ cv → cv ≤ 1024 →
      ∀ mem : UInt16 → UInt8,
        (Answers (DCC.readCV cv cb) s mem cb (mem cv).toUInt16.toInt16 fun _ mem' => mem' = mem) ∧
        (Answers (DCC.verifyCVByte cv b cb) s mem cb (mem cv).toUInt16.toInt16 fun _ mem' =>
          mem' = mem) ∧
        (Answers (DCC.writeCVByte cv b cb) s mem cb 1 fun _ mem' => mem' = Function.update mem cv b) ∧
        ∀ bitNum < 8, ∀ on,
          (Answers (DCC.readCVBit cv bitNum cb) s mem cb
            (if ServiceDecoder.bit (mem cv) bitNum then 1 else 0) fun _ mem' => mem' = mem) ∧
          (Answers (DCC.verifyCVBit cv bitNum on cb) s mem cb
            (if ServiceDecoder.bit (mem cv) bitNum then 1 else 0) fun _ mem' => mem' = mem) ∧
          (Answers (DCC.writeCVBit cv bitNum on cb) s mem cb 1 fun _ mem' =>
            mem' = Function.update mem cv (ServiceDecoder.setBit (mem cv) bitNum on))) ∧
    ∀ request ∈ [DCC.readCV cv cb, DCC.verifyCVByte cv b cb], ∀ is value,
      let s' := run turn (request s) is
      s'.calls = s.calls ++ [(cb, value)] → 0 ≤ value →
        VerifiedBy cv s'.attempt.packets s'.attempt.acks value := by
  constructor
  · intro t hstart hpower hlow hhigh mem
    refine ⟨answers_readCV hstart hpower hlow hhigh, answers_verifyCVByte hstart hpower hlow hhigh b,
      answers_writeCVByte hstart hpower hlow hhigh b, ?_⟩
    intro bitNum hbit on
    exact ⟨answers_readCVBit hstart hpower hlow hhigh hbit,
      answers_verifyCVBit hstart hpower hlow hhigh hbit on,
      answers_writeCVBit hstart hpower hlow hhigh hbit on⟩
  · intro request hrequest is value s' hcalls hvalue
    simp only [List.mem_cons, List.not_mem_nil, or_false] at hrequest
    rcases hrequest with rfl | rfl
    · exact verifiedBy_of_calls (by decide) (Verified.readCv cv) is hcalls hvalue
    · exact verifiedBy_of_calls (by decide) (Verified.verifyByte cv) is hcalls hvalue

/-- CV 3 is 5. -/
theorem cvs_are_programmed_cv3 :
    (Fair steady ∧
      Answers (DCC.readCV 3 ()) (idle .shield ()) (fun _ => 5) () 5 fun _ mem' => mem' = fun _ => 5) ∧
    let s' := run turn (DCC.verifyCVByte 3 5 () (idle .shield ()))
      (List.replicate 10 ⟨20, some true, 0⟩)
    s'.calls = [((), 5)] ∧ VerifiedBy 3 s'.attempt.packets s'.attempt.acks 5 := by
  have hpower : ProgTracks.shield.power 1 ≠ some .overload := by decide
  obtain ⟨hcv, hverified⟩ := cvs_are_programmed (idle .shield ()) 3 5 ()
  have hcalls : (run turn (DCC.verifyCVByte 3 5 () (idle .shield ()))
      (List.replicate 10 ⟨20, some true, 0⟩)).calls = [((), 5)] := by decide +kernel
  refine ⟨⟨fair_steady, ?_⟩, hcalls, ?_⟩
  · exact (hcv 1 ProgTracks.canProgram_shield.toCanStart hpower (by decide) (by decide)
      (fun _ => 5)).1
  · exact hverified _ (List.mem_cons_of_mem _ List.mem_cons_self) _ 5 hcalls (by decide)

end DCCACK

end CommandStation
