import CommandStation.DCCWaveform.Basic

/-!
# What the waveform sends

The invariant of a track has three parts. The foreground leaves the pending buffer alone unless it is
free, and fills it before it says so. The packets chosen so far and those that are promised, the
repetitions and the pending packet, are together all that was scheduled. The bits sent so far are
those of the chosen packets, up to where the counters stand.
-/

namespace CommandStation

open CommandStation.Lib

namespace DCCWaveform

variable {w : DCCWaveform}

/-- The packet in the transmit buffer. -/
def content (w : DCCWaveform) : List UInt8 := w.transmitPacket.take w.transmitLength

/-- The packet in the pending buffer. -/
def pendingContent (w : DCCWaveform) : List UInt8 := w.pendingPacket.take w.pendingLength

/-- The packets that are still to be chosen. -/
def promised (w : DCCWaveform) : List (List UInt8) :=
  List.replicate w.transmitRepeats w.content ++
    if w.packetPending then List.replicate (w.pendingRepeats + 1) w.pendingContent else []

theorem promised_of_fills (h : w.fills = true) : w.promised = [] := by
  simp only [fills, Bool.and_eq_true, beq_iff_eq, Bool.not_eq_true'] at h
  simp [promised, h]

/-- What was sent before the first preamble: a zero and the first byte of an idle packet. -/
def initialBits : List Bool := dataBits [0xFF]

/-- The bit of a byte that a mask selects. -/
theorem bitMask_bit (b : UInt8) {k : Nat} (hk : k < 9) :
    (false :: byteBits b)[k]? = some (decide (b &&& bitMask.getD k 0 ≠ 0)) := by
  have hall : ∀ b : UInt8, ∀ k : Fin 9,
      (false :: byteBits b)[k.val]? = some (decide (b &&& bitMask.getD k 0 ≠ 0)) :=
    byte_forall (by decide +kernel)
  exact hall b ⟨k, hk⟩

end DCCWaveform

namespace Chosen

/-- The frame on the track. -/
def frame (n : Nat) (c : Chosen) : Frame := ⟨n, c.bytes⟩

/-- The packets among the chosen ones that were not inserted. -/
def packets (cs : List Chosen) : List (List UInt8) :=
  (cs.filter fun c => !c.inserted).map Chosen.bytes

@[simp] theorem packets_append (cs ds : List Chosen) :
    packets (cs ++ ds) = packets cs ++ packets ds := by
  simp [packets]

end Chosen

namespace Waveform

open DCCWaveform Chosen

variable {isMain : Bool} {s : Waveform}

/-- What the foreground has done of a call. -/
def Filling (w : DCCWaveform) : Foreground → Prop
  | .idle => True
  | .waiting c => c.buffer.length ≤ DCCQueue.maxPacketSize
  | .copying c b checksum => c.buffer.length ≤ DCCQueue.maxPacketSize ∧ w.packetPending = false ∧
      b ≤ c.buffer.length ∧ w.pendingPacket.take b = c.buffer.take b ∧
      checksum = xorSum (c.buffer.take b)
  | .setLength c => c.buffer.length ≤ DCCQueue.maxPacketSize ∧ w.packetPending = false ∧
      w.pendingPacket.take (c.buffer.length + 1) = c.packet
  | .setRepeats c => c.buffer.length ≤ DCCQueue.maxPacketSize ∧ w.packetPending = false ∧
      w.pendingContent = c.packet
  | .setPending c => c.buffer.length ≤ DCCQueue.maxPacketSize ∧ w.packetPending = false ∧
      w.pendingContent = c.packet ∧ w.pendingRepeats = c.repeats.toNat
  | .clearing => True

/-- Where the counters stand, and the bits that have been sent. -/
inductive Sending (s : Waveform) : Prop
  | initial (hchosen : s.chosen = []) (hremaining : s.wave.remainingPreambles = 0)
      (hbytes : s.wave.bytesSent = 0) (hbits : s.wave.bitsSent < 9)
      (hlength : s.wave.transmitLength = 0) (hpacket : s.wave.transmitPacket[0]? = some 0xFF)
      (hline : s.bits = initialBits.take s.wave.bitsSent)
  | preamble (hlow : 2 ≤ s.wave.remainingPreambles)
      (hhigh : s.wave.remainingPreambles ≤ s.wave.requiredPreambles)
      (hbytes : s.wave.bytesSent = 0) (hbits : s.wave.bitsSent = 0)
      (hline : s.bits = initialBits ++
        lineBits (s.chosen.map (Chosen.frame s.wave.requiredPreambles)) ++
        List.replicate (s.wave.requiredPreambles - s.wave.remainingPreambles) true)
  | packet (done : List Chosen) (c : Chosen) (hchosen : s.chosen = done ++ [c])
      (hcontent : c.bytes = s.wave.content) (hremaining : s.wave.remainingPreambles ≤ 1)
      (hstart : s.wave.remainingPreambles = 1 → s.wave.bytesSent = 0 ∧ s.wave.bitsSent = 0)
      (hbytes : s.wave.bytesSent < s.wave.transmitLength)
      (hbits : s.wave.bitsSent < 9)
      (hline : s.bits = initialBits ++
        lineBits (done.map (Chosen.frame s.wave.requiredPreambles)) ++
        List.replicate (s.wave.requiredPreambles - s.wave.remainingPreambles) true ++
        (dataBits c.bytes).take (9 * s.wave.bytesSent + s.wave.bitsSent))

/-- A packet that may be sent. -/
structure Proper (isMain : Bool) (c : Chosen) : Prop where
  nonempty : c.bytes ≠ []
  checked : xorSum c.bytes = 0
  filled : c.inserted = true → c.bytes = fillPacket isMain

/-- **The invariant of a track.** -/
structure Inv (isMain : Bool) (s : Waveform) : Prop where
  main : s.wave.isMainTrack = isMain
  required : s.wave.requiredPreambles = preambleBits isMain + 1
  transmitBuffer : s.wave.transmitPacket.length = DCCQueue.maxPacketSize + 1
  pendingBuffer : s.wave.pendingPacket.length = DCCQueue.maxPacketSize + 1
  filling : Filling s.wave s.foreground
  transmitLength : s.wave.transmitLength ≤ DCCQueue.maxPacketSize + 1
  pendingLength : s.wave.pendingLength ≤ DCCQueue.maxPacketSize + 1
  kept : packets s.chosen ++ s.wave.promised = s.scheduled.flatMap PacketCall.copies
  proper : ∀ c ∈ s.chosen, Proper isMain c
  inserted : ∀ k c, s.chosen[k]? = some c → c.inserted = true →
    c.scheduled ≤ s.scheduled.length ∧
      packets (s.chosen.take k) = (s.scheduled.take c.scheduled).flatMap PacketCall.copies
  sending : Sending s

theorem inv_init (isMain : Bool) : Inv isMain (init isMain) := by
  refine ⟨rfl, rfl, rfl, rfl, trivial, Nat.zero_le _, Nat.zero_le _, rfl, nofun, ?_, ?_⟩
  · intro k c hc
    simp [init] at hc
  · exact .initial rfl rfl rfl (Nat.zero_lt_succ 8) rfl rfl rfl

theorem Inv.two_le_required (h : Inv isMain s) : 2 ≤ s.wave.requiredPreambles := by
  rw [h.required, preambleBits]
  split <;> omega

/-! ## The foreground -/

/-- The foreground does not touch what is being sent. -/
theorem Sending.congr {s' : Waveform} (h : Sending s) (hbits : s'.bits = s.bits)
    (hchosen : s'.chosen = s.chosen)
    (hpreambles : s'.wave.remainingPreambles = s.wave.remainingPreambles ∧
      s'.wave.requiredPreambles = s.wave.requiredPreambles)
    (hcounters : s'.wave.bytesSent = s.wave.bytesSent ∧ s'.wave.bitsSent = s.wave.bitsSent)
    (hbuffer : s'.wave.transmitPacket = s.wave.transmitPacket ∧
      s'.wave.transmitLength = s.wave.transmitLength) : Sending s' := by
  obtain ⟨hremaining, hrequired⟩ := hpreambles
  obtain ⟨hbytesSent, hbitsSent⟩ := hcounters
  obtain ⟨hpacket, hlength⟩ := hbuffer
  have hcontent : s'.wave.content = s.wave.content := by
    rw [content, content, hpacket, hlength]
  cases h with
  | initial h₁ h₂ h₃ h₄ h₅ h₆ h₇ =>
    apply Sending.initial
    all_goals simp only [hbits, hchosen, hremaining, hbytesSent, hbitsSent, hpacket, hlength]
    all_goals assumption
  | preamble h₁ h₂ h₃ h₄ h₅ =>
    apply Sending.preamble
    all_goals simp only [hbits, hchosen, hremaining, hrequired, hbytesSent, hbitsSent]
    all_goals assumption
  | packet done c h₁ h₂ h₃ h₄ h₅ h₆ h₇ =>
    apply Sending.packet done c
    all_goals simp only [hbits, hchosen, hcontent, hremaining, hrequired, hbytesSent, hbitsSent,
      hlength]
    all_goals assumption

/-- A packet with its checksum. -/
theorem xorSum_packet (c : PacketCall) : xorSum c.packet = 0 := by
  rw [xorSum, PacketCall.packet, List.foldl_append]
  exact UInt8.xor_self

/-- The packets that were chosen are those that were scheduled, whatever else is. -/
theorem inserted_snoc (h : Inv isMain s) (c : PacketCall) :
    ∀ k d, s.chosen[k]? = some d → d.inserted = true →
      d.scheduled ≤ (s.scheduled ++ [c]).length ∧ packets (s.chosen.take k) =
        ((s.scheduled ++ [c]).take d.scheduled).flatMap PacketCall.copies := by
  intro k d hchosen hinserted
  obtain ⟨hle, hpackets⟩ := h.inserted k d hchosen hinserted
  rw [List.take_append_of_le_length hle, List.length_append]
  exact ⟨by omega, hpackets⟩

/-- While no packet is pending, the pending buffer may be changed. -/
theorem kept_of_free (h : Inv isMain s) (hfree : s.wave.packetPending = false) {w : DCCWaveform}
    (hfree' : w.packetPending = false) (hrepeats : w.transmitRepeats = s.wave.transmitRepeats)
    (hcontent : w.content = s.wave.content) :
    packets s.chosen ++ w.promised = s.scheduled.flatMap PacketCall.copies := by
  rw [← h.kept, promised, promised, hfree, hfree', hrepeats, hcontent]
  rfl

/-- The packet is handed over. -/
theorem kept_of_pending (h : Inv isMain s) (hfree : s.wave.packetPending = false)
    {c : PacketCall} (hcopied : s.wave.pendingContent = c.packet)
    (hrepeats : s.wave.pendingRepeats = c.repeats.toNat) :
    packets s.chosen ++ ({ s.wave with packetPending := true } : DCCWaveform).promised =
      (s.scheduled ++ [c]).flatMap PacketCall.copies := by
  have hnew : ({ s.wave with packetPending := true } : DCCWaveform).promised =
      s.wave.promised ++ c.copies := by
    rw [promised, promised, hfree, PacketCall.copies, ← hcopied, ← hrepeats]
    simp [content, pendingContent]
  rw [hnew, ← List.append_assoc, h.kept]
  simp

/-- A statement of `schedulePacket` may stand between any two interrupts. -/
theorem statement_inv (h : Inv isMain s) : Inv isMain s.statement := by
  have hfill := h.filling
  unfold statement
  -- one case for each statement of `schedulePacket`, and one for its end
  split
  · exact h
  · next c hfg =>
    rw [hfg] at hfill
    split
    · exact h
    · next hfree =>
      exact { h with
        filling := ⟨hfill, by simpa using hfree, Nat.zero_le _, rfl, rfl⟩
        sending := h.sending.congr rfl rfl ⟨rfl, rfl⟩ ⟨rfl, rfl⟩ ⟨rfl, rfl⟩ }
  · next c b checksum hfg =>
    rw [hfg] at hfill
    obtain ⟨hsize, hfree, hle, hcopied, hsum⟩ := hfill
    have hroom := h.pendingBuffer
    split
    · next hb =>
      -- the statement copies byte `b` and takes it into the checksum
      have hnext : c.buffer.take (b + 1) = c.buffer.take b ++ [c.buffer[b]] := by
        rw [List.take_add_one, List.getElem?_eq_getElem hb]
        rfl
      exact { h with
        pendingBuffer := by rw [List.length_set]; exact hroom
        filling := by
          refine ⟨hsize, hfree, hb, ?_, ?_⟩
          · rw [take_set_succ (by omega), hcopied, hnext]
          · rw [hsum, hnext, xorSum, xorSum, List.foldl_append]
            rfl
        kept := kept_of_free h hfree hfree rfl rfl
        sending := h.sending.congr rfl rfl ⟨rfl, rfl⟩ ⟨rfl, rfl⟩ ⟨rfl, rfl⟩ }
    · next hb =>
      -- the bytes are copied, and the checksum goes behind them
      have hall : b = c.buffer.length := by omega
      exact { h with
        pendingBuffer := by rw [List.length_set]; exact hroom
        filling := by
          refine ⟨hsize, hfree, ?_⟩
          rw [hall, List.take_length] at hsum
          rw [hall, List.take_length] at hcopied
          rw [take_set_succ (by omega), hcopied, hsum]
          rfl
        kept := kept_of_free h hfree hfree rfl rfl
        sending := h.sending.congr rfl rfl ⟨rfl, rfl⟩ ⟨rfl, rfl⟩ ⟨rfl, rfl⟩ }
  · next c hfg =>
    rw [hfg] at hfill
    obtain ⟨hsize, hfree, hcopied⟩ := hfill
    exact { h with
      filling := ⟨hsize, hfree, hcopied⟩
      pendingLength := Nat.succ_le_succ hsize
      kept := kept_of_free h hfree hfree rfl rfl
      sending := h.sending.congr rfl rfl ⟨rfl, rfl⟩ ⟨rfl, rfl⟩ ⟨rfl, rfl⟩ }
  · next c hfg =>
    rw [hfg] at hfill
    obtain ⟨hsize, hfree, hcopied⟩ := hfill
    exact { h with
      filling := ⟨hsize, hfree, hcopied, rfl⟩
      kept := kept_of_free h hfree hfree rfl rfl
      sending := h.sending.congr rfl rfl ⟨rfl, rfl⟩ ⟨rfl, rfl⟩ ⟨rfl, rfl⟩ }
  · next c hfg =>
    rw [hfg] at hfill
    obtain ⟨hsize, hfree, hcopied, hrepeats⟩ := hfill
    exact { h with
      filling := trivial
      -- the packet is pending from here on
      kept := kept_of_pending h hfree hcopied hrepeats
      inserted := inserted_snoc h c
      sending := h.sending.congr rfl rfl ⟨rfl, rfl⟩ ⟨rfl, rfl⟩ ⟨rfl, rfl⟩ }
  · exact { h with
      filling := trivial
      sending := h.sending.congr rfl rfl ⟨rfl, rfl⟩ ⟨rfl, rfl⟩ ⟨rfl, rfl⟩ }

/-! ## The interrupt -/

/-- A bit was found and no packet chosen. -/
theorem Inv.advance (h : Inv isMain s) {state : WaveState} {window : Bool}
    {remaining bytesSent bitsSent : Nat} {bits : List Bool}
    (hsending : Sending { s with
      wave := { s.wave with
        state := state, reminderWindowOpen := window, remainingPreambles := remaining
        bytesSent := bytesSent, bitsSent := bitsSent }
      bits := bits }) :
    Inv isMain { s with
      wave := { s.wave with
        state := state, reminderWindowOpen := window, remainingPreambles := remaining
        bytesSent := bytesSent, bitsSent := bitsSent }
      bits := bits } :=
  { h with
    filling := by
      have hfill := h.filling
      revert hfill
      cases s.foreground <;> exact id
    sending := hsending }

/-- A packet that was promised is proper. -/
theorem proper_of_promised (h : Inv isMain s) {bytes : List UInt8}
    (hbytes : bytes ∈ s.wave.promised) (scheduled : Nat) : Proper isMain ⟨false, bytes, scheduled⟩ := by
  have hmem : bytes ∈ s.scheduled.flatMap PacketCall.copies := by
    rw [← h.kept]
    exact List.mem_append_right _ hbytes
  obtain ⟨c, -, hc⟩ := List.mem_flatMap.mp hmem
  obtain rfl := List.eq_of_mem_replicate hc
  refine ⟨?_, xorSum_packet c, nofun⟩
  simp [PacketCall.packet]

/-- The end of a preamble: the packet that is chosen. -/
structure Promoted (isMain : Bool) (s : Waveform) (w : DCCWaveform) : Prop where
  proper : Proper isMain ⟨s.wave.fills, w.content, s.scheduled.length⟩
  kept : packets (s.chosen ++ [⟨s.wave.fills, w.content, s.scheduled.length⟩]) ++ w.promised =
    s.scheduled.flatMap PacketCall.copies
  length : 0 < w.transmitLength ∧ w.transmitLength ≤ DCCQueue.maxPacketSize + 1
  buffer : w.transmitPacket.length = DCCQueue.maxPacketSize + 1
  filling : Filling w s.foreground

theorem length_memcpy {dst src : List UInt8} (h : src.length ≤ dst.length) :
    (memcpy dst src).length = dst.length := by
  rw [memcpy, List.length_append, List.length_drop]
  omega

theorem take_memcpy {dst src : List UInt8} {n : Nat} (h : n ≤ src.length) :
    (memcpy dst src).take n = src.take n :=
  List.take_append_of_le_length h

/-- Another packet may be scheduled as soon as the pending one is chosen. -/
theorem Filling.free {w w' : DCCWaveform} {fg : Foreground} (h : Filling w fg)
    (hfree : w'.packetPending = false)
    (hbuffer : w'.pendingPacket = w.pendingPacket ∧ w'.pendingLength = w.pendingLength ∧
      w'.pendingRepeats = w.pendingRepeats) : Filling w' fg := by
  obtain ⟨hpacket, hlength, hrepeats⟩ := hbuffer
  have hcontent : w'.pendingContent = w.pendingContent := by
    rw [pendingContent, pendingContent, hpacket, hlength]
  cases fg with
  | idle => trivial
  | clearing => trivial
  | waiting c => exact h
  | copying c b checksum =>
    obtain ⟨h₁, -, h₃⟩ := h
    rw [← hpacket] at h₃
    exact ⟨h₁, hfree, h₃⟩
  | setLength c =>
    obtain ⟨h₁, -, h₃⟩ := h
    rw [← hpacket] at h₃
    exact ⟨h₁, hfree, h₃⟩
  | setRepeats c =>
    obtain ⟨h₁, -, h₃⟩ := h
    rw [← hcontent] at h₃
    exact ⟨h₁, hfree, h₃⟩
  | setPending c =>
    obtain ⟨h₁, -, h₃⟩ := h
    rw [← hcontent, ← hrepeats] at h₃
    exact ⟨h₁, hfree, h₃⟩

/-- The packet that is chosen is a repeat, the pending one, or an idle one. -/
theorem promotePendingPacket_spec (h : Inv isMain s) :
    Promoted isMain s s.wave.promotePendingPacket := by
  have hkept := h.kept
  have hpositive : ∀ {n : Nat} {bytes : List UInt8}, bytes.take n ≠ [] → 0 < n := by
    intro n bytes hne
    apply Nat.pos_of_ne_zero
    rintro rfl
    exact hne rfl
  unfold promotePendingPacket
  split
  · next hrepeats =>
    -- a repetition of the packet in the transmit buffer
    have hfills : s.wave.fills = false := by
      simp [fills]
      omega
    have hhead : s.wave.promised = s.wave.content :: ({ s.wave with
        transmitRepeats := s.wave.transmitRepeats - 1 } : DCCWaveform).promised := by
      obtain ⟨n, hn⟩ : ∃ n, s.wave.transmitRepeats = n + 1 := ⟨s.wave.transmitRepeats - 1, by omega⟩
      simp only [promised, hn, List.replicate_succ, List.cons_append, Nat.add_sub_cancel]
      rfl
    have hproper := proper_of_promised h (hhead ▸ List.mem_cons_self) s.scheduled.length
    rw [hhead] at hkept
    refine ⟨?_, ?_, ⟨hpositive hproper.nonempty, h.transmitLength⟩, h.transmitBuffer, ?_⟩
    · rw [hfills]
      exact hproper
    · rw [hfills, packets_append, List.append_assoc]
      exact hkept
    · have hfill := h.filling
      revert hfill
      cases s.foreground <;> exact id
  · next hrepeats =>
    have hzero : s.wave.transmitRepeats = 0 := by omega
    split
    · next hpending =>
      have hfills : s.wave.fills = false := by
        simp [fills, hpending]
      have hcontent : (memcpy s.wave.transmitPacket s.wave.pendingPacket).take
          s.wave.pendingLength = s.wave.pendingContent := by
        apply take_memcpy
        rw [h.pendingBuffer]
        exact h.pendingLength
      have hhead : s.wave.promised = s.wave.pendingContent ::
          List.replicate s.wave.pendingRepeats s.wave.pendingContent := by
        simp [promised, hzero, hpending, List.replicate_succ]
      have hproper := proper_of_promised h (hhead ▸ List.mem_cons_self) s.scheduled.length
      rw [hhead] at hkept
      refine ⟨?_, ?_, ⟨hpositive hproper.nonempty, h.pendingLength⟩, ?_, ?_⟩
      · rw [hfills, content, hcontent]
        exact hproper
      · rw [hfills, packets_append, List.append_assoc]
        simp only [content, promised, hcontent, Bool.false_eq_true, if_false, List.append_nil]
        exact hkept
      · have hsize := h.pendingBuffer.trans h.transmitBuffer.symm
        rw [length_memcpy (Nat.le_of_eq hsize), h.transmitBuffer]
      · exact h.filling.free rfl ⟨rfl, rfl, rfl⟩
    · next hfree =>
      have hfills : s.wave.fills = true := by
        simp [fills, hzero, hfree]
      have hfill : (fillPacket s.wave.isMainTrack).length = idlePacket.length := by
        unfold fillPacket
        split <;> rfl
      have hcontent : (memcpy s.wave.transmitPacket (fillPacket s.wave.isMainTrack)).take
          idlePacket.length = fillPacket s.wave.isMainTrack := by
        rw [take_memcpy (Nat.le_of_eq hfill.symm), ← hfill, List.take_length]
      have hlength : 0 < idlePacket.length ∧ idlePacket.length ≤ DCCQueue.maxPacketSize + 1 := by
        decide
      have hpacket : ∀ isMain, fillPacket isMain ≠ [] ∧ xorSum (fillPacket isMain) = 0 := by
        decide
      rw [promised_of_fills hfills] at hkept
      refine ⟨?_, ?_, hlength, ?_, ?_⟩
      · rw [hfills, content, hcontent, h.main]
        exact ⟨(hpacket isMain).1, (hpacket isMain).2, fun _ => rfl⟩
      · rw [hfills, packets_append]
        simpa [packets, promised, hfree] using hkept
      · rw [length_memcpy (by rw [hfill, h.transmitBuffer]; decide), h.transmitBuffer]
      · have hfill := h.filling
        revert hfill
        cases s.foreground <;> exact id

theorem replicate_snoc {n r : Nat} (hlow : 1 ≤ r) (hhigh : r ≤ n) :
    List.replicate (n - (r - 1)) true = List.replicate (n - r) true ++ [true] := by
  rw [show n - (r - 1) = n - r + 1 by omega, List.replicate_succ']

/-- A preamble bit that is not the last but one. -/
theorem interrupt2_preamble {w : DCCWaveform} (hlow : 0 < w.remainingPreambles)
    (hne : w.remainingPreambles ≠ 2) : ∃ window, interrupt2 w = { w with
      state := .mid1, reminderWindowOpen := window
      remainingPreambles := w.remainingPreambles - 1 } := by
  rw [interrupt2, if_pos hlow, preambleBit, if_neg (by omega)]
  exact ⟨_, rfl⟩

/-- The last preamble bit but one: the next packet is chosen. -/
theorem interrupt2_promote {w : DCCWaveform} (h : w.remainingPreambles = 2) :
    ∃ window, interrupt2 w = { w.promotePendingPacket with
      state := .mid1, reminderWindowOpen := window, remainingPreambles := 1 } := by
  rw [interrupt2, if_pos (by omega), preambleBit, h, if_pos rfl]
  refine ⟨w.transmitRepeats == 0 && decide (2 - 1 < 12) && decide (1 < 2 - 1), ?_⟩
  unfold promotePendingPacket fillPacket
  split
  · rfl
  · split <;> rfl

/-- A bit of the packet. -/
theorem interrupt2_packet {w : DCCWaveform} (h : w.remainingPreambles = 0)
    {b : UInt8} (hb : w.transmitPacket[w.bytesSent]? = some b) (hbits : w.bitsSent < 9) :
    ∃ state bit, (false :: byteBits b)[w.bitsSent]? = some bit ∧
      (state == .mid1) = bit ∧
      interrupt2 w =
        if w.bitsSent < 8 then { w with state := state, bitsSent := w.bitsSent + 1 }
        else if w.transmitLength ≤ w.bytesSent + 1 then { w with
          state := state, bitsSent := 0, bytesSent := 0
          remainingPreambles := w.requiredPreambles }
        else { w with state := state, bitsSent := 0, bytesSent := w.bytesSent + 1 } := by
  refine ⟨if b &&& bitMask.getD w.bitsSent 0 ≠ 0 then .mid1 else .high0, _,
    bitMask_bit b hbits, ?_, ?_⟩
  · split <;> simp_all
  · have hget : w.transmitPacket.getD w.bytesSent 0 = b := by
      simp [hb]
    rw [interrupt2, if_neg (by omega), packetBit, hget]
    by_cases h8 : w.bitsSent < 8
    · rw [if_pos h8, if_neg (by simp; omega)]
    · rw [if_neg h8, if_pos (by simp; omega)]

/-- `s` after its wave has moved on to the next bit. -/
def found (s : Waveform) (w : DCCWaveform) : Waveform :=
  { s with wave := w, bits := s.bits ++ [w.state == .mid1] }

/-- A bit of the packet in the transmit buffer, or of the first byte. -/
theorem packet_inv (h : Inv isMain s) (hremaining : s.wave.remainingPreambles = 0) :
    Inv isMain (s.found s.wave.interrupt2) := by
  cases h.sending with
  | preamble hlow => omega
  -- the byte that the waveform starts with, before any packet has been chosen
  | initial hchosen _ hbytes hbits hlength hpacket hline =>
    obtain ⟨state, bit, hbit, hstate, hnext⟩ := interrupt2_packet hremaining
      (b := 0xFF) (by rw [hbytes]; exact hpacket) hbits
    -- one more of its nine bits is on the line
    have htake : initialBits.take (s.wave.bitsSent + 1) =
        initialBits.take s.wave.bitsSent ++ [bit] := by
      have hget := @getElem?_dataBits [0xFF] 0 _ hbits
      rw [Nat.mul_zero, Nat.zero_add] at hget
      rw [List.take_add_one, initialBits, hget]
      exact congrArg (fun o => _ ++ o.toList) hbit
    rw [hnext]
    split
    · -- the ninth bit: preambles come next
      next h8 =>
      apply h.advance
      refine .initial hchosen hremaining hbytes (Nat.succ_lt_succ h8) hlength hpacket ?_
      show s.bits ++ [state == .mid1] = _
      rw [hline, hstate, htake]
    · next h8 =>
      rw [if_pos (by omega)]
      apply h.advance
      have hall : s.wave.bitsSent + 1 = 9 := by omega
      refine .preamble h.two_le_required (Nat.le_refl _) rfl rfl ?_
      show s.bits ++ [state == .mid1] = initialBits ++
        lineBits (s.chosen.map (Chosen.frame s.wave.requiredPreambles)) ++
        List.replicate (s.wave.requiredPreambles - s.wave.requiredPreambles) true
      rw [hline, hstate, ← htake, hall, hchosen, Nat.sub_self]
      rfl
  | packet done c hchosen hcontent hle hstart hbytes hbits hline =>
    have hlength : s.wave.bytesSent < s.wave.transmitPacket.length := by
      rw [h.transmitBuffer]
      exact Nat.lt_of_lt_of_le hbytes h.transmitLength
    obtain ⟨state, bit, hbit, hstate, hnext⟩ := interrupt2_packet hremaining
      (List.getElem?_eq_getElem hlength) hbits
    have htake : (dataBits c.bytes).take (9 * s.wave.bytesSent + s.wave.bitsSent + 1) =
        (dataBits c.bytes).take (9 * s.wave.bytesSent + s.wave.bitsSent) ++ [bit] := by
      have hget : c.bytes[s.wave.bytesSent]? = some s.wave.transmitPacket[s.wave.bytesSent] := by
        rw [hcontent, content, List.getElem?_take_of_lt hbytes, List.getElem?_eq_getElem hlength]
      rw [List.take_add_one, getElem?_dataBits hbits, hget]
      exact congrArg (fun o => _ ++ o.toList) hbit
    have hsize : c.bytes.length = s.wave.transmitLength := by
      rw [hcontent, content, List.length_take, h.transmitBuffer]
      exact Nat.min_eq_left h.transmitLength
    rw [hnext]
    split
    · next h8 =>
      apply h.advance
      refine .packet done c hchosen hcontent hle ?_ hbytes (Nat.succ_lt_succ h8) ?_
      · intro hone
        exact absurd (hremaining.symm.trans hone) (by decide)
      · show s.bits ++ [state == .mid1] = _
        rw [hline, hstate, ← Nat.add_assoc, htake, List.append_assoc _ _ [bit]]
    · next h8 =>
      have h8' : s.wave.bitsSent = 8 := by omega
      split
      · next hlast =>
        have hall : (dataBits c.bytes).take (9 * s.wave.bytesSent + 8 + 1) = dataBits c.bytes := by
          apply List.take_of_length_le
          rw [length_dataBits, hsize]
          omega
        apply h.advance
        refine .preamble h.two_le_required (Nat.le_refl _) rfl rfl ?_
        show s.bits ++ [state == .mid1] = initialBits ++
          lineBits (s.chosen.map (Chosen.frame s.wave.requiredPreambles)) ++
          List.replicate (s.wave.requiredPreambles - s.wave.requiredPreambles) true
        rw [hline, hstate, List.append_assoc _ _ [bit], ← htake, h8', hall, hchosen, hremaining]
        simp [lineBits, Frame.bits, Chosen.frame]
      · next hmore =>
        apply h.advance
        refine .packet done c hchosen hcontent hle ?_ (by simp only; omega) (Nat.zero_lt_succ 8) ?_
        · intro hone
          exact absurd (hremaining.symm.trans hone) (by decide)
        · show s.bits ++ [state == .mid1] = initialBits ++
            lineBits (done.map (Chosen.frame s.wave.requiredPreambles)) ++
            List.replicate (s.wave.requiredPreambles - s.wave.remainingPreambles) true ++
            (dataBits c.bytes).take (9 * (s.wave.bytesSent + 1) + 0)
          rw [hline, hstate, List.append_assoc _ _ [bit], ← htake, h8']
          rfl

/-- Any other bit of a preamble only counts it down. -/
theorem preamble_inv (h : Inv isMain s) (hlow : 0 < s.wave.remainingPreambles)
    (hne : s.wave.remainingPreambles ≠ 2) : Inv isMain (s.found s.wave.interrupt2) := by
  obtain ⟨window, hnext⟩ := interrupt2_preamble hlow hne
  rw [hnext]
  apply h.advance
  cases h.sending with
  | initial _ hremaining => omega
  | preamble hlow' hhigh hbytes hbits hline =>
    refine .preamble (by simp only; omega) (by simp only; omega) hbytes hbits ?_
    simp only [replicate_snoc hlow hhigh, hline, List.append_assoc]
    rfl
  | packet done c hchosen hcontent hle hstart hbytes hbits hline =>
    have hone : s.wave.remainingPreambles = 1 := by omega
    obtain ⟨hbytes0, hbits0⟩ := hstart hone
    have hhigh : s.wave.remainingPreambles ≤ s.wave.requiredPreambles := by
      rw [h.required]
      omega
    refine .packet done c hchosen hcontent ?_ ?_ hbytes hbits ?_
    · simp only [hone]
      omega
    · simp only [hone]
      omega
    · simp only [replicate_snoc hlow hhigh, hline, hbytes0, hbits0, Nat.mul_zero, Nat.add_zero,
        List.take_zero, List.append_nil, List.append_assoc]
      rfl

/-- Promotion touches the transmit buffer only. -/
theorem promotePendingPacket_frame (w : DCCWaveform) :
    w.promotePendingPacket.isMainTrack = w.isMainTrack ∧
    w.promotePendingPacket.requiredPreambles = w.requiredPreambles ∧
    w.promotePendingPacket.bytesSent = w.bytesSent ∧
    w.promotePendingPacket.bitsSent = w.bitsSent ∧
    w.promotePendingPacket.pendingPacket = w.pendingPacket ∧
    w.promotePendingPacket.pendingLength = w.pendingLength := by
  unfold promotePendingPacket
  split
  · simp
  · split <;> simp

/-- With two bits of the preamble left, the next packet is chosen. -/
theorem promote_inv (h : Inv isMain s) (htwo : s.wave.remainingPreambles = 2) :
    Inv isMain { s.found s.wave.interrupt2 with
      chosen := s.chosen ++ [⟨s.wave.fills, s.wave.interrupt2.content, s.scheduled.length⟩] } := by
  obtain ⟨window, hnext⟩ := interrupt2_promote htwo
  have hpromoted := promotePendingPacket_spec h
  obtain ⟨hmain, hrequired, hbytes, hbits, hpacket, hlength⟩ := promotePendingPacket_frame s.wave
  rw [hnext]
  have hcounters : s.wave.bytesSent = 0 ∧ s.wave.bitsSent = 0 ∧ s.bits = initialBits ++
      lineBits (s.chosen.map (Chosen.frame s.wave.requiredPreambles)) ++
      List.replicate (s.wave.requiredPreambles - 2) true := by
    cases h.sending with
    | initial _ hremaining => omega
    | preamble _ _ hbytes hbits hline =>
      rw [htwo] at hline
      exact ⟨hbytes, hbits, hline⟩
    | packet _ _ _ _ hle => omega
  obtain ⟨hbytes0, hbits0, hline⟩ := hcounters
  refine ⟨hmain.trans h.main, hrequired.trans h.required, hpromoted.buffer, ?_, ?_,
    hpromoted.length.2, ?_, hpromoted.kept, ?_, ?_, ?_⟩
  · show s.wave.promotePendingPacket.pendingPacket.length = _
    rw [hpacket]
    exact h.pendingBuffer
  · have hfill := hpromoted.filling
    revert hfill
    cases hfg : s.foreground <;> rw [found, hfg] <;> exact id
  · show s.wave.promotePendingPacket.pendingLength ≤ _
    rw [hlength]
    exact h.pendingLength
  · intro c hc
    rcases List.mem_append.mp hc with hold | hnew
    · exact h.proper c hold
    · obtain rfl := List.mem_singleton.mp hnew
      exact hpromoted.proper
  · intro k c hk hinserted
    simp only [found] at hk ⊢
    by_cases hlt : k < s.chosen.length
    · rw [List.getElem?_append_left hlt] at hk
      rw [List.take_append_of_le_length (Nat.le_of_lt hlt)]
      exact h.inserted k c hk hinserted
    · -- the packet that was just chosen: all that was scheduled has been sent
      obtain rfl : k = s.chosen.length := by
        have := (List.getElem?_eq_some_iff.mp hk).1
        rw [List.length_append, List.length_singleton] at this
        omega
      rw [List.getElem?_concat_length] at hk
      obtain rfl := (Option.some.inj hk).symm
      have hkept := h.kept
      rw [promised_of_fills hinserted, List.append_nil] at hkept
      rw [List.take_left, List.take_length]
      exact ⟨Nat.le_refl _, hkept⟩
  · refine .packet s.chosen _ rfl rfl (Nat.le_refl 1) (fun _ => ?_) ?_ ?_ ?_
    · exact ⟨hbytes.trans hbytes0, hbits.trans hbits0⟩
    · show s.wave.promotePendingPacket.bytesSent < s.wave.promotePendingPacket.transmitLength
      rw [hbytes, hbytes0]
      exact hpromoted.length.1
    · show s.wave.promotePendingPacket.bitsSent < 9
      rw [hbits, hbits0]
      decide
    · show s.bits ++ [true] = initialBits ++
        lineBits (s.chosen.map (Chosen.frame s.wave.promotePendingPacket.requiredPreambles)) ++
        List.replicate (s.wave.promotePendingPacket.requiredPreambles - 1) true ++
        (dataBits s.wave.promotePendingPacket.content).take (9 *
          s.wave.promotePendingPacket.bytesSent + s.wave.promotePendingPacket.bitsSent)
      rw [hrequired, hbytes, hbits, hbytes0, hbits0, hline,
        replicate_snoc (r := 2) (by omega) h.two_le_required]
      simp

/-- **Every interrupt keeps the invariant.** -/
theorem interruptHandler_inv (h : Inv isMain s) : Inv isMain s.interruptHandler := by
  unfold interruptHandler
  extract_lets _ w w'
  have hw : Inv isMain { s with wave := w } :=
    h.advance (h.sending.congr rfl rfl ⟨rfl, rfl⟩ ⟨rfl, rfl⟩ ⟨rfl, rfl⟩)
  split
  · by_cases htwo : w.remainingPreambles = 2
    · rw [if_pos htwo]
      exact promote_inv (s := { s with wave := w }) hw htwo
    · rw [if_neg htwo]
      by_cases hzero : w.remainingPreambles = 0
      · exact packet_inv (s := { s with wave := w }) hw hzero
      · exact preamble_inv (s := { s with wave := w }) hw (Nat.pos_of_ne_zero hzero) htwo
  · exact hw

end Waveform

end CommandStation
