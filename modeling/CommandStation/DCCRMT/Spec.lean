import CommandStation.DCCRMT.Basic
import CommandStation.DCCWaveform.Frames

/-!
# What the RMT channel sends

The items that `RMTfillData` makes of a packet go on where the preamble ends: the zero that starts the
first byte stands in the preamble, and each zero behind a byte starts the next one, but for the last
one, which is turned into the stop bit. So the memory holds the same frame as the timer-driven
waveform sends, with the stop bit at the end of its own packet and not in the next preamble.
-/

namespace CommandStation

open CommandStation.Lib

/-! ## Items -/

namespace RMTChannel

/-- The items of a packet, behind the preamble. -/
def body (bytes : List UInt8) : List RmtItem :=
  ((dataBits bytes).tail ++ [true]).map .bit ++ [.eot]

/-- The preamble as it stands in the memory. -/
def head (isMain : Bool) : List RmtItem :=
  (List.replicate (DCCWaveform.preambleBits isMain) true ++ [false]).map .bit

/-- The bits of one transmission: the frame with its own stop bit. -/
def transmission (isMain : Bool) (bytes : List UInt8) : List Bool :=
  List.replicate (DCCWaveform.preambleBits isMain) true ++ dataBits bytes ++ [true]

theorem replay_map_append (bits : List Bool) (items : List RmtItem) :
    replay (bits.map .bit ++ items) = bits ++ replay items := by
  induction bits with
  | nil => rfl
  | cons b bits ih =>
    rw [List.map_cons, List.cons_append, replay, ih]
    rfl

theorem dataBits_eq_cons {bytes : List UInt8} (h : bytes ≠ []) :
    dataBits bytes = false :: (dataBits bytes).tail := by
  obtain ⟨b, bytes, rfl⟩ := List.exists_cons_of_ne_nil h
  rw [dataBits_cons]
  rfl

/-- **The hardware sends a frame.** -/
theorem replay_memory (isMain : Bool) {bytes : List UInt8} (h : bytes ≠ [])
    (rest : List RmtItem) :
    replay (head isMain ++ body bytes ++ rest) = transmission isMain bytes := by
  have hmemory : head isMain ++ body bytes ++ rest = (List.replicate
      (DCCWaveform.preambleBits isMain) true ++ [false] ++ ((dataBits bytes).tail ++ [true])).map
        .bit ++ .eot :: rest := by
    simp [head, body]
  rw [hmemory, replay_map_append, transmission, dataBits_eq_cons h]
  simp [replay]

/-- The frames of the waveform and the transmissions differ in the place of the stop bit. -/
theorem transmissions_eq (isMain : Bool) (packets : List (List UInt8)) :
    true :: packets.flatMap (transmission isMain) =
      lineBits (packets.map (Frame.mk (Waveform.frameGap isMain))) ++ [true] := by
  induction packets with
  | nil => rfl
  | cons bytes packets ih =>
    have hframe : true :: transmission isMain bytes =
        Frame.bits ⟨Waveform.frameGap isMain, bytes⟩ ++ [true] := by
      simp [transmission, Frame.bits, Waveform.frameGap, List.replicate_succ]
    rw [List.flatMap_cons, ← List.cons_append, hframe, List.append_assoc, List.singleton_append, ih]
    simp [lineBits]

theorem length_head (isMain : Bool) :
    (head isMain).length = DCCWaveform.preambleBits isMain + 1 := by
  simp [head]

/-- Another packet is put behind the preamble. -/
theorem rmtFillTxItems_head (isMain : Bool) (items behind : List RmtItem) :
    ∃ rest, rmtFillTxItems (head isMain ++ behind) items
      (DCCWaveform.preambleBits isMain + 1) = head isMain ++ items ++ rest := by
  refine ⟨(head isMain ++ behind).drop ((head isMain).length + items.length), ?_⟩
  rw [rmtFillTxItems, ← length_head isMain, List.take_left]

theorem idleItems_eq (isMain : Bool) :
    (idleItems isMain).take 28 = body (DCCWaveform.fillPacket isMain) := by
  cases isMain <;> rfl

/-! ### Conversion -/

/-- The bits that `RMTfillData` makes of the bytes, before it sets the stop bit. -/
def converted (bytes : List UInt8) : List Bool := bytes.flatMap fun b => byteBits b ++ [false]

theorem converted_eq (bytes : List UInt8) :
    false :: converted bytes = dataBits bytes ++ [false] := by
  induction bytes with
  | nil => rfl
  | cons b bytes ih =>
    rw [converted, List.flatMap_cons, dataBits_cons, List.cons_append, List.append_assoc,
      List.append_assoc, List.singleton_append, ← ih]
    rfl

theorem length_converted (bytes : List UInt8) : (converted bytes).length = 9 * bytes.length := by
  have h := congrArg List.length (converted_eq bytes)
  simp at h
  exact h

theorem transmitMask_bit (b : UInt8) {k : Nat} (hk : k < 8) :
    (byteBits b ++ [false])[k]? = some (decide (b &&& transmitMask.getD k 0 ≠ 0)) := by
  have hall : ∀ b : UInt8, ∀ k : Fin 8,
      (byteBits b ++ [false])[k.val]? = some (decide (b &&& transmitMask.getD k 0 ≠ 0)) :=
    byte_forall (by decide +kernel)
  exact hall b ⟨k, hk⟩

/-- The bit that is written when the loops stand at byte `n` and bit `k`. -/
theorem getElem?_converted {bytes : List UInt8} {n k : Nat} (hn : n < bytes.length) (hk : k ≤ 8) :
    (converted bytes)[9 * n + k]? = some (if k < 8 then
      decide (bytes.getD n 0 &&& transmitMask.getD k 0 ≠ 0) else false) := by
  rw [converted, getElem?_flatMap_of_length (fun _ => by simp) (by omega),
    List.getElem?_eq_getElem hn, Option.bind_some]
  split
  · next hlt =>
    rw [transmitMask_bit _ hlt]
    simp [hn]
  · next hge =>
    obtain rfl : k = 8 := by omega
    rw [List.getElem?_append_right (by simp)]
    simp

end RMTChannel

namespace Chosen

/-- The transmission of a packet. -/
def replay (isMain : Bool) (c : Chosen) : Replay :=
  ⟨c.inserted, RMTChannel.transmission isMain c.bytes, c.scheduled⟩

end Chosen

namespace RmtTrack

open RMTChannel Chosen

variable {isMain : Bool} {s : RmtTrack} {sent : List Chosen} {current next : List UInt8}

/-! ## The invariant -/

/-- What the foreground has done of a call. -/
def Filling (c : RMTChannel) : RmtForeground → Prop
  | .idle => True
  | .testRepeat _ => True
  | .testReady _ => c.dataRepeat = 0
  | .converting f n bit => c.dataRepeat = 0 ∧ f.buffer.length ≤ DCCQueue.maxPacketSize + 1 ∧
      n ≤ f.buffer.length ∧ bit ≤ 8 ∧ (n = f.buffer.length → bit = 0) ∧
      c.data.take (9 * n + bit) = ((converted f.buffer).take (9 * n + bit)).map .bit
  | .setEnd f => c.dataRepeat = 0 ∧ f.buffer.length ≤ DCCQueue.maxPacketSize + 1 ∧
      c.data.take (9 * f.buffer.length) = (converted f.buffer).map .bit
  | .handOver f => c.dataRepeat = 0 ∧ c.data.take c.dataLen = body f.buffer

/-- The members that the constructor sets. -/
structure Fixed (isMain : Bool) (c : RMTChannel) : Prop where
  idle : c.idle.take c.idleLen = body (DCCWaveform.fillPacket isMain)
  preambleLen : c.preambleLen = DCCWaveform.preambleBits isMain + 2
  maxDataLen : c.maxDataLen = dataLength (DCCQueue.maxPacketSize + 1)
  data : c.data.length = dataLength (DCCQueue.maxPacketSize + 1)

/-- **The invariant of a channel.** `sent` are the packets of the transmissions, `current` is the one in
the memory, `next` the one that is to be sent as long as `dataRepeat` counts. -/
structure Inv (isMain : Bool) (s : RmtTrack) (sent : List Chosen) (current next : List UInt8) :
    Prop where
  fixed : Fixed isMain s.channel
  memory : current ≠ [] ∧ ∃ rest, s.channel.memory = head isMain ++ body current ++ rest
  ready : s.channel.dataReady = true →
    0 < s.channel.dataRepeat ∧ s.channel.data.take s.channel.dataLen = body next
  again : s.channel.dataReady = false → 0 < s.channel.dataRepeat → current = next
  bytes : 0 < s.channel.dataRepeat → next ≠ []
  filling : Filling s.channel s.foreground
  replays : s.replays = sent.map (Chosen.replay isMain)
  kept : packets sent ++ List.replicate s.channel.dataRepeat.toNat next =
    s.accepted.flatMap RmtCall.copies
  filled : ∀ c ∈ sent, c.inserted = true → c.bytes = DCCWaveform.fillPacket isMain
  inserted : ∀ k c, sent[k]? = some c → c.inserted = true →
    c.scheduled ≤ s.accepted.length ∧
      packets (sent.take k) = (s.accepted.take c.scheduled).flatMap RmtCall.copies

theorem fillPacket_ne_nil (isMain : Bool) : DCCWaveform.fillPacket isMain ≠ [] := by
  cases isMain <;> decide

/-- The first packet in the channel is the one that fills the gaps. -/
theorem inv_init (isMain : Bool) : Inv isMain (init isMain)
    [⟨true, DCCWaveform.fillPacket isMain, 0⟩] (DCCWaveform.fillPacket isMain) [] := by
  have hmemory : ∃ rest, (RMTChannel.new isMain).memory =
      head isMain ++ body (DCCWaveform.fillPacket isMain) ++ rest := by
    refine ⟨(RMTChannel.new isMain).memory.drop
      (head isMain ++ body (DCCWaveform.fillPacket isMain)).length, ?_⟩
    cases isMain <;> decide
  obtain ⟨rest, hrest⟩ := hmemory
  have hne := fillPacket_ne_nil isMain
  refine ⟨⟨?_, rfl, rfl, ?_⟩, ⟨hne, rest, hrest⟩, nofun, nofun, nofun, trivial, ?_, rfl, ?_, ?_⟩
  · exact idleItems_eq isMain
  · exact List.length_replicate
  · rw [init, hrest, replay_memory isMain hne]
    rfl
  · intro c hc _
    obtain rfl := List.mem_singleton.mp hc
    rfl
  · intro k c hc _
    obtain ⟨rfl, rfl⟩ : k = 0 ∧ c = ⟨true, DCCWaveform.fillPacket isMain, 0⟩ := by
      cases k with
      | zero => exact ⟨rfl, (Option.some.inj hc).symm⟩
      | succ k => simp at hc
    exact ⟨Nat.le_refl 0, rfl⟩

/-! ## The interrupt -/

/-- A transmission was chosen. -/
theorem inserted_snoc (h : Inv isMain s sent current next) {c : Chosen}
    (hscheduled : c.scheduled = s.accepted.length)
    (hinserted : c.inserted = true → s.channel.dataRepeat = 0) :
    ∀ k d, (sent ++ [c])[k]? = some d → d.inserted = true →
      d.scheduled ≤ s.accepted.length ∧ packets ((sent ++ [c]).take k) =
        (s.accepted.take d.scheduled).flatMap RmtCall.copies := by
  intro k d hk hd
  by_cases hlt : k < sent.length
  · rw [List.getElem?_append_left hlt] at hk
    rw [List.take_append_of_le_length (Nat.le_of_lt hlt)]
    exact h.inserted k d hk hd
  · -- the last one: nothing is left of what was accepted
    obtain rfl : k = sent.length := by
      have := (List.getElem?_eq_some_iff.mp hk).1
      rw [List.length_append, List.length_singleton] at this
      omega
    rw [List.getElem?_concat_length] at hk
    obtain rfl := Option.some.inj hk
    have hkept := h.kept
    rw [hinserted hd] at hkept
    rw [hscheduled, List.take_left, List.take_length]
    exact ⟨Nat.le_refl _, by simpa using hkept⟩

theorem rmtInterrupt_empty {c : RMTChannel} (h : c.runsEmpty = true) :
    rmtInterrupt c = { c with
      packetCounter := c.packetCounter + 1
      memory := rmtFillTxItems c.memory (c.idle.take c.idleLen) (c.preambleLen - 1) } := by
  rw [rmtInterrupt]
  exact if_pos h

theorem rmtInterrupt_ready {c : RMTChannel} (hready : c.dataReady = true)
    (hrepeat : 0 < c.dataRepeat) :
    rmtInterrupt c = { c with
      packetCounter := c.packetCounter + 1
      memory := rmtFillTxItems c.memory (c.data.take c.dataLen) (c.preambleLen - 1)
      dataReady := false
      dataRepeat := c.dataRepeat - 1 } := by
  simp [rmtInterrupt, runsEmpty, hready, hrepeat]

theorem rmtInterrupt_again {c : RMTChannel} (hready : c.dataReady = false)
    (hrepeat : 0 < c.dataRepeat) :
    rmtInterrupt c = { c with
      packetCounter := c.packetCounter + 1
      dataRepeat := c.dataRepeat - 1 } := by
  have hne : c.dataRepeat ≠ 0 := by
    intro h0
    rw [h0] at hrepeat
    exact absurd hrepeat (by decide)
  simp [rmtInterrupt, runsEmpty, hready, hrepeat, hne]

/-- The foreground does not fill the buffer while it is in use. -/
theorem Filling.of_busy {c : RMTChannel} {fg : RmtForeground} (h : Filling c fg)
    (hrepeat : 0 < c.dataRepeat) (c' : RMTChannel) : Filling c' fg := by
  have hne : c.dataRepeat ≠ 0 := by
    intro h0
    rw [h0] at hrepeat
    exact absurd hrepeat (by decide)
  cases fg with
  | idle => trivial
  | testRepeat f => trivial
  | testReady f => exact absurd h hne
  | converting f n bit => exact absurd h.1 hne
  | setEnd f => exact absurd h.1 hne
  | handOver f => exact absurd h.1 hne

/-- An interrupt that leaves the packet `bytes` in the memory. -/
theorem interrupt_inv_of (h : Inv isMain s sent current next) {bytes : List UInt8}
    (hfixed : Fixed isMain (rmtInterrupt s.channel))
    (hne : bytes ≠ []) (hmemory : ∃ rest, (rmtInterrupt s.channel).memory =
      head isMain ++ body bytes ++ rest)
    (hready : (rmtInterrupt s.channel).dataReady = false)
    (hagain : 0 < (rmtInterrupt s.channel).dataRepeat → bytes = next)
    (hfilling : Filling (rmtInterrupt s.channel) s.foreground)
    (hkept : packets [⟨s.channel.runsEmpty, bytes, s.accepted.length⟩] ++
      List.replicate (rmtInterrupt s.channel).dataRepeat.toNat next =
        List.replicate s.channel.dataRepeat.toNat next)
    (hfilled : s.channel.runsEmpty = true → bytes = DCCWaveform.fillPacket isMain) :
    Inv isMain s.interrupt
      (sent ++ [⟨s.channel.runsEmpty, bytes, s.accepted.length⟩]) bytes next := by
  have hempty : s.channel.runsEmpty = true → s.channel.dataRepeat = 0 := by
    intro hempty
    rw [runsEmpty, Bool.and_eq_true, beq_iff_eq] at hempty
    exact hempty.2
  refine ⟨hfixed, ⟨hne, hmemory⟩, ?_, fun _ => hagain, ?_, hfilling, ?_, ?_, ?_,
    inserted_snoc h rfl hempty⟩
  · intro hyes
    exact absurd (hready.symm.trans hyes) (by decide)
  · intro hbusy
    rw [← hagain hbusy]
    exact hne
  · obtain ⟨rest, hrest⟩ := hmemory
    rw [List.map_append, ← h.replays]
    show s.replays ++ [⟨s.channel.runsEmpty, replay (rmtInterrupt s.channel).memory, _⟩] = _
    rw [hrest, replay_memory isMain hne]
    rfl
  · rw [packets_append, List.append_assoc]
    show packets sent ++ (_ ++ List.replicate (rmtInterrupt s.channel).dataRepeat.toNat next) = _
    rw [hkept]
    exact h.kept
  · intro c hc hinserted
    rcases List.mem_append.mp hc with hold | hnew
    · exact h.filled c hold hinserted
    · obtain rfl := List.mem_singleton.mp hnew
      exact hfilled hinserted

/-- The memory after a packet was put behind the preamble. -/
theorem fill_memory (h : Inv isMain s sent current next) (items : List RmtItem) :
    ∃ rest, rmtFillTxItems s.channel.memory items (s.channel.preambleLen - 1) =
      head isMain ++ items ++ rest := by
  obtain ⟨-, rest, hrest⟩ := h.memory
  rw [hrest, h.fixed.preambleLen, List.append_assoc]
  exact rmtFillTxItems_head isMain items (body current ++ rest)

theorem toNat_sub_one {n : UInt8} (h : 0 < n) : n.toNat = (n - 1).toNat + 1 := by
  have hlt : 0 < n.toNat := h
  rw [UInt8.toNat_sub_of_le n 1 (UInt8.le_iff_toNat_le.mpr hlt)]
  show n.toNat = n.toNat - 1 + 1
  omega

/-- **Every interrupt keeps the invariant** and sends what is due. -/
theorem interrupt_inv (h : Inv isMain s sent current next) :
    ∃ bytes, Inv isMain s.interrupt
      (sent ++ [⟨s.channel.runsEmpty, bytes, s.accepted.length⟩]) bytes next := by
  by_cases hempty : s.channel.runsEmpty = true
  · -- an idle or reset packet
    have hnext := rmtInterrupt_empty hempty
    obtain ⟨hready, hrepeat⟩ : s.channel.dataReady = false ∧ s.channel.dataRepeat = 0 := by
      simpa [runsEmpty] using hempty
    obtain ⟨rest, hrest⟩ := fill_memory h (body (DCCWaveform.fillPacket isMain))
    refine ⟨_, interrupt_inv_of h ?_ (fillPacket_ne_nil isMain) ⟨rest, ?_⟩ ?_ ?_ ?_ ?_
      fun _ => rfl⟩
    · rw [hnext]
      exact ⟨h.fixed.idle, h.fixed.preambleLen, h.fixed.maxDataLen, h.fixed.data⟩
    · rw [hnext]
      show rmtFillTxItems _ (s.channel.idle.take s.channel.idleLen) _ = _
      rw [h.fixed.idle]
      exact hrest
    · rw [hnext]
      exact hready
    · rw [hnext]
      intro hbusy
      exact absurd hbusy (by rw [hrepeat]; decide)
    · rw [hnext]
      have hfill := h.filling
      revert hfill
      cases s.foreground <;> exact id
    · rw [hnext, hempty, hrepeat]
      rfl
  · have hbusy : 0 < s.channel.dataRepeat := by
      cases hready : s.channel.dataReady with
      | true => exact (h.ready hready).1
      | false =>
        rw [runsEmpty, hready] at hempty
        have hne : s.channel.dataRepeat ≠ 0 := by simpa using hempty
        exact UInt8.pos_iff_ne_zero.mpr hne
    have hcount := toNat_sub_one hbusy
    have hsplit : packets [⟨s.channel.runsEmpty, next, s.accepted.length⟩] ++
        List.replicate (s.channel.dataRepeat - 1).toNat next =
          List.replicate s.channel.dataRepeat.toNat next := by
      rw [hcount, List.replicate_succ]
      simp [packets, hempty]
    cases hready : s.channel.dataReady with
    | true =>
      -- the packet in the data buffer
      have hnext := rmtInterrupt_ready hready hbusy
      obtain ⟨rest, hrest⟩ := fill_memory h (body next)
      refine ⟨next, interrupt_inv_of h ?_ (h.bytes hbusy) ⟨rest, ?_⟩ ?_ (fun _ => rfl)
        (h.filling.of_busy hbusy _) ?_ (fun hyes => absurd hyes hempty)⟩
      · rw [hnext]
        exact ⟨h.fixed.idle, h.fixed.preambleLen, h.fixed.maxDataLen, h.fixed.data⟩
      · rw [hnext]
        show rmtFillTxItems _ (s.channel.data.take s.channel.dataLen) _ = _
        rw [(h.ready hready).2]
        exact hrest
      · rw [hnext]
      · rw [hnext]
        exact hsplit
    | false =>
      -- the packet in the memory once more
      have hnext := rmtInterrupt_again hready hbusy
      obtain rfl := h.again hready hbusy
      refine ⟨current, interrupt_inv_of h ?_ h.memory.1 ?_ ?_ (fun _ => rfl)
        (h.filling.of_busy hbusy _) ?_ (fun hyes => absurd hyes hempty)⟩
      · rw [hnext]
        exact ⟨h.fixed.idle, h.fixed.preambleLen, h.fixed.maxDataLen, h.fixed.data⟩
      · rw [hnext]
        exact h.memory.2
      · rw [hnext]
        exact hready
      · rw [hnext]
        exact hsplit

/-! ## The foreground -/

/-- The stop bit and the marker turn the converted bits into the items of the packet. -/
theorem body_of_converted {data : List RmtItem} {bytes : List UInt8} (hne : bytes ≠ [])
    (hsize : 9 * bytes.length < data.length)
    (hdata : data.take (9 * bytes.length) = (converted bytes).map .bit) :
    (((data.set (9 * bytes.length - 1) setDCCBit1).set (9 * bytes.length) .eot).take
      (9 * bytes.length + 1)) = body bytes := by
  have hpos : 0 < bytes.length := List.length_pos_of_ne_nil hne
  have hconverted : converted bytes = (dataBits bytes).tail ++ [false] := by
    have heq := converted_eq bytes
    rw [dataBits_eq_cons hne] at heq
    exact (List.cons.inj heq).2
  have htail : (dataBits bytes).tail.length = 9 * bytes.length - 1 := by
    rw [List.length_tail, length_dataBits]
  -- all but the last of the converted bits
  have hinit : data.take (9 * bytes.length - 1) = (dataBits bytes).tail.map .bit := by
    have htake : data.take (9 * bytes.length - 1) =
        (data.take (9 * bytes.length)).take (9 * bytes.length - 1) := by
      rw [List.take_take, Nat.min_eq_left (by omega)]
    rw [htake, hdata, hconverted, ← List.map_take, ← htail, List.take_left]
  have hlast := take_set_succ (l := data) (b := 9 * bytes.length - 1) (by omega) setDCCBit1
  rw [Nat.sub_add_cancel (by omega)] at hlast
  rw [take_set_succ (by rw [List.length_set]; exact hsize), hlast, hinit, body, List.map_append]
  rfl

/-- The foreground writes to the data buffer while nothing is ready. -/
theorem Inv.fill (h : Inv isMain s sent current next) (hfree : s.channel.dataRepeat = 0)
    {data : List RmtItem} {dataLen : Nat} {fg : RmtForeground}
    (hlength : data.length = s.channel.data.length)
    (hfilling : Filling { s.channel with data := data, dataLen := dataLen } fg) :
    Inv isMain { s with
      channel := { s.channel with data := data, dataLen := dataLen }
      foreground := fg } sent current next := by
  refine { h with
    fixed := ⟨h.fixed.idle, h.fixed.preambleLen, h.fixed.maxDataLen, hlength.trans h.fixed.data⟩
    ready := ?_
    filling := hfilling }
  intro hready
  exact absurd (h.ready hready).1 (by rw [hfree]; decide)

theorem Inv.returns (h : Inv isMain s sent current next) (result : Int) :
    Inv isMain (s.returns result) sent current next :=
  { h with filling := trivial }

theorem toNat_repeats (c : RmtCall) : (c.repeatCount + 1).toNat = c.repeatCount.toNat + 1 := by
  have hlt : c.repeatCount.toNat < 255 := c.below
  rw [UInt8.toNat_add]
  show (c.repeatCount.toNat + 1) % 2 ^ 8 = c.repeatCount.toNat + 1
  omega

/-- The packet is accepted. -/
theorem handOver_inv (h : Inv isMain s sent current next) (hfree : s.channel.dataRepeat = 0)
    {c : RmtCall} (hdata : s.channel.data.take s.channel.dataLen = body c.buffer) :
    Inv isMain { s.returns 0 with
      channel := { s.channel with dataReady := true, dataRepeat := c.repeatCount + 1 }
      accepted := s.accepted ++ [c] } sent current c.buffer := by
  have hpos : 0 < c.repeatCount + 1 := by
    rw [UInt8.lt_iff_toNat_lt, toNat_repeats]
    exact Nat.succ_pos _
  refine ⟨⟨h.fixed.idle, h.fixed.preambleLen, h.fixed.maxDataLen, h.fixed.data⟩, h.memory,
    fun _ => ⟨hpos, hdata⟩, nofun, fun _ => c.nonempty, trivial, h.replays, ?_, h.filled, ?_⟩
  · have hkept := h.kept
    rw [hfree] at hkept
    rw [List.flatMap_append, ← hkept]
    simp only [toNat_repeats]
    simp [RmtCall.copies, List.replicate_succ]
  · intro k d hk hinserted
    obtain ⟨hle, hpackets⟩ := h.inserted k d hk hinserted
    simp only [List.take_append_of_le_length hle, List.length_append]
    exact ⟨by omega, hpackets⟩

/-- A statement of `schedulePacket` changes what is to be sent next, and nothing of what is being sent. -/
theorem statement_inv (h : Inv isMain s sent current next) :
    ∃ next', Inv isMain s.statement sent current next' := by
  have hfill := h.filling
  unfold statement
  split
  · exact ⟨next, h⟩
  · next c hfg =>
    split
    · exact ⟨next, h.returns _⟩
    · next hfree =>
      have hzero : s.channel.dataRepeat = 0 := by
        simpa [UInt8.pos_iff_ne_zero] using hfree
      exact ⟨next, { h with filling := hzero }⟩
  · next c hfg =>
    rw [hfg] at hfill
    split
    · exact ⟨next, h.returns _⟩
    · split
      · exact ⟨next, h.returns _⟩
      · next hsize =>
        have hle : c.buffer.length ≤ DCCQueue.maxPacketSize + 1 := by
          rw [h.fixed.maxDataLen] at hsize
          simp only [dataLength] at hsize
          omega
        exact ⟨next, { h with
          filling := ⟨hfill, hle, Nat.zero_le _, Nat.zero_le _, fun _ => rfl, rfl⟩ }⟩
  · next c n bit hfg =>
    rw [hfg] at hfill
    obtain ⟨hfree, hle, hn, hbit, hend, hdata⟩ := hfill
    have hroom : s.channel.data.length = 9 * (DCCQueue.maxPacketSize + 1) + 1 := by
      rw [h.fixed.data, dataLength, Nat.mul_comm]
    split
    · next hlt =>
      have hconverted := getElem?_converted hlt hbit
      -- the item that is written is the next of the converted bits
      have hnext : ∀ item, item = RmtItem.bit (if bit < 8 then
          decide (c.buffer.getD n 0 &&& transmitMask.getD bit 0 ≠ 0) else false) →
          (s.channel.data.set (9 * n + bit) item).take (9 * n + bit + 1) =
            ((converted c.buffer).take (9 * n + bit + 1)).map .bit := by
        intro item hitem
        rw [take_set_succ (by omega), hdata, List.take_add_one, hconverted, hitem]
        simp
      split
      · next h8 =>
        refine ⟨next, h.fill hfree List.length_set ⟨hfree, hle, hn, h8, ?_, ?_⟩⟩
        · intro heq
          omega
        · apply hnext
          rw [if_pos h8]
          split <;> simp_all [setDCCBit1, setDCCBit0]
      · next h8 =>
        obtain rfl : bit = 8 := by omega
        refine ⟨next, h.fill hfree List.length_set ⟨hfree, hle, hlt, Nat.zero_le _, fun _ => rfl, ?_⟩⟩
        exact hnext _ rfl
    · next hge =>
      obtain rfl : n = c.buffer.length := by omega
      obtain rfl := hend rfl
      refine ⟨next, { h with filling := ⟨hfree, hle, ?_⟩ }⟩
      rw [Nat.add_zero] at hdata
      rw [hdata, List.take_of_length_le (Nat.le_of_eq (length_converted _))]
  · next c hfg =>
    rw [hfg] at hfill
    obtain ⟨hfree, hle, hdata⟩ := hfill
    have hroom : s.channel.data.length = 9 * (DCCQueue.maxPacketSize + 1) + 1 := by
      rw [h.fixed.data, dataLength, Nat.mul_comm]
    refine ⟨next, h.fill hfree ?_ ⟨hfree, ?_⟩⟩
    · simp [setItem]
    · exact body_of_converted c.nonempty (by omega) hdata
  · next c hfg =>
    rw [hfg] at hfill
    obtain ⟨hfree, hdata⟩ := hfill
    exact ⟨c.buffer, handOver_inv h hfree hdata⟩

/-! ## Runs -/

theorem step_inv (h : Inv isMain s sent current next) (e : RmtEvent) :
    ∃ sent' current' next', Inv isMain (s.step e) sent' current' next' := by
  cases e with
  | interrupt =>
    obtain ⟨bytes, hinv⟩ := interrupt_inv h
    exact ⟨_, _, _, hinv⟩
  | statement =>
    obtain ⟨next', hinv⟩ := statement_inv h
    exact ⟨_, _, _, hinv⟩
  | fillData c =>
    rw [step]
    split
    · exact ⟨sent, current, next, { h with filling := trivial }⟩
    · exact ⟨sent, current, next, h⟩

theorem after_inv (isMain : Bool) (events : List RmtEvent) :
    ∃ sent current next, Inv isMain (after isMain events) sent current next :=
  inv_run_of_step (fun s => ∃ sent current next, Inv isMain s sent current next)
    (fun _ e ⟨_, _, _, h⟩ => step_inv h e) ⟨_, _, _, inv_init isMain⟩ events

/-- `n` interrupts and nothing else. -/
def interrupts (n : Nat) (s : RmtTrack) : RmtTrack := run step s (List.replicate n .interrupt)

theorem interrupts_succ (n : Nat) (s : RmtTrack) :
    interrupts (n + 1) s = interrupts n s.interrupt := rfl

/-- An interrupt counts down. -/
theorem interrupt_repeat (h : Inv isMain s sent current next) :
    s.interrupt.channel.dataRepeat.toNat = s.channel.dataRepeat.toNat - 1 := by
  obtain ⟨bytes, hinv⟩ := interrupt_inv h
  have hkept := congrArg List.length (hinv.kept.trans h.kept.symm)
  simp only [packets_append, List.length_append, List.length_replicate] at hkept
  by_cases hempty : s.channel.runsEmpty = true
  · have hnone : packets [⟨s.channel.runsEmpty, bytes, s.accepted.length⟩] = [] := by
      simp [packets, hempty]
    have hzero : s.channel.dataRepeat = 0 := by
      rw [runsEmpty, Bool.and_eq_true, beq_iff_eq] at hempty
      exact hempty.2
    rw [hnone, hzero] at hkept
    rw [hzero]
    simpa using hkept
  · have hone : (packets [⟨s.channel.runsEmpty, bytes, s.accepted.length⟩]).length = 1 := by
      simp [packets, hempty]
    rw [hone] at hkept
    omega

/-- With the interrupts going on, all that was accepted is sent: one packet by each of them. -/
theorem interrupts_inv (h : Inv isMain s sent current next) (n : Nat) :
    ∃ more current', Inv isMain (interrupts n s) (sent ++ more) current' next ∧
      (interrupts n s).accepted = s.accepted ∧
      (interrupts n s).channel.dataRepeat.toNat = s.channel.dataRepeat.toNat - n := by
  induction n generalizing s sent current with
  | zero => exact ⟨[], current, by rwa [List.append_nil], rfl, rfl⟩
  | succ n ih =>
    obtain ⟨bytes, hinv⟩ := interrupt_inv h
    obtain ⟨more, current', hinv', haccepted, hrepeat⟩ := ih hinv
    rw [List.append_assoc] at hinv'
    refine ⟨_, current', hinv', haccepted, ?_⟩
    rw [interrupts_succ, hrepeat, interrupt_repeat h]
    omega

/-- **What the channel sends.** After every history of calls, statements and interrupts the
transmissions are those of the accepted packets, in this order and each with its repetitions in a row;
an idle or reset packet is sent only after all that had been accepted. With the interrupts going on,
all that has been accepted is sent. Where the timer-driven waveform has sent the same packets, it has
sent the same bits. -/
theorem rmt_transmits (isMain : Bool) (events : List RmtEvent) :
    ∃ sent, (after isMain events).replays = sent.map (Chosen.replay isMain) ∧
      (∀ c ∈ sent, c.inserted = true → c.bytes = DCCWaveform.fillPacket isMain) ∧
      (∃ rest, packets sent ++ rest = (after isMain events).accepted.flatMap RmtCall.copies) ∧
      (∀ k c, sent[k]? = some c → c.inserted = true → packets (sent.take k) =
        ((after isMain events).accepted.take c.scheduled).flatMap RmtCall.copies) ∧
      (∃ n, ∀ m, n ≤ m → ∃ more,
        (interrupts m (after isMain events)).replays =
            (sent ++ more).map (Chosen.replay isMain) ∧
          packets (sent ++ more) = (after isMain events).accepted.flatMap RmtCall.copies) ∧
      ∀ waveEvents waveSent tail,
        Waveform.Transmitted isMain (Waveform.after isMain waveEvents) waveSent tail →
        waveSent.map Chosen.bytes = sent.map Chosen.bytes →
        ∃ line, (Waveform.after isMain waveEvents).bits.drop DCCWaveform.initialBits.length =
            line ++ tail ∧
          true :: (after isMain events).replays.flatMap Replay.bits = line ++ [true] := by
  obtain ⟨sent, current, next, h⟩ := after_inv isMain events
  generalize after isMain events = s at h
  refine ⟨sent, h.replays, h.filled, ⟨_, h.kept⟩, fun k c hc hinserted =>
    (h.inserted k c hc hinserted).2, ?_, ?_⟩
  · refine ⟨s.channel.dataRepeat.toNat, fun m hm => ?_⟩
    obtain ⟨more, current', hinv, haccepted, hrepeat⟩ := interrupts_inv h m
    refine ⟨more, hinv.replays, ?_⟩
    have hkept := hinv.kept
    rw [hrepeat, Nat.sub_eq_zero_of_le hm, List.replicate_zero, List.append_nil, haccepted] at hkept
    exact hkept
  · intro waveEvents waveSent tail hwave hsame
    refine ⟨_, hwave.bits, ?_⟩
    have hbits : s.replays.flatMap Replay.bits =
        (sent.map Chosen.bytes).flatMap (transmission isMain) := by
      rw [h.replays, List.flatMap_map, List.flatMap_map]
      rfl
    rw [hbits, transmissions_eq, ← hsame, List.map_map]
    rfl

end RmtTrack

end CommandStation
