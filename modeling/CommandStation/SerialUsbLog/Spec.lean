import CommandStation.SerialUsbLog.Basic
import Mathlib.Data.Nat.Digits.Lemmas

/-!
# What the log keeps and what the page shows

`Good` says that the buffer rolls over what went to the serial port. The reply to `/log` is then a poll of
that sequence, and the page a reader of it.
-/

namespace CommandStation

open CommandStation.Lib

/-! ## The reply fits -/

theorem StringBuffer.text_print (sb : StringBuffer) {bytes : List UInt8}
    (h : sb.text.length + bytes.length ≤ sb.bufferMax) :
    sb.print bytes = { sb with text := sb.text ++ bytes } := by
  induction bytes generalizing sb with
  | nil => simp [print]
  | cons b bytes ih =>
    rw [List.length_cons] at h
    have hroom : ¬ sb.bufferMax ≤ sb.text.length := by omega
    show (sb.write b).print bytes = _
    rw [write, if_neg hroom, ih]
    · rw [List.append_assoc, List.singleton_append]
    · show (sb.text ++ [b]).length + bytes.length ≤ sb.bufferMax
      rw [List.length_append, List.length_singleton]
      omega

theorem StringBuffer.getString_of_text {sb : StringBuffer} (h : ∀ b ∈ sb.text, b ≠ 0) :
    sb.getString = sb.text := by
  apply List.takeWhile_eq_self_iff.2
  intro b hb
  exact decide_eq_true (h b hb)

namespace SerialUsbLog

theorem decimal_ne_zero (n : Nat) : ∀ b ∈ DCCEXParser.decimal n, b ≠ 0 := by
  obtain ⟨ds, -, hds, heq, -⟩ := DCCEXParser.decimal_eq n
  rw [heq]
  intro b hb
  obtain ⟨d, hd, rfl⟩ := List.mem_map.1 hb
  have hlt := hds d hd
  interval_cases d <;> decide

theorem length_decimal_le (next : UInt32) : (DCCEXParser.decimal next.toNat).length ≤ 10 := by
  have hlt := next.toNat_lt
  rw [DCCEXParser.decimal]
  split
  · decide
  · rw [List.length_map, List.length_reverse, Nat.digits_length_le_iff (by decide)]
    omega

theorem replyHeader_ne_zero (next : UInt32) : ∀ b ∈ replyHeader next, b ≠ 0 := by
  intro b hb
  obtain hb | hb := List.mem_append.1 hb
  · obtain hb | hb := List.mem_append.1 hb
    · have hhead : ∀ b ∈ replyHead, b ≠ 0 := by decide +kernel
      exact hhead b hb
    · exact decimal_ne_zero _ b hb
  · have hend : ∀ b ∈ ([13, 10, 13, 10] : List UInt8), b ≠ 0 := by decide +kernel
    exact hend b hb

theorem length_replyHeader_le (next : UInt32) : (replyHeader next).length ≤ 128 := by
  have hdecimal := length_decimal_le next
  have hhead : replyHead.length = 114 := rfl
  rw [replyHeader, List.length_append, List.length_append, hhead]
  show 114 + _ + 4 ≤ 128
  omega

theorem toNat_queryParamInt {n : Nat} (h : n < 2147483648) :
    (queryParamInt n).toUInt32.toNat = n := by
  have hclamp : max (-2147483648) (min (n : Int) 2147483647) = n := by omega
  rw [queryParamInt, hclamp, Int32.ofInt_eq_ofNat, Int32.toUInt32_ofNat']
  exact UInt32.toNat_ofNat_of_lt' (Nat.lt_trans h (by decide))

/-! ## The buffer -/

/-- The buffer rolls over what went to the serial port. -/
structure Good (len : UInt16) (s : SerialUsbLog) : Prop where
  size : s.bufferSize = len.toNat
  rolls : Rolls s.bufferSize s.buffer s.serialPort
  pos : s.posWrite ≤ s.bufferSize
  next : s.posWrite % s.bufferSize = s.serialPort.length % s.bufferSize
  first : s.overflow = false → s.posWrite = s.serialPort.length
  full : s.overflow = true → s.bufferSize ≤ s.serialPort.length
  seq : s.seqWrite = UInt32.ofNat s.serialPort.length

variable {len : UInt16} {s : SerialUsbLog}

theorem Good.new (len : UInt16) : Good len (.new len) :=
  ⟨rfl, .nil, Nat.zero_le _, rfl, fun _ => rfl, fun h => absurd h Bool.false_ne_true, rfl⟩

/-- A byte that is written goes to the next place of the buffer, over the oldest one when it is full. -/
theorem Good.write (hlen : 0 < len) (h : Good len s) (b : UInt8) : Good len (s.write b) := by
  have hsize : 0 < s.bufferSize := by
    rw [h.size]
    exact UInt16.lt_iff_toNat_lt.1 hlen
  have hpos := h.pos
  have hseq : s.seqWrite + 1 = UInt32.ofNat (s.serialPort ++ [b]).length := by
    rw [h.seq, List.length_append, List.length_singleton, UInt32.ofNat_add]
    rfl
  have hrolls := h.rolls.write b
  unfold SerialUsbLog.write shoveToBuffer
  by_cases hend : s.bufferSize ≤ s.posWrite
  · -- back to the start of the buffer
    have hat : s.posWrite = s.bufferSize := Nat.le_antisymm hpos hend
    have hzero : s.serialPort.length % s.bufferSize = 0 := by rw [← h.next, hat, Nat.mod_self]
    rw [hzero] at hrolls
    simp only [if_pos hend]
    refine ⟨h.size, hrolls, hsize, ?_, fun hf => absurd hf Bool.true_eq_false_eq_False, ?_, hseq⟩
    · show (0 + 1) % s.bufferSize = (s.serialPort ++ [b]).length % s.bufferSize
      rw [List.length_append, Nat.add_mod s.serialPort.length, hzero, List.length_singleton,
        Nat.zero_add, Nat.zero_add, Nat.mod_mod]
    · intro _
      show s.bufferSize ≤ (s.serialPort ++ [b]).length
      rw [List.length_append]
      cases hover : s.overflow with
      | true => exact Nat.le_add_right_of_le (h.full hover)
      | false =>
        have hfirst := h.first hover
        omega
  · have hlt : s.posWrite < s.bufferSize := Nat.not_le.1 hend
    have hcell : s.serialPort.length % s.bufferSize = s.posWrite := by
      rw [← h.next, Nat.mod_eq_of_lt hlt]
    rw [hcell] at hrolls
    simp only [if_neg hend]
    refine ⟨h.size, hrolls, hlt, ?_, ?_, ?_, hseq⟩
    · show (s.posWrite + 1) % s.bufferSize = (s.serialPort ++ [b]).length % s.bufferSize
      rw [List.length_append, List.length_singleton, ← hcell, Nat.mod_add_mod]
    · intro hf
      show s.posWrite + 1 = (s.serialPort ++ [b]).length
      rw [List.length_append, h.first hf, List.length_singleton]
    · intro ht
      show s.bufferSize ≤ (s.serialPort ++ [b]).length
      rw [List.length_append]
      exact Nat.le_add_right_of_le (h.full ht)

/-- The log that is printed as a whole. -/
theorem Good.streamOut_eq (h : Good len s) :
    s.streamOut = s.serialPort.drop (s.serialPort.length - s.bufferSize) := by
  rw [streamOut]
  cases hover : s.overflow with
  | true =>
    rw [if_pos rfl]
    exact h.rolls.read_round h.pos (h.full hover) h.next
  | false =>
    rw [if_neg Bool.false_ne_true]
    have hfirst := h.first hover
    have hpos := h.pos
    rw [Nat.sub_eq_zero_of_le (hfirst ▸ hpos), List.drop_zero, hfirst]
    have hread := h.rolls.read 0 s.serialPort.length (by omega) (by omega)
    rw [List.drop_zero, List.take_length] at hread
    refine Eq.trans ?_ hread
    apply List.map_congr_left
    intro i hi
    have hi' := List.mem_range.1 hi
    rw [Nat.zero_add, Nat.mod_eq_of_lt (by omega)]

theorem serialPort_run (s : SerialUsbLog) (bs : List UInt8) :
    (run write s bs).serialPort = s.serialPort ++ bs := by
  induction bs generalizing s with
  | nil => simp
  | cons b bs ih => simp [ih]

/-- **The log keeps the end of what was written**, however much it was. -/
theorem streamOut_last (hlen : 0 < len) (bs : List UInt8) :
    (run write (.new len) bs).streamOut = bs.drop (bs.length - len.toNat) := by
  have hgood : Good len (run write (.new len) bs) :=
    inv_run_of_step (Good len) (fun _ b h => h.write hlen b) (.new len) bs
  have hport : (run write (.new len) bs).serialPort = bs := serialPort_run _ bs
  rw [hgood.streamOut_eq, hgood.size, hport]

/-- Three bytes into a log of two. -/
theorem streamOut_last_two : (run write (.new 2) [60, 61, 62]).streamOut = [61, 62] :=
  streamOut_last (by decide) [60, 61, 62]

/-! ## The reply -/

theorem Good.toNat_seqWrite (h : Good len s) (hshort : s.serialPort.length < 4294967296) :
    s.seqWrite.toNat = s.serialPort.length := by
  rw [h.seq]
  exact UInt32.toNat_ofNat_of_lt' hshort

theorem Good.toNat_bufferSize (h : Good len s) : (UInt32.ofNat s.bufferSize).toNat = s.bufferSize := by
  rw [h.size]
  exact UInt32.toNat_ofNat_of_lt' (Nat.lt_trans len.toNat_lt (by decide))

theorem Good.toNat_earliest (h : Good len s) (hshort : s.serialPort.length < 4294967296) :
    s.earliest.toNat = s.serialPort.length - s.bufferSize := by
  have hseq := h.toNat_seqWrite hshort
  have hsize := h.toNat_bufferSize
  unfold earliest
  by_cases hlt : UInt32.ofNat s.bufferSize < s.seqWrite
  · rw [if_pos hlt, UInt32.toNat_sub_of_le _ _ (UInt32.le_of_lt hlt), hseq, hsize]
  · rw [if_neg hlt]
    rw [UInt32.lt_iff_toNat_lt, hseq, hsize] at hlt
    show 0 = _
    omega

theorem Good.span_fst (h : Good len s) (hshort : s.serialPort.length < 4294967296) {fromSeq : UInt32}
    (hfrom : fromSeq.toNat ≤ s.serialPort.length) (maxBytes : UInt32) :
    (s.span fromSeq maxBytes).1.toNat = max fromSeq.toNat (s.serialPort.length - s.bufferSize) := by
  simp only [span, UInt32.lt_iff_toNat_lt, apply_ite UInt32.toNat, h.toNat_seqWrite hshort,
    h.toNat_earliest hshort]
  grind

theorem Good.span_snd (h : Good len s) (hshort : s.serialPort.length < 4294967296) {fromSeq : UInt32}
    (hfrom : fromSeq.toNat ≤ s.serialPort.length) (maxBytes : UInt32) :
    (s.span fromSeq maxBytes).2.toNat =
      min maxBytes.toNat (s.serialPort.length - (s.span fromSeq maxBytes).1.toNat) := by
  have hseq := h.toNat_seqWrite hshort
  have hfst := h.span_fst hshort hfrom maxBytes
  have hle : (s.span fromSeq maxBytes).1 ≤ s.seqWrite := by
    rw [UInt32.le_iff_toNat_le, hseq, hfst]
    omega
  have hsub := UInt32.toNat_sub_of_le _ _ hle
  rw [hseq] at hsub
  show (if maxBytes < s.seqWrite - (s.span fromSeq maxBytes).1 then maxBytes
    else s.seqWrite - (s.span fromSeq maxBytes).1).toNat = _
  simp only [UInt32.lt_iff_toNat_lt, apply_ite UInt32.toNat, hsub]
  grind

/-- The number of the byte after those that are sent. -/
theorem Good.next_toNat (h : Good len s) (hshort : s.serialPort.length < 4294967296) {fromSeq : UInt32}
    (hfrom : fromSeq.toNat ≤ s.serialPort.length) (maxBytes : UInt32) :
    ((s.span fromSeq maxBytes).1 + (s.span fromSeq maxBytes).2).toNat =
      (s.span fromSeq maxBytes).1.toNat + (s.span fromSeq maxBytes).2.toNat := by
  have hfst := h.span_fst hshort hfrom maxBytes
  have hsnd := h.span_snd hshort hfrom maxBytes
  rw [UInt32.toNat_add]
  exact Nat.mod_eq_of_lt (by omega)

/-- The bytes that `streamOutFrom` gives are the bytes of the sequence with these numbers. -/
theorem Good.streamOutFrom_fst (h : Good len s)
    (hshort : s.serialPort.length < 4294967296) {fromSeq : UInt32}
    (hfrom : fromSeq.toNat ≤ s.serialPort.length) (maxBytes : UInt32) :
    (s.streamOutFrom fromSeq maxBytes).1 =
      (s.serialPort.drop (s.span fromSeq maxBytes).1.toNat).take (s.span fromSeq maxBytes).2.toNat := by
  have hfst := h.span_fst hshort hfrom maxBytes
  have hsnd := h.span_snd hshort hfrom maxBytes
  rw [← h.rolls.read _ _ (by omega) (by omega)]
  apply List.map_congr_left
  intro k hk
  have hk' : k < (s.span fromSeq maxBytes).2.toNat := List.mem_range.1 hk
  have hadd : ((s.span fromSeq maxBytes).1 + UInt32.ofNat k).toNat =
      (s.span fromSeq maxBytes).1.toNat + k := by
    have hk32 : k < 4294967296 := by omega
    rw [UInt32.toNat_add, UInt32.toNat_ofNat_of_lt' hk32]
    exact Nat.mod_eq_of_lt (by omega)
  show s.buffer (((s.span fromSeq maxBytes).1 + UInt32.ofNat k) % UInt32.ofNat s.bufferSize).toNat = _
  rw [UInt32.toNat_mod, hadd, h.toNat_bufferSize]

/-- A reply that fits into its buffer and has no zero is sent as it is. -/
theorem getString_dummyClient {header sent : List UInt8} (hlength : header.length + sent.length ≤ 2046)
    (hheader : ∀ b ∈ header, b ≠ 0) (hsent : ∀ b ∈ sent, b ≠ 0) :
    ((dummyClient.flush.print header).print sent).getString = header ++ sent := by
  have hfirst : dummyClient.flush.print header = ⟨2046, header⟩ :=
    StringBuffer.text_print _ (by
      show 0 + header.length ≤ 2046
      omega)
  have hwhole : (StringBuffer.mk 2046 header).print sent = ⟨2046, header ++ sent⟩ :=
    StringBuffer.text_print _ hlength
  rw [hfirst, hwhole]
  apply StringBuffer.getString_of_text
  intro b hb
  exact (List.mem_append.1 hb).elim (hheader b) (hsent b)

/-- The number and the text of a reply. -/
theorem Good.logReply_eq (h : Good len s) (hshort : s.serialPort.length < 2147483648)
    (hzero : ∀ b ∈ s.serialPort, b ≠ 0) {seq : Nat} (hseq : seq ≤ s.serialPort.length) :
    let start := max seq (s.serialPort.length - len.toNat)
    let count := min 1000 (s.serialPort.length - start)
    ∃ next : UInt32, next.toNat = start + count ∧
      s.logReply seq 2048 = (next, replyHeader next ++ (s.serialPort.drop start).take count) := by
  intro start count
  have hfrom : (queryParamInt seq).toUInt32.toNat = seq := toNat_queryParamInt (by omega)
  have hchunk : (limitChunk (queryParamInt 2048)).toUInt32 = 1000 := by decide
  generalize hf : (queryParamInt seq).toUInt32 = fromSeq at hfrom
  have hlong : s.serialPort.length < 4294967296 := by omega
  have hle : fromSeq.toNat ≤ s.serialPort.length := hfrom ▸ hseq
  have hstart : (s.span fromSeq 1000).1.toNat = start := by
    rw [h.span_fst hlong hle, hfrom, h.size]
  have hcount : (s.span fromSeq 1000).2.toNat = count := by
    rw [h.span_snd hlong hle, hstart]
    rfl
  have hnext := h.next_toNat hlong hle 1000
  have hbytes := h.streamOutFrom_fst hlong hle 1000
  rw [hstart, hcount] at hnext hbytes
  refine ⟨_, hnext, ?_⟩
  generalize hnxt : (s.span fromSeq 1000).1 + (s.span fromSeq 1000).2 = next
  have hheader := length_replyHeader_le next
  have hsent : ((s.serialPort.drop start).take count).length ≤ 1000 := by
    rw [List.length_take]
    omega
  have hstring : ((dummyClient.flush.print (replyHeader next)).print
      ((s.serialPort.drop start).take count)).getString =
        replyHeader next ++ (s.serialPort.drop start).take count := by
    apply getString_dummyClient (by omega) (replyHeader_ne_zero next)
    intro b hb
    exact hzero b (List.mem_of_mem_drop (List.mem_of_mem_take hb))
  unfold logReply
  simp only [hf, hchunk, hnxt, hbytes, hstring]

end SerialUsbLog

/-- A page that gets the text from a number on, which is not before its own. -/
theorem LogPage.receive_eq {r : Reader UInt8} {start n : Nat} {xs : List UInt8} {next : UInt32}
    (hstart : r.seq ≤ start) (hnext : next.toNat = start + n) :
    LogPage.receive ⟨r.seq, r.text⟩ (next, SerialUsbLog.replyHeader next ++ (xs.drop start).take n) =
      ⟨(r.receive start n xs).seq, (r.receive start n xs).text⟩ := by
  show LogPage.mk (if next.toNat = 0 then r.seq else next.toNat)
    (r.text ++ (SerialUsbLog.replyHeader next ++ _).drop (SerialUsbLog.replyHeader next).length) = _
  rw [List.drop_left]
  congr 1
  -- a number 0 comes only to a page that has number 0
  split
  · next hzero =>
    show r.seq = start + n
    omega
  · exact hnext

end CommandStation
