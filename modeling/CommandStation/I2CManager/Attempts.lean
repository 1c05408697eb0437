import CommandStation.I2CManager.Transfer

/-!
# Attempts that are lost

What has gone over the wires when arbitration is lost is counted: the bytes that were sent then are not sent
again, and those that were read are not read again. So each attempt is a whole transaction of what was left.
-/

namespace CommandStation.I2C.Twi

open CommandStation.Lib

variable {t : Transfer} {w : List UInt8} {m : Nat} {s : Bus}

/-! ## The bytes in what has gone over the wires -/

theorem countP_outs (w : List UInt8) :
    (w.map (Wire.out · true)).countP Wire.isOut = w.length ∧
      (w.map (Wire.out · true)).countP Wire.isIn = 0 := by
  induction w with
  | nil => exact ⟨rfl, rfl⟩
  | cons b w ih =>
    simp only [List.map_cons, List.countP_cons, List.length_cons, Wire.isOut, Wire.isIn, ih]
    exact ⟨rfl, rfl⟩

theorem countP_writing (t : Transfer) (w : List UInt8) :
    (t.writing w).countP Wire.isOut = w.length ∧ (t.writing w).countP Wire.isIn = 0 := by
  obtain ⟨hout, hin⟩ := countP_outs w
  rw [Transfer.writing, List.countP_append, List.countP_append, hout, hin]
  exact ⟨Nat.zero_add _, rfl⟩

theorem countP_got (got : List UInt8) :
    (got.map (Wire.inn · true)).countP Wire.isOut = 0 ∧
      (got.map (Wire.inn · true)).countP Wire.isIn = got.length := by
  induction got with
  | nil => exact ⟨rfl, rfl⟩
  | cons b got ih =>
    simp only [List.map_cons, List.countP_cons, List.length_cons, Wire.isOut, Wire.isIn, ih]
    exact ⟨rfl, rfl⟩

theorem countP_received (bytes : List UInt8) :
    (Transfer.received bytes).countP Wire.isOut = 0 ∧
      (Transfer.received bytes).countP Wire.isIn = bytes.length := by
  induction bytes using Transfer.received.induct with
  | case1 => exact ⟨rfl, rfl⟩
  | case2 b => exact ⟨rfl, rfl⟩
  | case3 b bs hbs ih =>
    rw [Transfer.received]
    · simp only [List.countP_cons, List.length_cons, Wire.isOut, Wire.isIn, ih]
      exact ⟨rfl, rfl⟩
    · exact hbs

/-- A whole transaction has all bytes. -/
theorem countP_whole (t : Transfer) (w bytes : List UInt8) :
    (t.whole w bytes).countP Wire.isOut = w.length ∧ (t.whole w bytes).countP Wire.isIn = bytes.length := by
  obtain ⟨hout, hin⟩ := countP_received bytes
  obtain ⟨hwout, hwin⟩ := countP_writing t w
  have hreading : t.reading.countP Wire.isOut = 0 ∧ t.reading.countP Wire.isIn = 0 := ⟨rfl, rfl⟩
  have hstop : [Wire.stop].countP Wire.isOut = 0 ∧ [Wire.stop].countP Wire.isIn = 0 := ⟨rfl, rfl⟩
  unfold Transfer.whole
  simp only [List.countP_append, hout, hin, hstop]
  by_cases hdirect : t.Direct w
  · rw [if_pos hdirect, hreading.1, hreading.2, hdirect.1, List.length_nil]
    omega
  · rw [if_neg hdirect, List.countP_append, List.countP_append, hwout, hwin]
    split
    · simp
    · rw [hreading.1, hreading.2]
      omega

/-- The bytes that have gone over the wires at a position. -/
theorem countP_wire (t : Transfer) (w : List UInt8) (p : Position) (hp : p.acked w ≤ w.length) :
    (p.wire t w).countP Wire.isOut = p.acked w ∧ (p.wire t w).countP Wire.isIn = p.ins.length := by
  have hwriting := countP_writing t w
  have hreading : t.reading.countP Wire.isOut = 0 ∧ t.reading.countP Wire.isIn = 0 := ⟨rfl, rfl⟩
  cases p with
  | start => exact ⟨rfl, rfl⟩
  | address => exact ⟨rfl, rfl⟩
  | out k =>
    obtain ⟨hout, hin⟩ := countP_writing t (w.take k)
    rw [List.length_take, Nat.min_eq_left (show k ≤ w.length from hp)] at hout
    exact ⟨hout, hin⟩
  | restart => exact hwriting
  | addressAgain =>
    rw [Position.wire, List.countP_append, List.countP_append, hwriting.1, hwriting.2]
    exact ⟨rfl, rfl⟩
  | inn got =>
    obtain ⟨hout, hin⟩ := countP_got got
    rw [Position.wire, List.countP_append, List.countP_append, hout, hin]
    by_cases hd : t.Direct w
    · rw [if_pos hd, hreading.1, hreading.2]
      exact ⟨(congrArg List.length hd.1).symm, Nat.zero_add _⟩
    · rw [if_neg hd, List.countP_append, List.countP_append, hwriting.1, hwriting.2, hreading.1, hreading.2]
      exact ⟨rfl, Nat.zero_add _⟩

/-- Arbitration is lost, and the attempt begins again with what was left. -/
theorem At.lost {p : Position} (h : At t w m p s) (hleft : Left t s.lost w m) {wire : List Wire}
    (houts : (p.wire t w ++ wire).countP Wire.isOut = p.outs w)
    (hins : (p.wire t w ++ wire).countP Wire.isIn = p.ins.length) (hle : p.outs w ≤ w.length)
    (hmore : p.ins.length ≤ m ∧ (0 < m → p.ins.length < m)) : Inv t (s.lose wire) := by
  have hlose := hleft.lose hle hmore.1 hmore.2 houts hins
  rw [← List.append_assoc, ← h.attempt] at hlose
  refine ⟨_, _, hlose, .inl ⟨.start, h.operation, h.deviceAddress, h.sendBuffer, h.state, h.completionStatus,
    rfl, rfl, ?_, ?_, rfl, rfl, trivial⟩⟩
  · have hsend := h.bytesToSend
    rw [Position.outs, Nat.sub_zero, List.length_take, Nat.min_eq_left (Nat.sub_le _ _)]
    exact hsend
  · exact h.bytesToReceive

/-- The transaction has failed. -/
theorem ended_interrupt (wire : List Wire) {twsr : Twsr}
    (hstate : (s.driver.handleInterrupt twsr).state = .completed)
    (hcontrol : (s.driver.handleInterrupt twsr).twcr = ⟨false, true, true⟩)
    (hstatus : (s.driver.handleInterrupt twsr).completionStatus ≠ .ok) :
    Ended t w m (s.interrupt wire twsr) :=
  ended_of_failed hstate hcontrol hstatus

theorem inv_of (hleft : Left t s.lost w m) {s' : Bus} (hlost : s'.lost = s.lost)
    (h : (∃ p, At t w m p s') ∨ Ended t w m s') : Inv t s' :=
  ⟨w, m, hlost ▸ hleft, h⟩

theorem inv_failed (hleft : Left t s.lost w m) (wire : List Wire) {twsr : Twsr}
    (hfail : twsr = .busError ∨ twsr = .mtxAdrNack ∨ twsr = .mrxAdrNack ∨ twsr = .mtxDataNack) :
    Inv t (s.interrupt wire twsr) := by
  refine inv_of hleft rfl (.inr ?_)
  rcases hfail with rfl | rfl | rfl | rfl <;> exact ended_interrupt wire rfl rfl nofun

theorem At.sent_address (h : At t w m .address s) (hdirect : ¬ t.Direct w) : Sent t w m 0 s :=
  ⟨h.operation, h.deviceAddress, h.sendBuffer, h.state, h.completionStatus, h.bytesToSend, h.bytesToReceive,
    h.txCount, h.rxCount, Nat.zero_le _, hdirect⟩

theorem At.sent_byte {k : Nat} (h : At t w m (.out k) s) (hk : k < w.length) : Sent t w m (k + 1) s :=
  ⟨h.operation, h.deviceAddress, h.sendBuffer, h.state, h.completionStatus, h.bytesToSend, h.bytesToReceive,
    h.txCount, h.rxCount, hk, fun hdirect => by simp [hdirect.1] at hk⟩

/-- The device has answered the first address. -/
theorem At.addressed (h : At t w m .address s) (hleft : Left t s.lost w m) (ack : Bool) :
    Inv t (s.interrupt [.address s.driver.twdr ack] (Bus.addressStatus s.driver.twdr ack)) := by
  have hready : s.driver.twdr = if t.Direct w then t.addressR else t.addressW := h.ready
  by_cases hdirect : t.Direct w
  case pos =>
    rw [if_pos hdirect] at hready
    rw [hready, Bus.addressStatus, if_pos (addressR_bit t)]
    cases ack with
    | true =>
      refine inv_of hleft rfl (.inl ⟨.inn [], h.read rfl ?_ ?_ (.inl hdirect)⟩)
      · rw [hdirect.1]
        rfl
      · rw [h.attempt, Position.wire, Position.wire, if_pos hdirect]
        rfl
    | false => exact inv_failed hleft _ (.inr (.inr (.inl rfl)))
  case neg =>
    rw [if_neg hdirect] at hready
    rw [hready, Bus.addressStatus, if_neg (addressW_bit t)]
    cases ack with
    | true =>
      refine inv_of hleft rfl ((h.sent_address hdirect).next hleft ?_ (.inl rfl))
      rw [h.attempt]
      rfl
    | false => exact inv_failed hleft _ (.inr (.inl rfl))

/-- The device has answered the second address. -/
theorem At.addressed_again (h : At t w m .addressAgain s) (hleft : Left t s.lost w m) (ack : Bool) :
    Inv t (s.interrupt [.address s.driver.twdr ack] (Bus.addressStatus s.driver.twdr ack)) := by
  obtain ⟨hdirect, hm, hdata⟩ := h.ready
  rw [hdata, Bus.addressStatus, if_pos (addressR_bit t)]
  cases ack with
  | true =>
    refine inv_of hleft rfl (.inl ⟨.inn [], h.read rfl rfl ?_ (.inr hm)⟩)
    rw [h.attempt, Position.wire, Position.wire, if_neg hdirect]
    simp [Transfer.reading]
  | false => exact inv_failed hleft _ (.inr (.inr (.inl rfl)))

/-- The device has answered a byte. -/
theorem At.answered {k : Nat} (h : At t w m (.out k) s) (hleft : Left t s.lost w m) (ack : Bool) :
    Inv t (s.interrupt [.out s.driver.twdr ack] (if ack then .mtxDataAck else .mtxDataNack)) := by
  obtain ⟨hk, hdata⟩ := h.ready
  cases ack with
  | true =>
    refine inv_of hleft rfl ((h.sent_byte hk).next hleft ?_ (.inr rfl))
    rw [h.attempt, Position.wire, hdata, Transfer.writing, Transfer.writing, List.take_add_one, List.map_append,
      List.append_assoc]
    congr 2
    simp [hk]
  | false => exact inv_failed hleft _ (.inr (.inr (.inr rfl)))

/-- What happens next at a position. -/
theorem At.inv_step {p : Position} (h : At t w m p s) (hleft : Left t s.lost w m) (a : Answer) :
    Inv t (s.step a) := by
  have hlen : m < 256 := by
    have := hleft.got
    have := t.readLen.toNat_lt
    omega
  -- an answer that does not fit changes nothing, and a bus error ends the attempt anywhere
  have hsame : Inv t s := ⟨w, m, hleft, .inl ⟨p, h⟩⟩
  have hfail : Inv t (s.interrupt [] .busError) := inv_failed hleft _ (.inl rfl)
  have hready := h.ready
  have hdoing := h.doing
  unfold Bus.step
  rw [hdoing]
  -- one case for each position, and in it one for each answer of the bus
  cases p with
  | start =>
    cases a with
    | done ack => exact inv_of hleft rfl (.inl ⟨.address, h.started hleft⟩)
    | byte b => exact hsame
    | arbLost => exact hsame
    | busError => exact hfail
  | address =>
    cases a with
    | done ack => exact h.addressed hleft ack
    | byte b => exact hsame
    | arbLost =>
      obtain ⟨hout, hin⟩ := countP_wire t w .address (Nat.zero_le _)
      exact h.lost hleft rfl rfl (Nat.zero_le _) ⟨Nat.zero_le _, id⟩
    | busError => exact hfail
  | out k =>
    have hk : k < w.length := hready.1
    cases a with
    | done ack => exact h.answered hleft ack
    | byte b => exact hsame
    | arbLost =>
      obtain ⟨hout, hin⟩ := countP_wire t w (.out k) (Nat.le_of_lt hk)
      refine h.lost hleft ?_ ?_ hk ⟨Nat.zero_le _, id⟩
      · rw [List.countP_append, hout]
        rfl
      · rw [List.countP_append, hin]
        rfl
    | busError => exact hfail
  | restart =>
    cases a with
    | done ack => exact inv_of hleft rfl (.inl ⟨.addressAgain, h.restarted hleft⟩)
    | byte b => exact hsame
    | arbLost => exact hsame
    | busError => exact hfail
  | addressAgain =>
    cases a with
    | done ack => exact h.addressed_again hleft ack
    | byte b => exact hsame
    | arbLost =>
      obtain ⟨hout, hin⟩ := countP_wire t w .addressAgain le_rfl
      refine h.lost hleft ?_ ?_ le_rfl ⟨Nat.zero_le _, id⟩
      · rw [List.countP_append, hout]
        rfl
      · rw [List.countP_append, hin]
        rfl
    | busError => exact hfail
  | inn got =>
    obtain ⟨hreads, hgot, -, -⟩ := hready
    cases a with
    | done ack => exact hsame
    | byte b => exact inv_of hleft rfl (h.byte hlen b)
    | arbLost =>
      obtain ⟨hout, hin⟩ := countP_wire t w (.inn got) le_rfl
      refine h.lost hleft ?_ ?_ le_rfl ⟨?_, ?_⟩
      · rw [List.append_nil, hout]
        rfl
      · rw [List.append_nil, hin]
      · show got.length ≤ m
        omega
      · intro hm
        show got.length < m
        omega
    | busError => exact hfail

theorem Inv.step (h : Inv t s) (a : Answer) : Inv t (s.step a) := by
  obtain ⟨w, m, hleft, ⟨p, hat⟩ | hended⟩ := h
  · exact hat.inv_step hleft a
  · have hstep : s.step a = s := by
      unfold Bus.step
      rw [hended.doing]
    rw [hstep]
    exact ⟨w, m, hleft, .inr hended⟩

theorem inv_start (t : Transfer) (d : Driver) (twsr : Twsr) : Inv t (t.start d twsr) := by
  refine ⟨t.writes, t.readLen.toNat, ⟨?_, rfl, rfl, id⟩, .inl ⟨.start, rfl, rfl, rfl, rfl, rfl, rfl, rfl, ?_, rfl,
    rfl, rfl, trivial⟩⟩
  · rw [List.take_length]
  · exact UInt8.toNat_ofNat_of_lt' t.short

theorem Inv.completed_iff (h : Inv t s) : s.driver.state = .completed ↔ s.doing = .nothing := by
  obtain ⟨w, m, hleft, ⟨p, hat⟩ | hended⟩ := h
  · rw [hat.state, hat.doing]
    cases p <;> exact iff_of_false nofun nofun
  · exact iff_of_true hended.state hended.doing

/-- **A transaction that ends well has gone over the wires as a whole**, and what has been read is in the
buffer; until it ends the hardware has something to do. It is the one that was asked for exactly if no byte
had been sent or read in an attempt that was lost to another master. Otherwise as many bytes as were lost are
missing at its end. -/
theorem transaction_whole (t : Transfer) (d : Driver) (twsr : Twsr) (answers : List Answer) :
    let s := run Bus.step (t.start d twsr) answers
    (s.driver.state = .completed ↔ s.doing = .nothing) ∧
    (s.driver.state = .completed → s.driver.completionStatus = .ok →
      (∃ bytes : List UInt8,
        s.attempt = t.whole (t.writes.take (t.writes.length - s.lost.countP Wire.isOut)) bytes ∧
        s.driver.rxCount.toNat = t.readLen.toNat - s.lost.countP Wire.isIn ∧
        ∀ i < s.driver.rxCount.toNat, s.driver.receiveBuffer i = bytes.getD i 0) ∧
      (t.Complete s.attempt ↔ s.lost.countP Wire.isOut = 0 ∧ s.lost.countP Wire.isIn = 0)) := by
  intro s
  have hinv : Inv t s := inv_run_of_step (Inv t) (fun _ a h => h.step a) (inv_start t d twsr) answers
  refine ⟨hinv.completed_iff, fun hstate hok => ?_⟩
  obtain ⟨w, m, hleft, ⟨p, hat⟩ | hended⟩ := hinv
  · rw [hat.state] at hstate
    cases hstate
  obtain ⟨bytes, hbytes, hattempt, hrx, hbuffer⟩ := hended.ok hok
  have hsent := hleft.sent
  have hgot := hleft.got
  -- the bytes to send that are left are those behind what was sent in lost attempts
  have hw : w = t.writes.take (t.writes.length - s.lost.countP Wire.isOut) := by
    have hlen : t.writes.length - s.lost.countP Wire.isOut = w.length := by omega
    rw [hlen]
    exact hleft.front
  refine ⟨⟨bytes, hw ▸ hattempt, by omega, hrx ▸ hbuffer⟩, ?_, ?_⟩
  · -- two transactions with as many bytes out and in are the same
    rintro ⟨all, hall, hwhole⟩
    obtain ⟨hout, hin⟩ := countP_whole t w bytes
    obtain ⟨hout', hin'⟩ := countP_whole t t.writes all
    rw [← hattempt, hwhole] at hout hin
    have hlength : w.length = t.writes.length := hout.symm.trans hout'
    have hcount : bytes.length = all.length := hin.symm.trans hin'
    have hwrites : w = t.writes := by
      rw [hleft.front, hlength, List.take_length]
    rw [hbytes, hall, hwrites, Transfer.readCount, Transfer.readCount] at hcount
    have hmore := hleft.more
    refine ⟨by omega, ?_⟩
    split at hcount <;> split at hcount <;> omega
  · rintro ⟨hnoOut, hnoIn⟩
    have hwrites : w = t.writes := by
      rw [hw, hnoOut, Nat.sub_zero, List.take_length]
    have hm : m = t.readLen.toNat := by omega
    exact ⟨bytes, by rw [hbytes, hwrites, hm], by rw [hattempt, hwrites]⟩

/-- Two bytes are to be read from register 5 and those after it. -/
def sample : Transfer where
  operation := Operation.request
  deviceAddress := 0x20
  writes := [0, 5]
  readLen := 2
  short := by decide
  reads := by decide
  sends := by decide

/-- Arbitration is lost while the number of the register is being sent. Then nothing is left to be sent, and
the device is read from at once. -/
theorem transaction_whole_lost :
    let idle : Driver :=
      ⟨0, 0, [], fun _ => 0, 0, 0, 0, 0, .free, .ok, 0xff, ⟨false, true, true⟩⟩
    let s := run Bus.step (sample.start idle .mtxDataAck)
      [.done true, .done true, .done true, .arbLost, .done true, .done true, .byte 7, .byte 8]
    s.driver.completionStatus = .ok ∧ s.attempt =
      [.start, .address 0x41 true, .inn 7 true, .inn 8 false, .stop] ∧ ¬ sample.Complete s.attempt := by
  intro idle s
  obtain ⟨-, hended⟩ := transaction_whole sample idle .mtxDataAck
    [.done true, .done true, .done true, .arbLost, .done true, .done true, .byte 7, .byte 8]
  obtain ⟨-, hcomplete⟩ := hended (by decide) (by decide)
  exact ⟨by decide, by decide, fun hc => absurd (hcomplete.mp hc) (by decide)⟩

end CommandStation.I2C.Twi
