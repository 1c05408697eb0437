import CommandStation.I2CManager.Avr
import Mathlib.Tactic.IntervalCases

/-!
# What a transaction sends

A transaction that ends well has gone over the wires in one piece: the address for writing with all the bytes,
a second start, the address for reading with all the bytes that come back, a stop. The counts of the bytes
are not set again when arbitration has been lost, though. The attempt after that is one of a shorter
transaction.
-/

namespace CommandStation.I2C.Twi

open CommandStation.Lib

/-- A transaction as the requests have it: a read has nothing to send, and what is neither read nor request
receives nothing. -/
structure Transfer where
  operation : UInt8
  deviceAddress : UInt8
  writes : List UInt8
  readLen : UInt8
  short : writes.length < 256
  reads : operation = Operation.read → writes = []
  sends : operation ≠ Operation.read → operation ≠ Operation.request → readLen = 0

namespace Transfer

variable (t : Transfer)

def addressW : UInt8 := t.deviceAddress <<< 1 ||| 0

def addressR : UInt8 := t.deviceAddress <<< 1 ||| 1

/-- The device is read from at once, when `w` is what there is to send. -/
def Direct (w : List UInt8) : Prop :=
  w = [] ∧ (t.operation = Operation.read ∨ t.operation = Operation.request)

instance (w : List UInt8) : Decidable (t.Direct w) := inferInstanceAs (Decidable (_ ∧ _))

/-- `startTransaction` begins the transaction, whatever the driver has done before. -/
def start (d : Driver) (twsr : Twsr) : Bus where
  driver := Driver.sendStart { d with
    operation := t.operation
    deviceAddress := t.deviceAddress
    sendBuffer := t.writes
    bytesToSend := UInt8.ofNat t.writes.length
    bytesToReceive := t.readLen
    state := .active
    completionStatus := .ok }
  twsr := twsr
  attempt := []
  lost := []

/-! ## On the wires -/

/-- The last byte that is read is not acknowledged. -/
def received : List UInt8 → List Wire
  | [] => []
  | [b] => [.inn b false]
  | b :: bs => .inn b true :: received bs

def writing (w : List UInt8) : List Wire := [.start, .address t.addressW true] ++ w.map (.out · true)

def reading : List Wire := [.start, .address t.addressR true]

/-- The transaction that sends `w` and reads `bytes`. -/
def whole (w bytes : List UInt8) : List Wire :=
  (if t.Direct w then t.reading
    else t.writing w ++ if bytes = [] then [] else t.reading) ++ received bytes ++ [.stop]

/-- How many bytes are read, when `m` are wanted. A read that is begun has one at least. -/
def readCount (w : List UInt8) (m : Nat) : Nat := if t.Direct w ∨ 0 < m then max 1 m else 0

/-- All that was to be sent has been sent, and all that was to be read has been read. -/
def Complete (attempt : List Wire) : Prop :=
  ∃ bytes : List UInt8, bytes.length = t.readCount t.writes t.readLen.toNat ∧
    attempt = t.whole t.writes bytes

theorem received_append (got : List UInt8) (b : UInt8) :
    received (got ++ [b]) = got.map (.inn · true) ++ [.inn b false] := by
  induction got with
  | nil => rfl
  | cons g got ih =>
    have hcons : received (g :: (got ++ [b])) = .inn g true :: received (got ++ [b]) := by
      cases got <;> rfl
    rw [List.cons_append, hcons, ih]
    rfl

end Transfer

/-! ## Where a transaction is -/

/-- What the hardware has been told to do. -/
inductive Position where
  | start
  | address
  /-- Byte `k` is being sent. -/
  | out (k : Nat)
  | restart
  | addressAgain
  /-- These bytes have come, and one is waited for. -/
  | inn (got : List UInt8)

namespace Position

def doing : Position → Doing
  | .start | .restart => .start
  | .address | .addressAgain => .address
  | .out _ => .out
  | .inn _ => .inn

/-- The bytes that have been put into the data register. -/
def outs (w : List UInt8) : Position → Nat
  | .start | .address => 0
  | .out k => k + 1
  | .restart | .addressAgain | .inn _ => w.length

/-- The bytes that the device has acknowledged. -/
def acked (w : List UInt8) : Position → Nat
  | .start | .address => 0
  | .out k => k
  | .restart | .addressAgain | .inn _ => w.length

/-- The bytes that have been put into the receive buffer. -/
def ins : Position → List UInt8
  | .inn got => got
  | _ => []

/-- What has gone over the wires. -/
def wire (t : Transfer) (w : List UInt8) : Position → List Wire
  | .start => []
  | .address => [.start]
  | .out k => t.writing (w.take k)
  | .restart => t.writing w
  | .addressAgain => t.writing w ++ [.start]
  | .inn got => (if t.Direct w then t.reading else t.writing w ++ t.reading) ++ got.map (.inn · true)

/-- What is in the data register, and what is to come. -/
def Ready (t : Transfer) (w : List UInt8) (m : Nat) (d : Driver) : Position → Prop
  | .start => True
  | .address => d.twdr = if t.Direct w then t.addressR else t.addressW
  | .out k => k < w.length ∧ d.twdr = w.getD k 0
  | .restart => ¬ t.Direct w ∧ 0 < m
  | .addressAgain => ¬ t.Direct w ∧ 0 < m ∧ d.twdr = t.addressR
  | .inn got =>
    (t.Direct w ∨ 0 < m) ∧ got.length < max 1 m ∧ d.twcr.ea = decide (2 ≤ m - got.length) ∧
      ∀ i < got.length, d.receiveBuffer i = got.getD i 0

end Position

/-- The transaction that sends `w` and reads `m` bytes is at position `p`. -/
structure At (t : Transfer) (w : List UInt8) (m : Nat) (p : Position) (s : Bus) : Prop where
  operation : s.driver.operation = t.operation
  deviceAddress : s.driver.deviceAddress = t.deviceAddress
  sendBuffer : s.driver.sendBuffer = t.writes
  state : s.driver.state = .active
  completionStatus : s.driver.completionStatus = .ok
  doing : s.doing = p.doing
  attempt : s.attempt = p.wire t w
  bytesToSend : s.driver.bytesToSend.toNat = w.length - p.outs w
  bytesToReceive : s.driver.bytesToReceive.toNat = m - p.ins.length
  txCount : s.driver.txCount.toNat = p.outs w
  rxCount : s.driver.rxCount.toNat = p.ins.length
  ready : p.Ready t w m s.driver

/-- The transaction that sends `w` and reads `m` bytes has ended. -/
structure Ended (t : Transfer) (w : List UInt8) (m : Nat) (s : Bus) : Prop where
  state : s.driver.state = .completed
  doing : s.doing = .nothing
  ok : s.driver.completionStatus = .ok → ∃ bytes : List UInt8, bytes.length = t.readCount w m ∧
    s.attempt = t.whole w bytes ∧ s.driver.rxCount.toNat = m ∧
      ∀ i < m, s.driver.receiveBuffer i = bytes.getD i 0

/-- What is left of a transaction when some attempts have been lost. -/
structure Left (t : Transfer) (lost : List Wire) (w : List UInt8) (m : Nat) : Prop where
  front : w = t.writes.take w.length
  sent : w.length + lost.countP Wire.isOut = t.writes.length
  got : m + lost.countP Wire.isIn = t.readLen.toNat
  more : 0 < t.readLen.toNat → 0 < m

/-- A transaction is under way or has ended. -/
def Inv (t : Transfer) (s : Bus) : Prop :=
  ∃ w m, Left t s.lost w m ∧ ((∃ p, At t w m p s) ∨ Ended t w m s)

variable {t : Transfer} {w : List UInt8} {m : Nat} {s : Bus}

theorem Left.length_lt {lost : List Wire} (h : Left t lost w m) : w.length < 256 := by
  have := h.sent
  have := t.short
  omega

theorem Left.of_read {lost : List Wire} (h : Left t lost w m) (hread : t.operation = Operation.read) :
    w = [] := by
  have hwrites := t.reads hread
  have hsent := h.sent
  rw [hwrites, List.length_nil] at hsent
  exact List.eq_nil_of_length_eq_zero (by omega)

theorem Left.request {lost : List Wire} (h : Left t lost w m) (hdirect : ¬ t.Direct w) (hm : 0 < m) :
    t.operation = Operation.request := by
  by_contra hno
  have hread : t.operation ≠ Operation.read := fun hread => hdirect ⟨h.of_read hread, .inl hread⟩
  have hgot := h.got
  rw [t.sends hread hno] at hgot
  simp at hgot
  omega

theorem Left.getD {lost : List Wire} (h : Left t lost w m) {k : Nat} (hk : k < w.length) :
    t.writes.getD k 0 = w.getD k 0 := by
  rw [h.front, List.getD_eq_getElem?_getD, List.getD_eq_getElem?_getD, List.getElem?_take_of_lt hk]

/-- An attempt is lost at a position. -/
theorem Left.lose {lost wire : List Wire} (h : Left t lost w m) {outs ins : Nat} (houts : outs ≤ w.length)
    (hins : ins ≤ m) (hmore : 0 < m → ins < m) (hwout : wire.countP Wire.isOut = outs)
    (hwin : wire.countP Wire.isIn = ins) :
    Left t (lost ++ wire) (w.take (w.length - outs)) (m - ins) := by
  have hlen : (w.take (w.length - outs)).length = w.length - outs := by
    rw [List.length_take]
    omega
  refine ⟨?_, ?_, ?_, ?_⟩
  · rw [hlen]
    have hfront := congrArg (List.take (w.length - outs)) h.front
    rw [List.take_take, Nat.min_eq_left (Nat.sub_le _ _)] at hfront
    exact hfront
  · have := h.sent
    rw [hlen, List.countP_append, hwout]
    omega
  · have := h.got
    rw [List.countP_append, hwin]
    omega
  · intro hread
    have := h.more hread
    have := hmore this
    omega

/-! ## One interrupt -/

theorem toNat_pred {x : UInt8} (h : 0 < x.toNat) : (x - 1).toNat = x.toNat - 1 := by
  rw [UInt8.toNat_sub_of_le]
  · rfl
  · rw [UInt8.le_iff_toNat_le]
    exact h

theorem toNat_succ {x : UInt8} (h : x.toNat < 255) : (x + 1).toNat = x.toNat + 1 := by
  rw [UInt8.toNat_add]
  exact Nat.mod_eq_of_lt (by show x.toNat + 1 < 256; omega)

theorem eq_zero_iff (x : UInt8) : x = 0 ↔ x.toNat = 0 := by
  rw [← UInt8.toNat_inj]
  rfl

theorem addressR_bit (t : Transfer) : t.addressR &&& 1 = 1 := by
  apply UInt8.toBitVec_inj.mp
  apply BitVec.eq_of_getLsbD_eq
  intro i hi
  simp only [Transfer.addressR, UInt8.toBitVec_and, UInt8.toBitVec_or, UInt8.toBitVec_shiftLeft]
  interval_cases i <;> simp

theorem addressW_bit (t : Transfer) : t.addressW &&& 1 ≠ 1 := by
  have hzero : t.addressW &&& 1 = 0 := by
    apply UInt8.toBitVec_inj.mp
    apply BitVec.eq_of_getLsbD_eq
    intro i hi
    simp only [Transfer.addressW, UInt8.toBitVec_and, UInt8.toBitVec_or, UInt8.toBitVec_shiftLeft]
    interval_cases i <;> simp
  rw [hzero]
  decide

/-- A transaction that is given up. -/
theorem ended_of_failed {d : Driver} {wire lost : List Wire} {twsr : Twsr}
    (hstate : d.state = .completed) (hcontrol : d.twcr = ⟨false, true, true⟩)
    (hstatus : d.completionStatus ≠ .ok) : Ended t w m ⟨d, twsr, wire, lost⟩ :=
  ⟨hstate, by simp [Bus.doing, hcontrol], fun hok => absurd hok hstatus⟩

/-- The address that is sent after the first start. -/
theorem At.address_eq (h : At t w m .start s) (hleft : Left t s.lost w m) :
    s.driver.address = if t.Direct w then t.addressR else t.addressW := by
  have hsend := h.bytesToSend
  rw [Position.outs, Nat.sub_zero] at hsend
  have hnone : s.driver.bytesToSend = 0 ↔ w = [] := by
    rw [eq_zero_iff, hsend, List.length_eq_zero_iff]
  rw [Driver.address, h.operation, h.deviceAddress]
  by_cases hdirect : t.Direct w
  · rw [if_pos hdirect, if_pos]
    · rfl
    · exact hdirect.2.imp_right fun hrequest => ⟨hrequest, hnone.mpr hdirect.1⟩
  · rw [if_neg hdirect, if_neg]
    · rfl
    · rintro (hread | ⟨hrequest, hzero⟩)
      · exact hdirect ⟨hleft.of_read hread, .inl hread⟩
      · exact hdirect ⟨hnone.mp hzero, .inr hrequest⟩

/-- The address that is sent after the second one. -/
theorem At.address_again (h : At t w m .restart s) (hleft : Left t s.lost w m) :
    s.driver.address = t.addressR := by
  obtain ⟨hdirect, hm⟩ := h.ready
  have hsend := h.bytesToSend
  rw [Position.outs, Nat.sub_self, ← eq_zero_iff] at hsend
  rw [Driver.address, h.operation, h.deviceAddress, if_pos (.inr ⟨hleft.request hdirect hm, hsend⟩)]
  rfl

/-- A start has been sent. -/
theorem At.started (h : At t w m .start s) (hleft : Left t s.lost w m) :
    At t w m .address (s.interrupt [.start] (if s.attempt = [] then .start else .repStart)) := by
  have haddress := h.address_eq hleft
  rw [if_pos (show s.attempt = [] from h.attempt)]
  exact ⟨h.operation, h.deviceAddress, h.sendBuffer, h.state, h.completionStatus, rfl,
    by simp [Bus.interrupt, Driver.handleInterrupt, h.attempt, Position.wire],
    h.bytesToSend, h.bytesToReceive, h.txCount, h.rxCount, haddress⟩

theorem At.restarted (h : At t w m .restart s) (hleft : Left t s.lost w m) :
    At t w m .addressAgain (s.interrupt [.start] (if s.attempt = [] then .start else .repStart)) := by
  have haddress := h.address_again hleft
  obtain ⟨hdirect, hm⟩ := h.ready
  have hne : s.attempt ≠ [] := by
    rw [h.attempt, Position.wire, Transfer.writing]
    exact List.cons_ne_nil _ _
  rw [if_neg hne]
  exact ⟨h.operation, h.deviceAddress, h.sendBuffer, h.state, h.completionStatus, rfl,
    by simp [Bus.interrupt, Driver.handleInterrupt, h.attempt, Position.wire],
    h.bytesToSend, h.bytesToReceive, h.txCount, h.rxCount, ⟨hdirect, hm, haddress⟩⟩

/-- The device has acknowledged its address for writing, or a byte: `k` bytes have been sent. -/
structure Sent (t : Transfer) (w : List UInt8) (m k : Nat) (s : Bus) : Prop where
  operation : s.driver.operation = t.operation
  deviceAddress : s.driver.deviceAddress = t.deviceAddress
  sendBuffer : s.driver.sendBuffer = t.writes
  state : s.driver.state = .active
  completionStatus : s.driver.completionStatus = .ok
  bytesToSend : s.driver.bytesToSend.toNat = w.length - k
  bytesToReceive : s.driver.bytesToReceive.toNat = m
  txCount : s.driver.txCount.toNat = k
  rxCount : s.driver.rxCount.toNat = 0
  le : k ≤ w.length
  direct : ¬ t.Direct w

/-- When a byte has been acknowledged, the next is sent, the reading begins, or the transfer has ended. -/
theorem Sent.next {k : Nat} (h : Sent t w m k s) (hleft : Left t s.lost w m) {wire : List Wire}
    (hwire : s.attempt ++ wire = t.writing (w.take k)) {twsr : Twsr}
    (htwsr : twsr = .mtxAdrAck ∨ twsr = .mtxDataAck) :
    (∃ p, At t w m p (s.interrupt wire twsr)) ∨ Ended t w m (s.interrupt wire twsr) := by
  obtain ⟨hoperation, hdevice, hbuffer, hstate, hstatus, hsend, hreceive, htx, hrx, hle, hdirect⟩ := h
  have hlen := hleft.length_lt
  have hhandle : s.driver.handleInterrupt twsr = s.driver.handleInterrupt .mtxDataAck := by
    rcases htwsr with rfl | rfl <;> rfl
  have hdoing : ∀ d : Driver, d.twcr = ⟨false, false, false⟩ → ∀ wire lost,
      (⟨d, twsr, wire, lost⟩ : Bus).doing = .out := by
    intro d hd wire lost
    rcases htwsr with rfl | rfl <;> simp [Bus.doing, hd]
  unfold Bus.interrupt
  rw [hhandle]
  unfold Driver.handleInterrupt
  dsimp only
  -- a byte is left to send, then bytes are to be read, then the transfer is over
  by_cases hmore : k < w.length
  case pos =>
    have hne : s.driver.bytesToSend ≠ 0 := by
      rw [Ne, eq_zero_iff, hsend]
      omega
    rw [if_pos hne]
    refine .inl ⟨.out k, hoperation, hdevice, hbuffer, hstate, hstatus, hdoing _ rfl _ _, ?_, ?_, hreceive,
      ?_, hrx, hmore, ?_⟩
    · simp [Driver.sendByte, Position.wire, hwire]
    · show (s.driver.bytesToSend - 1).toNat = _
      rw [toNat_pred (by omega), hsend, Position.outs]
      omega
    · show (s.driver.txCount + 1).toNat = _
      rw [toNat_succ (by omega), htx, Position.outs]
    · show s.driver.sendBuffer.getD s.driver.txCount.toNat 0 = _
      rw [hbuffer, htx]
      exact hleft.getD hmore
  case neg =>
    have hk : k = w.length := by omega
    have hzero : s.driver.bytesToSend = 0 := by
      rw [eq_zero_iff, hsend]
      omega
    rw [if_neg (not_not.mpr hzero)]
    rw [hk, List.take_length] at hwire
    by_cases hm : 0 < m
    case pos =>
      have hne : s.driver.bytesToReceive ≠ 0 := by
        rw [Ne, eq_zero_iff, hreceive]
        omega
      rw [if_pos hne]
      refine .inl ⟨.restart, hoperation, hdevice, hbuffer, hstate, hstatus, rfl, ?_, ?_, hreceive, ?_, hrx,
        hdirect, hm⟩
      · simp [Position.wire, hwire]
      · rw [hsend, hk]
        rfl
      · rw [htx, hk]
        rfl
    case neg =>
      have hnone : s.driver.bytesToReceive = 0 := by
        rw [eq_zero_iff, hreceive]
        omega
      rw [if_neg (not_not.mpr hnone)]
      refine .inr ⟨rfl, rfl, fun _ => ⟨[], ?_, ?_, ?_, fun i hi => absurd hi (by omega)⟩⟩
      · rw [Transfer.readCount, if_neg (fun h => h.elim hdirect hm)]
        rfl
      · simp [Driver.stop, Transfer.whole, hdirect, Transfer.received, ← hwire]
      · show s.driver.rxCount.toNat = m
        omega

theorem receiveNext_eq (d : Driver) :
    d.receiveNext = { d with twcr := ⟨false, false, decide (2 ≤ d.bytesToReceive.toNat)⟩ } := by
  have hle : d.bytesToReceive ≤ 1 ↔ ¬ 2 ≤ d.bytesToReceive.toNat := by
    rw [UInt8.le_iff_toNat_le, show (1 : UInt8).toNat = 1 from rfl]
    omega
  unfold Driver.receiveNext
  by_cases htwo : 2 ≤ d.bytesToReceive.toNat
  · rw [if_neg (fun hone => hle.mp hone htwo), decide_eq_true htwo]
  · rw [if_pos (hle.mpr htwo), decide_eq_false htwo]

/-- The device has acknowledged its address for reading. -/
theorem At.read {p : Position} (h : At t w m p s) (hp : p.ins = []) (houts : p.outs w = w.length)
    {wire : List Wire} (hwire : s.attempt ++ wire = Position.wire t w (.inn []))
    (hreads : t.Direct w ∨ 0 < m) : At t w m (.inn []) (s.interrupt wire .mrxAdrAck) := by
  have hreceive := h.bytesToReceive
  have hrx := h.rxCount
  rw [hp, List.length_nil] at hreceive hrx
  have hhandle : s.driver.handleInterrupt .mrxAdrAck =
      { s.driver with twcr := ⟨false, false, decide (2 ≤ m)⟩ } := by
    rw [← Nat.sub_zero m, ← hreceive]
    exact receiveNext_eq s.driver
  unfold Bus.interrupt
  rw [hhandle]
  exact ⟨h.operation, h.deviceAddress, h.sendBuffer, h.state, h.completionStatus, rfl, by simp [hwire],
    by rw [h.bytesToSend, houts]; rfl, hreceive, by rw [h.txCount, houts]; rfl, hrx,
    hreads, by simp, rfl, fun i hi => absurd hi (Nat.not_lt_zero i)⟩

/-- A byte has been put into the receive buffer. -/
theorem stored {buffer : Nat → UInt8} {got : List UInt8} (h : ∀ i < got.length, buffer i = got.getD i 0)
    (b : UInt8) {i : Nat} (hi : i < (got ++ [b]).length) :
    Function.update buffer got.length b i = (got ++ [b]).getD i 0 := by
  by_cases hlast : i = got.length
  · rw [hlast, Function.update_self]
    simp
  · have hlt : i < got.length := by
      rw [List.length_append, List.length_singleton] at hi
      omega
    rw [Function.update_of_ne hlast, h i hlt, List.getD_eq_getElem?_getD, List.getD_eq_getElem?_getD,
      List.getElem?_append_left hlt]

/-- A byte has come that is not the last one. -/
theorem At.byte_more {got : List UInt8} (h : At t w m (.inn got) s) (hlen : m < 256)
    (htwo : 2 ≤ m - got.length) (b : UInt8) :
    ∃ p, At t w m p ({ s with driver.twdr := b }.interrupt [.inn b true] .mrxDataAck) := by
  obtain ⟨hreads, hgot, hea, hbuffer⟩ := h.ready
  have hreceive := h.bytesToReceive
  have hrx := h.rxCount
  rw [Position.ins] at hreceive hrx
  have hpos : 0 < s.driver.bytesToReceive := by
    rw [UInt8.lt_iff_toNat_lt, hreceive]
    show 0 < _
    omega
  have hless : (s.driver.bytesToReceive - 1).toNat = m - (got ++ [b]).length := by
    rw [toNat_pred (by omega), hreceive, List.length_append, List.length_singleton]
    omega
  have hmore : (s.driver.rxCount + 1).toNat = (got ++ [b]).length := by
    rw [toNat_succ (by omega), hrx, List.length_append, List.length_singleton]
  have hhandle : Driver.handleInterrupt { s.driver with twdr := b } .mrxDataAck =
      { s.driver with
        twdr := b
        receiveBuffer := Function.update s.driver.receiveBuffer got.length b
        rxCount := s.driver.rxCount + 1
        bytesToReceive := s.driver.bytesToReceive - 1
        twcr := ⟨false, false, decide (2 ≤ m - (got ++ [b]).length)⟩ } := by
    rw [Driver.handleInterrupt, receiveNext_eq, Driver.receiveByte, if_pos hpos, ← hless, ← hrx]
  unfold Bus.interrupt
  rw [hhandle]
  refine ⟨.inn (got ++ [b]), h.operation, h.deviceAddress, h.sendBuffer, h.state, h.completionStatus,
    rfl, ?_, h.bytesToSend, hless, h.txCount, hmore, hreads, ?_, rfl, fun i hi => stored hbuffer b hi⟩
  · simp [h.attempt, Position.wire]
  · rw [List.length_append, List.length_singleton]
    omega

/-- The last byte has come, which is not acknowledged. -/
theorem At.byte_last {got : List UInt8} (h : At t w m (.inn got) s) (hlen : m < 256)
    (htwo : ¬ 2 ≤ m - got.length) (b : UInt8) :
    Ended t w m ({ s with driver.twdr := b }.interrupt [.inn b false] .mrxDataNack) := by
  obtain ⟨hreads, hgot, hea, hbuffer⟩ := h.ready
  have hreceive := h.bytesToReceive
  have hrx := h.rxCount
  rw [Position.ins] at hreceive hrx
  have hcount : (got ++ [b]).length = t.readCount w m := by
    rw [Transfer.readCount, if_pos hreads, List.length_append, List.length_singleton]
    omega
  have hwhole : s.attempt ++ [.inn b false] ++ [.stop] = t.whole w (got ++ [b]) := by
    rw [h.attempt, Position.wire, Transfer.whole, Transfer.received_append]
    simp
  unfold Bus.interrupt
  by_cases hm : got.length < m
  case pos =>
    have hpos : 0 < s.driver.bytesToReceive := by
      rw [UInt8.lt_iff_toNat_lt, hreceive]
      show 0 < _
      omega
    have hmore : (s.driver.rxCount + 1).toNat = m := by
      rw [toNat_succ (by omega), hrx]
      omega
    have hhandle : Driver.handleInterrupt { s.driver with twdr := b } .mrxDataNack =
        Driver.stop { s.driver with
          twdr := b
          receiveBuffer := Function.update s.driver.receiveBuffer got.length b
          rxCount := s.driver.rxCount + 1
          bytesToReceive := s.driver.bytesToReceive - 1 } := by
      rw [Driver.handleInterrupt, Driver.receiveByte, if_pos hpos, ← hrx]
    rw [hhandle]
    refine ⟨rfl, rfl, fun _ => ⟨got ++ [b], hcount, hwhole, hmore, fun i hi => stored hbuffer b ?_⟩⟩
    rw [List.length_append, List.length_singleton]
    omega
  case neg =>
    have hnone : ¬ 0 < s.driver.bytesToReceive := by
      rw [UInt8.lt_iff_toNat_lt, hreceive]
      show ¬ 0 < _
      omega
    have hhandle : Driver.handleInterrupt { s.driver with twdr := b } .mrxDataNack =
        Driver.stop { s.driver with twdr := b } := by
      rw [Driver.handleInterrupt, Driver.receiveByte, if_neg hnone]
    rw [hhandle]
    refine ⟨rfl, rfl, fun _ => ⟨got ++ [b], hcount, hwhole, ?_, fun i hi => absurd hi (by omega)⟩⟩
    show s.driver.rxCount.toNat = m
    omega

/-- A byte has come. -/
theorem At.byte {got : List UInt8} (h : At t w m (.inn got) s) (hlen : m < 256) (b : UInt8) :
    let s' := { s with driver.twdr := b }.interrupt [.inn b s.driver.twcr.ea]
      (if s.driver.twcr.ea then .mrxDataAck else .mrxDataNack)
    (∃ p, At t w m p s') ∨ Ended t w m s' := by
  intro s'
  obtain ⟨-, -, hea, -⟩ := h.ready
  simp only [s', hea]
  by_cases htwo : 2 ≤ m - got.length
  case pos =>
    rw [decide_eq_true htwo, if_pos rfl]
    exact .inl (h.byte_more hlen htwo b)
  case neg =>
    rw [decide_eq_false htwo, if_neg (by decide)]
    exact .inr (h.byte_last hlen htwo b)

end CommandStation.I2C.Twi
