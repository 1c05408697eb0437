import CommandStation.I2CManager.Transfer

/-!
# The buffers of a request

The handler trusts its counts and not the hardware: what it reads of the one buffer and writes into the other
is in their bounds whatever it is told.
-/

namespace CommandStation.I2C.Twi

open CommandStation.Lib

/-- What can happen while the driver is at a transaction: an interrupt with any status and with any byte in the
data register, or the timeout. -/
inductive Happening where
  | interrupt (twsr : Twsr) (data : UInt8)
  | timeout
  deriving DecidableEq, Repr

namespace Driver

/-- `checkForTimeout` gives a transaction up. -/
def happen (d : Driver) : Happening → Driver
  | .interrupt twsr data => { d with twdr := data }.handleInterrupt twsr
  | .timeout => { d with bytesToReceive := 0, bytesToSend := 0 }

/-- The place of the send buffer that is read. -/
def readsAt (d : Driver) : Happening → Option Nat
  | .interrupt .mtxDataAck _ | .interrupt .mtxAdrAck _ =>
    if d.bytesToSend ≠ 0 then some d.txCount.toNat else none
  | _ => none

/-- The place of the receive buffer that is written. -/
def writesAt (d : Driver) : Happening → Option Nat
  | .interrupt .mrxDataAck _ | .interrupt .mrxDataNack _ =>
    if 0 < d.bytesToReceive then some d.rxCount.toNat else none
  | _ => none

/-- The counts go no further than the buffers. -/
structure Counted (t : Transfer) (d : Driver) : Prop where
  sends : d.txCount.toNat + d.bytesToSend.toNat ≤ t.writes.length
  receives : d.rxCount.toNat + d.bytesToReceive.toNat ≤ t.readLen.toNat

variable {t : Transfer} {d : Driver}

theorem Counted.sendByte (h : Counted t d) (hmore : d.bytesToSend ≠ 0) : Counted t d.sendByte := by
  have hsends := h.sends
  have hshort := t.short
  rw [Ne, eq_zero_iff] at hmore
  refine ⟨?_, h.receives⟩
  show (d.txCount + 1).toNat + (d.bytesToSend - 1).toNat ≤ _
  rw [toNat_succ (by omega), toNat_pred (by omega)]
  omega

theorem Counted.receiveByte (h : Counted t d) : Counted t d.receiveByte := by
  have hreceives := h.receives
  have hshort := t.readLen.toNat_lt
  unfold Driver.receiveByte
  split
  · next hmore =>
    rw [UInt8.lt_iff_toNat_lt, show (0 : UInt8).toNat = 0 from rfl] at hmore
    refine ⟨h.sends, ?_⟩
    show (d.rxCount + 1).toNat + (d.bytesToReceive - 1).toNat ≤ _
    rw [toNat_succ (by omega), toNat_pred (by omega)]
    omega
  · exact h

theorem Counted.receiveNext (h : Counted t d) : Counted t d.receiveNext := by
  rw [receiveNext_eq]
  exact ⟨h.sends, h.receives⟩

theorem Counted.sendStart (h : Counted t d) : Counted t d.sendStart := by
  have hsends := h.sends
  have hreceives := h.receives
  refine ⟨?_, ?_⟩
  · show 0 + d.bytesToSend.toNat ≤ _
    omega
  · show 0 + d.bytesToReceive.toNat ≤ _
    omega

/-- The counts of the driver stay within its buffers over any status, byte or time-out. -/
theorem Counted.happen (h : Counted t d) (e : Happening) : Counted t (d.happen e) := by
  cases e with
  | timeout =>
    refine ⟨?_, ?_⟩
    · exact Nat.le_trans (Nat.le_add_right _ _) h.sends
    · exact Nat.le_trans (Nat.le_add_right _ _) h.receives
  | interrupt twsr data =>
    have hdata : Counted t { d with twdr := data } := ⟨h.sends, h.receives⟩
    have hsent : Counted t (Driver.handleInterrupt { d with twdr := data } .mtxDataAck) := by
      unfold Driver.handleInterrupt
      dsimp only
      split
      · next hmore => exact hdata.sendByte hmore
      · split
        · exact ⟨h.sends, h.receives⟩
        · exact ⟨h.sends, h.receives⟩
    cases twsr with
    | mtxDataAck => exact hsent
    | mtxAdrAck => exact hsent
    | mrxDataAck => exact hdata.receiveByte.receiveNext
    | mrxAdrAck => exact hdata.receiveNext
    | mrxDataNack => exact ⟨hdata.receiveByte.sends, hdata.receiveByte.receives⟩
    | arbLost => exact hdata.sendStart
    | start => exact ⟨h.sends, h.receives⟩
    | repStart => exact ⟨h.sends, h.receives⟩
    | mtxAdrNack => exact ⟨h.sends, h.receives⟩
    | mrxAdrNack => exact ⟨h.sends, h.receives⟩
    | mtxDataNack => exact ⟨h.sends, h.receives⟩
    | busError => exact ⟨h.sends, h.receives⟩
    | other => exact ⟨h.sends, h.receives⟩

theorem Counted.readsAt_lt (h : Counted t d) {e : Happening} {i : Nat} (hi : d.readsAt e = some i) :
    i < t.writes.length := by
  have hsends := h.sends
  have hsome : d.bytesToSend ≠ 0 ∧ d.txCount.toNat = i := by
    unfold readsAt at hi
    split at hi
    · exact Option.ite_none_right_eq_some.mp hi |>.imp_right Option.some.inj
    · exact Option.ite_none_right_eq_some.mp hi |>.imp_right Option.some.inj
    · cases hi
  have hpos := hsome.1
  rw [Ne, eq_zero_iff] at hpos
  omega

theorem Counted.writesAt_lt (h : Counted t d) {e : Happening} {i : Nat} (hi : d.writesAt e = some i) :
    i < t.readLen.toNat := by
  have hreceives := h.receives
  have hsome : 0 < d.bytesToReceive ∧ d.rxCount.toNat = i := by
    unfold writesAt at hi
    split at hi
    · exact Option.ite_none_right_eq_some.mp hi |>.imp_right Option.some.inj
    · exact Option.ite_none_right_eq_some.mp hi |>.imp_right Option.some.inj
    · cases hi
  have hpos := hsome.1
  rw [UInt8.lt_iff_toNat_lt, show (0 : UInt8).toNat = 0 from rfl] at hpos
  omega

end Driver

/-- **The buffers of a request are never overrun**, whatever statuses the hardware reports, in whatever order,
and when the transaction is given up as well. -/
theorem buffers_kept (t : Transfer) (d : Driver) (twsr : Twsr) (es : List Happening) :
    Along Driver.happen (fun d e => (∀ i, d.readsAt e = some i → i < t.writes.length) ∧
      ∀ i, d.writesAt e = some i → i < t.readLen.toNat) (t.start d twsr).driver es := by
  have hstart : Driver.Counted t (t.start d twsr).driver := by
    refine ⟨?_, ?_⟩
    · show 0 + (UInt8.ofNat t.writes.length).toNat ≤ _
      rw [UInt8.toNat_ofNat_of_lt' t.short, Nat.zero_add]
    · show 0 + t.readLen.toNat ≤ _
      rw [Nat.zero_add]
  generalize (t.start d twsr).driver = d at hstart ⊢
  induction es generalizing d with
  | nil => trivial
  | cons e es ih =>
    exact ⟨⟨fun _ hi => hstart.readsAt_lt hi, fun _ hi => hstart.writesAt_lt hi⟩, ih _ (hstart.happen e)⟩

end CommandStation.I2C.Twi
