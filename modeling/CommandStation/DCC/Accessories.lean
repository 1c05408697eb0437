import CommandStation.DCC.Basic

/-!
# Accessories

An accessory decoder has an address of nine bits and four ports. `DCC::setAccessory` queues a packet that
says which, and does nothing where they are out of range.
-/

namespace CommandStation

/-- One port of a decoder. -/
structure Accessory where
  address : Int
  port : Int
  deriving DecidableEq, Repr

/-- Linear address 1 is port 0 of decoder 1. -/
def Accessory.linear (n : Int) : Accessory := ⟨(n - 1) / 4 + 1, (n - 1) % 4⟩

/-- The accessory that a packet is for. -/
def packetAccessory : List UInt8 → Option Accessory
  | [b0, b1] =>
    -- 10AAAAAA 1AAACPPG, the upper three bits of the address are inverted
    if b0.toNat / 64 = 2 ∧ 128 ≤ b1.toNat then
      some ⟨(b0.toNat % 64 + 64 * (7 - b1.toNat / 16 % 8) : Nat), (b1.toNat / 2 % 4 : Nat)⟩
    else none
  | _ => none

/-- The accessory that a queued packet is for. -/
def queuedAccessory : DCCQueue.Call → Option Accessory
  | .scheduleDCCPacket packet _ _ => packetAccessory packet
  | .scheduleAccOnOffPacket packet _ _ => packetAccessory packet
  | _ => none

/-- The arguments of `DCC::setAccessory`. -/
structure AccessoryCall where
  address : Int
  port : UInt8
  gate : Bool
  onoff : UInt8
  deriving DecidableEq, Repr

namespace AccessoryCall

variable (call : AccessoryCall)

/-- What the call puts into the queue. -/
def queues : Option DCCQueue.Call :=
  if call.address < 0 ∨ 511 < call.address ∨ 3 < call.port then none
  else
    let b0 := UInt8.ofNat (call.address.toNat % 64 + 128)
    let b1 := ((UInt8.ofNat (call.address.toNat / 64 % 8) <<< 4) + ((call.port % 4) <<< 1) +
      (if call.gate then 1 else 0)) ^^^ 0xF8
    some (if call.onoff = 0 then .scheduleDCCPacket [b0, b1 &&& 0xF7] 3 0
      else if call.onoff = 1 then .scheduleDCCPacket [b0, b1] 3 0
      else .scheduleAccOnOffPacket [b0, b1] 3 100)

theorem setAccessory_eq :
    DCC.setAccessory call.address call.port call.gate call.onoff = call.queues.elim (pure ()) schedule := by
  unfold DCC.setAccessory queues
  split
  · rfl
  · dsimp only
    split
    · rfl
    · split <;> rfl

/-- The packet of the call is for the accessory. -/
def Reaches (a : Accessory) : Prop := call.queues.bind queuedAccessory = some a

/-- The second byte of a packet says what the upper bits and the port are, switched on or off. -/
theorem second_byte : ∀ upper : Fin 8, ∀ port : Fin 4, ∀ gate : Bool,
    let b1 := ((UInt8.ofNat upper <<< 4) + ((UInt8.ofNat port % 4) <<< 1) + (if gate then 1 else 0)) ^^^ 0xF8
    (128 ≤ b1.toNat ∧ 7 - b1.toNat / 16 % 8 = upper.val ∧ b1.toNat / 2 % 4 = port.val) ∧
      128 ≤ (b1 &&& 0xF7).toNat ∧ 7 - (b1 &&& 0xF7).toNat / 16 % 8 = upper.val ∧
        (b1 &&& 0xF7).toNat / 2 % 4 = port.val := by
  decide

end AccessoryCall

/-- What is done with arguments: they are rejected, or accepted with a call or without one. -/
inductive AccessoryOutcome where
  | rejected
  | accepted (call : Option AccessoryCall)
  deriving DecidableEq, Repr

/-- What is accepted reaches the accessory. -/
def AccessoryOutcome.Agrees (o : AccessoryOutcome) (a : Accessory) : Prop :=
  ∀ call, o = .accepted call → ∃ c, call = some c ∧ c.Reaches a

/-! ## Which accessory is reached -/

variable {call : AccessoryCall} {a : Accessory}

/-- The three bytes of the packet name the address and the port, and nothing is lost. -/
theorem packetAccessory_accessory {address : Nat} {port : UInt8} {gate : Bool} (haddress : address ≤ 511)
    (hport : port ≤ 3) :
    let b0 := UInt8.ofNat (address % 64 + 128)
    let b1 := ((UInt8.ofNat (address / 64 % 8) <<< 4) + ((port % 4) <<< 1) + (if gate then 1 else 0)) ^^^ 0xF8
    packetAccessory [b0, b1] = some ⟨address, port.toNat⟩ ∧
      packetAccessory [b0, b1 &&& 0xF7] = some ⟨address, port.toNat⟩ := by
  intro b0 b1
  have hport' : port.toNat < 4 := Nat.lt_succ_of_le (UInt8.le_iff_toNat_le.mp hport)
  have hbyte := AccessoryCall.second_byte ⟨address / 64 % 8, Nat.mod_lt _ (by decide)⟩ ⟨port.toNat, hport'⟩ gate
  dsimp only at hbyte
  rw [UInt8.ofNat_toNat] at hbyte
  obtain ⟨⟨hon, honUpper, honPort⟩, hoff, hoffUpper, hoffPort⟩ := hbyte
  have hb0 : b0.toNat = address % 64 + 128 := by
    rw [UInt8.toNat_ofNat']
    omega
  have hupper : address % 64 + 64 * (address / 64 % 8) = address := by omega
  constructor
  · rw [packetAccessory, if_pos ⟨by omega, hon⟩, honUpper, honPort, hb0]
    congr 3
    omega
  · rw [packetAccessory, if_pos ⟨by omega, hoff⟩, hoffUpper, hoffPort, hb0]
    congr 3
    omega

/-- A call reaches an accessory if and only if its address and its port are in range. -/
theorem reaches_iff : call.Reaches a ↔
    (0 ≤ call.address ∧ call.address ≤ 511 ∧ call.port ≤ 3) ∧ a = ⟨call.address, call.port.toNat⟩ := by
  unfold AccessoryCall.Reaches AccessoryCall.queues
  by_cases hout : call.address < 0 ∨ 511 < call.address ∨ 3 < call.port
  · rw [if_pos hout]
    constructor
    · intro hnone
      cases hnone
    · rintro ⟨⟨hlow, hhigh, hport⟩, -⟩
      rcases hout with h | h | h
      · omega
      · omega
      · exact absurd hport (UInt8.not_le.mpr h)
  · rw [if_neg hout]
    simp only [not_or, Int.not_lt, UInt8.not_lt] at hout
    obtain ⟨hlow, hhigh, hport⟩ := hout
    have hpacket := @packetAccessory_accessory call.address.toNat call.port call.gate (by omega) hport
    obtain ⟨hon, hoff⟩ := hpacket
    have hnat : (call.address.toNat : Int) = call.address := Int.toNat_of_nonneg hlow
    rw [hnat] at hon hoff
    dsimp only
    have hqueued : ∀ b0 b1 : UInt8, packetAccessory [b0, b1] = some ⟨call.address, call.port.toNat⟩ →
        packetAccessory [b0, b1 &&& 0xF7] = some ⟨call.address, call.port.toNat⟩ →
        (some (if call.onoff = 0 then DCCQueue.Call.scheduleDCCPacket [b0, b1 &&& 0xF7] 3 0
          else if call.onoff = 1 then .scheduleDCCPacket [b0, b1] 3 0
          else .scheduleAccOnOffPacket [b0, b1] 3 100)).bind queuedAccessory =
          some ⟨call.address, call.port.toNat⟩ := by
      intro b0 b1 hon hoff
      split
      · exact hoff
      · split <;> exact hon
    rw [hqueued _ _ hon hoff, Option.some.injEq]
    constructor
    · intro heq
      exact ⟨⟨hlow, hhigh, hport⟩, heq.symm⟩
    · exact fun h => h.2.symm

@[simp] theorem agrees_rejected : AccessoryOutcome.rejected.Agrees a := by
  intro call hcall
  cases hcall

theorem agrees_accepted : (AccessoryOutcome.accepted (some call)).Agrees a ↔ call.Reaches a := by
  constructor
  · intro h
    obtain ⟨c, hc, hreaches⟩ := h _ rfl
    cases hc
    exact hreaches
  · intro h call' hcall
    cases hcall
    exact ⟨_, rfl, h⟩

end CommandStation
