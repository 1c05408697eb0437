import CommandStation.RingStream.Spec
import CommandStation.EthernetInterface.Basic
import CommandStation.WifiESP32.Basic
import CommandStation.WifiInboundHandler.Basic

/-!
# From the outbound ring to the clients

Three interfaces take messages out of the outbound ring: the ethernet interface, the wifi of the ESP32
and the handler of an ESP modem. Each is to send the payload to the client of the message, with a
websocket header in front of it and the newlines replaced if the client byte is marked, and to go on
with the next message.

The handler of the modem does. The ethernet interface does not know the marker, and takes it for a
socket number that cannot be. The ESP32 stops at a zero in the payload.
-/

namespace CommandStation

open RingStream

variable {flash : Nat → UInt8} {wide : Bool} {r : RingStream} {m : Outgoing} {pending : List Outgoing}
variable {rest : List UInt8}

namespace RingStream

/-- The number of the client, without the marker. -/
def Outgoing.number (m : Outgoing) : UInt8 := Websockets.unmarked m.client.toNat

/-- The output for a websocket client is marked. -/
def Outgoing.websocket (m : Outgoing) : Bool := Websockets.marked m.client.toNat

/-- What the client should get. -/
def Outgoing.onWire (flash : Nat → UInt8) (m : Outgoing) : List UInt8 :=
  (if m.websocket then Websockets.outboundHeader (m.payload flash).length else []) ++
    (m.payload flash).map (Websockets.outByte m.websocket)

/-- The client and the count of the first message are read. -/
theorem Closed.head (h : Closed flash wide r (m :: pending)) :
    ∃ r' : RingStream, r.read flash wide = (some m.client, r') ∧
      r'.count.1 = (m.payload flash).length ∧
      Rests flash r'.count.2 (m.raw flash wide ++ pending.flatMap (Outgoing.cells flash wide)) := by
  have hv := h.valid m (by simp)
  have hcells := h.rests
  rw [List.flatMap_cons, Outgoing.cells, List.append_assoc] at hcells
  obtain ⟨hclient, hr₁⟩ := read_byte wide hcells hv.client
  obtain ⟨hcount, hr₂⟩ := count_spec hr₁ (by have := hv.short; omega)
  exact ⟨(r.read flash wide).2, Prod.ext hclient rfl, hcount, hr₂⟩

/-- Its payload is read. -/
theorem Rests.payload (h : Rests flash r (m.raw flash wide ++ rest)) (hv : m.Valid flash wide) :
    (r.readMany flash wide (m.payload flash).length).1 = (m.payload flash).map some ∧
    Rests flash (r.readMany flash wide (m.payload flash).length).2 rest :=
  readMany_items h hv.items

end RingStream

/-! ## Ethernet -/

namespace EthernetInterface

variable (flash wide) in
/-- The first message is written to its client, and the interface goes on with the next. -/
def Carries (e : EthernetInterface) (m : Outgoing) (pending : List Outgoing) : Prop :=
  (e.transmit flash wide).2 = some (m.number.toNat, m.onWire flash) ∧
  (e.transmit flash wide).1.connected = true ∧
  Closed flash wide (e.transmit flash wide).1.outboundRing pending

end EthernetInterface

/-! ## ESP32 -/

namespace WifiESP

variable (flash wide) in
/-- The first message is written to its client, and the next one is in front. -/
def Carries (connected : Nat → Bool) (w : WifiESP) (m : Outgoing) (pending : List Outgoing) : Prop :=
  (w.transmit flash wide connected).2.1 = some (m.number.toNat, (m.onWire flash).map some) ∧
  Closed flash wide (w.transmit flash wide connected).1.outboundRing pending

end WifiESP

/-! ## ESP modem -/

namespace WifiInboundHandler

variable {bits : Nat} {now now' : UInt32} {h : WifiInboundHandler}

variable (flash wide) in
/-- The reply `m` is pending: its client and its length have been read. -/
structure Waiting (h : WifiInboundHandler) (m : Outgoing) (pending : List Outgoing) : Prop where
  client : h.clientPendingCIPSEND = m.client.toNat
  size : h.currentReplySize = (m.payload flash).length
  rests : Rests flash h.outboundRing (m.raw flash wide ++ pending.flatMap (Outgoing.cells flash wide))

variable (flash wide bits) in
/-- The first message is announced with its client and its length, and written when the modem asks for
it, whatever the modem has sent in between. Then no reply is pending, and the next message is in front. -/
def Carries (now : UInt32) (h : WifiInboundHandler) (m : Outgoing) (pending : List Outgoing) : Prop :=
  (h.loop1 flash wide now).2 = [.cipsend m.number (m.onWire flash).length] ∧
  ∀ (h' : WifiInboundHandler) (now' : UInt32), h'.loopState = .anything →
    h'.clientPendingCIPSEND = (h.loop1 flash wide now).1.clientPendingCIPSEND →
    h'.currentReplySize = (h.loop1 flash wide now).1.currentReplySize →
    h'.outboundRing = (h.loop1 flash wide now).1.outboundRing →
    (h'.loop2 flash wide bits now' 62).2 = [.write (m.onWire flash)] ∧
    Closed flash wide (h'.loop2 flash wide bits now' 62).1.outboundRing pending ∧
    (h'.loop2 flash wide bits now' 62).1.clientPendingCIPSEND = -1

end WifiInboundHandler

end CommandStation
