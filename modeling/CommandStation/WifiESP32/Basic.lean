import CommandStation.RingStream.Basic
import CommandStation.Websockets.Basic

/-!
# Wifi on the ESP32

`WifiESP` keeps a list of clients, which grows when a new one connects and none of those that are gone
can be recycled, and is emptied when the wifi is torn down.
-/

namespace CommandStation

/-- `class NetworkClient`. A `WiFiClient` is the number of its connection. -/
structure NetworkClient where
  wifi : Nat
  inUse : Bool
  deriving DecidableEq, Repr

/-- The variables of `WifiESP32.cpp`. -/
structure WifiESP where
  clients : List NetworkClient
  outboundRing : RingStream

namespace WifiESP

/-- The uses of client numbers: one is looked up in the list of clients, which has this size then, or
handed to `CommandDistributor::forget` or to `CommandDistributor::parse`. -/
inductive Access where
  | client (clientId size : Nat)
  | forget (clientId : Nat)
  | parse (clientId : Nat)
  deriving DecidableEq, Repr

/-- `NetworkClient::recycle` -/
def recycle (wifi : Nat) (nc : NetworkClient) : Option NetworkClient :=
  if nc.wifi = wifi ∨ nc.inUse = false then some ⟨wifi, true⟩ else none

/-- A client that connects takes the first place that can be recycled, or a new one. -/
def accept (wifi : Nat) : List NetworkClient → List NetworkClient
  | [] => [⟨wifi, true⟩]
  | nc :: clients =>
    match recycle wifi nc with
    | some nc' => nc' :: clients
    | none => nc :: accept wifi clients

/-- `NetworkClient::active` of the client at this place, and the uses of its number. -/
def active (connected : Nat → Bool) (w : WifiESP) (clientId : Nat) : WifiESP × Bool × List Access :=
  match w.clients[clientId]? with
  | none => (w, false, [.client clientId w.clients.length])
  | some nc =>
    if nc.inUse = false then (w, false, [.client clientId w.clients.length])
    else if connected nc.wifi = false then
      ({ w with clients := w.clients.set clientId { nc with inUse := false } }, false,
        [.client clientId w.clients.length, .forget clientId])
    else (w, true, [.client clientId w.clients.length])

/-- The bytes of a message are copied to a buffer until one of them is zero. The places behind it are
left as they are. -/
def fill (flash : Nat → UInt8) (wide : Bool) (websocket : Bool) (ring : RingStream) :
    Nat → List (Option UInt8) × RingStream
  | 0 => ([], ring)
  | n + 1 =>
    let (c, ring) := ring.read flash wide
    if c = some 0 then (List.replicate (n + 1) none, ring)  -- Ringread fail
    else
      let (bytes, ring) := fill flash wide websocket ring n
      (some (Websockets.outByte websocket (c.getD 255)) :: bytes, ring)

/-- The end of `WifiESP::loop`: what is written to which client, and the uses of client numbers. -/
def transmit (flash : Nat → UInt8) (wide : Bool) (connected : Nat → Bool) (w : WifiESP) :
    WifiESP × Option (Nat × List (Option UInt8)) × List Access :=
  match w.outboundRing.read flash wide with
  | (none, ring) => ({ w with outboundRing := ring }, none, [])
  | (some client, ring) =>
    let useWebsocket := Websockets.marked client.toNat
    let clientId := (Websockets.unmarked client.toNat).toNat
    let count := ring.count.1
    let header := if useWebsocket then Websockets.outboundHeader count else []
    let (bytes, ring) := fill flash wide useWebsocket ring.count.2 count
    let w := { w with outboundRing := ring }
    if clientId ≤ w.clients.length then
      let (w, ok, uses) := active connected w clientId
      (w, if ok then some (clientId, header.map some ++ bytes) else none, uses)
    else (w, none, [])

end WifiESP

end CommandStation
