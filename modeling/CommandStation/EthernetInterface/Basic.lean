import CommandStation.RingStream.Basic

/-!
# The ethernet interface

The end of `EthernetInterface::loop`, which transmits at most one message of the outbound ring.
-/

namespace CommandStation

/-- The members of `class EthernetInterface` that are used there. There are `MAX_SOCK_NUM` sockets. -/
structure EthernetInterface where
  connected : Bool
  inUse : List Bool
  outboundRing : RingStream

namespace EthernetInterface

/-- The interface after it, and what is written to which socket. The bytes are `char`s, so that a -1 of
`read` is the byte 255. -/
def transmit (flash : Nat → UInt8) (wide : Bool) (e : EthernetInterface) :
    EthernetInterface × Option (Nat × List UInt8) :=
  match e.outboundRing.read flash wide with
  | (none, ring) => ({ e with outboundRing := ring }, none)  -- no outbound pending
  | (some socketOut, ring) =>
    if e.inUse.length ≤ socketOut.toNat then
      -- This is a catastrophic code failure and unrecoverable.
      ({ e with connected := false, outboundRing := ring }, none)
    else
      let (bytes, ring') := ring.count.2.readMany flash wide ring.count.1
      let tmpbuf := bytes.map (fun b => b.getD 255)
      ({ e with outboundRing := ring' },
        if e.inUse[socketOut.toNat]? = some true then some (socketOut.toNat, tmpbuf) else none)

end EthernetInterface

end CommandStation
