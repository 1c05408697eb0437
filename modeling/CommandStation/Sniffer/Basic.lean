import Mathlib.Data.List.Basic
import CommandStation.Lib.Framing
import CommandStation.Lib.Run

/-!
# The sniffer

The sniffer takes the DCC signal of another station from an input pin. The capture unit of the ESP32
calls `processInterrupt` at every edge with the clock ticks and the direction of the edge. The ticks
between two edges are a half-bit; what the half-bits are decoded into is the `Receiver`, and the rest of
the `Sniffer` tells half-bits from glitches.

A `DCCPacket` is the list of its bytes here. The lights that tell of packet errors are left out.
-/

namespace CommandStation

open CommandStation.Lib

/-- `MAXDCCPACKETLEN` -/
def maxDccPacketLen : Nat := 8

def bitSet (x : UInt8) (n : Nat) : UInt8 := x ||| (1 <<< UInt8.ofNat n)

def bitClear (x : UInt8) (n : Nat) : UInt8 := x &&& ~~~(1 <<< UInt8.ofNat n)

/-- The loop of `halfbits2byte`, with `k` bits to go. The byte is written in place, so it changes even
where a broken bit ends the loop. -/
def halfbitsLoop : (k : Nat) → UInt16 → UInt8 → Bool × UInt8
  | 0, _, dccbyte => (true, dccbyte)
  | k + 1, b, dccbyte =>
    let n := 8 - (k + 1)
    if b &&& 0x03 = 0x00 then halfbitsLoop k (b >>> 2) (bitClear dccbyte n)
    else if b &&& 0x03 = 0x03 then halfbitsLoop k (b >>> 2) (bitSet dccbyte n)
    else (false, dccbyte)  -- broken bits

def halfbits2byte (b : UInt16) (dccbyte : UInt8) : Bool × UInt8 := halfbitsLoop 8 b dccbyte

/-- The members of `class Sniffer` that half-bits go to. -/
structure Receiver where
  bitfield : UInt64
  debugfield : UInt64
  currentbyte : UInt8
  dccbytes : Vector UInt8 maxDccPacketLen
  dcclen : UInt8
  inpacket : Bool
  halfbitcounter : UInt8
  outpacket : List (List UInt8)
  prevpacket : List UInt8
  lastendofpacket : UInt32
  deriving DecidableEq, Repr

namespace Receiver

/-- The bytes received so far are a packet. -/
def endOfPacket (r : Receiver) (millis : UInt32) : Receiver :=
  let r := { r with inpacket := false, dcclen := r.currentbyte + 1, debugfield := r.bitfield }
  -- emergency action: these should have been fetched
  let r := if 3 < r.outpacket.length then { r with outpacket := [] } else r
  let r := { r with lastendofpacket := millis }
  let temppacket : List UInt8 := r.dccbytes.toList.take r.dcclen.toNat
  if temppacket = r.prevpacket then r
  else { r with outpacket := r.outpacket ++ [temppacket], prevpacket := temppacket }

/-- The half-bit counter has reached zero: the last 18 half-bits are a byte and the bit behind it. -/
def endOfByte (r : Receiver) (millis : UInt32) : Receiver :=
  let twohalfbits := r.bitfield &&& 0x03
  if twohalfbits = 0x01 ∨ twohalfbits = 0x02 then { r with inpacket := false }  -- broken bits
  else
    let b := ((r.bitfield &&& 0x3FFFF) >>> 2).toUInt16  -- take 18 halfbits and use 16 of them
    let (ok, dccbyte) := halfbits2byte b (r.dccbytes.toList.getD r.currentbyte.toNat 0)
    let r := { r with dccbytes := r.dccbytes.setIfInBounds r.currentbyte.toNat dccbyte }
    if !ok then { r with inpacket := false }  -- broken halfbits
    else if twohalfbits = 0x03 then r.endOfPacket millis
    else
      let r := { r with halfbitcounter := 18, currentbyte := r.currentbyte + 1 }
      if maxDccPacketLen ≤ r.currentbyte.toNat then { r with inpacket := false } else r

/-- The new half-bit in the bit field. -/
def shiftIn (r : Receiver) (bit : Bool) : Receiver :=
  { r with bitfield := (r.bitfield <<< 1) + (if bit then 1 else 0) }

/-- 22 of the 24 last half-bits are one and 2 are zero. -/
def preambleSeen (r : Receiver) : Bool := r.bitfield &&& 0xFFFFFF == 0xFFFFFC

/-- `processInterrupt` from where the half-bit is known. -/
def halfbit (r : Receiver) (bit : Bool) (millis : UInt32) : Receiver :=
  let r := r.shiftIn bit
  if r.preambleSeen then
    { r with currentbyte := 0, dcclen := 0, inpacket := true, halfbitcounter := 18 }
  else if r.inpacket then
    let r := { r with halfbitcounter := r.halfbitcounter - 1 }
    if r.halfbitcounter ≠ 0 then r  -- wait until we have full byte
    else r.endOfByte millis
  else r

end Receiver

/-- `class Sniffer` -/
structure Sniffer where
  dccTooShortLimit : UInt32
  dccOneLimit : UInt32
  diffticks : UInt32
  lastticks : UInt32
  lastedge : Bool
  receiver : Receiver
  deriving DecidableEq, Repr

/-- What the capture unit tells of an edge, and the clock of the interrupt routine. -/
structure Edge where
  capticks : UInt32
  posedge : Bool
  millis : UInt32
  deriving DecidableEq, Repr

namespace Sniffer

def tooShortLimit (apbFrequency : UInt32) : UInt32 := apbFrequency / 1000 * 50 / 1000

def oneLimit (apbFrequency : UInt32) : UInt32 := apbFrequency / 1000 * 80 / 1000

/-- The constructor. It does not initialise the ticks, the last edge and the bytes: these are what was in
the memory. -/
def new (apbFrequency diffticks lastticks : UInt32) (lastedge : Bool)
    (dccbytes : Vector UInt8 maxDccPacketLen) : Sniffer where
  dccTooShortLimit := tooShortLimit apbFrequency
  dccOneLimit := oneLimit apbFrequency
  diffticks := diffticks
  lastticks := lastticks
  lastedge := lastedge
  receiver := {
    bitfield := 0
    debugfield := 0
    currentbyte := 0
    dccbytes := dccbytes
    dcclen := 0
    inpacket := false
    halfbitcounter := 0
    outpacket := []
    prevpacket := []
    lastendofpacket := 0 }

def processInterrupt (s : Sniffer) (e : Edge) : Sniffer :=
  let s := { s with diffticks := e.capticks - s.lastticks }
  if s.lastedge ≠ e.posedge then
    if s.diffticks < s.dccTooShortLimit then s
    else
      { s with
        lastticks := e.capticks
        lastedge := e.posedge
        receiver := s.receiver.halfbit (s.diffticks < s.dccOneLimit) e.millis }
  else s  -- this should not happen, check later

/-- `fetchPacket`: without data the packet has no bytes. -/
def fetchPacket (s : Sniffer) : List UInt8 × Sniffer :=
  match s.receiver.outpacket with
  | [] => ([], s)
  | p :: outpacket => (p, { s with receiver := { s.receiver with outpacket := outpacket } })

/-- What happens to a sniffer: an interrupt, or the loop fetches a packet. -/
inductive Event where
  | edge (e : Edge)
  | fetch
  deriving DecidableEq, Repr

def step (s : Sniffer) : Event → Sniffer
  | .edge e => s.processInterrupt e
  | .fetch => s.fetchPacket.2

/-- The sniffer's states. -/
def Reachable (s : Sniffer) : Prop :=
  ∃ apbFrequency diffticks lastticks lastedge dccbytes events,
    s = run step (new apbFrequency diffticks lastticks lastedge dccbytes) events

/-- The state after the edges. -/
def feed (s : Sniffer) (edges : List Edge) : Sniffer := run processInterrupt s edges

end Sniffer

end CommandStation
