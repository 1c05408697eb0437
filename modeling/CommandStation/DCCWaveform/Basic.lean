import CommandStation.Lib.Framing
import CommandStation.Lib.Run
import CommandStation.DCCQueue.Basic

/-!
# The waveform of a track

An instance of `DCCWaveform` sends packets on one track. The timer interrupt moves a little state
machine on; when a bit is over, `interrupt2` finds the next one. Packets come from the foreground,
which fills a second buffer while the interrupts go on: `schedulePacket` is therefore taken apart
into its statements, and a history is any sequence of calls, statements and interrupts.

`Waveform.bits` and `Waveform.scheduled` are history variables: the bits that were found, the packets
that `schedulePacket` has made pending. `Waveform.chosen` has an entry for every packet that
`promotePendingPacket` has put into the transmit buffer, idle packets and repetitions included.

Not in the model: the railcom cutout, the acknowledge check of the prog track, the signal pins.
-/

namespace CommandStation

open CommandStation.Lib

/-- `enum WAVE_STATE` -/
inductive WaveState where
  | start    -- wave going high at start of bit
  | mid1     -- middle of 1 bit
  | high0    -- first part of 0 bit high
  | mid0     -- middle of 0 bit
  | low0     -- first part of 0 bit low
  | pending  -- next bit not yet known
  deriving DecidableEq, Repr

/-- `class DCCWaveform` -/
structure DCCWaveform where
  isMainTrack : Bool
  packetPending : Bool
  reminderWindowOpen : Bool
  sentResetsSincePacket : Nat
  transmitPacket : List UInt8
  transmitLength : Nat
  transmitRepeats : Nat
  remainingPreambles : Nat
  requiredPreambles : Nat
  bitsSent : Nat
  bytesSent : Nat
  state : WaveState
  pendingPacket : List UInt8
  pendingLength : Nat
  pendingRepeats : Nat
  deriving DecidableEq, Repr

namespace DCCWaveform

/-- `PREAMBLE_BITS_MAIN` and `PREAMBLE_BITS_PROG` -/
def preambleBits (isMain : Bool) : Nat := if isMain then 16 else 22

/-- `bitMask`: it has 9 entries as each byte is transmitted as a zero and 8 bits. -/
def bitMask : List UInt8 := [0x00, 0x80, 0x40, 0x20, 0x10, 0x08, 0x04, 0x02, 0x01]

def idlePacket : List UInt8 := [0xFF, 0x00, 0xFF]

def resetPacket : List UInt8 := [0x00, 0x00, 0x00]

/-- What is sent when there is nothing to do. -/
def fillPacket (isMain : Bool) : List UInt8 := if isMain then idlePacket else resetPacket

/-- `memcpy` into one of the two buffers. -/
def memcpy (dst src : List UInt8) : List UInt8 := src ++ dst.drop src.length

/-- `stateTransform`: for each state of the wave the next one. -/
def stateTransform : WaveState → WaveState
  | .start => .pending
  | .mid1 => .start
  | .high0 => .mid0
  | .mid0 => .low0
  | .low0 => .start
  | .pending => .pending

/-- The constructor. It leaves out some members, but the two instances are static objects. -/
def new (isMain : Bool) : DCCWaveform where
  isMainTrack := isMain
  packetPending := false
  reminderWindowOpen := false
  sentResetsSincePacket := 0
  transmitPacket := memcpy (List.replicate (DCCQueue.maxPacketSize + 1) 0) idlePacket
  transmitLength := 0
  transmitRepeats := 0
  remainingPreambles := 0
  -- The +1 is to allow the preamble generator to create the stop bit for the previous packet.
  requiredPreambles := preambleBits isMain + 1
  bitsSent := 0
  bytesSent := 0
  state := .start
  pendingPacket := List.replicate (DCCQueue.maxPacketSize + 1) 0
  pendingLength := 0
  pendingRepeats := 0

/-- `promotePendingPacket`: fill the transmission packet from the pending packet. -/
def promotePendingPacket (w : DCCWaveform) : DCCWaveform :=
  -- Just keep going if repeating
  if 0 < w.transmitRepeats then { w with transmitRepeats := w.transmitRepeats - 1 }
  else if w.packetPending then
    { w with
      transmitPacket := memcpy w.transmitPacket w.pendingPacket
      transmitLength := w.pendingLength
      transmitRepeats := w.pendingRepeats
      packetPending := false
      sentResetsSincePacket := 0 }
  else
    -- nothing to do, just send idles or resets
    { w with
      transmitPacket := memcpy w.transmitPacket (fillPacket w.isMainTrack)
      transmitLength := idlePacket.length
      transmitRepeats := 0
      sentResetsSincePacket :=
        if w.sentResetsSincePacket < 250 then w.sentResetsSincePacket + 1
        else w.sentResetsSincePacket }

/-- The promotion sends an idle or reset packet. -/
def fills (w : DCCWaveform) : Bool := w.transmitRepeats == 0 && !w.packetPending

/-- The first half of `interrupt2`: a preamble bit. -/
def preambleBit (w : DCCWaveform) : DCCWaveform :=
  let remaining := w.remainingPreambles - 1
  let w := { w with
    state := .mid1
    remainingPreambles := remaining
    reminderWindowOpen := w.transmitRepeats == 0 && decide (remaining < 12) && decide (1 < remaining) }
  if remaining = 1 then promotePendingPacket w else w

/-- The second half of `interrupt2`: a bit of the packet. -/
def packetBit (w : DCCWaveform) : DCCWaveform :=
  let bit := w.transmitPacket.getD w.bytesSent 0 &&& bitMask.getD w.bitsSent 0
  let w := { w with state := if bit ≠ 0 then .mid1 else .high0, bitsSent := w.bitsSent + 1 }
  -- If this is the last bit of a byte, prepare for the next byte
  if w.bitsSent = 9 then
    if w.transmitLength ≤ w.bytesSent + 1 then
      -- end of transmission buffer, preamble for next packet will start
      { w with bitsSent := 0, bytesSent := 0, remainingPreambles := w.requiredPreambles }
    else { w with bitsSent := 0, bytesSent := w.bytesSent + 1 }
  else w

/-- `interrupt2`: calculate the next bit to be sent. -/
def interrupt2 (w : DCCWaveform) : DCCWaveform :=
  if 0 < w.remainingPreambles then preambleBit w else packetBit w

end DCCWaveform

/-! ## Foreground and interrupts -/

/-- A call of `schedulePacket`. -/
structure PacketCall where
  buffer : List UInt8
  repeats : UInt8
  deriving DecidableEq, Repr

namespace PacketCall

/-- The packet on the track, with its checksum. -/
def packet (c : PacketCall) : List UInt8 := c.buffer ++ [xorSum c.buffer]

/-- What the call asks for: the packet and its repetitions. -/
def copies (c : PacketCall) : List (List UInt8) := List.replicate (c.repeats.toNat + 1) c.packet

end PacketCall

/-- Where the foreground is in `schedulePacket`. -/
inductive Foreground where
  | idle
  | waiting (c : PacketCall)                              -- while (packetPending);
  | copying (c : PacketCall) (b : Nat) (checksum : UInt8)  -- at the top of the loop
  | setLength (c : PacketCall)
  | setRepeats (c : PacketCall)
  | setPending (c : PacketCall)
  | clearing
  deriving DecidableEq, Repr

/-- A packet that was put into the transmit buffer, and how many packets had been scheduled by
then. -/
structure Chosen where
  inserted : Bool
  bytes : List UInt8
  scheduled : Nat
  deriving DecidableEq, Repr

structure Waveform where
  wave : DCCWaveform
  foreground : Foreground
  bits : List Bool
  scheduled : List PacketCall
  chosen : List Chosen
  deriving DecidableEq, Repr

inductive WaveEvent where
  | interrupt
  | schedulePacket (c : PacketCall)
  | statement
  deriving DecidableEq, Repr

namespace Waveform

def init (isMain : Bool) : Waveform where
  wave := DCCWaveform.new isMain
  foreground := .idle
  bits := []
  scheduled := []
  chosen := []

/-- `interruptHandler`, the part of it for one track. -/
def interruptHandler (s : Waveform) : Waveform :=
  let w := { s.wave with state := DCCWaveform.stateTransform s.wave.state }
  if w.state = .pending then
    let w' := DCCWaveform.interrupt2 w
    { s with
      wave := w'
      bits := s.bits ++ [w'.state == .mid1]
      chosen := if w.remainingPreambles = 2 then
          s.chosen ++ [⟨w.fills, w'.transmitPacket.take w'.transmitLength, s.scheduled.length⟩]
        else s.chosen }
  else { s with wave := w }

/-- The next statement of `schedulePacket`. -/
def statement (s : Waveform) : Waveform :=
  match s.foreground with
  | .idle => s
  | .waiting c => if s.wave.packetPending then s else { s with foreground := .copying c 0 0 }
  | .copying c b checksum =>
    if hb : b < c.buffer.length then
      { s with
        wave := { s.wave with pendingPacket := s.wave.pendingPacket.set b c.buffer[b] }
        foreground := .copying c (b + 1) (checksum ^^^ c.buffer[b]) }
    else
      -- buffer is MAX_PACKET_SIZE but pendingPacket is one bigger
      { s with
        wave := { s.wave with
          pendingPacket := s.wave.pendingPacket.set c.buffer.length checksum }
        foreground := .setLength c }
  | .setLength c =>
    { s with
      wave := { s.wave with pendingLength := c.buffer.length + 1 }
      foreground := .setRepeats c }
  | .setRepeats c =>
    { s with
      wave := { s.wave with pendingRepeats := c.repeats.toNat }
      foreground := .setPending c }
  | .setPending c =>
    { s with
      wave := { s.wave with packetPending := true }
      scheduled := s.scheduled ++ [c]
      foreground := .clearing }
  | .clearing =>
    { s with
      wave := { s.wave with sentResetsSincePacket := 0 }
      foreground := .idle }

/-- One event: the foreground makes its calls one after the other. -/
def step (s : Waveform) : WaveEvent → Waveform
  | .interrupt => s.interruptHandler
  | .schedulePacket c =>
    if s.foreground = .idle ∧ c.buffer.length ≤ DCCQueue.maxPacketSize then
      { s with foreground := .waiting c }
    else s
  | .statement => s.statement

/-- The state after a history. -/
abbrev after (isMain : Bool) (events : List WaveEvent) : Waveform :=
  run step (init isMain) events

end Waveform

end CommandStation
