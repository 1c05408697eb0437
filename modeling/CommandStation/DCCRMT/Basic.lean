import CommandStation.DCCWaveform.Basic

/-!
# The RMT channel of the ESP32

On the ESP32 a track is driven by the RMT hardware, which sends the items in its memory up to an end
marker and, in loop mode, starts again at once. An interrupt tells that it has started again. The
preamble stands at the beginning of the memory and stays there; while it is running, the interrupt
routine puts the data of the next packet behind it.

`RMTfillData` converts a packet into items in a buffer of the foreground. It is taken apart into
statements between which interrupts may come; only the last two statements, which hand the buffer over,
run with interrupts disabled. `RmtTrack.replays` and `RmtTrack.accepted` are history variables: what the
hardware has sent, beginning with the memory as the constructor leaves it, and the packets for which
`RMTfillData` has returned 0.
-/

namespace CommandStation

open CommandStation.Lib

/-- `rmt_item32_t`: a DCC bit or the end marker. -/
inductive RmtItem where
  | bit (b : Bool)
  | eot
  deriving DecidableEq, Repr

/-- `class RMTChannel`, with the memory of the hardware. -/
structure RMTChannel where
  idle : List RmtItem
  idleLen : Nat
  preamble : List RmtItem
  preambleLen : Nat
  data : List RmtItem
  dataLen : Nat
  maxDataLen : Nat
  packetCounter : UInt32
  dataReady : Bool
  dataRepeat : UInt8
  memory : List RmtItem
  deriving DecidableEq, Repr

namespace RMTChannel

def setDCCBit1 : RmtItem := .bit true

def setDCCBit0 : RmtItem := .bit false

/-- `DATA_LEN(X)`: each byte has one bit extra and at the end we have one EOF marker. -/
def dataLength (x : Nat) : Nat := x * 9 + 1

/-- `RMT_CHAN_PER_DCC_CHAN * SOC_RMT_MEM_WORDS_PER_CHANNEL` -/
def memoryWords : Nat := 2 * 64

def transmitMask : List UInt8 := [0x80, 0x40, 0x20, 0x10, 0x08, 0x04, 0x02, 0x01]

/-- `rmt_fill_tx_items` -/
def rmtFillTxItems (memory items : List RmtItem) (offset : Nat) : List RmtItem :=
  memory.take offset ++ items ++ memory.drop (offset + items.length)

/-- plen 1 bits, one 0 bit and one EOF marker -/
def preambleItems (isMain : Bool) : List RmtItem :=
  List.replicate (DCCWaveform.preambleBits isMain) setDCCBit1 ++ [setDCCBit0, .eot]

def idleItems (isMain : Bool) : List RmtItem :=
  (if isMain then
    List.replicate 8 setDCCBit1 ++ List.replicate 10 setDCCBit0 ++ List.replicate 8 setDCCBit1
  else List.replicate 26 setDCCBit0) ++ [setDCCBit1, .eot]

/-- `RMTprefill` -/
def rmtPrefill (c : RMTChannel) : RMTChannel :=
  let memory := rmtFillTxItems c.memory (c.preamble.take c.preambleLen) 0
  { c with memory := rmtFillTxItems memory (c.idle.take c.idleLen) (c.preambleLen - 1) }

/-- The constructor. -/
def new (isMain : Bool) : RMTChannel := rmtPrefill {
  idle := idleItems isMain
  idleLen := 28
  preamble := preambleItems isMain
  preambleLen := DCCWaveform.preambleBits isMain + 2
  data := List.replicate (dataLength (DCCQueue.maxPacketSize + 1)) .eot
  dataLen := 0
  maxDataLen := dataLength (DCCQueue.maxPacketSize + 1)  -- plus checksum
  packetCounter := 0
  dataReady := false
  dataRepeat := 0
  memory := List.replicate memoryWords .eot }

/-- The interrupt finds nothing to send. -/
def runsEmpty (c : RMTChannel) : Bool := !c.dataReady && c.dataRepeat == 0

/-- `RMTinterrupt` -/
def rmtInterrupt (c : RMTChannel) : RMTChannel :=
  let c := { c with packetCounter := c.packetCounter + 1 }
  if c.runsEmpty then  -- we did run empty
    { c with memory := rmtFillTxItems c.memory (c.idle.take c.idleLen) (c.preambleLen - 1) }
  else
    -- take care of incoming data
    let c := if c.dataReady then
        { c with
          memory := rmtFillTxItems c.memory (c.data.take c.dataLen) (c.preambleLen - 1)
          dataReady := false }
      else c
    -- if a repeat count was specified, work on that
    if 0 < c.dataRepeat then { c with dataRepeat := c.dataRepeat - 1 } else c

/-- What the hardware sends: the memory up to the end marker. -/
def replay : List RmtItem → List Bool
  | .bit b :: items => b :: replay items
  | .eot :: _ => []
  | [] => []

end RMTChannel

/-! ## Foreground and interrupts -/

/-- A call of `RMTfillData`. The packet has its checksum already, so there is a byte at least. -/
structure RmtCall where
  buffer : List UInt8
  repeatCount : UInt8
  nonempty : buffer ≠ []
  below : repeatCount < 255

namespace RmtCall

/-- What the call asks for: the packet and its repetitions. -/
def copies (c : RmtCall) : List (List UInt8) :=
  List.replicate (c.repeatCount.toNat + 1) c.buffer

end RmtCall

/-- Where the foreground is in `RMTfillData`. -/
inductive RmtForeground where
  | idle
  | testRepeat (c : RmtCall)
  | testReady (c : RmtCall)
  | converting (c : RmtCall) (n bit : Nat)  -- in the inner loop
  | setEnd (c : RmtCall)                    -- the stop bit, the marker and dataLen
  | handOver (c : RmtCall)                  -- between noInterrupts() and interrupts()

/-- One transmission of the memory, and how many packets had been accepted when the interrupt chose
it. -/
structure Replay where
  inserted : Bool
  bits : List Bool
  accepted : Nat
  deriving DecidableEq, Repr

structure RmtTrack where
  channel : RMTChannel
  foreground : RmtForeground
  result : Int
  replays : List Replay
  accepted : List RmtCall

inductive RmtEvent where
  | interrupt
  | fillData (c : RmtCall)
  | statement

namespace RmtTrack

open RMTChannel

def init (isMain : Bool) : RmtTrack where
  channel := RMTChannel.new isMain
  foreground := .idle
  result := 0
  replays := [⟨true, replay (RMTChannel.new isMain).memory, 0⟩]
  accepted := []

/-- The interrupt, and the transmission that has begun. -/
def interrupt (s : RmtTrack) : RmtTrack :=
  let c := rmtInterrupt s.channel
  { s with
    channel := c
    replays := s.replays ++ [⟨s.channel.runsEmpty, replay c.memory, s.accepted.length⟩] }

/-- `RMTfillData` returns. -/
def returns (s : RmtTrack) (result : Int) : RmtTrack :=
  { s with foreground := .idle, result := result }

/-- Write an item of the data buffer. -/
def setItem (s : RmtTrack) (k : Nat) (item : RmtItem) : RmtTrack :=
  { s with channel := { s.channel with data := s.channel.data.set k item } }

/-- The next statement of `RMTfillData`. -/
def statement (s : RmtTrack) : RmtTrack :=
  match s.foreground with
  | .idle => s
  | .testRepeat c =>
    if 0 < s.channel.dataRepeat then s.returns s.channel.dataRepeat.toNat  -- still old work to do
    else { s with foreground := .testReady c }
  | .testReady c =>
    if s.channel.dataReady then s.returns 1000  -- the packet is not copied out yet
    else if s.channel.maxDataLen < dataLength c.buffer.length then s.returns (-1)
    else { s with foreground := .converting c 0 0 }
  | .converting c n bit =>
    if n < c.buffer.length then
      if bit < 8 then
        let one := c.buffer.getD n 0 &&& transmitMask.getD bit 0 ≠ 0
        { s.setItem (9 * n + bit) (if one then setDCCBit1 else setDCCBit0) with
          foreground := .converting c n (bit + 1) }
      else
        -- zero at end of each byte
        { s.setItem (9 * n + bit) setDCCBit0 with foreground := .converting c (n + 1) 0 }
    else { s with foreground := .setEnd c }
  | .setEnd c =>
    let bitcounter := 9 * c.buffer.length
    let s := (s.setItem (bitcounter - 1) setDCCBit1).setItem bitcounter .eot
    { s with
      channel := { s.channel with dataLen := bitcounter + 1 }
      foreground := .handOver c }
  | .handOver c =>
    { s.returns 0 with
      channel := { s.channel with dataReady := true, dataRepeat := c.repeatCount + 1 }
      accepted := s.accepted ++ [c] }

/-- One event: the foreground makes its calls one after the other. -/
def step (s : RmtTrack) : RmtEvent → RmtTrack
  | .interrupt => s.interrupt
  | .fillData c =>
    match s.foreground with
    | .idle => { s with foreground := .testRepeat c }
    | _ => s
  | .statement => s.statement

/-- The state after a history. -/
abbrev after (isMain : Bool) (events : List RmtEvent) : RmtTrack := run step (init isMain) events

end RmtTrack

end CommandStation
