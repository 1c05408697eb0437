import CommandStation.Lib.Run
import CommandStation.Lib.FirstMatch

/-!
# The DCC packet queues

`DCCQueue` holds the packets that wait for the main track: a high and a low priority queue of
`PendingSlot`s and a list of recycled slots. The schedule calls put packets into the queues;
`scheduleNext` picks one slot and hands its packet to `DCCWaveform::mainTrack.schedulePacket`.

The model follows `DCCQueue.cpp` call by call. A queue is the list of its slots from `head` to
`tail`. The parts that matter and are easy to lose are kept:

* `locoId`, `delayOff` and `startTime` of a slot are **one union**: the two 16-bit members are the
  low half of the 32-bit one (all targets are little-endian), so a slot whose `startTime` is set
  still answers to the loco id found in its low half;
* a slot's packet is a fixed buffer that is only ever partly overwritten;
* `packetRepeat` is counted down by the queue for slots with a loco id and passed on to the
  waveform for the others.

`millis()` is read once for each call of `scheduleNext` and is an argument of that call.

Two history variables are added that no branch of the code reads: `origin` of a slot is the
schedule call whose bytes the slot holds, and `handedOver` is the log of `schedulePacket` calls.
-/

namespace CommandStation.DCCQueue

open CommandStation.Lib

/-- `MAX_PACKET_SIZE`: the payload bytes of an extended packet, without the checksum. -/
def maxPacketSize : Nat := 5

inductive PendingType where
  | normalPacket
  | function1Packet | function2Packet | function3Packet | function4Packet | function5Packet
  | speedPacket | accOnPacket | accOffPacket | deadPacket
  deriving DecidableEq, Repr

/-- The five ways a packet gets into the queues. -/
inductive CallKind where
  | packet | speed | function | estop | accOnOff
  deriving DecidableEq, Repr

/-- The schedule call a packet comes from: its number in the history, its kind and the loco it
was given (0 where the call has no loco argument). -/
structure Origin where
  call : Nat
  kind : CallKind
  loco : UInt16
  deriving DecidableEq, Repr

/-- `struct PendingSlot`. `lowWord` and `highWord` are the halves of the union. -/
structure PendingSlot where
  type : PendingType
  packetLength : Nat
  packetRepeat : Nat
  packet : List UInt8
  lowWord : UInt16
  highWord : UInt16
  origin : Origin
  deriving DecidableEq, Repr

namespace PendingSlot

/-- Union member `uint16_t locoId`. -/
def locoId (p : PendingSlot) : UInt16 := p.lowWord

/-- Union member `uint16_t delayOff`. -/
def delayOff (p : PendingSlot) : UInt16 := p.lowWord

/-- Union member `uint32_t startTime`. -/
def startTime (p : PendingSlot) : UInt32 := p.highWord.toUInt32 <<< 16 ||| p.lowWord.toUInt32

def setLocoId (p : PendingSlot) (loco : UInt16) : PendingSlot := { p with lowWord := loco }

def setDelayOff (p : PendingSlot) (delay : UInt16) : PendingSlot := { p with lowWord := delay }

def setStartTime (p : PendingSlot) (t : UInt32) : PendingSlot :=
  { p with lowWord := t.toUInt16, highWord := (t >>> 16).toUInt16 }

/-- The bytes `schedulePacket(p->packet, p->packetLength, …)` reads. -/
def payload (p : PendingSlot) : List UInt8 := p.packet.take p.packetLength

end PendingSlot

/-- `memcpy(dst, src, length)` into the `MAX_PACKET_SIZE` bytes of a slot: what lies behind the
copied bytes stays. -/
def memcpy (dst src : List UInt8) : List UInt8 :=
  (src ++ dst.drop src.length).take maxPacketSize

/-- A packet that fits the buffer of a slot. The calls that copy over a slot in place do not check
the length, so it is their callers (`setThrottleDCC`, `setFunctionInternal`, both with a
`byte b[4]`) that keep it. -/
structure Packet where
  bytes : List UInt8
  fits : bytes.length ≤ maxPacketSize

/-- One call of `mainTrack.schedulePacket`: the idle packet, or the packet of a slot as it stood,
with the repeats asked of the waveform. `now` is the clock of the call. -/
inductive HandOver where
  | idle (now : UInt32)
  | slot (p : PendingSlot) (repeats : Nat) (now : UInt32)
  deriving DecidableEq, Repr

/-- The statics of `DCCQueue`, with the log of hand-overs (newest first) and the number of calls
made so far. -/
structure State where
  highPriorityQueue : List PendingSlot
  lowPriorityQueue : List PendingSlot
  recycleList : List PendingSlot
  lastSentPacketLocoId : UInt16
  handedOver : List HandOver
  calls : Nat

/-- The state the statics are created in. -/
def init : State where
  highPriorityQueue := []
  lowPriorityQueue := []
  recycleList := []
  lastSentPacketLocoId := 0
  handedOver := []
  calls := 0

/-! ## Obtaining a slot -/

/-- A slot from `new`: its members are unspecified until `getSlot` sets them. -/
def newPendingSlot : PendingSlot where
  type := .deadPacket
  packetLength := 0
  packetRepeat := 0
  packet := List.replicate maxPacketSize 0
  lowWord := 0
  highWord := 0
  origin := ⟨0, .packet, 0⟩

/-- The second half of `getSlot`: every member but `next` is set. `packetLength` keeps a length
above the buffer size, only the copy is cut. -/
def initialiseSlot (p : PendingSlot) (type : PendingType) (packet : List UInt8) (repeats : Nat)
    (loco : UInt16) (origin : Origin) : PendingSlot :=
  let p := { p with type := type, packetLength := packet.length, packetRepeat := repeats }
  let p := p.setStartTime 0
  let p := { p with packet := memcpy p.packet packet }
  { p.setLocoId loco with origin := origin }

/-- `DCCQueue::getSlot`: the slot and the recycle list that is left. -/
def getSlot (recycleList : List PendingSlot) (type : PendingType) (packet : List UInt8)
    (repeats : Nat) (loco : UInt16) (origin : Origin) : PendingSlot × List PendingSlot :=
  match recycleList with
  | p :: rest => (initialiseSlot p type packet repeats loco origin, rest)
  | [] => (initialiseSlot newPendingSlot type packet repeats loco origin, [])

/-! ## Queue operations -/

def addQueue (queue : List PendingSlot) (p : PendingSlot) : List PendingSlot := queue ++ [p]

def jumpQueue (queue : List PendingSlot) (p : PendingSlot) : List PendingSlot := p :: queue

def recycle (recycleList : List PendingSlot) (p : PendingSlot) : List PendingSlot :=
  p :: recycleList

/-- The in-place replacement of `scheduleDCCSpeedPacket` and `scheduleDCCFunctionPacket`: packet,
length and repeats are written, type and union are left alone. -/
def overwrite (p : PendingSlot) (packet : List UInt8) (repeats : Nat) (origin : Origin) :
    PendingSlot :=
  { p with
    packet := memcpy p.packet packet, packetLength := packet.length, packetRepeat := repeats,
    origin := origin }

/-! ## The schedule calls -/

/-- Packet joins end of low priority queue. -/
def scheduleDCCPacket (packet : List UInt8) (repeats : Nat) (loco : UInt16) (s : State) : State :=
  let (p, rest) := getSlot s.recycleList .normalPacket packet repeats loco
    ⟨s.calls, .packet, loco⟩
  { s with lowPriorityQueue := addQueue s.lowPriorityQueue p, recycleList := rest }

/-- Packet replaces existing loco speed packet or joins end of high priority queue. -/
def scheduleDCCSpeedPacket (packet : Packet) (repeats : Nat) (loco : UInt16) (s : State) : State :=
  match splitFirst (fun p => p.locoId == loco) s.highPriorityQueue with
  | some (before, p, after) =>
    { s with highPriorityQueue :=
        before ++ overwrite p packet.bytes repeats ⟨s.calls, .speed, loco⟩ :: after }
  | none =>
    let (p, rest) := getSlot s.recycleList .speedPacket packet.bytes repeats loco
      ⟨s.calls, .speed, loco⟩
    { s with highPriorityQueue := addQueue s.highPriorityQueue p, recycleList := rest }

/-- The slot type for a function group; `none` is the invalid group that is only reported. -/
def functionType : Nat → Option PendingType
  | 1 => some .function1Packet
  | 2 => some .function2Packet
  | 3 => some .function3Packet
  | 4 => some .function4Packet
  | 5 => some .function5Packet
  | _ => none

/-- Packet replaces existing loco function packet or joins end of low priority queue. -/
def scheduleDCCFunctionPacket (packet : Packet) (loco : UInt16) (group : Nat) (s : State) :
    State :=
  match functionType group with
  | none => s
  | some type =>
    match splitFirst (fun p => p.locoId == loco && p.type == type) s.lowPriorityQueue with
    | some (before, p, after) =>
      { s with lowPriorityQueue :=
          before ++ overwrite p packet.bytes 0 ⟨s.calls, .function, loco⟩ :: after }
    | none =>
      let (p, rest) := getSlot s.recycleList type packet.bytes 0 loco ⟨s.calls, .function, loco⟩
      { s with lowPriorityQueue := addQueue s.lowPriorityQueue p, recycleList := rest }

/-- The slots an emergency stop throws out of the high priority queue. -/
def estopKills (loco : UInt16) (p : PendingSlot) : Bool :=
  p.type != .accOffPacket && (loco == 0 || p.locoId == loco)

/-- Outstanding throttle packets of the loco (of all locos if it is 0) are recycled, the packet
joins the start of the high priority queue, under loco id 0. -/
def scheduleEstopPacket (packet : List UInt8) (repeats : Nat) (loco : UInt16) (s : State) :
    State :=
  let recycled := (s.highPriorityQueue.filter (estopKills loco)).foldl recycle s.recycleList
  let (p, rest) := getSlot recycled .speedPacket packet repeats 0 ⟨s.calls, .estop, loco⟩
  { s with
    highPriorityQueue :=
      jumpQueue (s.highPriorityQueue.filter fun p => !estopKills loco p) p,
    recycleList := rest }

/-- Accessory coil-on packet joins end of low priority queue as normal. -/
def scheduleAccOnOffPacket (packet : List UInt8) (repeats : Nat) (delayms : Int16) (s : State) :
    State :=
  let (p, rest) := getSlot s.recycleList .accOnPacket packet repeats 0 ⟨s.calls, .accOnOff, 0⟩
  { s with
    lowPriorityQueue := addQueue s.lowPriorityQueue (p.setDelayOff delayms.toUInt16),
    recycleList := rest }

/-! ## Handing packets over -/

inductive Priority where
  | high | low
  deriving DecidableEq, Repr

namespace State

def queue (s : State) : Priority → List PendingSlot
  | .high => s.highPriorityQueue
  | .low => s.lowPriorityQueue

def setQueue (s : State) (pr : Priority) (q : List PendingSlot) : State :=
  match pr with
  | .high => { s with highPriorityQueue := q }
  | .low => { s with lowPriorityQueue := q }

end State

/-- A delayed coil-off packet whose time has not come. -/
def delayed (now : UInt32) (p : PendingSlot) : Bool :=
  p.type == .accOffPacket && now < p.startTime

/-- A packet that would follow another one to the same loco. -/
def sameLoco (last : UInt16) (p : PendingSlot) : Bool :=
  p.locoId != 0 && p.locoId == last

/-- The slot is not passed over by the two `continue`s of `scheduleNextInternal`. -/
def eligible (last : UInt16) (now : UInt32) (p : PendingSlot) : Bool :=
  !delayed now p && !sameLoco last p

/-- `packet[1] &= ~0x08`: set C to 0 (gate off). -/
def clearGate (packet : List UInt8) : List UInt8 := packet.modify 1 (· &&& 0xF7)

/-- A coil-on slot turned into its delayed coil-off slot. -/
def coilOff (p : PendingSlot) (now : UInt32) : PendingSlot :=
  { p with type := .accOffPacket, packet := clearGate p.packet }.setStartTime
    (now + p.delayOff.toUInt32)

/-- The end of `scheduleNextInternal`: the slot `p` is removed from its queue, and becomes a
delayed coil-off slot at the start of the high priority queue or is recycled. -/
def finish (pr : Priority) (before : List PendingSlot) (p : PendingSlot)
    (after : List PendingSlot) (now : UInt32) (s : State) : State :=
  let s := s.setQueue pr (before ++ after)
  if p.type = .accOnPacket then
    { s with highPriorityQueue := jumpQueue s.highPriorityQueue (coilOff p now) }
  else { s with recycleList := recycle s.recycleList p }

/-- `scheduleNextInternal` on the queue of priority `pr`; `none` where it returns false. -/
def scheduleNextInternal (pr : Priority) (now : UInt32) (s : State) : Option State :=
  match splitFirst (eligible s.lastSentPacketLocoId now) (s.queue pr) with
  | none => none
  | some (before, p, after) =>
    if p.locoId ≠ 0 then
      let s := { s with
        handedOver := .slot p 0 now :: s.handedOver, lastSentPacketLocoId := p.locoId }
      if p.packetRepeat ≠ 0 then
        -- the slot stays where it is, one repeat the poorer
        some (s.setQueue pr (before ++ { p with packetRepeat := p.packetRepeat - 1 } :: after))
      else some (finish pr before p after now s)
    else
      let s := { s with
        handedOver := .slot p p.packetRepeat now :: s.handedOver, lastSentPacketLocoId := 0 }
      some (finish pr before p after now s)

/-- `DCCQueue::scheduleNext` with the result it returns. -/
def scheduleNext (force : Bool) (now : UInt32) (s : State) : State × Bool :=
  match scheduleNextInternal .high now s with
  | some s' => (s', true)
  | none =>
    match scheduleNextInternal .low now s with
    | some s' => (s', true)
    | none =>
      if force then
        ({ s with handedOver := .idle now :: s.handedOver, lastSentPacketLocoId := 0 }, true)
      else (s, false)

/-! ## Histories -/

/-- A call of the queue manager's interface. -/
inductive Call where
  | scheduleDCCPacket (packet : List UInt8) (repeats : Nat) (loco : UInt16)
  | scheduleDCCSpeedPacket (packet : Packet) (repeats : Nat) (loco : UInt16)
  | scheduleDCCFunctionPacket (packet : Packet) (loco : UInt16) (group : Nat)
  | scheduleEstopPacket (packet : List UInt8) (repeats : Nat) (loco : UInt16)
  | scheduleAccOnOffPacket (packet : List UInt8) (repeats : Nat) (delayms : Int16)
  | scheduleNext (force : Bool) (now : UInt32)

/-- What a call does to the queues. -/
def exec (s : State) : Call → State
  | .scheduleDCCPacket packet repeats loco => scheduleDCCPacket packet repeats loco s
  | .scheduleDCCSpeedPacket packet repeats loco => scheduleDCCSpeedPacket packet repeats loco s
  | .scheduleDCCFunctionPacket packet loco group => scheduleDCCFunctionPacket packet loco group s
  | .scheduleEstopPacket packet repeats loco => scheduleEstopPacket packet repeats loco s
  | .scheduleAccOnOffPacket packet repeats delayms =>
    scheduleAccOnOffPacket packet repeats delayms s
  | .scheduleNext force now => (scheduleNext force now s).1

/-- One call of a history: `calls` numbers the calls, so that a slot's `origin` is the position
of its call in the history. -/
def step (s : State) (c : Call) : State := { exec s c with calls := s.calls + 1 }

/-- The state after a history of calls. -/
abbrev after (cs : List Call) : State := run step init cs

end CommandStation.DCCQueue
