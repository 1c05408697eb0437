import CommandStation.DCCQueue.Basic

/-!
# Slots and pointers

The queues as the code has them: slots that are linked through `next`, two queues with a pointer to the
head and one to the tail, and the recycle list. A slot is known by the number of slots that were created
before it. What the slots hold, and what is done to that, is taken from the model of lists.

A loop that follows `next` has fuel for all the slots and the null pointer at the end. It has no result
if that does not do. The walks in `getSlot` that count slots for a message are left out, and `new`
succeeds.
-/

namespace CommandStation.DCCQueue

/-- `class DCCQueue` -/
structure Ends where
  head : Option Nat
  tail : Option Nat
  deriving DecidableEq, Repr

/-- The slots, how many there are, and the statics. -/
structure Memory where
  slot : Nat → PendingSlot
  next : Nat → Option Nat
  created : Nat
  queue : Priority → Ends
  recycleList : Option Nat
  lastSentPacketLocoId : UInt16
  handedOver : List HandOver
  calls : Nat

namespace Memory

/-- The memory in which the statics are created. -/
def init : Memory where
  slot _ := newPendingSlot
  next _ := none
  created := 0
  queue _ := ⟨none, none⟩
  recycleList := none
  lastSentPacketLocoId := 0
  handedOver := []
  calls := 0

def setNext (m : Memory) (p : Nat) (q : Option Nat) : Memory :=
  { m with next := Function.update m.next p q }

def setHead (m : Memory) (pr : Priority) (p : Option Nat) : Memory :=
  { m with queue := Function.update m.queue pr { m.queue pr with head := p } }

def setTail (m : Memory) (pr : Priority) (p : Option Nat) : Memory :=
  { m with queue := Function.update m.queue pr { m.queue pr with tail := p } }

def setSlot (m : Memory) (p : Nat) (slot : PendingSlot) : Memory :=
  { m with slot := Function.update m.slot p slot }

section

variable (m : Memory) (pr : Priority) (p : Nat) (x : Option Nat) (slot : PendingSlot)

@[simp] theorem setNext_next : (m.setNext p x).next = Function.update m.next p x := rfl
@[simp] theorem setNext_queue : (m.setNext p x).queue = m.queue := rfl
@[simp] theorem setNext_recycleList : (m.setNext p x).recycleList = m.recycleList := rfl
@[simp] theorem setNext_slot : (m.setNext p x).slot = m.slot := rfl

@[simp] theorem setHead_next : (m.setHead pr x).next = m.next := rfl
@[simp] theorem setHead_head : ((m.setHead pr x).queue pr).head = x := by simp [setHead]
@[simp] theorem setHead_tail : ((m.setHead pr x).queue pr).tail = (m.queue pr).tail := by
  simp [setHead]
@[simp] theorem setHead_recycleList : (m.setHead pr x).recycleList = m.recycleList := rfl
@[simp] theorem setHead_slot : (m.setHead pr x).slot = m.slot := rfl

@[simp] theorem setTail_next : (m.setTail pr x).next = m.next := rfl
@[simp] theorem setTail_head : ((m.setTail pr x).queue pr).head = (m.queue pr).head := by
  simp [setTail]
@[simp] theorem setTail_tail : ((m.setTail pr x).queue pr).tail = x := by simp [setTail]
@[simp] theorem setTail_recycleList : (m.setTail pr x).recycleList = m.recycleList := rfl
@[simp] theorem setTail_slot : (m.setTail pr x).slot = m.slot := rfl

@[simp] theorem setSlot_slot : (m.setSlot p slot).slot = Function.update m.slot p slot := rfl

variable {pr} {pr' : Priority}

@[simp] theorem setHead_queue (hne : pr' ≠ pr) : (m.setHead pr x).queue pr' = m.queue pr' := by
  simp [setHead, hne]

@[simp] theorem setTail_queue (hne : pr' ≠ pr) : (m.setTail pr x).queue pr' = m.queue pr' := by
  simp [setTail, hne]

end

/-! ## Queue operations -/

/-- `DCCQueue::addQueue` -/
def addQueue (m : Memory) (pr : Priority) (p : Nat) : Memory :=
  let m := match (m.queue pr).tail with
    | some t => m.setNext t (some p)
    | none => m.setHead pr (some p)
  (m.setTail pr (some p)).setNext p none

/-- `DCCQueue::jumpQueue` -/
def jumpQueue (m : Memory) (pr : Priority) (p : Nat) : Memory :=
  let m := (m.setNext p (m.queue pr).head).setHead pr (some p)
  if (m.queue pr).tail = none then m.setTail pr (some p) else m

/-- `DCCQueue::recycle` -/
def recycle (m : Memory) (p : Nat) : Memory :=
  { m.setNext p m.recycleList with recycleList := some p }

/-- The link to a slot is set to what follows it: the link of the slot before, or `head`. -/
def skip (m : Memory) (pr : Priority) (previous : Option Nat) (p : Nat) : Memory :=
  match previous with
  | some b => m.setNext b (m.next p)
  | none => m.setHead pr (m.next p)

section

variable (m : Memory) (pr : Priority) (previous : Option Nat) (p : Nat)

@[simp] theorem skip_tail : ((m.skip pr previous p).queue pr).tail = (m.queue pr).tail := by
  cases previous <;> simp [skip]

@[simp] theorem skip_recycleList : (m.skip pr previous p).recycleList = m.recycleList := by
  cases previous <;> rfl

@[simp] theorem skip_created : (m.skip pr previous p).created = m.created := by
  cases previous <;> rfl

end

/-- The body of the loop of `remove`. -/
def unlink (m : Memory) (pr : Priority) (previous : Option Nat) (p : Nat) : Memory :=
  let m := m.skip pr previous p
  -- if last packet, update tail
  if some p = (m.queue pr).tail then m.setTail pr previous else m

def removeFrom (m : Memory) (pr : Priority) (premove : Nat) : Nat → Option Nat → Option Nat → Option Memory
  | 0, _, _ => none
  | _ + 1, _, none => some m  -- slot not found
  | fuel + 1, previous, some p =>
    if p = premove then some (m.unlink pr previous p) else removeFrom m pr premove fuel (some p) (m.next p)

/-- `DCCQueue::remove` -/
def remove (m : Memory) (pr : Priority) (premove : Nat) : Option Memory :=
  m.removeFrom pr premove (m.created + 1) none (m.queue pr).head

def findFrom (m : Memory) (test : PendingSlot → Bool) : Nat → Option Nat → Option (Option Nat)
  | 0, _ => none
  | _ + 1, none => some none
  | fuel + 1, some p => if test (m.slot p) then some (some p) else findFrom m test fuel (m.next p)

/-- The loops that look for a slot of a queue. -/
def find (m : Memory) (pr : Priority) (test : PendingSlot → Bool) : Option (Option Nat) :=
  m.findFrom test (m.created + 1) (m.queue pr).head

/-- `DCCQueue::getSlot` -/
def getSlot (m : Memory) (type : PendingType) (packet : List UInt8) (repeats : Nat) (loco : UInt16)
    (origin : Origin) : Nat × Memory :=
  let (p, m) := match m.recycleList with
    | some p => (p, { m with recycleList := m.next p })
    | none => (m.created, { m.setSlot m.created newPendingSlot with created := m.created + 1 })
  (p, (m.setNext p none).setSlot p (initialiseSlot (m.slot p) type packet repeats loco origin))

/-! ## The schedule calls -/

def scheduleDCCPacket (packet : List UInt8) (repeats : Nat) (loco : UInt16) (m : Memory) : Memory :=
  let (p, m) := m.getSlot .normalPacket packet repeats loco ⟨m.calls, .packet, loco⟩
  m.addQueue .low p

def scheduleDCCSpeedPacket (packet : Packet) (repeats : Nat) (loco : UInt16) (m : Memory) :
    Option Memory :=
  (m.find .high fun p => p.locoId == loco).map fun
    | some p => m.setSlot p (overwrite (m.slot p) packet.bytes repeats ⟨m.calls, .speed, loco⟩)
    | none =>
      let (p, m) := m.getSlot .speedPacket packet.bytes repeats loco ⟨m.calls, .speed, loco⟩
      m.addQueue .high p

def scheduleDCCFunctionPacket (packet : Packet) (loco : UInt16) (group : Nat) (m : Memory) :
    Option Memory :=
  match functionType group with
  | none => some m
  | some type =>
    (m.find .low fun p => p.locoId == loco && p.type == type).map fun
      | some p => m.setSlot p (overwrite (m.slot p) packet.bytes 0 ⟨m.calls, .function, loco⟩)
      | none =>
        let (p, m) := m.getSlot type packet.bytes 0 loco ⟨m.calls, .function, loco⟩
        m.addQueue .low p

/-- The loop of `scheduleEstopPacket`: the next slot is saved before the slot is removed and recycled. -/
def estopFrom (loco : UInt16) : Nat → Option Nat → Memory → Option Memory
  | 0, _, _ => none
  | _ + 1, none, m => some m
  | fuel + 1, some p, m =>
    let pNext := m.next p
    if estopKills loco (m.slot p) then
      (m.remove .high p).bind fun m => estopFrom loco fuel pNext (m.recycle p)
    else estopFrom loco fuel pNext m

def scheduleEstopPacket (packet : List UInt8) (repeats : Nat) (loco : UInt16) (m : Memory) :
    Option Memory :=
  (estopFrom loco (m.created + 1) (m.queue .high).head m).map fun m =>
    let (p, m) := m.getSlot .speedPacket packet repeats 0 ⟨m.calls, .estop, loco⟩
    m.jumpQueue .high p

def scheduleAccOnOffPacket (packet : List UInt8) (repeats : Nat) (delayms : Int16) (m : Memory) : Memory :=
  let (p, m) := m.getSlot .accOnPacket packet repeats 0 ⟨m.calls, .accOnOff, 0⟩
  (m.setSlot p ((m.slot p).setDelayOff delayms.toUInt16)).addQueue .low p

/-! ## Handing packets over -/

/-- The end of `scheduleNextInternal`. -/
def finish (m : Memory) (pr : Priority) (p : Nat) (now : UInt32) : Option Memory :=
  (m.remove pr p).map fun m =>
    if (m.slot p).type = .accOnPacket then
      -- convert to a delayed off packet and jump the high priority queue
      (m.setSlot p (coilOff (m.slot p) now)).jumpQueue .high p
    else m.recycle p

/-- `DCCQueue::scheduleNextInternal`, with the result it returns. -/
def scheduleNextInternal (m : Memory) (pr : Priority) (now : UInt32) : Option (Memory × Bool) :=
  (m.find pr (eligible m.lastSentPacketLocoId now)).bind fun
    | none => some (m, false)
    | some p =>
      let s := m.slot p
      if s.locoId ≠ 0 then
        let m := { m with handedOver := .slot s 0 now :: m.handedOver, lastSentPacketLocoId := s.locoId }
        if s.packetRepeat ≠ 0 then
          -- leave this packet in the queue
          some (m.setSlot p { s with packetRepeat := s.packetRepeat - 1 }, true)
        else (m.finish pr p now).map fun m => (m, true)
      else
        let m := { m with
          handedOver := .slot s s.packetRepeat now :: m.handedOver, lastSentPacketLocoId := 0 }
        (m.finish pr p now).map fun m => (m, true)

/-- `DCCQueue::scheduleNext` -/
def scheduleNext (force : Bool) (now : UInt32) (m : Memory) : Option (Memory × Bool) :=
  (m.scheduleNextInternal .high now).bind fun (m, done) =>
    if done then some (m, true)
    else
      (m.scheduleNextInternal .low now).map fun (m, done) =>
        if done then (m, true)
        else if force then
          ({ m with handedOver := .idle now :: m.handedOver, lastSentPacketLocoId := 0 }, true)
        else (m, false)

/-! ## Histories -/

def exec (m : Memory) : Call → Option Memory
  | .scheduleDCCPacket packet repeats loco => some (m.scheduleDCCPacket packet repeats loco)
  | .scheduleDCCSpeedPacket packet repeats loco => m.scheduleDCCSpeedPacket packet repeats loco
  | .scheduleDCCFunctionPacket packet loco group => m.scheduleDCCFunctionPacket packet loco group
  | .scheduleEstopPacket packet repeats loco => m.scheduleEstopPacket packet repeats loco
  | .scheduleAccOnOffPacket packet repeats delayms => some (m.scheduleAccOnOffPacket packet repeats delayms)
  | .scheduleNext force now => (m.scheduleNext force now).map Prod.fst

def step (m : Memory) (c : Call) : Option Memory :=
  (m.exec c).map fun m' => { m' with calls := m.calls + 1 }

/-- The memory after a history of calls, if all their loops have ended. -/
def after (cs : List Call) : Option Memory := cs.foldlM step init

end Memory

end CommandStation.DCCQueue
