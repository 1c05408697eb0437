import CommandStation.EXRAIL2.Script
import Mathlib.Data.List.Basic

/-!
# The ring of tasks

Every running sequence of a script is an object of class `RMFT2`. The objects are linked to a ring
through `next`, and `loopTask` points to one of them. A constructor puts the new task behind
`loopTask`, the destructor takes a task out again and leaves `loopTask` at the task behind it.

The heap is a memory of tasks with the list of those that exist. A pointer to a task that does not
exist is a fault when it is followed. `new` may hand out any address that is not in use, so also one
that a task had before; the members that the constructor does not set are what the memory held.
Memory does not run out. `peak` and `sections` are history variables that no branch reads: the
greatest number of tasks there has been, and what happened to the sections of the layout.

The same array of flags serves the task ids, the sections, the latches and the signals.
-/

namespace CommandStation

open CommandStation.Lib

inductive BlinkState where
  | notBlinkTask
  | blinkLow    -- blink task running with pin LOW
  | blinkHigh   -- blink task running with pin high
  | atTimeout   -- ATTIMEOUT timed out flag
  deriving DecidableEq, Repr

/-- `MAX_STACK_DEPTH` -/
def maxStackDepth : Nat := 4

/-- `class RMFT2`. `timer` is the union of `waitAfter`, `timeoutStart` and `blinkPin`. -/
structure RMFT2 where
  next : Addr
  progCounter : Int
  delayStart : UInt32
  delayTime : UInt32
  timer : UInt32
  taskId : UInt8
  blinkState : BlinkState
  loco : UInt16
  invert : Bool
  pauseSpeed : UInt8
  onEventStartPosition : Int
  stackDepth : Nat
  callStack : Nat → Int

namespace RMFT2

/-- Memory that was filled with zeros. -/
def zero : RMFT2 where
  next := 0
  progCounter := 0
  delayStart := 0
  delayTime := 0
  timer := 0
  taskId := 0
  blinkState := .notBlinkTask
  loco := 0
  invert := false
  pauseSpeed := 0
  onEventStartPosition := 0
  stackDepth := 0
  callStack _ := 0

/-- Union member `VPIN blinkPin`, the low half. -/
def blinkPin (task : RMFT2) : UInt16 := task.timer.toUInt16

def setBlinkPin (task : RMFT2) (pin : UInt16) : RMFT2 :=
  { task with timer := (task.timer &&& 0xFFFF0000) ||| pin.toUInt32 }

theorem blinkPin_setBlinkPin (task : RMFT2) (pin : UInt16) : (task.setBlinkPin pin).blinkPin = pin := by
  apply UInt16.eq_of_toBitVec_eq
  simp [setBlinkPin, blinkPin]

/-- The task blinks a pin and does nothing else. -/
def isBlink (task : RMFT2) : Bool :=
  task.blinkState == .blinkHigh || task.blinkState == .blinkLow

end RMFT2

/-- `pausingTask`: null, the impossible address that `</ PAUSE>` leaves, or a task. -/
inductive PausingTask where
  | null
  | external
  | task (a : Addr)
  deriving DecidableEq, Repr

/-- What happens to a section: a task acquires it, or it is freed. -/
inductive SectionEvent where
  | acquired (task : Addr) (id : UInt16)
  | freed (id : UInt16)
  | freedAll
  deriving DecidableEq, Repr

structure Tasks where
  mem : Addr → RMFT2
  live : List Addr
  loopTask : Option Addr
  pausingTask : PausingTask
  flags : UInt16 → UInt8
  peak : Nat
  sections : List SectionEvent

/-- What goes wrong with pointers: in the loco table or on the tracks, or in the ring. -/
inductive Crash where
  | station (fault : Fault)
  | dangling
  | endlessLoop
  deriving DecidableEq, Repr

/-- An address for `new`, for the tasks there are. -/
structure Allocator where
  pick : List Addr → Addr
  fresh : ∀ live, pick live ∉ live

theorem le_foldr_max {a : Nat} {xs : List Nat} (h : a ∈ xs) : a ≤ xs.foldr max 0 := by
  induction xs with
  | nil => cases h
  | cons x xs ih =>
    rcases List.mem_cons.mp h with rfl | h
    · exact Nat.le_max_left ..
    · exact Nat.le_trans (ih h) (Nat.le_max_right ..)

/-- An allocator that goes on behind the last object. -/
def Allocator.behind : Allocator where
  pick live := live.foldr max 0 + 1
  fresh _ h := absurd (le_foldr_max h) (Nat.not_succ_le_self _)

namespace Tasks

def sectionFlag : UInt8 := 0x80
def latchFlag : UInt8 := 0x40
def taskFlag : UInt8 := 0x20
def signalMask : UInt8 := 0x0C

/-- `MAX_FLAGS` -/
def maxFlags : Nat := 256

/-! ## Flags -/

/-- `RMFT2::getFlag` -/
def getFlag (t : Tasks) (id : UInt16) (mask : UInt8) : Bool :=
  if maxFlags ≤ id.toNat then false  -- Outside range limit
  else t.flags id &&& mask != 0

/-- `RMFT2::setFlag` -/
def setFlag (id : UInt16) (onMask offMask : UInt8) (t : Tasks) : Tasks :=
  if maxFlags ≤ id.toNat then t  -- Outside range limit
  else { t with flags := Function.update t.flags id ((t.flags id &&& ~~~offMask) ||| onMask) }

/-- The result of `RMFT2::setFlag`. -/
def flagInRange (id : UInt16) : Bool := id.toNat < maxFlags

/-- `for (int i=0;i<MAX_FLAGS;i++) setFlag(i,0,SECTION_FLAG)` -/
def freeAllSections (t : Tasks) : Tasks :=
  (List.range maxFlags).foldl (fun t i => t.setFlag (UInt16.ofNat i) 0 sectionFlag) t

/-- Note what happened to a section. -/
def note (event : SectionEvent) (t : Tasks) : Tasks := { t with sections := event :: t.sections }

/-! ## Tasks -/

/-- The task at an address. -/
def readTask (a : Addr) : Prog Tasks Crash RMFT2 := do
  let t ← get
  if a ∈ t.live then pure (t.mem a) else throw .dangling

/-- The memory with the object at an address rewritten. -/
def write (a : Addr) (f : RMFT2 → RMFT2) (t : Tasks) : Tasks :=
  { t with mem := Function.update t.mem a (f (t.mem a)) }

/-- Write some members of the task at an address. -/
def writeTask (a : Addr) (f : RMFT2 → RMFT2) : Prog Tasks Crash Unit := do
  let t ← get
  if a ∈ t.live then set (t.write a f) else throw .dangling

/-- An unused task id from the flags table, 255 in case of overflow. -/
def unusedId (t : Tasks) : UInt8 :=
  match (List.range maxFlags).find? fun f => !t.getFlag (UInt16.ofNat f) taskFlag with
  | some f => UInt8.ofNat f
  | none => 255

/-- Mark an id as used. In case of overflow nothing is marked. -/
def useId (t : Tasks) : Tasks :=
  match (List.range maxFlags).find? fun f => !t.getFlag (UInt16.ofNat f) taskFlag with
  | some f => t.setFlag (UInt16.ofNat f) taskFlag 0
  | none => t

/-- The object that a constructor has set up, before it is chained in. -/
def setUp (t : Tasks) (a : Addr) (progCtr : Int) (loco : UInt16) (invert : Bool) : Tasks :=
  { t.useId.write a fun task => { task with
      progCounter := progCtr
      taskId := t.unusedId
      delayTime := 0
      loco := loco
      invert := invert
      blinkState := .notBlinkTask
      stackDepth := 0
      onEventStartPosition := -1 } with
    live := a :: t.live
    peak := max t.peak (t.live.length + 1) }

/-- `new RMFT2(progCtr, loco, invert)` -/
def construct (alloc : Allocator) (progCtr : Int) (loco : UInt16) (invert : Bool) :
    Prog Tasks Crash Addr := do
  let t ← get
  let a := alloc.pick t.live
  set (t.setUp a progCtr loco invert)
  -- chain into ring of RMFTs
  match t.loopTask with
  | none =>
    modify fun t => { t with loopTask := some a }
    writeTask a fun task => { task with next := a }
  | some l =>
    let task ← readTask l
    writeTask a fun new => { new with next := task.next }
    writeTask l fun task => { task with next := a }
  pure a

/-- The loop of the destructor: the task before `a` is linked to the task behind it. -/
def unchain (a next : Addr) : Prog Tasks Crash Unit := do
  let t ← get
  loop (fun ring _ => do
    let task ← readTask ring
    if task.next = a then
      writeTask ring fun task => { task with next := next }
      modify fun t => { t with loopTask := some next }
      pure (none, ())
    else pure (some task.next, ())) .endlessLoop t.live.length (some next) ()

/-- The destructor, from the point where the loco has been stopped, and the end of the object. -/
def destruct (a : Addr) : Prog Tasks Crash Unit := do
  let task ← readTask a
  modify (setFlag task.taskId.toUInt16 0 taskFlag)  -- we are no longer using this id
  if task.next = a then modify fun t => { t with loopTask := none }
  else unchain a task.next
  modify fun t => { t with live := t.live.erase a }

/-- The tasks at start-up. -/
def init (mem : Addr → RMFT2) : Tasks where
  mem := mem
  live := []
  loopTask := none
  pausingTask := .null
  flags _ := 0
  peak := 0
  sections := []

end Tasks

end CommandStation
