import CommandStation.EXRAIL2.Tasks
import CommandStation.DCC.Calls
import CommandStation.Stash.Basic

/-!
# EXRAIL

The automation of the station: the ring of tasks with the things its opcodes work on. Here are the
parts that opcodes and commands share: creating and killing tasks, event handlers, signals, turnouts,
the waits of a task, pause and resume.

`Inputs` is what the code reads from outside in a call of `loop` or a command: the clock, pins,
devices, and the allocator. Only effects that come back are in the state: writes to pins and devices,
messages to throttles and to the serial ports, captions of routes and the EEPROM are left out. The
build has a HAL.
-/

namespace CommandStation

open CommandStation.Lib

structure Inputs where
  millis : UInt32
  micros : UInt32
  read : UInt16 → Bool
  readAnalogue : UInt16 → Int
  isBusy : UInt16 → Bool
  turntablePosition : UInt16 → UInt8
  turntableMoving : UInt16 → Bool
  /-- The answer of a turntable that is sent to a position: whether it accepts, and if so whether it
  turns. -/
  turntableTurns : UInt16 → UInt8 → Option Bool
  canMeasureCurrent : Bool
  alloc : Allocator

/-- Nothing is connected, and the clock stands still. -/
def Inputs.idle : Inputs where
  millis := 0
  micros := 0
  read _ := false
  readAnalogue _ := 0
  isBusy _ := false
  turntablePosition _ := 0
  turntableMoving _ := false
  turntableTurns _ _ := none
  canMeasureCurrent := false
  alloc := .behind

structure Exrail where
  rails : JoinStation
  turnouts : List Turnout
  stash : List Exrail.Stash
  tasks : Tasks
  skipIf : Bool
  progtrackLocoId : Int16
  routeState : Nat → UInt8
  onLCCLookup : Nat → Int
  lccProgCounter : Int
  lccEventIndex : Nat

abbrev Exr (α : Type) : Type := Prog Exrail Crash α

namespace Exrail

/-! ## Parts of the state -/

/-- A program on the ring. -/
def onTasks {α : Type} (m : Prog Tasks Crash α) : Exr α :=
  zoom Exrail.tasks (fun s tasks => { s with tasks := tasks }) m

/-- A program on the tracks and the station. -/
def onRails {α : Type} (m : Joins α) : Exr α := fun s =>
  match m s.rails with
  | .ok (a, rails) => .ok (a, { s with rails := rails })
  | .error fault => .error (.station fault)

/-- A program of the station. -/
def onStation {α : Type} (m : Dcc α) : Exr α := onRails (JoinStation.onStation m)

/-- The platform of the station. -/
def platform (s : Exrail) : Platform := s.rails.station.platform

def readTask (a : Addr) : Exr RMFT2 := onTasks (Tasks.readTask a)

def writeTask (a : Addr) (f : RMFT2 → RMFT2) : Exr Unit := onTasks (Tasks.writeTask a f)

def setFlag (id : UInt16) (onMask offMask : UInt8) : Exr Unit :=
  onTasks (modify (Tasks.setFlag id onMask offMask))

/-- The test and the program of a flag. -/
def getFlag (id : UInt16) (mask : UInt8) : Exr Bool := do
  let s ← get
  pure (s.tasks.getFlag id mask)

/-- Note what happened to a section. -/
def note (event : SectionEvent) : Exr Unit := onTasks (modify (Tasks.note event))

variable (script : Script) (w : Inputs)

/-! ## Locos of tasks -/

/-- `DCC::setThrottle(loco,tSpeed,…)` -/
def setThrottle (cab : UInt16) (tSpeed : UInt8) (tDirection : Bool) : Exr Unit := do
  let _ ← onStation (DCC.setThrottle cab tSpeed tDirection w.millis)

/-- `DCC::setThrottle(loco,tSpeed,DCC::getThrottleDirection(loco))` -/
def setSpeed (loco : UInt16) (tSpeed : UInt8) : Exr Unit := do
  let direction ← onStation (DCC.getThrottleDirection loco)
  setThrottle w loco tSpeed direction

/-- `RMFT2::pause` -/
def pause (a : Addr) : Exr Unit := do
  let task ← readTask a
  when (task.loco ≠ 0) do
    let speed ← onStation (DCC.getThrottleSpeedByte task.loco)
    writeTask a fun task => { task with pauseSpeed := speed }

/-- `RMFT2::resume` -/
def resume (a : Addr) : Exr Unit := do
  let task ← readTask a
  when (task.loco ≠ 0)
    (setThrottle w task.loco (task.pauseSpeed &&& 0x7f) (task.pauseSpeed &&& 0x80 != 0))

/-! ## Creating and killing tasks -/

/-- `new RMFT2(progCtr, loco, invert)` -/
def newTask (progCtr : Int) (loco : UInt16) (invert : Bool) : Exr Addr :=
  onTasks (Tasks.construct w.alloc progCtr loco invert)

/-- `RMFT2::kill`: the task is deleted. -/
def kill (a : Addr) : Exr Unit := do
  let task ← readTask a
  -- estop my loco if this is not an ONevent
  when (0 < task.loco ∧ task.onEventStartPosition = -1) (setSpeed w task.loco 1)
  onTasks (Tasks.destruct a)

/-- The loops of `</ …>` along the ring, from `loopTask` until it comes round. The body answers
whether to leave the loop. -/
def eachTask (body : Addr → Exr Bool) : Exr Bool := do
  let s ← get
  loop (fun a _ => do
    let found ← body a
    if found then pure (none, true)
    else
      let task ← readTask a
      let s ← get
      if s.tasks.loopTask = some task.next then pure (none, false)
      else pure (some task.next, false)) .endlessLoop s.tasks.live.length s.tasks.loopTask false

/-- `while (loopTask) loopTask->kill(…)` -/
def killAll : Exr Unit := do
  let s ← get
  loop (fun a _ => do
    kill w a
    let s ← get
    pure (s.tasks.loopTask, ())) .endlessLoop s.tasks.live.length s.tasks.loopTask ()

/-- `RMFT2::killBlinkOnVpin`. The loop stops when it gets back to where it started. -/
def killBlinkOnVpin (pin count : UInt16) : Exr Unit := do
  when (script.has Script.featureBlink) do
    let s ← get
    let stoptask := s.tasks.loopTask
    let lastPin := pin + count - 1
    loop (fun a _ => do
      let task ← readTask a
      when (task.isBlink ∧ pin ≤ task.blinkPin ∧ task.blinkPin ≤ lastPin) (kill w a)
      if some task.next = stoptask then pure (none, ()) else pure (some task.next, ()))
      .endlessLoop s.tasks.live.length stoptask ()

/-! ## Events -/

/-- `RMFT2::startNonRecursiveTask` -/
def startNonRecursiveTask (progCounter : Int) (loco : UInt16) : Exr Unit := do
  -- Check we dont already have a task running this handler
  let running ← eachTask fun a => do
    let task ← readTask a
    pure (task.onEventStartPosition = progCounter ∧ task.loco = loco)
  when (running = false) do
    let task ← newTask w progCounter loco false
    writeTask task fun task => { task with onEventStartPosition := progCounter }

/-- `LookList::handleEvent` for the lookup of an opcode. -/
def handleEvent (op : Opcode) (id : Int16) (loco : UInt16) : Exr Unit :=
  runProg (fun progCounter : Int16 => startNonRecursiveTask w progCounter.toInt loco)
    ((script.lookListLoader [op]).all id)

/-- `RMFT2::turnoutEvent` -/
def turnoutEvent (id : UInt16) (closed : Bool) : Exr Unit :=
  handleEvent script w (if closed then .onclose else .onthrow) id.toInt16 0

/-- `RMFT2::activateEvent` -/
def activateEvent (addr : Int16) (activate : Bool) : Exr Unit :=
  handleEvent script w (if activate then .onactivate else .ondeactivate) addr 0

/-- `RMFT2::blockEvent` -/
def blockEvent (block loco : Int16) (entering : Bool) : Exr Unit :=
  when (script.has Script.featureBlock)
    (handleEvent script w (if entering then .onblockenter else .onblockexit) block loco.toUInt16)

/-- `RMFT2::changeEvent` -/
def changeEvent (vpin : Int16) (change : Bool) : Exr Unit :=
  when change (handleEvent script w .onchange vpin 0)

/-- `RMFT2::rotateEvent` -/
def rotateEvent (turntableId : UInt16) (change : Bool) : Exr Unit :=
  when change (handleEvent script w .onrotate turntableId.toInt16 0)

/-- `RMFT2::clockEvent`: the handlers of the time, and those of the minute in every hour. -/
def clockEvent (clocktime : Int16) (change : Bool) : Exr Unit :=
  when change do
    handleEvent script w .ontime clocktime 0
    handleEvent script w .ontime (25 * 60 + clocktime % 60) 0

/-- `RMFT2::powerEvent` -/
def powerEvent (track : Int16) (overload : Bool) : Exr Unit :=
  when overload (handleEvent script w .onoverload track 0)

/-- `RMFT2::railsyncEvent` -/
def railsyncEvent (on : Bool) : Exr Unit :=
  when script.boosterInput do
    if on then handleEvent script w .onrailsyncon 0 0
    else if script.lookListLoader [.onrailsyncoff] = [] then
      onStation (TrackManager.setTrackPower TrackMode.boost .off)
    else handleEvent script w .onrailsyncoff 0 0

/-! ## Accessories, turnouts and turntables -/

/-- `DCC::setAccessory` with the event it raises. -/
def setAccessory (address : Int) (port : UInt8) (gate : Bool) (onoff : UInt8) : Exr Unit := do
  onStation (DCC.setAccessory address port gate onoff)
  when (0 ≤ address ∧ address ≤ 511 ∧ port ≤ 3 ∧ onoff ≠ 0)
    (activateEvent script w (Int16.ofInt (address * 4 + port.toNat)) gate)

/-- `Turnout::setClosedStateOnly` -/
def setClosedStateOnly (id : UInt16) (closeFlag : Bool) : Exr Unit := do
  let s ← get
  match Turnout.get s.turnouts id with
  | none => pure ()
  | some _ =>
    modify fun s => { s with
      turnouts := Turnout.modify s.turnouts id fun tt => { tt with closed := closeFlag } }
    turnoutEvent script w id closeFlag

/-- `setClosedInternal` of the subclasses. Only that of a DCC turnout calls back. -/
def setClosedInternal (tt : Turnout) (close : Bool) : Exr Unit :=
  match tt.kind with
  | .dcc address subAddress =>
    -- RCN-213 specifies that Throw is 0 and Close is 1.
    setAccessory script w address.toNat subAddress
      (if script.dccTurnoutsRCN213 then close else !close) 2
  | _ => pure ()

/-- `Turnout::setClosed` -/
def setClosed (id : UInt16) (closeFlag : Bool) : Exr Unit := do
  let s ← get
  match Turnout.get s.turnouts id with
  | none => pure ()
  | some tt =>
    setClosedInternal script w tt closeFlag
    setClosedStateOnly script w id closeFlag

/-- `Turntable::setPosition` -/
def setPosition (id : UInt16) (position : UInt8) : Exr Unit :=
  match w.turntableTurns id position with
  | none => pure ()
  | some rotated => rotateEvent script w id rotated

/-! ## Signals -/

def signalRed : UInt8 := 0x08
def signalAmber : UInt8 := 0x0C
def signalGreen : UInt8 := 0x04

/-- One of the three pins of a signal is set. -/
def setSignalPin (pin : UInt16) : Exr Unit := when (pin ≠ 0) (killBlinkOnVpin script w pin 1)

/-- What a signal in its slot does for a colour. -/
def showSignal (signal : SignalDefinition) (id : Int16) (rag : UInt8) : Exr Unit :=
  match signal.type with
  | .dcc =>
    -- redpin,amberpin are the DCC addr,subaddr
    setAccessory script w signal.redpin.toNat signal.amberpin.toUInt8 (rag ≠ signalRed) 2
  | .dccx => do
    -- redpin,amberpin,greenpin are the 3 aspects
    let value := if rag = signalGreen then signal.greenpin
      else if rag = signalAmber then signal.amberpin else signal.redpin
    let _ ← onStation (DCC.setExtendedAccessory id value.toInt16)
  | .signal | .signalH => do
    setSignalPin script w signal.redpin
    setSignalPin script w signal.amberpin
    setSignalPin script w signal.greenpin
  | _ => pure ()  -- only pins and devices are written

/-- `RMFT2::doSignal` -/
def doSignal (id : Int16) (rag : UInt8) : Exr Unit := do
  when (script.has Script.featureSignal) do
    -- Schedule any event handler for this signal change.
    handleEvent script w
      (if rag = signalRed then .onred else if rag = signalGreen then .ongreen else .onamber) id 0
    match script.signalLookup.find? id with
    | none => pure ()
    | some sigslot =>
      -- keep track of signal state
      setFlag sigslot.toUInt16 rag Tasks.signalMask
      match script.signalDefinitions[sigslot.toInt.toNat]? with
      | none => pure ()
      | some signal => showSignal script w signal id rag

/-- `RMFT2::isSignal` -/
def isSignal (t : Tasks) (id : Int16) (rag : UInt8) : Bool :=
  script.has Script.featureSignal &&
    match script.signalLookup.find? id with
    | none => false
    | some sigslot => t.flags sigslot.toUInt16 &&& Tasks.signalMask == rag

/-- `RMFT2::signalAspectEvent` -/
def signalAspectEvent (address : Int16) (aspect : UInt8) : Exr Bool := do
  if ¬ script.has Script.featureSignal then pure false
  else
    match (script.signalLookup.find? address).bind
        fun sigslot => script.signalDefinitions[sigslot.toInt.toNat]? with
    | none => pure false  -- this is not a defined signal
    | some signal =>
      if signal.type ≠ .dccx then pure false
      else if aspect.toUInt16 = signal.redpin then do
        doSignal script w address signalRed
        pure true
      else if aspect.toUInt16 = signal.amberpin then do
        doSignal script w address signalAmber
        pure true
      else if aspect.toUInt16 = signal.greenpin then do
        doSignal script w address signalGreen
        pure true
      else pure false

/-! ## Waiting, sensors and routes -/

/-- `RMFT2::delayMe` -/
def delayMe (this : Addr) (delay : UInt32) : Exr Unit :=
  writeTask this fun task => { task with delayTime := delay, delayStart := w.millis }

/-- `RMFT2::readSensor`: negative ids invert the logic. -/
def readSensor (t : Tasks) (sensorId : UInt16) : Bool :=
  let sId := sensorId.toInt16
  let vpin := UInt16.ofNat sId.toInt.natAbs
  if t.getFlag vpin Tasks.latchFlag then true  -- latched on
  else w.read vpin ^^ (sId < 0)

/-- `RMFT2::manageRouteState` -/
def manageRouteState (id : Int16) (state : UInt8) : Exr Unit :=
  match script.routeLookup.findPosition? id with
  | none => pure ()
  | some position =>
    when (script.compileFeatures ≠ 0)
      (modify fun s => { s with routeState := Function.update s.routeState position state })

/-- `RMFT2::ifRouteState` -/
def ifRouteState (s : Exrail) (id : Int16) (state : UInt8) : Bool :=
  script.compileFeatures != 0 &&
    match script.routeLookup.findPosition? id with
    | none => false
    | some position => s.routeState position == state

/-- `RMFT2::readLocoCallback` -/
def readLocoCallback (cv : Int16) : Exr Unit :=
  modify fun s => { s with
    progtrackLocoId :=
      if cv ≤ 0 then 0
      else if cv &&& 0x4000 ≠ 0 then  -- long addr
        let loco := cv ^^^ 0x4000
        if loco ≤ 127 then 0 else loco
      else cv }

/-- `RMFT2::createNewTask` -/
def createNewTask (route : Int16) (cab : UInt16) : Exr Unit := do
  let progCounter := script.findRoute route
  when (0 ≤ progCounter) do
    let _ ← newTask w progCounter cab false

end Exrail

end CommandStation
