import CommandStation.EXRAIL2.Parser

/-!
# The interpreter

`RMFT2::loop` gives the next task of the ring one step, `loop2`: the opcode at its program counter is
carried out, and unless that returns, the program counter moves on to the next cell. A condition that
fails, and an `ELSE` that is reached from above, make it skip to the end of the block first.

`execute` is the switch over the opcodes. `this` is the task that takes the step, `task` its object
as it was at the beginning of the switch; no opcode looks at a member after something else may have
changed it.
-/

namespace CommandStation.Exrail

open CommandStation.Lib

/-- How a case of the switch ends. -/
inductive Flow where
  | breaks
  | returns
  deriving DecidableEq, Repr

variable (script : Script) (w : Inputs) (this : Addr) (task : RMFT2) (operand : Int16)

/-- `m; break;` -/
def thenBreak {α : Type} (m : Exr α) : Exr Flow := do
  let _ ← m
  pure .breaks

/-- `m; return;` -/
def thenReturn {α : Type} (m : Exr α) : Exr Flow := do
  let _ ← m
  pure .returns

/-- `if (loco) m; break;` -/
def ifLoco {α : Type} (m : Exr α) : Exr Flow :=
  thenBreak (when (task.loco ≠ 0) do let _ ← m)

/-- `skipIf=c; break;` -/
def skipWhen (c : Exrail → Bool) : Exr Flow :=
  thenBreak (modify fun s => { s with skipIf := c s })

/-- Wait for a condition: `if (c) break; delayMe(delay); return;` -/
def waitUntil (c : Exrail → Bool) (delay : UInt32) : Exr Flow := do
  let s ← get
  if c s then pure .breaks else thenReturn (delayMe w this delay)

def operandU : UInt16 := operand.toUInt16

/-- The low byte of a word. -/
def lowByte (x : Int16) : UInt8 := x.toUInt16.toUInt8

/-- `getOperand(n)` -/
def arg (n : Nat) : UInt16 := script.getOperand task.progCounter n

/-! ## Conditions -/

/-- `skipIf` after a message that is a condition. -/
def messageSkips : Message → Bool
  | .ifLoco locolist => !(locolist.map Int16.toUInt16).contains task.loco
  | .ifAll vpinList => !vpinList.all fun vpin =>
      !(vpin < 0 && w.read (-vpin).toUInt16) && w.read vpin.toUInt16
  | .ifAny vpinList => !vpinList.any fun vpin =>
      (vpin < 0 && !w.read (-vpin).toUInt16) || w.read vpin.toUInt16
  | _ => false

/-- `skipIf` after a condition, and after `ELSE`. -/
def skips (op : Opcode) (s : Exrail) : Bool :=
  let id := operandU operand
  match op with
  | .iftimeout => task.blinkState != .atTimeout
  | .if_ => !readSensor w s.tasks id
  | .else_ => true  -- skip to matching ENDIF
  | .ifgte => w.readAnalogue id < s.platform.int (arg script task 1)
  | .iflt => s.platform.int (arg script task 1) ≤ w.readAnalogue id
  | .ifbitmapAll => UInt16.ofInt (w.readAnalogue id) &&& arg script task 1 != arg script task 1
  | .ifbitmapAny => UInt16.ofInt (w.readAnalogue id) &&& arg script task 1 == 0
  | .ifnot => readSensor w s.tasks id
  | .ifre => w.readAnalogue id ≠ s.platform.int (arg script task 1)
  | .ifrandom => (operand.toInt * 255).tdiv 100 ≤ w.micros.toUInt8.toNat
  | .ifreserve => s.tasks.getFlag id Tasks.sectionFlag
  | .ifred => !isSignal script s.tasks operand signalRed
  | .ifamber => !isSignal script s.tasks operand signalAmber
  | .ifgreen => !isSignal script s.tasks operand signalGreen
  | .ifthrown => Turnout.isClosed s.turnouts id
  | .ifclosed => Turnout.isThrown s.turnouts id
  | .ifstash => Stash.get s.stash operand == 0
  | .ifstashedHere => ((Stash.get s.stash operand) &&& 0x7FFF).toUInt16 != task.loco
  | .ifttposition => ((w.turntablePosition id).toNat : Int) ≠ s.platform.int (arg script task 1)
  | .ifRouteHidden => !ifRouteState script s operand 2
  | .ifRouteInactive => !ifRouteState script s operand 0
  | .ifRouteActive => !ifRouteState script s operand 1
  | .ifRouteDisabled => !ifRouteState script s operand 4
  | .ifloco | .print => messageSkips w task (script.messages id)
  | _ => false

/-! ## Speeds -/

/-- The speed after `SPEEDUP`. -/
def speedup (speed : UInt8) (operand : Int16) : UInt8 :=
  let newspeed := Int16.ofNat speed.toNat + operand
  if 127 < newspeed then 127 else if newspeed = 1 then 2  -- skip emergency stop
  else lowByte newspeed

/-- The speed after `SLOWDOWN`. -/
def slowdown (speed : UInt8) (operand : Int16) : UInt8 :=
  let newspeed := Int16.ofNat speed.toNat - operand
  if newspeed < 2 then 0 else lowByte newspeed

/-- The speed after `SPEED_REL`, in the `int` arithmetic of the platform. -/
def speedRel (platform : Platform) (speed : UInt8) (operand : Int16) : UInt8 :=
  let product : Int := match platform with
    | .uno | .avr => (Int16.ofNat speed.toNat * operand).toInt
    | .arm | .esp32 => speed.toNat * operand.toInt
  let newspeed := product.tdiv 100
  if 127 < newspeed then 127 else if newspeed = 1 then 0  -- skip emergency stop
  else UInt8.ofInt newspeed

/-- An opcode that changes the speed of the loco, unless it is stopped in an emergency. -/
def changeSpeed (least : UInt8) (f : Platform → UInt8 → UInt8) : Exr Flow :=
  ifLoco task do
    let s ← get
    let speed ← onStation (DCC.getThrottleSpeed task.loco)
    when (least ≤ speed ∧ speed ≠ 1) (setSpeed w task.loco (f s.platform speed))

/-! ## Sections -/

/-- `RESERVE` -/
def reserve : Exr Flow := do
  let taken ← getFlag (operandU operand) Tasks.sectionFlag
  if taken then
    when (task.loco ≠ 0) (setSpeed w task.loco 1)
    thenReturn (delayMe w this 500)
  else
    setFlag (operandU operand) Tasks.sectionFlag 0
    thenBreak (note (.acquired this (operandU operand)))

/-- `IFRESERVE` -/
def ifReserve : Exr Flow := do
  let taken ← getFlag (operandU operand) Tasks.sectionFlag
  if taken then thenBreak (modify fun s => { s with skipIf := true })
  else
    setFlag (operandU operand) Tasks.sectionFlag 0
    thenBreak (note (.acquired this (operandU operand)))

/-! ## Timers -/

/-- `100*getOperand(1)` in the `int` arithmetic of the platform. -/
def timeout (platform : Platform) (tenths : UInt16) : UInt32 :=
  match platform with
  | .uno | .avr => (100 * tenths).toUInt32
  | .arm | .esp32 => 100 * tenths.toUInt32

/-- Wait until a condition has held for a while: it restarts the timer as long as it does not
hold. -/
def waitAfter (c : Exrail → Bool) (time : UInt32) : Exr Flow := do
  let s ← get
  if c s then
    writeTask this fun task => { task with timer := w.millis }
    thenReturn (delayMe w this 50)
  else if w.millis - task.timer < time then pure .returns
  else pure .breaks

/-- `ATTIMEOUT2` -/
def atTimeout2 : Exr Flow := do
  let s ← get
  if readSensor w s.tasks (operandU operand) then pure .breaks  -- success without timeout
  else if timeout s.platform (arg script task 1) < w.millis - task.timer then
    thenBreak (writeTask this fun task => { task with blinkState := .atTimeout })
  else thenReturn (delayMe w this 50)

/-- The `AT` opcodes: `blinkState=not_blink_task`, then wait. -/
def at_ (c : Exrail → Bool) : Exr Flow := do
  writeTask this fun task => { task with blinkState := .notBlinkTask }
  waitUntil w this c 50

/-! ## Routes -/

/-- The program counter is moved to a route; the task is killed if there is none. -/
def jump (route : Int16) : Exr Flow := do
  let progCounter := script.findRoute route
  if progCounter < 0 then thenReturn (kill w this)
  else thenReturn (writeTask this fun task => { task with progCounter := progCounter })

/-- `callStack[stackDepth++]=position`, then on to the route; not with a full stack. -/
def callRoute (position : Int) (route : Int16) : Exr Flow := do
  if task.stackDepth = maxStackDepth then thenReturn (kill w this)
  else
    writeTask this fun task => { task with
      callStack := Function.update task.callStack task.stackDepth position
      stackDepth := task.stackDepth + 1 }
    jump script w this route

/-- `getOperand(1+(millis()%operand))`: one of the routes of a `RANDOM_…`. The number of an operand
is a byte. -/
def randomRoute : Int16 :=
  (arg script task ((1 + w.millis % UInt32.ofInt operand.toInt).toUInt8).toNat).toInt16

/-- `RETURN` -/
def returnFromCall : Exr Flow := do
  if task.stackDepth = 0 then thenReturn (kill w this)
  else thenReturn (writeTask this fun task => { task with
    progCounter := task.callStack (task.stackDepth - 1)
    stackDepth := task.stackDepth - 1 })

/-- The `START` opcodes: a new task on a route. -/
def startRoute (route : Int16) (loco : UInt16) (invert : Bool) (also : Exr Unit) : Exr Flow := do
  let progCounter := script.findRoute route
  thenBreak (when (0 ≤ progCounter) do
    let _ ← newTask w progCounter loco invert
    also)

/-! ## Other opcodes -/

/-- `SET` and `RESET` -/
def setPins : Exr Flow :=
  thenBreak (runProg (fun i => killBlinkOnVpin script w (operandU operand + UInt16.ofNat i) 1)
    (List.range (arg script task 1).toNat))

/-- `BLINK`: start a new task to blink this vpin. -/
def blink : Exr Flow := do
  killBlinkOnVpin script w (operandU operand) 1
  let newtask ← newTask w task.progCounter 0 false
  thenBreak (writeTask newtask fun task =>
    { task.setBlinkPin (operandU operand) with blinkState := .blinkLow })

/-- `RESUME`: this task first, then the others along the ring. -/
def resumeAll : Exr Flow := do
  onTasks (modify fun t => { t with pausingTask := .null })
  resume w this
  let first ← readTask this
  let s ← get
  thenBreak (loop (fun a _ => do
    if a = this then pure (none, ())
    else
      resume w a
      let task ← readTask a
      pure (some task.next, ())) Crash.endlessLoop s.tasks.live.length (some first.next) ())

/-- `SET_TRACK`: if DC/DCX use my loco for DC address. -/
def setTrack : Exr Flow :=
  let mode := (operandU operand >>> 8).toUInt8
  let cab := if TrackMode.has mode TrackMode.dc then task.loco.toInt16 else 0
  thenBreak (onRails (JoinStation.setTrackMode ((operandU operand).toNat % 16) mode cab true))

/-- `SET_POWER` -/
def setPower : Exr Flow :=
  let t := (arg script task 1).toNat % 256
  if operand = 0 then thenBreak (onStation (TrackManager.setPowerOfTrack .off t))
  else if operand = 1 then thenBreak (onStation (TrackManager.setPowerOfTrack .on t))
  else pure .breaks

/-- `TrackManager::setMainPower`, `setProgPower` -/
def setMainPower (mode : PowerMode) : Exr Unit :=
  onStation (TrackManager.setTrackPower TrackMode.main mode)

def setProgPower (mode : PowerMode) : Exr Unit :=
  onStation (TrackManager.setTrackPower TrackMode.prog mode)

def setJoin (joined : Bool) : Exr Unit := onRails (JoinStation.setJoin joined)

/-- `CONSIST` -/
def consist : Exr Flow :=
  thenBreak (if operand = 0 then
      onStation (onSlots (DCCConsist.deleteAnyConsist task.loco.toInt16))
    else do
      let _ ← onStation (onSlots (DCCConsist.addLocoToConsist task.loco
        (DCCConsist.locoIdOf operand) (operand < 0))))

/-- `IFLOCO` and `PRINT`: what the macros have generated in `printMessage`. -/
def printMessage : Exr Flow :=
  match script.messages (operandU operand) with
  | .text => pure .breaks
  | .parse c => thenBreak (command script w c)
  | message => skipWhen fun _ => messageSkips w task message

/-- `PICKUP_STASH` -/
def pickupStash : Exr Flow := do
  let s ← get
  let x := Stash.get s.stash operand
  thenBreak (writeTask this fun task =>
    if 0 ≤ x then { task with loco := x.toUInt16, invert := false }
    else { task with loco := (-x).toUInt16, invert := true })

/-- `TrackManager::isPowerOn(operand)`, for a track that exists. -/
def isPowerOn (s : Exrail) : Exr Bool :=
  match s.rails.station.tracks[(operandU operand).toNat % 256]? with
  | none => throw (.station .nullPointer)
  | some driver => pure (driver.powerMode = .on)

/-- `AFTEROVERLOAD`: waits for the power to be turned back on. -/
def afterOverload : Exr Flow := do
  let s ← get
  let on ← isPowerOn operand s
  waitAfter w this task (fun _ => !on) 500

/-! ## The switch -/

/-- `switch ((OPCODE)opcode)`; `none` is a byte that is no opcode. -/
def execute : Option Opcode → Exr Flow
  | none => thenBreak (kill w this)
  | some op =>
    let id := operandU operand
    match op with
    | .throw => thenBreak (setClosed script w id false)
    | .close => thenBreak (setClosed script w id true)
    | .toggleTurnout => do
      let s ← get
      thenBreak (setClosed script w id (Turnout.isThrown s.turnouts id))
    | .rotate => thenBreak (setPosition script w id (arg script task 1).toUInt8)
    | .rev => ifLoco task (setThrottle w task.loco (lowByte operand) task.invert)
    | .fwd => ifLoco task (setThrottle w task.loco (lowByte operand) (!task.invert))
    | .speed => ifLoco task (setSpeed w task.loco (lowByte operand))
    | .saveSpeed => ifLoco task (onStation (DCC.saveSpeed task.loco))
    | .restoreSpeed => ifLoco task (onStation (DCC.restoreSpeed task.loco w.millis))
    | .xsaveSpeed => thenBreak (onStation (DCC.saveSpeed id))
    | .xrestoreSpeed => thenBreak (onStation (DCC.restoreSpeed id w.millis))
    | .speedup => changeSpeed w task 0 fun _ speed => speedup speed operand
    -- do nothing if speed is 0 (stop) or 1 (emergency stop)
    | .speedRel => changeSpeed w task 2 fun platform speed => speedRel platform speed operand
    | .slowdown => changeSpeed w task 0 fun _ speed => slowdown speed operand
    | .momentum => do
      let s ← get
      thenBreak (onStation (DCC.setMomentum (s.platform.int task.loco) operand
        (arg script task 1).toInt16))
    | .estopall =>
      if operand = 0 then thenBreak (onStation DCC.estopAll)     -- all locos stop
      else thenBreak (onStation (DCC.estopLock (operand = 1)))   -- stop and lock/unlock
    | .forget => ifLoco task do
      onStation (DCC.forgetLoco task.loco.toNat)
      writeTask this fun task => { task with loco := 0 }
    | .consist => consist task operand
    | .invertDirection => thenBreak (writeTask this fun task => { task with invert := !task.invert })
    | .reserve => reserve w this task operand
    | .free => do
      note (.freed id)
      thenBreak (setFlag id 0 Tasks.sectionFlag)
    | .freeall => thenBreak freeAll
    | .at_ => at_ w this fun s => readSensor w s.tasks id
    | .atgte => at_ w this fun s => s.platform.int (arg script task 1) ≤ w.readAnalogue id
    | .atlt => at_ w this fun s => w.readAnalogue id < s.platform.int (arg script task 1)
    | .attimeout1 => thenBreak (writeTask this fun task =>
        { task with timer := w.millis, blinkState := .notBlinkTask })
    | .attimeout2 => atTimeout2 script w this task operand
    | .after => waitAfter w this task (fun s => readSensor w s.tasks id) (arg script task 1).toUInt32
    | .afteroverload => afterOverload w this task operand
    | .latch => thenBreak (setFlag id Tasks.latchFlag 0)
    | .unlatch => thenBreak (setFlag id 0 Tasks.latchFlag)
    | .set => setPins script w task operand
    | .reset => setPins script w task operand
    | .blink => blink script w task operand
    | .pause => do
      onStation DCC.estopAll  -- pause all locos on the track
      thenBreak (onTasks (modify fun t => { t with pausingTask := .task this }))
    | .pom => do
      let s ← get
      ifLoco task (onStation (DCC.writeCVByteMain (s.platform.int task.loco) id
        (arg script task 1).toUInt8))
    | .xpom => thenBreak (onStation (DCC.writeCVByteMain operand.toInt (arg script task 1)
        (arg script task 2).toUInt8))
    | .poweroff => do
      setMainPower .off
      setProgPower .off
      thenBreak (setJoin false)
    | .setPower => setPower script task operand
    | .setTrack => setTrack task operand
    | .setfreq => do
      let s ← get
      thenBreak (onStation (DCC.setDCFreq (s.platform.int task.loco) (lowByte operand)))
    | .resume => resumeAll w this
    | .iftimeout | .if_ | .else_ | .ifgte | .iflt | .ifbitmapAll | .ifbitmapAny | .ifnot | .ifre
    | .ifrandom | .ifred | .ifamber | .ifgreen | .ifthrown | .ifclosed | .ifstash | .ifstashedHere
    | .ifttposition | .ifRouteHidden | .ifRouteInactive | .ifRouteActive | .ifRouteDisabled =>
      skipWhen (skips script w task operand op)
    | .ifreserve => ifReserve this operand
    | .waitWhileRed => do
      let s ← get
      if isSignal script s.tasks operand signalRed then
        when (task.loco ≠ 0) do
          let speed ← onStation (DCC.getLocoSpeedByte task.loco)
          when (1 < speed &&& 0x7F) (setSpeed w task.loco 0)
        thenReturn (delayMe w this 500)
      else pure .breaks
    | .endif => pure .breaks
    | .delayms => thenBreak (delayMe w this (UInt32.ofInt operand.toInt))
    | .delay => thenBreak (delayMe w this (UInt32.ofInt (operand.toInt * 100)))
    | .delaymins => thenBreak (delayMe w this (UInt32.ofInt (operand.toInt * 60 * 1000)))
    | .randwait => thenBreak (delayMe w this
        (if operand = 0 then 0 else w.micros % UInt32.ofInt operand.toInt * 100))
    | .red => thenBreak (doSignal script w operand signalRed)
    | .amber => thenBreak (doSignal script w operand signalAmber)
    | .green => thenBreak (doSignal script w operand signalGreen)
    | .fon => do
      let s ← get
      ifLoco task (onStation (DCC.setFn (s.platform.int task.loco) operand true))
    | .foff => do
      let s ← get
      ifLoco task (onStation (DCC.setFn (s.platform.int task.loco) operand false))
    | .ftoggle => do
      let s ← get
      ifLoco task (onStation (DCC.changeFn (s.platform.int task.loco) operand))
    | .xfon => thenBreak (onStation (DCC.setFn operand.toInt (arg script task 1).toInt16 true))
    | .xfoff => thenBreak (onStation (DCC.setFn operand.toInt (arg script task 1).toInt16 false))
    | .xftoggle => thenBreak (onStation (DCC.changeFn operand.toInt (arg script task 1).toInt16))
    | .xfwd => thenBreak (setThrottle w id (arg script task 1).toUInt8 true)
    | .xrev => thenBreak (setThrottle w id (arg script task 1).toUInt8 false)
    | .dccactivate =>
      -- operand is address<<3 | subaddr<<1 | active
      thenBreak (setAccessory script w (operand >>> 3).toInt
        (id >>> 1 &&& 0x03).toUInt8 (id &&& 0x01 ≠ 0) 2)
    | .aspect => do
      -- operand is address<<5 |  value
      let handled ← signalAspectEvent script w (operand >>> 5) (id &&& 0x1f).toUInt8
      thenBreak (when (handled = false) do
        let _ ← onStation (DCC.setExtendedAccessory (operand >>> 5) (operand &&& 0x1f)))
    | .follow => jump script w this operand
    | .call => callRoute script w this task (task.progCounter + 3) operand
    | .randomFollow => jump script w this (randomRoute script w task operand)
    -- return position is after the RANDOM_CALL + all its operands
    | .randomCall => callRoute script w this task (task.progCounter + 3 * (operand.toInt + 1))
        (randomRoute script w task operand)
    | .return_ => returnFromCall w this task
    | .endtask | .endexrail => thenReturn (kill w this)
    | .killall => thenReturn (killAll w)
    | .join => do
      setJoin true
      setMainPower .on
      thenBreak (setProgPower .on)
    | .unjoin => thenBreak (setJoin false)
    | .readLoco1 => do
      modify fun s => { s with progtrackLocoId := -99 }  -- nothing found yet
      thenBreak (onRails (JoinStation.setup w.canMeasureCurrent))
    | .readLoco2 => do
      let s ← get
      if s.progtrackLocoId = -99 then thenReturn (delayMe w this 100)  -- still waiting for callback
      else thenBreak (writeTask this fun task =>
        { task with loco := s.progtrackLocoId.toUInt16, invert := false })
    | .poweron => do
      setMainPower .on
      thenBreak (setJoin false)
    | .start => startRoute script w operand 0 false (pure ())
    | .startShared => startRoute script w operand task.loco task.invert (pure ())
    | .startSend => startRoute script w operand task.loco task.invert
        (writeTask this fun task => { task with loco := 0 })
    | .sendloco => startRoute script w (arg script task 1).toInt16 id false (pure ())
    | .setloco => thenBreak (writeTask this fun task => { task with loco := id, invert := false })
    | .waitfor => waitUntil w this (fun _ => !w.isBusy id) 100
    | .neopixel =>
      -- OPCODE_NEOPIXEL,V([-]vpin),OPCODE_PAD,V(colour_RG),OPCODE_PAD,V(colour_B),OPCODE_PAD,V(count)
      thenBreak (killBlinkOnVpin script w (if 0 < operand then operand else -operand).toUInt16
        (arg script task 3))
    | .waitfortt => waitUntil w this (fun _ => !w.turntableMoving id) 100
    | .ifloco | .print => printMessage script w task operand
    | .routeHidden => thenBreak (manageRouteState script operand 2)
    | .routeInactive => thenBreak (manageRouteState script operand 0)
    | .routeActive => thenBreak (manageRouteState script operand 1)
    | .routeDisabled => thenBreak (manageRouteState script operand 4)
    | .stash => thenBreak (modify fun s => { s with
        stash := Stash.set s.stash operand
          (if task.invert then -task.loco.toInt16 else task.loco.toInt16) })
    | .clearStash => thenBreak (modify fun s => { s with stash := Stash.clear s.stash operand })
    | .clearAllStash => thenBreak (modify fun s => { s with stash := Stash.clearAll s.stash })
    | .clearAnyStash => ifLoco task
        (modify fun s => { s with stash := Stash.clearAny s.stash task.loco.toInt16 } : Exr Unit)
    | .pickupStash => pickupStash this operand
    -- route headers, definitions and event catchers; what is only sent to a device or the adapter
    | .route | .automation | .sequence | .drive | .autostart | .pad | .turnout | .servoturnout
    | .pinturnout | .onclose | .onlcc | .onacon | .onacof | .onthrow | .onactivate | .ondeactivate
    | .onred | .onamber | .ongreen | .onchange | .ontime | .onbutton | .onsensor | .onbitmap
    | .dccturntable | .exttturntable | .ttaddposition | .onrotate | .onoverload | .onblockenter
    | .onblockexit | .lcc | .acon | .acof | .lccx | .servo | .bitmapInc | .bitmapDec | .bitmapAnd
    | .bitmapOr | .bitmapXor => pure .breaks
    | .onrailsyncon | .onrailsyncoff =>
      if script.boosterInput then pure .breaks else thenBreak (kill w this)
    -- there is no case for these
    | .signal | .roster | .onclocktime | .onvpSensor | .ifTypeOpcodes => thenBreak (kill w this)

/-! ## Skipping -/

/-- The program counter of `this`. It is read and moved also when the task has just been killed, in
the memory that its object had. -/
def progCounterOf (s : Exrail) (this : Addr) : Int := (s.tasks.mem this).progCounter

def moveTo (this : Addr) (progCounter : Int) : Exr Unit :=
  onTasks (modify (Tasks.write this fun task => { task with progCounter := progCounter }))

/-- The loop of `skipIfBlock`: the program counter where it stops, and whether that is the end of a
block. `nest` is a `short`. -/
def skipFrom (script : Script) : Nat → Int16 → Int → Option (Int × Bool)
  | 0, _, _ => none
  | fuel + 1, nest, progCounter =>
    if nest ≤ 0 then some (progCounter, true)
    else
      let progCounter := progCounter + 3
      let opcode := script.getOpcode progCounter
      -- all other IF type commands increase the nesting level
      if Opcode.opensIf opcode then skipFrom script fuel (nest + 1) progCounter
      else if opcode = Opcode.endexrail.toByte then some (progCounter, false)  -- missing ENDIF
      else if opcode = Opcode.endif.toByte then skipFrom script fuel (nest - 1) progCounter
      -- if nest==1 then this is the ELSE for the IF we are skipping
      else if opcode = Opcode.else_.toByte ∧ nest = 1 then skipFrom script fuel 0 progCounter
      else skipFrom script fuel nest progCounter

/-- `RMFT2::skipIfBlock`: false if killed. The scan does not go beyond the last cell of the
script. -/
def skipIfBlock : Exr Bool := do
  let s ← get
  match skipFrom script (script.lastCell + 2) 1 (progCounterOf s this) with
  | none => throw .endlessLoop
  | some (progCounter, found) =>
    moveTo this progCounter
    when (found = false) (kill w this)
    pure found

/-! ## The loop -/

/-- The end of `loop2`: unless the switch returns, move on to the next opcode, after the block if the
condition failed. -/
def proceed (flow : Flow) : Exr Unit :=
  match flow with
  | .returns => pure ()
  | .breaks => do
    let s ← get
    let found ← if s.skipIf then skipIfBlock script w this else pure true
    when found do
      let s ← get
      moveTo this (progCounterOf s this + 3)

/-- The blink tasks of `loop2`. -/
def blinkStep : Exr Unit :=
  match task.blinkState with
  | .blinkLow => do
    writeTask this fun task => { task with blinkState := .blinkHigh }
    delayMe w this (arg script task 1).toUInt32
  | _ => do
    writeTask this fun task => { task with blinkState := .blinkLow }
    delayMe w this (arg script task 2).toUInt32

/-- `RMFT2::loop2` -/
def loop2 : Exr Unit := do
  let task ← readTask this
  if task.delayTime ≠ 0 ∧ w.millis - task.delayStart < task.delayTime then pure ()
  else if script.has Script.featureBlink ∧ task.isBlink then blinkStep script w this task
  else
    -- skipIf will get set to indicate a failing IF condition
    modify fun s => { s with skipIf := false }
    let flow ← execute script w this task (arg script task 0).toInt16
      (Opcode.ofByte (script.getOpcode task.progCounter))
    proceed script w this flow

/-- The tasks that get service: all of them, or the one that has paused the others. -/
def serviced (t : Tasks) (a : Addr) : Prop := t.pausingTask = .null ∨ t.pausingTask = .task a

instance (t : Tasks) (a : Addr) : Decidable (serviced t a) := inferInstanceAs (Decidable (_ ∨ _))

/-- `RMFT2::loop`: a round robin call to a task each time. -/
def loop : Exr Unit := do
  let s ← get
  match s.tasks.loopTask with
  | none => pure ()
  | some a =>
    let task ← readTask a
    onTasks (modify fun t => { t with loopTask := some task.next })
    when (serviced s.tasks task.next) (loop2 script w task.next)

/-! ## Histories -/

/-- A call from the main loop, or a command; with what it reads from outside. -/
inductive Turn where
  | loop (w : Inputs)
  | command (w : Inputs) (c : Command)

def Turn.exec : Turn → Exr Unit
  | .loop w => Exrail.loop script w
  | .command w c => Exrail.command script w c

/-- The end of `RMFT2::begin`: signals are set red, and tasks are started at the `AUTOSTART`
opcodes. -/
def begin (script : Script) (w : Inputs) : Exr Unit := do
  when (script.has Script.featureSignal)
    (runProg (fun entry : Int16 × Int16 => doSignal script w entry.1 signalRed) script.signalLookup)
  runProg (fun progCounter => newTask w progCounter 0 false)
    (script.cells.filter fun progCounter =>
      script.getOpcode progCounter == Opcode.autostart.toByte)

/-- A history: the start-up and the calls that follow it. -/
def history (script : Script) (w : Inputs) (turns : List Turn) : Exr Unit := do
  begin script w
  runProg (Turn.exec script) turns

/-- The statics at start-up, for a memory that may hold anything. -/
def init (rails : JoinStation) (turnouts : List Turnout) (mem : Addr → RMFT2) : Exrail where
  rails := rails
  turnouts := turnouts
  stash := []
  tasks := Tasks.init mem
  skipIf := false
  progtrackLocoId := 0
  routeState _ := 0
  onLCCLookup _ := 0
  lccProgCounter := 0
  lccEventIndex := 0

end CommandStation.Exrail
