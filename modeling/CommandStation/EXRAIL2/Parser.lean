import CommandStation.EXRAIL2.Basic

/-!
# Commands of EXRAIL

The commands `</ …>` with which a user looks into the automation and interferes with it, and the
other calls from outside that create tasks or change what scripts work on. What the commands print is
left out.
-/

namespace CommandStation.Exrail

open CommandStation.Lib

variable (script : Script) (w : Inputs)

/-- `if (condition) { program; return true; } return false;` -/
def guarded (c : Prop) [Decidable c] (m : Exr Unit) : Exr Bool :=
  if c then do
    m
    pure true
  else pure false

/-- `</ PAUSE>` -/
def slashPause : Exr Unit := do
  -- pause all tasks
  let _ ← eachTask fun a => do
    pause a
    pure false
  onStation DCC.estopAll  -- pause all locos on the track
  onTasks (modify fun t => { t with pausingTask := .external })

/-- `</ RESUME>` -/
def slashResume : Exr Unit := do
  onTasks (modify fun t => { t with pausingTask := .null })
  -- resume all tasks
  let _ ← eachTask fun a => do
    resume w a
    pure false

/-- Free all sections, and note that they are free. -/
def freeAll : Exr Unit := do
  onTasks (modify Tasks.freeAllSections)
  note .freedAll

/-- `</ START [cab] route>` -/
def slashStart (paramCount : UInt8) (p : Nat → Int16) : Exr Bool := do
  let route := if paramCount = 2 then p 1 else p 2
  let cab := if paramCount = 2 then 0 else (p 1).toUInt16
  let progCounter := script.findRoute route
  guarded (0 ≤ progCounter) do
    let _ ← newTask w progCounter cab false

/-- `</ KILL taskid>`: whether there was such a task. -/
def slashKill (id : Int16) : Exr Bool :=
  if id < 0 ∨ Tasks.maxFlags ≤ id.toInt.toNat then pure false
  else eachTask fun a => do
    let task ← readTask a
    guarded (task.taskId.toNat = id.toInt) (kill w a)

/-- A flag is set or cleared by force. -/
def slashFlag (id : Int16) (onMask offMask : UInt8) : Exr Bool := do
  setFlag id.toUInt16 onMask offMask
  pure (Tasks.flagInRange id.toUInt16)

/-- `</ FREE id>` -/
def slashFree (id : Int16) : Exr Bool := do
  note (.freed id.toUInt16)
  slashFlag id 0 Tasks.sectionFlag

/-- The commands with one parameter. -/
def slashOne (keyword p : Int16) : Exr Bool :=
  if keyword = hk "KILL" then slashKill w p
  else if keyword = hk "RESERVE" then slashFlag p Tasks.sectionFlag 0  -- force reserve a section
  else if keyword = hk "FREE" then slashFree p                         -- force free a section
  else if keyword = hk "LATCH" then slashFlag p Tasks.latchFlag 0
  else if keyword = hk "UNLATCH" then slashFlag p 0 Tasks.latchFlag
  else if keyword = hk "RED" then guarded True (doSignal script w p signalRed)
  else if keyword = hk "AMBER" then guarded True (doSignal script w p signalAmber)
  else if keyword = hk "GREEN" then guarded True (doSignal script w p signalGreen)
  else pure false

/-- `RMFT2::parseSlash`. Of the parameters, `p 0` is the keyword; those behind `paramCount` are what
the array held. -/
def parseSlash (paramCount : UInt8) (p : Nat → Int16) : Exr Bool :=
  if paramCount = 0 then pure true  -- STATUS
  else if p 0 = hk "PAUSE" then guarded (paramCount = 1) slashPause
  else if p 0 = hk "RESUME" then guarded (paramCount = 1) (slashResume w)
  else if p 0 = hk "FREEALL" then guarded (paramCount = 1) freeAll
  else if p 0 = hk "START" then
    if paramCount < 2 ∨ 3 < paramCount then pure false else slashStart script w paramCount p
  else if p 0 = hk "KILL" ∧ p 1 = hk "ALL" then guarded True (killAll w)
  -- all other / commands take 1 parameter
  else if paramCount ≠ 2 then pure false
  else slashOne script w (p 0) (p 1)

/-! ## The LCC adapter -/

def featureLCC : UInt8 := 0x40

/-- The opcodes that end the scan for `<L>`, with the number of cells they take. -/
def lccCells : Opcode → Option Nat
  | .endexrail => some 0
  | .lcc => some 1
  | .lccx | .onlcc => some 4
  | .acon | .acof | .onacon | .onacof => some 2
  | _ => none

/-- The opcodes that listen to an event of the adapter. -/
def listensToLcc : Opcode → Bool
  | .onlcc | .onacon | .onacof => true
  | _ => false

/-- The next cell from a program counter on that the adapter is told about. -/
def nextLcc (fuel : Nat) (progCounter : Int) : Option (Opcode × Nat × Int) :=
  match fuel with
  | 0 => none
  | fuel + 1 =>
    match (Opcode.ofByte (script.getOpcode progCounter)).bind
        fun op => (lccCells op).map fun n => (op, n) with
    | some (op, n) => some (op, n, progCounter)
    | none => nextLcc fuel (progCounter + 3)

/-- `<L>`: one event is announced, and the handlers of events are noted. -/
def introduceLcc : Exr Unit := do
  let s ← get
  match nextLcc script (script.lastCell + 1) s.lccProgCounter with
  | none => throw .endlessLoop
  | some (op, n, progCounter) =>
    if op = .endexrail then
      modify fun s => { s with lccProgCounter := 0, lccEventIndex := 0 }
    else
      let next := progCounter + 3 * n
      when (listensToLcc op) (modify fun s => { s with
        onLCCLookup := Function.update s.onLCCLookup s.lccEventIndex next
        lccEventIndex := s.lccEventIndex + 1 })
      modify fun s => { s with lccProgCounter := next }

/-- `<L eventid>` -/
def lccEvent (eventid : Int16) : Exr Unit := do
  let s ← get
  when (0 ≤ eventid ∧ eventid.toInt < script.countLCCLookup)
    (startNonRecursiveTask w (s.onLCCLookup eventid.toInt.toNat) 0)

/-! ## All commands -/

def command : Command → Exr Unit
  | .slash paramCount p => do let _ ← parseSlash script w paramCount p
  | .aspect address value => do
    let handled ← signalAspectEvent script w address value.toUInt16.toUInt8
    when (handled = false) do
      let _ ← onStation (DCC.setExtendedAccessory address value)
  | .lcc => when (script.has featureLCC) (introduceLcc script)
  | .lccEvent eventid => when (script.has featureLCC) (lccEvent script w eventid)
  | .block block loco entering => blockEvent script w block loco entering
  | .setClosed id closed => setClosed script w id closed
  | .setClosedStateOnly id closed => setClosedStateOnly script w id closed
  | .setTurnouts turnouts => modify fun s => { s with turnouts := turnouts }
  | .setAccessory address port gate onoff => setAccessory script w address port gate onoff
  | .setPosition turntable position => setPosition script w turntable position
  | .changeEvent vpin change => changeEvent script w vpin change
  | .clockEvent clocktime change => clockEvent script w clocktime change
  | .powerEvent track overload => powerEvent script w track overload
  | .railsyncEvent on => railsyncEvent script w on
  | .createNewTask route cab => createNewTask script w route cab
  | .sensor progCounter => do let _ ← newTask w progCounter 0 false
  | .readLocoCallback cv => readLocoCallback cv
  | .station op => do let _ ← onStation op.exec
  | .tracks op => onRails op.exec

end CommandStation.Exrail
