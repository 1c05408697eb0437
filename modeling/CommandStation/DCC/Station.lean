import CommandStation.DCCQueue.Basic
import CommandStation.DCCConsist.Basic

/-!
# The station

`Station` puts together what the throttle side of the command station works on: the loco table, the
packet queues, the tracks of `TrackManager` and the statics of `DCC`. `Dcc` are the programs on it.

A DC track has no packets. Its motor driver is given a speed code as a PWM signal on the brake pin:
`MotorDriver::setDCSignal`. The model keeps the signal a driver was given last, and as a history
variable that no branch reads the log of all signals given to tracks (newest first).

Not in the model: pins and timers, the waveform of the tracks, overload protection, messages to
throttles.
-/

namespace CommandStation

open CommandStation.Lib

/-! ## Tracks -/

inductive Platform where
  | uno | avr | arm | esp32
  deriving DecidableEq, Repr

/-- An `int` of the platform holding a loco id: 16 bits on the AVR boards, 32 on the others. -/
def Platform.int (platform : Platform) (loco : UInt16) : Int :=
  match platform with
  | .uno | .avr => loco.toInt16.toInt
  | .arm | .esp32 => loco.toNat

/-- What the brake pin of a motor driver is wired to. -/
inductive BrakePin where
  | unused | plain | pwm
  deriving DecidableEq, Repr

inductive PowerMode where
  | off | on | overload | alert
  deriving DecidableEq, Repr

namespace TrackMode

def none : UInt8 := 1
def main : UInt8 := 2
def prog : UInt8 := 4
def dc : UInt8 := 8
def ext : UInt8 := 16

/-- `mode & bits`, as a condition. -/
def has (mode bits : UInt8) : Bool := mode &&& bits != 0

end TrackMode

/-- `class MotorDriver` with its entry of `trackDCAddr`. `signal` is the speed code and frequency
of the PWM on the brake pin. -/
structure MotorDriver where
  brakePin : BrakePin
  trackMode : UInt8
  powerMode : PowerMode
  dcAddr : Int16
  signal : Option (UInt8 × UInt8)
  deriving DecidableEq, Repr

namespace MotorDriver

/-- A driver as `addTrack` leaves it. -/
def new (brakePin : BrakePin) : MotorDriver where
  brakePin := brakePin
  trackMode := TrackMode.none
  powerMode := .off
  dcAddr := 0
  signal := none

/-- The track is in a DC mode (`TRACK_MODE_DC` or its inverted form). -/
def isDC (driver : MotorDriver) : Bool := TrackMode.has driver.trackMode TrackMode.dc

def brakeCanPWM (driver : MotorDriver) : Bool := driver.brakePin == .pwm

end MotorDriver

/-- A signal given to a track, with the mode the track was in. -/
structure DCSignal where
  track : Nat
  trackMode : UInt8
  speedCode : UInt8
  deriving DecidableEq, Repr

/-! ## The state -/

structure Station where
  platform : Platform
  locos : LocoTable
  queue : DCCQueue.State
  tracks : List MotorDriver
  dcSignals : List DCSignal
  estopIsLocked : Bool
  defaultMomentumA : UInt8
  defaultMomentumD : UInt8
  linearAcceleration : Bool
  globalSpeedsteps : UInt8
  loopStatus : Nat
  nextLocoReminder : Option Addr
  decoderActive : Bool

/-- The station at start-up, for a motor shield whose drivers have the given brake pins. -/
def Station.init (platform : Platform) (maxLocos : Nat) (brakePins : List BrakePin) : Station where
  platform := platform
  locos := LocoTable.init maxLocos
  queue := DCCQueue.init
  tracks := brakePins.map MotorDriver.new
  dcSignals := []
  estopIsLocked := false
  defaultMomentumA := 0
  defaultMomentumD := 0
  linearAcceleration := false
  globalSpeedsteps := 128
  loopStatus := 0
  nextLocoReminder := none
  decoderActive := false

abbrev Dcc (α : Type) : Type := Prog Station Fault α

/-- An operation on the loco table. -/
def onSlots {α : Type} (m : Slots α) : Dcc α :=
  zoom Station.locos (fun s locos => { s with locos := locos }) m

/-- A schedule call of the packet queues. -/
def schedule (c : DCCQueue.Call) : Dcc Unit :=
  modify fun s => { s with queue := DCCQueue.step s.queue c }

/-- `DCCQueue::scheduleNext` with its result. -/
def scheduleNext (force : Bool) (now : UInt32) : Dcc Bool := do
  let s ← get
  schedule (.scheduleNext force now)
  pure (DCCQueue.scheduleNext force now s.queue).2

/-- A loop along the pointers of the loco table. -/
def followSlots {β : Type} (body : Addr → β → Dcc (Option Addr × β)) (start : Option Addr) (b : β) :
    Dcc β := do
  let s ← get
  loop body .endlessLoop s.locos.fresh start b

/-! ## What tracks ask of `DCC` -/

namespace DCC

/-- `DCC::getLocoSpeedByte`: 128 (speed 0, dir forward) on "loco not found". -/
def getLocoSpeedByte (cab : UInt16) : Dcc UInt8 := onSlots do
  let slot ← LocoSlot.getSlot cab false
  match slot with
  | some a =>
    let slot ← readSlot a
    pure slot.speedCode
  | none => pure 128

/-- `DCC::getThrottleFrequency`: 0 to 7, the functions F29 to F31. -/
def getThrottleFrequency (cab : UInt16) : Dcc UInt8 := do
  let s ← get
  if s.platform = .uno then pure 0
  else onSlots do
    let slot ← LocoSlot.getSlot cab false
    match slot with
    | some a =>
      let slot ← readSlot a
      pure (slot.functions >>> 29).toUInt8
    | none => pure 0  -- default frequency

end DCC

/-! ## `TrackManager` -/

namespace TrackManager

/-- `FOR_EACH_TRACK(t)` -/
def forEachTrack (body : Nat → Dcc Unit) : Dcc Unit := do
  let s ← get
  runProg body (List.range s.tracks.length)

/-- Write some members of the driver of track `t`. -/
def setTrack (t : Nat) (f : MotorDriver → MotorDriver) : Dcc Unit :=
  modify fun s => { s with tracks := s.tracks.modify t f }

/-- `track[t]->setDCSignal(speedcode, frequency)`: a driver without a brake pin ignores it. -/
def driveTrack (t : Nat) (speedcode frequency : UInt8) : Dcc Unit :=
  modify fun s =>
    match s.tracks[t]? with
    | none => s
    | some driver =>
      if driver.brakePin = .unused then s
      else { s with
        tracks := s.tracks.set t { driver with signal := some (speedcode, frequency) }
        dcSignals := ⟨t, driver.trackMode, speedcode⟩ :: s.dcSignals }

/-- `track[t]->detachDCSignal()`: the boards with a PWM unit of their own take the pin off it, the
AVR boards send a stop. -/
def detachDCSignal (t : Nat) : Dcc Unit := do
  let s ← get
  match s.platform with
  | .uno | .avr => driveTrack t 128 0
  | .arm | .esp32 => setTrack t fun driver => { driver with signal := none }

/-- `TrackManager::applyDCSpeed` for the track `t` with DC address `dcAddr`. -/
def applyDCSpeed (t : Nat) (dcAddr : Int16) : Dcc Unit := do
  let speedcode ← DCC.getLocoSpeedByte dcAddr.toUInt16
  let frequency ← DCC.getThrottleFrequency dcAddr.toUInt16
  driveTrack t speedcode frequency

/-- The body of the loop of `TrackManager::setDCSignal`. -/
def setDCSignalOn (cab : Int16) (speedbyte : UInt8) (t : Nat) : Dcc Unit := do
  let s ← get
  match s.tracks[t]? with
  | none => pure ()
  | some driver =>
    if driver.dcAddr ≠ cab ∧ cab ≠ 0 then pure ()
    else if driver.isDC then do
      let frequency ← DCC.getThrottleFrequency driver.dcAddr.toUInt16
      driveTrack t speedbyte frequency
    else pure ()

/-- `TrackManager::setDCSignal`: the tracks of the cab, all DC tracks for cab 0. -/
def setDCSignal (cab : Int16) (speedbyte : UInt8) : Dcc Unit :=
  forEachTrack (setDCSignalOn cab speedbyte)

/-- Only one track may be prog: the body of that loop of `setTrackMode`. -/
def revokeProg (trackToSet t : Nat) : Dcc Unit :=
  if t = trackToSet then pure ()
  else setTrack t fun driver =>
    if TrackMode.has driver.trackMode TrackMode.prog then
      { driver with powerMode := .off, trackMode := TrackMode.none }
    else driver

/-- The part of `setTrackMode` that clears the side effects of the previous state. -/
def clearPrevious (trackToSet : Nat) (oldAddr : Int16) (mode : UInt8) (dcAddr : Int16) :
    Dcc Unit :=
  if TrackMode.has mode TrackMode.dc then do
    when (oldAddr ≠ dcAddr ∧ oldAddr ≠ 0) (detachDCSignal trackToSet)
    setTrack trackToSet fun driver => { driver with dcAddr := dcAddr }
  else do
    -- DCC tracks need to have set the PWM to zero or they will not work.
    detachDCSignal trackToSet
    setTrack trackToSet fun driver => { driver with dcAddr := 0 }

/-- `TrackManager::setTrackMode` -/
def setTrackMode (trackToSet : Nat) (mode : UInt8) (dcAddr : Int16) (offAtChange : Bool) :
    Dcc Bool := do
  let s ← get
  match s.tracks[trackToSet]? with
  | none => pure false
  | some driver =>
    -- DC tracks require a motorDriver that can set brake!
    if TrackMode.has mode TrackMode.dc ∧ (s.platform = .uno ∨ driver.brakeCanPWM = false) then
      pure false
    else
      when (TrackMode.has mode TrackMode.prog) (forEachTrack (revokeProg trackToSet))
      clearPrevious trackToSet driver.dcAddr mode dcAddr
      setTrack trackToSet fun driver => { driver with trackMode := mode }
      when (TrackMode.has mode TrackMode.dc) (applyDCSpeed trackToSet dcAddr)
      -- Turn off power if we changed the mode of this track
      when (mode ≠ driver.trackMode ∧ offAtChange)
        (setTrack trackToSet fun driver => { driver with powerMode := .off })
      pure true

/-- The body of the loop of `setTrackPower` for all tracks with a mode. -/
def setTrackPowerOn (trackmodeToMatch : UInt8) (powermode : PowerMode) (t : Nat) : Dcc Unit := do
  let s ← get
  match s.tracks[t]? with
  | none => pure ()
  | some driver =>
    if TrackMode.has driver.trackMode trackmodeToMatch then
      when (powermode = .on ∧ driver.isDC) (applyDCSpeed t driver.dcAddr)
      setTrack t fun driver => { driver with powerMode := powermode }
    else pure ()

/-- `TrackManager::setTrackPower(TRACK_MODE, POWERMODE)`: all tracks with this mode. -/
def setTrackPower (trackmodeToMatch : UInt8) (powermode : PowerMode) : Dcc Unit :=
  forEachTrack (setTrackPowerOn trackmodeToMatch powermode)

/-- `TrackManager::setTrackPower(POWERMODE, byte)`: one track, independent of mode. -/
def setPowerOfTrack (powermode : PowerMode) (t : Nat) : Dcc Unit := do
  let s ← get
  match s.tracks[t]? with
  | none => pure ()
  | some driver =>
    if TrackMode.has driver.trackMode TrackMode.none then
      -- Track is unused. Force it to OFF
      setTrack t fun driver => { driver with powerMode := .off }
    else
      when (driver.isDC ∧ powermode = .on) (applyDCSpeed t driver.dcAddr)
      setTrack t fun driver => { driver with powerMode := powermode }

end TrackManager

end CommandStation
