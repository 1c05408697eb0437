import CommandStation.TrackManager.Basic

/-!
# The overload protection of a track

`checkPowerOverload` is called for one track after the other. It takes a sample of the current and
of the fault pin and moves the track between `ON`, `ALERT` and `OVERLOAD`; `OFF` is entered and left
by hand only. In `ALERT` it may throttle the inrush current by a PWM on the brake pin, for which the
AVR boards have to pause RailCom.

A call reads the clock several times; here all readings of a call are the same. Not in the model:
pins other than the brake pin, the phase of the signal, diagnostics, the `OVERLOAD` event of EXRAIL.
-/

namespace CommandStation

/-- What drives the brake pin. -/
inductive Brake where
  | digital | inrush | dc
  deriving DecidableEq, Repr

/-- The members of `class MotorDriver` that the overload protection works on, with its entry of
`trackDCAddr`. -/
structure PowerDriver where
  brakePin : BrakePin
  pwmCapable : Bool
  commonFaultPin : Bool
  trackMode : UInt8
  dcAddr : Int16
  brake : Brake
  powerMode : PowerMode
  lastPowerMode : PowerMode
  lastPowerChange : PowerMode → UInt32
  lastBadSample : UInt32
  powerSampleOverloadWait : UInt32

/-- The statics that the drivers share. -/
structure PowerStatics where
  platform : Platform
  globalOverloadStart : UInt32
  railcomPossible : Bool
  railcomPaused : Bool
  deriving DecidableEq, Repr

/-- A driver and the statics, as a method sees them. -/
structure PowerTrack where
  driver : PowerDriver
  statics : PowerStatics

namespace PowerDriver

/-- `POWER_SAMPLE_OVERLOAD_WAIT`, in microseconds like the others. -/
def overloadWait : UInt32 := 40000

/-- `POWER_SAMPLE_ALL_GOOD` -/
def allGood : UInt32 := 5000000

/-- `POWER_SAMPLE_ALERT_GOOD` -/
def alertGood : UInt32 := 20000

/-- `POWER_SAMPLE_IGNORE_FAULT_LOW` -/
def ignoreFaultLow : UInt32 := 100000

/-- `POWER_SAMPLE_IGNORE_FAULT_HIGH` -/
def ignoreFaultHigh : UInt32 := 5000

/-- `POWER_SAMPLE_IGNORE_CURRENT` -/
def ignoreCurrent : UInt32 := 100000

/-- `POWER_SAMPLE_RETRY_MAX` -/
def retryMax : UInt32 := 10000000

/-- A driver that has not been powered yet. The stamps have not been set. -/
structure New (driver : PowerDriver) : Prop where
  brake : driver.brake = .digital
  powerMode : driver.powerMode = .off
  wait : driver.powerSampleOverloadWait = overloadWait

/-- `throttleInrush` does something. -/
def canThrottle (driver : PowerDriver) : Bool :=
  driver.brakePin != .unused && TrackMode.has driver.trackMode
    (TrackMode.main ||| TrackMode.prog ||| TrackMode.ext ||| TrackMode.boost)

end PowerDriver

namespace PowerTrack

open PowerDriver

variable (now : UInt32)

/-- `MotorDriver::setPower` -/
def setPower (mode : PowerMode) (s : PowerTrack) : PowerTrack :=
  if s.driver.powerMode = mode then s
  else
    { driver := { s.driver with
        powerMode := mode
        lastPowerChange := Function.update s.driver.lastPowerChange mode now }
      statics := if mode = .overload then { s.statics with globalOverloadStart := now }
        else s.statics }

/-- `MotorDriver::microsSinceLastPowerChange` and what it does to the stamp: if the change was
really long ago, the stamp is set to 30 seconds ago. -/
def microsSinceLastPowerChange (mode : PowerMode) (s : PowerTrack) : UInt32 × PowerTrack :=
  let diff := now - s.driver.lastPowerChange mode
  if diff > (1 : UInt32) <<< 28 then
    (diff, { s with driver := { s.driver with
      lastPowerChange := Function.update s.driver.lastPowerChange mode (now - 30000000) } })
  else (diff, s)

/-- `DCCWaveform::pauseRailcom` -/
def pauseRailcom (paused : Bool) (s : PowerTrack) : PowerTrack :=
  { s with statics := { s.statics with railcomPaused := paused && s.statics.railcomPossible } }

/-- `MotorDriver::throttleInrush` -/
def throttleInrush (on : Bool) (s : PowerTrack) : PowerTrack :=
  if s.driver.canThrottle then
    let s := { s with driver := { s.driver with brake := if on then .inrush else .digital } }
    match s.statics.platform with
    | .uno | .avr => s.pauseRailcom on
    | .arm | .esp32 => s
  else s

/-- The case `OFF` of `checkPowerOverload`. -/
def checkOff (s : PowerTrack) : PowerTrack :=
  { s with driver := { s.driver with
    lastPowerMode := .off
    powerSampleOverloadWait := overloadWait } }

/-- The case `ON` of `checkPowerOverload`. -/
def checkOn (fault current : Bool) (s : PowerTrack) : PowerTrack :=
  let s := { s with driver := { s.driver with lastPowerMode := .on } }
  if fault || current then s.setPower now .alert
  else
    -- all well
    let (mslpc, s) := s.microsSinceLastPowerChange now .on
    if mslpc > allGood then
      { s with driver := { s.driver with powerSampleOverloadWait := overloadWait } }
    else s

/-- The case `ALERT` of `checkPowerOverload`. -/
def checkAlert (fault current : Bool) (s : PowerTrack) : PowerTrack :=
  let powerModeChange := s.driver.powerMode ≠ s.driver.lastPowerMode
  let s := { s with driver := { s.driver with
    lastBadSample := if powerModeChange then now else s.driver.lastBadSample
    lastPowerMode := .alert } }
  -- check how long we have been in this state
  let (mslpc, s) := s.microsSinceLastPowerChange now .alert
  if fault then
    let s := s.throttleInrush true
    let s := { s with driver := { s.driver with lastBadSample := now } }
    let timeout := if current then ignoreFaultHigh else ignoreFaultLow
    if mslpc < timeout then s
    else (s.throttleInrush false).setPower now .overload
  else if current then
    let s := { s with driver := { s.driver with lastBadSample := now } }
    if mslpc < ignoreCurrent then s
    else (s.throttleInrush false).setPower now .overload
  else
    -- all well
    let goodtime := now - s.driver.lastBadSample
    if goodtime > alertGood then (s.throttleInrush false).setPower now .on
    else if goodtime > alertGood / 2 then s.throttleInrush false
    else s

/-- The case `OVERLOAD` of `checkPowerOverload`. -/
def checkOverload (s : PowerTrack) : PowerTrack :=
  let s := { s with driver := { s.driver with lastPowerMode := .overload } }
  let (mslpc, s) :=
    if s.driver.commonFaultPin then (now - s.statics.globalOverloadStart, s)
    else s.microsSinceLastPowerChange now .overload
  if mslpc > s.driver.powerSampleOverloadWait then
    -- adjust next wait time
    let wait := s.driver.powerSampleOverloadWait * 2
    let wait := if wait > retryMax then retryMax else wait
    let s := { s with driver := { s.driver with powerSampleOverloadWait := wait } }
    -- power on test
    s.setPower now .alert
  else s

/-- `MotorDriver::checkPowerOverload`, with what `checkFault` and `checkCurrent` answer. -/
def checkPowerOverload (fault current : Bool) (s : PowerTrack) : PowerTrack :=
  match s.driver.powerMode with
  | .off => s.checkOff
  | .on => s.checkOn now fault current
  | .alert => s.checkAlert now fault current
  | .overload => s.checkOverload now

/-! ## What a call leaves alone -/

variable {now} {s : PowerTrack} {mode : PowerMode} {on : Bool}

@[simp] theorem setPower_powerMode : (s.setPower now mode).driver.powerMode = mode := by
  unfold setPower
  split
  · next h => exact h
  · rfl

@[simp] theorem setPower_lastPowerMode :
    (s.setPower now mode).driver.lastPowerMode = s.driver.lastPowerMode := by
  unfold setPower
  split <;> rfl

@[simp] theorem setPower_lastBadSample :
    (s.setPower now mode).driver.lastBadSample = s.driver.lastBadSample := by
  unfold setPower
  split <;> rfl

@[simp] theorem setPower_wait : (s.setPower now mode).driver.powerSampleOverloadWait =
    s.driver.powerSampleOverloadWait := by
  unfold setPower
  split <;> rfl

@[simp] theorem setPower_commonFaultPin :
    (s.setPower now mode).driver.commonFaultPin = s.driver.commonFaultPin := by
  unfold setPower
  split <;> rfl

/-- A change of the power is stamped. -/
theorem setPower_lastPowerChange (h : s.driver.powerMode ≠ mode) :
    (s.setPower now mode).driver.lastPowerChange mode = now := by
  simp [setPower, h]

theorem setPower_globalOverloadStart (h : s.driver.powerMode ≠ .overload) :
    (s.setPower now .overload).statics.globalOverloadStart = now := by
  simp [setPower, h]

theorem setPower_self (h : s.driver.powerMode = mode) : s.setPower now mode = s := if_pos h

/-- What `throttleInrush` writes. -/
theorem throttleInrush_eq (s : PowerTrack) (on : Bool) : ∃ brake paused, s.throttleInrush on =
    { driver := { s.driver with brake := brake }
      statics := { s.statics with railcomPaused := paused } } := by
  unfold throttleInrush
  split
  · dsimp only
    split <;> exact ⟨_, _, rfl⟩
  · exact ⟨_, _, rfl⟩

@[simp] theorem throttleInrush_powerMode :
    (s.throttleInrush on).driver.powerMode = s.driver.powerMode := by
  obtain ⟨brake, paused, heq⟩ := throttleInrush_eq s on
  rw [heq]

@[simp] theorem throttleInrush_lastPowerMode :
    (s.throttleInrush on).driver.lastPowerMode = s.driver.lastPowerMode := by
  obtain ⟨brake, paused, heq⟩ := throttleInrush_eq s on
  rw [heq]

@[simp] theorem throttleInrush_lastPowerChange :
    (s.throttleInrush on).driver.lastPowerChange = s.driver.lastPowerChange := by
  obtain ⟨brake, paused, heq⟩ := throttleInrush_eq s on
  rw [heq]

@[simp] theorem throttleInrush_lastBadSample :
    (s.throttleInrush on).driver.lastBadSample = s.driver.lastBadSample := by
  obtain ⟨brake, paused, heq⟩ := throttleInrush_eq s on
  rw [heq]

@[simp] theorem throttleInrush_wait :
    (s.throttleInrush on).driver.powerSampleOverloadWait = s.driver.powerSampleOverloadWait := by
  obtain ⟨brake, paused, heq⟩ := throttleInrush_eq s on
  rw [heq]

@[simp] theorem throttleInrush_commonFaultPin :
    (s.throttleInrush on).driver.commonFaultPin = s.driver.commonFaultPin := by
  obtain ⟨brake, paused, heq⟩ := throttleInrush_eq s on
  rw [heq]

@[simp] theorem throttleInrush_globalOverloadStart :
    (s.throttleInrush on).statics.globalOverloadStart = s.statics.globalOverloadStart := by
  obtain ⟨brake, paused, heq⟩ := throttleInrush_eq s on
  rw [heq]

end PowerTrack

end CommandStation
