import CommandStation.DCC.Station

/-!
# Servos

A PCA9685 is a module with 16 pins for servos. A request to move a servo starts an animation: every
50 ms `updatePosition` moves it a step from the position it has to the one requested, evenly or along the
table of a bouncing signal. Some refreshes later the servo is switched off, as `IO_SWITCH_OFF_SERVO` is
defined.

A pin is what remains of a vpin when the first one of the device is taken off: `IODevice::findDevice` has
found the device that owns it. Memory does not run out. A status is what `requestBlock.wait()` returns.
-/

namespace CommandStation

/-- A bit-field of 12 bits. -/
def field12 (v : Int) : Fin 4096 := ⟨(v % 4096).toNat, by omega⟩

/-- The function `map` of the Arduino core. -/
def mapRange (x inMin inMax outMin outMax : Int) : Int :=
  ((x - inMin) * (outMax - outMin)).tdiv (inMax - inMin) + outMin

/-- `struct ServoData` -/
structure ServoData where
  activePosition : Fin 4096
  inactivePosition : Fin 4096
  currentPosition : Fin 4096
  fromPosition : Fin 4096
  toPosition : Fin 4096
  profile : UInt8
  stepNumber : UInt16
  numSteps : UInt16
  currentProfile : UInt8
  duration : UInt16
  deriving DecidableEq, Repr

/-- A position that `writeDevice` sends. -/
structure ServoWrite where
  pin : Fin 16
  value : Fin 4096
  deriving DecidableEq, Repr

/-- `class PCA9685`: whether its state is `DEVSTATE_FAILED`, the data of its servos, and what was
sent. -/
structure PCA9685 where
  failed : Bool
  servoData : Fin 16 → Option ServoData
  sent : List ServoWrite

namespace PCA9685

/-! ## Profiles -/

def instant : UInt8 := 0
def fast : UInt8 := 1
def medium : UInt8 := 2
def slow : UInt8 := 3
def bounce : UInt8 := 4
def noPowerOff : UInt8 := 0x80

/-- `_bounceProfile`: the first entry isn't used. -/
def bounceProfile : List UInt8 :=
  [0, 2, 3, 7, 13, 33, 50, 83, 100, 83, 75, 70, 65, 60, 60, 65, 74, 84, 100, 83, 75, 70, 70, 72, 75, 80, 87,
    92, 97, 100]

/-- `_catchupSteps` -/
def catchupSteps : UInt16 := 5

/-- `numSteps + _catchupSteps`: an `int` has 16 bits on the AVR boards. -/
def catchupEnd (platform : Platform) (numSteps : UInt16) : Nat :=
  match platform with
  | .uno | .avr => (numSteps + catchupSteps).toNat
  | .arm | .esp32 => numSteps.toNat + catchupSteps.toNat

/-- The steps of an animation. -/
def stepsFor (profile : UInt8) (duration : UInt16) : UInt16 :=
  let profileValue := profile &&& ~~~noPowerOff
  if profileValue = fast then 10
  else if profileValue = medium then 20
  else if profileValue = slow then 40
  else if profileValue = bounce then UInt16.ofNat (bounceProfile.length - 1)
  else duration * 2 + 1  -- from deciseconds to refresh cycles

/-- A value within the range of a position. -/
def clamp (value : Int) : Fin 4096 :=
  field12 (if 4095 < value then 4095 else if value < 0 then 0 else value)

/-! ## One servo -/

/-- The position of the step that an animation has come to. -/
def position (s : ServoData) : Option Int :=
  if s.currentProfile &&& ~~~noPowerOff = bounce then
    -- step positions are in the table
    bounceProfile[s.stepNumber.toNat]?.map fun profileValue =>
      mapRange profileValue.toNat 0 100 s.fromPosition s.toPosition
  else some (mapRange s.stepNumber.toNat 0 s.numSteps.toNat s.fromPosition s.toPosition)

/-- Where there is no way to go: go straight to end of sequence, output final position. -/
def skipToEnd (s : ServoData) : ServoData :=
  if s.stepNumber = 0 ∧ s.fromPosition = s.toPosition then { s with stepNumber := s.numSteps - 1 } else s

/-- The step of `updatePosition` after that, and what is to be written. There is no result if it reads
outside the table. -/
def advance (platform : Platform) (s : ServoData) : Option (ServoData × Option (Fin 4096)) :=
  if s.stepNumber < s.numSteps then
    let s := { s with stepNumber := s.stepNumber + 1 }
    (position s).map fun p => ({ s with currentPosition := field12 p }, some (field12 p))
  else if s.stepNumber.toNat < catchupEnd platform s.numSteps then
    -- wait a little to allow servo to catch up
    some ({ s with stepNumber := s.stepNumber + 1 }, none)
  else if s.stepNumber.toNat = catchupEnd platform s.numSteps ∧ s.currentPosition ≠ 0 then
    -- switch off PWM to prevent annoying servo buzz
    some ({ s with numSteps := 0 }, if s.currentProfile &&& noPowerOff = 0 then some 0 else none)
  else some (s, none)

/-- `updatePosition` of a servo. -/
def updateServo (platform : Platform) (s : ServoData) : Option (ServoData × Option (Fin 4096)) :=
  if s.numSteps = 0 then some (s, none)  -- No animation in progress
  else advance platform (skipToEnd s)

/-! ## The device -/

variable (d : PCA9685)

/-- The device as it is created. -/
def new : PCA9685 := ⟨false, fun _ => none, []⟩

def setServo (pin : Fin 16) (s : ServoData) : PCA9685 :=
  { d with servoData := Function.update d.servoData pin (some s) }

/-- `outputBuffer` as `writeDevice` fills it. -/
def outputBuffer (w : ServoWrite) : List UInt8 :=
  [0x06 + 4 * UInt8.ofNat w.pin, 0, if w.value = 4095 then 0x10 else 0, UInt8.ofNat w.value,
    UInt8.ofNat (w.value / 256)]

/-- The bytes say which write it is. -/
theorem outputBuffer_injective : Function.Injective outputBuffer := by
  intro w w' heq
  simp only [outputBuffer, List.cons.injEq, ← UInt8.toNat_inj, UInt8.toNat_add, UInt8.toNat_mul,
    UInt8.toNat_ofNat'] at heq
  obtain ⟨hpin, -, -, hlow, hhigh, -⟩ := heq
  have hpins : w.pin = w'.pin := by
    apply Fin.ext
    simp only [UInt8.reduceToNat] at hpin
    omega
  have hvalues : w.value = w'.value := by
    apply Fin.ext
    omega
  exact congrArg₂ ServoWrite.mk hpins hvalues

/-- `PCA9685::writeDevice` -/
def writeDevice (pin : Fin 16) (value : Fin 4096) (status : Bool) : PCA9685 :=
  if status then { d with sent := d.sent ++ [⟨pin, value⟩] } else { d with failed := true }

/-- A servo that was not configured. -/
def defaultServo (value : Int) : ServoData where
  activePosition := 4095
  inactivePosition := 0
  currentPosition := clamp value
  fromPosition := 0
  toPosition := 0
  profile := instant ||| noPowerOff
  stepNumber := 0
  numSteps := 0
  currentProfile := 0
  duration := 0

/-- The servo with an animation that has not begun to move. -/
def request (s : ServoData) (value : Int) (profile : UInt8) (duration : UInt16) : ServoData :=
  { s with
    currentProfile := profile, numSteps := stepsFor profile duration, stepNumber := 0
    toPosition := clamp value, fromPosition := s.currentPosition }

/-- `PCA9685::_writeAnalogue` -/
def writeAnalogue (pin : Fin 16) (value : Int) (profile : UInt8) (duration : UInt16) : PCA9685 :=
  if d.failed then d
  else
    let s := (d.servoData pin).getD (defaultServo value)
    d.setServo pin (request s value profile duration)

/-- `PCA9685::_write` -/
def write (pin : Fin 16) (value : Int) : PCA9685 :=
  match d.servoData pin with
  | some s =>
    -- Use configured parameters
    d.writeAnalogue pin (if value ≠ 0 then s.activePosition else s.inactivePosition) s.profile s.duration
  | none =>
    -- simulate digital pin on PWM
    d.writeAnalogue pin (if value ≠ 0 then 4095 else 0) (instant ||| noPowerOff) 0

/-- Data that was allocated and not yet written. -/
def blankServo : ServoData := ⟨0, 0, 0, 0, 0, 0, 0, 0, 0, 0⟩

/-- `PCA9685::_configure` for `CONFIGURE_SERVO`, and whether it worked. -/
def configure (pin : Fin 16) (params : List Int) : PCA9685 × Bool :=
  match params with
  | [active, inactive, profile, duration, state] =>
    let s := { (d.servoData pin).getD blankServo with
      activePosition := field12 active, inactivePosition := field12 inactive
      profile := UInt8.ofNat (profile % 256).toNat, duration := UInt16.ofNat (duration % 65536).toNat }
    let d := d.setServo pin s
    -- Position servo to initial state
    (if state ≠ -1 then
        d.writeAnalogue pin (if state ≠ 0 then s.activePosition else s.inactivePosition) 0 0
      else d, true)
  | _ => (d, false)

/-- `PCA9685::_read`: whether a servo is in an animation. -/
def read (pin : Fin 16) : Bool :=
  if d.failed then false
  else
    match d.servoData pin with
    | none => false  -- No structure means no animation!
    | some s => s.stepNumber < s.numSteps

/-- `PCA9685::updatePosition` -/
def updatePosition (platform : Platform) (pin : Fin 16) (status : Bool) : Option PCA9685 :=
  match d.servoData pin with
  | none => some d  -- No pin configuration/state data
  | some s =>
    (updateServo platform s).map fun (s, out) =>
      match out with
      | none => d.setServo pin s
      | some value => (d.setServo pin s).writeDevice pin value status

/-! ## Calls -/

/-- What is called. -/
inductive Call where
  | writeAnalogue (pin : Fin 16) (value : Int) (profile : UInt8) (duration : UInt16)
  | write (pin : Fin 16) (value : Int)
  | configure (pin : Fin 16) (params : List Int)
  | updatePosition (pin : Fin 16) (status : Bool)
  deriving DecidableEq, Repr

/-- The pin of a call. -/
def Call.pin : Call → Fin 16
  | .writeAnalogue pin _ _ _ => pin
  | .write pin _ => pin
  | .configure pin _ => pin
  | .updatePosition pin _ => pin

/-- The call is a refresh. -/
def Call.isRefresh : Call → Bool
  | .updatePosition _ _ => true
  | _ => false

/-- No write fails in the call. -/
def Call.Succeeds : Call → Prop
  | .updatePosition _ status => status = true
  | _ => True

instance (call : Call) : Decidable call.Succeeds :=
  match call with
  | .updatePosition _ status => inferInstanceAs (Decidable (status = true))
  | .writeAnalogue .. | .write .. | .configure .. => isTrue trivial

def step (platform : Platform) (d : PCA9685) : Call → Option PCA9685
  | .writeAnalogue pin value profile duration => some (d.writeAnalogue pin value profile duration)
  | .write pin value => some (d.write pin value)
  | .configure pin params => some (d.configure pin params).1
  | .updatePosition pin status => d.updatePosition platform pin status

/-- Some calls, until one reads outside the table. -/
def runCalls (platform : Platform) (d : PCA9685) (calls : List Call) : Option PCA9685 :=
  calls.foldlM (step platform) d

/-- The positions written to a servo. -/
def written (d : PCA9685) (pin : Fin 16) : List (Fin 4096) :=
  (d.sent.filter fun w => w.pin = pin).map ServoWrite.value

end PCA9685

end CommandStation
