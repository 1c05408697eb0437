import CommandStation.DCC.Station

/-!
# Throttles, functions and reminders

The part of `DCC` that drives locos on the main track: `setThrottle` and the packets it builds, the
function calls, the reminder loop that repeats speeds and functions and moves the speed of a loco
towards its target, the emergency stops, and `forgetLoco`.

`millis()` is an argument of the operations that read it. Broadcasts to throttles are left out.
-/

namespace CommandStation.DCC

open CommandStation.Lib

/-- `HIGHEST_SHORT_ADDR` -/
def highestShortAddr : Nat := 127

/-- `SET_SPEED`: 128-step speed control byte. -/
def setSpeed : UInt8 := 0x3f

/-- `MOMENTUM_FACTOR` -/
def momentumFactor : Int := 7

/-! ## Packets -/

/-- The address bytes of a packet: a train number above the short addresses takes two bytes. The
callers differ in the integer type of `cab`, which decides whether it is above. -/
def addressBytes (cab : UInt16) (long : Bool) : List UInt8 :=
  if long then [(cab >>> 8).toUInt8 ||| 0xC0, cab.toUInt8] else [cab.toUInt8]

theorem length_addressBytes (cab : UInt16) (long : Bool) :
    (addressBytes cab long).length ≤ 2 := by
  unfold addressBytes
  split <;> simp

/-- The command byte for 28 speed steps. -/
def speed28Byte (speedCode : UInt8) : UInt8 :=
  let speed128 := speedCode &&& 0x7F
  let code28 :=
    if speed128 = 0 ∨ speed128 = 1 then speed128  -- stop or emergency stop
    else
      let speed28 := (speed128.toNat * 10 + 36) / 46  -- convert 2-127 to 1-28
      UInt8.ofNat ((speed28 + 3) / 2) ||| (if speed28 % 2 = 1 then 0 else 0x10)
  0x40 ||| code28 ||| (if speedCode &&& 0x80 ≠ 0 then 0x20 else 0)

/-- The instruction bytes of a speed packet. -/
def speedBytes (globalSpeedsteps speedCode : UInt8) : List UInt8 :=
  if globalSpeedsteps ≤ 28 then [speed28Byte speedCode] else [setSpeed, speedCode]

/-- The packet `setThrottleDCC` sends. -/
def speedPacket (cab : UInt16) (globalSpeedsteps speedCode : UInt8) : DCCQueue.Packet where
  bytes := addressBytes cab (highestShortAddr < cab.toNat) ++ speedBytes globalSpeedsteps speedCode
  fits := by
    have hspeed : (speedBytes globalSpeedsteps speedCode).length ≤ 2 := by
      unfold speedBytes
      split <;> simp
    have := length_addressBytes cab (highestShortAddr < cab.toNat)
    simp only [List.length_append, DCCQueue.maxPacketSize]
    omega

/-- The packet `setFunctionInternal` sends. -/
def functionPacket (cab : Int) (byte1 byte2 : UInt8) : DCCQueue.Packet where
  bytes := addressBytes (UInt16.ofInt cab) (highestShortAddr < cab) ++
    (if byte1 ≠ 0 then [byte1, byte2] else [byte2])
  fits := by
    have hfn : (if byte1 ≠ 0 then [byte1, byte2] else [byte2]).length ≤ 2 := by
      split <;> simp
    have := length_addressBytes (UInt16.ofInt cab) (highestShortAddr < cab)
    simp only [List.length_append, DCCQueue.maxPacketSize]
    omega

/-! ## Throttle -/

/-- A loco that is stopped in an emergency keeps its direction. -/
def estopCode (speedCode : UInt8) : UInt8 := (speedCode &&& 0x80) ||| 0x01

/-- The speed code is an emergency stop. -/
def isEstop (speedCode : UInt8) : Bool := speedCode &&& 0x7F == 1

/-- The end of `setThrottleDCC`: the packet joins the queue. -/
def sendSpeed (cab : UInt16) (speedCode : UInt8) : Dcc Unit := do
  let s ← get
  let packet := speedPacket cab s.globalSpeedsteps speedCode
  if isEstop speedCode then schedule (.scheduleEstopPacket packet.bytes 4 cab)  -- highest priority
  else schedule (.scheduleDCCSpeedPacket packet 0 cab)

/-- `DCC::setThrottleDCC`; a null slot is the broadcast to all locos. -/
def setThrottleDCC (slot : Option Addr) (speedCode : UInt8) : Dcc Unit := do
  let s ← get
  match slot with
  | some a =>
    let slot ← onSlots (readSlot a)
    let speedCode := if slot.consistReverse then speedCode ^^^ 0x80 else speedCode
    -- any throttle traffic is blocked when estop is locked
    sendSpeed slot.loco (if s.estopIsLocked then estopCode speedCode else speedCode)
  | none => sendSpeed 0 (if s.estopIsLocked then estopCode speedCode else speedCode)

/-- The loops that write something to every slot of a chain: `for (slot=start; slot;
slot=slot->field()) { … }`. -/
def updateSlots (field : LocoSlot → Option Addr) (f : LocoSlot → LocoSlot)
    (send : Addr → Dcc Unit) (start : Option Addr) : Dcc Unit :=
  followSlots (fun a _ => do
    onSlots (writeSlot a f)
    send a
    let slot ← onSlots (readSlot a)
    pure (field slot, ())) start ()

/-- `DCC::setThrottle2`: set speedCode directly to DCC and make followers same. -/
def setThrottle2 (slot : Addr) (speedCode : UInt8) : Dcc Unit :=
  updateSlots LocoSlot.consistNext (fun slot => slot.setSpeedCode speedCode)
    (fun follower => setThrottleDCC (some follower) speedCode) (some slot)

/-- `DCC::getMomentum` -/
def getMomentum (s : Station) (slot : LocoSlot) : UInt8 :=
  let target := slot.targetSpeed &&& 0x7F
  let current := slot.speedCode &&& 0x7F
  if current < target then
    -- accelerating
    let momentum :=
      if slot.momentumA = momentumUseDefault then s.defaultMomentumA else slot.momentumA
    if momentum = 0 ∨ s.linearAcceleration then momentum
    else
      -- reduced according to gap between throttle and speed
      let powerDifference := (target - current) / 8
      if momentum < powerDifference then 0 else momentum - powerDifference
  else if slot.momentumD = momentumUseDefault then s.defaultMomentumD else slot.momentumD

/-- `DCC::estopAll` -/
def estopAll : Dcc Unit := do
  setThrottleDCC none 1
  TrackManager.setDCSignal 0 1
  -- remind stop/estop but dont change direction
  let s ← get
  updateSlots LocoSlot.next (fun slot =>
    (slot.setSpeedCode (estopCode slot.targetSpeed)).setTargetSpeed (estopCode slot.targetSpeed))
    (fun _ => pure ()) s.locos.firstSlot

/-- Copy target speed to consist followers. -/
def copyTarget (start : Option Addr) (speedCode : UInt8) : Dcc Unit :=
  updateSlots LocoSlot.consistNext (fun slot =>
    slot.setTargetSpeed (speedCode ^^^ (if slot.consistReverse then 0x80 else 0)))
    (fun _ => pure ()) start

/-- The end of `setThrottle`, for a slot whose target speed is not the new one. -/
def throttleTo (slot : Addr) (cab : UInt16) (tSpeed speedCode : UInt8) (now : UInt32) :
    Dcc Unit := do
  onSlots (writeSlot slot fun slot => slot.setTargetSpeed speedCode)
  let lead ← onSlots (readSlot slot)
  copyTarget lead.consistNext speedCode
  let lead ← onSlots (readSlot slot)
  let s ← get
  if getMomentum s lead ≠ 0 ∧ tSpeed ≠ 1 then
    -- we dont throttle speed, we just let the reminders take it to target
    onSlots (writeSlot slot fun slot => slot.setMomentumBase now)
  else
    -- Momentum not involved, throttle now.
    setThrottle2 slot speedCode
    when (s.estopIsLocked = false) (TrackManager.setDCSignal cab.toInt16 speedCode)

/-- `DCC::setThrottle` -/
def setThrottle (cab : UInt16) (tSpeed : UInt8) (tDirection : Bool) (now : UInt32) :
    Dcc Bool := do
  if tSpeed = 1 ∧ cab = 0 then
    estopAll  -- ESTOP broadcast fix
    pure true
  else
    let speedCode := (tSpeed &&& 0x7F) + (if tDirection then 128 else 0)
    let slot ← onSlots (LocoSlot.getSlot cab true)
    match slot with
    | none => pure false  -- speed table full, can not do anything
    | some a =>
      let slot ← onSlots (readSlot a)
      -- Ignore any throttle command to consist follower.
      if slot.isConsistFollower then pure true
      else if slot.targetSpeed = speedCode then pure true  -- speed has been reached
      else
        throttleTo a cab tSpeed speedCode now
        pure true

/-- `DCC::estopLock` -/
def estopLock (lock : Bool) : Dcc Unit := do
  let s ← get
  if s.estopIsLocked = lock then pure ()  -- no change
  else
    modify fun s => { s with estopIsLocked := lock }
    when lock do
      setThrottleDCC none 1           -- broadcast estop to DCC
      TrackManager.setDCSignal 0 1    -- stop DC signal on all tracks

/-! ## Functions -/

/-- `DCC::setFunctionInternal` -/
def setFunctionInternal (cab : Int) (group : Nat) (byte1 byte2 : UInt8) : Dcc Unit :=
  schedule (.scheduleDCCFunctionPacket (functionPacket cab byte1 byte2) (UInt16.ofInt cab) group)

/-- The binary state control instruction for a function above F28. -/
def binaryStateBytes (functionNumber : UInt16) (on : Bool) : List UInt8 :=
  let flag : UInt8 := if on then 0x80 else 0
  if functionNumber ≤ 127 then [0xDD, functionNumber.toUInt8 ||| flag]     -- short form
  else [0xC0, (functionNumber &&& 0x7F).toUInt8 ||| flag, (functionNumber >>> 7).toUInt8]

/-- `DCC::updateGroupflags`: the flag of the group that a function belongs to. -/
def groupMask (functionNumber : UInt16) : UInt8 :=
  if functionNumber ≤ 4 then 0x01
  else if functionNumber ≤ 8 then 0x02
  else if functionNumber ≤ 12 then 0x04
  else if functionNumber ≤ 20 then 0x08
  else 0x10

/-- A slot with function `functionNumber` set; the group is flagged if that changes it. -/
def withFunction (functionNumber : UInt16) (on : Bool) (slot : LocoSlot) : LocoSlot :=
  let funcmask : UInt32 := 1 <<< functionNumber.toUInt32
  let newset := if on then slot.functions ||| funcmask else slot.functions &&& ~~~funcmask
  if newset = slot.functions then slot
  else if functionNumber ≤ 28 then
    { slot with
      functions := newset, groupFlags := slot.groupFlags ||| groupMask functionNumber }
  else { slot with functions := newset }

/-- `DCC::setFn` -/
def setFn (cab : Int) (functionNumber : Int16) (on : Bool) : Dcc Bool := do
  if cab ≤ 0 ∨ functionNumber < 0 then pure false
  else
    let f := functionNumber.toUInt16
    -- non reminding advanced binary bit set
    when (28 < f) (schedule (.scheduleDCCPacket
      (addressBytes (UInt16.ofInt cab) (highestShortAddr < cab) ++ binaryStateBytes f on) 4
      (UInt16.ofInt cab)))
    -- We use the reminder table up to 28 for normal functions, 29 to 31 for DC frequency.
    if 31 < f then pure true
    else
      let slot ← onSlots (LocoSlot.getSlot (UInt16.ofInt cab) true)
      match slot with
      | none => pure false  -- speed table full, can not do anything
      | some a =>
        onSlots (writeSlot a (withFunction f on))
        pure true

/-- A slot with the DC frequency `freq` in the spare functions F29, F30, F31. -/
def withDCFreq (freq : UInt8) (slot : LocoSlot) : LocoSlot :=
  let cleared := slot.functions &&& 0x1FFFFFFF
  { slot with
    functions := if freq ≠ 0 then cleared ||| 1 <<< (28 + freq.toUInt32) else cleared }

/-- `DCC::getFn`: `none` where it returns -1 for "do not know". -/
def getFn (cab : Int) (functionNumber : Int16) : Dcc (Option Bool) := do
  if cab ≤ 0 ∨ 31 < functionNumber then pure none
  else onSlots do
    let slot ← LocoSlot.getSlot (UInt16.ofInt cab) false
    match slot with
    | some a =>
      let slot ← readSlot a
      pure (some (slot.functions &&& (1 <<< functionNumber.toUInt16.toUInt32) != 0))
    | none => pure none

/-- `DCC::getFunctionMap` -/
def getFunctionMap (cab : Int) : Dcc UInt32 := do
  if cab ≤ 0 then pure 0  -- unknown pretend all functions off
  else onSlots do
    let slot ← LocoSlot.getSlot (UInt16.ofInt cab) false
    match slot with
    | some a =>
      let slot ← readSlot a
      pure slot.functions
    | none => pure 0

/-- `DCC::setDCFreq` -/
def setDCFreq (cab : Int) (freq : UInt8) : Dcc Unit := do
  if cab = 0 ∨ 3 < freq then pure ()
  else
    let slot ← onSlots (LocoSlot.getSlot (UInt16.ofInt cab) true)
    match slot with
    | none => pure ()  -- speed table full, can not do anything
    | some a => onSlots (writeSlot a (withDCFreq freq))

/-! ## Momentum settings -/

/-- A momentum in milliseconds as it is stored in a slot. -/
def momentumByte (millis : Int16) : UInt8 :=
  if millis < 0 then momentumUseDefault else UInt8.ofInt (millis.toInt.tdiv momentumFactor)

/-- The momentum is too long to be stored in a byte. -/
def momentumTooLong (millis : Int16) : Prop :=
  momentumUseDefault.toNat ≤ millis.toInt.tdiv momentumFactor

instance (millis : Int16) : Decidable (momentumTooLong millis) :=
  inferInstanceAs (Decidable (_ ≤ _))

/-- A slot with its own momentum; -1 means the default. -/
def withMomentum (accelerating decelerating : Int16) (slot : LocoSlot) : LocoSlot :=
  { slot with momentumA := momentumByte accelerating, momentumD := momentumByte decelerating }

/-- `DCC::setMomentum` -/
def setMomentum (locoId : Int) (accelerating decelerating : Int16) : Dcc Bool := do
  if locoId < 0 then pure false
  else if locoId = 0 then
    if accelerating < 0 ∨ decelerating < 0 then pure false
    else
      modify fun s => { s with
        defaultMomentumA := UInt8.ofInt (accelerating.toInt.tdiv momentumFactor)
        defaultMomentumD := UInt8.ofInt (decelerating.toInt.tdiv momentumFactor) }
      pure true
  -- -1 is ok and means this loco should use the default.
  else if accelerating < -1 ∨ decelerating < -1 then pure false
  else if momentumTooLong accelerating ∨ momentumTooLong decelerating then pure false
  else
    let slot ← onSlots (LocoSlot.getSlot (UInt16.ofInt locoId) true)
    match slot with
    | none => pure false  -- speed table full, can not do anything
    | some a =>
      onSlots (writeSlot a (withMomentum accelerating decelerating))
      pure true

/-! ## Reminders -/

def normalize (speed : UInt8) : Int :=
  if speed &&& 0x80 ≠ 0 then (speed &&& 0x7F).toNat else 0 - 1 - speed.toNat

def dccalize (speed : Int) : UInt8 :=
  if 127 < speed then 0xFF        -- 127 forward
  else if speed < -127 then 0x7F  -- 127 reverse
  else if 0 ≤ speed then UInt8.ofInt speed ||| 0x80
  -- negative speeds... -1==dcc 0, -2==dcc 1
  else UInt8.ofInt (-1 - speed)

/-- The speed steps that have become due since the slot's `momentumBase`. The difference of the
clocks is cut to an `int16_t`. -/
def ticks (s : Station) (slot : LocoSlot) (now : UInt32) : Int :=
  let delay : Int := (now - slot.momentumBase).toUInt16.toInt16.toInt
  let millisPerNotch : Int := momentumFactor * (getMomentum s slot).toNat
  -- allow for momentum change to 0 while accelerating/slowing
  if 0 < millisPerNotch then delay.tdiv millisPerNotch else 500

/-- A speed moved by `ticks` steps towards the target. -/
def approach (current target ticks : Int) : Int :=
  if current < target then min (current + ticks) target else max (current - ticks) target

/-- The speed code of a loco whose speed changes, `ticks` steps later. -/
def nextSpeedCode (slot : LocoSlot) (ticks : Int) : UInt8 :=
  dccalize (approach (normalize slot.speedCode) (normalize slot.targetSpeed) ticks)

/-- The speed branch of `issueReminder` for a slot that is not a consist follower. -/
def remindSpeed (a : Addr) (now : UInt32) : Dcc Unit := do
  let slot ← onSlots (readSlot a)
  let s ← get
  -- calculate any momentum change going on
  if slot.targetSpeed ≠ slot.speedCode ∧ 0 < ticks s slot now then
    let sc := nextSpeedCode slot (ticks s slot now)
    onSlots (writeSlot a fun slot => slot.setSpeedCode sc)
    -- in case this is a dcc track on this addr
    when (s.estopIsLocked = false) (TrackManager.setDCSignal slot.loco.toInt16 sc)
    onSlots (writeSlot a fun slot => slot.setMomentumBase now)
    setThrottle2 a sc  -- includes consist followers
  else setThrottle2 a slot.speedCode

/-- Some of the low eight function bits. -/
def bits (functions : UInt32) (mask : UInt8) : UInt8 := functions.toUInt8 &&& mask

/-- The data byte of a function group packet: function groups 1 to 3 have a prefix in the byte. -/
def functionByte (functions : UInt32) (group : Nat) : UInt8 :=
  match group with
  | 1 => (128 : UInt8) ||| bits (functions >>> 1) 0x0F ||| bits (functions <<< 4) 0x10
  | 2 => (176 : UInt8) ||| bits (functions >>> 5) 0x0F
  | 3 => (160 : UInt8) ||| bits (functions >>> 9) 0x0F
  | 4 => (functions >>> 13).toUInt8
  | _ => (functions >>> 21).toUInt8

/-- The instruction byte that the packets of function groups 4 and 5 start with. -/
def functionInstruction : Nat → UInt8
  | 4 => 222
  | 5 => 223
  | _ => 0

/-- The function group that a loop state reminds; the even states remind the speed. -/
def groupOfLoopStatus : Nat → Option Nat
  | 1 => some 1
  | 3 => some 2
  | 5 => some 3
  | 7 => some 4
  | 9 => some 5
  | _ => none

/-- The flag of a function group. -/
def groupFlag (group : Nat) : UInt8 := 1 <<< UInt8.ofNat (group - 1)

/-- The loop state reminds speeds. -/
def speedStatus (loopStatus : Nat) : Bool := loopStatus % 2 == 0 && loopStatus < 10

/-- `DCC::issueReminder`: whether a reminder was sent. -/
def issueReminder (a : Addr) (now : UInt32) : Dcc Bool := do
  let slot ← onSlots (readSlot a)
  let s ← get
  if speedStatus s.loopStatus then
    -- dont remind consist followers here
    if slot.isConsistFollower then pure false
    else
      remindSpeed a now
      pure true
  else
    match groupOfLoopStatus s.loopStatus with
    | none => pure false
    | some group =>
      if slot.groupFlags &&& groupFlag group ≠ 0 then
        setFunctionInternal (s.platform.int slot.loco) group (functionInstruction group)
          (functionByte slot.functions group)
        pure true
      else pure false

/-- The loop of `issueReminders`: the slot after the one that was reminded. -/
def remindFrom (start : Option Addr) (now : UInt32) : Dcc (Option Addr) :=
  followSlots (fun a _ => do
    let sent ← issueReminder a now
    let slot ← onSlots (readSlot a)
    if sent then pure (none, slot.next) else pure (slot.next, none)) start none

/-- `DCC::issueReminders` -/
def issueReminders (now : UInt32) : Dcc Unit := do
  let s ← get
  if s.locos.chainModified ∨ s.nextLocoReminder = none then
    modify fun s => { s with
      locos := { s.locos with chainModified := false }
      nextLocoReminder := s.locos.firstSlot }
    if s.locos.firstSlot = none then pure ()  -- no locos at all
    else
      modify fun s => { s with
        loopStatus := if 9 < s.loopStatus + 1 then 0 else s.loopStatus + 1 }
      let next ← remindFrom s.locos.firstSlot now
      modify fun s => { s with nextLocoReminder := next }
  else
    let next ← remindFrom s.nextLocoReminder now
    modify fun s => { s with nextLocoReminder := next }

/-- `DCC::loop`: choose a packet to be sent, if the reminder window is open. The three times are
those at which the clock is read. -/
def loop (windowOpen : Bool) (pendingAt remindAt forcedAt : UInt32) : Dcc Unit := do
  when windowOpen do
    let sent ← scheduleNext false pendingAt
    when (sent = false) do
      issueReminders remindAt
      let _ ← scheduleNext true forcedAt
      pure ()

/-! ## Forgetting locos -/

/-- `DCC::forgetLoco` -/
def forgetLoco (cab : Int) : Dcc Unit := do
  let slot ← onSlots (LocoSlot.getSlot (UInt16.ofInt cab) false)
  match slot with
  | none => pure ()
  | some a =>
    setThrottleDCC (some a) 1  -- ESTOP this loco if still on track
    let slot ← onSlots (readSlot a)
    -- move on if we are about to forget this one
    modify fun s =>
      if s.nextLocoReminder = some a then { s with nextLocoReminder := slot.next } else s
    when (slot.isConsistLead || slot.isConsistFollower)
      (onSlots (DCCConsist.deleteAnyConsist (Int16.ofInt cab)))
    onSlots (LocoSlot.forget a)

/-- `DCC::forgetAllLocos` -/
def forgetAllLocos : Dcc Unit := do
  setThrottleDCC none 1  -- ESTOP all locos still on track
  onSlots LocoSlot.forgetAll
  modify fun s => { s with nextLocoReminder := none }

/-! ## Accessories -/

/-- `DCC::setAccessory`. `onoff` is 0 for an off packet, 1 for an on packet, else both are sent. -/
def setAccessory (address : Int) (port : UInt8) (gate : Bool) (onoff : UInt8) : Dcc Unit := do
  -- use masks to detect wrong values and do nothing
  if address < 0 ∨ 511 < address ∨ 3 < port then pure ()
  else
    let b0 := UInt8.ofNat (address.toNat % 64 + 128)
    let b1 := ((UInt8.ofNat (address.toNat / 64 % 8) <<< 4) + ((port % 4) <<< 1) +
      (if gate then 1 else 0)) ^^^ 0xF8
    if onoff = 0 then schedule (.scheduleDCCPacket [b0, b1 &&& 0xF7] 3 0)
    else if onoff = 1 then schedule (.scheduleDCCPacket [b0, b1] 3 0)
    else schedule (.scheduleAccOnOffPacket [b0, b1] 3 100)  -- On then off after 100mS

end CommandStation.DCC
