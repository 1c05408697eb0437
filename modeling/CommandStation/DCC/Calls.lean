import CommandStation.DCC.Basic
import CommandStation.DCCACK.Basic

/-!
# Calls of EXRAIL and the throttles

The calls of `DCC` that ask for the speed of a loco, those that keep a speed for later, and two that
only send a packet. A loco without a slot counts as stopped in forward direction.
-/

namespace CommandStation.DCC

open CommandStation.Lib

/-- `DCC::getThrottleSpeedByte`: the throttle set speed, 128 (speed 0, dir forward) on "loco not
found". -/
def getThrottleSpeedByte (cab : UInt16) : Dcc UInt8 := onSlots do
  let slot ← LocoSlot.getSlot cab false
  match slot with
  | some a =>
    let slot ← readSlot a
    pure slot.targetSpeed
  | none => pure 128

/-- `DCC::getThrottleSpeed`: speed steps 0 to 127 (1 == emergency stop). -/
def getThrottleSpeed (cab : UInt16) : Dcc UInt8 := do
  let speed ← getThrottleSpeedByte cab
  pure (speed &&& 0x7F)

/-- `DCC::getThrottleDirection`: true is forward. -/
def getThrottleDirection (cab : UInt16) : Dcc Bool := do
  let speed ← getThrottleSpeedByte cab
  pure (speed &&& 0x80 != 0)

/-- `DCC::saveSpeed` -/
def saveSpeed (cab : UInt16) : Dcc Unit := do
  let slot ← onSlots (LocoSlot.getSlot cab false)
  match slot with
  | none => pure ()
  | some a => onSlots (writeSlot a fun slot => { slot with savedSpeedCode := slot.targetSpeed })

/-- `DCC::restoreSpeed` -/
def restoreSpeed (cab : UInt16) (now : UInt32) : Dcc Unit := do
  let slot ← onSlots (LocoSlot.getSlot cab false)
  match slot with
  | none => pure ()
  | some a =>
    let slot ← onSlots (readSlot a)
    let speedCode := slot.savedSpeedCode
    let _ ← setThrottle cab (speedCode &&& 0x7F) (speedCode &&& 0x80 != 0) now

/-- `DCC::changeFn` -/
def changeFn (cab : Int) (functionNumber : Int16) : Dcc Unit := do
  let currentValue ← getFn cab functionNumber
  match currentValue with
  | none => pure ()  -- function not valid for change
  | some on =>
    let _ ← setFn cab functionNumber (!on)

/-- `DCC::writeCVByteMain`: write a byte with PoM on main. -/
def writeCVByteMain (cab : Int) (cv : UInt16) (bValue : UInt8) : Dcc Unit :=
  schedule (.scheduleDCCPacket
    (addressBytes (UInt16.ofInt cab) (highestShortAddr < cab) ++ [cv1 0xEC cv, cv2 cv, bValue]) 4
    (UInt16.ofInt cab))

/-- `DCC::readCVByteMain`: read a byte with PoM on main; the answer comes by Railcom. -/
def readCVByteMain (cab : Int) (cv : UInt16) : Dcc Unit :=
  schedule (.scheduleDCCPacket
    (addressBytes (UInt16.ofInt cab) (highestShortAddr < cab) ++ [cv1 0xE4 cv, cv2 cv, 0]) 2
    (UInt16.ofInt cab))

/-- `DCC::writeCVBitMain`: write a bit of a byte with PoM on main. -/
def writeCVBitMain (cab : Int) (cv : UInt16) (bNum : UInt8) (bValue : Bool) : Dcc Unit :=
  schedule (.scheduleDCCPacket
    (addressBytes (UInt16.ofInt cab) (highestShortAddr < cab) ++
      [cv1 0xE8 cv, cv2 cv, 0xF0 ||| (if bValue then 0x08 else 0x00) ||| bNum % 8]) 4
    (UInt16.ofInt cab))

/-- `DCC::setExtendedAccessory` with its default of 3 repeats. The address runs from 1 as in
RCN-213, the packet has it with an offset of 3. -/
def setExtendedAccessory (address value : Int16) : Dcc Bool :=
  if 2044 < address ∨ address < -3 then pure false
  else if value ≠ value &&& 0x1F then pure false
  else do
    let address := (address + 3).toUInt16
    let high := (0x80 : UInt16) ||| (address >>> 2 &&& 0x3F)
    let low := (0x01 : UInt16) ||| (~~~(address >>> 8) &&& 0x07) <<< 4 ||| (address &&& 0x03) <<< 1
    schedule (.scheduleDCCPacket [high.toUInt8, low.toUInt8, value.toUInt16.toUInt8] 3 0)
    pure true

end CommandStation.DCC
