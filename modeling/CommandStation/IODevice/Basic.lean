import CommandStation.DCC.Station
import CommandStation.I2CManager.Basic

/-!
# Devices

A device driver owns a range of vpins. The devices stand in a chain, in the order in which they were
added. A driver's `create` asks `checkNoOverlap` before it makes a new device, with the first vpin and the
number of pins that it was given; how many of the pins the device keeps is up to its constructor.

The drivers here are those that hand on what they were given. All values are integers: a VPIN is a
`uint16_t`, and an `int` has 16 or 32 bits.
-/

namespace CommandStation

/-- A value that is converted to an `int`. -/
def Platform.toInt (platform : Platform) (n : Int) : Int :=
  match platform with
  | .uno | .avr => n.bmod 65536
  | .arm | .esp32 => n.bmod 4294967296

/-- An `int` that is added to a VPIN. On the AVR boards both are converted to `unsigned int`. -/
def Platform.addVpin (platform : Platform) (vpin : UInt16) (n : Int) : Int :=
  match platform with
  | .uno | .avr => (vpin.toNat + n) % 65536
  | .arm | .esp32 => vpin.toNat + n

/-- A value that is converted to a VPIN. -/
def toVpin (n : Int) : UInt16 := UInt16.ofNat (n % 65536).toNat

namespace I2C

/-- `SubBus_None` -/
def subBusNone : UInt8 := 254

/-- `operator ==` of `struct I2CAddress` -/
def I2CAddress.same (a b : I2CAddress) : Bool :=
  if a.deviceAddress ≠ b.deviceAddress then false
  else if a.muxNumber = muxNone ∨ b.muxNumber = muxNone then true
  else if a.subBus = subBusNone ∨ b.subBus = subBusNone then true
  else a.muxNumber = b.muxNumber ∧ a.subBus = b.subBus

end I2C

/-- The fields of `class IODevice` that say what a device owns. -/
structure IODevice where
  firstVpin : UInt16
  nPins : Int
  i2cAddress : I2C.I2CAddress
  deriving DecidableEq, Repr

namespace IODevice

/-- `IODevice::owns` -/
def owns (platform : Platform) (dev : IODevice) (vpin : UInt16) : Bool :=
  dev.firstVpin ≤ vpin ∧ vpin.toNat < platform.addVpin dev.firstVpin dev.nPins

/-- `IODevice::findDevice`: the first device of the chain that owns the vpin. -/
def findDevice (platform : Platform) (chain : List IODevice) (vpin : UInt16) : Option IODevice :=
  chain.find? fun dev => dev.owns platform vpin

/-- `IODevice::addDevice` without a slave device. -/
def addDevice (chain : List IODevice) (newDevice : IODevice) : List IODevice := chain ++ [newDevice]

/-- `firstDevPin + dev->_nPins - 1` as a VPIN. -/
def lastPin (firstPin : UInt16) (nPins : Int) : UInt16 := toVpin (firstPin.toNat + nPins - 1)

/-- The check of `checkNoOverlap` for one device of the chain. -/
def noOverlap (firstPin : UInt16) (nPins : UInt8) (i2cAddress : I2C.I2CAddress) (dev : IODevice) : Bool :=
  (if 0 < nPins ∧ 0 < dev.nPins then
      -- pin range overlaps
      lastPin dev.firstVpin dev.nPins < firstPin ∨ lastPin firstPin nPins.toNat < dev.firstVpin
    else true) &&
  -- overlapping I2C address
  !(i2cAddress.deviceAddress ≠ 0 ∧ dev.i2cAddress.same i2cAddress)

/-- `IODevice::checkNoOverlap` -/
def checkNoOverlap (chain : List IODevice) (firstPin : UInt16) (nPins : UInt8)
    (i2cAddress : I2C.I2CAddress) : Bool :=
  chain.all (noOverlap firstPin nPins i2cAddress)

/-! ## Creating devices -/

/-- The drivers. `gpio8` and `gpio16` are those of the port expanders with 8 and 16 pins. -/
inductive Driver where
  | exioExpander | pca9685 | pca9685pwm | touchKeypad | ads111x | exSensorCAM | rotaryEncoder | vl53l0x
  | bitmap | duinoNodes | neoPixel | exampleSerial | i2cRailcom | dccAccessoryDecoder | flags
  | gpio8 | gpio16 | tca8418
  deriving DecidableEq, Repr

namespace Driver

/-- The most pins that the constructor keeps. -/
def maxPins : Driver → Option Int
  | exioExpander => some 256
  | pca9685 | pca9685pwm | touchKeypad | gpio16 => some 16
  | ads111x => some 4
  | exSensorCAM | tca8418 => some 80
  | rotaryEncoder | vl53l0x => some 3
  | gpio8 => some 8
  | bitmap | duinoNodes | neoPixel | exampleSerial | i2cRailcom | dccAccessoryDecoder | flags => none

/-- `create` takes the number of pins as a `uint8_t`. -/
def takesByte : Driver → Bool
  | gpio8 | gpio16 | tca8418 => true
  | _ => false

/-- The number of pins that a device has. -/
def keptPins (driver : Driver) (platform : Platform) (nPins : Int) : Int :=
  let nPins := if driver.takesByte then nPins % 256 else platform.toInt nPins
  match driver.maxPins with
  | some m => if m < nPins then m else nPins
  | none => nPins

end Driver

/-- A call of a driver's `create`. -/
structure Request where
  driver : Driver
  firstVpin : UInt16
  nPins : Int
  i2cAddress : I2C.I2CAddress
  deriving DecidableEq, Repr

namespace Request

/-- The number of pins as `checkNoOverlap` gets it, a `uint8_t`. -/
def checkedPins (q : Request) : UInt8 := UInt8.ofNat (q.nPins % 256).toNat

/-- The device that is made. -/
def device (q : Request) (platform : Platform) : IODevice :=
  ⟨q.firstVpin, q.driver.keptPins platform q.nPins, q.i2cAddress⟩

/-- The driver's `create`. -/
def create (platform : Platform) (chain : List IODevice) (q : Request) : List IODevice :=
  if checkNoOverlap chain q.firstVpin q.checkedPins q.i2cAddress then addDevice chain (q.device platform)
  else chain

end Request

end IODevice

end CommandStation
