import CommandStation.Lib.ByteStore
import CommandStation.Turnouts.Basic

/-!
# The records in the EEPROM

`EEPROM.put` and `EEPROM.get` copy a struct as it lies in memory. These are the structs on the AVR,
where nothing is padded and a bit field starts at the next free bit.
-/

namespace CommandStation.EEStore

open Lib

/-- `struct EEStoreData`: the identification and the numbers of records. -/
structure EEStoreData where
  id : BitVec 56
  nTurnouts : UInt16
  nSensors : UInt16
  nOutputs : UInt16
  deriving DecidableEq, Repr

/-- `EESTORE_ID`, which is `"DCC++1"` with the zero behind it. -/
def eestoreId : BitVec 56 := .ofNat 56 (ofBytes [0x44, 0x43, 0x43, 0x2b, 0x2b, 0x31, 0])

/-- `struct TurnoutData`. The constructor leaves `_rfu` as it finds it in the memory. -/
structure TurnoutData where
  closed : Bool
  hidden : Bool
  rfu : Bool
  turnoutType : BitVec 5
  id : UInt16
  deriving DecidableEq, Repr

/-- `struct ServoTurnoutData` -/
structure ServoTurnoutData where
  vpin : UInt16
  closedPosition : BitVec 12
  thrownPosition : BitVec 12
  profile : UInt8
  deriving DecidableEq, Repr

/-- `struct DCCTurnoutData` -/
structure DCCTurnoutData where
  address : BitVec 14
  subAddress : BitVec 2
  deriving DecidableEq, Repr

/-- `struct VpinTurnoutData` -/
structure VpinTurnoutData where
  vpin : UInt16
  deriving DecidableEq, Repr

/-- `struct SensorData` -/
structure SensorData where
  snum : Int16
  pin : UInt16
  pullUp : UInt8
  deriving DecidableEq, Repr

/-- `struct OutputData` -/
structure OutputData where
  flags : BitVec 7
  active : Bool
  id : UInt16
  pin : UInt16
  deriving DecidableEq, Repr

namespace OutputData

variable (data : OutputData)

/-- Bit 0 of the flags: the output is active low. -/
def invert : Bool := data.flags.getLsbD 0

/-- Bit 1 of the flags: the output starts in its default state. -/
def setDefault : Bool := data.flags.getLsbD 1

/-- Bit 2 of the flags. -/
def defaultValue : Bool := data.flags.getLsbD 2

end OutputData

/-! ## Layouts -/

section Layouts

open Field

def eeStoreData : ByteLayout EEStoreData :=
  ((bits 56).seq (uint16.seq (uint16.seq uint16))).layout 13
    (fun d => (d.id, d.nTurnouts, d.nSensors, d.nOutputs))
    (fun (id, nTurnouts, nSensors, nOutputs) => ⟨id, nTurnouts, nSensors, nOutputs⟩)
    (fun _ => rfl) rfl

def turnoutData : ByteLayout TurnoutData :=
  (bool.seq (bool.seq (bool.seq ((bits 5).seq uint16)))).layout 3
    (fun d => (d.closed, d.hidden, d.rfu, d.turnoutType, d.id))
    (fun (closed, hidden, rfu, turnoutType, id) => ⟨closed, hidden, rfu, turnoutType, id⟩)
    (fun _ => rfl) rfl

def servoTurnoutData : ByteLayout ServoTurnoutData :=
  (uint16.seq ((bits 12).seq ((bits 12).seq uint8))).layout 6
    (fun d => (d.vpin, d.closedPosition, d.thrownPosition, d.profile))
    (fun (vpin, closedPosition, thrownPosition, profile) =>
      ⟨vpin, closedPosition, thrownPosition, profile⟩)
    (fun _ => rfl) rfl

def dccTurnoutData : ByteLayout DCCTurnoutData :=
  ((bits 14).seq (bits 2)).layout 2 (fun d => (d.address, d.subAddress))
    (fun (address, subAddress) => ⟨address, subAddress⟩) (fun _ => rfl) rfl

def vpinTurnoutData : ByteLayout VpinTurnoutData :=
  uint16.layout 2 VpinTurnoutData.vpin VpinTurnoutData.mk (fun _ => rfl) rfl

def sensorData : ByteLayout SensorData :=
  (int16.seq (uint16.seq uint8)).layout 5 (fun d => (d.snum, d.pin, d.pullUp))
    (fun (snum, pin, pullUp) => ⟨snum, pin, pullUp⟩) (fun _ => rfl) rfl

def outputData : ByteLayout OutputData :=
  ((bits 7).seq (bool.seq (uint16.seq uint16))).layout 5
    (fun d => (d.flags, d.active, d.id, d.pin))
    (fun (flags, active, id, pin) => ⟨flags, active, id, pin⟩) (fun _ => rfl) rfl

@[simp] theorem width_eeStoreData : eeStoreData.width = 13 := rfl
@[simp] theorem width_turnoutData : turnoutData.width = 3 := rfl
@[simp] theorem width_servoTurnoutData : servoTurnoutData.width = 6 := rfl
@[simp] theorem width_dccTurnoutData : dccTurnoutData.width = 2 := rfl
@[simp] theorem width_vpinTurnoutData : vpinTurnoutData.width = 2 := rfl
@[simp] theorem width_sensorData : sensorData.width = 5 := rfl
@[simp] theorem width_outputData : outputData.width = 5 := rfl

end Layouts

end CommandStation.EEStore
