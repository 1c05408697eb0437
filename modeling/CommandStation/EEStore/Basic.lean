import CommandStation.EEStore.Layout
import Mathlib.Data.List.Defs
import Mathlib.Logic.Function.Iterate

/-!
# Storing the definitions in the EEPROM

`<E>` writes the turnouts, the sensors and the outputs behind one another, each list in its order,
and the numbers of them into the header; `EEStore::init` reads them back after a restart. A
turnout or an output that has a record in the EEPROM keeps the address of the byte with its state,
and this byte is written anew when the state changes.
-/

namespace CommandStation.EEStore

open Lib

/-- `class Output`. `num` is the address of `oStatus` in the EEPROM, or 0. -/
structure Output where
  data : OutputData
  num : UInt16
  deriving DecidableEq, Repr

/-- The EEPROM, the header as `eeStore` has it, the address of the next record, and the lists of
objects. Of a sensor only its definition takes part. -/
structure St where
  eeprom : ByteStore
  eeStore : EEStoreData
  eeAddress : Nat
  turnouts : List Turnout
  sensors : List SensorData
  outputs : List Output

def VPIN_MAX : UInt16 := 32767
def VPIN_NONE : UInt16 := 65535

/-- The station after its power came on: no objects, and a header of zeros. -/
def powerOn (eeprom : ByteStore) : St where
  eeprom := eeprom
  eeStore := ⟨0, 0, 0, 0⟩
  eeAddress := 0
  turnouts := []
  sensors := []
  outputs := []

/-- `EEStore::reset`. The records follow the header. -/
def reset (s : St) : St := { s with eeAddress := eeStoreData.width }

/-- `EEStore::advance` -/
def advance (n : Nat) (s : St) : St := { s with eeAddress := s.eeAddress + n }

/-- `EEPROM.get(EEStore::pointer(), x)` -/
def get {α : Type} (L : ByteLayout α) (s : St) : α := L.get s.eeprom s.eeAddress

/-- `EEPROM.put(EEStore::pointer(), x); EEStore::advance(sizeof(x));` -/
def put {α : Type} (L : ByteLayout α) (x : α) (s : St) : St :=
  advance L.width { s with eeprom := L.put s.eeprom s.eeAddress x }

/-! ## Turnouts -/

/-- `turnoutType` -/
def turnoutType : TurnoutKind → BitVec 5
  | .dcc .. => 1
  | .servo .. => 2
  | .vpin _ => 3
  | .lcn => 4

/-- The data of the subclass as its bit fields keep it. -/
def narrow : TurnoutKind → TurnoutKind
  | .servo vpin closedPosition thrownPosition profile =>
    .servo vpin (closedPosition % 4096) (thrownPosition % 4096) profile
  | .dcc address subAddress => .dcc (address % 16384) (subAddress % 4)
  | kind => kind

/-- `_turnoutData`, with the bit that nobody sets. -/
def Turnout.data (rfu : Bool) (tt : Turnout) : TurnoutData where
  closed := tt.closed
  hidden := tt.hidden
  rfu := rfu
  turnoutType := turnoutType tt.kind
  id := tt.id

/-- The byte `flags` of `TurnoutData`. -/
def TurnoutData.flags (d : TurnoutData) : UInt8 :=
  .ofNat (d.closed.toNat + 2 * d.hidden.toNat + 4 * d.rfu.toNat + 8 * d.turnoutType.toNat)

/-- `Turnout::add` -/
def Turnout.add (tt : Turnout) (s : St) : St := { s with turnouts := s.turnouts ++ [tt] }

/-- `Turnout::remove` -/
def Turnout.remove (id : UInt16) (s : St) : St :=
  { s with turnouts := s.turnouts.eraseP fun tt => tt.id == id }

/-- What the four `create` functions do: an object of the same type gets new parameters and keeps
its state, any other object is replaced. Gives the place of the object on the list. -/
def Turnout.create (id : UInt16) (kind : TurnoutKind) (closed : Bool) (s : St) : Nat × St :=
  let new : Turnout := ⟨id, closed, false, kind, 0⟩
  match s.turnouts.findIdx? fun tt => tt.id == id with
  | none => (s.turnouts.length, Turnout.add new s)
  | some i =>
    if (s.turnouts[i]?.map fun tt => turnoutType tt.kind) = some (turnoutType kind) then
      (i, { s with turnouts := s.turnouts.modify i fun tt => { tt with kind := kind } })
    else
      (s.turnouts.length - 1, Turnout.add new (Turnout.remove id s))

/-- `ServoTurnout::create` -/
def ServoTurnout.create (id vpin thrownPosition closedPosition : UInt16) (profile : UInt8)
    (closed : Bool) : St → Nat × St :=
  Turnout.create id (narrow (.servo vpin closedPosition thrownPosition profile)) closed

/-- `DCCTurnout::create` -/
def DCCTurnout.create (id add : UInt16) (subAdd : UInt8) : St → Nat × St :=
  Turnout.create id (narrow (.dcc add subAdd)) false

/-- `VpinTurnout::create` -/
def VpinTurnout.create (id vpin : UInt16) (closed : Bool) : St → Nat × St :=
  Turnout.create id (.vpin vpin) closed

/-- `LCNTurnout::create` -/
def LCNTurnout.create (id : UInt16) (closed : Bool) : St → Nat × St :=
  Turnout.create id .lcn closed

/-- `ServoTurnout::load` -/
def ServoTurnout.load (turnoutData : TurnoutData) (s : St) : Nat × St :=
  let d := get servoTurnoutData s
  ServoTurnout.create turnoutData.id d.vpin (.ofNat d.thrownPosition.toNat)
    (.ofNat d.closedPosition.toNat) d.profile turnoutData.closed
    (advance servoTurnoutData.width s)

/-- `DCCTurnout::load`. The constructor makes the turnout thrown, and does not ask whether there
is a turnout with this id. -/
def DCCTurnout.load (turnoutData : TurnoutData) (s : St) : Nat × St :=
  let d := get dccTurnoutData s
  let kind := .dcc (.ofNat d.address.toNat) (.ofNat d.subAddress.toNat)
  (s.turnouts.length,
    Turnout.add ⟨turnoutData.id, false, false, kind, 0⟩ (advance dccTurnoutData.width s))

/-- `VpinTurnout::load` -/
def VpinTurnout.load (turnoutData : TurnoutData) (s : St) : Nat × St :=
  let d := get vpinTurnoutData s
  (s.turnouts.length,
    Turnout.add ⟨turnoutData.id, turnoutData.closed, false, .vpin d.vpin, 0⟩
      (advance vpinTurnoutData.width s))

/-- `tt->_eepromAddress = eepromAddress`. The flags are the first byte of the record. -/
def Turnout.setEepromAddress (eepromAddress : Nat) (tt : Nat × St) : St :=
  let address : UInt16 := .ofNat eepromAddress
  { tt.2 with turnouts := tt.2.turnouts.modify tt.1 fun t => { t with eepromAddress := address } }

/-- `Turnout::loadTurnout`. Of a record of another type only the common part is read. -/
def Turnout.loadTurnout (s : St) : St :=
  let data := get turnoutData s
  let s' := advance turnoutData.width s
  match data.turnoutType.toNat with
  | 1 => Turnout.setEepromAddress s.eeAddress (DCCTurnout.load data s')
  | 2 => Turnout.setEepromAddress s.eeAddress (ServoTurnout.load data s')
  | 3 => Turnout.setEepromAddress s.eeAddress (VpinTurnout.load data s')
  | _ => s'

/-- `Turnout::load` -/
def Turnout.load (s : St) : St := Turnout.loadTurnout^[s.eeStore.nTurnouts.toNat] s

/-- `save` of the four classes. LCN turnouts are not written. -/
def Turnout.save (rfu : Bool) (tt : Turnout) (s : St) : St :=
  let data := Turnout.data rfu tt
  match tt.kind with
  | .servo vpin closedPosition thrownPosition profile =>
    put servoTurnoutData ⟨vpin, .ofNat 12 closedPosition.toNat, .ofNat 12 thrownPosition.toNat,
      profile⟩ (put turnoutData data s)
  | .dcc address subAddress =>
    put dccTurnoutData ⟨.ofNat 14 address.toNat, .ofNat 2 subAddress.toNat⟩ (put turnoutData data s)
  | .vpin vpin => put vpinTurnoutData ⟨vpin⟩ (put turnoutData data s)
  | .lcn => s

/-- `tt->save(); EEStore::eeStore->data.nTurnouts++;` -/
def Turnout.storeTurnout (rfu : UInt16 → Bool) (s : St) (tt : Turnout) : St :=
  let s := Turnout.save (rfu tt.id) tt s
  { s with eeStore.nTurnouts := s.eeStore.nTurnouts + 1 }

/-- `Turnout::store` -/
def Turnout.store (rfu : UInt16 → Bool) (s : St) : St :=
  s.turnouts.foldl (Turnout.storeTurnout rfu) { s with eeStore.nTurnouts := 0 }

/-- The address to which `setClosed` writes the flags of the turnout. -/
def Turnout.flagsAddress (s : St) (tt : Turnout) : Option Nat :=
  if 0 < s.eeStore.nTurnouts ∧ 0 < tt.eepromAddress then some tt.eepromAddress.toNat else none

/-- `Turnout::setClosed`. No type of turnout refuses to move. -/
def Turnout.setClosed (rfu : UInt16 → Bool) (id : UInt16) (closeFlag : Bool) (s : St) : St :=
  match Turnout.get s.turnouts id with
  | none => s
  | some tt =>
    let s := { s with
      turnouts := Turnout.modify s.turnouts id fun tt => { tt with closed := closeFlag } }
    match Turnout.flagsAddress s tt with
    | none => s
    | some a =>
      let tt := { tt with closed := closeFlag }
      { s with eeprom := s.eeprom.write a [(Turnout.data (rfu id) tt).flags] }

/-- `setHidden` of the turnout with this id. -/
def Turnout.setHidden (id : UInt16) (h : Bool) (s : St) : St :=
  { s with turnouts := Turnout.modify s.turnouts id fun tt => { tt with hidden := h } }

/-! ## Sensors -/

/-- `Sensor::remove` -/
def Sensor.remove (n : Int16) (s : St) : St :=
  { s with sensors := s.sensors.eraseP fun tt => tt.snum == n }

/-- `Sensor::create`. The new sensor becomes the first of the list. -/
def Sensor.create (snum : Int16) (pin : UInt16) (pullUp : UInt8) (s : St) : St :=
  if pin > VPIN_MAX ∧ pin ≠ VPIN_NONE then s
  else
    let s := Sensor.remove snum s
    { s with sensors := ⟨snum, pin, pullUp⟩ :: s.sensors }

/-- One turn of `Sensor::load`. -/
def Sensor.loadSensor (s : St) : St :=
  let data := get sensorData s
  advance sensorData.width (Sensor.create data.snum data.pin data.pullUp s)

/-- `Sensor::load` -/
def Sensor.load (s : St) : St := Sensor.loadSensor^[s.eeStore.nSensors.toNat] s

/-- One turn of `Sensor::store`. -/
def Sensor.storeSensor (s : St) (tt : SensorData) : St :=
  let s := put sensorData tt s
  { s with eeStore.nSensors := s.eeStore.nSensors + 1 }

/-- `Sensor::store` -/
def Sensor.store (s : St) : St :=
  s.sensors.foldl Sensor.storeSensor { s with eeStore.nSensors := 0 }

/-! ## Outputs -/

/-- The byte `oStatus` of `OutputData`. -/
def OutputData.oStatus (d : OutputData) : UInt8 := .ofNat (d.flags.toNat + 128 * d.active.toNat)

/-- `Output::remove` -/
def Output.remove (n : UInt16) (s : St) : St :=
  { s with outputs := s.outputs.eraseP fun tt => tt.data.id == n }

/-- The address to which `activate` writes the status of the output. -/
def Output.statusAddress (s : St) (tt : Output) : Option Nat :=
  if 0 < s.eeStore.nOutputs ∧ 0 < tt.num then some tt.num.toNat else none

/-- `Output::activate` on the output at place `i` of the list. -/
def Output.activate (i : Nat) (state : Bool) (s : St) : St :=
  match s.outputs[i]? with
  | none => s
  | some tt =>
    let data := { tt.data with active := state }
    let s := { s with outputs := s.outputs.set i { tt with data := data } }
    match Output.statusAddress s tt with
    | none => s
    | some a => { s with eeprom := s.eeprom.write a [data.oStatus] }

/-- `Output::create`, with the place of the object on the list. With `v` the output is set to its
initial state. -/
def Output.create (id pin : UInt16) (iFlag : BitVec 7) (v : Bool) (s : St) : Option (Nat × St) :=
  if pin > VPIN_MAX then none
  else
    let found := s.outputs.findIdx? fun tt => tt.data.id == id
    let blank : Output := ⟨⟨0, false, 0, 0⟩, 0⟩
    let outputs := if found.isSome then s.outputs else s.outputs ++ [blank]
    let i := found.getD s.outputs.length
    let init (tt : Output) : Output :=
      let data : OutputData := ⟨iFlag, tt.data.active, id, pin⟩
      ⟨if v then { data with active := data.setDefault && data.defaultValue } else data, 0⟩
    some (i, { s with outputs := outputs.modify i init })

/-- One turn of `Output::load`, which takes for granted that `create` gives an output. -/
def Output.loadOutput (s : St) : Option St :=
  let data := get outputData s
  (Output.create data.id data.pin data.flags false s).map fun (i, s) =>
    let state := if data.setDefault then data.defaultValue else data.active
    let s := Output.activate i state s
    let num : UInt16 := .ofNat s.eeAddress
    advance outputData.width
      { s with outputs := s.outputs.modify i fun tt => { tt with num := num } }

/-- `n` turns of `Output::load`. -/
def Output.loadOutputs : Nat → St → Option St
  | 0, s => some s
  | n + 1, s => (Output.loadOutput s).bind (Output.loadOutputs n)

/-- `Output::load` -/
def Output.load (s : St) : Option St := Output.loadOutputs s.eeStore.nOutputs.toNat s

/-- One turn of `Output::store`. The output is the one at the place that `nOutputs` counts. -/
def Output.storeOutput (s : St) (tt : Output) : St × Output :=
  let num : UInt16 := .ofNat s.eeAddress
  let s := put outputData tt.data s
  ({ s with eeStore.nOutputs := s.eeStore.nOutputs + 1 }, { tt with num := num })

/-- The turns of `Output::store` over the list. -/
def Output.storeOutputs : List Output → St → St × List Output
  | [], s => (s, [])
  | tt :: outputs, s =>
    let (s, tt) := Output.storeOutput s tt
    let (s, outputs) := Output.storeOutputs outputs s
    (s, tt :: outputs)

/-- `Output::store` -/
def Output.store (s : St) : St :=
  let (s', outputs) := Output.storeOutputs s.outputs { s with eeStore.nOutputs := 0 }
  { s' with outputs := outputs }

/-! ## The store -/

/-- `EEPROM.put(0, eeStore->data)` -/
def putHeader (s : St) : St := { s with eeprom := eeStoreData.put s.eeprom 0 s.eeStore }

/-- `EEStore::clear` -/
def clear (s : St) : St := putHeader { s with eeStore := ⟨eestoreId, 0, 0, 0⟩ }

/-- `EEStore::store` -/
def store (rfu : UInt16 → Bool) (s : St) : St :=
  putHeader (Output.store (Sensor.store (Turnout.store rfu (reset s))))

/-- The header that `EEStore::init` goes on with. -/
def initHeader (s : St) : St :=
  let data := eeStoreData.get s.eeprom 0
  if data.id = eestoreId then { s with eeStore := data } else clear s

/-- `EEStore::init` -/
def init (s : St) : Option St := Output.load (Sensor.load (Turnout.load (reset (initHeader s))))

end CommandStation.EEStore
