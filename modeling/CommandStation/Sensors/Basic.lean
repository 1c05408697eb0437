import CommandStation.Lib.Program
import Mathlib.Data.List.Nodup

/-!
# Sensors

The sensors are on a list, new ones at its head. `checkAll` examines them one after the other; it
keeps its place in the list between its calls as a pointer to the next sensor, and starts a new
cycle at the head when it has come to the end and enough time has passed.

A sensor is known by the address of its object, which is never used again; a read through a pointer
to an object that is not on the list is a fault. The sensors of `SensorGroup` have a module of their own.
-/

namespace CommandStation

open CommandStation.Lib

/-- `class Sensor` -/
structure Sensor where
  address : Nat
  snum : Int16
  pin : UInt16
  pullUp : UInt8
  active : Bool
  inputState : Bool
  latchDelay : Nat
  pollingRequired : Bool
  deriving DecidableEq, Repr

/-- The read went through a pointer to a sensor that is not on the list. -/
inductive SensorFault where
  | dangling
  deriving DecidableEq, Repr

/-- The statics of `Sensor`: the list from `firstSensor` on, the sensor to be examined next, and
the start of the last cycle. `fresh` is the next address that `calloc` returns. -/
structure Sensors where
  list : List Sensor
  readingSensor : Option Nat
  lastReadCycle : UInt32
  fresh : Nat
  deriving DecidableEq, Repr

abbrev Sen (α : Type) : Type := Prog Sensors SensorFault α

namespace Sensors

/-- Min time between the starts of two cycles, in microseconds. -/
def cycleInterval : UInt32 := 10000

/-- Number of additional scans before acting on change. -/
def minReadCount : Nat := 1

/-- The sensors processed in one call of `checkAll`. -/
def maxPerEntry : Nat := 16

def vpinMax : UInt16 := 32767
def vpinNone : UInt16 := 65535

/-- No sensors. -/
def init : Sensors := ⟨[], none, 0, 0⟩

/-- The sensor at an address, with those behind it. -/
def at? (list : List Sensor) (a : Nat) : Option (Sensor × List Sensor) :=
  match list with
  | [] => none
  | tt :: rest => if tt.address = a then some (tt, rest) else at? rest a

/-- The pointer to the first sensor of a list. -/
def pointer (list : List Sensor) : Option Nat := list.head?.map Sensor.address

/-- Rewrite the sensor at an address. -/
def update (list : List Sensor) (a : Nat) (f : Sensor → Sensor) : List Sensor :=
  list.map fun tt => if tt.address = a then f tt else tt

/-! ## `checkAll` -/

/-- The input of a sensor, read from its pin if it has to be polled. -/
def polled (read : UInt16 → Bool) (tt : Sensor) : Bool :=
  if tt.pollingRequired ∧ tt.pin ≠ vpinNone then read tt.pin else tt.inputState

/-- A sensor after it was examined, and whether its change is reported. -/
def examined (read : UInt16 → Bool) (tt : Sensor) : Sensor × Bool :=
  let tt := { tt with inputState := polled read tt }
  if tt.inputState = tt.active then
    ({ tt with latchDelay := minReadCount }, false)     -- no change
  else if 0 < tt.latchDelay then
    ({ tt with latchDelay := tt.latchDelay - 1 }, false)
  else  -- change validated, act on it
    ({ tt with active := tt.inputState, latchDelay := minReadCount }, true)

/-- One turn of the loop of `checkAll`, for the sensor at address `a`: whether to pause. -/
def checkSensor (read : UInt16 → Bool) (a : Nat) : Sen Bool := do
  let s ← get
  match at? s.list a with
  | none => throw .dangling
  | some (tt, rest) =>
    let r := examined read tt
    set { s with
      list := update s.list a fun _ => r.1
      readingSensor := pointer rest }
    pure r.2

/-- The loop of `checkAll`, which `count` more sensors may be examined in. Gives the addresses of
the sensors that were. -/
def checkFrom (read : UInt16 → Bool) : Nat → Sen (List Nat)
  | 0 => pure []
  | count + 1 => do
    let s ← get
    match s.readingSensor with
    | none => pure []
    | some a =>
      let pause ← checkSensor read a
      if pause then pure [a]
      else
        let more ← checkFrom read count
        pure (a :: more)

/-- Start a new cycle if the last one has come to its end and the time has elapsed. -/
def startCycle (thisTime : UInt32) : Sen Bool := do
  let s ← get
  if s.readingSensor = none ∧ cycleInterval ≤ thisTime - s.lastReadCycle then
    set { s with readingSensor := pointer s.list, lastReadCycle := thisTime }
    pure true
  else pure false

/-- `Sensor::checkAll`: whether a cycle was started, and the sensors that were examined. -/
def checkAll (thisTime : UInt32) (read : UInt16 → Bool) : Sen (Bool × List Nat) := do
  let s ← get
  if s.list = [] then pure (false, [])   -- No sensors to be scanned
  else
    let started ← startCycle thisTime
    let addresses ← checkFrom read maxPerEntry
    pure (started, addresses)

/-! ## The list -/

/-- `Sensor::remove`, with the address of the sensor that was freed. -/
def remove (n : Int16) : Sen (Option Nat) := do
  let s ← get
  match s.list.find? fun tt => tt.snum == n with
  | none => pure none
  | some tt =>
    set { s with
      list := s.list.filter fun other => other.address != tt.address
      -- If the sensor being deleted is the next one to be read, make the following one the next.
      readingSensor :=
        if s.readingSensor = some tt.address then
          (at? s.list tt.address).bind fun found => pointer found.2
        else s.readingSensor }
    pure (some tt.address)

/-- `Sensor::create`, with the address of the sensor of the same id that it replaces. Memory may
run out; `hasCallback` is what the device says about the pin. -/
def create (snum : Int16) (pin : UInt16) (pullUp : UInt8) (memory hasCallback : Bool) :
    Sen (Option Nat) := do
  if vpinMax < pin ∧ pin ≠ vpinNone then pure none
  else
    let removed ← remove snum
    when memory do
      modify fun s => { s with
        list := {
          address := s.fresh
          snum := snum
          pin := pin
          pullUp := pullUp
          active := false
          inputState := false
          latchDelay := minReadCount
          pollingRequired := !(pin == vpinNone || hasCallback) } :: s.list
        fresh := s.fresh + 1 }
    pure removed

/-- `Sensor::setState` of the sensor with this id. -/
def setState (n : Int16) (value : Bool) : Sen Unit :=
  modify fun s =>
    match s.list.find? fun tt => tt.snum == n with
    | none => s
    | some tt => { s with
        list := update s.list tt.address fun tt => { tt with inputState := value, latchDelay := 0 } }

/-- `Sensor::inputChangeCallback` -/
def inputChangeCallback (vpin : UInt16) (state : Bool) : Sen Unit :=
  modify fun s =>
    match s.list.find? fun tt => tt.pin == vpin with
    | none => s
    | some tt => { s with
        list := update s.list tt.address fun tt => { tt with inputState := state } }

end Sensors

end CommandStation
