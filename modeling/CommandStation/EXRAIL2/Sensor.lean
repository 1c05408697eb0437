import CommandStation.EXRAIL2.Basic
import CommandStation.Lib.Debounce
import CommandStation.Lib.Run

/-!
# Sensors of EXRAIL

ONSENSOR, ONBUTTON and ONBITMAP make a sensor each. `checkAll` looks at the sensors one after the other, as
`Sensor::checkAll` does: at most sixteen in a call, and none after one that starts a task. It keeps its place
for the next call, and goes back to the first sensor when it has come to the end and enough time has passed.

The sensors are made in `RMFT2::begin` and stay, so that one is known by its place on the list. A log tells
what each check saw and did. The sensors have their turns in order whatever the calls are, and a sensor
starts a task when its input has differed in five checks from what it last acted on (`sensor_starts_task`).
-/

namespace CommandStation

open CommandStation.Lib CommandStation.Lib.Debouncer

/-- `class EXRAILSensor` -/
structure ExrailSensor where
  pin : UInt16
  progCounter : Int
  active : UInt16
  inputState : UInt16
  onChange : Bool
  useAnalog : Bool
  latchDelay : Nat
  deriving DecidableEq, Repr

namespace ExrailSensor

/-- Number of additional scans before acting on change. -/
def minReadCount : Nat := 4

/-- The input that `check` sees. -/
def input (w : Inputs) (t : Tasks) (sensor : ExrailSensor) : UInt16 :=
  if sensor.useAnalog then UInt16.ofInt (w.readAnalogue sensor.pin)
  else if Exrail.readSensor w t sensor.pin then 1 else 0

/-- `EXRAILSensor::check`: whether a task is started. -/
def check (w : Inputs) (t : Tasks) (sensor : ExrailSensor) : ExrailSensor × Bool :=
  let sensor := { sensor with inputState := sensor.input w t }
  if sensor.inputState = sensor.active then
    ({ sensor with latchDelay := minReadCount }, false)  -- no change
  else if 0 < sensor.latchDelay then
    ({ sensor with latchDelay := sensor.latchDelay - 1 }, false)
  else  -- change validated, act on it
    let sensor := { sensor with active := sensor.inputState, latchDelay := minReadCount }
    (sensor, sensor.onChange || sensor.active != 0)

/-- The constructor. It reads the pin itself, with no inversion and no latch. -/
def new (w : Inputs) (pin : UInt16) (progCounter : Int) (onChange useAnalog : Bool) : ExrailSensor :=
  let active := if useAnalog then UInt16.ofInt (w.readAnalogue pin) else if w.read pin then 1 else 0
  ⟨pin, progCounter, active, active, onChange, useAnalog, minReadCount⟩

/-- What the sensor last acted on, with its delay. -/
def debouncer (sensor : ExrailSensor) : Debouncer UInt16 := ⟨sensor.active, sensor.latchDelay⟩

/-- What no check changes. -/
def Same (a b : ExrailSensor) : Prop :=
  a.pin = b.pin ∧ a.progCounter = b.progCounter ∧ a.onChange = b.onChange ∧ a.useAnalog = b.useAnalog

/-- **A check is a sample.** A change that is believed starts a task, unless the sensor is for one
direction only and the input has gone. -/
theorem check_spec (w : Inputs) (t : Tasks) (sensor : ExrailSensor) :
    (sensor.check w t).1.debouncer = (sensor.debouncer.sample minReadCount (sensor.input w t)).1 ∧
      (sensor.check w t).2 = ((sensor.debouncer.sample minReadCount (sensor.input w t)).2 &&
        (sensor.onChange || sensor.input w t != 0)) ∧
      (sensor.check w t).1.Same sensor := by
  unfold check Debouncer.sample
  by_cases hsame : sensor.input w t = sensor.active
  · simp [hsame, debouncer, Same]
  · by_cases hdelay : 0 < sensor.latchDelay
    · simp [hsame, hdelay, debouncer, Same]
    · simp [hsame, hdelay, debouncer, Same]

end ExrailSensor

/-- What a check saw and did. -/
structure SensorCheck where
  place : Nat
  seen : UInt16
  changed : Bool
  started : Bool
  deriving DecidableEq, Repr

/-- The statics of `EXRAILSensor`: the list from `firstSensor` on, the place of the sensor to be examined
next, and the start of the last cycle. -/
structure ExrailSensors where
  list : List ExrailSensor
  readingSensor : Option Nat
  lastReadCycle : UInt32
  deriving DecidableEq, Repr

namespace ExrailSensors

open ExrailSensor (minReadCount)

/-- Min time between the starts of two cycles, in microseconds. -/
def cycleInterval : UInt32 := 10000

/-- The sensors processed in one call of `checkAll`. -/
def maxPerEntry : Nat := 16

def init : ExrailSensors := ⟨[], none, 0⟩

/-- A new sensor comes to the front of the list. -/
def create (s : ExrailSensors) (sensor : ExrailSensor) : ExrailSensors :=
  { s with list := sensor :: s.list }

/-- The place of the next sensor in the list. -/
def nextSensor (s : ExrailSensors) (place : Nat) : Option Nat :=
  if place + 1 < s.list.length then some (place + 1) else none

/-- The check of one sensor. -/
def checkAt (w : Inputs) (t : Tasks) (s : ExrailSensors) (place : Nat) (sensor : ExrailSensor) :
    SensorCheck × ExrailSensors :=
  (⟨place, sensor.input w t, (sensor.debouncer.sample minReadCount (sensor.input w t)).2,
      (sensor.check w t).2⟩,
    { s with list := s.list.set place (sensor.check w t).1, readingSensor := s.nextSensor place })

/-- The loop of `checkAll`, which `count` more sensors may be examined in. -/
def checkFrom (w : Inputs) (t : Tasks) : Nat → ExrailSensors → List SensorCheck × ExrailSensors
  | 0, s => ([], s)
  | count + 1, s =>
    match s.readingSensor with
    | none => ([], s)
    | some place =>
      match s.list[place]? with
      | none => ([], s)
      | some sensor =>
        let (c, s) := s.checkAt w t place sensor
        if c.started then ([c], s)
        else
          let (more, s) := checkFrom w t count s
          (c :: more, s)

/-- `EXRAILSensor::checkAll`: the checks that were made. -/
def checkAll (w : Inputs) (t : Tasks) (s : ExrailSensors) : List SensorCheck × ExrailSensors :=
  if s.list = [] then ([], s)  -- No sensors to be scanned
  else if s.readingSensor = none then
    if w.micros - s.lastReadCycle < cycleInterval then ([], s)
    else checkFrom w t maxPerEntry { s with readingSensor := some 0, lastReadCycle := w.micros }
  else checkFrom w t maxPerEntry s

/-- At most `count` sensors are checked, and the check ends with the first that starts a task. -/
theorem checkFrom_started (w : Inputs) (t : Tasks) (count : Nat) (s : ExrailSensors) :
    (checkFrom w t count s).1.length ≤ count ∧
      ∀ pre c post, (checkFrom w t count s).1 = pre ++ c :: post → c.started = true → post = [] := by
  induction count generalizing s with
  | zero => simp [checkFrom]
  | succ count ih =>
    unfold checkFrom
    cases s.readingSensor with
    | none => simp
    | some place =>
      dsimp only
      cases s.list[place]? with
      | none => simp
      | some sensor =>
        dsimp only
        by_cases hstart : (s.checkAt w t place sensor).1.started = true
        · rw [if_pos hstart]
          refine ⟨by simp, fun pre c post heq _ => ?_⟩
          have hlength := congrArg List.length heq
          simp only [List.length_append, List.length_cons, List.length_nil] at hlength
          exact List.length_eq_zero_iff.1 (by omega)
        · rw [if_neg hstart]
          obtain ⟨hle, hlast⟩ := ih (s.checkAt w t place sensor).2
          refine ⟨Nat.succ_le_succ hle, fun pre c post heq hc => ?_⟩
          cases pre with
          | nil =>
            obtain ⟨rfl, -⟩ := List.cons_eq_cons.1 heq
            exact absurd hc hstart
          | cons b pre => exact hlast pre c post (List.cons_eq_cons.1 heq).2 hc

/-- A call starts one task at most, with its last check. -/
theorem checkAll_started (w : Inputs) (t : Tasks) (s : ExrailSensors) :
    (checkAll w t s).1.length ≤ maxPerEntry ∧
      ∀ pre c post, (checkAll w t s).1 = pre ++ c :: post → c.started = true → post = [] := by
  unfold checkAll
  split
  · simp
  · split
    · split
      · simp
      · exact checkFrom_started w t _ _
    · exact checkFrom_started w t _ _

/-! ## Setup -/

/-- What an opcode of `RMFT2::begin` makes a sensor from, and what its pin is then. -/
structure Declared where
  w : Inputs
  pin : UInt16
  progCounter : Int
  onChange : Bool
  useAnalog : Bool

def Declared.sensor (d : Declared) : ExrailSensor := .new d.w d.pin d.progCounter d.onChange d.useAnalog

def setup (ds : List Declared) : ExrailSensors := run (fun s d => s.create d.sensor) init ds

/-- No sensor has been examined. -/
structure Fresh (s : ExrailSensors) : Prop where
  reading : s.readingSensor = none
  delay : ∀ sensor ∈ s.list, sensor.latchDelay = minReadCount

theorem fresh_setup (ds : List Declared) : (setup ds).Fresh := by
  apply inv_run_of_step Fresh _ ⟨rfl, fun _ h => absurd h List.not_mem_nil⟩
  intro s d h
  refine ⟨h.reading, fun sensor hsensor => ?_⟩
  obtain rfl | hin := List.mem_cons.1 hsensor
  · rfl
  · exact h.delay sensor hin

/-! ## The log -/

/-- What the checks of a sensor saw, the latest first. -/
def history (place : Nat) (log : List SensorCheck) : List (DebounceEntry UInt16) :=
  (log.filter (·.place = place)).map fun c => .sampled c.seen c.changed

/-- After the checks of `post` it was this sensor's turn, and the check started a task if and only if
the input was to be believed and the sensor is for both directions or the input has come. -/
def Explained (start : List ExrailSensor) (c : SensorCheck) (post : List SensorCheck) : Prop :=
  c.place = post.length % start.length ∧ ∃ first, start[c.place]? = some first ∧
    (c.started = true ↔ Believed minReadCount first.active (history c.place post) c.seen ∧
      (first.onChange = true ∨ c.seen ≠ 0))

def AllExplained (start : List ExrailSensor) : List SensorCheck → Prop
  | [] => True
  | c :: post => Explained start c post ∧ AllExplained start post

/-- The sensors have been examined as the log tells. -/
structure Follows (start : List ExrailSensor) (s : ExrailSensors) (log : List SensorCheck) : Prop where
  length : s.list.length = start.length
  atEnd : s.readingSensor = none → log.length % start.length = 0
  reading : ∀ place, s.readingSensor = some place → place = log.length % start.length
  sensor : ∀ place first, start[place]? = some first → ∃ sensor, s.list[place]? = some sensor ∧
    Run minReadCount first.active (history place log) sensor.debouncer ∧ sensor.Same first
  explained : AllExplained start log

variable {start : List ExrailSensor} {s : ExrailSensors} {log : List SensorCheck}

theorem Fresh.follows (h : s.Fresh) : Follows s.list s [] := by
  refine ⟨rfl, fun _ => Nat.zero_mod _, fun place hplace => ?_, fun place first hfirst => ?_, trivial⟩
  · rw [h.reading] at hplace
    cases hplace
  · have hdelay := h.delay first (List.mem_of_getElem? hfirst)
    refine ⟨first, hfirst, ?_, rfl, rfl, rfl, rfl⟩
    rw [ExrailSensor.debouncer, hdelay]
    exact .start

theorem history_cons_self (c : SensorCheck) (log : List SensorCheck) :
    history c.place (c :: log) = .sampled c.seen c.changed :: history c.place log := by
  rw [history, List.filter_cons_of_pos (by simp)]
  rfl

theorem history_cons_ne {c : SensorCheck} {place : Nat} (h : c.place ≠ place) (log : List SensorCheck) :
    history place (c :: log) = history place log := by
  rw [history, List.filter_cons_of_neg (by simpa using h)]
  rfl

/-- One check. -/
theorem Follows.checkAt (h : Follows start s log) (w : Inputs) (t : Tasks) {place : Nat}
    {sensor : ExrailSensor} (hplace : s.readingSensor = some place) (hsensor : s.list[place]? = some sensor) :
    Follows start (s.checkAt w t place sensor).2 ((s.checkAt w t place sensor).1 :: log) := by
  have hat := h.reading place hplace
  have hlt : place < s.list.length := (List.getElem?_eq_some_iff.1 hsensor).1
  have hlt' : place < start.length := h.length ▸ hlt
  have hnext : (log.length + 1) % start.length = (place + 1) % start.length := by
    rw [hat, Nat.mod_add_mod]
  obtain ⟨hdebouncer, hstarted, hsame⟩ := sensor.check_spec w t
  obtain ⟨first, hfirst⟩ : ∃ first, start[place]? = some first := ⟨_, List.getElem?_eq_getElem hlt'⟩
  obtain ⟨sensor', hsensor', hrun, hfirst_same⟩ := h.sensor place first hfirst
  obtain rfl : sensor = sensor' := Option.some_inj.1 (hsensor.symm.trans hsensor')
  refine ⟨?_, fun hnone => ?_, fun q hq => ?_, fun q first' hfirst' => ?_, ⟨hat, first, hfirst, ?_⟩, h.explained⟩
  · exact (List.length_set ..).trans h.length
  · -- the last sensor of the list
    have hend : ¬ place + 1 < s.list.length := by
      intro hin
      rw [ExrailSensors.checkAt, nextSensor, if_pos hin] at hnone
      cases hnone
    have hround : place + 1 = start.length := by
      rw [h.length] at hend
      omega
    rw [List.length_cons, hnext, hround, Nat.mod_self]
  · change s.nextSensor place = some q at hq
    unfold nextSensor at hq
    split at hq
    · next hin =>
      obtain rfl := Option.some_inj.1 hq
      rw [List.length_cons, hnext, Nat.mod_eq_of_lt (h.length ▸ hin)]
    · cases hq
  · by_cases hq : q = place
    · subst hq
      obtain rfl : first = first' := Option.some_inj.1 (hfirst.symm.trans hfirst')
      refine ⟨(sensor.check w t).1, List.getElem?_set_self hlt, ?_, ?_⟩
      · rw [show history q _ = _ from history_cons_self (s.checkAt w t q sensor).1 log, hdebouncer]
        exact hrun.sample (sensor.input w t)
      · obtain ⟨a, b, c, d⟩ := hsame
        obtain ⟨a', b', c', d'⟩ := hfirst_same
        exact ⟨a.trans a', b.trans b', c.trans c', d.trans d'⟩
    · obtain ⟨other, hother, hrest⟩ := h.sensor q first' hfirst'
      refine ⟨other, ?_, ?_⟩
      · exact (List.getElem?_set_ne (Ne.symm hq)).trans hother
      · rw [history_cons_ne (Ne.symm hq)]
        exact hrest
  · show (sensor.check w t).2 = true ↔ _
    rw [hstarted, Bool.and_eq_true, hrun.reports_iff, hfirst_same.2.2.1, Bool.or_eq_true, bne_iff_ne]
    rfl

/-- The sensors follow their log over a few more checks. -/
theorem Follows.checkFrom (h : Follows start s log) (w : Inputs) (t : Tasks) (count : Nat) :
    Follows start (checkFrom w t count s).2 ((checkFrom w t count s).1.reverse ++ log) := by
  induction count generalizing s log with
  | zero => exact h
  | succ count ih =>
    unfold ExrailSensors.checkFrom
    cases hreading : s.readingSensor with
    | none => exact h
    | some place =>
      dsimp only
      cases hsensor : s.list[place]? with
      | none => exact h
      | some sensor =>
        dsimp only
        have hone := h.checkAt w t hreading hsensor
        split
        · exact hone
        · have hrest := ih hone
          rw [List.reverse_cons, List.append_assoc]
          exact hrest

/-- They follow it over a whole call of `checkAll`. -/
theorem Follows.checkAll (h : Follows start s log) (w : Inputs) (t : Tasks) :
    Follows start (checkAll w t s).2 ((checkAll w t s).1.reverse ++ log) := by
  unfold ExrailSensors.checkAll
  split
  · exact h
  · split
    · next hnone =>
      split
      · exact h
      · -- a new cycle
        have hzero := h.atEnd hnone
        have hnew : Follows start { s with readingSensor := some 0, lastReadCycle := w.micros } log := by
          refine ⟨h.length, fun hn => ?_, fun place hp => ?_, h.sensor, h.explained⟩
          · cases hn
          · cases hp
            exact hzero.symm
        exact hnew.checkFrom w t _
    · exact h.checkFrom w t _

/-! ## Runs -/

/-- The sensors, and the checks that have been made with the latest first. -/
structure Logged where
  sensors : ExrailSensors
  log : List SensorCheck

/-- A call of `checkAll`. -/
def Logged.step (x : Logged) (call : Inputs × Tasks) : Logged :=
  let (checks, s) := checkAll call.1 call.2 x.sensors
  ⟨s, checks.reverse ++ x.log⟩

/-- **When a sensor starts its task.** Whatever sensors there are, and whatever the calls find, the sensors
have their turns in order, and a check starts the task of its sensor if and only if the input has differed
from what the sensor last acted on in this check and the four before it, and the sensor is for both
directions or the input has come. -/
theorem sensor_starts_task (ds : List Declared) (calls : List (Inputs × Tasks)) :
    AllExplained (setup ds).list (run Logged.step ⟨setup ds, []⟩ calls).log := by
  let Inv : Logged → Prop := fun x => Follows (setup ds).list x.sensors x.log
  have hstep : ∀ x call, Inv x → Inv (x.step call) := fun x call h => h.checkAll call.1 call.2
  have hrun : Inv (run Logged.step ⟨setup ds, []⟩ calls) :=
    inv_run_of_step Inv hstep (fresh_setup ds).follows calls
  exact hrun.explained

end ExrailSensors

end CommandStation
