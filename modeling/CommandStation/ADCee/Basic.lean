import CommandStation.Lib.Run

/-!
# The scanner of the analogue pins

On the AVR boards the currents of the tracks are measured by one converter for all pins. `ADCee::scan` is
called from the waveform interrupt: it files the result that it waits for, selects the next pin that is
in use and starts a conversion. `ADCee::init` puts a pin in use; it calls `analogRead`, which selects the
pin, starts a conversion and waits for it, and it can be interrupted anywhere in between.

A result of the converter carries the channel that it was taken from. The channel is the one that was
selected when the conversion was started; a start during a conversion does nothing. A board without MUX5
has eight inputs, and the bit is never set there.
-/

namespace CommandStation.ADCee

/-- A result, with the channel that it was taken from. -/
structure Sample where
  channel : Nat
  value : Nat
  deriving DecidableEq, Repr

/-- The converter. -/
structure Adc where
  /-- the low three bits of the channel, in ADMUX -/
  mux : Nat
  /-- the bit MUX5 of ADCSRB -/
  mux5 : Bool
  /-- the channel that is being converted, while ADSC is set -/
  converting : Option Nat
  /-- ADCH and ADCL -/
  data : Sample
  deriving DecidableEq, Repr

namespace Adc

/-- The channel that is selected. -/
def channel (a : Adc) : Nat := a.mux + if a.mux5 then 8 else 0

/-- `bitSet(ADCSRA, ADSC)` -/
def start (a : Adc) : Adc := { a with converting := a.converting.or (some a.channel) }

/-- The conversion ends, and ADSC is cleared. -/
def finish (a : Adc) (value : Nat) : Adc :=
  match a.converting with
  | none => a
  | some channel => { a with converting := none, data := ⟨channel, value⟩ }

end Adc

/-- How far a call of `init` has come in `analogRead`. -/
inductive Init where
  | idle
  | selected (id : Nat)
  | started (id : Nat)
  deriving DecidableEq, Repr

/-- The static data of `ADCee` and of its `scan`, and the converter. -/
structure Scanner where
  adc : Adc
  usedpins : BitVec 16
  highestPin : Nat
  /-- NULL, or an array of `NUM_ADC_INPUTS` values -/
  analogvals : Option (List Sample)
  usesHighPort : Bool
  id : Nat
  mask : BitVec 16
  waiting : Bool
  init : Init
  deriving DecidableEq, Repr

namespace Scanner

/-- Before anything is called. -/
def fresh : Scanner where
  adc := ⟨0, false, none, ⟨0, 0⟩⟩
  usedpins := 0
  highestPin := 0
  analogvals := none
  usesHighPort := false
  id := 0
  mask := 1
  waiting := false
  init := .idle

/-! ## `ADCee::scan` -/

/-- Advance by one pin, or back to the first one. -/
def advance (highestPin : Nat) (place : Nat × BitVec 16) : Nat × BitVec 16 :=
  if highestPin < place.1 + 1 then (0, 1) else (place.1 + 1, place.2 <<< 1)

/-- The `while (true)` of the scan. Without a result it has not ended after so many rounds. -/
def seek (usedpins : BitVec 16) (highestPin : Nat) : Nat → Nat × BitVec 16 → Option (Nat × BitVec 16)
  | 0, _ => none
  | fuel + 1, place =>
    if place.2 &&& usedpins ≠ 0 then some place else seek usedpins highestPin fuel (advance highestPin place)

/-- Look for a valid track to sample, and start a conversion there. -/
def startNext (s : Scanner) : Option Scanner :=
  if s.usedpins = 0 then some s
  else
    match seek s.usedpins s.highestPin (s.highestPin + 2) (s.id, s.mask) with
    | none => none
    | some (id, mask) =>
      let mux5 := if s.usesHighPort then decide (7 < id) else s.adc.mux5
      some { s with id, mask, waiting := true, adc := { s.adc with mux5, mux := id % 8 }.start }

/-- `analogvals[id] = value`; there is no result where the array has no such element. -/
def file (analogvals : Option (List Sample)) (id : Nat) (value : Sample) : Option (List Sample) :=
  match analogvals with
  | none => none
  | some values => if id < values.length then some (values.set id value) else none

/-- `ADCee::scan` -/
def scan (s : Scanner) : Option Scanner :=
  if s.waiting then
    if s.adc.converting.isSome then some s -- no result, continue to wait
    else
      match file s.analogvals s.id s.adc.data with
      | none => none
      | some values =>
        let place := advance s.highestPin (s.id, s.mask)
        { s with analogvals := some values, waiting := false, id := place.1, mask := place.2 }.startNext
  else s.startNext

/-! ## `ADCee::init` and `ADCee::read` -/

section Board

-- `A0` and `NUM_ADC_INPUTS`
variable (a0 : UInt8) (inputs : Nat)

/-- `ADCee::init` up to where `analogRead` has selected the pin. -/
def initSelect (s : Scanner) (pin : UInt8) : Scanner :=
  let id := (pin - a0).toNat
  if inputs ≤ id then s
  else
    match s.init with
    | .idle => { s with
        usesHighPort := s.usesHighPort || decide (7 < id)
        adc := { s.adc with mux5 := decide (7 < id), mux := id % 8 }
        init := .selected id }
    | _ => s

/-- `analogRead` starts the conversion. -/
def initStart (s : Scanner) : Scanner :=
  match s.init with
  | .selected id => { s with adc := s.adc.start, init := .started id }
  | _ => s

/-- `analogRead` sees that ADSC is clear and returns the result; the rest of `ADCee::init`. -/
def initStore (s : Scanner) : Option Scanner :=
  match s.init with
  | .started id =>
    if s.adc.converting.isSome then some s
    else
      match file (s.analogvals.or (some (List.replicate inputs ⟨0, 0⟩))) id s.adc.data with
      | none => none
      | some values => some { s with
          analogvals := some values
          usedpins := s.usedpins ||| 1#16 <<< id
          highestPin := if s.highestPin < id then id else s.highestPin
          init := .idle }
  | _ => some s

/-- `ADCee::read`; without a result it returns -1023. -/
def read (s : Scanner) (pin : UInt8) : Option Sample :=
  let id := (pin - a0).toNat
  if s.usedpins &&& 1#16 <<< id = 0 then none
  else s.analogvals.bind (·[id]?)

/-- What can happen, in any order. -/
inductive Event where
  /-- the converter ends a conversion -/
  | finish (value : Nat)
  /-- the interrupt -/
  | scan
  | initSelect (pin : UInt8)
  | initStart
  | initStore
  deriving DecidableEq, Repr

/-- An event; there is no result where memory is written that the program does not own, or where the scan
does not end. -/
def act (s : Scanner) : Event → Option Scanner
  | .finish value => some { s with adc := s.adc.finish value }
  | .scan => s.scan
  | .initSelect pin => some (s.initSelect a0 inputs pin)
  | .initStart => some s.initStart
  | .initStore => s.initStore inputs

def step (s : Option Scanner) (e : Event) : Option Scanner := s.bind (act a0 inputs · e)

end Board

/-- "It must be called before the regular scan is started": no pin is initialised while the scan waits for
a result, and no scan that has pins comes in the middle of it. -/
def Event.InTurn (s : Scanner) : Event → Prop
  | .scan => s.init = .idle ∨ s.usedpins = 0
  | .initSelect _ => s.waiting = false
  | _ => True

instance (s : Scanner) (e : Event) : Decidable (e.InTurn s) :=
  match e with
  | .scan => inferInstanceAs (Decidable (s.init = .idle ∨ s.usedpins = 0))
  | .initSelect _ => inferInstanceAs (Decidable (s.waiting = false))
  | .finish _ | .initStart | .initStore => isTrue trivial

end Scanner

end CommandStation.ADCee
