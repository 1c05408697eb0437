import CommandStation.IODevice.Loop
import Mathlib.Data.BitVec

/-!
# Port expanders

A driver for a port expander keeps the levels of its pins in `_portInputState`, a bit for each pin, 1 for
inactive. `_loop` takes in what a scan has read and calls the registered callbacks for the pins that have
changed; that is all a sensor on such a pin ever hears. `_read` of a pin that is not an input yet takes in
a fresh state of the whole port as well, but calls nobody.

The virtual functions are those of the MCP23008, MCP23017, PCA9554, PCA9555, PCF8574 and PCF8575, ports of 8
and 16 bits: `_readGpioPort(false)` queues a request and nothing else, and the level is taken in when the
request has ended. The XL9535, a board of outputs only, is not one of them: its `_readGpioPort` copies
`_portOutputState` into `_portInputState` when the scan is started.

So what has been told about a pin is its level, turned round once for each change since the last call that
was taken in without one.
-/

namespace CommandStation

open Lib

/-- The fields of `GPIOBase<T>`, with `w` bits in `T`: 8 or 16. -/
structure GPIOBase (w : Nat) where
  firstVpin : UInt16
  nPins : Nat
  portInputState : BitVec w
  portOutputState : BitVec w
  portMode : BitVec w
  portPullup : BitVec w
  portInUse : BitVec w
  deviceState : DeviceState
  deriving DecidableEq, Repr

namespace GPIOBase

variable {w : Nat}

/-! ## The driver -/

/-- `T mask = 1 << pin` -/
def mask (dev : GPIOBase w) (vpin : UInt16) : BitVec w := 1#w <<< (vpin.toNat - dev.firstVpin.toNat)

/-- `uint16_t mask = 1 << pin`, as it is applied to a `T`. -/
def mask16 (dev : GPIOBase w) (vpin : UInt16) : BitVec w :=
  (1#16 <<< (vpin.toNat - dev.firstVpin.toNat)).setWidth w

/-- Set unused pin and write mode pin value to 1. -/
def settle (dev : GPIOBase w) : GPIOBase w :=
  { dev with portInputState := dev.portInputState ||| (~~~dev.portInUse ||| dev.portMode) }

/-- The constructor. The output state is what happens to be in memory. -/
def create (firstVpin : UInt16) (nPins : Nat) (portOutputState : BitVec w) : GPIOBase w where
  firstVpin
  nPins := if w < nPins then w else nPins
  portInputState := BitVec.allOnes w
  portOutputState
  portMode := 0
  portPullup := BitVec.allOnes w
  portInUse := 0
  deviceState := .dormant

/-- `_begin`: whether the expander answers. -/
def begin (dev : GPIOBase w) (present : Bool) : GPIOBase w :=
  { dev with deviceState := if present then .normal else .failed }

/-- `_configure` of a pin as an input. -/
def configure (dev : GPIOBase w) (vpin : UInt16) (pullup : Bool) : GPIOBase w :=
  let mask := dev.mask16 vpin
  { dev with
    portPullup := if pullup then dev.portPullup ||| mask else dev.portPullup &&& ~~~mask
    portInUse := dev.portInUse ||| mask
    portMode := dev.portMode &&& ~~~mask }

/-- `_write` -/
def write (dev : GPIOBase w) (vpin : UInt16) (value : Bool) : GPIOBase w :=
  let mask := dev.mask vpin
  -- set port mode output if currently not output mode
  let dev := if dev.portMode &&& mask = 0 then
      { dev with portInUse := dev.portInUse ||| mask, portMode := dev.portMode ||| mask }
    else dev
  { dev with
    portOutputState := if value then dev.portOutputState ||| mask else dev.portOutputState &&& ~~~mask }

/-- `_read`, up to the value that it returns; `levels` is what the expander answers when it is asked. -/
def read (dev : GPIOBase w) (vpin : UInt16) (levels : BitVec w) : GPIOBase w :=
  let mask := dev.mask vpin
  -- set port mode to input if currently output or first use
  if (dev.portMode ||| ~~~dev.portInUse) &&& mask ≠ 0 then
    let portMode := dev.portMode &&& ~~~mask
    settle { dev with
      portMode, portInUse := dev.portInUse ||| mask, portInputState := levels ||| portMode }
  else dev

/-- A scan that has ended: nothing, or whether it went well and what was read. -/
abbrev Completion (w : Nat) := Option (Bool × BitVec w)

/-- `_loop` up to the callbacks, when the scan has ended. -/
def complete (dev : GPIOBase w) (ok : Bool) (levels : BitVec w) : GPIOBase w :=
  settle { dev with
    deviceState := if ok then .normal else .failed
    portInputState := if ok then levels ||| dev.portMode else BitVec.allOnes w }

/-- The for loop of `_loop`: the callbacks for the pins from `pin` on. -/
def scanDifferences (dev : GPIOBase w) (differences : BitVec w) :
    Nat → Nat → BitVec w → List (UInt16 × Bool)
  | 0, _, _ => []
  | count + 1, pin, mask =>
    (if differences &&& mask ≠ 0 then
      [(dev.firstVpin + UInt16.ofNat pin, decide (dev.portInputState &&& mask = 0))] else []) ++
    scanDifferences dev differences count (pin + 1) (mask <<< 1)

/-- The first half of `_loop`: what a scan that has ended brings, and the callbacks. -/
def takeIn (dev : GPIOBase w) (completion : Completion w) (hasCallback : Bool) :
    GPIOBase w × List (UInt16 × Bool) :=
  match dev.deviceState, completion with
  | .scanning, some (ok, levels) =>
    let after := dev.complete ok levels
    let differences := dev.portInputState ^^^ after.portInputState
    (after, if differences ≠ 0 ∧ hasCallback then after.scanDifferences differences after.nPins 0 1#w else [])
  | _, _ => (dev, [])

/-- The second half: initiate a scan. `_readGpioPort(false)` queues the request for it. -/
def startScan (dev : GPIOBase w) (interrupt : Bool) : GPIOBase w :=
  if interrupt ∧ dev.deviceState = .normal then { dev with deviceState := .scanning } else dev

/-- `_loop`: the driver after it, and the callbacks. `interrupt` says that there is no interrupt pin or that
it is pulled down. -/
def loop (dev : GPIOBase w) (completion : Completion w) (hasCallback interrupt : Bool) :
    GPIOBase w × List (UInt16 × Bool) :=
  ((dev.takeIn completion hasCallback).1.startScan interrupt, (dev.takeIn completion hasCallback).2)

/-! ## The listeners -/

/-- The driver, and what the callbacks have been told last about each vpin. -/
structure Listened (w : Nat) where
  dev : GPIOBase w
  told : UInt16 → Bool

inductive Event (w : Nat) where
  | begin (present : Bool)
  | configure (vpin : UInt16) (pullup : Bool)
  | write (vpin : UInt16) (value : Bool)
  | read (vpin : UInt16) (levels : BitVec w)
  | loop (completion : Completion w) (hasCallback interrupt : Bool)

def tell (told : UInt16 → Bool) (calls : List (UInt16 × Bool)) : UInt16 → Bool :=
  calls.foldl (fun told call => Function.update told call.1 call.2) told

namespace Listened

def step (s : Listened w) : Event w → Listened w
  | .begin present => { s with dev := s.dev.begin present }
  | .configure vpin pullup => { s with dev := s.dev.configure vpin pullup }
  | .write vpin value => { s with dev := s.dev.write vpin value }
  | .read vpin levels => { s with dev := s.dev.read vpin levels }
  | .loop completion hasCallback interrupt =>
    ⟨(s.dev.loop completion hasCallback interrupt).1,
      tell s.told (s.dev.loop completion hasCallback interrupt).2⟩

/-- The pins that have changed in an event. -/
def changes (s : Listened w) (e : Event w) : BitVec w :=
  s.dev.portInputState ^^^ (s.step e).dev.portInputState

/-- The pins with an odd number of changes since their last call. A loop calls for its changes if anyone has
registered. -/
def missed : Listened w → BitVec w → List (Event w) → BitVec w
  | _, before, [] => before
  | s, before, .loop completion true interrupt :: es =>
    let e := .loop completion true interrupt
    missed (s.step e) (before &&& ~~~s.changes e) es
  | s, before, e :: es => missed (s.step e) (before ^^^ s.changes e) es

end Listened

/-! ## Callbacks -/

theorem and_mask_ne_zero (x : BitVec w) (pin : Nat) : x &&& 1#w <<< pin ≠ 0 ↔ x.getLsbD pin = true := by
  change x &&& BitVec.twoPow w pin ≠ 0#w ↔ _
  rw [BitVec.and_twoPow]
  cases hbit : x.getLsbD pin with
  | false => simp
  | true =>
    have hlt : pin < w := BitVec.lt_of_getLsbD hbit
    rw [if_pos rfl]
    refine ⟨fun _ => rfl, fun _ hzero => ?_⟩
    have hbitzero := congrArg (fun x : BitVec w => x.getLsbD pin) hzero
    simp [hlt] at hbitzero

/-- The vpins of two pins are different. -/
theorem vpin_inj {first : UInt16} {p q : Nat} (hp : p < 65536) (hq : q < 65536)
    (h : first + UInt16.ofNat p = first + UInt16.ofNat q) : p = q := by
  have heq : UInt16.ofNat p = UInt16.ofNat q := by simpa using h
  have hnat := congrArg UInt16.toNat heq
  rwa [UInt16.toNat_ofNat_of_lt' hp, UInt16.toNat_ofNat_of_lt' hq] at hnat

theorem tell_append (told : UInt16 → Bool) (calls more : List (UInt16 × Bool)) :
    tell told (calls ++ more) = tell (tell told calls) more :=
  List.foldl_append ..

/-- What one round of the for loop tells. -/
theorem tell_round (dev : GPIOBase w) (differences : BitVec w) {pin q : Nat} (hpin : pin < 65536)
    (hq : q < 65536) (told : UInt16 → Bool) :
    tell told (if differences &&& 1#w <<< pin ≠ 0 then
        [(dev.firstVpin + UInt16.ofNat pin, decide (dev.portInputState &&& 1#w <<< pin = 0))] else [])
        (dev.firstVpin + UInt16.ofNat q) =
      if q = pin ∧ differences.getLsbD q = true then !dev.portInputState.getLsbD q
      else told (dev.firstVpin + UInt16.ofNat q) := by
  have hvalue : decide (dev.portInputState &&& 1#w <<< pin = 0) = !dev.portInputState.getLsbD pin := by
    have hbit := and_mask_ne_zero dev.portInputState pin
    cases hlevel : dev.portInputState.getLsbD pin with
    | true => exact decide_eq_false (hbit.2 hlevel)
    | false =>
      rw [hlevel] at hbit
      exact decide_eq_true (not_not.1 fun hne => Bool.false_ne_true (hbit.1 hne))
  simp only [and_mask_ne_zero, hvalue]
  by_cases hqp : q = pin
  · subst hqp
    cases differences.getLsbD q <;> simp [tell]
  · have hne : dev.firstVpin + UInt16.ofNat q ≠ dev.firstVpin + UInt16.ofNat pin :=
      fun h => hqp (vpin_inj hq hpin h)
    simp only [hqp, false_and, if_false]
    cases differences.getLsbD pin with
    | false => rfl
    | true => exact Function.update_of_ne hne ..

/-- Each pin that has changed is told its new level, and no other one is. -/
theorem tell_scanDifferences (dev : GPIOBase w) (differences : BitVec w) (count pin : Nat)
    (hcount : pin + count ≤ 65536) {q : Nat} (hq : q < 65536) (told : UInt16 → Bool) :
    tell told (dev.scanDifferences differences count pin (1#w <<< pin)) (dev.firstVpin + UInt16.ofNat q) =
      if pin ≤ q ∧ q < pin + count ∧ differences.getLsbD q = true then !dev.portInputState.getLsbD q
      else told (dev.firstVpin + UInt16.ofNat q) := by
  induction count generalizing pin told with
  | zero =>
    rw [if_neg (by omega)]
    rfl
  | succ count ih =>
    rw [scanDifferences, tell_append, ← BitVec.shiftLeft_add, ih _ (by omega), tell_round _ _ (by omega) hq]
    by_cases hqp : q = pin
    · subst hqp
      cases differences.getLsbD q <;> simp
    · have hplace : pin + 1 ≤ q ∧ q < pin + 1 + count ↔ pin ≤ q ∧ q < pin + (count + 1) := by omega
      simp only [← and_assoc, hplace, hqp, false_and, if_false]

/-! ## One event -/

/-- The levels of the pins, turned round: what the callbacks should have been told. -/
def active (dev : GPIOBase w) (pin : Nat) : Bool := !dev.portInputState.getLsbD pin

namespace Listened

/-- What has been told about a pin, against its level. -/
def Agrees (s : Listened w) (pin : Nat) (odd : Bool) : Prop :=
  s.told (s.dev.firstVpin + UInt16.ofNat pin) = (s.dev.active pin ^^ odd)

theorem getLsbD_changes {s : Listened w} {e : Event w} {pin : Nat} :
    (s.changes e).getLsbD pin = (s.dev.active pin ^^ (s.step e).dev.active pin) := by
  rw [changes, BitVec.getLsbD_xor, active, active]
  cases s.dev.portInputState.getLsbD pin <;> cases (s.step e).dev.portInputState.getLsbD pin <;> rfl

/-- An event that calls nobody. -/
theorem Agrees.of_silent {s : Listened w} {e : Event w} {pin : Nat} {odd : Bool} (h : s.Agrees pin odd)
    (htold : (s.step e).told = s.told) (hfirst : (s.step e).dev.firstVpin = s.dev.firstVpin) :
    (s.step e).Agrees pin (odd ^^ (s.changes e).getLsbD pin) := by
  rw [Agrees, htold, hfirst, h, getLsbD_changes]
  cases s.dev.active pin <;> cases odd <;> cases (s.step e).dev.active pin <;> rfl

/-- A scan takes in no change, or takes changes in and calls nobody, or calls for the differences. -/
theorem takeIn_cases (dev : GPIOBase w) (completion : Completion w) (hasCallback : Bool) :
    dev.takeIn completion hasCallback = (dev, []) ∨
      ∃ after : GPIOBase w, after.firstVpin = dev.firstVpin ∧ after.nPins = dev.nPins ∧
        (dev.takeIn completion hasCallback).1 = after ∧
        (dev.takeIn completion hasCallback).2 =
          if dev.portInputState ^^^ after.portInputState ≠ 0 ∧ hasCallback then
            after.scanDifferences (dev.portInputState ^^^ after.portInputState) after.nPins 0 1#w
          else [] := by
  unfold takeIn
  split
  · next ok levels _ => exact .inr ⟨dev.complete ok levels, rfl, rfl, rfl, rfl⟩
  · exact .inl rfl

@[simp] theorem startScan_firstVpin (dev : GPIOBase w) (interrupt : Bool) :
    (dev.startScan interrupt).firstVpin = dev.firstVpin := by
  unfold startScan
  split <;> rfl

@[simp] theorem startScan_nPins (dev : GPIOBase w) (interrupt : Bool) :
    (dev.startScan interrupt).nPins = dev.nPins := by
  unfold startScan
  split <;> rfl

@[simp] theorem startScan_portInputState (dev : GPIOBase w) (interrupt : Bool) :
    (dev.startScan interrupt).portInputState = dev.portInputState := by
  unfold startScan
  split <;> rfl

/-- What a listener knows after a scan: the level of a pin that has changed, and of another one what it
knew before. -/
theorem tell_takeIn {dev : GPIOBase w} {pin : Nat} (hpin : pin < dev.nPins) (hpins : dev.nPins ≤ 65536)
    (completion : Completion w) (told : UInt16 → Bool) :
    let after := (dev.takeIn completion true).1
    tell told (dev.takeIn completion true).2 (dev.firstVpin + UInt16.ofNat pin) =
      if dev.active pin = after.active pin then told (dev.firstVpin + UInt16.ofNat pin)
      else after.active pin := by
  obtain heq | ⟨after, hfirst, hnPins, hdev, hcalls⟩ := takeIn_cases dev completion true
  · rw [heq]
    exact (if_pos rfl).symm
  simp only [hdev, hcalls, and_true]
  have hbit : (dev.portInputState ^^^ after.portInputState).getLsbD pin = true ↔
      ¬dev.active pin = after.active pin := by
    rw [BitVec.getLsbD_xor, active, active]
    cases dev.portInputState.getLsbD pin <;> cases after.portInputState.getLsbD pin <;> decide
  by_cases hzero : dev.portInputState ^^^ after.portInputState = 0
  · have hsame : dev.active pin = after.active pin := by
      rw [active, active, BitVec.xor_eq_zero_iff.1 hzero]
    simp only [hzero, ne_eq, not_true_eq_false, if_false, hsame, if_true]
    rfl
  · have htold := tell_scanDifferences after (dev.portInputState ^^^ after.portInputState)
      after.nPins 0 (by omega) (by omega : pin < 65536) told
    rw [BitVec.shiftLeft_zero, hfirst] at htold
    simp only [ne_eq, hzero, not_false_eq_true, if_true]
    rw [htold]
    by_cases hsame : dev.active pin = after.active pin
    · rw [if_pos hsame, if_neg (fun h => hbit.1 h.2.2 hsame)]
    · rw [if_neg hsame, if_pos ⟨Nat.zero_le _, by omega, hbit.2 hsame⟩]
      rfl

/-- A scan with a listener: the picture of a pin is right once its change is called. -/
theorem Agrees.of_loop {s : Listened w} {pin : Nat} {odd : Bool} (h : s.Agrees pin odd)
    (hpin : pin < s.dev.nPins) (hpins : s.dev.nPins ≤ 65536) (completion : Completion w) (interrupt : Bool) :
    (s.step (.loop completion true interrupt)).Agrees pin
      (odd && !(s.changes (.loop completion true interrupt)).getLsbD pin) := by
  have htell := tell_takeIn hpin hpins completion s.told
  have hactive : (s.step (.loop completion true interrupt)).dev.active pin =
      (s.dev.takeIn completion true).1.active pin := by
    simp [step, loop, active]
  have hfirst : (s.step (.loop completion true interrupt)).dev.firstVpin = s.dev.firstVpin := by
    obtain heq | ⟨after, hfirst, -, hdev, -⟩ := takeIn_cases s.dev completion true
    · simp [step, loop, heq]
    · simp [step, loop, hdev, hfirst]
  rw [Agrees, hfirst, getLsbD_changes, hactive]
  change tell s.told (s.dev.takeIn completion true).2 (s.dev.firstVpin + UInt16.ofNat pin) = _
  rw [htell, h]
  cases s.dev.active pin <;> cases (s.dev.takeIn completion true).1.active pin <;> cases odd <;> rfl

/-! ## Runs -/

theorem takeIn_false (dev : GPIOBase w) (completion : Completion w) :
    (dev.takeIn completion false).2 = [] ∧ (dev.takeIn completion false).1.firstVpin = dev.firstVpin := by
  obtain heq | ⟨after, hfirst, -, hdev, hcalls⟩ := takeIn_cases dev completion false
  · rw [heq]
    exact ⟨rfl, rfl⟩
  · refine ⟨?_, by rw [hdev, hfirst]⟩
    rw [hcalls, if_neg (fun h => Bool.false_ne_true h.2)]

/-- The pins of a device stay the same. -/
theorem step_fixed (s : Listened w) (e : Event w) :
    (s.step e).dev.firstVpin = s.dev.firstVpin ∧ (s.step e).dev.nPins = s.dev.nPins := by
  cases e with
  | begin present => exact ⟨rfl, rfl⟩
  | configure vpin pullup => exact ⟨rfl, rfl⟩
  | write vpin value =>
    simp only [step, GPIOBase.write]
    split <;> exact ⟨rfl, rfl⟩
  | read vpin levels =>
    simp only [step, GPIOBase.read]
    split <;> exact ⟨rfl, rfl⟩
  | loop completion hasCallback interrupt =>
    obtain heq | ⟨after, hfirst, hnPins, hdev, -⟩ := takeIn_cases s.dev completion hasCallback
    · simp [step, loop, heq]
    · simp [step, loop, hdev, hfirst, hnPins]

/-- **The run lemma.** What the callbacks have been told about a pin is its level, but for the changes that
were missed. -/
theorem Agrees.run {s : Listened w} {pin : Nat} {before : BitVec w} (h : s.Agrees pin (before.getLsbD pin))
    (hpin : pin < s.dev.nPins) (hpins : s.dev.nPins ≤ 65536) (hw : pin < w) (es : List (Event w)) :
    (Lib.run step s es).Agrees pin ((missed s before es).getLsbD pin) := by
  induction es generalizing s before with
  | nil => exact h
  | cons e es ih =>
    obtain ⟨hfirst, hnPins⟩ := s.step_fixed e
    have hnext : ∀ after : BitVec w, (s.step e).Agrees pin (after.getLsbD pin) →
        (Lib.run step s (e :: es)).Agrees pin ((missed (s.step e) after es).getLsbD pin) :=
      fun after hafter => ih hafter (by omega) (by omega)
    have hsilent : (s.step e).told = s.told →
        (Lib.run step s (e :: es)).Agrees pin ((missed (s.step e) (before ^^^ s.changes e) es).getLsbD pin) := by
      intro htold
      apply hnext
      rw [BitVec.getLsbD_xor]
      exact h.of_silent htold hfirst
    cases e with
    | begin present => exact hsilent rfl
    | configure vpin pullup => exact hsilent rfl
    | write vpin value => exact hsilent rfl
    | read vpin levels => exact hsilent rfl
    | loop completion hasCallback interrupt =>
      cases hasCallback with
      | false =>
        apply hsilent
        change tell s.told (s.dev.takeIn completion false).2 = s.told
        rw [(takeIn_false s.dev completion).1]
        rfl
      | true =>
        apply hnext
        rw [BitVec.getLsbD_and, BitVec.getLsbD_not, decide_eq_true hw, Bool.true_and]
        exact h.of_loop hpin hpins completion interrupt

/-- Nothing is set up, and the callbacks have been told nothing. -/
def start (firstVpin : UInt16) (nPins : Nat) (portOutputState : BitVec w) : Listened w :=
  ⟨create firstVpin nPins portOutputState, fun _ => false⟩

theorem create_nPins_le (firstVpin : UInt16) (nPins : Nat) (portOutputState : BitVec w) :
    (create firstVpin nPins portOutputState).nPins ≤ w := by
  simp only [create]
  split <;> omega

/-- **When the listeners are right.** In every run, what the callbacks were told last about a pin is its level
if and only if an even number of its changes since that call were taken in without one. -/
theorem told_iff (hw : w ≤ 16) (firstVpin : UInt16) (nPins : Nat) (portOutputState : BitVec w)
    (es : List (Event w)) (pin : Nat) (hpin : pin < (create firstVpin nPins portOutputState).nPins) :
    (run step (start firstVpin nPins portOutputState) es).told (firstVpin + UInt16.ofNat pin) =
        (run step (start firstVpin nPins portOutputState) es).dev.active pin ↔
      (missed (start firstVpin nPins portOutputState) 0 es).getLsbD pin = false := by
  have hle := create_nPins_le firstVpin nPins portOutputState
  have hstart : (start firstVpin nPins portOutputState).Agrees pin ((0 : BitVec w).getLsbD pin) := by
    have hbit : (create firstVpin nPins portOutputState).active pin = false := by
      have hlt : pin < w := by omega
      simp [active, create, hlt]
    simp [Agrees, start, hbit]
  have hagrees := hstart.run hpin (by simp only [start]; omega) (by omega) es
  have hfixed : (run step (start firstVpin nPins portOutputState) es).dev.firstVpin = firstVpin :=
    inv_run_of_step (fun s : Listened w => s.dev.firstVpin = firstVpin)
      (fun s e h => (s.step_fixed e).1.trans h) rfl es
  rw [Agrees, hfixed] at hagrees
  rw [hagrees]
  cases (run step (start firstVpin nPins portOutputState) es).dev.active pin <;>
    cases (missed (start firstVpin nPins portOutputState) 0 es).getLsbD pin <;> decide

theorem told_iff_two :
    (run step (start 164 16 (0 : BitVec 16)) [.begin true, .configure 164 true, .configure 165 true,
        .loop none true true, .loop (some (true, 0xFFFE)) true true]).told (164 + UInt16.ofNat 0) =
        (run step (start 164 16 (0 : BitVec 16)) [.begin true, .configure 164 true, .configure 165 true,
          .loop none true true, .loop (some (true, 0xFFFE)) true true]).dev.active 0 ↔
      (missed (start 164 16 (0 : BitVec 16)) 0 [.begin true, .configure 164 true, .configure 165 true,
        .loop none true true, .loop (some (true, 0xFFFE)) true true]).getLsbD 0 = false :=
  told_iff (by decide) 164 16 0 _ 0 (by decide)

/-! ## A change that is lost -/

/-- An input that is active, and the callbacks have been told that it is not. -/
structure Stale (s : Listened w) (pin : Nat) : Prop where
  lt : pin < s.dev.nPins
  inUse : s.dev.portInUse.getLsbD pin = true
  input : s.dev.portMode.getLsbD pin = false
  active : s.dev.active pin = true
  told : s.told (s.dev.firstVpin + UInt16.ofNat pin) = false

/-- A scan that reads the pin as active, or no result of a scan. -/
def StillActive (pin : Nat) : Event w → Prop
  | .loop none _ _ => True
  | .loop (some (ok, levels)) _ _ => ok = true ∧ levels.getLsbD pin = false
  | _ => False

theorem active_settle (dev : GPIOBase w) {pin : Nat} (hinUse : dev.portInUse.getLsbD pin = true)
    (hinput : dev.portMode.getLsbD pin = false) : dev.settle.active pin = dev.active pin := by
  have hbit : dev.settle.portInputState.getLsbD pin = dev.portInputState.getLsbD pin := by
    rw [settle, BitVec.getLsbD_or, BitVec.getLsbD_or, BitVec.getLsbD_not, hinUse, hinput]
    simp
  rw [active, active, hbit]

theorem active_complete (dev : GPIOBase w) {pin : Nat} (hinUse : dev.portInUse.getLsbD pin = true)
    (hinput : dev.portMode.getLsbD pin = false) (levels : BitVec w) :
    (dev.complete true levels).active pin = !levels.getLsbD pin := by
  have hsettle := active_settle
    { dev with deviceState := .normal, portInputState := levels ||| dev.portMode } hinUse hinput
  refine hsettle.trans ?_
  rw [active, BitVec.getLsbD_or, hinput, Bool.or_false]

/-- The scans of an input that stays active leave the callbacks where they were. -/
theorem Stale.step {s : Listened w} {pin : Nat} (h : s.Stale pin) (hpins : s.dev.nPins ≤ 65536) {e : Event w}
    (he : StillActive pin e) : (s.step e).Stale pin := by
  obtain ⟨completion, hasCallback, interrupt, rfl⟩ : ∃ completion hasCallback interrupt,
      e = .loop completion hasCallback interrupt := by
    cases e with
    | loop completion hasCallback interrupt => exact ⟨_, _, _, rfl⟩
    | _ => exact he.elim
  obtain ⟨hfirst, hnPins⟩ := s.step_fixed (.loop completion hasCallback interrupt)
  -- what the scan takes in
  have htaken : (s.dev.takeIn completion hasCallback).1.portInUse.getLsbD pin = true ∧
      (s.dev.takeIn completion hasCallback).1.portMode.getLsbD pin = false ∧
      (s.dev.takeIn completion hasCallback).1.active pin = true := by
    unfold takeIn
    split
    · next ok levels _ =>
      obtain ⟨rfl, hlevel⟩ := he
      refine ⟨h.inUse, h.input, ?_⟩
      rw [active_complete _ h.inUse h.input, hlevel]
      rfl
    · exact ⟨h.inUse, h.input, h.active⟩
  obtain ⟨hinUse, hinput, hactive⟩ := htaken
  refine ⟨by rw [hnPins]; exact h.lt, ?_, ?_, ?_, ?_⟩
  · simp only [Listened.step, loop, startScan]
    split <;> exact hinUse
  · simp only [Listened.step, loop, startScan]
    split <;> exact hinput
  · change (!((s.dev.takeIn completion hasCallback).1.startScan interrupt).portInputState.getLsbD pin) = true
    rw [startScan_portInputState]
    exact hactive
  · rw [hfirst]
    change tell s.told (s.dev.takeIn completion hasCallback).2 (s.dev.firstVpin + UInt16.ofNat pin) = false
    cases hasCallback with
    | false =>
      rw [(takeIn_false s.dev completion).1]
      exact h.told
    | true =>
      have htell := tell_takeIn h.lt hpins completion s.told
      rw [htell, h.active, hactive, if_pos rfl]
      exact h.told

end Listened

end GPIOBase

end CommandStation
