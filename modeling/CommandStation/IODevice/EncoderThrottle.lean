import CommandStation.Lib.Run
import Mathlib.Data.List.Chain

/-!
# The rotary encoder throttle

The encoder has two contacts, which are read as a number from 0 to 3. A table decodes their changes to steps
in one direction or the other. The first step after the button was pressed sets the direction, and after that
a step towards the other side slows the loco down: a hasty turn cannot reverse it (`no_panic_spin`). The button
stops a loco that the throttle drives. While no direction is set it sends nothing, even if another throttle
has started the loco.

What `DCC` answers about the loco is an input of each call, as other throttles drive the loco too. A notch of
one step never starts a loco: step 1 is the emergency stop, which the code takes for 0 in both
directions (`notch_one_never_starts`).
-/

namespace CommandStation

open CommandStation.Lib

/-- `_stopState` -/
inductive StopState where
  | stop | fwd | rev
  deriving DecidableEq, Repr

/-- `class EncoderThrottle` -/
structure EncoderThrottle where
  locoid : Int
  notch : Nat
  prevpinstate : Nat
  stopState : StopState
  rocoState : UInt8
  deriving DecidableEq, Repr

/-- A call of `DCC::setThrottle` for the loco. -/
structure DriveCommand where
  speed : Nat
  forward : Bool
  deriving DecidableEq, Repr

/-- `DCC::setThrottle` keeps a command as a speed byte. -/
def DriveCommand.speedByte (c : DriveCommand) : UInt8 :=
  (UInt8.ofNat c.speed &&& 0x7F) + (if c.forward then 128 else 0)

namespace EncoderThrottle

/-! ## The model -/

def dirCw : UInt8 := 0x10
def dirCcw : UInt8 := 0x20
def stateMask : UInt8 := 0x07
def dirMask : UInt8 := 0x30

/-- `transition_table` -/
def transitionTable : List (List UInt8) :=
  [[0, 1, 3, 0],
    [1, 1, 1, 2 ||| dirCw],
    [2, 2, 0, 2],
    [3, 3, 3, 4 ||| dirCcw],
    [4, 0, 4, 4]]

def transition (rocoState : UInt8) (pinstate : Nat) : UInt8 :=
  (transitionTable.getD (rocoState &&& stateMask).toNat []).getD pinstate 0

/-- The constructor. No pair of contacts reads as 4. -/
def new (notch : UInt8) : EncoderThrottle := ⟨0, notch.toNat, 4, .stop, 0⟩

/-- What a speed byte says about the speed. -/
def speedOf (speedByte : UInt8) : Nat := (speedByte &&& 0x7F).toNat

def forwardOf (speedByte : UInt8) : Bool := speedByte &&& 0x80 != 0

/-- The new speed after a step. -/
def notched (notch : Nat) (up : Bool) (oldspeed : Nat) : Nat :=
  let newspeed := if up then min (oldspeed + notch) 126 else oldspeed - notch
  if newspeed = 1 then 0 else newspeed  -- normal decelerated stop

/-- The speed that a step starts from: an emergency stop is broken out of. -/
def oldspeed (speedByte : UInt8) : Nat := if speedOf speedByte = 1 then 0 else speedOf speedByte

/-- The first move after the button was pressed sets the direction. -/
def started (s : EncoderThrottle) (clockwise : Bool) : EncoderThrottle :=
  if s.stopState = .stop then { s with stopState := if clockwise then .fwd else .rev } else s

/-- Going forward clockwise increases the speed, when reversing anticlockwise does. -/
def drive (s : EncoderThrottle) (clockwise : Bool) (speedByte : UInt8) : Option DriveCommand :=
  let up := if s.stopState = .rev then !clockwise else clockwise
  let newspeed := notched s.notch up (oldspeed speedByte)
  if oldspeed speedByte ≠ newspeed then some ⟨newspeed, s.stopState = .fwd⟩ else none

/-- The contacts have changed. -/
def decode (s : EncoderThrottle) (pinstate : Nat) : EncoderThrottle :=
  { s with prevpinstate := pinstate, rocoState := transition s.rocoState pinstate }

def clockwise (s : EncoderThrottle) : Bool := s.rocoState &&& dirCw != 0

/-- `EncoderThrottle::_loop`, with what is read of the three pins and of the loco. -/
def loop (s : EncoderThrottle) (click dt clk : Bool) (speedByte : UInt8) :
    EncoderThrottle × Option DriveCommand :=
  if s.locoid = 0 then (s, none)  -- not in use
  else if click then
    if s.stopState = .stop then (s, none)  -- debounced multiple stops
    else ({ s with stopState := .stop }, some ⟨1, forwardOf speedByte⟩)
  else
    let pinstate := 2 * dt.toNat + clk.toNat
    if pinstate = s.prevpinstate then (s, none)
    else
      let s := s.decode pinstate
      if s.rocoState &&& dirMask = 0 then (s, none)  -- no value change
      else (s.started s.clockwise, (s.started s.clockwise).drive s.clockwise speedByte)

/-- `EncoderThrottle::_writeAnalogue`: a loco that moves keeps its direction. -/
def writeAnalogue (s : EncoderThrottle) (value : Int) (param1 : UInt8) (speedByte : UInt8) :
    EncoderThrottle where
  locoid := value
  notch := if 0 < param1 then param1.toNat else s.notch
  prevpinstate := s.prevpinstate
  stopState :=
    if 0 < value ∧ 1 < speedOf speedByte then if forwardOf speedByte then .fwd else .rev else .stop
  rocoState := 0

/-! ## Runs of `_loop` -/

/-- What a call of `_loop` reads. -/
structure Reading where
  click : Bool
  dt : Bool
  clk : Bool
  speedByte : UInt8

/-- The commands of a run in order, each with what its call had read. -/
def commands : EncoderThrottle → List Reading → List (Reading × DriveCommand)
  | _, [] => []
  | s, r :: rs =>
    let (s, command) := s.loop r.click r.dt r.clk r.speedByte
    command.toList.map (r, ·) ++ commands s rs

/-- What a call may do, by the button and the direction that was set before: nothing but decode, stop, or
drive in the direction that is set. -/
inductive Calls (click : Bool) (before : StopState) : EncoderThrottle × Option DriveCommand → Prop where
  | quiet {s} (h : s.stopState = before) : Calls click before (s, none)
  | stop {s} (hclick : click = true) (forward : Bool) (h : s.stopState = .stop) :
    Calls click before (s, some ⟨1, forward⟩)
  | turn {s} (hset : s.stopState ≠ .stop) (hkept : before = .stop ∨ s.stopState = before) :
    Calls click before (s, none)
  | drive {s} {speed : Nat} (hclick : click = false) (hset : s.stopState ≠ .stop)
      (hkept : before = .stop ∨ s.stopState = before) (hspeed : speed ≠ 1 ∧ speed ≤ 126) :
    Calls click before (s, some ⟨speed, s.stopState = .fwd⟩)

theorem oldspeed_le (speedByte : UInt8) : oldspeed speedByte ≤ 127 := by
  have hle : speedOf speedByte ≤ 127 := by
    rw [speedOf, UInt8.toNat_and]
    exact Nat.and_le_right
  unfold oldspeed
  split <;> omega

theorem notched_le {notch old : Nat} {up : Bool} (h : old ≤ 127) (hne : old ≠ notched notch up old) :
    notched notch up old ≠ 1 ∧ notched notch up old ≤ 126 := by
  unfold notched at *
  grind

theorem drive_cases (s : EncoderThrottle) (clockwise : Bool) (speedByte : UInt8) :
    s.drive clockwise speedByte = none ∨
      ∃ speed, (speed ≠ 1 ∧ speed ≤ 126) ∧
        s.drive clockwise speedByte = some ⟨speed, s.stopState = .fwd⟩ := by
  unfold drive
  generalize (if s.stopState = .rev then !clockwise else clockwise) = up
  dsimp only
  split
  · next hne => exact .inr ⟨_, notched_le (oldspeed_le speedByte) hne, rfl⟩
  · exact .inl rfl

theorem started_ne_stop (s : EncoderThrottle) (clockwise : Bool) :
    (s.started clockwise).stopState ≠ .stop := by
  unfold started
  split
  · cases clockwise <;> simp
  · assumption

theorem started_kept (s : EncoderThrottle) (clockwise : Bool) :
    s.stopState = .stop ∨ (s.started clockwise).stopState = s.stopState := by
  unfold started
  split
  · next h => exact .inl h
  · exact .inr rfl

/-- One pass of the loop decodes, stops, or drives in the direction that is set. -/
theorem calls_loop (s : EncoderThrottle) (r : Reading) :
    Calls r.click s.stopState (s.loop r.click r.dt r.clk r.speedByte) := by
  unfold loop
  split
  · exact .quiet rfl
  by_cases hclick : r.click = true
  · rw [if_pos hclick]
    split
    · exact .quiet rfl
    · exact .stop hclick _ rfl
  rw [if_neg hclick]
  dsimp only
  split
  · exact .quiet rfl
  split
  · exact .quiet rfl
  -- a step was decoded
  have hstop : s.stopState = (s.decode (2 * r.dt.toNat + r.clk.toNat)).stopState := rfl
  rw [hstop]
  generalize s.decode (2 * r.dt.toNat + r.clk.toNat) = t
  obtain hnone | ⟨speed, hspeed, hsome⟩ := drive_cases (t.started t.clockwise) t.clockwise r.speedByte
  · rw [hnone]
    exact .turn (t.started_ne_stop _) (t.started_kept _)
  · rw [hsome]
    exact .drive (Bool.eq_false_iff.2 hclick) (t.started_ne_stop _) (t.started_kept _) hspeed

/-- The first command of a run, unless it is of the button, drives in the direction that was set. -/
def Continues (before : StopState) (cs : List (Reading × DriveCommand)) : Prop :=
  before ≠ .stop → ∀ c ∈ cs.head?, c.1.click = true ∨ c.2.forward = decide (before = .fwd)

/-- Of two commands in a row neither reverses the other, unless one is of the button. -/
def SameWay (c c' : Reading × DriveCommand) : Prop :=
  c.1.click = true ∨ c'.1.click = true ∨ c.2.forward = c'.2.forward

/-- A press asks for step 1, and no step asks for that or for more than 126. -/
def Allowed (c : Reading × DriveCommand) : Prop :=
  if c.1.click = true then c.2.speed = 1 else c.2.speed ≠ 1 ∧ c.2.speed ≤ 126

/-- Over a run, no command reverses the one before it without the button, and each is allowed. -/
theorem commands_spec (s : EncoderThrottle) (rs : List Reading) :
    (commands s rs).IsChain SameWay ∧ Continues s.stopState (commands s rs) ∧
      ∀ c ∈ commands s rs, Allowed c := by
  induction rs generalizing s with
  | nil =>
    refine ⟨.nil, ?_, ?_⟩
    · simp [Continues, commands]
    · simp [commands]
  | cons r rs ih =>
    have hcalls := s.calls_loop r
    unfold commands
    generalize s.loop r.click r.dt r.clk r.speedByte = call at hcalls
    obtain ⟨s', command⟩ := call
    obtain ⟨hchain, hfirst, hallowed⟩ := ih s'
    cases hcalls with
    | quiet h => exact ⟨hchain, h ▸ hfirst, hallowed⟩
    | stop hclick forward h =>
      refine ⟨List.isChain_cons.2 ⟨fun c _ => .inl hclick, hchain⟩, ?_, ?_⟩
      · rintro - c ⟨⟩
        exact .inl hclick
      · exact List.forall_mem_cons.2 ⟨(if_pos hclick).mpr rfl, hallowed⟩
    | turn hset hkept =>
      refine ⟨hchain, fun hbefore => ?_, hallowed⟩
      obtain hstop | hsame := hkept
      · exact absurd hstop hbefore
      · exact hsame ▸ hfirst hset
    | drive hclick hset hkept hspeed =>
      have hno : ¬ r.click = true := Bool.eq_false_iff.1 hclick
      refine ⟨List.isChain_cons.2 ⟨fun c hc => ?_, hchain⟩, fun hbefore => ?_, ?_⟩
      · obtain hstop | hway := hfirst hset c hc
        · exact .inr (.inl hstop)
        · exact .inr (.inr hway.symm)
      · rintro c ⟨⟩
        obtain hstop | hsame := hkept
        · exact absurd hstop hbefore
        · exact .inr (by rw [hsame])
      · exact List.forall_mem_cons.2 ⟨(if_neg hno).mpr hspeed, hallowed⟩

/-! ## The button -/

/-- The throttle after some calls. -/
def after (s : EncoderThrottle) (rs : List Reading) : EncoderThrottle :=
  rs.foldl (fun s r => (s.loop r.click r.dt r.clk r.speedByte).1) s

/-- The throttle drives its loco: its last command was a step, or there was none and a direction had been
set before. -/
def Drives (s : EncoderThrottle) (rs : List Reading) : Prop :=
  match (commands s rs).getLast? with
  | none => s.stopState ≠ .stop
  | some c => c.1.click = false

theorem commands_cons (s : EncoderThrottle) (r : Reading) (rs : List Reading) :
    commands s (r :: rs) = (s.loop r.click r.dt r.clk r.speedByte).2.toList.map (r, ·) ++
      commands (s.loop r.click r.dt r.clk r.speedByte).1 rs := rfl

theorem commands_append (s : EncoderThrottle) (rs rs' : List Reading) :
    commands s (rs ++ rs') = commands s rs ++ commands (s.after rs) rs' := by
  induction rs generalizing s with
  | nil => rfl
  | cons r rs ih =>
    rw [List.cons_append, commands_cons, ih, commands_cons, List.append_assoc]
    rfl

theorem loop_locoid (s : EncoderThrottle) (click dt clk : Bool) (speedByte : UInt8) :
    (s.loop click dt clk speedByte).1.locoid = s.locoid := by
  unfold loop started
  grind [decode]

theorem after_locoid (s : EncoderThrottle) (rs : List Reading) : (s.after rs).locoid = s.locoid := by
  induction rs generalizing s with
  | nil => rfl
  | cons r rs ih => exact (ih _).trans (s.loop_locoid ..)

/-- A throttle that drives has a direction. -/
theorem Drives.stopState {s : EncoderThrottle} {rs : List Reading} (h : s.Drives rs) :
    (s.after rs).stopState ≠ .stop := by
  induction rs generalizing s with
  | nil => exact h
  | cons r rs ih =>
    have hcalls := s.calls_loop r
    show ((s.loop r.click r.dt r.clk r.speedByte).1.after rs).stopState ≠ .stop
    unfold Drives at h
    rw [commands_cons] at h
    generalize s.loop r.click r.dt r.clk r.speedByte = call at h hcalls
    obtain ⟨s', command⟩ := call
    rw [List.getLast?_append] at h
    dsimp only at h ⊢
    apply ih
    unfold Drives
    -- a later command decides, or else this call
    cases hlast : (commands s' rs).getLast? with
    | some c =>
      rw [hlast] at h
      exact h
    | none =>
      rw [hlast] at h
      cases hcalls with
      | quiet hsame => exact hsame ▸ h
      | stop hclick forward hset => exact absurd (hclick.symm.trans h) (by decide)
      | turn hset hkept => exact hset
      | drive hclick hset hkept hspeed => exact hset

theorem loop_press {s : EncoderThrottle} (hloco : s.locoid ≠ 0) (hset : s.stopState ≠ .stop) (dt clk : Bool)
    (speedByte : UInt8) : s.loop true dt clk speedByte =
      ({ s with stopState := .stop }, some ⟨1, forwardOf speedByte⟩) := by
  rw [loop, if_neg hloco, if_pos rfl, if_neg hset]

/-- **You cannot panic-spin into the other direction.** Whatever the contacts show, whatever other throttles
do with the loco: between two selections of a loco, two steps that drive it in different directions have a
press of the button between them. A press asks for step 1, and a step for at most 126. When the last command
was a step, or the loco was moving when it was selected, a press does send step 1, in the direction that the
loco has. -/
theorem no_panic_spin (s : EncoderThrottle) (rs : List Reading) :
    (commands s rs).IsChain SameWay ∧ (∀ c ∈ commands s rs, Allowed c) ∧
      ∀ r : Reading, s.locoid ≠ 0 → s.Drives rs → r.click = true →
        commands s (rs ++ [r]) = commands s rs ++ [(r, ⟨1, forwardOf r.speedByte⟩)] := by
  refine ⟨(commands_spec s rs).1, (commands_spec s rs).2.2, ?_⟩
  intro r hloco hdrives hclick
  have hpress := loop_press ((s.after_locoid rs).trans_ne hloco) hdrives.stopState r.dt r.clk r.speedByte
  rw [commands_append, commands_cons, hclick, hpress]
  rfl

/-- Loco 3 is selected while it runs at speed 20, slowed down by a step and stopped. -/
theorem no_panic_spin_press :
    commands ((new 5).writeAnalogue 3 0 148)
        ([⟨false, true, false, 148⟩, ⟨false, true, true, 148⟩] ++ [⟨true, false, false, 143⟩]) =
      [(⟨false, true, true, 148⟩, ⟨15, true⟩), (⟨true, false, false, 143⟩, ⟨1, true⟩)] :=
  (no_panic_spin ((new 5).writeAnalogue 3 0 148)
    [⟨false, true, false, 148⟩, ⟨false, true, true, 148⟩]).2.2 ⟨true, false, false, 143⟩ (by decide)
      (show false = false from rfl) rfl

/-! ## The throttle alone with its loco -/

/-- The throttle, and the speed byte that `DCC` has for the loco. -/
structure Driven where
  throttle : EncoderThrottle
  speedByte : UInt8

/-- A call of `_loop`, with whether `DCC` accepts the command, or the selection of a loco with its speed
byte. -/
inductive Event where
  | loop (click dt clk accepted : Bool)
  | select (value : Int) (param1 speedByte : UInt8)

/-- What becomes of the speed byte. -/
def afterCommand (accepted : Bool) (speedByte : UInt8) : Option DriveCommand → UInt8
  | some c => if accepted then c.speedByte else speedByte
  | none => speedByte

def Driven.step (d : Driven) : Event → Driven
  | .loop click dt clk accepted =>
    let call := d.throttle.loop click dt clk d.speedByte
    ⟨call.1, afterCommand accepted d.speedByte call.2⟩
  | .select value param1 speedByte => ⟨d.throttle.writeAnalogue value param1 speedByte, speedByte⟩

/-- A selection sets no notch but one, and the loco that is selected stands. -/
def NotchOne (_ : Driven) : Event → Prop
  | .select _ param1 speedByte => param1 ≤ 1 ∧ speedOf speedByte ≤ 1
  | .loop .. => True

/-- A notch of one leads from standstill to step 1, which is taken for 0. -/
theorem notched_zero_iff {notch : Nat} {up : Bool} : notched notch up 0 = 0 ↔ notch ≤ 1 ∨ up = false := by
  unfold notched
  grind

theorem oldspeed_eq_zero_iff {speedByte : UInt8} : oldspeed speedByte = 0 ↔ speedOf speedByte ≤ 1 := by
  unfold oldspeed
  grind

theorem drive_of_notch_one {s : EncoderThrottle} (hnotch : s.notch ≤ 1) {speedByte : UInt8}
    (hslow : speedOf speedByte ≤ 1) (clockwise : Bool) : s.drive clockwise speedByte = none := by
  unfold drive
  generalize (if s.stopState = .rev then !clockwise else clockwise) = up
  have hzero : notched s.notch up 0 = 0 := notched_zero_iff.2 (.inl hnotch)
  rw [oldspeed_eq_zero_iff.2 hslow]
  exact if_neg fun hne => hne hzero.symm

theorem notch_started (s : EncoderThrottle) (clockwise : Bool) : (s.started clockwise).notch = s.notch := by
  unfold started
  split <;> rfl

/-- What a call does with a notch of one to a loco that stands. -/
theorem loop_of_notch_one {s : EncoderThrottle} (hnotch : s.notch ≤ 1) {speedByte : UInt8}
    (hslow : speedOf speedByte ≤ 1) (click dt clk : Bool) :
    (s.loop click dt clk speedByte).1.notch = s.notch ∧
      ∀ c ∈ (s.loop click dt clk speedByte).2, c.speed = 1 := by
  unfold loop
  split
  · exact ⟨rfl, fun c hc => by cases hc⟩
  split
  · split
    · exact ⟨rfl, fun c hc => by cases hc⟩
    · refine ⟨rfl, fun c hc => ?_⟩
      cases hc
      rfl
  dsimp only
  split
  · exact ⟨rfl, fun c hc => by cases hc⟩
  split
  · exact ⟨rfl, fun c hc => by cases hc⟩
  have hkept : (s.decode (2 * dt.toNat + clk.toNat)).notch = s.notch := rfl
  generalize s.decode (2 * dt.toNat + clk.toNat) = t at hkept
  have hsame : (t.started t.clockwise).notch = s.notch := (notch_started t _).trans hkept
  refine ⟨hsame, fun c hc => ?_⟩
  rw [drive_of_notch_one (hsame.trans_le hnotch) hslow] at hc
  cases hc

/-- **A notch of one never starts a loco.** Whatever is done with the encoder and its button, a loco that
stands when the throttle comes to drive it will stand. -/
theorem notch_one_never_starts {d : Driven} (hnotch : d.throttle.notch ≤ 1)
    (hslow : speedOf d.speedByte ≤ 1) {es : List Event} (h : Along Driven.step NotchOne d es) :
    speedOf (run Driven.step d es).speedByte ≤ 1 := by
  let Inv : Driven → Prop := fun d => d.throttle.notch ≤ 1 ∧ speedOf d.speedByte ≤ 1
  have hstep : ∀ d e, NotchOne d e → Inv d → Inv (d.step e) := by
    rintro d e he ⟨hnotch, hslow⟩
    cases e with
    | loop click dt clk accepted =>
      obtain ⟨hkept, hstop⟩ := loop_of_notch_one hnotch hslow click dt clk
      refine ⟨hkept.trans_le hnotch, ?_⟩
      show speedOf (afterCommand accepted d.speedByte (d.throttle.loop click dt clk d.speedByte).2) ≤ 1
      generalize (d.throttle.loop click dt clk d.speedByte).2 = command at hstop
      cases command with
      | none => exact hslow
      | some c =>
        cases accepted with
        | false => exact hslow
        | true =>
          have hspeed : c.speed = 1 := hstop c rfl
          show speedOf c.speedByte ≤ 1
          rw [DriveCommand.speedByte, hspeed]
          cases c.forward <;> decide
    | select value param1 speedByte =>
      refine ⟨?_, he.2⟩
      show (if 0 < param1 then param1.toNat else d.throttle.notch) ≤ 1
      split
      · exact UInt8.le_iff_toNat_le.1 he.1
      · exact hnotch
  exact (inv_run Inv hstep ⟨hnotch, hslow⟩ h).2

/-- Loco 3 is selected, and one step is made. -/
theorem notch_one_never_starts_turn :
    speedOf (run Driven.step ⟨.new 1, 128⟩ [.select 3 0 0, .loop false false true true,
      .loop false true true true]).speedByte ≤ 1 :=
  notch_one_never_starts (by decide) (by decide)
    ⟨show (0 : UInt8) ≤ 1 ∧ speedOf 0 ≤ 1 by decide, trivial, trivial, trivial⟩

end EncoderThrottle

end CommandStation
