import CommandStation.Lib.Pulses
import CommandStation.Lib.Run

/-!
# Acknowledgements

A decoder answers with a pulse of current. `setAckPending` opens a window; from then on the waveform
calls `checkAck` with a sample of the current in each interrupt, until there was a pulse of the right
length or more than six resets were sent. `getAck` tells what came of it.

The window does not start from scratch: `trailingEdgeCounter` is not reset. The program sees the samples
only through `checkAck`, and what it makes of them are the pulses of `Lib.Pulse`.
-/

namespace CommandStation

open CommandStation.Lib

namespace DCCACK

/-- The variables of `class DCCACK` that belong to the detection, with `transmitRepeats` of the
programming track. `ackCheckDuration` is what `getAck` reports, cut to an `int` there. -/
structure Detector where
  ackPending : Bool
  ackDetected : Bool
  ackMaxCurrent : Int
  ackCheckStart : UInt32
  ackCheckDuration : UInt32
  ackPulseDuration : UInt32
  ackPulseStart : UInt32
  numAckGaps : UInt8
  numAckSamples : UInt8
  trailingEdgeCounter : UInt8
  transmitRepeats : UInt8
  deriving DecidableEq, Repr

/-- What a call of `checkAck` finds: the resets since the packet, the current, the clocks, and the
limits, which the main program may change in between. -/
structure AckCall where
  sentResetsSincePacket : UInt8
  current : Int
  micros : UInt32
  millis : UInt32
  ackThreshold : Int
  minAckPulseDuration : UInt32
  maxAckPulseDuration : UInt32
  deriving DecidableEq, Repr

namespace Detector

/-- `DCCACK::setAckPending` -/
def setAckPending (s : Detector) (millis : UInt32) : Detector :=
  { s with
    ackMaxCurrent := 0, ackPulseStart := 0, ackPulseDuration := 0, ackDetected := false
    ackCheckStart := millis, numAckSamples := 0, numAckGaps := 0, ackPending := true }

/-- `DCCACK::getAck` -/
def getAck (s : Detector) : UInt8 :=
  if s.ackPending then 2  -- still waiting
  else if s.ackDetected then 1  -- Yes we had an ack
  else 0

/-- The part of `checkAck` for a sample above the threshold. -/
def inPulse (s : Detector) (c : AckCall) : Detector :=
  let s := if 0 < s.trailingEdgeCounter then
      { s with numAckGaps := s.numAckGaps + 1, trailingEdgeCounter := 0 }
    else s
  -- leading edge of pulse detected
  if s.ackPulseStart = 0 then { s with ackPulseStart := c.micros } else s

/-- The part for a sample that is not in a pulse. -/
def notInPulse (s : Detector) (c : AckCall) : Detector :=
  if s.ackPulseStart = 0 then s  -- keep waiting for leading edge
  else
    -- trailing edge of pulse
    let s := if s.trailingEdgeCounter = 0 then
        { s with ackPulseDuration := c.micros - s.ackPulseStart }
      else s
    -- but we do not trust it yet
    if s.trailingEdgeCounter < 2 then { s with trailingEdgeCounter := s.trailingEdgeCounter + 1 }
    else
      let s := { s with trailingEdgeCounter := 0 }
      if c.minAckPulseDuration ≤ s.ackPulseDuration ∧
          (s.ackPulseDuration ≤ c.maxAckPulseDuration ∨ c.maxAckPulseDuration = 0) then
        { s with
          ackCheckDuration := c.millis - s.ackCheckStart, ackDetected := true, ackPending := false
          transmitRepeats := 0 }
      else { s with ackPulseStart := 0 }  -- too short or too long

/-- `DCCACK::checkAck` -/
def checkAck (s : Detector) (c : AckCall) : Detector :=
  if s.ackPending = false then s
  else if 6 < c.sentResetsSincePacket then
    { s with ackCheckDuration := c.millis - s.ackCheckStart, ackPending := false }  -- ACK timeout
  else
    let s := { s with
      numAckSamples := s.numAckSamples + 1
      ackMaxCurrent := if s.ackMaxCurrent < c.current then c.current else s.ackMaxCurrent }
    if c.ackThreshold < c.current then s.inPulse c else s.notInPulse c

/-! ### Fields -/

variable {s : Detector} {c : AckCall}

theorem inPulse_ackPending : (s.inPulse c).ackPending = s.ackPending := by
  unfold inPulse
  dsimp only
  split <;> split <;> rfl

theorem inPulse_ackDetected : (s.inPulse c).ackDetected = s.ackDetected := by
  unfold inPulse
  dsimp only
  split <;> split <;> rfl

theorem inPulse_ackPulseStart :
    (s.inPulse c).ackPulseStart = if s.ackPulseStart = 0 then c.micros else s.ackPulseStart := by
  unfold inPulse
  by_cases hpos : 0 < s.trailingEdgeCounter
  · by_cases hstart : s.ackPulseStart = 0 <;> simp [hpos, hstart]
  · by_cases hstart : s.ackPulseStart = 0 <;> simp [hpos, hstart]

theorem inPulse_trailingEdgeCounter : (s.inPulse c).trailingEdgeCounter.toNat = 0 := by
  unfold inPulse
  dsimp only
  by_cases hpos : 0 < s.trailingEdgeCounter
  · rw [if_pos hpos]
    split <;> rfl
  · rw [if_neg hpos]
    rw [UInt8.lt_iff_toNat_lt, UInt8.toNat_zero] at hpos
    split <;> exact Nat.eq_zero_of_not_pos hpos

/-- A low sample that is not the last of the three. -/
theorem notInPulse_low (hstart : s.ackPulseStart ≠ 0) (hlow : s.trailingEdgeCounter.toNat + 1 < 3) :
    s.notInPulse c = { s with
      ackPulseDuration := if s.trailingEdgeCounter.toNat = 0 then c.micros - s.ackPulseStart
        else s.ackPulseDuration
      trailingEdgeCounter := s.trailingEdgeCounter + 1 } := by
  have hless : s.trailingEdgeCounter < 2 := by
    rw [UInt8.lt_iff_toNat_lt]
    show _ < 2
    omega
  unfold notInPulse
  rw [if_neg hstart]
  by_cases hzero : s.trailingEdgeCounter = 0
  · simp [hzero]
  · have hnat : s.trailingEdgeCounter.toNat ≠ 0 := fun h => hzero (UInt8.toNat_inj.mp h)
    simp [hzero, hnat, hless]

/-- The last low sample of the three. -/
theorem notInPulse_end (hstart : s.ackPulseStart ≠ 0) (hlow : s.trailingEdgeCounter.toNat = 2) :
    s.notInPulse c =
      if c.minAckPulseDuration ≤ s.ackPulseDuration ∧
          (s.ackPulseDuration ≤ c.maxAckPulseDuration ∨ c.maxAckPulseDuration = 0) then
        { s with
          trailingEdgeCounter := 0, ackCheckDuration := c.millis - s.ackCheckStart
          ackDetected := true, ackPending := false, transmitRepeats := 0 }
      else { s with trailingEdgeCounter := 0, ackPulseStart := 0 } := by
  have htwo : s.trailingEdgeCounter = 2 := UInt8.toNat_inj.mp hlow
  unfold notInPulse
  rw [if_neg hstart]
  simp [htwo]

end Detector

/-! ## Pulses -/

/-- The sample is above the threshold. -/
def AckCall.High (c : AckCall) : Prop := c.ackThreshold < c.current

instance (c : AckCall) : Decidable c.High := inferInstanceAs (Decidable (_ < _))

/-- There is a pulse, and its length is in the limits when its end is believed. -/
def HasAck (xs : List AckCall) : Prop :=
  ∃ (i j : Nat) (x y z : AckCall), Pulse AckCall.High 3 xs i j ∧
    xs[i]? = some x ∧ xs[j]? = some y ∧ xs[j + 2]? = some z ∧
    z.minAckPulseDuration ≤ y.micros - x.micros ∧
    (y.micros - x.micros ≤ z.maxAckPulseDuration ∨ z.maxAckPulseDuration = 0)

/-- The samples of a window: those before the time-out. -/
def samples (calls : List AckCall) : List AckCall :=
  calls.takeWhile fun c => c.sentResetsSincePacket ≤ 6

/-- The window has timed out. -/
def TimedOut (calls : List AckCall) : Prop := ∃ c ∈ calls, 6 < c.sentResetsSincePacket

variable {s : Detector} {c : AckCall} {xs ys calls : List AckCall} {i j t : Nat}

theorem HasAck.append (h : HasAck xs) (ys : List AckCall) : HasAck (xs ++ ys) := by
  obtain ⟨i, j, x, y, z, hp, hx, hy, hz, hlen⟩ := h
  have hle := hp.trailing.le (by decide)
  have hi := hp.after
  refine ⟨i, j, x, y, z, hp.append (by decide) ys, ?_, ?_, ?_, hlen⟩
  · rwa [List.getElem?_append_left (by omega)]
  · rwa [List.getElem?_append_left (by omega)]
  · rwa [List.getElem?_append_left (by omega)]

/-- A new acknowledgement comes from a new pulse. -/
theorem HasAck.new_pulse (h : HasAck (xs ++ [c])) (hno : ¬ HasAck xs) :
    ∃ (i j : Nat) (x y : AckCall), Pulse AckCall.High 3 (xs ++ [c]) i j ∧
      ¬ Pulse AckCall.High 3 xs i j ∧ (xs ++ [c])[i]? = some x ∧ (xs ++ [c])[j]? = some y ∧
      c.minAckPulseDuration ≤ y.micros - x.micros ∧
      (y.micros - x.micros ≤ c.maxAckPulseDuration ∨ c.maxAckPulseDuration = 0) := by
  obtain ⟨i, j, x, y, z, hp, hx, hy, hz, hlen⟩ := h
  have hnew : ¬ Pulse AckCall.High 3 xs i j := by
    intro hold
    have hle := hold.trailing.le (by decide)
    have hi := hold.after
    rw [List.getElem?_append_left (by omega)] at hx hy hz
    exact hno ⟨i, j, x, y, z, hold, hx, hy, hz, hlen⟩
  have hend := hp.end_eq (by decide) hnew
  rw [show j + 2 = xs.length by omega, List.getElem?_append_right (Nat.le_refl _), Nat.sub_self] at hz
  obtain rfl : c = z := by simpa using hz
  exact ⟨i, j, x, y, hp, hnew, hx, hy, hlen⟩

/-! ## The automaton -/

/-- What the detector has kept of a pulse that is going on: when it began, how many low samples it has
seen and when the first of them was. -/
structure Follows (s : Detector) (xs : List AckCall) (i t : Nat) : Prop where
  inside : Inside AckCall.High 3 xs i t
  start : ∃ x, xs[i]? = some x ∧ s.ackPulseStart = x.micros ∧ x.micros ≠ 0 ∧
    (0 < t → ∃ y, xs[xs.length - t]? = some y ∧ s.ackPulseDuration = y.micros - x.micros)
  counter : s.trailingEdgeCounter.toNat = t

/-- The window is open and these are its samples. Where no pulse is going on the counter does not
matter. -/
structure Watching (s : Detector) (xs : List AckCall) : Prop where
  pending : s.ackPending = true
  undetected : s.ackDetected = false
  none : ¬ HasAck xs
  phase : (Over AckCall.High 3 xs xs.length ∧ s.ackPulseStart = 0) ∨ ∃ i t, Follows s xs i t

/-- The window is closed by an acknowledgement. -/
structure Acked (s : Detector) (xs : List AckCall) : Prop where
  closed : s.ackPending = false
  detected : s.ackDetected = true
  has : HasAck xs

theorem watching_setAckPending (s : Detector) (millis : UInt32) :
    Watching (s.setAckPending millis) [] := by
  refine ⟨rfl, rfl, ?_, .inl ⟨.inl fun i hi => absurd hi (Nat.not_lt_zero i), rfl⟩⟩
  rintro ⟨i, j, x, y, z, -, hx, -⟩
  simp at hx

/-- No pulse has ended, so there is no acknowledgement yet. -/
theorem not_hasAck_of_old (hno : ¬ HasAck xs)
    (hold : ∀ i j, Pulse AckCall.High 3 (xs ++ [c]) i j → Pulse AckCall.High 3 xs i j) :
    ¬ HasAck (xs ++ [c]) := by
  intro h
  obtain ⟨i, j, -, -, hp, hnew, -⟩ := h.new_pulse hno
  exact hnew (hold i j hp)

/-- A sample above the threshold. -/
theorem watching_inPulse (h : Watching s xs) (hhigh : c.High) (hclock : c.micros ≠ 0) :
    Watching (s.inPulse c) (xs ++ [c]) := by
  refine ⟨Detector.inPulse_ackPending.trans h.pending, Detector.inPulse_ackDetected.trans h.undetected, ?_,
    .inr ?_⟩
  · refine not_hasAck_of_old h.none fun i j hp => ?_
    rcases h.phase with ⟨hover, -⟩ | ⟨i', t, hin⟩
    · exact hover.no_new (by decide) hp
    · by_contra hnew
      exact (hin.inside.new_eq (by decide) hp hnew).2.2.2 hhigh
  · rcases h.phase with ⟨hover, hzero⟩ | ⟨i, t, hin⟩
    · refine ⟨xs.length, 0, inside_high hover (by decide) hhigh, ⟨c, by simp, ?_, hclock, ?_⟩,
        Detector.inPulse_trailingEdgeCounter⟩
      · rw [Detector.inPulse_ackPulseStart, if_pos hzero]
      · intro h0
        cases h0
    · obtain ⟨x, hx, hmicros, hne, -⟩ := hin.start
      refine ⟨i, 0, hin.inside.high_more (by decide) hhigh, ⟨x, ?_, ?_, hne, ?_⟩,
        Detector.inPulse_trailingEdgeCounter⟩
      · rwa [List.getElem?_append_left hin.inside.start_lt]
      · rw [Detector.inPulse_ackPulseStart, if_neg (by rw [hmicros]; exact hne), hmicros]
      · intro h0
        cases h0

/-- A sample at or below the threshold. -/
theorem watching_notInPulse (h : Watching s xs) (hlow : ¬ c.High) :
    Watching (s.notInPulse c) (xs ++ [c]) ∨ Acked (s.notInPulse c) (xs ++ [c]) := by
  rcases h.phase with ⟨hover, hzero⟩ | ⟨i, t, hin⟩
  · left
    rw [Detector.notInPulse, if_pos hzero]
    exact ⟨h.pending, h.undetected, not_hasAck_of_old h.none fun i j => hover.no_new (by decide),
      .inl ⟨over_low hover hlow, hzero⟩⟩
  · obtain ⟨x, hx, hmicros, hne, hduration⟩ := hin.start
    have hstart : s.ackPulseStart ≠ 0 := by rwa [hmicros]
    have hlead : (xs ++ [c])[i]? = some x := by rwa [List.getElem?_append_left hin.inside.start_lt]
    have hlt := hin.inside.start_lt
    have hcount := hin.counter
    -- the pulse ends with the third low sample in a row
    by_cases ht : t + 1 < 3
    · left
      rw [Detector.notInPulse_low hstart (by omega)]
      refine ⟨h.pending, h.undetected, not_hasAck_of_old h.none fun i' j hp => ?_, .inr ⟨i, t + 1,
        hin.inside.low_more hlow ht, ⟨x, hlead, hmicros, hne, fun _ => ?_⟩, ?_⟩⟩
      · by_contra hnew
        have := (hin.inside.new_eq (by decide) hp hnew).2.2.1
        omega
      · rw [List.length_append, List.length_singleton, Nat.add_sub_add_right, hcount, hmicros]
        by_cases hzero : t = 0
        · exact ⟨c, by simp [hzero], if_pos hzero⟩
        · obtain ⟨y, hy, hlen⟩ := hduration (by omega)
          exact ⟨y, by rwa [List.getElem?_append_left (by omega)], (if_neg hzero).trans hlen⟩
      · show (s.trailingEdgeCounter + 1).toNat = t + 1
        rw [UInt8.toNat_add, hcount]
        show (t + 1) % 256 = t + 1
        omega
    · have hfew := hin.inside.few
      have htwo : t = 2 := by omega
      obtain ⟨hover, hp⟩ := hin.inside.low_end hlow (by omega)
      obtain ⟨y, hy, hlen⟩ := hduration (by omega)
      have hfirst : (xs ++ [c])[xs.length - t]? = some y := by
        rwa [List.getElem?_append_left (by omega)]
      obtain ⟨m, hm, -, -⟩ := hin.inside.last
      rw [Detector.notInPulse_end hstart (hcount.trans htwo)]
      -- and its length decides whether it is an ack
      by_cases hok : c.minAckPulseDuration ≤ s.ackPulseDuration ∧
          (s.ackPulseDuration ≤ c.maxAckPulseDuration ∨ c.maxAckPulseDuration = 0)
      · right
        rw [if_pos hok]
        rw [hlen] at hok
        refine ⟨rfl, rfl, i, xs.length - t, x, y, c, hp, hlead, hfirst, ?_, hok⟩
        rw [show xs.length - t + 2 = xs.length by omega, List.getElem?_append_right (Nat.le_refl _),
          Nat.sub_self]
        rfl
      · left
        rw [if_neg hok]
        refine ⟨h.pending, h.undetected, fun hhas => ?_, .inl ⟨hover, rfl⟩⟩
        obtain ⟨i', j, x', y', hp', hnew, hx', hy', hlen'⟩ := hhas.new_pulse h.none
        obtain ⟨rfl, rfl, -, -⟩ := hin.inside.new_eq (by decide) hp' hnew
        obtain rfl : x = x' := Option.some.inj (hlead.symm.trans hx')
        obtain rfl : y = y' := Option.some.inj (hfirst.symm.trans hy')
        rw [hlen] at hok
        exact hok hlen'

/-- One call of `checkAck` before the time-out. -/
theorem watching_checkAck (h : Watching s xs) (hresets : ¬ 6 < c.sentResetsSincePacket)
    (hclock : c.micros ≠ 0) :
    Watching (s.checkAck c) (xs ++ [c]) ∨ Acked (s.checkAck c) (xs ++ [c]) := by
  have hsampled : Watching { s with
      numAckSamples := s.numAckSamples + 1
      ackMaxCurrent := if s.ackMaxCurrent < c.current then c.current else s.ackMaxCurrent } xs := by
    refine ⟨h.pending, h.undetected, h.none, h.phase.imp_right ?_⟩
    rintro ⟨i, t, hin⟩
    exact ⟨i, t, hin.inside, hin.start, hin.counter⟩
  rw [Detector.checkAck, if_neg (by rw [h.pending]; decide), if_neg hresets]
  dsimp only
  by_cases hhigh : c.ackThreshold < c.current
  · rw [if_pos hhigh]
    exact .inl (watching_inPulse hsampled hhigh hclock)
  · rw [if_neg hhigh]
    exact watching_notInPulse hsampled hhigh

/-- Nothing happens after the window. -/
theorem run_closed (h : s.ackPending = false) (calls : List AckCall) : run Detector.checkAck s calls = s := by
  induction calls with
  | nil => rfl
  | cons c calls ih => rwa [run_cons, Detector.checkAck, if_pos h]

theorem getAck_closed (h : s.ackPending = false) : s.getAck = if s.ackDetected then 1 else 0 := by
  rw [Detector.getAck, h]
  rfl

/-- The window from here on: it is still open, or it was closed by an acknowledgement or by the
time-out. -/
theorem run_watching (h : Watching s xs) (hclock : ∀ c ∈ calls, c.micros ≠ 0) :
    let r := (run Detector.checkAck s calls).getAck
    (r = 1 ∧ HasAck (xs ++ samples calls)) ∨
    (r = 0 ∧ ¬ HasAck (xs ++ samples calls) ∧ TimedOut calls) ∨
    (r = 2 ∧ ¬ HasAck (xs ++ samples calls) ∧ ¬ TimedOut calls) := by
  induction calls generalizing s xs with
  | nil =>
    right
    right
    refine ⟨by rw [run_nil, Detector.getAck, if_pos h.pending], by simpa [samples] using h.none, ?_⟩
    rintro ⟨c, hc, -⟩
    cases hc
  | cons c calls ih =>
    by_cases hresets : 6 < c.sentResetsSincePacket
    · right
      left
      have hnone : samples (c :: calls) = [] := by
        rw [samples, List.takeWhile_cons, if_neg (by simpa using hresets)]
      have hclosed : s.checkAck c =
          { s with ackCheckDuration := c.millis - s.ackCheckStart, ackPending := false } := by
        rw [Detector.checkAck, if_neg (by rw [h.pending]; decide), if_pos hresets]
      rw [run_cons, run_closed (by rw [hclosed]), hclosed, hnone, List.append_nil]
      refine ⟨?_, h.none, c, List.mem_cons_self, hresets⟩
      rw [getAck_closed rfl, if_neg (by rw [h.undetected]; decide)]
    · have hsamples : xs ++ samples (c :: calls) = xs ++ [c] ++ samples calls := by
        rw [samples, List.takeWhile_cons, if_pos (by simpa using hresets), List.append_assoc]
        rfl
      have htimed : TimedOut (c :: calls) ↔ TimedOut calls := by
        simp [TimedOut, hresets]
      rw [run_cons, hsamples, htimed]
      rcases watching_checkAck h hresets (hclock c List.mem_cons_self) with hw | hacked
      · exact ih hw fun c' hc' => hclock c' (List.mem_cons_of_mem _ hc')
      · left
        rw [run_closed hacked.closed, getAck_closed hacked.closed, if_pos hacked.detected]
        exact ⟨rfl, hacked.has.append _⟩

/-- **What a window tells.** Whatever the windows before have left behind, a window ends with an
acknowledgement if and only if there was a pulse of the right length before the time-out. It ends with
none if it timed out without, and is open otherwise. -/
theorem window_result (s : Detector) (start : UInt32) (calls : List AckCall)
    (hclock : ∀ c ∈ calls, c.micros ≠ 0) :
    let r := (run Detector.checkAck (s.setAckPending start) calls).getAck
    (r = 1 ↔ HasAck (samples calls)) ∧
    (r = 0 ↔ ¬ HasAck (samples calls) ∧ TimedOut calls) ∧
    (r = 2 ↔ ¬ HasAck (samples calls) ∧ ¬ TimedOut calls) ∧
    ∀ (s' : Detector) start', (run Detector.checkAck (s'.setAckPending start') calls).getAck = r := by
  intro r
  have hrun := fun (s : Detector) start => run_watching (watching_setAckPending s start) hclock
  have hthis := hrun s start
  refine ⟨?_, ?_, ?_, fun s' start' => ?_⟩
  · grind
  · grind
  · grind
  · have hother := hrun s' start'
    grind

/-- A window after one that left its counter at 2: a pulse of 6100 µs with a dip in it is accepted. The
limits are those of the source. -/
theorem window_result_dip :
    let s : Detector := ⟨false, false, 900, 5, 50, 300, 77, 1, 20, 2, 4⟩
    let call (current : Int) (micros : UInt32) : AckCall := ⟨3, current, micros, 20, 500, 2000, 20000⟩
    let calls := [call 100 1000, call 800 1100, call 100 3000, call 800 3100, call 90 7200, call 80 7300,
      call 95 7400]
    (run Detector.checkAck (s.setAckPending 9) calls).getAck = 1 ∧ HasAck (samples calls) := by
  intro s call calls
  have hacked : (run Detector.checkAck (s.setAckPending 9) calls).getAck = 1 := by decide
  exact ⟨hacked, (window_result s 9 calls (by decide)).1.mp hacked⟩

end DCCACK

end CommandStation
