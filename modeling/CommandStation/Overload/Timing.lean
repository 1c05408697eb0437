import CommandStation.Overload.Basic
import CommandStation.Lib.Run
import Mathlib.Algebra.Group.Nat.Defs

/-!
# The delays of the overload protection

The clock of the code is a 32 bit counter of microseconds. `WatchedTrack` adds to a track what the
counter stands for: the time of the last event, of the last check, of the last change of the power
and of the last bad sample. A stamp of the code stands for a time as long as not too much time
passes between two checks.
-/

namespace CommandStation

open CommandStation.Lib PowerDriver PowerTrack

/-- What happens to a track: it is checked, its power is switched by hand, or another track goes to
`OVERLOAD`. The times are not those of the code, they do not wrap. -/
inductive PowerEvent where
  | check (fault current : Bool) (now : Nat)
  | setPower (on : Bool) (now : Nat)
  | otherOverload (now : Nat)
  deriving DecidableEq, Repr

/-- A track, and what has happened to it. -/
structure WatchedTrack where
  track : PowerTrack
  time : Nat
  checked : Nat
  since : Nat
  lastBad : Option Nat
  retries : Nat

namespace WatchedTrack

variable {w : WatchedTrack} {s : PowerTrack} {e : PowerEvent} {es : List PowerEvent}
  {fault current : Bool} {now since checked : Nat} {stamp : UInt32} {mode : PowerMode}

/-- The mode the power is in. -/
def powerMode (w : WatchedTrack) : PowerMode := w.track.driver.powerMode

/-- A track that nothing has happened to yet. -/
def start (track : PowerTrack) (time : Nat) : WatchedTrack := ⟨track, time, time, time, none, 0⟩

/-- The track after the event. -/
def next (w : WatchedTrack) : PowerEvent → PowerTrack
  | .check fault current now => w.track.checkPowerOverload (.ofNat now) fault current
  | .setPower on now => w.track.setPower (.ofNat now) (if on then .on else .off)
  | .otherOverload now =>
    { w.track with statics := { w.track.statics with globalOverloadStart := .ofNat now } }

/-- A check takes a sample while the power is on. -/
def bad (w : WatchedTrack) (fault current : Bool) : Prop :=
  (w.powerMode = .on ∨ w.powerMode = .alert) ∧ (fault || current)

/-- The wait is reset: by a check that finds the track off, or by a clean check more than five
seconds after the last change to `ON`. -/
def resets (w : WatchedTrack) (fault current : Bool) (now : Nat) : Prop :=
  w.powerMode = .off ∨ w.powerMode = .on ∧ ¬ (fault || current) ∧ w.since + 5000000 < now

instance : Decidable (w.bad fault current) := inferInstanceAs (Decidable (_ ∧ _))

instance : Decidable (w.resets fault current now) := inferInstanceAs (Decidable (_ ∨ _))

/-- The time of the last change of the power, when an event at `now` leaves the track `r`. -/
def sinceAfter (w : WatchedTrack) (r : PowerTrack) (now : Nat) : Nat :=
  if r.driver.powerMode = w.powerMode then w.since else now

/-- The time of the last bad sample after a check. -/
def lastBadAfter (w : WatchedTrack) (fault current : Bool) (now : Nat) : Option Nat :=
  if w.bad fault current then some now else w.lastBad

/-- How often `OVERLOAD` has become `ALERT` since the wait was reset, after a check. -/
def retriesAfter (w : WatchedTrack) (fault current : Bool) (now : Nat) (r : PowerTrack) : Nat :=
  if w.resets fault current now then 0
  else if w.powerMode = .overload ∧ r.driver.powerMode = .alert then w.retries + 1
  else w.retries

/-- The track as a check leaves it, and what has happened. -/
def check (w : WatchedTrack) (fault current : Bool) (now : Nat) (r : PowerTrack) : WatchedTrack where
  track := r
  time := now
  checked := now
  since := w.sinceAfter r now
  lastBad := w.lastBadAfter fault current now
  retries := w.retriesAfter fault current now r

def step (w : WatchedTrack) (e : PowerEvent) : WatchedTrack :=
  match e with
  | .check fault current now => w.check fault current now (w.next e)
  | .setPower _ now => { w with track := w.next e, time := now, since := w.sinceAfter (w.next e) now }
  | .otherOverload now => { w with track := w.next e, time := now }

/-- The clock does not go back, and less than 2^31 microseconds pass between two checks. -/
def Paced (w : WatchedTrack) : PowerEvent → Prop
  | .check _ _ now => w.time ≤ now ∧ now < w.checked + 2 ^ 31
  | .setPower _ now | .otherOverload now => w.time ≤ now

instance : DecidablePred fun e => Paced w e := fun e => by
  cases e <;> unfold Paced <;> infer_instance

/-- A check that changes the power from `before` to `after` keeps the documented delays. -/
structure Protects (w : WatchedTrack) (fault current : Bool) (now : Nat) (before after : PowerMode) :
    Prop where
  transition : before = after ∨ (before, after) ∈
    [(PowerMode.on, PowerMode.alert), (.alert, .overload), (.alert, .on), (.overload, .alert)]
  overload : before = .alert → after = .overload → (fault || current) = true ∧
    w.since + (if fault && current then 5000 else 100000) ≤ now
  normal : before = .alert → after = .on → (fault || current) = false ∧ w.since + 20000 < now ∧
    ∀ t ∈ w.lastBad, t + 20000 < now
  restore : before = .overload → after = .alert →
    w.since + w.track.driver.powerSampleOverloadWait.toNat < now

/-- What is required of an event: a check keeps the delays. -/
def Right (w : WatchedTrack) : PowerEvent → Prop
  | .check fault current now =>
    w.Protects fault current now w.powerMode
      (w.next (.check fault current now)).driver.powerMode
  | .setPower .. | .otherOverload .. => True

/-! ## Stamps -/

/-- The stamp stands for a time, which is `since` unless the stamp has been moved because that was
long ago. -/
def Stamp (stamp : UInt32) (since checked : Nat) : Prop :=
  ∃ t, stamp = .ofNat t ∧ since ≤ t ∧ checked ≤ t + 2 ^ 28 ∧ (t = since ∨ t + 30000000 ≤ checked)

theorem toNat_sub_ofNat {t : Nat} (hle : t ≤ now) (hlt : now < t + 2 ^ 32) :
    (UInt32.ofNat now - UInt32.ofNat t).toNat = now - t := by
  rw [UInt32.toNat_sub, UInt32.toNat_ofNat', UInt32.toNat_ofNat']
  omega

theorem Stamp.fresh (h : checked ≤ now) : Stamp (.ofNat now) now checked :=
  ⟨now, rfl, Nat.le_refl _, by omega, .inl rfl⟩

/-- What is read off a stamp is the time that has passed, or both are at least 30 seconds. -/
theorem Stamp.elapsed (now : Nat) (h : Stamp stamp since checked) (hsince : since ≤ now)
    (hchecked : checked ≤ now) (hpace : now < checked + 2 ^ 31) :
    (UInt32.ofNat now - stamp).toNat = now - since ∨
      30000000 ≤ (UInt32.ofNat now - stamp).toNat ∧ (UInt32.ofNat now - stamp).toNat ≤ now - since := by
  obtain ⟨t, rfl, hle, hold, heq⟩ := h
  rw [toNat_sub_ofNat (by omega) (by omega)]
  omega

theorem ofNat_sub_const (h : 30000000 ≤ now) :
    UInt32.ofNat now - 30000000 = UInt32.ofNat (now - 30000000) := by
  apply UInt32.toNat_inj.mp
  rw [UInt32.toNat_sub, UInt32.toNat_ofNat', UInt32.toNat_ofNat']
  simp
  omega

/-- Reading a stamp may move it. -/
theorem Stamp.microsSince (h : Stamp (s.driver.lastPowerChange mode) since checked)
    (hsince : since ≤ now) (hchecked : checked ≤ now) (hpace : now < checked + 2 ^ 31) :
    ∃ s', s.microsSinceLastPowerChange (.ofNat now) mode =
        (.ofNat now - s.driver.lastPowerChange mode, s') ∧
      s' = { s with driver := { s.driver with lastPowerChange := s'.driver.lastPowerChange } } ∧
      Stamp (s'.driver.lastPowerChange mode) since now := by
  obtain ⟨t, hstamp, hle, hold, heq⟩ := h
  have hdiff : (UInt32.ofNat now - UInt32.ofNat t).toNat = now - t :=
    toNat_sub_ofNat (by omega) (by omega)
  have hlong : UInt32.ofNat now - UInt32.ofNat t > (1 : UInt32) <<< 28 ↔ 2 ^ 28 < now - t := by
    show (1 : UInt32) <<< 28 < UInt32.ofNat now - UInt32.ofNat t ↔ _
    rw [UInt32.lt_iff_toNat_lt, hdiff]
    exact Iff.rfl
  unfold microsSinceLastPowerChange
  simp only [hstamp, hlong]
  by_cases hmove : 2 ^ 28 < now - t
  · refine ⟨_, if_pos hmove, rfl, now - 30000000, ?_, by omega, by omega, by omega⟩
    exact (Function.update_self ..).trans (ofNat_sub_const (by omega))
  · exact ⟨_, if_neg hmove, rfl, t, hstamp, hle, by omega, by omega⟩

/-! ## What is kept -/

/-- What holds of a watched track between two events. -/
structure Kept (w : WatchedTrack) : Prop where
  since : w.since ≤ w.time
  checked : w.checked ≤ w.time
  lastBad : ∀ t ∈ w.lastBad, t ≤ w.checked
  stamp : w.powerMode ≠ .off → ¬ (w.powerMode = .overload ∧ w.track.driver.commonFaultPin) →
    Stamp (w.track.driver.lastPowerChange w.powerMode) w.since w.checked
  -- in `ALERT`, either no check has been made or the stamp of the last bad sample is fresh
  alert : w.powerMode = .alert → w.track.driver.lastPowerMode ≠ .alert ∨
    ∃ t, w.track.driver.lastBadSample = .ofNat t ∧ w.since ≤ t ∧ t ≤ w.checked ∧
      w.checked ≤ t + 20000 ∧ ∀ t' ∈ w.lastBad, t' ≤ t
  overload : w.powerMode = .overload → w.track.driver.commonFaultPin → ∃ t,
    w.track.statics.globalOverloadStart = .ofNat t ∧ w.since ≤ t ∧ t ≤ w.time ∧
      w.checked ≤ t + 10000000
  wait : w.track.driver.powerSampleOverloadWait.toNat = min 10000000 (40000 * 2 ^ w.retries)

theorem kept_start {track : PowerTrack} (h : track.driver.New) (time : Nat) :
    (start track time).Kept := by
  have hoff : (start track time).powerMode = .off := h.powerMode
  refine ⟨Nat.le_refl _, Nat.le_refl _, nofun, fun hne => absurd hoff hne, ?_, ?_, ?_⟩
  · simp [hoff]
  · simp [hoff]
  · show track.driver.powerSampleOverloadWait.toNat = _
    rw [h.wait]
    rfl

/-! ## A check of a track in `ALERT` -/

/-- How long a bad sample is ignored. -/
def timeout (fault current : Bool) : Nat := if fault && current then 5000 else 100000

/-- The stamp of the last bad sample, as a check in `ALERT` finds or sets it. -/
def lastBadStamp (s : PowerTrack) (now : Nat) : UInt32 :=
  if s.driver.lastPowerMode = .alert then s.driver.lastBadSample else .ofNat now

/-- What a check in `ALERT` may leave. -/
inductive Alerted (s : PowerTrack) (since now : Nat) (fault current : Bool) (s' : PowerTrack) :
    Prop where
  | ignored : (fault || current) = true → s'.driver.powerMode = .alert →
    s'.driver.lastBadSample = .ofNat now → Stamp (s'.driver.lastPowerChange .alert) since now →
    Alerted s since now fault current s'
  | overload : (fault || current) = true →
    timeout fault current ≤ (UInt32.ofNat now - s.driver.lastPowerChange .alert).toNat →
    s'.driver.powerMode = .overload → s'.driver.lastPowerChange .overload = .ofNat now →
    s'.statics.globalOverloadStart = .ofNat now → Alerted s since now fault current s'
  | normal : (fault || current) = false → 20000 < (UInt32.ofNat now - lastBadStamp s now).toNat →
    s'.driver.powerMode = .on → s'.driver.lastPowerChange .on = .ofNat now →
    Alerted s since now fault current s'
  | good : (fault || current) = false → (UInt32.ofNat now - lastBadStamp s now).toNat ≤ 20000 →
    s'.driver.powerMode = .alert → s'.driver.lastBadSample = lastBadStamp s now →
    Stamp (s'.driver.lastPowerChange .alert) since now → Alerted s since now fault current s'

/-- What a check in `ALERT` finds: the track is overloaded, is switched to `ON`, or stays. -/
theorem checkAlert_cases (fault current : Bool) (halert : s.driver.powerMode = .alert)
    (h : Stamp (s.driver.lastPowerChange .alert) since checked) (hsince : since ≤ now)
    (hchecked : checked ≤ now) (hpace : now < checked + 2 ^ 31) :
    Alerted s since now fault current (s.checkAlert (.ofNat now) fault current) := by
  let s₀ : PowerTrack := { s with driver := { s.driver with
    lastBadSample := lastBadStamp s now
    lastPowerMode := .alert } }
  -- the difference of the stamps is the true one while the checks keep their pace
  obtain ⟨s₁, hmicros, heq, hstamp⟩ := Stamp.microsSince (s := s₀) h hsince hchecked hpace
  have hlast : (if s.driver.powerMode ≠ s.driver.lastPowerMode then UInt32.ofNat now
      else s.driver.lastBadSample) = lastBadStamp s now := by
    rw [halert, lastBadStamp]
    grind
  have hmode : s₁.driver.powerMode = .alert := by rw [heq]; exact halert
  have hlast₁ : s₁.driver.lastBadSample = lastBadStamp s now := by rw [heq]
  unfold checkAlert
  simp only [hlast]
  rw [hmicros]
  dsimp only
  have hdiff : s₀.driver.lastPowerChange = s.driver.lastPowerChange := rfl
  rw [hdiff]
  clear_value s₀
  -- by the fault pin and the current, in the order in which `checkPowerOverload` asks
  cases fault with
  | true =>
    simp only [if_true]
    by_cases hlong : UInt32.ofNat now - s.driver.lastPowerChange .alert <
        if current then ignoreFaultHigh else ignoreFaultLow
    · rw [if_pos hlong]
      exact .ignored rfl (by simpa using hmode) rfl (by simpa using hstamp)
    · rw [if_neg hlong]
      refine .overload rfl ?_ (by simp) ?_ ?_
      · refine Nat.le_trans ?_ (Nat.not_lt.mp fun h => hlong (UInt32.lt_iff_toNat_lt.mpr h))
        cases current <;> decide
      · exact setPower_lastPowerChange (by simp [hmode])
      · exact setPower_globalOverloadStart (by simp [hmode])
  | false =>
    simp only [Bool.false_eq_true, if_false]
    cases current with
    | true =>
      simp only [if_true]
      by_cases hlong : UInt32.ofNat now - s.driver.lastPowerChange .alert < ignoreCurrent
      · rw [if_pos hlong]
        exact .ignored rfl hmode rfl hstamp
      · rw [if_neg hlong]
        refine .overload rfl ?_ (by simp) ?_ ?_
        · exact Nat.not_lt.mp fun h => hlong (UInt32.lt_iff_toNat_lt.mpr h)
        · exact setPower_lastPowerChange (by simp [hmode])
        · exact setPower_globalOverloadStart (by simp [hmode])
    | false =>
      simp only [Bool.false_eq_true, if_false]
      rw [hlast₁]
      by_cases hgood : UInt32.ofNat now - lastBadStamp s now > alertGood
      · rw [if_pos hgood]
        refine .normal rfl ?_ (by simp) ?_
        · exact UInt32.lt_iff_toNat_lt.mp hgood
        · exact setPower_lastPowerChange (by simp [hmode])
      · rw [if_neg hgood]
        have hshort := Nat.not_lt.mp fun h => hgood (UInt32.lt_iff_toNat_lt.mpr h)
        split
        · exact .good rfl hshort (by simpa using hmode) (by simpa using hlast₁) (by simpa using hstamp)
        · exact .good rfl hshort hmode hlast₁ hstamp

/-- Reading a stamp changes nothing else. -/
theorem microsSince_same (mode : PowerMode) (now : UInt32) : (s.microsSinceLastPowerChange now mode).2 =
    { s with driver := { s.driver with
      lastPowerChange := (s.microsSinceLastPowerChange now mode).2.driver.lastPowerChange } } := by
  unfold microsSinceLastPowerChange
  dsimp only
  split <;> rfl

/-- A check in `ALERT` remembers the mode, and leaves the fault pin and the waiting time alone. -/
theorem checkAlert_same (s : PowerTrack) (now : UInt32) (fault current : Bool) :
    (s.checkAlert now fault current).driver.lastPowerMode = .alert ∧
    (s.checkAlert now fault current).driver.commonFaultPin = s.driver.commonFaultPin ∧
    (s.checkAlert now fault current).driver.powerSampleOverloadWait =
      s.driver.powerSampleOverloadWait := by
  unfold checkAlert
  simp only
  have hsame := microsSince_same .alert now (s := { s with driver := { s.driver with
    lastBadSample := if s.driver.powerMode ≠ s.driver.lastPowerMode then now
      else s.driver.lastBadSample
    lastPowerMode := .alert } })
  generalize microsSinceLastPowerChange now .alert _ = read at hsame ⊢
  obtain ⟨mslpc, s₁⟩ := read
  change s₁ = _ at hsame
  have hmode : s₁.driver.lastPowerMode = .alert := by rw [hsame]
  have hpin : s₁.driver.commonFaultPin = s.driver.commonFaultPin := by rw [hsame]
  have hwait : s₁.driver.powerSampleOverloadWait = s.driver.powerSampleOverloadWait := by
    rw [hsame]
  clear hsame
  cases fault <;> cases current <;> simp only [if_true, if_false, Bool.false_eq_true]
  all_goals repeat' split
  all_goals simp [hmode, hpin, hwait]

/-! ## One event -/

variable {r : PowerTrack}

/-- A check that leaves `r` keeps the delays and the invariant. -/
def Checks (w : WatchedTrack) (fault current : Bool) (now : Nat) (r : PowerTrack) : Prop :=
  w.Protects fault current now w.powerMode r.driver.powerMode ∧ (w.check fault current now r).Kept

/-- The power is not changed. -/
theorem Protects.same (h : r.driver.powerMode = w.powerMode) :
    w.Protects fault current now w.powerMode r.driver.powerMode := by
  rw [h]
  refine ⟨.inl rfl, ?_, ?_, ?_⟩ <;> intro hbefore hafter <;> simp [hbefore] at hafter

theorem sinceAfter_same (h : r.driver.powerMode = w.powerMode) : w.sinceAfter r now = w.since :=
  if_pos h

theorem sinceAfter_of_ne (h : r.driver.powerMode ≠ w.powerMode) : w.sinceAfter r now = now :=
  if_neg h

theorem Kept.lastBadAfter (h : w.Kept) (hpace : w.Paced (.check fault current now)) :
    ∀ t ∈ w.lastBadAfter fault current now, t ≤ now := by
  intro t ht
  unfold WatchedTrack.lastBadAfter at ht
  split at ht
  · cases ht
    exact Nat.le_refl _
  · have := h.lastBad t ht
    have := h.checked
    have := hpace.1
    omega

/-- The number of retries and the wait do not change. -/
theorem Kept.wait_same (h : w.Kept) (hreset : ¬ w.resets fault current now)
    (hretry : ¬ (w.powerMode = .overload ∧ r.driver.powerMode = .alert))
    (hwait : r.driver.powerSampleOverloadWait = w.track.driver.powerSampleOverloadWait) :
    r.driver.powerSampleOverloadWait.toNat =
      min 10000000 (40000 * 2 ^ w.retriesAfter fault current now r) := by
  rw [retriesAfter, if_neg hreset, if_neg hretry, hwait]
  exact h.wait

/-- A check that changes the power. -/
theorem Kept.changed (h : w.Kept) (hpace : w.Paced (.check fault current now))
    (hne : r.driver.powerMode ≠ w.powerMode)
    (hstamp : r.driver.lastPowerChange r.driver.powerMode = .ofNat now)
    (halert : r.driver.powerMode = .alert → r.driver.lastPowerMode ≠ .alert)
    (hover : r.driver.powerMode = .overload → r.statics.globalOverloadStart = .ofNat now)
    (hwait : r.driver.powerSampleOverloadWait.toNat =
      min 10000000 (40000 * 2 ^ w.retriesAfter fault current now r)) :
    (w.check fault current now r).Kept := by
  have hsince : (w.check fault current now r).since = now := sinceAfter_of_ne hne
  refine ⟨Nat.le_of_eq hsince, Nat.le_refl _, h.lastBadAfter hpace, ?_, fun hr => .inl (halert hr), ?_, hwait⟩
  · intro _ _
    rw [hsince]
    show Stamp (r.driver.lastPowerChange r.driver.powerMode) now now
    rw [hstamp]
    exact Stamp.fresh (Nat.le_refl _)
  · intro hr _
    exact ⟨now, hover hr, Nat.le_of_eq hsince, Nat.le_refl _, Nat.le_add_right ..⟩

/-- A check that does not change the power. -/
theorem Kept.unchanged (h : w.Kept) (hpace : w.Paced (.check fault current now))
    (hsame : r.driver.powerMode = w.powerMode)
    (hstamp : w.powerMode ≠ .off → ¬ (w.powerMode = .overload ∧ r.driver.commonFaultPin) →
      Stamp (r.driver.lastPowerChange w.powerMode) w.since now)
    (halert : w.powerMode = .alert → ∃ t, r.driver.lastBadSample = .ofNat t ∧ w.since ≤ t ∧
      t ≤ now ∧ now ≤ t + 20000 ∧ ∀ t' ∈ w.lastBadAfter fault current now, t' ≤ t)
    (hover : w.powerMode = .overload → r.driver.commonFaultPin → ∃ t,
      r.statics.globalOverloadStart = .ofNat t ∧ w.since ≤ t ∧ t ≤ now ∧ now ≤ t + 10000000)
    (hwait : r.driver.powerSampleOverloadWait.toNat =
      min 10000000 (40000 * 2 ^ w.retriesAfter fault current now r)) :
    w.Checks fault current now r := by
  have hsince : (w.check fault current now r).since = w.since := sinceAfter_same hsame
  have hmode : (w.check fault current now r).powerMode = w.powerMode := hsame
  refine ⟨Protects.same hsame, ?_, Nat.le_refl _, h.lastBadAfter hpace, ?_, ?_, ?_, hwait⟩
  · have := h.since
    have := hpace.1
    show (w.check fault current now r).since ≤ now
    omega
  · rw [hmode, hsince]
    exact hstamp
  · rw [hmode, hsince]
    exact fun hr => .inr (halert hr)
  · rw [hmode, hsince]
    exact hover

theorem Kept.checkOff (h : w.Kept) (hpace : w.Paced (.check fault current now))
    (hmode : w.powerMode = .off) : w.Checks fault current now w.track.checkOff := by
  refine h.unchanged hpace rfl (fun hne => absurd hmode hne) ?_ ?_ ?_
  · exact fun halert => absurd (hmode.symm.trans halert) nofun
  · exact fun hover => absurd (hmode.symm.trans hover) nofun
  · rw [retriesAfter, if_pos (.inl hmode)]
    rfl

/-- A clean check of a track that is `ON`. -/
theorem Kept.clean (h : w.Kept) (hpace : w.Paced (.check fault current now))
    (hmode : w.powerMode = .on) (hafter : r.driver.powerMode = .on)
    (hstamp : Stamp (r.driver.lastPowerChange .on) w.since now)
    (hwait : r.driver.powerSampleOverloadWait.toNat =
      min 10000000 (40000 * 2 ^ w.retriesAfter fault current now r)) :
    w.Checks fault current now r := by
  refine h.unchanged hpace (hafter.trans hmode.symm) ?_ ?_ ?_ hwait
  · rw [hmode]
    exact fun _ _ => hstamp
  · exact fun halert => absurd (hmode.symm.trans halert) nofun
  · exact fun hover => absurd (hmode.symm.trans hover) nofun

/-- A check of a track that is `ON` keeps the delays and the invariant. -/
theorem Kept.checkOn (h : w.Kept) (hpace : w.Paced (.check fault current now))
    (hmode : w.powerMode = .on) :
    w.Checks fault current now (w.track.checkOn (.ofNat now) fault current) := by
  have hsince := h.since
  have hchecked := h.checked
  have htime := hpace.1
  let s₀ : PowerTrack := { w.track with driver := { w.track.driver with lastPowerMode := .on } }
  have hmode₀ : s₀.driver.powerMode = .on := hmode
  unfold PowerTrack.checkOn
  by_cases hbad : (fault || current) = true
  · simp only [hbad, if_true]
    show w.Checks fault current now (s₀.setPower (.ofNat now) .alert)
    have hafter : (s₀.setPower (.ofNat now) .alert).driver.powerMode = .alert := setPower_powerMode
    refine ⟨?_, h.changed hpace ?_ ?_ ?_ ?_ ?_⟩
    · rw [hmode, hafter]
      exact ⟨.inr (by simp), nofun, nofun, nofun⟩
    · rw [hmode, hafter]
      exact nofun
    · rw [hafter]
      exact setPower_lastPowerChange (by simp [hmode₀])
    · intro _
      rw [setPower_lastPowerMode]
      exact nofun
    · rw [hafter]
      exact nofun
    · refine h.wait_same ?_ (by simp [hmode]) setPower_wait
      simp [resets, hmode, hbad]
  · have hclean : (fault || current) = false := by simpa using hbad
    simp only [hclean, Bool.false_eq_true, if_false]
    have hstamp := h.stamp (by simp [hmode]) (by simp [hmode])
    rw [hmode] at hstamp
    obtain ⟨s₁, hmicros, heq, hstamp₁⟩ := Stamp.microsSince (s := s₀) hstamp (by omega)
      (show w.checked ≤ now by omega) hpace.2
    have helapsed := hstamp.elapsed now (by omega) (by omega) hpace.2
    rw [hmicros]
    have hlong : UInt32.ofNat now - s₀.driver.lastPowerChange .on > allGood ↔
        w.since + 5000000 < now := by
      show allGood < UInt32.ofNat now - w.track.driver.lastPowerChange .on ↔ _
      rw [UInt32.lt_iff_toNat_lt, show allGood.toNat = 5000000 from rfl]
      omega
    simp only [hlong]
    have hmode₁ : s₁.driver.powerMode = .on := by rw [heq]; exact hmode
    by_cases hreset : w.since + 5000000 < now
    · rw [if_pos hreset]
      refine h.clean hpace hmode hmode₁ hstamp₁ ?_
      rw [retriesAfter, if_pos (.inr ⟨hmode, by simp [hclean], hreset⟩)]
      rfl
    · rw [if_neg hreset]
      refine h.clean hpace hmode hmode₁ hstamp₁ (h.wait_same ?_ (by simp [hmode]) ?_)
      · simp [resets, hmode, hreset]
      · rw [heq]

/-- What the stamp of the last bad sample stands for. -/
theorem Kept.lastBadStamp (h : w.Kept) (hpace : w.Paced (.check fault current now))
    (hmode : w.powerMode = .alert) : ∃ t, lastBadStamp w.track now = .ofNat t ∧ w.since ≤ t ∧
      t ≤ now ∧ now < t + 2 ^ 32 ∧ ∀ t' ∈ w.lastBad, t' ≤ t := by
  have hsince := h.since
  have hchecked := h.checked
  have htime := hpace.1
  have hpace' := hpace.2
  by_cases hlast : w.track.driver.lastPowerMode = .alert
  · obtain ⟨t, hsample, hle, hin, hfresh, hbad⟩ := (h.alert hmode).resolve_left (not_not.mpr hlast)
    refine ⟨t, ?_, hle, by omega, by omega, hbad⟩
    rw [WatchedTrack.lastBadStamp, if_pos hlast, hsample]
  · refine ⟨now, if_neg hlast, by omega, Nat.le_refl _, by omega, ?_⟩
    intro t' ht'
    have := h.lastBad t' ht'
    omega

/-- So does a check in `ALERT`. -/
theorem Kept.checkAlert (h : w.Kept) (hpace : w.Paced (.check fault current now))
    (hmode : w.powerMode = .alert) :
    w.Checks fault current now (w.track.checkAlert (.ofNat now) fault current) := by
  have hsince := h.since
  have hchecked := h.checked
  have htime := hpace.1
  have hpace' := hpace.2
  have hstamp := h.stamp (by simp [hmode]) (by simp [hmode])
  rw [hmode] at hstamp
  have hcases := checkAlert_cases fault current hmode hstamp
    (by omega) (by omega) hpace'
  have helapsed := hstamp.elapsed now (by omega) (by omega) hpace'
  have hwait := (checkAlert_same w.track (.ofNat now) fault current).2.2
  generalize w.track.checkAlert (.ofNat now) fault current = r at *
  obtain ⟨t, ht, hle, hin, hfresh, hlastBad⟩ := h.lastBadStamp hpace hmode
  have hgoodtime := toNat_sub_ofNat hin hfresh
  have hwait' : r.driver.powerSampleOverloadWait.toNat =
      min 10000000 (40000 * 2 ^ w.retriesAfter fault current now r) :=
    h.wait_same (by simp [resets, hmode]) (by simp [hmode]) hwait
  have hnotOver : ¬ w.powerMode = .overload := by simp [hmode]
  cases hcases with
  | ignored hbad hafter hsample hstamp' =>
    refine h.unchanged hpace (hafter.trans hmode.symm) ?_ ?_ (fun hr => absurd hr hnotOver) hwait'
    · rw [hmode]
      exact fun _ _ => hstamp'
    · intro _
      exact ⟨now, hsample, by omega, Nat.le_refl _, Nat.le_add_right .., h.lastBadAfter hpace⟩
  | overload hbad hlong hafter hstamp' hglobal =>
    refine ⟨?_, h.changed hpace (by simp [hafter, hmode]) (by rw [hafter, hstamp'])
      (by simp [hafter]) (fun _ => hglobal) hwait'⟩
    rw [hmode, hafter]
    refine ⟨.inr (by simp), fun _ _ => ⟨hbad, ?_⟩, nofun, nofun⟩
    show w.since + timeout fault current ≤ now
    omega
  | normal hgood hlong hafter hstamp' =>
    rw [ht, hgoodtime] at hlong
    refine ⟨?_, h.changed hpace (by simp [hafter, hmode]) (by rw [hafter, hstamp'])
      (by simp [hafter]) (by simp [hafter]) hwait'⟩
    rw [hmode, hafter]
    refine ⟨.inr (by simp), nofun, fun _ _ => ⟨hgood, by omega, ?_⟩, nofun⟩
    intro t' ht'
    have := hlastBad t' ht'
    omega
  | good hgood hshort hafter hsample hstamp' =>
    rw [ht, hgoodtime] at hshort
    refine h.unchanged hpace (hafter.trans hmode.symm) ?_ ?_ (fun hr => absurd hr hnotOver) hwait'
    · rw [hmode]
      exact fun _ _ => hstamp'
    · intro _
      refine ⟨t, hsample.trans ht, hle, hin, by omega, ?_⟩
      simpa [WatchedTrack.lastBadAfter, bad, hgood] using hlastBad

/-- The wait is doubled, up to its limit. -/
theorem toNat_doubled {wait : UInt32} {k : Nat} (h : wait.toNat = min 10000000 (40000 * 2 ^ k)) :
    (if wait * 2 > retryMax then retryMax else wait * 2).toNat =
      min 10000000 (40000 * 2 ^ (k + 1)) := by
  have hmax : retryMax.toNat = 10000000 := rfl
  have hdouble : (wait * 2).toNat = 2 * wait.toNat := by
    rw [UInt32.toNat_mul, show (2 : UInt32).toNat = 2 from rfl]
    omega
  have hgt : wait * 2 > retryMax ↔ 10000000 < 2 * wait.toNat := by
    show retryMax < wait * 2 ↔ _
    rw [UInt32.lt_iff_toNat_lt, hdouble, hmax]
  rw [Nat.pow_succ]
  by_cases hlong : 10000000 < 2 * wait.toNat
  · rw [if_pos (hgt.mpr hlong), hmax]
    omega
  · rw [if_neg fun hw => hlong (hgt.mp hw), hdouble]
    omega

/-- The end of a check in `OVERLOAD`, when `since` or a later time has been read off the clock. -/
theorem Kept.restore (h : w.Kept) (hpace : w.Paced (.check fault current now))
    (hmode : w.powerMode = .overload) (hmode₁ : s.driver.powerMode = .overload)
    (hlast : s.driver.lastPowerMode = .overload)
    (hwait : s.driver.powerSampleOverloadWait = w.track.driver.powerSampleOverloadWait)
    {mslpc : UInt32} (hlong : mslpc > s.driver.powerSampleOverloadWait)
    (helapsed : mslpc.toNat ≤ now - w.since) :
    w.Checks fault current now (PowerTrack.setPower (.ofNat now) .alert { s with
      driver := { s.driver with powerSampleOverloadWait :=
        if s.driver.powerSampleOverloadWait * 2 > retryMax then retryMax
        else s.driver.powerSampleOverloadWait * 2 } }) := by
  set s₁ : PowerTrack := { s with driver := { s.driver with powerSampleOverloadWait :=
    if s.driver.powerSampleOverloadWait * 2 > retryMax then retryMax
    else s.driver.powerSampleOverloadWait * 2 } }
  have hafter : (s₁.setPower (.ofNat now) .alert).driver.powerMode = .alert := setPower_powerMode
  refine ⟨?_, h.changed hpace ?_ ?_ ?_ ?_ ?_⟩
  · rw [hmode, hafter]
    refine ⟨.inr (by simp), nofun, nofun, fun _ _ => ?_⟩
    have hlt := UInt32.lt_iff_toNat_lt.mp hlong
    rw [hwait] at hlt
    omega
  · rw [hmode, hafter]
    exact nofun
  · rw [hafter]
    exact setPower_lastPowerChange (by rw [show s₁.driver.powerMode = .overload from hmode₁]; exact nofun)
  · intro _
    rw [setPower_lastPowerMode, show s₁.driver.lastPowerMode = .overload from hlast]
    exact nofun
  · rw [hafter]
    exact nofun
  · rw [setPower_wait, retriesAfter, if_neg (by simp [resets, hmode]), if_pos ⟨hmode, hafter⟩]
    exact toNat_doubled (by rw [hwait]; exact h.wait)

/-- So does a check in `OVERLOAD`. -/
theorem Kept.checkOverload (h : w.Kept) (hpace : w.Paced (.check fault current now))
    (hmode : w.powerMode = .overload) :
    w.Checks fault current now (w.track.checkOverload (.ofNat now)) := by
  have hsince := h.since
  have hchecked := h.checked
  have htime := hpace.1
  have hpace' := hpace.2
  let s₀ : PowerTrack := { w.track with driver := { w.track.driver with lastPowerMode := .overload } }
  have hmode₀ : s₀.driver.powerMode = .overload := hmode
  have hmax : w.track.driver.powerSampleOverloadWait.toNat ≤ 10000000 := by
    rw [h.wait]
    exact Nat.min_le_left ..
  unfold PowerTrack.checkOverload
  dsimp only
  -- with a common fault pin all tracks wait from the same moment on
  by_cases hpin : w.track.driver.commonFaultPin = true
  · obtain ⟨t, hglobal, hle, hin, hfresh⟩ := h.overload hmode hpin
    have helapsed : (UInt32.ofNat now - UInt32.ofNat t).toNat = now - t :=
      toNat_sub_ofNat (by omega) (by omega)
    rw [if_pos hpin, hglobal]
    by_cases hlong : UInt32.ofNat now - UInt32.ofNat t > w.track.driver.powerSampleOverloadWait
    · rw [if_pos hlong]
      exact h.restore (s := s₀) hpace hmode hmode rfl rfl hlong (by omega)
    · rw [if_neg hlong]
      have hshort := Nat.not_lt.mp fun h => hlong (UInt32.lt_iff_toNat_lt.mpr h)
      refine h.unchanged (r := s₀) hpace rfl ?_ ?_ ?_ ?_
      · exact fun _ hnot => absurd ⟨hmode, hpin⟩ hnot
      · exact fun halert => absurd (hmode.symm.trans halert) nofun
      · exact fun _ _ => ⟨t, hglobal, hle, by omega, by omega⟩
      · exact h.wait_same (by simp [resets, hmode]) (by simp [hmode₀]) rfl
  · -- otherwise each track waits from its own
    have hstamp := h.stamp (by simp [hmode]) fun hover => hpin hover.2
    rw [hmode] at hstamp
    obtain ⟨s₁, hmicros, heq, hstamp₁⟩ := Stamp.microsSince (s := s₀) hstamp (by omega)
      (show w.checked ≤ now by omega) hpace'
    have helapsed := hstamp.elapsed now (by omega) (by omega) hpace'
    rw [if_neg hpin]
    rw [show microsSinceLastPowerChange (.ofNat now) .overload _ = _ from hmicros]
    have hmode₁ : s₁.driver.powerMode = .overload := by rw [heq]; exact hmode
    have hwait₁ : s₁.driver.powerSampleOverloadWait = w.track.driver.powerSampleOverloadWait := by
      rw [heq]
    dsimp only
    split
    · next hlong =>
      refine h.restore hpace hmode hmode₁ (by rw [heq]) hwait₁ hlong ?_
      show (UInt32.ofNat now - w.track.driver.lastPowerChange .overload).toNat ≤ _
      omega
    · refine h.unchanged hpace (hmode₁.trans hmode.symm) ?_ ?_ ?_ ?_
      · rw [hmode]
        exact fun _ _ => hstamp₁
      · exact fun halert => absurd (hmode.symm.trans halert) nofun
      · exact fun _ hpin₁ => absurd (by rw [heq] at hpin₁; exact hpin₁) hpin
      · exact h.wait_same (by simp [resets, hmode]) (by simp [hmode₁]) hwait₁

theorem Kept.check (h : w.Kept) (hpace : w.Paced (.check fault current now)) :
    w.Checks fault current now (w.next (.check fault current now)) := by
  show w.Checks fault current now (w.track.checkPowerOverload (.ofNat now) fault current)
  unfold checkPowerOverload
  split
  · next hmode => exact h.checkOff hpace hmode
  · next hmode => exact h.checkOn hpace hmode
  · next hmode => exact h.checkAlert hpace hmode
  · next hmode => exact h.checkOverload hpace hmode

/-- Time passes. -/
theorem Kept.later (h : w.Kept) (htime : w.time ≤ now) : ({ w with time := now } : WatchedTrack).Kept := by
  refine ⟨Nat.le_trans h.since htime, Nat.le_trans h.checked htime, h.lastBad, h.stamp, h.alert, ?_,
    h.wait⟩
  intro hover hpin
  obtain ⟨t, hglobal, hle, hin, hfresh⟩ := h.overload hover hpin
  exact ⟨t, hglobal, hle, Nat.le_trans hin htime, hfresh⟩

/-- The power is switched by hand. -/
theorem Kept.setPower (h : w.Kept) {on : Bool} (hpace : w.Paced (.setPower on now)) :
    (w.step (.setPower on now)).Kept := by
  have hchecked := h.checked
  have htime : w.time ≤ now := hpace
  by_cases hsame : w.powerMode = if on then .on else .off
  · have hnext : w.next (.setPower on now) = w.track := setPower_self hsame
    have hstep : w.step (.setPower on now) = { w with time := now } := by
      simp only [step, hnext, sinceAfter_same (show w.track.driver.powerMode = w.powerMode from rfl)]
    rw [hstep]
    exact h.later htime
  · have hafter : (w.next (.setPower on now)).driver.powerMode = if on then .on else .off :=
      setPower_powerMode
    have hsince : (w.step (.setPower on now)).since = now :=
      sinceAfter_of_ne (by rw [hafter]; exact Ne.symm hsame)
    have hmode : (w.step (.setPower on now)).powerMode = if on then .on else .off := hafter
    refine ⟨Nat.le_of_eq hsince, Nat.le_trans hchecked htime, h.lastBad, ?_, ?_, ?_, ?_⟩
    · intro _ _
      rw [hsince, hmode]
      show Stamp ((w.next (.setPower on now)).driver.lastPowerChange (if on then .on else .off)) now
        w.checked
      rw [show (w.next (.setPower on now)).driver.lastPowerChange (if on then .on else .off) =
        .ofNat now from setPower_lastPowerChange hsame]
      exact Stamp.fresh (Nat.le_trans hchecked htime)
    · rw [hmode]
      cases on <;> exact nofun
    · rw [hmode]
      cases on <;> exact nofun
    · show (w.next (.setPower on now)).driver.powerSampleOverloadWait.toNat = _
      rw [show (w.next (.setPower on now)).driver.powerSampleOverloadWait =
        w.track.driver.powerSampleOverloadWait from setPower_wait]
      exact h.wait

/-- Another track goes to `OVERLOAD`. -/
theorem Kept.otherOverload (h : w.Kept) (hpace : w.Paced (.otherOverload now)) :
    (w.step (.otherOverload now)).Kept := by
  have htime : w.time ≤ now := hpace
  refine ⟨Nat.le_trans h.since htime, Nat.le_trans h.checked htime, h.lastBad, h.stamp, h.alert, ?_,
    h.wait⟩
  intro _ _
  exact ⟨now, rfl, Nat.le_trans h.since htime, Nat.le_refl _,
    Nat.le_trans (Nat.le_trans h.checked htime) (Nat.le_add_right ..)⟩

theorem Kept.step (h : w.Kept) (hpace : w.Paced e) : w.Right e ∧ (w.step e).Kept := by
  cases e with
  | check fault current now => exact h.check hpace
  | setPower on now => exact ⟨trivial, h.setPower hpace⟩
  | otherOverload now => exact ⟨trivial, h.otherOverload hpace⟩

/-- What one event keeps, a run keeps. -/
theorem Kept.run (h : w.Kept) (hpace : Along WatchedTrack.step Paced w es) :
    Along WatchedTrack.step Right w es ∧ (Lib.run WatchedTrack.step w es).Kept := by
  induction es generalizing w with
  | nil => exact ⟨trivial, h⟩
  | cons e es ih =>
    obtain ⟨hright, hkept⟩ := h.step hpace.1
    obtain ⟨hrest, hend⟩ := ih hkept hpace.2
    exact ⟨⟨hright, hrest⟩, hend⟩

end WatchedTrack

open WatchedTrack

/-- **The overload protection keeps its delays**, whatever the samples are and however often the
power is switched by hand: the power changes by itself only as documented and after the documented
times, and the wait is doubled from 40 ms up to 10 s with every retry. -/
theorem checkPowerOverload_protects {track : PowerTrack} (h : track.driver.New) (time : Nat)
    (es : List PowerEvent) (hpace : Along WatchedTrack.step Paced (start track time) es) :
    Along WatchedTrack.step Right (start track time) es ∧
      ∀ k, let w := run WatchedTrack.step (start track time) (es.take k)
        w.track.driver.powerSampleOverloadWait.toNat = min 10000000 (40000 * 2 ^ w.retries) := by
  refine ⟨((kept_start h time).run hpace).1, fun k => ?_⟩
  have htake : Along WatchedTrack.step Paced (start track time) (es.take k) := by
    rw [← List.take_append_drop k es, along_append] at hpace
    exact hpace.1
  exact ((kept_start h time).run htake).2.wait

/-- A main track of a board with its own brake and fault pins. -/
def PowerTrack.mainTrack : PowerTrack where
  driver :=
    { brakePin := .pwm
      pwmCapable := true
      commonFaultPin := false
      trackMode := TrackMode.main
      dcAddr := 0
      brake := .digital
      powerMode := .off
      lastPowerMode := .off
      lastPowerChange := fun _ => 0
      lastBadSample := 0
      powerSampleOverloadWait := overloadWait }
  statics :=
    { platform := .avr
      globalOverloadStart := 0
      railcomPossible := true
      railcomPaused := false }

/-- A short circuit: the power is switched off after 100 ms, and on again after 40 ms. -/
theorem checkPowerOverload_protects_short :
    let es : List PowerEvent := [.setPower true 10, .check true false 20, .check true false 30,
      .check true false 100020, .check false false 140010, .check false false 140021,
      .check true true 140030]
    (run WatchedTrack.step (start mainTrack 0) es).powerMode = .alert ∧
      (run WatchedTrack.step (start mainTrack 0) es).retries = 1 ∧
      Along WatchedTrack.step Right (start mainTrack 0) es := by
  refine ⟨by decide +kernel, by decide +kernel, ?_⟩
  exact (checkPowerOverload_protects ⟨rfl, rfl, rfl⟩ 0 _ (by decide +kernel)).1

end CommandStation
