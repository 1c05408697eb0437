import CommandStation.Overload.Basic
import CommandStation.Lib.Run

/-!
# Inrush throttling and the power of a track

`throttleInrush(true)` and `throttleInrush(false)` are called in `ALERT` only, so throttling that is
on while a check leaves `ALERT` is turned off. A call from outside may end `ALERT` as well, and does
not turn it off.

`setBrake` is not in the model: it writes the pin, which does not end a PWM on it.
-/

namespace CommandStation

open CommandStation.Lib PowerDriver

/-- The tracks of a motor shield. -/
structure PowerShield where
  tracks : List PowerDriver
  statics : PowerStatics

namespace PowerTrack

/-- `MotorDriver::setDCSignal` -/
def setDCSignal (s : PowerTrack) : PowerTrack :=
  if s.driver.brakePin = .unused then s else { s with driver := { s.driver with brake := .dc } }

/-- `MotorDriver::detachDCSignal` -/
def detachDCSignal (s : PowerTrack) : PowerTrack :=
  if s.driver.brakePin = .unused then s else { s with driver := { s.driver with brake := .digital } }

/-- `MotorDriver::setMode` -/
def setMode (mode : UInt8) (s : PowerTrack) : PowerTrack :=
  { s with driver := { s.driver with trackMode := mode } }

end PowerTrack

namespace PowerShield

/-- A loop over the tracks that calls a method of each driver. -/
def eachTrack (f : Nat → PowerTrack → PowerTrack) (t : Nat) :
    List PowerDriver → PowerStatics → PowerShield
  | [], statics => ⟨[], statics⟩
  | driver :: drivers, statics =>
    let r := f t ⟨driver, statics⟩
    let rest := eachTrack f (t + 1) drivers r.statics
    ⟨r.driver :: rest.tracks, rest.statics⟩

/-- `FOR_EACH_TRACK(t)` -/
def forEachTrack (f : Nat → PowerTrack → PowerTrack) (s : PowerShield) : PowerShield :=
  eachTrack f 0 s.tracks s.statics

/-- A call of a method of the driver of track `t`, if there is such a track. -/
def onTrack (t : Nat) (f : PowerTrack → PowerTrack) : PowerShield → PowerShield :=
  forEachTrack fun u => if u = t then f else id

/-- Only one track may be prog: the body of that loop of `setTrackMode`. -/
def revokeProg (now : UInt32) (trackToSet t : Nat) (s : PowerTrack) : PowerTrack :=
  if TrackMode.has s.driver.trackMode TrackMode.prog ∧ t ≠ trackToSet then
    (s.setPower now .off).setMode TrackMode.none
  else s

/-- The part of `setTrackMode` that clears the side effects of the previous state. -/
def clearPrevious (mode : UInt8) (dcAddr : Int16) (s : PowerTrack) : PowerTrack :=
  if TrackMode.has mode TrackMode.dc then
    let s := if s.driver.dcAddr ≠ dcAddr ∧ s.driver.dcAddr ≠ 0 then s.detachDCSignal else s
    { s with driver := { s.driver with dcAddr := dcAddr } }
  else
    let s := s.detachDCSignal
    { s with driver := { s.driver with dcAddr := 0 } }

/-- What `setTrackMode` finds when it evaluates the High Accuracy mode, on all boards but the
ESP32. -/
def canDoHA (tracks : List PowerDriver) : Bool :=
  tracks.all fun driver =>
    if TrackMode.has driver.trackMode TrackMode.dc then !driver.pwmCapable
    else !TrackMode.has driver.trackMode (TrackMode.main ||| TrackMode.prog) || driver.pwmCapable

/-- The evaluation of the High Accuracy mode. -/
def evaluateHA (s : PowerShield) : PowerShield :=
  match s.statics.platform with
  | .esp32 => s
  | .uno | .avr | .arm => { s with
    statics := { s.statics with railcomPossible := canDoHA s.tracks } }

/-- `setTrackMode` accepts the mode for this driver. -/
def accepts (s : PowerShield) (driver : PowerDriver) (mode : UInt8) : Bool :=
  !(TrackMode.has mode TrackMode.dc && (s.statics.platform == .uno || driver.brakePin != .pwm))

/-- `TrackManager::setTrackMode` -/
def setTrackMode (trackToSet : Nat) (mode : UInt8) (dcAddr : Int16) (offAtChange : Bool)
    (now : UInt32) (s : PowerShield) : PowerShield :=
  match s.tracks[trackToSet]? with
  | none => s
  | some driver =>
    if s.accepts driver mode then
      let s := if TrackMode.has mode TrackMode.prog then s.forEachTrack (revokeProg now trackToSet)
        else s
      let s := s.onTrack trackToSet (clearPrevious mode dcAddr)
      let s := s.onTrack trackToSet (PowerTrack.setMode mode)
      let s := s.evaluateHA
      let s := if TrackMode.has mode TrackMode.dc then s.onTrack trackToSet PowerTrack.setDCSignal
        else s
      -- Turn off power if we changed the mode of this track
      if mode ≠ driver.trackMode ∧ offAtChange then
        s.onTrack trackToSet (PowerTrack.setPower now .off)
      else s
    else s

/-- The body of the loop of `setTrackPower` for all tracks with a mode. -/
def setTrackPowerOn (trackmodeToMatch : UInt8) (powermode : PowerMode) (now : UInt32)
    (s : PowerTrack) : PowerTrack :=
  if TrackMode.has s.driver.trackMode trackmodeToMatch then
    let s := if powermode = .on ∧ TrackMode.has s.driver.trackMode TrackMode.dc then s.setDCSignal
      else s
    s.setPower now powermode
  else s

/-- `TrackManager::setTrackPower(TRACK_MODE, POWERMODE)`: all tracks with this mode. -/
def setTrackPower (trackmodeToMatch : UInt8) (powermode : PowerMode) (now : UInt32) :
    PowerShield → PowerShield :=
  forEachTrack fun _ => setTrackPowerOn trackmodeToMatch powermode now

/-- `TrackManager::setTrackPower(POWERMODE, byte)`, for the track. -/
def setPowerOf (powermode : PowerMode) (now : UInt32) (s : PowerTrack) : PowerTrack :=
  if TrackMode.has s.driver.trackMode TrackMode.none then
    -- Track is unused. Force it to OFF
    s.setPower now .off
  else
    let s := if TrackMode.has s.driver.trackMode TrackMode.dc ∧ powermode = .on then s.setDCSignal
      else s
    s.setPower now powermode

/-- `TrackManager::setTrackPower(POWERMODE, byte)`: one track, independent of mode. -/
def setPowerOfTrack (powermode : PowerMode) (t : Nat) (now : UInt32) : PowerShield → PowerShield :=
  onTrack t (setPowerOf powermode now)

end PowerShield

/-- What is done to the tracks: one of them is checked, or modes and power are set from outside. -/
inductive PowerOp where
  | check (track : Nat) (fault current : Bool) (now : UInt32)
  | setPower (track : Nat) (mode : PowerMode) (now : UInt32)
  | setTrackMode (track : Nat) (mode : UInt8) (dcAddr : Int16) (offAtChange : Bool) (now : UInt32)
  | setTrackPower (trackmodeToMatch : UInt8) (powermode : PowerMode) (now : UInt32)
  | setPowerOfTrack (powermode : PowerMode) (track : Nat) (now : UInt32)
  deriving DecidableEq, Repr

namespace PowerShield

def step (s : PowerShield) : PowerOp → PowerShield
  | .check t fault current now =>
    s.onTrack t fun track => track.checkPowerOverload now fault current
  | .setPower t mode now => s.onTrack t (PowerTrack.setPower now mode)
  | .setTrackMode t mode dcAddr offAtChange now => s.setTrackMode t mode dcAddr offAtChange now
  | .setTrackPower trackmodeToMatch powermode now => s.setTrackPower trackmodeToMatch powermode now
  | .setPowerOfTrack powermode t now => s.setPowerOfTrack powermode t now

/-- Throttling is active in `ALERT` only: a PWM of `throttleInrush` is on the brake pin of a track
only while that track is in `ALERT`, and RailCom is paused only while a track is. -/
def InrushInAlert (s : PowerShield) : Prop :=
  (∀ driver ∈ s.tracks, driver.brake = .inrush → driver.powerMode = .alert) ∧
    (s.statics.railcomPaused → ∃ driver ∈ s.tracks, driver.powerMode = .alert)

instance : DecidablePred InrushInAlert := fun _ => inferInstanceAs (Decidable (_ ∧ _))

/-- The tracks have not been powered yet. -/
structure New (s : PowerShield) : Prop where
  tracks : ∀ driver ∈ s.tracks, driver.New
  railcomPaused : s.statics.railcomPaused = false

/-! ## Calls from outside -/

/-- The call takes the power of track `t` out of `ALERT`, and leaves what drives its brake pin. -/
def switches (s : PowerShield) (t : Nat) (driver : PowerDriver) : PowerOp → Prop
  | .check .. => False
  | .setPower u mode _ => t = u ∧ mode ≠ .alert
  | .setTrackMode u mode _ _ _ => (s.tracks[u]?).any (s.accepts · mode) ∧
    TrackMode.has mode TrackMode.prog ∧ TrackMode.has driver.trackMode TrackMode.prog ∧ t ≠ u
  | .setTrackPower trackmodeToMatch powermode _ =>
    TrackMode.has driver.trackMode trackmodeToMatch ∧ powermode ≠ .alert
  | .setPowerOfTrack powermode u _ =>
    t = u ∧ (TrackMode.has driver.trackMode TrackMode.none ∨ powermode ≠ .alert)

/-- The call gives track `t` another mode and turns it off, or a mode that `throttleInrush`
ignores. Its brake pin is taken off the PWM. -/
def remodes (s : PowerShield) (t : Nat) (driver : PowerDriver) : PowerOp → Prop
  | .setTrackMode u mode _ offAtChange _ => s.accepts driver mode ∧ t = u ∧
    (mode ≠ driver.trackMode ∧ offAtChange ∨ ({ driver with trackMode := mode }).canThrottle = false)
  | _ => False

instance (s : PowerShield) (t : Nat) (driver : PowerDriver) (op : PowerOp) :
    Decidable (s.switches t driver op) := by
  cases op <;> unfold switches <;> infer_instance

instance (s : PowerShield) (t : Nat) (driver : PowerDriver) (op : PowerOp) :
    Decidable (s.remodes t driver op) := by
  cases op <;> unfold remodes <;> infer_instance

/-- A call that does not turn throttling off, and leaves `ALERT` as long as it is on: a track with
the PWM on its brake pin is not switched, and while RailCom is paused a track stays in `ALERT` that
can end the pause. -/
def Leaves (s : PowerShield) (op : PowerOp) : Prop :=
  (∀ t : Fin s.tracks.length, s.tracks[t].brake = .inrush → ¬ s.switches t s.tracks[t] op) ∧
    (s.statics.railcomPaused → ∃ t : Fin s.tracks.length, s.tracks[t].powerMode = .alert ∧
      s.tracks[t].canThrottle ∧ ¬ s.switches t s.tracks[t] op ∧ ¬ s.remodes t s.tracks[t] op)

instance (s : PowerShield) (op : PowerOp) : Decidable (s.Leaves op) :=
  inferInstanceAs (Decidable (_ ∧ _))

/-- No call from outside ends `ALERT` while throttling is on. -/
def Spares (s : PowerShield) : PowerOp → Prop
  | .check .. => True
  | op => s.Leaves op

instance (s : PowerShield) : DecidablePred s.Spares := fun op => by
  cases op <;> unfold Spares <;> infer_instance

variable {s s' : PowerShield} {f : Nat → PowerTrack → PowerTrack} {g : PowerTrack → PowerTrack}
  {drivers : List PowerDriver} {driver driver' : PowerDriver} {statics : PowerStatics}
  {t u : Nat} {now : UInt32} {op : PowerOp}

/-! ## Loops over the tracks -/

/-- Each track is changed by its own call. -/
theorem eachTrack_rel {R : Nat → PowerDriver → PowerDriver → Prop}
    (hf : ∀ t x, R t x.driver (f t x).driver) (t i : Nat) :
    Option.Rel (R (t + i)) drivers[i]? (eachTrack f t drivers statics).tracks[i]? := by
  induction drivers generalizing t i statics with
  | nil => exact .none
  | cons driver drivers ih =>
    cases i with
    | zero => exact .some (hf t ⟨driver, statics⟩)
    | succ i =>
      have hrest : Option.Rel (R (t + 1 + i)) drivers[i]?
          (eachTrack f (t + 1) drivers (f t ⟨driver, statics⟩).statics).tracks[i]? := ih (t + 1) i
      rw [show t + 1 + i = t + (i + 1) by omega] at hrest
      exact hrest

/-- What the calls leave of the statics. -/
theorem eachTrack_statics {P : PowerStatics → Prop} (hf : ∀ t x, P x.statics → P (f t x).statics)
    (t : Nat) (h : P statics) : P (eachTrack f t drivers statics).statics := by
  induction drivers generalizing t statics with
  | nil => exact h
  | cons driver drivers ih => exact ih (t + 1) (hf t ⟨driver, statics⟩ h)

theorem eachTrack_past (h : u < t) :
    eachTrack (fun v => if v = u then g else id) t drivers statics = ⟨drivers, statics⟩ := by
  induction drivers generalizing t with
  | nil => rfl
  | cons driver drivers ih =>
    unfold eachTrack
    rw [if_neg (by omega)]
    simp only [id, ih (Nat.lt_succ_of_lt h)]

/-- A loop over the tracks that acts on one of them changes this one. -/
theorem eachTrack_one (i : Nat) (h : drivers[i]? = some driver) :
    eachTrack (fun v => if v = t + i then g else id) t drivers statics =
      ⟨drivers.set i (g ⟨driver, statics⟩).driver, (g ⟨driver, statics⟩).statics⟩ := by
  induction drivers generalizing t i with
  | nil => simp at h
  | cons driver₀ drivers ih =>
    unfold eachTrack
    cases i with
    | zero =>
      cases h
      simp [eachTrack_past (Nat.lt_succ_self t)]
    | succ i =>
      have hrest := ih (t := t + 1) i (by simpa using h)
      rw [show t + 1 + i = t + (i + 1) by omega] at hrest
      rw [if_neg (by omega)]
      simp only [id, hrest, List.set_cons_succ]

/-- A call for one track. -/
theorem onTrack_some (h : s.tracks[u]? = some driver) : s.onTrack u g =
    ⟨s.tracks.set u (g ⟨driver, s.statics⟩).driver, (g ⟨driver, s.statics⟩).statics⟩ := by
  have hone : eachTrack (fun v => if v = 0 + u then g else id) 0 s.tracks s.statics = _ :=
    eachTrack_one u h
  rw [Nat.zero_add] at hone
  exact hone

theorem eachTrack_id (h : ∀ i < drivers.length, f (t + i) = id) :
    eachTrack f t drivers statics = ⟨drivers, statics⟩ := by
  induction drivers generalizing t with
  | nil => rfl
  | cons driver drivers ih =>
    unfold eachTrack
    have hhead : f t = id := h 0 (by simp)
    have hrest := ih (t := t + 1) fun i hi => by
      rw [show t + 1 + i = t + (i + 1) by omega]
      exact h (i + 1) (by simpa using hi)
    simp only [hhead, id, hrest]

theorem onTrack_none (h : s.tracks[u]? = none) : s.onTrack u g = s := by
  rw [List.getElem?_eq_none_iff] at h
  exact eachTrack_id fun i hi => if_neg (by omega)

theorem getElem?_onTrack_self (h : s.tracks[u]? = some driver) :
    (s.onTrack u g).tracks[u]? = some (g ⟨driver, s.statics⟩).driver := by
  have hlt := (List.getElem?_eq_some_iff.mp h).1
  simp [onTrack_some h, hlt]

theorem getElem?_onTrack_ne (h : t ≠ u) : (s.onTrack u g).tracks[t]? = s.tracks[t]? := by
  cases hu : s.tracks[u]? with
  | none => rw [onTrack_none hu]
  | some driver => simp [onTrack_some hu, Ne.symm h]

/-! ## Calls from outside do not turn throttling off -/

/-- What throttling has to do with the power: the PWM is on the brake pin of a track only while a
check could end both, and so with a pause of RailCom. -/
structure Throttled (s : PowerShield) : Prop where
  pwm : ∀ (t : Nat) (driver : PowerDriver), s.tracks[t]? = some driver → driver.brake = .inrush →
    driver.powerMode = .alert ∧ driver.canThrottle
  paused : s.statics.railcomPaused → ∃ (t : Nat) (driver : PowerDriver),
    s.tracks[t]? = some driver ∧
      driver.powerMode = .alert ∧ driver.canThrottle
  avr : s.statics.railcomPaused → s.statics.platform = .uno ∨ s.statics.platform = .avr

/-- What a call from outside does to the driver of track `t`. -/
structure Spared (s : PowerShield) (op : PowerOp) (t : Nat) (driver driver' : PowerDriver) :
    Prop where
  pwm : driver'.brake = .inrush → driver.brake = .inrush
  alert : driver.canThrottle → driver.powerMode = .alert → ¬ s.switches t driver op →
    (driver'.brake = .inrush ∨ ¬ s.remodes t driver op) →
    driver'.powerMode = .alert ∧ driver'.canThrottle

/-- A call from outside. -/
structure Outside (s : PowerShield) (op : PowerOp) (s' : PowerShield) : Prop where
  tracks : ∀ t, Option.Rel (s.Spared op t) s.tracks[t]? s'.tracks[t]?
  railcomPaused : s'.statics.railcomPaused = s.statics.railcomPaused
  platform : s'.statics.platform = s.statics.platform

theorem Spared.refl : s.Spared op t driver driver := ⟨id, fun h halert _ _ => ⟨halert, h⟩⟩

theorem Outside.refl : s.Outside op s := by
  refine ⟨fun t => ?_, rfl, rfl⟩
  cases s.tracks[t]? with
  | none => exact .none
  | some driver => exact .some .refl

/-- A call from outside that leaves `ALERT` while throttling is on keeps the two together. -/
theorem Throttled.outside (h : s.Throttled) (hout : s.Outside op s') (hleaves : s.Leaves op) :
    s'.Throttled := by
  have hpwm : ∀ (t : Nat) (driver : PowerDriver), s.tracks[t]? = some driver →
      driver.brake = .inrush → ¬ s.switches t driver op := by
    intro t driver ht hbrake
    obtain ⟨hlt, rfl⟩ := List.getElem?_eq_some_iff.mp ht
    exact hleaves.1 ⟨t, hlt⟩ hbrake
  refine ⟨?_, ?_, ?_⟩
  · intro t driver' ht' hbrake'
    have hrel := hout.tracks t
    rw [ht'] at hrel
    cases ht : s.tracks[t]? with
    | none => simp [ht] at hrel
    | some driver =>
      rw [ht] at hrel
      cases hrel with
      | some hspared =>
        have hbrake := hspared.pwm hbrake'
        obtain ⟨halert, hcan⟩ := h.pwm t driver ht hbrake
        exact hspared.alert hcan halert (hpwm t driver ht hbrake) (.inl hbrake')
  · intro hp
    rw [hout.railcomPaused] at hp
    obtain ⟨t, halert, hcan, hswitch, hremode⟩ := hleaves.2 hp
    have ht : s.tracks[t.1]? = some s.tracks[t] := List.getElem?_eq_getElem t.2
    have hrel := hout.tracks t.1
    rw [ht] at hrel
    cases ht' : s'.tracks[t.1]? with
    | none => simp [ht'] at hrel
    | some driver' =>
      rw [ht'] at hrel
      cases hrel with
      | some hspared => exact ⟨t, driver', ht', hspared.alert hcan halert hswitch (.inr hremode)⟩
  · rw [hout.railcomPaused, hout.platform]
    exact h.avr

/-! ## The calls -/

/-- A method that a call from outside uses: it does not throttle. -/
structure Calm (g : PowerTrack → PowerTrack) : Prop where
  pwm : ∀ x, (g x).driver.brake = .inrush → x.driver.brake = .inrush
  railcomPaused : ∀ x, (g x).statics.railcomPaused = x.statics.railcomPaused
  platform : ∀ x, (g x).statics.platform = x.statics.platform

theorem calm_id : Calm id := ⟨fun _ h => h, fun _ => rfl, fun _ => rfl⟩

theorem Calm.comp {g' : PowerTrack → PowerTrack} (h : Calm g) (h' : Calm g') :
    Calm fun x => g (g' x) :=
  ⟨fun x hx => h'.pwm x (h.pwm _ hx), fun x => (h.railcomPaused _).trans (h'.railcomPaused x),
    fun x => (h.platform _).trans (h'.platform x)⟩

theorem Calm.ite {g' : PowerTrack → PowerTrack} (c : PowerTrack → Prop) [DecidablePred c]
    (h : Calm g) (h' : Calm g') : Calm fun x => if c x then g x else g' x := by
  refine ⟨fun x => ?_, fun x => ?_, fun x => ?_⟩ <;> split
  · exact h.pwm x
  · exact h'.pwm x
  · exact h.railcomPaused x
  · exact h'.railcomPaused x
  · exact h.platform x
  · exact h'.platform x

theorem calm_setPower (now : UInt32) (mode : PowerMode) : Calm (PowerTrack.setPower now mode) := by
  refine ⟨fun x => ?_, fun x => ?_, fun x => ?_⟩ <;> unfold PowerTrack.setPower <;> grind

theorem calm_setDCSignal : Calm PowerTrack.setDCSignal := by
  refine ⟨fun x => ?_, fun x => ?_, fun x => ?_⟩ <;> unfold PowerTrack.setDCSignal <;> grind

theorem calm_setMode (mode : UInt8) : Calm (PowerTrack.setMode mode) :=
  ⟨fun _ h => h, fun _ => rfl, fun _ => rfl⟩

@[simp] theorem setPower_canThrottle {x : PowerTrack} {mode : PowerMode} :
    (x.setPower now mode).driver.canThrottle = x.driver.canThrottle := by
  unfold PowerTrack.setPower
  split <;> rfl

@[simp] theorem setDCSignal_powerMode {x : PowerTrack} :
    x.setDCSignal.driver.powerMode = x.driver.powerMode := by
  unfold PowerTrack.setDCSignal
  split <;> rfl

@[simp] theorem setDCSignal_canThrottle {x : PowerTrack} :
    x.setDCSignal.driver.canThrottle = x.driver.canThrottle := by
  unfold PowerTrack.setDCSignal
  split <;> rfl

/-- A call for all tracks. -/
theorem outside_forEachTrack (hcalm : ∀ t, Calm (f t))
    (h : ∀ t x, x.driver.canThrottle → x.driver.powerMode = .alert →
      ¬ s.switches t x.driver op →
      (f t x).driver.powerMode = .alert ∧ (f t x).driver.canThrottle) :
    s.Outside op (s.forEachTrack f) := by
  refine ⟨fun t => ?_, ?_, ?_⟩
  · have hrel : Option.Rel (s.Spared op (0 + t)) s.tracks[t]? (s.forEachTrack f).tracks[t]? := by
      refine eachTrack_rel (R := s.Spared op) (fun t x => ⟨(hcalm t).pwm x, ?_⟩) 0 t
      exact fun hcan halert hswitch _ => h t x hcan halert hswitch
    rw [Nat.zero_add] at hrel
    exact hrel
  · exact eachTrack_statics (P := fun st => st.railcomPaused = s.statics.railcomPaused)
      (fun t x hx => ((hcalm t).railcomPaused x).trans hx) 0 rfl
  · exact eachTrack_statics (P := fun st => st.platform = s.statics.platform)
      (fun t x hx => ((hcalm t).platform x).trans hx) 0 rfl

/-- A call for one track. -/
theorem outside_onTrack (hcalm : Calm g)
    (h : ∀ x, x.driver.canThrottle → x.driver.powerMode = .alert → ¬ s.switches u x.driver op →
      (g x).driver.powerMode = .alert ∧ (g x).driver.canThrottle) :
    s.Outside op (s.onTrack u g) := by
  refine outside_forEachTrack (fun t => ?_) fun t x => ?_
  · by_cases ht : t = u
    · simpa [ht] using hcalm
    · simpa [ht] using calm_id
  · by_cases ht : t = u
    · simpa [ht] using h x
    · simpa [ht] using fun hcan halert _ => ⟨halert, hcan⟩

theorem outside_setPower (mode : PowerMode) :
    s.Outside (.setPower u mode now) (s.step (.setPower u mode now)) := by
  refine outside_onTrack (calm_setPower now mode) fun x hcan _ hswitch => ?_
  have hmode : mode = .alert := by
    by_contra hne
    exact hswitch ⟨rfl, hne⟩
  simpa [hmode] using hcan

theorem calm_setTrackPowerOn (modes : UInt8) (mode : PowerMode) :
    Calm (setTrackPowerOn modes mode now) :=
  .ite _ ((calm_setPower now mode).comp (.ite _ calm_setDCSignal calm_id)) calm_id

theorem outside_setTrackPower (modes : UInt8) (mode : PowerMode) :
    s.Outside (.setTrackPower modes mode now) (s.step (.setTrackPower modes mode now)) := by
  refine outside_forEachTrack (fun _ => calm_setTrackPowerOn modes mode) ?_
  intro t x hcan halert hswitch
  unfold setTrackPowerOn
  split
  · next hmatch =>
    have hmode : mode = .alert := by
      by_contra hne
      exact hswitch ⟨hmatch, hne⟩
    subst hmode
    simpa using hcan
  · exact ⟨halert, hcan⟩

theorem calm_setPowerOf (mode : PowerMode) : Calm (setPowerOf mode now) :=
  .ite _ (calm_setPower now .off) ((calm_setPower now mode).comp (.ite _ calm_setDCSignal calm_id))

theorem outside_setPowerOfTrack (mode : PowerMode) :
    s.Outside (.setPowerOfTrack mode u now) (s.step (.setPowerOfTrack mode u now)) := by
  refine outside_onTrack (calm_setPowerOf mode) fun x hcan halert hswitch => ?_
  unfold setPowerOf
  split
  · next hnone => exact absurd ⟨rfl, .inl hnone⟩ hswitch
  · have hmode : mode = .alert := by
      by_contra hne
      exact hswitch ⟨rfl, .inr hne⟩
    subst hmode
    simpa using hcan

/-! ## A change of the mode -/

/-- A step of `setTrackMode` that changes the driver of track `u` by `P`, and no other. -/
structure Touches (u : Nat) (P : PowerDriver → PowerDriver → Prop) (s s' : PowerShield) : Prop where
  others : ∀ t ≠ u, s'.tracks[t]? = s.tracks[t]?
  own : ∀ driver, s.tracks[u]? = some driver → ∃ driver', s'.tracks[u]? = some driver' ∧
    P driver driver'
  railcomPaused : s'.statics.railcomPaused = s.statics.railcomPaused
  platform : s'.statics.platform = s.statics.platform

theorem Touches.trans {P Q : PowerDriver → PowerDriver → Prop} {s'' : PowerShield}
    (h : Touches u P s s') (h' : Touches u Q s' s'') :
    Touches u (fun driver driver'' => ∃ driver', P driver driver' ∧ Q driver' driver'') s s'' := by
  refine ⟨fun t ht => (h'.others t ht).trans (h.others t ht), ?_,
    h'.railcomPaused.trans h.railcomPaused, h'.platform.trans h.platform⟩
  intro driver hu
  obtain ⟨driver', hu', hP⟩ := h.own driver hu
  obtain ⟨driver'', hu'', hQ⟩ := h'.own driver' hu'
  exact ⟨driver'', hu'', driver', hP, hQ⟩

theorem touches_refl : Touches u Eq s s :=
  ⟨fun _ _ => rfl, fun driver hu => ⟨driver, hu, rfl⟩, rfl, rfl⟩

theorem touches_onTrack {P : PowerDriver → PowerDriver → Prop} (hcalm : Calm g)
    (hP : ∀ x, P x.driver (g x).driver) : Touches u P s (s.onTrack u g) := by
  refine ⟨fun t ht => getElem?_onTrack_ne ht, ?_, ?_, ?_⟩
  · exact fun driver hu => ⟨_, getElem?_onTrack_self hu, hP ⟨driver, s.statics⟩⟩
  · cases hu : s.tracks[u]? with
    | none => rw [onTrack_none hu]
    | some driver =>
      rw [onTrack_some hu]
      exact hcalm.railcomPaused _
  · cases hu : s.tracks[u]? with
    | none => rw [onTrack_none hu]
    | some driver =>
      rw [onTrack_some hu]
      exact hcalm.platform _

theorem touches_evaluateHA : Touches u Eq s s.evaluateHA := by
  have htracks : s.evaluateHA.tracks = s.tracks := by
    unfold evaluateHA
    split <;> rfl
  refine ⟨fun t _ => by rw [htracks], fun driver hu => ⟨driver, by rw [htracks, hu], rfl⟩, ?_, ?_⟩
  · unfold evaluateHA
    split <;> rfl
  · unfold evaluateHA
    split <;> rfl

/-- What `clearPrevious` does to a driver. -/
def Cleared (mode : UInt8) (driver driver' : PowerDriver) : Prop :=
  driver'.brakePin = driver.brakePin ∧ driver'.powerMode = driver.powerMode ∧
    (driver'.brake = .inrush → driver.brake = .inrush) ∧
    (driver.brakePin ≠ .unused → TrackMode.has mode TrackMode.dc = false → driver'.brake ≠ .inrush)

theorem calm_clearPrevious (mode : UInt8) (dcAddr : Int16) : Calm (clearPrevious mode dcAddr) := by
  refine ⟨fun x => ?_, fun x => ?_, fun x => ?_⟩ <;>
    unfold clearPrevious PowerTrack.detachDCSignal <;> grind

theorem cleared (mode : UInt8) (dcAddr : Int16) (x : PowerTrack) :
    Cleared mode x.driver (clearPrevious mode dcAddr x).driver := by
  unfold Cleared clearPrevious PowerTrack.detachDCSignal
  grind

theorem calm_revokeProg : Calm (revokeProg now u t) :=
  .ite _ ((calm_setMode TrackMode.none).comp (calm_setPower now .off)) calm_id

/-- What the part of `setTrackMode` after the loop does to the driver. -/
def Remoded (mode : UInt8) (off : Prop) (driver driver' : PowerDriver) : Prop :=
  (driver'.brake = .inrush → driver.brake = .inrush) ∧
    (driver.brakePin ≠ .unused → driver'.brake ≠ .inrush) ∧
    driver'.canThrottle = ({ driver with trackMode := mode }).canThrottle ∧
    (¬ off → driver'.powerMode = driver.powerMode)

theorem Touches.mono {P Q : PowerDriver → PowerDriver → Prop} (h : Touches u P s s')
    (hPQ : ∀ driver driver', P driver driver' → Q driver driver') : Touches u Q s s' := by
  refine ⟨h.others, fun driver hu => ?_, h.railcomPaused, h.platform⟩
  obtain ⟨driver', hu', hP⟩ := h.own driver hu
  exact ⟨driver', hu', hPQ _ _ hP⟩

/-- What `applyDCSpeed` does to a driver, if it is called. -/
def Driven (dc : Prop) (driver driver' : PowerDriver) : Prop :=
  driver'.brakePin = driver.brakePin ∧ driver'.trackMode = driver.trackMode ∧
    driver'.powerMode = driver.powerMode ∧ (driver'.brake = .inrush → driver.brake = .inrush) ∧
    (driver.brakePin ≠ .unused → dc → driver'.brake ≠ .inrush) ∧
    (¬ dc → driver'.brake = driver.brake)

theorem touches_setDCSignal (dc : Prop) [Decidable dc] :
    Touches u (Driven dc) s (if dc then s.onTrack u PowerTrack.setDCSignal else s) := by
  split
  · next hdc =>
    refine touches_onTrack calm_setDCSignal fun x => ?_
    unfold Driven PowerTrack.setDCSignal
    grind
  · next hdc =>
    refine touches_refl.mono ?_
    rintro driver _ rfl
    exact ⟨rfl, rfl, rfl, id, fun _ h => absurd h hdc, fun _ => rfl⟩

/-- The power is turned off, if it is. -/
def Turned (off : Prop) (driver driver' : PowerDriver) : Prop :=
  driver'.brakePin = driver.brakePin ∧ driver'.trackMode = driver.trackMode ∧
    driver'.brake = driver.brake ∧ (¬ off → driver'.powerMode = driver.powerMode)

theorem touches_setPower_off (now : UInt32) (off : Prop) [Decidable off] :
    Touches u (Turned off) s (if off then s.onTrack u (PowerTrack.setPower now .off) else s) := by
  split
  · next hoff =>
    refine touches_onTrack (calm_setPower now .off) fun x => ?_
    unfold Turned PowerTrack.setPower
    grind
  · next hoff =>
    refine touches_refl.mono ?_
    rintro driver _ rfl
    exact ⟨rfl, rfl, rfl, fun _ => rfl⟩

/-- The last steps of a change of mode touch their own track only. -/
theorem touches_remode (now : UInt32) (mode : UInt8) (dcAddr : Int16) (off : Prop) [Decidable off] :
    Touches u (Remoded mode off) s
      (let s := s.onTrack u (clearPrevious mode dcAddr)
      let s := s.onTrack u (PowerTrack.setMode mode)
      let s := s.evaluateHA
      let s := if TrackMode.has mode TrackMode.dc then s.onTrack u PowerTrack.setDCSignal else s
      if off then s.onTrack u (PowerTrack.setPower now .off) else s) := by
  have hclear : Touches u (Cleared mode) s (s.onTrack u (clearPrevious mode dcAddr)) :=
    touches_onTrack (calm_clearPrevious mode dcAddr) (cleared mode dcAddr)
  have hmode := hclear.trans (touches_onTrack
    (P := fun driver driver' => driver' = { driver with trackMode := mode }) (calm_setMode mode)
    fun _ => rfl)
  have hall := ((hmode.trans touches_evaluateHA).trans
    (touches_setDCSignal (TrackMode.has mode TrackMode.dc))).trans
    (touches_setPower_off now off)
  refine hall.mono ?_
  rintro driver driver₅ ⟨driver₄, ⟨_, ⟨_, ⟨driver₁, hcleared, rfl⟩, rfl⟩, hdriven⟩, hturned⟩
  obtain ⟨hpin₁, hpower₁, hpwm₁, hbrake₁⟩ := hcleared
  obtain ⟨hpin₄, hmode₄, hpower₄, hpwm₄, hbrake₄, hbrake₄'⟩ := hdriven
  obtain ⟨hpin₅, hmode₅, hbrake₅, hpower₅⟩ := hturned
  dsimp only at hpin₄ hmode₄ hpower₄ hpwm₄ hbrake₄ hbrake₄'
  refine ⟨fun hbrake => ?_, fun hpin => ?_, ?_, fun hoff => ?_⟩
  · rw [hbrake₅] at hbrake
    exact hpwm₁ (hpwm₄ hbrake)
  · rw [hbrake₅]
    by_cases hdc : TrackMode.has mode TrackMode.dc = true
    · exact hbrake₄ (hpin₁ ▸ hpin) hdc
    · rw [hbrake₄' hdc]
      exact hbrake₁ hpin (by simpa using hdc)
  · simp only [canThrottle, hpin₅, hpin₄, hpin₁, hmode₅, hmode₄]
  · rw [hpower₅ hoff, hpower₄, hpower₁]

/-- What the loop that revokes the prog track does to the driver of track `t`. -/
def Revoked (mode : UInt8) (u t : Nat) (driver driver' : PowerDriver) : Prop :=
  (driver'.brake = .inrush → driver.brake = .inrush) ∧
    (¬ (TrackMode.has mode TrackMode.prog ∧ TrackMode.has driver.trackMode TrackMode.prog ∧ t ≠ u) →
      driver' = driver)

/-- The loop that revokes the prog track. -/
theorem revoked {mode : UInt8}
    (hs' : s' = if TrackMode.has mode TrackMode.prog then s.forEachTrack (revokeProg now u) else s) :
    (∀ t, Option.Rel (Revoked mode u t) s.tracks[t]? s'.tracks[t]?) ∧
      s'.statics.railcomPaused = s.statics.railcomPaused ∧
      s'.statics.platform = s.statics.platform := by
  subst hs'
  split
  · next hprog =>
    refine ⟨fun t => ?_, ?_, ?_⟩
    · have hrel : Option.Rel (Revoked mode u (0 + t)) s.tracks[t]?
          (s.forEachTrack (revokeProg now u)).tracks[t]? := by
        refine eachTrack_rel (R := Revoked mode u) (fun t x => ⟨calm_revokeProg.pwm x, ?_⟩) 0 t
        intro hnot
        rw [revokeProg, if_neg fun h => hnot ⟨hprog, h⟩]
      rw [Nat.zero_add] at hrel
      exact hrel
    · exact eachTrack_statics (P := fun st => st.railcomPaused = s.statics.railcomPaused)
        (fun t x hx => (calm_revokeProg.railcomPaused x).trans hx) 0 rfl
    · exact eachTrack_statics (P := fun st => st.platform = s.statics.platform)
        (fun t x hx => (calm_revokeProg.platform x).trans hx) 0 rfl
  · refine ⟨fun t => ?_, rfl, rfl⟩
    cases s.tracks[t]? with
    | none => exact .none
    | some driver => exact .some ⟨id, fun _ => rfl⟩

/-- A change of the mode is a call from outside: it ends the throttling of no track that it spares. -/
theorem outside_setTrackMode (mode : UInt8) (dcAddr : Int16) (offAtChange : Bool) :
    s.Outside (.setTrackMode u mode dcAddr offAtChange now)
      (s.step (.setTrackMode u mode dcAddr offAtChange now)) := by
  show s.Outside _ (s.setTrackMode u mode dcAddr offAtChange now)
  unfold setTrackMode
  cases hu : s.tracks[u]? with
  | none => exact .refl
  | some driver =>
    dsimp only
    split
    · next haccepts =>
      generalize hs₁ : (if TrackMode.has mode TrackMode.prog = true then
        s.forEachTrack (revokeProg now u) else s) = s₁
      obtain ⟨hrel, hpaused, hplatform⟩ := revoked hs₁.symm
      have htouch := touches_remode (s := s₁) (u := u) now mode dcAddr
        (mode ≠ driver.trackMode ∧ offAtChange = true)
      dsimp only at htouch
      refine ⟨fun t => ?_, htouch.railcomPaused.trans hpaused, htouch.platform.trans hplatform⟩
      have ht := hrel t
      -- the track itself, then the others, which lose PROG at most
      by_cases htu : t = u
      · subst htu
        rw [hu] at ht ⊢
        cases hu₁ : s₁.tracks[t]? with
        | none => simp [hu₁] at ht
        | some driver₁ =>
          rw [hu₁] at ht
          cases ht with
          | some h₁ =>
            obtain rfl : driver₁ = driver := h₁.2 fun h => h.2.2 rfl
            obtain ⟨driver', ht', hpwm, hbrake, hcan', hpower⟩ := htouch.own driver₁ hu₁
            rw [ht']
            refine .some ⟨hpwm, fun hcan halert _ hor => ?_⟩
            have hpin : driver₁.brakePin ≠ .unused := by
              intro hpin
              simp [canThrottle, hpin] at hcan
            have hremode := hor.resolve_left (hbrake hpin)
            have hkeep : ¬ (mode ≠ driver₁.trackMode ∧ offAtChange = true ∨
                ({ driver₁ with trackMode := mode }).canThrottle = false) := by
              intro h
              exact hremode ⟨haccepts, rfl, h⟩
            rw [not_or, Bool.not_eq_false] at hkeep
            exact ⟨(hpower hkeep.1).trans halert, hcan'.trans hkeep.2⟩
      · rw [htouch.others t htu]
        generalize s₁.tracks[t]? = after at ht ⊢
        cases hs : s.tracks[t]? with
        | none =>
          rw [hs] at ht
          cases ht
          exact .none
        | some driver₂ =>
          rw [hs] at ht
          cases ht with
          | some h₁ =>
            refine .some ⟨h₁.1, fun hcan halert hswitch _ => ?_⟩
            rw [h₁.2 fun h => hswitch ⟨by simp [hu, haccepts], h⟩]
            exact ⟨halert, hcan⟩
    · exact .refl

/-! ## A check -/

/-- What a check does to the throttling of its track. -/
structure Checked (x x' : PowerTrack) : Prop where
  canThrottle : x'.driver.canThrottle = x.driver.canThrottle
  platform : x'.statics.platform = x.statics.platform
  pwm : (x.driver.brake = .inrush → x.driver.powerMode = .alert ∧ x.driver.canThrottle) →
    x'.driver.brake = .inrush → x'.driver.powerMode = .alert ∧ x'.driver.canThrottle
  -- a pause is ended with `ALERT`
  paused : (x.statics.railcomPaused → x.statics.platform = .uno ∨ x.statics.platform = .avr) →
    x'.statics.railcomPaused → x'.driver.powerMode = .alert ∧ x'.driver.canThrottle ∨
      x.statics.railcomPaused ∧ ¬ (x.driver.powerMode = .alert ∧ x.driver.canThrottle)
  avr : (x.statics.railcomPaused → x.statics.platform = .uno ∨ x.statics.platform = .avr) →
    x'.statics.railcomPaused → x'.statics.platform = .uno ∨ x'.statics.platform = .avr

/-- The throttling is left as it is. -/
structure Still (x x' : PowerTrack) : Prop where
  brake : x'.driver.brake = x.driver.brake
  canThrottle : x'.driver.canThrottle = x.driver.canThrottle
  railcomPaused : x'.statics.railcomPaused = x.statics.railcomPaused
  platform : x'.statics.platform = x.statics.platform

variable {x y x' : PowerTrack} {mode : PowerMode} {fault current : Bool}

theorem still_setPower : Still x (x.setPower now mode) := by
  unfold PowerTrack.setPower
  split
  · exact ⟨rfl, rfl, rfl, rfl⟩
  · refine ⟨rfl, rfl, ?_, ?_⟩ <;> dsimp only <;> split <;> rfl

theorem still_microsSince (now : UInt32) (mode : PowerMode) : Still x (x.microsSinceLastPowerChange now mode).2 := by
  unfold PowerTrack.microsSinceLastPowerChange
  dsimp only
  split <;> exact ⟨rfl, rfl, rfl, rfl⟩

theorem Still.trans (h : Still x y) (h' : Still y x') : Still x x' :=
  ⟨h'.brake.trans h.brake, h'.canThrottle.trans h.canThrottle,
    h'.railcomPaused.trans h.railcomPaused, h'.platform.trans h.platform⟩

/-- Out of `ALERT` nothing is throttled. -/
theorem Still.checked (h : Still x x') (hne : x.driver.powerMode ≠ .alert) : Checked x x' := by
  refine ⟨h.canThrottle, h.platform, ?_, ?_, ?_⟩
  · intro hpwm hbrake
    rw [h.brake] at hbrake
    exact absurd (hpwm hbrake).1 hne
  · intro _ hp
    rw [h.railcomPaused] at hp
    exact .inr ⟨hp, fun halert => hne halert.1⟩
  · rw [h.railcomPaused, h.platform]
    exact id

theorem still_checkOff : Still x x.checkOff := ⟨rfl, rfl, rfl, rfl⟩

theorem still_checkOn : Still x (x.checkOn now fault current) := by
  unfold PowerTrack.checkOn
  dsimp only
  split
  · refine Still.trans ?_ still_setPower
    exact ⟨rfl, rfl, rfl, rfl⟩
  · split
    · refine Still.trans (Still.trans ?_ (still_microsSince now .on))
        ⟨rfl, rfl, rfl, rfl⟩
      exact ⟨rfl, rfl, rfl, rfl⟩
    · refine Still.trans ?_ (still_microsSince ..)
      exact ⟨rfl, rfl, rfl, rfl⟩

/-- A check in `OVERLOAD` leaves the throttling as it is. -/
theorem still_checkOverload : Still x (x.checkOverload now) := by
  unfold PowerTrack.checkOverload
  dsimp only
  have hread : ∀ r : UInt32 × PowerTrack, Still x r.2 → Still x
      (if r.1 > r.2.driver.powerSampleOverloadWait then
        PowerTrack.setPower now .alert { r.2 with driver := { r.2.driver with
          powerSampleOverloadWait := if r.2.driver.powerSampleOverloadWait * 2 > retryMax
            then retryMax else r.2.driver.powerSampleOverloadWait * 2 } }
      else r.2) := by
    intro r hr
    split
    · refine Still.trans (hr.trans ?_) still_setPower
      exact ⟨rfl, rfl, rfl, rfl⟩
    · exact hr
  refine hread _ ?_
  split
  · exact ⟨rfl, rfl, rfl, rfl⟩
  · refine Still.trans ?_ (still_microsSince ..)
    exact ⟨rfl, rfl, rfl, rfl⟩

/-- A check in `ALERT` may have turned throttling on, where this does something. -/
structure Begun (x y : PowerTrack) : Prop where
  canThrottle : y.driver.canThrottle = x.driver.canThrottle
  platform : y.statics.platform = x.statics.platform
  off : x.driver.canThrottle = false → y.driver.brake = x.driver.brake ∧
    y.statics.railcomPaused = x.statics.railcomPaused
  arm : ¬ (x.statics.platform = .uno ∨ x.statics.platform = .avr) →
    y.statics.railcomPaused = x.statics.railcomPaused

theorem Still.begun (h : Still x y) : Begun x y :=
  ⟨h.canThrottle, h.platform, fun _ => ⟨h.brake, h.railcomPaused⟩, fun _ => h.railcomPaused⟩

/-- A track that cannot throttle is left alone; any other has the PWM on its brake pin, or off it. -/
theorem throttleInrush_cases (on : Bool) (y : PowerTrack) :
    (y.driver.canThrottle = false ∧ y.throttleInrush on = y) ∨
    y.driver.canThrottle = true ∧
      (y.throttleInrush on).driver.brake = (if on then .inrush else .digital) ∧
      (y.throttleInrush on).statics.platform = y.statics.platform ∧
      (y.throttleInrush on).statics.railcomPaused =
        if y.statics.platform = .uno ∨ y.statics.platform = .avr then
          on && y.statics.railcomPossible
        else y.statics.railcomPaused := by
  unfold PowerTrack.throttleInrush PowerTrack.pauseRailcom
  cases hcan : y.driver.canThrottle with
  | false => exact .inl ⟨rfl, rfl⟩
  | true =>
    right
    cases hp : y.statics.platform <;> simp [hp]

@[simp] theorem throttleInrush_canThrottle {on : Bool} :
    (y.throttleInrush on).driver.canThrottle = y.driver.canThrottle := by
  unfold PowerTrack.throttleInrush PowerTrack.pauseRailcom
  grind [canThrottle]

theorem Begun.throttle (h : Begun x y) : Begun x (y.throttleInrush true) := by
  obtain ⟨-, heq⟩ | ⟨hcan, hbrake, hplatform, hpaused⟩ := throttleInrush_cases true y
  · rwa [heq]
  · refine ⟨throttleInrush_canThrottle.trans h.canThrottle, hplatform.trans h.platform, ?_, ?_⟩
    · intro hoff
      rw [h.canThrottle, hoff] at hcan
      cases hcan
    · intro harm
      rw [hpaused, h.platform, if_neg harm]
      exact h.arm harm

/-- The track stays in `ALERT`. -/
theorem Begun.checked (h : Begun x y) (hstay : y.driver.powerMode = .alert) : Checked x y := by
  refine ⟨h.canThrottle, h.platform, ?_, ?_, ?_⟩
  · intro hpwm hbrake
    refine ⟨hstay, ?_⟩
    rw [h.canThrottle]
    by_contra hoff
    rw [Bool.not_eq_true] at hoff
    rw [(h.off hoff).1] at hbrake
    rw [(hpwm hbrake).2] at hoff
    cases hoff
  · intro _ hp
    cases hcan : x.driver.canThrottle with
    | true => exact .inl ⟨hstay, h.canThrottle.trans hcan⟩
    | false =>
      rw [(h.off hcan).2] at hp
      exact .inr ⟨hp, by simp⟩
  · intro havr hp
    rw [h.platform]
    by_contra harm
    rw [h.arm harm] at hp
    exact harm (havr hp)

/-- Throttling is turned off, and the track may leave `ALERT`. -/
theorem Begun.checked_off (h : Begun x y) (hstill : Still (y.throttleInrush false) x') :
    Checked x x' := by
  have hcan' : x'.driver.canThrottle = x.driver.canThrottle :=
    (hstill.canThrottle.trans throttleInrush_canThrottle).trans h.canThrottle
  obtain ⟨hoff, heq⟩ | ⟨hcan, hbrake, hplatform, hpaused⟩ := throttleInrush_cases false y
  · rw [heq] at hstill
    rw [h.canThrottle] at hoff
    refine ⟨hcan', hstill.platform.trans h.platform, ?_, ?_, ?_⟩
    · intro hpwm hbrake
      rw [hstill.brake, (h.off hoff).1] at hbrake
      rw [(hpwm hbrake).2] at hoff
      cases hoff
    · intro _ hp
      rw [hstill.railcomPaused, (h.off hoff).2] at hp
      exact .inr ⟨hp, by simp [hoff]⟩
    · intro havr hp
      rw [hstill.railcomPaused, (h.off hoff).2] at hp
      rw [hstill.platform, h.platform]
      exact havr hp
  · have hnot : (x.statics.railcomPaused → x.statics.platform = .uno ∨ x.statics.platform = .avr) →
        x'.statics.railcomPaused = false := by
      intro havr
      rw [hstill.railcomPaused, hpaused, h.platform]
      split
      · rfl
      · next harm =>
        rw [h.arm harm]
        simpa using fun hp => harm (havr hp)
    refine ⟨hcan', (hstill.platform.trans hplatform).trans h.platform, ?_, ?_, ?_⟩
    · intro _ hb
      rw [hstill.brake, hbrake] at hb
      cases hb
    · intro havr hp
      rw [hnot havr] at hp
      cases hp
    · intro havr hp
      rw [hnot havr] at hp
      cases hp

/-- What a check in `ALERT` does to the throttling of its track. -/
theorem checked_checkAlert (halert : x.driver.powerMode = .alert) :
    Checked x (x.checkAlert now fault current) := by
  unfold PowerTrack.checkAlert
  dsimp only
  have hread : ∀ x₀ : PowerTrack, Still x x₀ → x₀.driver.powerMode = .alert →
      Still x (x₀.microsSinceLastPowerChange now .alert).2 ∧
        (x₀.microsSinceLastPowerChange now .alert).2.driver.powerMode = .alert := by
    intro x₀ hstill hmode
    refine ⟨hstill.trans (still_microsSince ..), ?_⟩
    unfold PowerTrack.microsSinceLastPowerChange
    dsimp only
    split <;> exact hmode
  obtain ⟨hstill, hmode⟩ := hread { x with driver := { x.driver with
      lastBadSample := if x.driver.powerMode ≠ x.driver.lastPowerMode then now
        else x.driver.lastBadSample
      lastPowerMode := .alert } } ⟨rfl, rfl, rfl, rfl⟩ halert
  generalize PowerTrack.microsSinceLastPowerChange now .alert _ = read at hstill hmode ⊢
  obtain ⟨mslpc, y⟩ := read
  dsimp only at hstill hmode ⊢
  have hbegun := hstill.begun
  cases fault with
  | true =>
    simp only [if_true]
    have hthrottled := hbegun.throttle
    by_cases hshort : mslpc < if current = true then ignoreFaultHigh else ignoreFaultLow
    · rw [if_pos hshort]
      refine Begun.checked ?_ (by simpa using hmode)
      exact ⟨hthrottled.canThrottle, hthrottled.platform, hthrottled.off, hthrottled.arm⟩
    · rw [if_neg hshort]
      refine Begun.checked_off ?_ still_setPower
      exact ⟨hthrottled.canThrottle, hthrottled.platform, hthrottled.off, hthrottled.arm⟩
  | false =>
    cases current with
    | true =>
      simp only [Bool.false_eq_true, if_false, if_true]
      split
      · refine Begun.checked ?_ hmode
        exact ⟨hbegun.canThrottle, hbegun.platform, hbegun.off, hbegun.arm⟩
      · refine Begun.checked_off ?_ still_setPower
        exact ⟨hbegun.canThrottle, hbegun.platform, hbegun.off, hbegun.arm⟩
    | false =>
      simp only [Bool.false_eq_true, if_false]
      split
      · exact hbegun.checked_off still_setPower
      · split
        · exact hbegun.checked_off ⟨rfl, rfl, rfl, rfl⟩
        · exact hbegun.checked hmode

theorem checked_checkPowerOverload (now : UInt32) (x : PowerTrack) (fault current : Bool) :
    Checked x (x.checkPowerOverload now fault current) := by
  unfold PowerTrack.checkPowerOverload
  split
  · next hmode => exact still_checkOff.checked (by simp [hmode])
  · next hmode => exact still_checkOn.checked (by simp [hmode])
  · next hmode => exact checked_checkAlert hmode
  · next hmode => exact still_checkOverload.checked (by simp [hmode])

/-- A check of any track keeps throttling and `ALERT` together. -/
theorem Throttled.check (h : s.Throttled) (fault current : Bool) :
    (s.step (.check u fault current now)).Throttled := by
  show (s.onTrack u _).Throttled
  cases hu : s.tracks[u]? with
  | none =>
    rw [onTrack_none hu]
    exact h
  | some driver =>
    have hcheck := checked_checkPowerOverload now ⟨driver, s.statics⟩ fault current
    have hlt := (List.getElem?_eq_some_iff.mp hu).1
    rw [onTrack_some hu]
    refine ⟨?_, ?_, hcheck.avr h.avr⟩
    · intro t driver' ht hbrake
      dsimp only at ht
      by_cases htu : t = u
      · subst htu
        rw [List.getElem?_set_self hlt] at ht
        cases ht
        exact hcheck.pwm (h.pwm t driver hu) hbrake
      · rw [List.getElem?_set_ne (Ne.symm htu)] at ht
        exact h.pwm t driver' ht hbrake
    · intro hp
      obtain ⟨halert, hcan⟩ | ⟨hp₀, hnot⟩ := hcheck.paused h.avr hp
      · exact ⟨u, _, List.getElem?_set_self hlt, halert, hcan⟩
      · obtain ⟨t, driver', ht, halert, hcan⟩ := h.paused hp₀
        have htu : t ≠ u := by
          rintro rfl
          rw [hu] at ht
          cases ht
          exact hnot ⟨halert, hcan⟩
        exact ⟨t, driver', (List.getElem?_set_ne (Ne.symm htu)).trans ht, halert, hcan⟩

/-! ## Runs -/

theorem Throttled.step (h : s.Throttled) (hspares : s.Spares op) : (s.step op).Throttled := by
  cases op with
  | check t fault current now => exact h.check fault current
  | setPower t mode now => exact h.outside (outside_setPower mode) hspares
  | setTrackMode t mode dcAddr offAtChange now =>
    exact h.outside (outside_setTrackMode mode dcAddr offAtChange) hspares
  | setTrackPower modes mode now =>
    exact h.outside (outside_setTrackPower modes mode) hspares
  | setPowerOfTrack mode t now =>
    exact h.outside (outside_setPowerOfTrack mode) hspares

theorem New.throttled (h : s.New) : s.Throttled := by
  refine ⟨?_, ?_, ?_⟩
  · intro t driver ht hbrake
    rw [(h.tracks driver (List.mem_of_getElem? ht)).brake] at hbrake
    cases hbrake
  · simp [h.railcomPaused]
  · simp [h.railcomPaused]

theorem Throttled.inrushInAlert (h : s.Throttled) : s.InrushInAlert := by
  refine ⟨?_, ?_⟩
  · intro driver hmem hbrake
    obtain ⟨t, ht⟩ := List.getElem?_of_mem hmem
    exact (h.pwm t driver ht hbrake).1
  · intro hp
    obtain ⟨t, driver, ht, halert, -⟩ := h.paused hp
    exact ⟨driver, List.mem_of_getElem? ht, halert⟩

/-- **Throttling is active in `ALERT` only**, in every run in which no call from outside ends
`ALERT` while throttling is on. There is one pause of RailCom for all tracks, and what is said of it is
that some track is in `ALERT`, not which one. -/
theorem inrush_in_alert (h : s.New) (ops : List PowerOp) (hspares : Along step Spares s ops) :
    (run step s ops).InrushInAlert :=
  (inv_run Throttled (fun _ _ hspares hs => hs.step hspares) h.throttled hspares).inrushInAlert

/-- A shield with one track, `MAIN`, on an AVR board. -/
def oneTrack : PowerShield where
  tracks :=
    [{ brakePin := .pwm
       pwmCapable := true
       commonFaultPin := false
       trackMode := TrackMode.main
       dcAddr := 0
       brake := .digital
       powerMode := .off
       lastPowerMode := .off
       lastPowerChange := fun _ => 0
       lastBadSample := 0
       powerSampleOverloadWait := overloadWait }]
  statics :=
    { platform := .avr
      globalOverloadStart := 0
      railcomPossible := true
      railcomPaused := false }

theorem oneTrack_new : oneTrack.New := by
  refine ⟨?_, rfl⟩
  intro driver hmem
  rw [List.mem_singleton.mp hmem]
  exact ⟨rfl, rfl, rfl⟩

/-- A fault that goes away: throttling is on for a while, and off when the track is `ON` again. -/
theorem inrush_in_alert_fault :
    let ops : List PowerOp := [.setTrackPower TrackMode.main .on 10, .check 0 true false 20,
      .check 0 true false 30, .check 0 false false 30000, .setTrackPower TrackMode.main .off 40000]
    ((run step oneTrack (ops.take 3)).tracks.map PowerDriver.brake = [.inrush]) ∧
      (run step oneTrack ops).InrushInAlert := by
  exact ⟨by decide +kernel, inrush_in_alert oneTrack_new _ (by decide +kernel)⟩

/-- The power is switched off by hand while the inrush current is throttled. -/
theorem inrush_left_on : ¬ ∀ (s : PowerShield) (ops : List PowerOp), s.New →
    (run step s ops).InrushInAlert := by
  intro h
  have hoff := h oneTrack [.setTrackPower TrackMode.main .on 10, .check 0 true false 20,
    .check 0 true false 30, .setTrackPower TrackMode.main .off 40] oneTrack_new
  exact absurd hoff (by decide +kernel)

end PowerShield

end CommandStation
