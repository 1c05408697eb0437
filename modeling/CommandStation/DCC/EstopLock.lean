import CommandStation.DCC.Run
import CommandStation.DCCQueue.Throttle

/-!
# The emergency stop lock

`estopLock(true)` stops everything and keeps it stopped: from then on every speed code that
`setThrottleDCC` is given is sent as an emergency stop, and no DC signal follows a throttle. The
lock is looked at in several places of `DCC` but in none of `TrackManager`, so a DC track that is
switched on or given to a loco while the lock is set gets the speed code the loco has stored.

`Held s s'` says what every operation keeps: the queue is fed by calls that are no speed packets
while the lock is set, and the tracks are given stops only. It holds for an operation if it holds for
its parts, so most of this module follows the text of the programs. `LockSafe` are the conditions
under which it holds for the others.
-/

namespace CommandStation

open CommandStation.Lib LocoTable

variable {s s' s'' : Station} {xs ys : List Addr} {a : Addr} {b : Bool}

/-- The speed code is stop or emergency stop, in either direction. -/
def isStop (speedCode : UInt8) : Bool := speedCode &&& 0x7F ≤ 1

/-- The signal does not make a DC track drive. -/
def DCSignal.Harmless (signal : DCSignal) : Prop :=
  TrackMode.has signal.trackMode TrackMode.dc = true → isStop signal.speedCode = true

instance (signal : DCSignal) : Decidable signal.Harmless :=
  inferInstanceAs (Decidable (_ → _))

/-! ## What operations keep -/

/-- The lock stays as it is, and as long as it is set no speed packets join the queue and no
track is made to drive. -/
structure Held (s s' : Station) : Prop where
  lock : s'.estopIsLocked = s.estopIsLocked
  fed : ∃ cs, s'.queue = run DCCQueue.step s.queue cs ∧
    (s.estopIsLocked = true → ∀ c ∈ cs, c.kind ≠ some .speed)
  signals : ∃ new, s'.dcSignals = new ++ s.dcSignals ∧
    (s.estopIsLocked = true → ∀ signal ∈ new, signal.Harmless)

namespace Held

/-- Nothing happens to lock, queue and tracks. -/
theorem of_same (hlock : s'.estopIsLocked = s.estopIsLocked) (hqueue : s'.queue = s.queue)
    (hsignals : s'.dcSignals = s.dcSignals) : Held s s' :=
  ⟨hlock, ⟨[], hqueue, fun _ _ hc => by cases hc⟩, ⟨[], hsignals, fun _ _ hc => by cases hc⟩⟩

theorem refl (s : Station) : Held s s := of_same rfl rfl rfl

theorem trans (h : Held s s') (h' : Held s' s'') : Held s s'' := by
  obtain ⟨cs, hqueue, hcs⟩ := h.fed
  obtain ⟨cs', hqueue', hcs'⟩ := h'.fed
  obtain ⟨new, hsignals, hnew⟩ := h.signals
  obtain ⟨new', hsignals', hnew'⟩ := h'.signals
  refine ⟨h'.lock.trans h.lock, ⟨cs ++ cs', ?_, ?_⟩, ⟨new' ++ new, ?_, ?_⟩⟩
  · rw [hqueue', hqueue, run_append]
  · intro hlocked c hc
    rcases List.mem_append.mp hc with hc | hc
    · exact hcs hlocked c hc
    · exact hcs' (h.lock.trans hlocked) c hc
  · rw [hsignals', hsignals, List.append_assoc]
  · intro hlocked signal hsignal
    rcases List.mem_append.mp hsignal with hsignal | hsignal
    · exact hnew' (h.lock.trans hlocked) signal hsignal
    · exact hnew hlocked signal hsignal

end Held

instance : Std.Refl Held := ⟨Held.refl⟩

instance : IsTrans Station Held := ⟨fun _ _ _ => Held.trans⟩

/-- `Held` from states in which the lock is as given. -/
def HeldAt (b : Bool) (s s' : Station) : Prop := s.estopIsLocked = b → Held s s'

instance : Std.Refl (HeldAt b) := ⟨fun s _ => Held.refl s⟩

instance : IsTrans Station (HeldAt b) where
  trans _ _ _ h h' hb := (h hb).trans (h' ((h hb).lock.trans hb))

section Rules

variable {α : Type} {m : Dcc α}

theorem heldAt (h : Preserves Held m) : Preserves (HeldAt b) m :=
  h.mono fun _ _ hs _ => hs

/-- A program that reads the state may rely on the lock staying as it read it. -/
theorem held_get {f : Station → Dcc α}
    (h : ∀ s, Preserves (HeldAt s.estopIsLocked) (f s)) : Preserves Held (get >>= f) := by
  apply preserves_get_bind
  intro s
  exact wp_mono (h s s) fun _ s' hs' => hs' rfl

/-- The lock is not looked at. -/
theorem held_read {f : Station → Dcc α} (h : ∀ s, Preserves Held (f s)) :
    Preserves Held (get >>= f) :=
  held_get fun s => heldAt (h s)

theorem held_modify {g : Station → Station} (hlock : ∀ s, (g s).estopIsLocked = s.estopIsLocked)
    (hqueue : ∀ s, (g s).queue = s.queue) (hsignals : ∀ s, (g s).dcSignals = s.dcSignals) :
    Preserves Held (modify g : Dcc PUnit) :=
  preserves_modify fun s => Held.of_same (hlock s) (hqueue s) (hsignals s)

theorem held_onSlots (m : Slots α) : Preserves Held (onSlots m) :=
  preserves_zoom fun _ _ => Held.of_same rfl rfl rfl

theorem held_schedule {c : DCCQueue.Call} (hc : c.kind ≠ some .speed) :
    Preserves Held (schedule c) := by
  apply preserves_modify
  intro s
  refine ⟨rfl, ⟨[c], rfl, fun _ d hd => ?_⟩, ⟨[], rfl, fun _ _ h => by cases h⟩⟩
  rw [List.mem_singleton.mp hd]
  exact hc

theorem held_scheduleNext (force : Bool) (now : UInt32) :
    Preserves Held (scheduleNext force now) := by
  apply held_read
  intro s
  exact preserves_bind (held_schedule fun h => by cases h) fun _ => preserves_pure _

theorem held_followSlots {β : Type} {body : Addr → β → Dcc (Option Addr × β)}
    (hbody : ∀ a r, Preserves Held (body a r)) (start : Option Addr) (r : β) :
    Preserves Held (followSlots body start r) :=
  held_read fun _ => preserves_loop hbody _ start r

end Rules

/-! ## Tracks -/

/-- What decides whether and when a driver is given DC signals. -/
def MotorDriver.role (driver : MotorDriver) : BrakePin × UInt8 × Int16 :=
  (driver.brakePin, driver.trackMode, driver.dcAddr)

/-- Only the tracks change. -/
structure Tracked (s s' : Station) : Prop where
  held : Held s s'
  locos : s'.locos = s.locos

instance : Std.Refl Tracked := ⟨fun s => ⟨Held.refl s, rfl⟩⟩

instance : IsTrans Station Tracked where
  trans _ _ _ h h' := ⟨h.held.trans h'.held, h'.locos.trans h.locos⟩

/-- Tracks are given signals and power, but keep their roles. -/
structure Powered (s s' : Station) : Prop extends Tracked s s' where
  roles : s'.tracks.map MotorDriver.role = s.tracks.map MotorDriver.role

theorem Powered.refl (s : Station) : Powered s s := ⟨⟨Held.refl s, rfl⟩, rfl⟩

theorem Powered.trans (h : Powered s s') (h' : Powered s' s'') : Powered s s'' :=
  ⟨⟨h.held.trans h'.held, h'.locos.trans h.locos⟩, h'.roles.trans h.roles⟩

/-- Every driver had its role before. -/
theorem Powered.exists_driver (h : Powered s s') {driver : MotorDriver}
    (hdriver : driver ∈ s'.tracks) : ∃ old ∈ s.tracks, old.role = driver.role := by
  have hmem : driver.role ∈ s'.tracks.map MotorDriver.role := List.mem_map_of_mem hdriver
  rw [h.roles] at hmem
  exact List.mem_map.mp hmem

namespace TrackManager

theorem tracked_setTrack (t : Nat) (f : MotorDriver → MotorDriver) :
    Preserves Tracked (setTrack t f) :=
  preserves_modify fun _ => ⟨Held.of_same rfl rfl rfl, rfl⟩

theorem wp_setTrack_powered (t : Nat) {f : MotorDriver → MotorDriver}
    (hf : ∀ driver, (f driver).role = driver.role) :
    wp (fun _ => True) (setTrack t f) (fun _ => Powered s) s := by
  refine ⟨tracked_setTrack t f s, ?_⟩
  apply List.ext_getElem?
  intro u
  simp only [List.getElem?_map, List.getElem?_modify]
  cases s.tracks[u]? with
  | none => simp
  | some driver =>
    by_cases hu : t = u
    · simp [hu, hf]
    · simp [hu]

/-- A track is given a signal; while the lock is set it must be a stop if the track is a DC one. -/
theorem wp_driveTrack_powered (t : Nat) (speedcode frequency : UInt8)
    (hstop : s.estopIsLocked = true → ∀ driver, s.tracks[t]? = some driver →
      driver.isDC = true → driver.brakePin ≠ .unused → isStop speedcode = true) :
    wp (fun _ => True) (driveTrack t speedcode frequency) (fun _ => Powered s) s := by
  simp only [driveTrack, wp_modify]
  cases hdriver : s.tracks[t]? with
  | none => exact Powered.refl s
  | some driver =>
    simp only
    split
    · exact Powered.refl s
    · next hpin =>
      refine ⟨⟨⟨rfl, ⟨[], rfl, fun _ _ h => by cases h⟩, ⟨[_], rfl, ?_⟩⟩, rfl⟩, ?_⟩
      · intro hlocked signal hsignal hdc
        rw [List.mem_singleton.mp hsignal] at hdc ⊢
        exact hstop hlocked driver hdriver hdc hpin
      · -- the driver that is put back differs in its signal only
        apply List.ext_getElem?
        intro u
        simp only [List.getElem?_map]
        by_cases hu : t = u
        · have hlt : t < s.tracks.length := (List.getElem?_eq_some_iff.mp hdriver).1
          rw [← hu, List.getElem?_set_self hlt, hdriver]
          rfl
        · rw [List.getElem?_set_ne hu]

theorem heldAt_driveTrack (t : Nat) {speedcode : UInt8} (frequency : UInt8)
    (hstop : b = true → isStop speedcode = true) :
    Preserves (HeldAt b) (driveTrack t speedcode frequency) := by
  intro s
  by_cases hb : s.estopIsLocked = b
  · refine wp_mono (wp_driveTrack_powered t speedcode frequency ?_) fun _ s' hs' _ => hs'.held
    exact fun hlocked _ _ _ _ => hstop (hb.symm.trans hlocked)
  · rw [wp_iff_forall]
    exact fun _ s' _ hb' => absurd hb' hb

theorem tracked_detachDCSignal (t : Nat) : Preserves Tracked (detachDCSignal t) := by
  have hstop : ∀ s, wp (fun _ => True) (driveTrack t 128 0) (fun _ => Tracked s) s := by
    intro s
    exact wp_mono (wp_driveTrack_powered t 128 0 fun _ _ _ _ _ => rfl)
      fun _ s' hs' => hs'.toTracked
  apply preserves_get_bind
  intro s
  cases s.platform with
  | uno => exact hstop s
  | avr => exact hstop s
  | arm => exact tracked_setTrack t _ s
  | esp32 => exact tracked_setTrack t _ s

theorem tracked_clearPrevious (trackToSet : Nat) (oldAddr : Int16) (mode : UInt8)
    (dcAddr : Int16) : Preserves Tracked (clearPrevious trackToSet oldAddr mode dcAddr) := by
  apply preserves_ite
  · intro _
    exact preserves_bind (preserves_when fun _ => tracked_detachDCSignal trackToSet)
      fun _ => tracked_setTrack trackToSet _
  · intro _
    exact preserves_bind (tracked_detachDCSignal trackToSet)
      fun _ => tracked_setTrack trackToSet _

/-- Only one track may be prog. -/
theorem tracked_revokeProgs (trackToSet : Nat) :
    Preserves Tracked (forEachTrack (revokeProg trackToSet)) := by
  apply preserves_get_bind
  intro s
  apply preserves_runProg
  intro t
  exact preserves_ite (fun _ => preserves_pure ()) fun _ => tracked_setTrack t _

theorem held_getThrottleFrequency (cab : UInt16) :
    Preserves Held (DCC.getThrottleFrequency cab) := by
  apply held_read
  intro s
  exact preserves_ite (fun _ => preserves_pure 0) fun _ => held_onSlots _

/-- `setDCSignal` with a stop, or while the lock is not set. -/
theorem heldAt_setDCSignal (cab : Int16) {speedbyte : UInt8}
    (hstop : b = true → isStop speedbyte = true) :
    Preserves (HeldAt b) (setDCSignal cab speedbyte) := by
  have hturn : ∀ t, Preserves (HeldAt b) (setDCSignalOn cab speedbyte t) := by
    intro t
    apply preserves_get_bind
    intro s
    cases s.tracks[t]? with
    | none => exact preserves_pure () s
    | some driver =>
      simp only
      split
      · exact preserves_pure () s
      · split
        · exact preserves_bind (heldAt (held_getThrottleFrequency _))
            (fun frequency => heldAt_driveTrack t frequency hstop) s
        · exact preserves_pure () s
  apply preserves_get_bind
  intro s
  exact preserves_runProg hturn _ s

/-- A loop over the tracks. -/
theorem wp_forEachTrack_powered {body : Nat → Dcc Unit}
    (hbody : ∀ t s', Powered s s' → wp (fun _ => True) (body t) (fun _ => Powered s') s') :
    wp (fun _ => True) (forEachTrack body) (fun _ => Powered s) s := by
  simp only [forEachTrack, wp_bind, wp_get]
  refine wp_runProg (Powered s) ?_ (Powered.refl s) (alongProg_of_forall (fun _ _ _ => trivial) s)
  intro s' t _ hs'
  exact wp_mono (hbody t s' hs') fun _ s'' hs'' => hs'.trans hs''

/-- `setDCSignal`, while the lock is set with a stop or for no track at all. -/
theorem wp_setDCSignal_powered (h : Lists s.locos xs ys) (cab : Int16) (speedbyte : UInt8)
    (hstop : s.estopIsLocked = true → ∀ driver ∈ s.tracks, driver.Hears cab →
      isStop speedbyte = true) :
    wp (fun _ => True) (setDCSignal cab speedbyte) (fun _ => Powered s) s := by
  apply wp_forEachTrack_powered
  intro t s' hs'
  simp only [setDCSignalOn, wp_bind, wp_get]
  cases hdriver : s'.tracks[t]? with
  | none => exact Powered.refl s'
  | some driver =>
    simp only
    split
    · exact Powered.refl s'
    · next hcab =>
      split
      · next hdc =>
        rw [wp_bind]
        apply DCC.wp_getThrottleFrequency (by rw [hs'.locos]; exact h)
        intro frequency
        apply wp_driveTrack_powered
        intro hlocked other hother _ hpin
        rw [hdriver, Option.some.injEq] at hother
        subst hother
        -- the driver obeyed the cab before the loop, too
        obtain ⟨old, hold, hrole⟩ := hs'.exists_driver (List.mem_of_getElem? hdriver)
        simp only [MotorDriver.role, Prod.mk.injEq] at hrole
        refine hstop (hs'.held.lock.symm.trans hlocked) old hold ⟨?_, ?_, ?_⟩
        · rw [hrole.2.2]; tauto
        · rw [MotorDriver.isDC, hrole.2.1]; exact hdc
        · rw [hrole.1]; exact hpin
      · exact Powered.refl s'

/-- The loco with this DC address, if there is one, is not moving. -/
def Halted (s : Station) (dcAddr : Int16) : Prop :=
  ∀ a ∈ s.locos.slots, (s.locos.mem a).loco = dcAddr.toUInt16 →
    isStop (s.locos.mem a).speedCode = true

instance (s : Station) (dcAddr : Int16) : Decidable (Halted s dcAddr) :=
  inferInstanceAs (Decidable (∀ a ∈ _, _))

theorem wp_applyDCSpeed_powered (h : Lists s.locos xs ys) (t : Nat) {dcAddr : Int16}
    (hstop : s.estopIsLocked = true → Halted s dcAddr) :
    wp (fun _ => True) (applyDCSpeed t dcAddr) (fun _ => Powered s) s := by
  simp only [applyDCSpeed, wp_bind]
  refine wp_mono (DCC.wp_lookup h dcAddr.toUInt16) ?_
  rintro speedcode _ ⟨rfl, hfound⟩
  apply DCC.wp_getThrottleFrequency h
  intro frequency
  apply wp_driveTrack_powered
  intro hlocked _ _ _ _
  rcases hfound with ⟨a, ha, hid, rfl⟩ | ⟨-, rfl⟩
  · rw [← h.slots_eq] at ha
    exact hstop hlocked a ha hid
  · rfl

/-- The end of the power functions: the DC speed is applied, then the power is set. -/
theorem wp_power_powered (h : Lists s.locos xs ys) (t : Nat) {c : Prop} [Decidable c]
    {dcAddr : Int16} (powermode : PowerMode)
    (hstop : s.estopIsLocked = true → c → Halted s dcAddr) :
    wp (fun _ => True) (do
      when c (applyDCSpeed t dcAddr)
      setTrack t fun driver => { driver with powerMode := powermode }) (fun _ => Powered s) s := by
  rw [wp_bind]
  apply wp_when
  · intro hc
    refine wp_mono (wp_applyDCSpeed_powered h t fun hlocked => hstop hlocked hc) ?_
    intro _ s₁ h₁
    exact wp_mono (wp_setTrack_powered t fun _ => rfl) fun _ s₂ h₂ => h₁.trans h₂
  · intro _
    exact wp_setTrack_powered t fun _ => rfl

/-- Under the lock, tracks that get power are not made to drive if the locos of the DC tracks are halted. -/
theorem setTrackPower_powered (h : Lists s.locos xs ys) (trackmodeToMatch : UInt8)
    (powermode : PowerMode)
    (hstop : s.estopIsLocked = true → powermode = .on → ∀ driver ∈ s.tracks,
      TrackMode.has driver.trackMode trackmodeToMatch = true → driver.isDC = true →
      Halted s driver.dcAddr) :
    wp (fun _ => True) (setTrackPower trackmodeToMatch powermode) (fun _ => Powered s) s := by
  apply wp_forEachTrack_powered
  intro t s' hs'
  simp only [setTrackPowerOn, wp_bind, wp_get]
  cases hdriver : s'.tracks[t]? with
  | none => exact Powered.refl s'
  | some driver =>
    simp only
    split
    · next hmatch =>
      apply wp_power_powered (by rw [hs'.locos]; exact h)
      intro hlocked hdc
      obtain ⟨old, hold, hrole⟩ := hs'.exists_driver (List.mem_of_getElem? hdriver)
      simp only [MotorDriver.role, Prod.mk.injEq] at hrole
      have hhalted := hstop (hs'.held.lock.symm.trans hlocked) hdc.1 old hold
        (by rw [hrole.2.1]; exact hmatch) (by rw [MotorDriver.isDC, hrole.2.1]; exact hdc.2)
      rw [Halted, hs'.locos, ← hrole.2.2]
      exact hhalted
    · exact Powered.refl s'

/-- Under the lock, a track that gets power is not made to drive if its loco is halted. -/
theorem setPowerOfTrack_powered (h : Lists s.locos xs ys) (powermode : PowerMode) (t : Nat)
    (hstop : s.estopIsLocked = true → powermode = .on → ∀ driver, s.tracks[t]? = some driver →
      TrackMode.has driver.trackMode TrackMode.none = false → driver.isDC = true →
      Halted s driver.dcAddr) :
    wp (fun _ => True) (setPowerOfTrack powermode t) (fun _ => Powered s) s := by
  simp only [setPowerOfTrack, wp_bind, wp_get]
  cases hdriver : s.tracks[t]? with
  | none => exact Powered.refl s
  | some driver =>
    simp only
    split
    · exact wp_setTrack_powered t fun _ => rfl
    · next hused =>
      apply wp_power_powered h
      intro hlocked hdc
      exact hstop hlocked hdc.2 driver hdriver (Bool.not_eq_true _ ▸ hused) hdc.1

/-- Under the lock, a track that becomes DC is not made to drive if its loco is halted. -/
theorem setTrackMode_held (h : Lists s.locos xs ys) (trackToSet : Nat) (mode : UInt8)
    (dcAddr : Int16) (offAtChange : Bool)
    (hstop : s.estopIsLocked = true → ∀ driver, s.tracks[trackToSet]? = some driver →
      ¬ (s.platform = .uno ∨ driver.brakeCanPWM = false) →
      TrackMode.has mode TrackMode.dc = true → Halted s dcAddr) :
    wp (fun _ => True) (setTrackMode trackToSet mode dcAddr offAtChange) (fun _ => Held s) s := by
  simp only [setTrackMode, wp_bind, wp_get]
  cases hdriver : s.tracks[trackToSet]? with
  | none => exact Held.refl s
  | some driver =>
    simp only
    split
    · exact Held.refl s
    · next hallowed =>
      -- up to the point where the speed of the loco is applied the loco table stays
      have hprefix : Preserves Tracked (do
          when (TrackMode.has mode TrackMode.prog) (forEachTrack (revokeProg trackToSet))
          clearPrevious trackToSet driver.dcAddr mode dcAddr
          setTrack trackToSet fun driver => { driver with trackMode := mode }) :=
        preserves_bind (preserves_when fun _ => tracked_revokeProgs trackToSet) fun _ =>
          preserves_bind (tracked_clearPrevious trackToSet _ mode dcAddr) fun _ =>
            tracked_setTrack trackToSet _
      have hrun := hprefix s
      simp only [wp_bind, wp_pure] at hrun ⊢
      refine wp_mono hrun fun _ s₁ h₁ => wp_mono h₁ fun _ s₂ h₂ => wp_mono h₂ ?_
      intro _ s₃ h₃
      have hpower : ∀ s₄, Held s s₄ → wp (fun _ => True)
          (when (mode ≠ driver.trackMode ∧ offAtChange)
            (setTrack trackToSet fun driver => { driver with powerMode := .off }))
          (fun _ => Held s) s₄ := by
        intro s₄ h₄
        apply wp_when
        · intro _
          exact wp_mono (tracked_setTrack trackToSet _ s₄) fun _ s₅ h₅ => h₄.trans h₅.held
        · exact fun _ => h₄
      apply wp_when
      · intro hdc
        refine wp_mono (wp_applyDCSpeed_powered (by rw [h₃.locos]; exact h) trackToSet ?_) ?_
        · intro hlocked
          rw [Halted, h₃.locos]
          exact hstop (h₃.held.lock.symm.trans hlocked) driver hdriver
            (fun hno => hallowed ⟨hdc, hno⟩) hdc
        · exact fun _ s₄ h₄ => hpower s₄ (h₃.held.trans h₄.held)
      · exact fun _ => hpower s₃ h₃.held

end TrackManager

/-! ## Throttles, functions and reminders -/

namespace DCC

theorem isEstop_estopCode (speedCode : UInt8) : isEstop (estopCode speedCode) = true := by
  have hbits : (speedCode &&& 0x80 ||| 0x01) &&& 0x7F = 0x01 := by
    apply UInt8.toBitVec_inj.mp
    show (speedCode.toBitVec &&& 0x80 ||| 0x01) &&& 0x7F = 0x01
    rw [BitVec.and_or_distrib_right, BitVec.and_assoc]
    exact BitVec.and_zero ▸ BitVec.zero_or
  exact beq_iff_eq.mpr hbits

/-- The call that sends a speed code while the lock is set. -/
theorem kind_speedCall_estopCode (cab : UInt16) (globalSpeedsteps speedCode : UInt8) :
    (speedCall cab globalSpeedsteps (estopCode speedCode)).kind ≠ some .speed := by
  rw [speedCall, if_pos (isEstop_estopCode speedCode)]
  exact fun h => by cases h

theorem wp_sendSpeed_held (cab : UInt16) (speedCode : UInt8) :
    wp (fun _ => True) (sendSpeed cab (blocked s speedCode)) (fun _ => Held s) s := by
  simp only [wp_sendSpeed]
  refine ⟨rfl, ⟨[_], rfl, ?_⟩, ⟨[], rfl, fun _ _ h => by cases h⟩⟩
  intro hlocked c hc
  rw [List.mem_singleton.mp hc, blocked, if_pos hlocked]
  exact kind_speedCall_estopCode cab _ speedCode

/-- **The lock blocks throttles**: `setThrottleDCC` sends emergency stops only. -/
theorem held_setThrottleDCC (slot : Option Addr) (speedCode : UInt8) :
    Preserves Held (setThrottleDCC slot speedCode) := by
  apply preserves_get_bind
  intro s
  cases slot with
  | none => exact wp_sendSpeed_held 0 speedCode
  | some a =>
    simp only [wp_bind, wp_onSlots]
    by_cases ha : s.locos.live a = true
    · rw [wp_readSlot ha]
      exact wp_sendSpeed_held _ _
    · simp [readSlot, ha]

theorem held_updateSlots (field : LocoSlot → Option Addr) (f : LocoSlot → LocoSlot)
    {send : Addr → Dcc Unit} (hsend : ∀ a, Preserves Held (send a)) (start : Option Addr) :
    Preserves Held (updateSlots field f send start) := by
  apply held_followSlots
  intro a _
  exact preserves_bind (held_onSlots _) fun _ => preserves_bind (hsend a) fun _ =>
    preserves_bind (held_onSlots _) fun _ => preserves_pure _

theorem held_setThrottle2 (slot : Addr) (speedCode : UInt8) :
    Preserves Held (setThrottle2 slot speedCode) :=
  held_updateSlots _ _ (fun a => held_setThrottleDCC (some a) speedCode) _

/-- A stop for all DC tracks. -/
theorem held_stopTracks : Preserves Held (TrackManager.setDCSignal 0 1) := by
  intro s
  exact wp_mono (TrackManager.heldAt_setDCSignal 0 (fun _ => rfl) s) fun _ s' hs' => hs' rfl

theorem held_estopAll : Preserves Held estopAll :=
  preserves_bind (held_setThrottleDCC none 1) fun _ =>
    preserves_bind held_stopTracks fun _ =>
      held_read fun _ => held_updateSlots _ _ (fun _ => preserves_pure ()) _

/-- Under the lock a throttle sends no speed. -/
theorem held_throttleTo (slot : Addr) (cab : UInt16) (tSpeed speedCode : UInt8) (now : UInt32) :
    Preserves Held (throttleTo slot cab tSpeed speedCode now) := by
  refine preserves_bind (held_onSlots _) fun _ => preserves_bind (held_onSlots _) fun lead =>
    preserves_bind (held_updateSlots _ _ (fun _ => preserves_pure ()) _) fun _ =>
      preserves_bind (held_onSlots _) fun lead' => held_get fun s => ?_
  apply preserves_ite
  · intro _
    exact heldAt (held_onSlots _)
  · intro _
    apply preserves_bind (heldAt (held_setThrottle2 slot speedCode))
    intro _
    apply preserves_when
    intro hunlocked
    apply TrackManager.heldAt_setDCSignal
    intro hlocked
    rw [hunlocked] at hlocked
    cases hlocked

/-- The operations that ask for a slot and go on with it. -/
theorem held_askSlot {α : Type} {locoId : UInt16} {create : Bool} {f : Option Addr → Dcc α}
    (hnone : Preserves Held (f none)) (hsome : ∀ a, Preserves Held (f (some a))) :
    Preserves Held (onSlots (LocoSlot.getSlot locoId create) >>= f) := by
  apply preserves_bind (held_onSlots _)
  intro slot
  cases slot with
  | none => exact hnone
  | some a => exact hsome a

theorem held_setThrottle (cab : UInt16) (tSpeed : UInt8) (tDirection : Bool) (now : UInt32) :
    Preserves Held (setThrottle cab tSpeed tDirection now) := by
  apply preserves_ite
  · intro _
    exact preserves_bind held_estopAll fun _ => preserves_pure true
  · intro _
    apply held_askSlot (preserves_pure false)
    intro a
    apply preserves_bind (held_onSlots _)
    intro slot
    refine preserves_ite (fun _ => preserves_pure true) fun _ =>
      preserves_ite (fun _ => preserves_pure true) fun _ => ?_
    exact preserves_bind (held_throttleTo a cab tSpeed _ now) fun _ => preserves_pure true

theorem held_setFn (cab : Int) (functionNumber : Int16) (on : Bool) :
    Preserves Held (setFn cab functionNumber on) := by
  refine preserves_ite (fun _ => preserves_pure false) fun _ => ?_
  apply preserves_bind (preserves_when fun _ => held_schedule fun h => by cases h)
  intro _
  refine preserves_ite (fun _ => preserves_pure true) fun _ => ?_
  apply held_askSlot (preserves_pure false)
  intro a
  exact preserves_bind (held_onSlots _) fun _ => preserves_pure true

theorem held_setDCFreq (cab : Int) (freq : UInt8) : Preserves Held (setDCFreq cab freq) := by
  refine preserves_ite (fun _ => preserves_pure ()) fun _ => ?_
  exact held_askSlot (preserves_pure ()) fun a => held_onSlots _

theorem held_setMomentum (locoId : Int) (accelerating decelerating : Int16) :
    Preserves Held (setMomentum locoId accelerating decelerating) := by
  refine preserves_ite (fun _ => preserves_pure false) fun _ => preserves_ite (fun _ => ?_)
    fun _ => preserves_ite (fun _ => preserves_pure false) fun _ =>
      preserves_ite (fun _ => preserves_pure false) fun _ => ?_
  · refine preserves_ite (fun _ => preserves_pure false) fun _ => ?_
    exact preserves_bind (held_modify (fun _ => rfl) (fun _ => rfl) (fun _ => rfl))
      fun _ => preserves_pure true
  · apply held_askSlot (preserves_pure false)
    intro a
    exact preserves_bind (held_onSlots _) fun _ => preserves_pure true

/-- Under the lock a reminder sends no speed. -/
theorem held_remindSpeed (a : Addr) (now : UInt32) : Preserves Held (remindSpeed a now) := by
  refine preserves_bind (held_onSlots _) fun slot => held_get fun s => ?_
  apply preserves_ite
  · intro _
    apply preserves_bind (heldAt (held_onSlots _))
    intro _
    apply preserves_bind
    · -- the DC tracks are left alone while the lock is set
      apply preserves_when
      intro hunlocked
      apply TrackManager.heldAt_setDCSignal
      intro hlocked
      rw [hunlocked] at hlocked
      cases hlocked
    · intro _
      exact preserves_bind (heldAt (held_onSlots _)) fun _ => heldAt (held_setThrottle2 a _)
  · intro _
    exact heldAt (held_setThrottle2 a _)

theorem held_issueReminder (a : Addr) (now : UInt32) : Preserves Held (issueReminder a now) := by
  refine preserves_bind (held_onSlots _) fun slot => held_read fun s => ?_
  apply preserves_ite
  · intro _
    refine preserves_ite (fun _ => preserves_pure false) fun _ => ?_
    exact preserves_bind (held_remindSpeed a now) fun _ => preserves_pure true
  · intro _
    cases groupOfLoopStatus s.loopStatus with
    | none => exact preserves_pure false
    | some group =>
      refine preserves_ite (fun _ => ?_) fun _ => preserves_pure false
      exact preserves_bind (held_schedule fun h => by cases h) fun _ => preserves_pure true

theorem held_remindFrom (start : Option Addr) (now : UInt32) :
    Preserves Held (remindFrom start now) := by
  apply held_followSlots
  intro a _
  refine preserves_bind (held_issueReminder a now) fun sent =>
    preserves_bind (held_onSlots _) fun slot => ?_
  exact preserves_ite (fun _ => preserves_pure _) fun _ => preserves_pure _

theorem held_issueReminders (now : UInt32) : Preserves Held (issueReminders now) := by
  have hremind : ∀ start, Preserves Held (do
      let next ← remindFrom start now
      modify fun s => { s with nextLocoReminder := next }) := fun start =>
    preserves_bind (held_remindFrom start now) fun _ =>
      held_modify (fun _ => rfl) (fun _ => rfl) (fun _ => rfl)
  refine held_read fun s => preserves_ite (fun _ => ?_) fun _ => hremind s.nextLocoReminder
  refine preserves_bind (held_modify (fun _ => rfl) (fun _ => rfl) (fun _ => rfl)) fun _ => ?_
  refine preserves_ite (fun _ => preserves_pure ()) fun _ => ?_
  exact preserves_bind (held_modify (fun _ => rfl) (fun _ => rfl) (fun _ => rfl))
    fun _ => hremind s.locos.firstSlot

theorem held_loop (windowOpen : Bool) (pendingAt remindAt forcedAt : UInt32) :
    Preserves Held (loop windowOpen pendingAt remindAt forcedAt) := by
  apply preserves_when
  intro _
  apply preserves_bind (held_scheduleNext false pendingAt)
  intro sent
  apply preserves_when
  intro _
  exact preserves_bind (held_issueReminders remindAt) fun _ =>
    preserves_bind (held_scheduleNext true forcedAt) fun _ => preserves_pure ()

theorem held_forgetLoco (cab : Int) : Preserves Held (forgetLoco cab) := by
  apply held_askSlot (preserves_pure ())
  intro a
  refine preserves_bind (held_setThrottleDCC (some a) 1) fun _ =>
    preserves_bind (held_onSlots _) fun slot => preserves_bind ?_ fun _ =>
      preserves_bind (preserves_when fun _ => held_onSlots _) fun _ => held_onSlots _
  -- the reminder pointer moves on
  apply preserves_modify
  intro s
  split <;> exact Held.of_same rfl rfl rfl

theorem held_forgetAllLocos : Preserves Held forgetAllLocos :=
  preserves_bind (held_setThrottleDCC none 1) fun _ => preserves_bind (held_onSlots _) fun _ =>
    held_modify (fun _ => rfl) (fun _ => rfl) (fun _ => rfl)

theorem held_setAccessory (address : Int) (port : UInt8) (gate : Bool) (onoff : UInt8) :
    Preserves Held (setAccessory address port gate onoff) := by
  refine preserves_ite (fun _ => preserves_pure ()) fun _ => preserves_ite
    (fun _ => held_schedule fun h => by cases h) fun _ => preserves_ite
      (fun _ => held_schedule fun h => by cases h) fun _ => held_schedule fun h => by cases h

end DCC

/-! ## The decoder and the throttle clients -/

namespace DCCDecoder

theorem held_speedChange (addr : UInt16) (sniffed speed : UInt8) (direction : Bool)
    (now : UInt32) : Preserves Held (speedChange addr sniffed speed direction now) := by
  refine preserves_bind (held_onSlots _) fun changed =>
    preserves_ite (fun _ => ?_) fun _ => preserves_pure false
  exact preserves_bind (DCC.held_setThrottle addr speed direction now) fun _ => preserves_pure true

theorem held_funcmapFrom (cab i : Int16) (n : Nat) (value : UInt8) :
    Preserves Held (DCCEXParser.funcmapFrom cab i n value) := by
  induction n generalizing i value with
  | zero => exact preserves_pure true
  | succ n ih =>
    exact preserves_bind (DCC.held_setFn _ _ _) fun done =>
      preserves_ite (fun _ => ih _ _) fun _ => preserves_pure false

theorem held_functionChange (addr : UInt16) (func : UInt8) (shift : Nat)
    (value fstart fstop : UInt8) :
    Preserves Held (functionChange addr func shift value fstart fstop) := by
  refine preserves_bind (held_onSlots _) fun changed =>
    preserves_ite (fun _ => ?_) fun _ => preserves_pure false
  exact preserves_bind (held_funcmapFrom _ _ _ _) fun _ => preserves_pure true

theorem held_mobile (addr : UInt16) (instr0 instr1 : UInt8) (now : UInt32) :
    Preserves Held (mobile addr instr0 instr1 now) := by
  unfold mobile
  extract_lets group
  refine preserves_ite (fun _ => preserves_ite (fun _ => held_speedChange _ _ _ _ _)
    fun _ => preserves_pure false) fun _ => ?_
  refine preserves_ite (fun _ => held_speedChange _ _ _ _ _) fun _ => ?_
  refine preserves_ite (fun _ => held_functionChange _ _ _ _ _ _) fun _ => ?_
  refine preserves_ite (fun _ => preserves_ite (fun _ => held_functionChange _ _ _ _ _ _)
    fun _ => held_functionChange _ _ _ _ _ _) fun _ => ?_
  refine preserves_ite (fun _ => preserves_bind (held_functionChange _ _ _ _ _ _)
    fun _ => held_functionChange _ _ _ _ _ _) fun _ => ?_
  exact preserves_ite (fun _ => preserves_bind (held_functionChange _ _ _ _ _ _)
    fun _ => held_functionChange _ _ _ _ _ _) fun _ => preserves_pure false

theorem held_parse (p : DCCPacket) (now : UInt32) : Preserves Held (parse p now) := by
  refine held_read fun s => preserves_ite (fun _ => preserves_pure false) fun _ =>
    preserves_ite (fun _ => preserves_pure false) fun _ => preserves_ite (fun _ => ?_) fun _ =>
      preserves_ite (fun _ => ?_) fun _ => ?_
  · exact preserves_ite (fun _ => preserves_pure false) fun _ => held_mobile _ _ _ _
  · exact preserves_ite (fun _ => preserves_pure false) fun _ => held_mobile _ _ _ _
  · refine preserves_ite (fun _ => ?_) fun _ => preserves_pure false
    exact preserves_bind (DCC.held_setAccessory _ _ _ _) fun _ => preserves_pure true

end DCCDecoder

namespace WiThrottle

theorem held_sendFunctions (throttleChar : Char) (locoid : Int) (fKeys : List Nat) :
    Preserves Held (sendFunctions throttleChar locoid fKeys) := by
  induction fKeys with
  | nil => exact preserves_pure ""
  | cons fKey rest ih =>
    refine preserves_bind ?_ fun fstate => preserves_bind ih fun lines => preserves_pure _
    exact preserves_ite (fun _ => preserves_pure none) fun _ => held_onSlots _

theorem held_addLoco (client : WiThrottle) (throttleChar lengthChar : Char) (locoid : Int) :
    Preserves Held (addLoco client throttleChar lengthChar locoid) := by
  refine preserves_ite (fun _ => preserves_pure _) fun _ => preserves_ite
    (fun _ => preserves_pure _) fun _ => preserves_ite (fun _ => preserves_pure _) fun _ =>
      preserves_ite (fun _ => preserves_pure _) fun _ => ?_
  refine DCC.held_askSlot (preserves_pure _) fun a => ?_
  cases client.myLocos.findIdx? fun loco => loco.throttle == '\x00' with
  | none => exact preserves_pure _
  | some i =>
    refine preserves_bind ?_ fun functionMap =>
      preserves_bind (held_sendFunctions throttleChar locoid _) fun functions => preserves_pure _
    exact preserves_ite (fun _ => preserves_pure 0) fun _ => held_onSlots _

end WiThrottle

/-! ## Operations under the lock -/

open TrackManager in
/-- What the lock does not take care of. When it is set, no speed packet may sit in a delayed
coil-off slot; while it is set, no DC track may be switched on or given to a loco that has a speed,
and no DC signal may be sent past `DCC`. -/
def LockSafe (s : Station) : Op → Prop
  | .estopLock true => s.estopIsLocked = false → DCCQueue.EstopReaches 0 s.queue
  | .setTrackMode track mode dcAddr _ => s.estopIsLocked = true →
      ∀ driver ∈ s.tracks[track]?, ¬ (s.platform = .uno ∨ driver.brakeCanPWM = false) →
      TrackMode.has mode TrackMode.dc = true → Halted s dcAddr
  | .setTrackPower trackmodeToMatch powermode => s.estopIsLocked = true → powermode = .on →
      ∀ driver ∈ s.tracks, TrackMode.has driver.trackMode trackmodeToMatch = true →
      driver.isDC = true → Halted s driver.dcAddr
  | .setPowerOfTrack powermode track => s.estopIsLocked = true → powermode = .on →
      ∀ driver ∈ s.tracks[track]?, TrackMode.has driver.trackMode TrackMode.none = false →
      driver.isDC = true → Halted s driver.dcAddr
  | .setDCSignal cab speedbyte => s.estopIsLocked = true →
      ∀ driver ∈ s.tracks, driver.Hears cab → isStop speedbyte = true
  | _ => True

instance decidableLockSafe (s : Station) : ∀ op, Decidable (LockSafe s op)
  | .estopLock true => inferInstanceAs (Decidable (_ → DCCQueue.EstopReaches 0 s.queue))
  | .setTrackMode track .. => inferInstanceAs (Decidable (_ → ∀ driver ∈ s.tracks[track]?, _))
  | .setTrackPower .. => inferInstanceAs (Decidable (_ → _ → ∀ driver ∈ s.tracks, _))
  | .setPowerOfTrack _ track =>
    inferInstanceAs (Decidable (_ → _ → ∀ driver ∈ s.tracks[track]?, _))
  | .setDCSignal .. => inferInstanceAs (Decidable (_ → ∀ driver ∈ s.tracks, _))
  | .setThrottle .. | .setFn .. | .setDCFreq .. | .setMomentum .. | .estopAll | .estopLock false
  | .loop .. | .forgetLoco .. | .forgetAllLocos | .parseConsist .. | .addLocoToConsist ..
  | .deleteAnyConsist .. | .setAccessory .. | .decoderOnOff .. | .decode .. | .addThrottleLoco .. =>
    isTrue trivial

/-- **The lock is held** by every operation but `estopLock`. -/
theorem op_held (hs : Sound s) (op : Op) (hsafe : LockSafe s op) (hlock : ∀ b, op ≠ .estopLock b) :
    wp (fun _ => True) op.exec (fun _ => Held s) s := by
  obtain ⟨xs, ys, h, -⟩ := hs.table
  have hvoid : ∀ {m : Dcc Unit}, Preserves Held m → Preserves Held (do m; pure true) :=
    fun hm => preserves_bind hm fun _ => preserves_pure true
  have hpower : ∀ {m : Dcc Unit}, wp (fun _ => True) m (fun _ => Powered s) s →
      wp (fun _ => True) (do m; pure true) (fun _ => Held s) s := by
    intro m hm
    rw [wp_bind]
    exact wp_mono hm fun _ s' hs' => hs'.held
  cases op with
  | setThrottle cab tSpeed tDirection now => exact DCC.held_setThrottle cab tSpeed tDirection now s
  | setFn cab functionNumber on => exact DCC.held_setFn cab functionNumber on s
  | setDCFreq cab freq => exact hvoid (DCC.held_setDCFreq cab freq) s
  | setMomentum locoId accelerating decelerating =>
    exact DCC.held_setMomentum locoId accelerating decelerating s
  | estopAll => exact hvoid DCC.held_estopAll s
  | estopLock lock => exact absurd rfl (hlock lock)
  | loop windowOpen pendingAt remindAt forcedAt =>
    exact hvoid (DCC.held_loop windowOpen pendingAt remindAt forcedAt) s
  | forgetLoco cab => exact hvoid (DCC.held_forgetLoco cab) s
  | forgetAllLocos => exact hvoid DCC.held_forgetAllLocos s
  | parseConsist ps => exact preserves_bind (held_onSlots _) (fun _ => preserves_pure _) s
  | addLocoToConsist consistId locoId reversed => exact held_onSlots _ s
  | deleteAnyConsist locoid => exact hvoid (held_onSlots _) s
  | setAccessory address port gate onoff =>
    exact hvoid (DCC.held_setAccessory address port gate onoff) s
  | setTrackMode track mode dcAddr offAtChange =>
    exact TrackManager.setTrackMode_held h track mode dcAddr offAtChange hsafe
  | setTrackPower trackmodeToMatch powermode =>
    exact hpower (TrackManager.setTrackPower_powered h trackmodeToMatch powermode hsafe)
  | setPowerOfTrack powermode track =>
    exact hpower (TrackManager.setPowerOfTrack_powered h powermode track hsafe)
  | setDCSignal cab speedbyte =>
    exact hpower (TrackManager.wp_setDCSignal_powered h cab speedbyte hsafe)
  | decoderOnOff on => exact Held.of_same rfl rfl rfl
  | decode packet now => exact DCCDecoder.held_parse packet now s
  | addThrottleLoco client throttleChar lengthChar locoid =>
    exact preserves_bind (WiThrottle.held_addLoco client throttleChar lengthChar locoid)
      (fun _ => preserves_pure _) s

/-! ## Since the lock was set -/

/-- A speed packet; emergency stops are not. -/
def isSpeed (o : DCCQueue.Origin) : Prop := o.kind = .speed

/-- What has happened since the lock was set in `s₀`, or before. -/
structure Locked (s₀ s : Station) : Prop where
  lock : s.estopIsLocked = true
  packets : DCCQueue.Silent isSpeed s₀.queue s.queue
  signals : ∃ new, s.dcSignals = new ++ s₀.dcSignals ∧ ∀ signal ∈ new, signal.Harmless

theorem silent_run {q₀ q : DCCQueue.State} (h : DCCQueue.Silent isSpeed q₀ q)
    (cs : List DCCQueue.Call) (hcs : ∀ c ∈ cs, c.kind ≠ some .speed) :
    DCCQueue.Silent isSpeed q₀ (run DCCQueue.step q cs) := by
  induction cs generalizing q with
  | nil => exact h
  | cons c cs ih =>
    apply ih
    · apply DCCQueue.silent_step c _ h
      intro o hkind _ hspeed
      rw [hspeed] at hkind
      exact hcs c List.mem_cons_self hkind
    · exact fun d hd => hcs d (List.mem_cons_of_mem c hd)

theorem Locked.held {s₀ : Station} (h : Locked s₀ s) (hs : Held s s') : Locked s₀ s' := by
  obtain ⟨cs, hqueue, hcs⟩ := hs.fed
  obtain ⟨new, hsignals, hnew⟩ := h.signals
  obtain ⟨new', hsignals', hnew'⟩ := hs.signals
  refine ⟨hs.lock.trans h.lock, ?_, ⟨new' ++ new, ?_, ?_⟩⟩
  · rw [hqueue]
    exact silent_run h.packets cs (hcs h.lock)
  · rw [hsignals', hsignals, List.append_assoc]
  · intro signal hsignal
    rcases List.mem_append.mp hsignal with hsignal | hsignal
    · exact hnew' h.lock signal hsignal
    · exact hnew signal hsignal

/-- The invariant of all histories. -/
structure LockInv (s : Station) : Prop where
  sound : Sound s
  history : ∃ cs, s.queue = DCCQueue.after cs
  clean : s.estopIsLocked = true → ∀ pr, ∀ p ∈ s.queue.queue pr, ¬ isSpeed p.origin

/-- In a state with the lock set nothing has happened yet. -/
theorem LockInv.locked (h : LockInv s) (hlocked : s.estopIsLocked = true) : Locked s s :=
  ⟨hlocked, ⟨h.clean hlocked, [], rfl, fun _ _ _ hno => by cases hno⟩,
    ⟨[], rfl, fun _ hno => by cases hno⟩⟩

theorem LockInv.held (h : LockInv s) (hs : Held s s') (hsound : Sound s') : LockInv s' := by
  refine ⟨hsound, ?_, ?_⟩
  · obtain ⟨cs, hcs⟩ := h.history
    obtain ⟨cs', hqueue, -⟩ := hs.fed
    exact ⟨cs ++ cs', by rw [hqueue, hcs, DCCQueue.after, DCCQueue.after, run_append]⟩
  · intro hlocked
    exact ((h.locked (hs.lock.symm.trans hlocked)).held hs).packets.clean

/-- The emergency stop for all locos throws every speed packet out of the queue. -/
theorem silent_estopAll {q : DCCQueue.State} (hq : ∃ cs, q = DCCQueue.after cs)
    (hreach : DCCQueue.EstopReaches 0 q) (packet : List UInt8) (repeats : Nat) :
    DCCQueue.Silent isSpeed q (DCCQueue.step q (.scheduleEstopPacket packet repeats 0)) := by
  obtain ⟨cs, rfl⟩ := hq
  have hestop := DCCQueue.silent_estop (DCCQueue.kindsHold_after cs) hreach packet repeats
  have hnumbered := DCCQueue.slotInv_numbered.everywhere_step
    (.scheduleEstopPacket packet repeats 0) (DCCQueue.numbered_after cs)
  refine ⟨fun pr p hp hspeed => ?_, [], rfl, fun _ _ _ hno => by cases hno⟩
  exact hestop.clean pr p hp ⟨hspeed, .inl rfl, hnumbered.pending pr p hp⟩

/-- **Setting the lock** in any state. -/
theorem estopLock_locks (h : LockInv s) (hsafe : LockSafe s (.estopLock true)) :
    wp (fun _ => True) (DCC.estopLock true)
      (fun _ s' => Locked s s' ∧ ∃ cs, s'.queue = DCCQueue.after cs) s := by
  simp only [DCC.estopLock, wp_bind, wp_get]
  split
  · next hlocked => exact ⟨h.locked hlocked, h.history⟩
  · next hunlocked =>
    let packet := DCC.speedPacket 0 s.globalSpeedsteps (DCC.estopCode 1)
    have hcall : DCC.speedCall 0 s.globalSpeedsteps
        (DCC.blocked { s with estopIsLocked := true } 1) =
          .scheduleEstopPacket packet.bytes 4 0 := by
      rw [DCC.blocked, if_pos rfl, DCC.speedCall, if_pos (DCC.isEstop_estopCode 1)]
    simp only [when, if_true, wp_bind, wp_modify]
    rw [DCC.wp_setThrottleDCC_none, hcall]
    refine wp_mono (DCC.held_stopTracks _) ?_
    intro _ s' hs'
    have hsilent := silent_estopAll h.history (hsafe (Bool.not_eq_true _ ▸ hunlocked))
      packet.bytes 4
    obtain ⟨cs, hcs⟩ := h.history
    obtain ⟨cs', hqueue, -⟩ := hs'.fed
    refine ⟨Locked.held ?_ hs', cs ++ .scheduleEstopPacket packet.bytes 4 0 :: cs', ?_⟩
    · exact ⟨rfl, hsilent, ⟨[], rfl, fun _ hno => by cases hno⟩⟩
    · rw [hqueue, DCCQueue.after, run_append, ← DCCQueue.after, ← hcs]
      rfl

/-- Every operation keeps the invariant. -/
theorem lockInv_step (h : LockInv s) (op : Op) (hsafe : LockSafe s op) :
    wp (fun _ => True) op.exec (fun _ => LockInv) s := by
  have hsound := op_sound (F := fun _ => True) h.sound op fun _ _ => trivial
  by_cases hlock : ∀ b, op ≠ .estopLock b
  · refine wp_mono (wp_and hsound (op_held h.sound op hsafe hlock)) ?_
    intro _ s' hs'
    exact h.held hs'.2 hs'.1
  · simp only [ne_eq, not_forall, not_not] at hlock
    obtain ⟨lock, rfl⟩ := hlock
    cases lock with
    | true =>
      have hlocks := estopLock_locks h hsafe
      simp only [Op.exec, wp_bind, wp_pure] at hsound ⊢
      refine wp_mono (wp_and hsound hlocks) ?_
      intro _ s' hs'
      exact ⟨hs'.1, hs'.2.2, fun _ => hs'.2.1.packets.clean⟩
    | false =>
      -- the lock is taken off, or was not set
      have hoff : wp (fun _ => True) (DCC.estopLock false)
          (fun _ s' => s'.estopIsLocked = false ∧ s'.queue = s.queue) s := by
        simp only [DCC.estopLock, wp_bind, wp_get]
        split
        · next hunlocked => exact ⟨hunlocked, rfl⟩
        · exact ⟨rfl, rfl⟩
      simp only [Op.exec, wp_bind, wp_pure] at hsound ⊢
      refine wp_mono (wp_and hsound hoff) ?_
      intro _ s' hs'
      obtain ⟨hsound', hunlocked, hqueue⟩ := hs'
      refine ⟨hsound', by rw [hqueue]; exact h.history, fun hlocked => ?_⟩
      rw [hunlocked] at hlocked
      cases hlocked

theorem lockInv_init (platform : Platform) (maxLocos : Nat) (brakePins : List BrakePin) :
    LockInv (Station.init platform maxLocos brakePins) :=
  ⟨sound_init platform maxLocos brakePins, ⟨[], rfl⟩, fun hlocked => by cases hlocked⟩

/-! ## The lock in every history -/

/-- The signals given to tracks since the log had the length it has in `s`, newest first. -/
def signalsSince (s s' : Station) : List DCSignal :=
  s'.dcSignals.take (s'.dcSignals.length - s.dcSignals.length)

/-- The packet of this hand-over is a speed packet. -/
def DCCQueue.HandOver.isSpeed : DCCQueue.HandOver → Bool
  | .idle _ => false
  | .slot p _ _ => p.origin.kind == .speed

/-- Between the two states no speed packet is sent and no DC track is made to drive. -/
structure StaysStopped (s s' : Station) : Prop where
  packets : ∀ handOver ∈ DCCQueue.handedSince s.queue s'.queue, handOver.isSpeed = false
  signals : ∀ signal ∈ signalsSince s s', signal.Harmless

instance (s s' : Station) : Decidable (StaysStopped s s') :=
  decidable_of_iff ((∀ handOver ∈ DCCQueue.handedSince s.queue s'.queue,
    handOver.isSpeed = false) ∧ ∀ signal ∈ signalsSince s s', signal.Harmless)
    ⟨fun h => ⟨h.1, h.2⟩, fun h => ⟨h.1, h.2⟩⟩

theorem Locked.staysStopped (h : Locked s s') : StaysStopped s s' := by
  constructor
  · intro handOver hmem
    cases handOver with
    | idle now => rfl
    | slot p r now => exact beq_eq_false_iff_ne.mpr (h.packets.not_mem_handedSince hmem)
  · obtain ⟨new, hsignals, hnew⟩ := h.signals
    rw [signalsSince, hsignals, List.length_append, Nat.add_sub_cancel, List.take_left]
    exact hnew

/-- What a safe call under the lock keeps. -/
theorem locked_step {s₀ : Station} (h : LockInv s) (hlocked : Locked s₀ s) (op : Op)
    (hsafe : LockSafe s op) (hop : op ≠ .estopLock false) :
    wp (fun _ => True) op.exec (fun _ s' => LockInv s' ∧ Locked s₀ s') s := by
  have hinv := lockInv_step h op hsafe
  by_cases hlock : op = .estopLock true
  · subst hlock
    -- the lock is set already
    have hexec : wp (fun _ => True) (Op.exec (.estopLock true)) (fun _ s' => s' = s) s := by
      simp only [Op.exec, DCC.estopLock, wp_bind, wp_get, wp_pure]
      rw [if_pos hlocked.lock]
      rfl
    refine wp_mono (wp_and hinv hexec) ?_
    intro _ s' hs'
    exact ⟨hs'.1, hs'.2 ▸ hlocked⟩
  · refine wp_mono (wp_and hinv (op_held h.sound op hsafe ?_)) ?_
    · intro b heq
      cases b with
      | true => exact hlock heq
      | false => exact hop heq
    · intro _ s' hs'
      exact ⟨hs'.1, hlocked.held hs'.2⟩

/-- **The emergency stop lock**: in every history whose calls are safe, from `estopLock(true)` on
and until `estopLock(false)`, no speed packet is handed over and no DC track is made to drive. -/
theorem estopLock_staysStopped {platform : Platform} {maxLocos : Nat} {brakePins : List BrakePin}
    (history later : List Op)
    (hsafe : AlongProg Op.exec LockSafe (history ++ .estopLock true :: later)
      (Station.init platform maxLocos brakePins))
    (hlater : Op.estopLock false ∉ later)
    (hs : runProg Op.exec history (Station.init platform maxLocos brakePins) = .ok ((), s))
    (hs' : runProg Op.exec (.estopLock true :: later) s = .ok ((), s')) : StaysStopped s s' := by
  obtain ⟨hhistory, hlock, hrest⟩ := hsafe.of_append hs
  have hinv : wp (fun _ => True) (runProg Op.exec history) (fun _ => LockInv)
      (Station.init platform maxLocos brakePins) :=
    wp_runProg LockInv (fun s op hsafe h => lockInv_step h op hsafe)
      (lockInv_init platform maxLocos brakePins) hhistory
  rw [wp_iff_forall] at hinv
  have hs₀ := hinv () s hs
  have hrun : wp (fun _ => True) (runProg Op.exec (.estopLock true :: later))
      (fun _ => Locked s) s := by
    rw [runProg, wp_bind]
    have hlocks := estopLock_locks hs₀ hlock
    have hstep := lockInv_step hs₀ (.estopLock true) hlock
    simp only [Op.exec, wp_bind, wp_pure] at hstep hrest ⊢
    refine wp_mono (wp_and (wp_and hstep hlocks) hrest) ?_
    intro _ s₁ h₁
    obtain ⟨⟨hinv₁, hlocked₁, -⟩, hsafe₁⟩ := h₁
    clear hs' hrest hsafe
    induction later generalizing s₁ with
    | nil => exact hlocked₁
    | cons op later ih =>
      rw [runProg, wp_bind]
      have hop : op ≠ .estopLock false := fun heq => hlater (heq ▸ List.mem_cons_self)
      refine wp_mono (wp_and (locked_step hinv₁ hlocked₁ op hsafe₁.1 hop) hsafe₁.2) ?_
      intro _ s₂ h₂
      obtain ⟨⟨hinv₂, hlocked₂⟩, hsafe₂⟩ := h₂
      exact ih (fun hin => hlater (List.mem_cons_of_mem op hin)) s₂ hsafe₂ hinv₂ hlocked₂
  rw [wp_iff_forall] at hrun
  exact (hrun () s' hs').staysStopped

/-- Loco 3 runs on a DC track, and on the main track as well. -/
def locoOnDC : List Op :=
  [.setTrackMode 0 TrackMode.dc 3 false, .setTrackPower TrackMode.dc .on, .setThrottle 3 50 true 0]

/-- Throttle commands and reminders under the lock. -/
theorem estopLock_staysStopped_throttle :
    ∃ s s', runProg Op.exec locoOnDC (Station.init .avr 8 [.pwm]) = .ok ((), s) ∧
      runProg Op.exec [.estopLock true, .setThrottle 3 60 true 0, .loop true 0 0 0,
        .loop true 1 1 1] s = .ok ((), s') ∧
      StaysStopped s s' ∧ s'.queue.handedOver.length = s.queue.handedOver.length + 2 := by
  obtain ⟨⟨⟩, s, hs, hlater⟩ := (wp_iff_exists (m := runProg Op.exec locoOnDC)
    (Q := fun _ s => wp (fun _ => False) (runProg Op.exec [.estopLock true,
      .setThrottle 3 60 true 0, .loop true 0 0 0, .loop true 1 1 1])
      (fun _ s' => s'.queue.handedOver.length = s.queue.handedOver.length + 2) s)
    (s := Station.init .avr 8 [.pwm])).mp (by decide +kernel)
  obtain ⟨⟨⟩, s', hs', hlength⟩ := wp_iff_exists.mp hlater
  exact ⟨s, s', hs, hs', estopLock_staysStopped locoOnDC _ (by decide +kernel) (by simp) hs hs',
    hlength⟩

/-- Switching the power of the DC track on under the lock gives it the speed of its loco. -/
theorem estopLock_drives :
    ∃ s s', runProg Op.exec locoOnDC (Station.init .avr 8 [.pwm]) = .ok ((), s) ∧
      runProg Op.exec [.estopLock true, .setTrackPower TrackMode.dc .on] s = .ok ((), s') ∧
      ¬ StaysStopped s s' ∧ s'.dcSignals.head? = some ⟨0, TrackMode.dc, 178⟩ := by
  obtain ⟨⟨⟩, s, hs, hlater⟩ := (wp_iff_exists (m := runProg Op.exec locoOnDC)
    (Q := fun _ s => wp (fun _ => False)
      (runProg Op.exec [.estopLock true, .setTrackPower TrackMode.dc .on])
      (fun _ s' => ¬ StaysStopped s s' ∧ s'.dcSignals.head? = some ⟨0, TrackMode.dc, 178⟩) s)
    (s := Station.init .avr 8 [.pwm])).mp (by decide +kernel)
  obtain ⟨⟨⟩, s', hs', hbroken⟩ := wp_iff_exists.mp hlater
  exact ⟨s, s', hs, hs', hbroken⟩

end CommandStation
