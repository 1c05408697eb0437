import CommandStation.DCC.Spec

/-!
# The station stays sound

`Sound` is the invariant of the whole station. Every operation keeps it and comes to an end, with
two exceptions: `DCCConsist::parse` and the decoder use the slots that `getSlot` gives them without
a check, so on a table that has no room for what they ask they run into a null pointer.
-/

namespace CommandStation

open CommandStation.Lib LocoTable

/-- The loco table is well-formed, only drivers with a PWM brake pin run in a DC mode, and the
reminder loop goes on at a slot in use or knows that it cannot. -/
structure Sound (s : Station) : Prop where
  table : ∃ xs ys, Lists s.locos xs ys ∧ Consists s.locos xs none
  tracks : ∀ driver ∈ s.tracks, driver.isDC = true → driver.brakePin = .pwm
  reminder : s.locos.chainModified = false →
    ∀ a, s.nextLocoReminder = some a → a ∈ s.locos.slots

/-- The loco table is retuned only, brake pins stay, and tracks are sound if they were. -/
structure Kept (s s' : Station) : Prop where
  locos : Retuned s.locos s'.locos
  reminder : s'.nextLocoReminder = s.nextLocoReminder
  brakePins : s'.tracks.map MotorDriver.brakePin = s.tracks.map MotorDriver.brakePin
  tracks : (∀ driver ∈ s.tracks, driver.isDC = true → driver.brakePin = .pwm) →
    ∀ driver ∈ s'.tracks, driver.isDC = true → driver.brakePin = .pwm

variable {F : Fault → Prop} {s s' s'' : Station} {xs ys zs : List Addr} {a b l : Addr}

namespace Kept

theorem refl (s : Station) : Kept s s := ⟨Retuned.refl _, rfl, rfl, id⟩

theorem trans (h : Kept s s') (h' : Kept s' s'') : Kept s s'' :=
  ⟨h.locos.trans h'.locos, h'.reminder.trans h.reminder, h'.brakePins.trans h.brakePins,
    fun hs => h'.tracks (h.tracks hs)⟩

theorem of_updated {cs : List Addr} {f : LocoSlot → LocoSlot} (h : DCC.Updated cs f s s')
    (hf : ∀ slot, (f slot).place = slot.place) : Kept s s' := by
  have htracks : s'.tracks = s.tracks := by rw [h.rest]
  exact ⟨h.retuned hf, by rw [h.rest], by rw [htracks], by rw [htracks]; exact id⟩

/-- Packets and the loco table apart, nothing is changed. -/
theorem of_retuned {queue : DCCQueue.State} {locos : LocoTable} (h : Retuned s.locos locos) :
    Kept s { s with queue := queue, locos := locos } := ⟨h, rfl, rfl, id⟩

theorem sound (h : Kept s s') (hs : Sound s) : Sound s' := by
  obtain ⟨⟨xs, ys, hl, hc⟩, htracks, hreminder⟩ := hs
  refine ⟨⟨xs, ys, h.locos.lists hl, h.locos.consists hc⟩, h.tracks htracks, ?_⟩
  rw [(h.locos.lists hl).slots_eq, ← hl.slots_eq, h.reminder, h.locos.statics]
  exact hreminder

end Kept

/-- The station is sound, and every loco that had a slot has it still. -/
structure Grown (s s' : Station) : Prop where
  sound : Sound s'
  slots : ∀ b ∈ s.locos.slots,
    b ∈ s'.locos.slots ∧ (s'.locos.mem b).loco = (s.locos.mem b).loco

theorem Grown.refl (hs : Sound s) : Grown s s := ⟨hs, fun _ hb => ⟨hb, rfl⟩⟩

theorem Grown.trans (h : Grown s s') (h' : Grown s' s'') : Grown s s'' := by
  refine ⟨h'.sound, fun b hb => ?_⟩
  obtain ⟨hb', hloco⟩ := h.slots b hb
  obtain ⟨hb'', hloco'⟩ := h'.slots b hb'
  exact ⟨hb'', hloco'.trans hloco⟩

/-- Only packets are sent. -/
theorem Grown.of_queue (hs : Sound s) {queue : DCCQueue.State} :
    Grown s { s with queue := queue } :=
  ⟨⟨hs.table, hs.tracks, hs.reminder⟩, fun _ hb => ⟨hb, rfl⟩⟩

theorem Kept.grown (h : Kept s s') (hs : Sound s) : Grown s s' := by
  refine ⟨h.sound hs, fun b hb => ⟨?_, h.locos.loco b⟩⟩
  obtain ⟨xs, ys, hl, -⟩ := hs.table
  rw [hl.slots_eq] at hb
  rwa [(h.locos.lists hl).slots_eq]

/-! ## Drivers and tracks -/

namespace TrackManager

/-- The driver of one track is replaced by a sound one. -/
theorem kept_of_tracks {t : Nat} {s' : Station} (hlocos : s'.locos = s.locos)
    (hreminder : s'.nextLocoReminder = s.nextLocoReminder)
    (hlength : s'.tracks.length = s.tracks.length)
    (hother : ∀ u : Nat, u ≠ t → s'.tracks[u]? = s.tracks[u]?)
    (hself : ∀ driver driver', s.tracks[t]? = some driver → s'.tracks[t]? = some driver' →
      driver'.brakePin = driver.brakePin ∧ ((driver.isDC = true → driver.brakePin = .pwm) →
        driver'.isDC = true → driver'.brakePin = .pwm)) : Kept s s' := by
  refine ⟨by rw [hlocos]; exact Retuned.refl _, hreminder, ?_, ?_⟩
  · refine List.ext_getElem? fun u => ?_
    rw [List.getElem?_map, List.getElem?_map]
    by_cases hu : u = t
    · subst hu
      cases hold : s.tracks[u]? with
      | none =>
        rw [List.getElem?_eq_none_iff, ← hlength] at hold
        rw [List.getElem?_eq_none_iff.mpr hold]
      | some driver =>
        cases hnew : s'.tracks[u]? with
        | none =>
          rw [List.getElem?_eq_none_iff, hlength, ← List.getElem?_eq_none_iff, hold] at hnew
          cases hnew
        | some driver' =>
          rw [Option.map_some, Option.map_some, (hself driver driver' hold hnew).1]
    · rw [hother u hu]
  · intro hs driver' hdriver'
    obtain ⟨u, hu⟩ := List.mem_iff_getElem?.mp hdriver'
    by_cases hut : u = t
    · subst hut
      have hlt : u < s.tracks.length := hlength ▸ (List.getElem?_eq_some_iff.mp hu).1
      have hold : s.tracks[u]? = some s.tracks[u] := List.getElem?_eq_getElem hlt
      exact (hself _ driver' hold hu).2 (hs _ (List.getElem_mem hlt))
    · rw [hother u hut] at hu
      exact hs driver' (List.mem_of_getElem? hu)

theorem wp_setTrack_at {t : Nat} {f : MotorDriver → MotorDriver}
    (hf : ∀ driver, s.tracks[t]? = some driver → (f driver).brakePin = driver.brakePin ∧
      ((driver.isDC = true → driver.brakePin = .pwm) →
        (f driver).isDC = true → (f driver).brakePin = .pwm)) :
    wp F (setTrack t f) (fun _ => Kept s) s := by
  refine kept_of_tracks (t := t) rfl rfl (List.length_modify ..) (fun u hu => ?_) ?_
  · simp [Ne.symm hu]
  · intro driver driver' hold hnew
    simp only [List.getElem?_modify, if_true, hold, Option.map_eq_map, Option.map_some,
      Option.some.injEq] at hnew
    subst hnew
    exact hf driver hold

/-- Power, address and signal of a driver may be written. -/
theorem wp_setTrack {t : Nat} {f : MotorDriver → MotorDriver}
    (hpin : ∀ driver, (f driver).brakePin = driver.brakePin)
    (hmode : ∀ driver, (f driver).trackMode = driver.trackMode) :
    wp F (setTrack t f) (fun _ => Kept s) s := by
  refine wp_setTrack_at fun driver _ => ⟨hpin driver, fun hsound hdc => ?_⟩
  rw [hpin]
  rw [MotorDriver.isDC, hmode] at hdc
  exact hsound hdc

/-- Drivers get new signals only. -/
theorem kept_of_signals (hit : Nat → MotorDriver → Bool) (hlocos : Retuned s.locos s'.locos)
    (hreminder : s'.nextLocoReminder = s.nextLocoReminder)
    (htracks : ∀ t : Nat, ∃ signal, s'.tracks[t]? = (s.tracks[t]?).map fun driver =>
      if hit t driver then { driver with signal := signal } else driver) : Kept s s' := by
  refine ⟨hlocos, hreminder, ?_, ?_⟩
  · refine List.ext_getElem? fun t => ?_
    obtain ⟨signal, ht⟩ := htracks t
    rw [List.getElem?_map, List.getElem?_map, ht, Option.map_map]
    congr 1
    funext driver
    simp only [Function.comp]
    split <;> rfl
  · intro hs driver hdriver
    obtain ⟨t, ht⟩ := List.mem_iff_getElem?.mp hdriver
    obtain ⟨signal, hsignal⟩ := htracks t
    rw [ht] at hsignal
    cases hold : s.tracks[t]? with
    | none => rw [hold] at hsignal; cases hsignal
    | some old =>
      rw [hold, Option.map_some, Option.some.injEq] at hsignal
      subst hsignal
      have hsound := hs old (List.mem_of_getElem? hold)
      split
      · exact hsound
      · exact hsound

theorem Driven.kept {cab : Int16} {speedbyte : UInt8} {ts : List Nat}
    (h : Driven cab speedbyte ts s s') : Kept s s' := by
  have hlocos : s'.locos = s.locos := by rw [h.rest]
  refine kept_of_signals (fun t driver => t ∈ ts ∧ driver.Hears cab)
    (by rw [hlocos]; exact Retuned.refl _) (by rw [h.rest]) fun t => ?_
  obtain ⟨frequency, ht⟩ := h.tracks t
  exact ⟨some (speedbyte, frequency), by simpa using ht⟩

/-- To drive a track leaves the slots alone. -/
theorem wp_driveTrack (t : Nat) (speedcode frequency : UInt8) :
    wp F (driveTrack t speedcode frequency) (fun _ => Kept s) s := by
  simp only [driveTrack, wp_modify]
  cases hdriver : s.tracks[t]? with
  | none => exact Kept.refl s
  | some driver =>
    simp only
    split
    · exact Kept.refl s
    · refine kept_of_tracks (t := t) rfl rfl (List.length_set ..) (fun u hu => ?_) ?_
      · exact List.getElem?_set_ne (Ne.symm hu)
      · intro old new hold hnew
        have hlt : t < s.tracks.length := (List.getElem?_eq_some_iff.mp hold).1
        rw [List.getElem?_set_self hlt] at hnew
        rw [hdriver] at hold
        cases hold
        cases hnew
        exact ⟨rfl, id⟩

theorem wp_detachDCSignal (t : Nat) : wp F (detachDCSignal t) (fun _ => Kept s) s := by
  simp only [detachDCSignal, wp_bind, wp_get]
  cases s.platform with
  | uno => exact wp_driveTrack t 128 0
  | avr => exact wp_driveTrack t 128 0
  | arm => exact wp_setTrack (fun _ => rfl) (fun _ => rfl)
  | esp32 => exact wp_setTrack (fun _ => rfl) (fun _ => rfl)

theorem wp_applyDCSpeed (h : Lists s.locos xs ys) (t : Nat) (dcAddr : Int16) :
    wp F (applyDCSpeed t dcAddr) (fun _ => Kept s) s := by
  simp only [applyDCSpeed, wp_bind]
  refine DCC.wp_getLocoSpeedByte h _ fun speedcode => ?_
  refine DCC.wp_getThrottleFrequency h _ fun frequency => ?_
  exact wp_driveTrack t speedcode frequency

/-- A loop over the tracks keeps what its body keeps. -/
theorem wp_forEachTrack {body : Nat → Dcc Unit} (h : Lists s.locos xs ys)
    (hbody : ∀ t s, Lists s.locos xs ys → wp F (body t) (fun _ => Kept s) s) :
    wp F (forEachTrack body) (fun _ => Kept s) s := by
  simp only [forEachTrack, wp_bind, wp_get]
  generalize List.range s.tracks.length = ts
  induction ts generalizing s with
  | nil => exact Kept.refl s
  | cons t ts ih =>
    rw [runProg, wp_bind]
    refine wp_mono (hbody t s h) ?_
    intro _ s₁ h₁
    refine wp_mono (ih (h₁.locos.lists h)) ?_
    intro _ s₂ h₂
    exact h₁.trans h₂

/-- A track gets its power, and the speed of its loco before that. -/
theorem wp_power_kept (h : Lists s.locos xs ys) (t : Nat) (dcAddr : Int16) (powermode : PowerMode)
    {c : Prop} [Decidable c] :
    wp F (do
      when c (applyDCSpeed t dcAddr)
      setTrack t fun driver => { driver with powerMode := powermode }) (fun _ => Kept s) s := by
  rw [wp_bind]
  refine wp_when (fun _ => ?_) (fun _ => wp_setTrack (fun _ => rfl) (fun _ => rfl))
  refine wp_mono (wp_applyDCSpeed h t _) ?_
  intro _ s₁ h₁
  exact wp_mono (wp_setTrack (fun _ => rfl) (fun _ => rfl)) fun _ s₂ h₂ => h₁.trans h₂

theorem setTrackPower_kept (h : Lists s.locos xs ys) (trackmodeToMatch : UInt8)
    (powermode : PowerMode) :
    wp F (setTrackPower trackmodeToMatch powermode) (fun _ => Kept s) s := by
  refine wp_forEachTrack h fun t s h => ?_
  simp only [setTrackPowerOn, wp_bind, wp_get]
  cases s.tracks[t]? with
  | none => exact Kept.refl s
  | some driver =>
    simp only
    split
    · exact wp_power_kept h t _ _
    · exact Kept.refl s

theorem setPowerOfTrack_kept (h : Lists s.locos xs ys) (powermode : PowerMode) (t : Nat) :
    wp F (setPowerOfTrack powermode t) (fun _ => Kept s) s := by
  simp only [setPowerOfTrack, wp_bind, wp_get]
  cases s.tracks[t]? with
  | none => exact Kept.refl s
  | some driver =>
    simp only
    split
    · exact wp_setTrack (fun _ => rfl) (fun _ => rfl)
    · exact wp_power_kept h t _ _

theorem wp_revokeProg (trackToSet t : Nat) :
    wp F (revokeProg trackToSet t) (fun _ => Kept s) s := by
  unfold revokeProg
  split
  · exact Kept.refl s
  · refine wp_setTrack_at fun driver _ => ?_
    split
    · refine ⟨rfl, fun _ hdc => absurd hdc ?_⟩
      show ¬ TrackMode.has TrackMode.none TrackMode.dc = true
      decide
    · exact ⟨rfl, id⟩

/-- What `setTrackMode` clears of the old mode leaves the slots alone. -/
theorem wp_clearPrevious (trackToSet : Nat) (oldAddr : Int16) (mode : UInt8) (dcAddr : Int16) :
    wp F (clearPrevious trackToSet oldAddr mode dcAddr) (fun _ => Kept s) s := by
  have hset : ∀ {s : Station} (dcAddr : Int16), wp F
      (setTrack trackToSet fun driver => { driver with dcAddr := dcAddr }) (fun _ => Kept s) s :=
    fun _ => wp_setTrack (fun _ => rfl) (fun _ => rfl)
  have hdetach : ∀ dcAddr : Int16, wp F (detachDCSignal trackToSet) (fun _ s' => wp F
      (setTrack trackToSet fun driver => { driver with dcAddr := dcAddr })
      (fun _ => Kept s) s') s := by
    intro dcAddr
    refine wp_mono (wp_detachDCSignal trackToSet) ?_
    intro _ s₁ h₁
    exact wp_mono (hset dcAddr) fun _ s₂ h₂ => h₁.trans h₂
  unfold clearPrevious
  split
  · rw [wp_bind]
    exact wp_when (fun _ => hdetach dcAddr) (fun _ => hset dcAddr)
  · rw [wp_bind]
    exact hdetach 0

/-- A change of track mode leaves the slots alone. -/
theorem setTrackMode_kept (h : Lists s.locos xs ys) (trackToSet : Nat) (mode : UInt8)
    (dcAddr : Int16) (offAtChange : Bool) :
    wp F (setTrackMode trackToSet mode dcAddr offAtChange) (fun _ => Kept s) s := by
  simp only [setTrackMode, wp_bind, wp_get]
  cases hdriver : s.tracks[trackToSet]? with
  | none => exact Kept.refl s
  | some driver =>
    simp only
    split
    · exact Kept.refl s
    · next hallowed =>
      -- the new mode is DC only on a driver whose brake pin can do PWM
      have hpwm : ∀ {s₁ : Station}, Kept s s₁ → wp F (setTrack trackToSet fun driver =>
          { driver with trackMode := mode }) (fun _ => Kept s) s₁ := by
        intro s₁ h₁
        refine wp_mono (wp_setTrack_at fun d hd => ⟨rfl, fun _ hdc => ?_⟩)
          fun _ s₂ h₂ => h₁.trans h₂
        have hpin : d.brakePin = driver.brakePin := by
          have := congrArg (fun pins => pins[trackToSet]?) h₁.brakePins
          simpa [hd, hdriver] using this
        have hcan : driver.brakeCanPWM = true := by
          by_contra hno
          exact hallowed ⟨hdc, .inr (Bool.not_eq_true _ ▸ hno)⟩
        show d.brakePin = .pwm
        rw [hpin]
        exact beq_iff_eq.mp hcan
      have hoff : ∀ {s₁ : Station}, Kept s s₁ → wp F (when (mode ≠ driver.trackMode ∧ offAtChange)
          (setTrack trackToSet fun driver => { driver with powerMode := .off }))
          (fun _ => Kept s) s₁ := by
        intro s₁ h₁
        refine wp_when (fun _ => ?_) (fun _ => h₁)
        exact wp_mono (wp_setTrack (fun _ => rfl) (fun _ => rfl)) fun _ s₂ h₂ => h₁.trans h₂
      have hrest : ∀ {s₁ : Station}, Kept s s₁ → wp F (clearPrevious trackToSet driver.dcAddr mode
          dcAddr) (fun _ => wp F (setTrack trackToSet fun driver => { driver with trackMode := mode })
          fun _ => wp F (when (TrackMode.has mode TrackMode.dc) (applyDCSpeed trackToSet dcAddr))
          fun _ => wp F (when (mode ≠ driver.trackMode ∧ offAtChange)
          (setTrack trackToSet fun driver => { driver with powerMode := .off }))
          fun _ => Kept s) s₁ := by
        intro s₁ h₁
        refine wp_mono (wp_clearPrevious trackToSet driver.dcAddr mode dcAddr) ?_
        intro _ s₂ h₂
        refine wp_mono (hpwm (h₁.trans h₂)) ?_
        intro _ s₃ h₃
        refine wp_when (fun _ => ?_) (fun _ => hoff h₃)
        refine wp_mono (wp_applyDCSpeed (h₃.locos.lists h) trackToSet dcAddr) ?_
        intro _ s₄ h₄
        exact hoff (h₃.trans h₄)
      simp only [wp_bind, wp_pure]
      refine wp_when (fun _ => ?_) (fun _ => hrest (Kept.refl s))
      refine wp_mono (wp_forEachTrack h fun t s _ => wp_revokeProg trackToSet t) ?_
      intro _ s₁ h₁
      exact hrest h₁

end TrackManager

/-! ## Asking for a slot -/

/-- `getSlot` has granted slot `a` for the loco: the table is that of `s'`, with the slots `xs'` in
use; the slots `xs` that were in use before are unchanged. -/
structure Granted (s : Station) (xs : List Addr) (locoId : UInt16) (a : Addr) (s' : Station)
    (xs' ys' : List Addr) : Prop where
  lists : Lists s'.locos xs' ys'
  consists : Consists s'.locos xs' none
  mem : a ∈ xs'
  loco : (s'.locos.mem a).loco = locoId
  old : ∀ b ∈ xs, b ∈ xs' ∧ s'.locos.mem b = s.locos.mem b
  room : locoId ≠ 0 ∧ Room s.locos xs [locoId]
  steady : Steady s.locos s'.locos
  rest : s' = { s with locos := s'.locos }

theorem Granted.sound {locoId : UInt16} {xs' ys' : List Addr} (hs : Sound s)
    (h : Granted s xs locoId a s' xs' ys') : Sound s' := by
  refine ⟨⟨xs', ys', h.lists, h.consists⟩, ?_, ?_⟩
  · rw [h.rest]
    exact hs.tracks
  · intro hmodified
    have hmodified' := (h.steady hmodified).1
    rw [h.steady.slots hmodified, show s'.nextLocoReminder = s.nextLocoReminder by rw [h.rest]]
    exact hs.reminder hmodified'

theorem Granted.grown {locoId : UInt16} {xs' ys' : List Addr} (hs : Sound s)
    (hl : Lists s.locos xs ys) (h : Granted s xs locoId a s' xs' ys') : Grown s s' := by
  refine ⟨h.sound hs, fun b hb => ?_⟩
  rw [hl.slots_eq] at hb
  obtain ⟨hb', hmem⟩ := h.old b hb
  exact ⟨h.lists.slots_eq ▸ hb', by rw [hmem]⟩

/-- **Asking for a slot**: the slot is granted, or there is no room for it. -/
theorem wp_askSlot (h : Lists s.locos xs ys) (hc : Consists s.locos xs none) (locoId : UInt16)
    {Q : Option Addr → Station → Prop}
    (hnone : ¬ (locoId ≠ 0 ∧ Room s.locos xs [locoId]) → Q none s)
    (hsome : ∀ a s' xs' ys', Granted s xs locoId a s' xs' ys' → Q (some a) s') :
    wp F (onSlots (LocoSlot.getSlot locoId true)) Q s := by
  rw [wp_onSlots]
  refine wp_mono (wp_and (getSlot_spec h locoId true) (steady_getSlot locoId true s.locos)) ?_
  rintro r t' ⟨hr, hsteady⟩
  cases hr with
  | zero h0 => exact hnone fun hr => hr.1 h0
  | unknown _ _ hcreate => cases hcreate
  | full _ hno _ hfull => exact hnone fun hr => not_room_of_full hno hfull hr.2
  | @found a hid ha hloco =>
    refine hsome a s xs ys ⟨h, hc, ha, hloco, fun b hb => ⟨hb, rfl⟩, ⟨hid, ?_⟩,
      hsteady, rfl⟩
    exact (room_cons_of_found ha hloco).mp (room_nil h)
  | @created a t' hid hno _ hroom ht' =>
    obtain ⟨ys', hlists⟩ := ht'.lists
    refine hsome a { s with locos := t' } (a :: xs) ys' ⟨hlists, (hc.created ht').1,
      List.mem_cons_self, ht'.loco, fun b hb => ⟨List.mem_cons_of_mem a hb, ht'.mem_inUse b hb⟩,
      ⟨hid, ?_⟩, hsteady, rfl⟩
    exact (room_cons_of_created hno ht' (List.not_mem_nil)).mp (room_nil hlists)

/-- Some members of a granted slot are written. -/
theorem wp_writeGranted {locoId : UInt16} {xs' ys' : List Addr} (hs : Sound s)
    (hl : Lists s.locos xs ys) (h : Granted s xs locoId a s' xs' ys') {f : LocoSlot → LocoSlot}
    (hf : ∀ slot, (f slot).place = slot.place) :
    wp F (onSlots (writeSlot a f)) (fun _ => Grown s) s' := by
  rw [wp_write (h.lists.live_inUse h.mem)]
  have hkept : Kept s' { s' with locos := s'.locos.write a (f (s'.locos.mem a)) } :=
    Kept.of_retuned (Retuned.write _ a _ (hf _))
  exact (h.grown hs hl).trans (hkept.grown (h.sound hs))

/-- What the operations that ask for one slot leave: the station is sound, and if they do not get
the slot they fail and change nothing but packets. -/
structure Answered (s : Station) (xs : List Addr) (locoId : UInt16) (failed : Bool)
    (s' : Station) : Prop where
  grown : Grown s s'
  refused : ¬ (locoId ≠ 0 ∧ Room s.locos xs [locoId]) →
    failed = true ∧ ∃ queue, s' = { s with queue := queue }

theorem Granted.answered {locoId : UInt16} {xs' ys' : List Addr} {failed : Bool}
    (h : Granted s xs locoId a s' xs' ys') (hs : Grown s s'') :
    Answered s xs locoId failed s'' := ⟨hs, fun hno => absurd h.room hno⟩

theorem answered_refused (hs : Sound s) {locoId : UInt16} {queue : DCCQueue.State} :
    Answered s xs locoId true { s with queue := queue } :=
  ⟨Grown.of_queue hs, fun _ => ⟨rfl, queue, rfl⟩⟩

/-- Packets that were sent before do not count. -/
theorem Answered.of_queue {locoId : UInt16} {failed : Bool} {queue : DCCQueue.State}
    (h : Answered { s with queue := queue } xs locoId failed s') :
    Answered s xs locoId failed s' :=
  ⟨⟨h.grown.sound, h.grown.slots⟩, h.refused⟩

namespace DCC

/-- The broadcast stop of `estopAll` and `estopLock`. -/
theorem wp_stopAll (h : Lists s.locos xs ys) {Q : Unit → Station → Prop}
    (hQ : ∀ s', Kept s s' → Q () s') :
    wp F (do
      setThrottleDCC none 1
      TrackManager.setDCSignal 0 1) Q s := by
  rw [wp_bind, wp_setThrottleDCC_none]
  refine wp_mono (TrackManager.setDCSignal_spec h) ?_
  intro _ s' hs'
  exact hQ s' ((Kept.of_retuned (Retuned.refl _)).trans hs'.kept)

/-- `estopAll` neither makes nor frees a slot. -/
theorem estopAll_kept (h : Lists s.locos xs ys) : wp F estopAll (fun _ => Kept s) s := by
  have hstop := wp_stopAll (F := F) (Q := fun _ s' => Kept s s') h fun s' hs' => hs'
  rw [wp_bind] at hstop
  rw [estopAll, wp_bind]
  refine wp_mono hstop ?_
  intro _ s₁ hs₁
  rw [wp_bind]
  refine wp_mono hs₁ ?_
  intro _ s₂ h₂
  have hlists := h₂.locos.lists h
  rw [wp_bind, wp_get]
  refine wp_mono (wp_updateSlots (fun _ => rfl) (fun a s _ => ⟨s.queue, rfl⟩) hlists.inUse
    hlists.nodup_inUse (fun b hb => hlists.live_inUse hb) hlists.length_inUse) ?_
  intro _ s₃ hs₃
  exact h₂.trans (Kept.of_updated hs₃ fun _ => rfl)

theorem estopLock_kept (h : Lists s.locos xs ys) (lock : Bool) :
    wp F (estopLock lock) (fun _ => Kept s) s := by
  simp only [estopLock, wp_bind, wp_get]
  split
  · exact Kept.refl s
  · simp only [wp_bind, wp_modify]
    have hlock : Kept s { s with estopIsLocked := lock } := ⟨Retuned.refl _, rfl, rfl, id⟩
    refine wp_when (fun _ => ?_) (fun _ => hlock)
    refine wp_stopAll (hlock.locos.lists h) ?_
    intro s' hs'
    exact hlock.trans hs'

/-- The end of `setThrottle` for the root of a consist or a loco of its own. -/
theorem throttleTo_kept (h : Lists s.locos xs ys) (hc : Consists s.locos xs none) (ha : a ∈ xs)
    (hroot : s.locos.leadOf a = none) (cab : UInt16) (tSpeed speedCode : UInt8) (now : UInt32) :
    wp F (throttleTo a cab tSpeed speedCode now) (fun _ => Kept s) s := by
  -- after each write the slot is still the root of its consist
  have hwrite : ∀ {s₁ : Station}, Kept s s₁ → ∀ f : LocoSlot → LocoSlot,
      (∀ slot, (f slot).place = slot.place) →
      Kept s { s₁ with locos := s₁.locos.write a (f (s₁.locos.mem a)) } := fun h₁ f hf =>
    h₁.trans (Kept.of_retuned (Retuned.write _ a _ (hf _)))
  have hlive : ∀ {s₁ : Station}, Kept s s₁ → s₁.locos.live a = true := fun h₁ =>
    (h₁.locos.lists h).live_inUse ha
  have hchain : ∀ {s₁ : Station}, Kept s s₁ →
      ∃ zs, Forest.Chain xs s₁.locos.leadOf s₁.locos.consistNextOf a zs := fun h₁ =>
    (h₁.locos.consists hc).forest.exists_chain ha ((h₁.locos.leadOf a).trans hroot)
  simp only [throttleTo, wp_bind]
  rw [wp_write (h.live_inUse ha)]
  have h₁ := hwrite (Kept.refl s) (fun slot => slot.setTargetSpeed speedCode) fun _ => rfl
  rw [wp_read (hlive h₁)]
  obtain ⟨zs, hzs⟩ := hchain h₁
  refine wp_mono (copyTarget_spec (h₁.locos.lists h) hzs speedCode) ?_
  intro _ s₂ hs₂
  have h₂ := h₁.trans (Kept.of_updated hs₂ fun _ => rfl)
  rw [wp_read (hlive h₂)]
  simp only [wp_get]
  split
  · rw [wp_write (hlive h₂)]
    exact hwrite h₂ (fun slot => slot.setMomentumBase now) fun _ => rfl
  · obtain ⟨zs', hzs'⟩ := hchain h₂
    rw [wp_bind]
    refine wp_mono (setThrottle2_spec (h₂.locos.lists h) hzs' speedCode) ?_
    intro _ s₃ hs₃
    have h₃ := h₂.trans (Kept.of_updated hs₃ fun _ => rfl)
    refine wp_when (fun _ => ?_) (fun _ => h₃)
    refine wp_mono (TrackManager.setDCSignal_spec (h₃.locos.lists h)) ?_
    intro _ s₄ hs₄
    exact h₃.trans hs₄.kept

/-- **`setThrottle`** -/
theorem setThrottle_spec (hs : Sound s) (h : Lists s.locos xs ys)
    (hc : Consists s.locos xs none) (cab : UInt16) (tSpeed : UInt8) (tDirection : Bool)
    (now : UInt32) :
    wp F (setThrottle cab tSpeed tDirection now)
      (fun r s' => Grown s s' ∧ (¬ (tSpeed = 1 ∧ cab = 0) → Answered s xs cab (!r) s')) s := by
  unfold setThrottle
  split
  · next hestop =>
    rw [wp_bind]
    refine wp_mono (estopAll_kept h) ?_
    intro _ s' hs'
    exact ⟨hs'.grown hs, fun hloco => absurd hestop hloco⟩
  · simp only [wp_bind]
    generalize (tSpeed &&& 0x7F) + (if tDirection = true then 128 else 0) = speedCode
    refine wp_askSlot h hc cab ?_ ?_
    · intro _
      exact ⟨Grown.refl hs, fun _ => answered_refused hs⟩
    · intro a s' xs' ys' hg
      have hgrown := hg.grown hs h
      have hanswer : ∀ {s''}, Grown s s'' →
          Grown s s'' ∧ (¬ (tSpeed = 1 ∧ cab = 0) → Answered s xs cab (!true) s'') :=
        fun hs'' => ⟨hs'', fun _ => hg.answered hs''⟩
      rw [wp_bind, wp_read (hg.lists.live_inUse hg.mem)]
      split
      · exact hanswer hgrown
      · next hfollower =>
        split
        · exact hanswer hgrown
        · have hroot : s'.locos.leadOf a = none := by
            simpa [LocoSlot.isConsistFollower, LocoTable.leadOf] using hfollower
          rw [wp_bind]
          refine wp_mono (throttleTo_kept hg.lists hg.consists hg.mem hroot cab tSpeed speedCode now) ?_
          intro _ s'' hs''
          exact hanswer (hgrown.trans (hs''.grown (hg.sound hs)))

/-- The operations that ask for one slot and write some of its members. -/
theorem wp_askAndWrite (hs : Sound s) (h : Lists s.locos xs ys)
    (hc : Consists s.locos xs none) {α : Type} (failed : α → Bool) (locoId : UInt16)
    (f : LocoSlot → LocoSlot) (hf : ∀ slot, (f slot).place = slot.place) (no yes : α)
    (hno : failed no = true) :
    wp F (do
      let slot ← onSlots (LocoSlot.getSlot locoId true)
      match slot with
      | none => pure no
      | some a =>
        onSlots (writeSlot a f)
        pure yes) (fun r s' => Answered s xs locoId (failed r) s') s := by
  simp only [wp_bind]
  refine wp_askSlot h hc locoId ?_ ?_
  · intro _
    show Answered s xs locoId (failed no) s
    rw [hno]
    exact answered_refused hs
  · intro a s' xs' ys' hg
    simp only [wp_bind, wp_pure]
    refine wp_mono (wp_writeGranted hs h hg hf) ?_
    intro _ s'' hs''
    exact hg.answered hs''

theorem place_withFunction (f : UInt16) (on : Bool) (slot : LocoSlot) :
    (withFunction f on slot).place = slot.place := by
  unfold withFunction
  extract_lets funcmask newset
  split
  · rfl
  · split <;> rfl

/-- `setFn` keeps the slots that were there, and fails without a slot for its loco. -/
theorem setFn_spec (hs : Sound s) (h : Lists s.locos xs ys) (hc : Consists s.locos xs none)
    (cab : Int) (functionNumber : Int16) (on : Bool) :
    wp F (setFn cab functionNumber on) (fun r s' => Grown s s' ∧
      (¬ (cab ≤ 0 ∨ functionNumber < 0) → ¬ 31 < functionNumber.toUInt16 →
        Answered s xs (UInt16.ofInt cab) (!r) s')) s := by
  -- what follows the packet, in a state that differs in its packets only
  have hslot : ∀ queue, wp F (if 31 < functionNumber.toUInt16 then pure true else do
      let slot ← onSlots (LocoSlot.getSlot (UInt16.ofInt cab) true)
      match slot with
      | none => pure false
      | some a =>
        onSlots (writeSlot a (withFunction functionNumber.toUInt16 on))
        pure true) (fun r s' => Grown s s' ∧ (¬ (cab ≤ 0 ∨ functionNumber < 0) →
          ¬ 31 < functionNumber.toUInt16 → Answered s xs (UInt16.ofInt cab) (!r) s'))
        { s with queue := queue } := by
    intro queue
    have hs' : Grown s { s with queue := queue } := Grown.of_queue hs
    split
    · next hhigh => exact ⟨hs', fun _ hlow => absurd hhigh hlow⟩
    · refine wp_mono (wp_askAndWrite hs'.sound h hc (!·) _ _ (place_withFunction _ on) false true rfl) ?_
      intro r s' ha
      exact ⟨hs'.trans ha.grown, fun _ _ => ha.of_queue⟩
  unfold setFn
  split
  · next hbad => exact ⟨Grown.refl hs, fun hgood => absurd hbad hgood⟩
  · rw [wp_bind]
    exact wp_when (fun _ => hslot _) (fun _ => hslot s.queue)

/-- `setDCFreq` keeps the slots that were there, and changes nothing without a slot for its loco. -/
theorem setDCFreq_spec (hs : Sound s) (h : Lists s.locos xs ys) (hc : Consists s.locos xs none)
    (cab : Int) (freq : UInt8) :
    wp F (setDCFreq cab freq) (fun _ s' => Grown s s' ∧
      (¬ (cab = 0 ∨ 3 < freq) → ¬ (UInt16.ofInt cab ≠ 0 ∧ Room s.locos xs [UInt16.ofInt cab]) →
        s' = s)) s := by
  unfold setDCFreq
  split
  · next hbad => exact ⟨Grown.refl hs, fun hgood => absurd hbad hgood⟩
  · rw [wp_bind]
    refine wp_askSlot h hc (UInt16.ofInt cab) ?_ ?_
    · intro _
      exact ⟨Grown.refl hs, fun _ _ => rfl⟩
    · intro a s' xs' ys' hg
      refine wp_mono (wp_writeGranted hs h hg fun _ => rfl) ?_
      intro _ s'' hs''
      exact ⟨hs'', fun _ hno => absurd hg.room hno⟩

/-- `setMomentum` keeps the slots that were there, and fails without a slot for its loco. -/
theorem setMomentum_spec (hs : Sound s) (h : Lists s.locos xs ys)
    (hc : Consists s.locos xs none) (locoId : Int) (accelerating decelerating : Int16) :
    wp F (setMomentum locoId accelerating decelerating) (fun r s' => Grown s s' ∧
      (0 < locoId → ¬ (accelerating < -1 ∨ decelerating < -1) →
        ¬ (momentumTooLong accelerating ∨ momentumTooLong decelerating) →
        Answered s xs (UInt16.ofInt locoId) (!r) s')) s := by
  unfold setMomentum
  split
  · next hneg => exact ⟨Grown.refl hs, fun hpos => absurd hneg (by omega)⟩
  · split
    · next hzero =>
      split
      · exact ⟨Grown.refl hs, fun hpos => absurd hzero (by omega)⟩
      · exact ⟨⟨⟨hs.table, hs.tracks, hs.reminder⟩, fun _ hb => ⟨hb, rfl⟩⟩,
          fun hpos => absurd hzero (by omega)⟩
    · split
      · next hbad => exact ⟨Grown.refl hs, fun _ hgood => absurd hbad hgood⟩
      · split
        · next hbad => exact ⟨Grown.refl hs, fun _ _ hgood => absurd hbad hgood⟩
        · refine wp_mono (wp_askAndWrite hs h hc (!·) (UInt16.ofInt locoId)
            (withMomentum accelerating decelerating) (fun _ => rfl) false true rfl) ?_
          intro r s' ha
          exact ⟨ha.grown, fun _ _ _ => ha⟩

end DCC

end CommandStation
