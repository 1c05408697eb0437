import CommandStation.TrackManager.Basic
import CommandStation.DCC.Spec
import CommandStation.Lib.Preserves

/-!
# At most one prog track

Of a station only the modes and the power of its tracks matter here: `Station.modes`. `remode` is
what a call of `setTrackMode` makes of them, and all that happens to modes in a history is that
they are remoded or that the power of tracks is switched. As `remode` takes the mode `PROG` from
all other tracks when it gives it to one, there is never more than one prog track.

On the ESP32 a station that is not joined has no hidden prog track. So the second half of a join
and unjoin gives the mode back to the track that the first half took it from.
-/

namespace CommandStation

open CommandStation.Lib

/-- Mode and power of a track. -/
abbrev ModePower := UInt8 × PowerMode

namespace MotorDriver

def modePower (driver : MotorDriver) : ModePower := (driver.trackMode, driver.powerMode)

end MotorDriver

namespace ModePower

def isProg (m : ModePower) : Bool := TrackMode.has m.1 TrackMode.prog

/-- What becomes of another prog track. -/
def revoke (m : ModePower) : ModePower := if m.isProg then (TrackMode.none, .off) else m

theorem revoke_of_not_isProg {m : ModePower} (h : m.isProg = false) : m.revoke = m := by
  rw [revoke, h]
  rfl

@[simp] theorem isProg_revoke (m : ModePower) : m.revoke.isProg = false := by
  rw [revoke]
  split
  · show TrackMode.has TrackMode.none TrackMode.prog = false
    decide
  · next h => simpa using h

/-- The track that is given a mode. -/
def give (mode : UInt8) (offAtChange : Bool) (m : ModePower) : ModePower :=
  (mode, if mode ≠ m.1 ∧ offAtChange then .off else m.2)

end ModePower

def Station.modes (s : Station) : List ModePower := s.tracks.map MotorDriver.modePower

/-- At most one track is a prog track. -/
def OneProg (ms : List ModePower) : Prop :=
  ∀ (t u : Nat) m m', ms[t]? = some m → ms[u]? = some m' →
    m.isProg = true → m'.isProg = true → t = u

/-- The modes after `setTrackMode(trackToSet, mode, _, offAtChange)`. -/
def remode (trackToSet : Nat) (mode : UInt8) (offAtChange : Bool) (ms : List ModePower) :
    List ModePower :=
  (if TrackMode.has mode TrackMode.prog then
    ms.mapIdx fun t m => if t = trackToSet then m else m.revoke else ms).modify trackToSet
      (ModePower.give mode offAtChange)

theorem getElem?_remode (t : Nat) (mode : UInt8) (off : Bool) (ms : List ModePower) (i : Nat) :
    (remode t mode off ms)[i]? = (ms[i]?).map fun m =>
      if i = t then m.give mode off
      else if TrackMode.has mode TrackMode.prog then m.revoke else m := by
  have hrevoked : (if TrackMode.has mode TrackMode.prog then
      ms.mapIdx fun u m => if u = t then m else m.revoke else ms)[i]? = (ms[i]?).map fun m =>
        if TrackMode.has mode TrackMode.prog ∧ i ≠ t then m.revoke else m := by
    by_cases hprog : TrackMode.has mode TrackMode.prog = true
    · simp only [hprog, if_true, true_and, List.getElem?_mapIdx, ne_eq, ite_not]
    · simp [hprog]
  rw [remode, List.getElem?_modify, hrevoked]
  cases ms[i]? with
  | none => rfl
  | some m => grind

/-- Remoding keeps the prog track unique. -/
theorem OneProg.remode {ms : List ModePower} (h : OneProg ms) (t : Nat) (mode : UInt8)
    (off : Bool) : OneProg (remode t mode off ms) := by
  intro i j m m' hi hj hm hm'
  rw [getElem?_remode] at hi hj
  obtain ⟨n, hn, rfl⟩ := Option.map_eq_some_iff.mp hi
  obtain ⟨n', hn', rfl⟩ := Option.map_eq_some_iff.mp hj
  by_cases hprog : TrackMode.has mode TrackMode.prog = true
  · -- all other prog tracks are revoked
    have honly : ∀ (k : Nat) (m : ModePower), (if k = t then m.give mode off
        else if TrackMode.has mode TrackMode.prog = true then m.revoke else m).isProg = true →
        k = t := by
      intro k m hk
      by_contra hne
      rw [if_neg hne, if_pos hprog, ModePower.isProg_revoke] at hk
      cases hk
    rw [honly i n hm, honly j n' hm']
  · -- the track itself is not a prog track now
    have hold : ∀ (k : Nat) (m : ModePower), (if k = t then m.give mode off
        else if TrackMode.has mode TrackMode.prog = true then m.revoke else m).isProg = true →
        m.isProg = true := by
      intro k m hk
      rw [if_neg hprog] at hk
      split at hk
      · exact absurd hk hprog
      · exact hk
    exact h i j n n' hn hn' (hold i n hm) (hold j n' hm')

/-- A prog track that is made a main track and a prog track again. -/
theorem remode_main_prog {ms : List ModePower} (h : OneProg ms) {t : Nat} {power : PowerMode}
    (ht : ms[t]? = some (TrackMode.prog, power)) :
    remode t TrackMode.prog false (remode t TrackMode.main false ms) = ms := by
  apply List.ext_getElem?
  intro i
  rw [getElem?_remode, getElem?_remode, Option.map_map]
  by_cases hi : i = t
  · subst hi
    simp [ht, ModePower.give]
  · cases hm : ms[i]? with
    | none => rfl
    | some m =>
      have hnot : m.isProg = false := by
        by_contra hprog
        have hprogt : ModePower.isProg (TrackMode.prog, power) = true := by
          show TrackMode.has TrackMode.prog TrackMode.prog = true
          decide
        exact hi (h i t m _ hm ht (by simpa using hprog) hprogt)
      have hmain : TrackMode.has TrackMode.main TrackMode.prog = false := rfl
      have hprog : TrackMode.has TrackMode.prog TrackMode.prog = true := rfl
      simp [hi, hmain, hprog, ModePower.revoke_of_not_isProg hnot]

/-! ## The calls of `TrackManager` -/

/-- Modes and power of all tracks stay. -/
def SameModes (s s' : Station) : Prop := s'.modes = s.modes

instance : Std.Refl SameModes := ⟨fun _ => rfl⟩

instance : IsTrans Station SameModes := ⟨fun _ _ _ h h' => h'.trans h⟩

namespace TrackManager

variable {F : Fault → Prop} {s : Station}

theorem wp_setTrack_modes (t : Nat) {f : MotorDriver → MotorDriver} {g : ModePower → ModePower}
    (hf : ∀ driver, (f driver).modePower = g driver.modePower) :
    wp F (setTrack t f) (fun _ s' => s'.modes = s.modes.modify t g) s := by
  show (s.tracks.modify t f).map MotorDriver.modePower = _
  rw [Station.modes]
  apply List.ext_getElem?
  intro i
  rw [List.getElem?_map, List.getElem?_modify, List.getElem?_modify, List.getElem?_map]
  cases s.tracks[i]? with
  | none => rfl
  | some driver =>
    by_cases hi : t = i
    · simp [hi, hf]
    · simp [hi]

/-- Writes to other members of a driver. -/
theorem wp_setTrack_same (t : Nat) {f : MotorDriver → MotorDriver}
    (hf : ∀ driver, (f driver).modePower = driver.modePower) :
    wp F (setTrack t f) (fun _ s' => SameModes s s') s := by
  refine wp_mono (wp_setTrack_modes t (g := id) hf) ?_
  intro _ s' hs'
  rw [List.modify_id] at hs'
  exact hs'

theorem wp_driveTrack_same (t : Nat) (speedcode frequency : UInt8) :
    wp F (driveTrack t speedcode frequency) (fun _ s' => SameModes s s') s := by
  simp only [driveTrack, wp_modify]
  cases hdriver : s.tracks[t]? with
  | none => exact Std.Refl.refl s
  | some driver =>
    show SameModes s (if driver.brakePin = .unused then s else _)
    split
    · exact Std.Refl.refl s
    · show (s.tracks.set t _).map MotorDriver.modePower = s.modes
      rw [List.map_set, Station.modes]
      apply List.ext_getElem?
      intro i
      rw [List.getElem?_set, List.getElem?_map, List.length_map]
      grind [MotorDriver.modePower]

theorem wp_detachDCSignal_same (t : Nat) :
    wp F (detachDCSignal t) (fun _ s' => SameModes s s') s := by
  simp only [detachDCSignal, wp_bind, wp_get]
  cases s.platform with
  | uno => exact wp_driveTrack_same t 128 0
  | avr => exact wp_driveTrack_same t 128 0
  | arm => exact wp_setTrack_same t fun _ => rfl
  | esp32 => exact wp_setTrack_same t fun _ => rfl

/-- A DC track that is given its speed, as far as the loco table can be read. -/
theorem preserves_applyDCSpeed (t : Nat) (dcAddr : Int16) :
    Preserves SameModes (applyDCSpeed t dcAddr) := by
  have hread : ∀ {α : Type} (m : Slots α), Preserves SameModes (onSlots m) :=
    fun m => preserves_zoom fun _ _ => rfl
  refine preserves_bind (hread _) fun speedcode => preserves_bind ?_ fun frequency => ?_
  · intro s
    simp only [DCC.getThrottleFrequency, wp_bind, wp_get]
    split
    · exact (Std.Refl.refl s : SameModes s s)
    · exact hread _ s
  · exact fun s => wp_driveTrack_same t speedcode frequency

/-- The tracks `ts` lose the mode `PROG`. -/
theorem wp_revokeProg_all (t : Nat) (ts : List Nat) :
    wp F (runProg (revokeProg t) ts) (fun _ s' => s'.modes = s.modes.mapIdx fun u m =>
      if u ∈ ts ∧ u ≠ t then m.revoke else m) s := by
  induction ts generalizing s with
  | nil => simp [runProg, List.mapIdx_eq_zipIdx_map, List.zipIdx_map_fst]
  | cons u ts ih =>
    rw [runProg, wp_bind]
    have hone : wp F (revokeProg t u) (fun _ s' => s'.modes = s.modes.mapIdx fun v m =>
        if v = u ∧ v ≠ t then m.revoke else m) s := by
      unfold revokeProg
      split
      · next h =>
        show s.modes = _
        apply List.ext_getElem?
        grind
      · next h =>
        refine wp_mono (wp_setTrack_modes u (g := ModePower.revoke) fun driver => ?_) ?_
        · rw [ModePower.revoke]
          show _ = if TrackMode.has driver.trackMode TrackMode.prog then _ else _
          split <;> rfl
        · intro _ s' hs'
          rw [hs']
          apply List.ext_getElem?
          intro i
          rw [List.getElem?_modify, List.getElem?_mapIdx]
          cases s.modes[i]? <;> grind
    refine wp_mono hone ?_
    intro _ s₁ h₁
    refine wp_mono ih ?_
    intro _ s₂ h₂
    rw [h₂, h₁]
    apply List.ext_getElem?
    intro i
    simp only [List.getElem?_mapIdx, Option.map_map, List.mem_cons]
    have hrevoke : ∀ m : ModePower, m.revoke.revoke = m.revoke := fun m =>
      ModePower.revoke_of_not_isProg (ModePower.isProg_revoke m)
    cases s.modes[i]? with
    | none => rfl
    | some m => grind

/-- Only one track may be prog. -/
theorem wp_forEachTrack_revokeProg (t : Nat) :
    wp F (forEachTrack (revokeProg t)) (fun _ s' => s'.modes = s.modes.mapIdx fun u m =>
      if u = t then m else m.revoke) s := by
  simp only [forEachTrack, wp_bind, wp_get]
  refine wp_mono (wp_revokeProg_all t _) ?_
  intro _ s' hs'
  rw [hs']
  apply List.ext_getElem?
  intro i
  have hlength : s.modes.length = s.tracks.length := List.length_map _
  simp only [List.getElem?_mapIdx, List.mem_range]
  cases hm : s.modes[i]? with
  | none => rfl
  | some m =>
    have hi : i < s.tracks.length := hlength ▸ (List.getElem?_eq_some_iff.mp hm).1
    grind

/-- What `setTrackMode` clears of the old mode leaves the modes as they are. -/
theorem wp_clearPrevious_same (t : Nat) (oldAddr : Int16) (mode : UInt8) (dcAddr : Int16) :
    wp F (clearPrevious t oldAddr mode dcAddr) (fun _ s' => SameModes s s') s := by
  have hset : ∀ (a : Int16) s', SameModes s s' →
      wp F (setTrack t fun driver => { driver with dcAddr := a }) (fun _ s' => SameModes s s') s' := by
    intro a s₁ h₁
    refine wp_mono (wp_setTrack_same t fun _ => rfl) ?_
    exact fun _ s₂ h₂ => h₂.trans h₁
  have hdetach : ∀ a : Int16, wp F (detachDCSignal t) (fun _ s' =>
      wp F (setTrack t fun driver => { driver with dcAddr := a }) (fun _ s' => SameModes s s') s') s :=
    fun a => wp_mono (wp_detachDCSignal_same t) fun _ s₁ h₁ => hset a s₁ h₁
  unfold clearPrevious
  split
  · rw [wp_bind]
    exact wp_when (fun _ => hdetach dcAddr) fun _ => hset dcAddr s rfl
  · rw [wp_bind]
    exact hdetach 0

/-- **`setTrackMode`**: the modes are remoded, or nothing is changed, which happens to missing
tracks and in a DC mode only. Only a DC mode makes it read the loco table. -/
theorem setTrackMode_modes (t : Nat) (mode : UInt8) (dcAddr : Int16) (off : Bool)
    (hdc : TrackMode.has mode TrackMode.dc = true →
      ∀ s, wp F (applyDCSpeed t dcAddr) (fun _ s' => SameModes s s') s) :
    wp F (setTrackMode t mode dcAddr off) (fun ok s' =>
      (s'.modes = if ok then remode t mode off s.modes else s.modes) ∧
      (ok = false → s.modes[t]? = none ∨ TrackMode.has mode TrackMode.dc = true)) s := by
  simp only [setTrackMode, wp_bind, wp_get]
  cases hdriver : s.tracks[t]? with
  | none => exact ⟨rfl, fun _ => .inl (by rw [Station.modes, List.getElem?_map, hdriver]; rfl)⟩
  | some driver =>
    simp only
    split
    · next h => exact ⟨rfl, fun _ => .inr h.1⟩
    · have hold : s.modes[t]? = some driver.modePower := by
        rw [Station.modes, List.getElem?_map, hdriver]
        rfl
      -- what the other tracks have become
      let revoked := if TrackMode.has mode TrackMode.prog then
        s.modes.mapIdx fun u m => if u = t then m else m.revoke else s.modes
      have hrevoked : revoked[t]? = some driver.modePower := by
        show (if _ then _ else _)[t]? = _
        split
        · rw [List.getElem?_mapIdx, hold]
          simp
        · exact hold
      have hpower : ∀ s₃ : Station,
          s₃.modes = revoked.modify t (fun m => (mode, m.2)) →
          wp F (when (mode ≠ driver.trackMode ∧ off) (setTrack t fun driver =>
            { driver with powerMode := .off })) (fun _ s' => s'.modes = remode t mode off s.modes)
            s₃ := by
        intro s₃ h₃
        have hgive : remode t mode off s.modes = revoked.modify t fun m =>
            (mode, if mode ≠ driver.trackMode ∧ off then .off else m.2) := by
          apply List.ext_getElem?
          intro i
          rw [remode, List.getElem?_modify, List.getElem?_modify]
          by_cases hi : t = i
          · subst hi
            show (revoked[t]?).map _ = (revoked[t]?).map _
            rw [hrevoked]
            simp [ModePower.give, MotorDriver.modePower]
          · simp only [hi, if_false]
            rfl
        refine wp_when (fun hoff => ?_) fun hoff => ?_
        · refine wp_mono (wp_setTrack_modes t (g := fun m => (m.1, .off)) fun _ => rfl) ?_
          intro _ s₄ h₄
          rw [h₄, h₃, hgive, List.modify_modify_eq]
          simp [hoff, Function.comp_def]
        · rw [h₃, hgive]
          simp [hoff]
      have hrest : ∀ s₁ : Station, s₁.modes = revoked →
          wp F (clearPrevious t driver.dcAddr mode dcAddr) (fun _ => wp F (setTrack t fun driver =>
            { driver with trackMode := mode }) fun _ => wp F (when (TrackMode.has mode TrackMode.dc)
            (applyDCSpeed t dcAddr)) fun _ => wp F (when (mode ≠ driver.trackMode ∧ off)
            (setTrack t fun driver => { driver with powerMode := .off }))
            fun _ s' => s'.modes = remode t mode off s.modes) s₁ := by
        intro s₁ h₁
        refine wp_mono (wp_clearPrevious_same t driver.dcAddr mode dcAddr) ?_
        intro _ s₂ h₂
        refine wp_mono (wp_setTrack_modes t (g := fun m => (mode, m.2)) fun _ => rfl) ?_
        intro _ s₃ h₃
        have h₃' : s₃.modes = revoked.modify t (fun m => (mode, m.2)) := by rw [h₃, h₂, h₁]
        refine wp_when (fun hmode => ?_) fun _ => hpower s₃ h₃'
        refine wp_mono (hdc hmode s₃) ?_
        intro _ s₄ h₄
        exact hpower s₄ (h₄.trans h₃')
      simp only [wp_bind, wp_pure, if_true, Bool.true_eq_false, false_implies, and_true]
      refine wp_when (fun hprog => ?_) fun hprog => ?_
      · refine wp_mono (wp_forEachTrack_revokeProg t) ?_
        intro _ s₁ h₁
        apply hrest
        rw [h₁]
        exact (if_pos hprog).symm
      · exact hrest s (if_neg hprog).symm

end TrackManager

/-- The board stays the same. -/
def SamePlatform (s s' : Station) : Prop := s'.platform = s.platform

instance : Std.Refl SamePlatform := ⟨fun _ => rfl⟩

instance : IsTrans Station SamePlatform := ⟨fun _ _ _ h h' => h'.trans h⟩

/-- Only the power of tracks is switched. -/
def Repowered (s s' : Station) : Prop :=
  s'.modes.map Prod.fst = s.modes.map Prod.fst ∧ s'.platform = s.platform

instance : Std.Refl Repowered := ⟨fun _ => ⟨rfl, rfl⟩⟩

instance : IsTrans Station Repowered :=
  ⟨fun _ _ _ h h' => ⟨h'.1.trans h.1, h'.2.trans h.2⟩⟩

namespace TrackManager

theorem platform_onSlots {α : Type} (m : Slots α) : Preserves SamePlatform (onSlots m) :=
  preserves_zoom fun _ _ => rfl

theorem platform_setTrack (t : Nat) (f : MotorDriver → MotorDriver) :
    Preserves SamePlatform (setTrack t f) := preserves_modify fun _ => rfl

theorem platform_driveTrack (t : Nat) (speedcode frequency : UInt8) :
    Preserves SamePlatform (driveTrack t speedcode frequency) := by
  apply preserves_modify
  intro s
  cases s.tracks[t]? with
  | none => exact (rfl : s.platform = s.platform)
  | some driver =>
    show (if driver.brakePin = .unused then s else _).platform = s.platform
    split <;> rfl

theorem platform_detachDCSignal (t : Nat) : Preserves SamePlatform (detachDCSignal t) := by
  apply preserves_get_bind
  intro s
  cases s.platform with
  | uno => exact platform_driveTrack t 128 0 s
  | avr => exact platform_driveTrack t 128 0 s
  | arm => exact platform_setTrack t _ s
  | esp32 => exact platform_setTrack t _ s

theorem platform_getThrottleFrequency (cab : UInt16) :
    Preserves SamePlatform (DCC.getThrottleFrequency cab) := by
  apply preserves_bind preserves_get
  intro s
  exact preserves_ite (fun _ => preserves_pure _) fun _ => platform_onSlots _

theorem platform_applyDCSpeed (t : Nat) (dcAddr : Int16) :
    Preserves SamePlatform (applyDCSpeed t dcAddr) :=
  preserves_bind (platform_onSlots _) fun _ =>
    preserves_bind (platform_getThrottleFrequency _) fun _ => platform_driveTrack t _ _

theorem platform_clearPrevious (t : Nat) (oldAddr : Int16) (mode : UInt8) (dcAddr : Int16) :
    Preserves SamePlatform (clearPrevious t oldAddr mode dcAddr) :=
  preserves_ite
    (fun _ => preserves_bind (preserves_when fun _ => platform_detachDCSignal t) fun _ =>
      platform_setTrack t _)
    fun _ => preserves_bind (platform_detachDCSignal t) fun _ => platform_setTrack t _

theorem platform_setTrackMode (t : Nat) (mode : UInt8) (dcAddr : Int16) (off : Bool) :
    Preserves SamePlatform (setTrackMode t mode dcAddr off) := by
  apply preserves_bind preserves_get
  intro s
  cases s.tracks[t]? with
  | none => exact preserves_pure _
  | some driver =>
    refine preserves_ite (fun _ => preserves_pure _) fun _ => ?_
    refine preserves_bind (preserves_when fun _ => ?_) fun _ => ?_
    · refine preserves_bind preserves_get fun _ => preserves_runProg (fun u => ?_) _
      exact preserves_ite (fun _ => preserves_pure _) fun _ => platform_setTrack u _
    · refine preserves_bind (platform_clearPrevious t _ mode dcAddr) fun _ => ?_
      refine preserves_bind (platform_setTrack t _) fun _ => ?_
      refine preserves_bind (preserves_when fun _ => platform_applyDCSpeed t dcAddr) fun _ => ?_
      exact preserves_bind (preserves_when fun _ => platform_setTrack t _) fun _ => preserves_pure _

/-! ### Switching the power -/

theorem repowered_applyDCSpeed (t : Nat) (dcAddr : Int16) :
    Preserves Repowered (applyDCSpeed t dcAddr) := by
  intro s
  refine wp_mono (wp_and (preserves_applyDCSpeed t dcAddr s) (platform_applyDCSpeed t dcAddr s)) ?_
  rintro _ s' ⟨hmodes, hplatform⟩
  exact ⟨congrArg (List.map Prod.fst) hmodes, hplatform⟩

theorem repowered_setPower (t : Nat) (mode : PowerMode) :
    Preserves Repowered (setTrack t fun driver => { driver with powerMode := mode }) := by
  apply preserves_modify
  intro s
  have hmodes : ({ s with tracks := s.tracks.modify t fun driver =>
      { driver with powerMode := mode } } : Station).modes = s.modes.modify t fun m => (m.1, mode) :=
    wp_setTrack_modes (F := fun _ => True) (s := s) t fun _ => rfl
  refine ⟨?_, rfl⟩
  rw [hmodes]
  apply List.ext_getElem?
  intro i
  rw [List.getElem?_map, List.getElem?_map, List.getElem?_modify]
  cases s.modes[i]? with
  | none => rfl
  | some m => by_cases hi : t = i <;> simp [hi]

theorem repowered_setTrackPower (trackmodeToMatch : UInt8) (powermode : PowerMode) :
    Preserves Repowered (setTrackPower trackmodeToMatch powermode) := by
  refine preserves_bind preserves_get fun _ => preserves_runProg (fun t => ?_) _
  apply preserves_bind preserves_get
  intro s
  cases s.tracks[t]? with
  | none => exact preserves_pure _
  | some driver =>
    refine preserves_ite (fun _ => ?_) fun _ => preserves_pure _
    exact preserves_bind (preserves_when fun _ => repowered_applyDCSpeed t _) fun _ =>
      repowered_setPower t powermode

theorem repowered_setPowerOfTrack (powermode : PowerMode) (t : Nat) :
    Preserves Repowered (setPowerOfTrack powermode t) := by
  apply preserves_bind preserves_get
  intro s
  cases s.tracks[t]? with
  | none => exact preserves_pure _
  | some driver =>
    refine preserves_ite (fun _ => repowered_setPower t .off) fun _ => ?_
    exact preserves_bind (preserves_when fun _ => repowered_applyDCSpeed t _) fun _ =>
      repowered_setPower t powermode

end TrackManager

/-- Power changes no mode. -/
theorem OneProg.repowered {s s' : Station} (h : OneProg s.modes) (hr : Repowered s s') :
    OneProg s'.modes := by
  intro t u m m' ht hu hm hm'
  have hmode : ∀ (i : Nat) (n : ModePower), s'.modes[i]? = some n →
      ∃ n' : ModePower, s.modes[i]? = some n' ∧ n'.1 = n.1 := by
    intro i n hn
    have hfst := congrArg (fun ms => ms[i]?) hr.1
    simp only [List.getElem?_map, hn, Option.map_some] at hfst
    obtain ⟨n', hn', heq⟩ := Option.map_eq_some_iff.mp hfst.symm
    exact ⟨n', hn', heq⟩
  obtain ⟨n, hn, heq⟩ := hmode t m ht
  obtain ⟨n', hn', heq'⟩ := hmode u m' hu
  refine h t u n n' hn hn' ?_ ?_
  · rw [ModePower.isProg, heq]
    exact hm
  · rw [ModePower.isProg, heq']
    exact hm'

/-! ## Joins -/

namespace JoinStation

/-- At most one prog track, and none is hidden while the station is not joined. -/
structure JoinSound (s : JoinStation) : Prop where
  oneProg : OneProg s.station.modes
  hidden : s.progTrackSyncMain = false → s.tempProgTrack = none
  esp32 : s.station.platform ≠ .esp32 → s.tempProgTrack = none

variable {F : Fault → Prop} {s : JoinStation}

@[simp] theorem wp_onStation {α : Type} {m : Dcc α} {Q : α → JoinStation → Prop} :
    wp F (onStation m) Q = fun s =>
      wp F m (fun a station => Q a { s with station := station }) s.station :=
  wp_zoom

/-- A program that switches power only. -/
theorem joinSound_repowered {m : Dcc Unit} (hm : Preserves Repowered m) (hs : JoinSound s) :
    wp (fun _ => True) (onStation m) (fun _ s' => JoinSound s') s := by
  rw [wp_onStation]
  refine wp_mono (hm s.station) ?_
  intro _ station hstation
  exact ⟨hs.oneProg.repowered hstation, hs.hidden, by rw [hstation.2]; exact hs.esp32⟩

/-- What a call of `setTrackMode` leaves. -/
structure Remoded (t : Nat) (mode : UInt8) (off : Bool) (s : JoinStation) (ok : Bool)
    (s' : JoinStation) : Prop where
  modes : s'.station.modes =
    if ok then remode t mode off s.station.modes else s.station.modes
  refused : ok = false → s.station.modes[t]? = none ∨ TrackMode.has mode TrackMode.dc = true
  platform : s'.station.platform = s.station.platform
  join : (s'.tempProgTrack = s.tempProgTrack ∧ s'.progTrackSyncMain = s.progTrackSyncMain) ∨
    (s'.tempProgTrack = none ∧ s'.progTrackSyncMain = false ∧ s.tempProgTrack = some t ∧
      TrackMode.has (s.getMode t) TrackMode.main = true ∧
      TrackMode.has mode TrackMode.prog = false)

theorem setTrackMode_spec (t : Nat) (mode : UInt8) (dcAddr : Int16) (off : Bool)
    (hdc : TrackMode.has mode TrackMode.dc = true → ∀ s,
      wp F (TrackManager.applyDCSpeed t dcAddr) (fun _ s' => SameModes s s') s) :
    wp F (setTrackMode t mode dcAddr off) (fun ok s' => Remoded t mode off s ok s') s := by
  simp only [setTrackMode, wp_bind, wp_get, wp_onStation, wp_pure]
  refine wp_mono (wp_and (TrackManager.setTrackMode_modes t mode dcAddr off hdc)
    (TrackManager.platform_setTrackMode t mode dcAddr off s.station)) ?_
  rintro ok station ⟨⟨hmodes, hrefused⟩, hplatform⟩
  refine wp_when (fun h => ?_) fun _ => ?_
  · exact ⟨hmodes, hrefused, hplatform, .inr ⟨rfl, rfl, h.2.2.1, h.2.2.2.1, h.2.2.2.2⟩⟩
  · exact ⟨hmodes, hrefused, hplatform, .inl ⟨rfl, rfl⟩⟩

theorem Remoded.oneProg {t : Nat} {mode : UInt8} {off ok : Bool} {s' : JoinStation}
    (h : Remoded t mode off s ok s') (hs : OneProg s.station.modes) : OneProg s'.station.modes := by
  rw [h.modes]
  split
  · exact hs.remode t mode off
  · exact hs

/-- A change of track mode leaves at most one track in PROG. -/
theorem joinSound_setTrackMode (t : Nat) (mode : UInt8) (dcAddr : Int16) (off : Bool)
    (hs : JoinSound s) :
    wp (fun _ => True) (setTrackMode t mode dcAddr off) (fun _ s' => JoinSound s') s := by
  refine wp_mono (setTrackMode_spec t mode dcAddr off fun _ =>
    TrackManager.preserves_applyDCSpeed t dcAddr) ?_
  intro ok s' h
  refine ⟨h.oneProg hs.oneProg, ?_, ?_⟩
  · intro hsync
    obtain ⟨htemp, hsame⟩ | ⟨htemp, -⟩ := h.join
    · rw [htemp]
      exact hs.hidden (hsame ▸ hsync)
    · exact htemp
  · intro hplatform
    obtain ⟨htemp, -⟩ | ⟨htemp, -⟩ := h.join
    · rw [htemp]
      exact hs.esp32 (h.platform ▸ hplatform)
    · exact htemp

/-- A join or an unjoin leaves at most one track in PROG, and hides none without a join. -/
theorem joinSound_setJoin (joined : Bool) (hs : JoinSound s) :
    wp (fun _ => True) (setJoin joined) (fun _ s' => JoinSound s') s := by
  simp only [setJoin, wp_bind, wp_get]
  split
  · next hplatform => exact ⟨hs.oneProg, fun _ => hs.esp32 hplatform, hs.esp32⟩
  · next hplatform =>
    split
    · cases s.getProgDriver with
      | none => exact hs
      | some t =>
        simp only [wp_bind, wp_modify]
        refine wp_mono (setTrackMode_spec t TrackMode.main 0 false fun h => by cases h) ?_
        intro ok s' h
        refine ⟨h.oneProg hs.oneProg, fun h => (by cases h), fun hne => ?_⟩
        exact absurd (h.platform.trans (not_not.mp hplatform)) hne
    · cases htemp : s.tempProgTrack with
      | none => exact ⟨hs.oneProg, fun _ => htemp, fun _ => htemp⟩
      | some t =>
        simp only [wp_bind, wp_modify]
        refine wp_mono (setTrackMode_spec t TrackMode.prog 0 false fun h => by cases h) ?_
        intro ok s' h
        exact ⟨h.oneProg hs.oneProg, fun _ => rfl, fun _ => rfl⟩

theorem joinSound_when {c : Prop} [Decidable c] {m : Joins Unit}
    (hm : wp (fun _ => True) m (fun _ s' => JoinSound s') s) (hs : JoinSound s) :
    wp (fun _ => True) (when c m) (fun _ s' => JoinSound s') s :=
  wp_when (fun _ => hm) fun _ => hs

/-- So does a command that sets the mode of a track. -/
theorem joinSound_parseMode (t : Nat) (mode : Int16) (hs : JoinSound s) :
    wp (fun _ => True) (parseMode t mode) (fun _ s' => JoinSound s') s := by
  have hset : ∀ m : UInt8,
      wp (fun _ => True) (setTrackMode t m 0 true) (fun _ s' => JoinSound s') s :=
    fun m => joinSound_setTrackMode t m 0 true hs
  have hmodified : ∀ modifier : UInt8, wp (fun _ => True) (do
      let current ← readMode t
      setTrackMode t (current ||| modifier) 0 true) (fun _ s' => JoinSound s') s := by
    intro modifier
    simp only [readMode, wp_bind, wp_get]
    cases s.station.tracks[t]? with
    | none => trivial
    | some driver => exact hset _
  simp only [parseMode, wp_bind, wp_get]
  -- the nine modes with a name of their own, then the two that modify the current mode
  iterate 9 refine wp_ite (fun _ => hset _) fun _ => ?_
  refine wp_ite (fun _ => hmodified TrackMode.modifierAuto) fun _ => ?_
  exact wp_ite (fun _ => hmodified TrackMode.modifierInv) fun _ => hs

/-- So does the command `<= ...>`, whatever its parameters. -/
theorem joinSound_parseEqualSign (p : List Int16) (hs : JoinSound s) :
    wp (fun _ => True) (parseEqualSign p) (fun _ s' => JoinSound s') s := by
  match p with
  | [] => exact hs
  | [_] => exact hs
  | letter :: mode :: rest =>
    simp only [parseEqualSign]
    split
    · exact hs
    · match rest with
      | [] => exact joinSound_parseMode _ mode hs
      | [cab] =>
        simp only [parseModeOfCab]
        split_ifs
        · exact joinSound_setTrackMode _ _ cab true hs
        · exact joinSound_setTrackMode _ _ cab true hs
        · exact hs
      | _ :: _ :: _ => exact hs

/-- So does `setup`. -/
theorem joinSound_setup (canMeasureCurrent : Bool) (hs : JoinSound s) :
    wp (fun _ => True) (setup canMeasureCurrent) (fun _ s' => JoinSound s') s := by
  have hs₁ : JoinSound { s with ackManagerRejoin := s.progTrackSyncMain } :=
    ⟨hs.oneProg, hs.hidden, hs.esp32⟩
  simp only [setup, wp_bind, wp_get, wp_modify]
  refine wp_mono (joinSound_when (joinSound_setJoin false hs₁) hs₁) ?_
  intro _ s₂ hs₂
  cases s₂.getProgDriver with
  | none =>
    exact joinSound_when (joinSound_setJoin false ⟨hs₂.oneProg, hs₂.hidden, hs₂.esp32⟩)
      ⟨hs₂.oneProg, hs₂.hidden, hs₂.esp32⟩
  | some t =>
    simp only
    split
    · exact joinSound_setJoin _ ⟨hs₂.oneProg, hs₂.hidden, hs₂.esp32⟩
    · simp only [wp_bind, wp_modify]
      refine wp_when (fun _ => ?_) fun _ => ⟨hs₂.oneProg, hs₂.hidden, hs₂.esp32⟩
      simp only [wp_bind, wp_modify]
      exact joinSound_repowered (TrackManager.repowered_setPower t .on)
        ⟨hs₂.oneProg, hs₂.hidden, hs₂.esp32⟩

theorem joinSound_setProgDriverPower (mode : PowerMode) (hs : JoinSound s) :
    wp (fun _ => True) (setProgDriverPower mode) (fun _ s' => JoinSound s') s := by
  simp only [setProgDriverPower, wp_bind, wp_get]
  cases s.progDriver with
  | none => trivial
  | some t => exact joinSound_repowered (TrackManager.repowered_setPower t mode) hs

theorem joinSound_callback (hs : JoinSound s) :
    wp (fun _ => True) callback (fun _ s' => JoinSound s') s := by
  simp only [callback, wp_bind, wp_get]
  refine wp_when (fun _ => ?_) fun _ => joinSound_when (joinSound_setJoin true hs) hs
  refine wp_mono (joinSound_setProgDriverPower .off hs) ?_
  intro _ s₁ hs₁
  exact joinSound_when (joinSound_setJoin true hs₁) hs₁

/-- **The step lemma.** -/
theorem joinSound_exec (op : TrackOp) (hs : JoinSound s) :
    wp (fun _ => True) op.exec (fun _ s' => JoinSound s') s := by
  cases op with
  | setTrackMode t mode dcAddr off =>
    simp only [TrackOp.exec, wp_bind]
    exact joinSound_setTrackMode t mode dcAddr off hs
  | parseEqualSign p =>
    simp only [TrackOp.exec, wp_bind]
    exact joinSound_parseEqualSign p hs
  | setJoin joined => exact joinSound_setJoin joined hs
  | setup canMeasureCurrent => exact joinSound_setup canMeasureCurrent hs
  | setProgDriverPower mode => exact joinSound_setProgDriverPower mode hs
  | callback => exact joinSound_callback hs
  | setTrackPower mode power =>
    exact joinSound_repowered (TrackManager.repowered_setTrackPower mode power) hs
  | setPowerOfTrack power t =>
    exact joinSound_repowered (TrackManager.repowered_setPowerOfTrack power t) hs
  | throttles locos => exact ⟨hs.oneProg, hs.hidden, hs.esp32⟩

theorem joinSound_init (platform : Platform) (maxLocos : Nat) (brakePins : List BrakePin)
    (boosterInput : Bool) :
    JoinSound (JoinStation.init (Station.init platform maxLocos brakePins) boosterInput) := by
  refine ⟨?_, fun _ => rfl, fun _ => rfl⟩
  intro t u m m' ht _ hm _
  have hmem := List.mem_of_getElem? ht
  simp only [JoinStation.init, Station.init, Station.modes, List.map_map, List.mem_map] at hmem
  obtain ⟨pin, -, rfl⟩ := hmem
  have hnone : TrackMode.has TrackMode.none TrackMode.prog = true := hm
  exact absurd hnone (by decide)

/-! ## Join and unjoin -/

/-- The prog track has the mode `PROG` without modifiers. -/
def PlainProg (s : JoinStation) : Prop :=
  ∀ m ∈ s.station.modes, m.isProg = true → m.1 = TrackMode.prog

theorem getProgDriver_eq_some {t : Nat} (h : s.getProgDriver = some t) :
    ∃ m, s.station.modes[t]? = some m ∧ m.isProg = true := by
  rw [getProgDriver, List.findIdx?_eq_some_iff_getElem] at h
  obtain ⟨hlt, hhas, -⟩ := h
  refine ⟨s.station.tracks[t].modePower, ?_, hhas⟩
  rw [Station.modes, List.getElem?_map, List.getElem?_eq_getElem hlt]
  rfl

theorem getMode_of_modes {t : Nat} {m : ModePower} (h : s.station.modes[t]? = some m) :
    s.getMode t = m.1 := by
  rw [Station.modes, List.getElem?_map] at h
  obtain ⟨driver, hdriver, rfl⟩ := Option.map_eq_some_iff.mp h
  rw [getMode, hdriver]
  rfl

/-- **Join and unjoin on the ESP32**: every track is as it was. -/
theorem join_unjoin (hs : JoinSound s) (hplatform : s.station.platform = .esp32)
    (hunjoined : s.progTrackSyncMain = false) (hplain : PlainProg s) :
    wp F (do setJoin true; setJoin false) (fun _ s' =>
      s'.station.modes = s.station.modes ∧ s'.progTrackSyncMain = false) s := by
  have htemp := hs.hidden hunjoined
  have hunjoin : ∀ s' : JoinStation, s'.station.platform = .esp32 → s'.tempProgTrack = none →
      wp F (setJoin false) (fun _ s'' =>
        s''.station.modes = s'.station.modes ∧ s''.progTrackSyncMain = false) s' := by
    intro s' hplatform' htemp'
    simp [setJoin, hplatform', htemp']
  rw [wp_bind]
  simp only [setJoin, wp_bind, wp_get, hplatform, ne_eq, not_true_eq_false, if_false, if_true]
  cases hprog : s.getProgDriver with
  | none => exact hunjoin s hplatform htemp
  | some t =>
    obtain ⟨⟨mode, power⟩, hm, hisProg⟩ := getProgDriver_eq_some hprog
    have hmode : mode = TrackMode.prog := hplain _ (List.mem_of_getElem? hm) hisProg
    subst hmode
    simp only [wp_bind, wp_modify]
    refine wp_mono (setTrackMode_spec t TrackMode.main 0 false fun h => by cases h) ?_
    intro ok s₁ h₁
    have hok : ok = true := by
      by_contra hno
      obtain hnone | hdc := h₁.refused (by simpa using hno)
      · rw [show ({ s with tempProgTrack := some t } : JoinStation).station = s.station from rfl,
          hm] at hnone
        cases hnone
      · cases hdc
    have hmodes₁ : s₁.station.modes = remode t TrackMode.main false s.station.modes := by
      rw [h₁.modes, if_pos hok]
    -- the track was no main track before, so the join is not taken back at once
    have htemp₁ : s₁.tempProgTrack = some t := by
      obtain ⟨htemp₁, -⟩ | ⟨-, -, -, hmain, -⟩ := h₁.join
      · exact htemp₁
      · have hmode : ({ s with tempProgTrack := some t } : JoinStation).getMode t =
            TrackMode.prog := getMode_of_modes hm
        rw [hmode] at hmain
        exact absurd hmain (by decide)
    simp only [h₁.platform, hplatform, htemp₁, not_true_eq_false, if_false, Bool.false_eq_true,
      wp_bind, wp_modify]
    refine wp_mono (setTrackMode_spec t TrackMode.prog 0 false fun h => by cases h) ?_
    intro ok₂ s₂ h₂
    have hback : s₂.station.modes = remode t TrackMode.prog false s₁.station.modes := by
      have hok₂ : ok₂ = true := by
        by_contra hno
        obtain hnone | hdc := h₂.refused (by simpa using hno)
        · change s₁.station.modes[t]? = none at hnone
          rw [hmodes₁, getElem?_remode, hm] at hnone
          cases hnone
        · cases hdc
      rw [h₂.modes, if_pos hok₂]
    refine ⟨?_, trivial⟩
    show s₂.station.modes = s.station.modes
    rw [hback, hmodes₁]
    exact remode_main_prog hs.oneProg hm

/-- **One prog track, and joins that can be taken back.** In every history there is at most one
prog track; on an ESP32 that is not joined, and whose prog track has no modifiers, `setJoin(true)`
and `setJoin(false)` come to an end and leave mode and power of all tracks as they were. -/
theorem oneProg_and_join_unjoin (platform : Platform) (maxLocos : Nat) (brakePins : List BrakePin)
    (boosterInput : Bool) (ops : List TrackOp) :
    wp (fun _ => True) (runProg TrackOp.exec ops) (fun _ s =>
      OneProg s.station.modes ∧
      (s.station.platform = .esp32 → s.progTrackSyncMain = false → PlainProg s →
        wp (fun _ => False) (do setJoin true; setJoin false) (fun _ s' =>
          s'.station.modes = s.station.modes ∧ s'.progTrackSyncMain = false) s))
      (JoinStation.init (Station.init platform maxLocos brakePins) boosterInput) := by
  refine wp_mono (wp_runProg JoinSound (fun s op _ => joinSound_exec op)
    (joinSound_init platform maxLocos brakePins boosterInput)
    (alongProg_of_forall (P := fun _ _ => True) (fun _ _ _ => trivial) _)) ?_
  intro _ s hs
  exact ⟨hs.oneProg, fun hplatform hunjoined hplain =>
    join_unjoin hs hplatform hunjoined hplain⟩

end JoinStation

end CommandStation
