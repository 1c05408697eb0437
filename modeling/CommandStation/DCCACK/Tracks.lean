import CommandStation.DCCACK.Programs

/-!
# Power and join

What `Setup` and the way back do to the tracks: they are unjoined and joined again, and the power of
the prog track is switched. On the ESP32 an unjoined track is found by its number and gets the mode
of a prog track back, which takes this mode from every other track.
-/

namespace CommandStation

namespace ProgTracks

/-! ## Power -/

@[simp] theorem setPower_setPower (tracks : ProgTracks) (t : Nat) (mode mode' : PowerMode) :
    (tracks.setPower t mode).setPower t mode' = tracks.setPower t mode' := by
  simp only [setPower, List.modify_modify_eq]
  rfl

/-- Nothing is changed by the power that there is. -/
theorem setPower_of_power {tracks : ProgTracks} {t : Nat} {mode : PowerMode}
    (h : tracks.power t = some mode) : tracks.setPower t mode = tracks := by
  obtain ⟨driver, hdriver, rfl⟩ := Option.map_eq_some_iff.mp h
  have hmodify : tracks.track.modify t (fun d => { d with powerMode := driver.powerMode }) =
      tracks.track := by
    apply List.ext_getElem?
    intro i
    rw [List.getElem?_modify]
    by_cases hi : t = i
    · subst hi
      simp [hdriver]
    · simp [hi]
  rw [setPower, hmodify]

theorem power_setPower {tracks : ProgTracks} {t : Nat} (h : tracks.power t ≠ none)
    (mode : PowerMode) : (tracks.setPower t mode).power t = some mode := by
  obtain ⟨mode', hmode⟩ := Option.ne_none_iff_exists'.mp h
  obtain ⟨driver, hdriver, -⟩ := Option.map_eq_some_iff.mp hmode
  simp [power, setPower, hdriver]

/-! ## Join -/

section

variable {tracks : ProgTracks} {t u : Nat}

theorem track_setTrackMode_main (tracks : ProgTracks) (u : Nat) :
    (tracks.setTrackMode u TrackMode.main).track =
      tracks.track.modify u fun driver => { driver with trackMode := TrackMode.main } := by
  have hmain : TrackMode.has TrackMode.main TrackMode.prog = false := rfl
  rw [setTrackMode]
  split
  · next hnone =>
    rw [List.modify_eq_self]
    exact List.getElem?_eq_none_iff.mp hnone
  · simp only [hmain, Bool.false_eq_true, if_false]
    split <;> rfl

/-- What becomes of another prog track. -/
def revoked (driver : ProgDriver) : ProgDriver :=
  if TrackMode.has driver.trackMode TrackMode.prog then
    { driver with powerMode := .off, trackMode := TrackMode.none }
  else driver

/-- A track that becomes PROG takes this mode from any other. -/
theorem getElem?_setTrackMode_prog (h : u < tracks.track.length) (i : Nat) :
    (tracks.setTrackMode u TrackMode.prog).track[i]? =
      if i = u then tracks.track[i]?.map fun driver => { driver with trackMode := TrackMode.prog }
      else tracks.track[i]?.map revoked := by
  have hprog : TrackMode.has TrackMode.prog TrackMode.prog = true := rfl
  rw [setTrackMode, List.getElem?_eq_getElem h]
  simp only [hprog, not_true_eq_false, and_false, if_true, if_false, revokeProg]
  rw [List.getElem?_modify, List.getElem?_mapIdx]
  by_cases hi : i = u
  · subst hi
    cases tracks.track[i]? <;> simp
  · have hi' : ¬ u = i := fun h => hi h.symm
    simp only [hi, hi', if_false]
    cases tracks.track[i]? with
    | none => rfl
    | some driver => simp [revoked, hi]

theorem getProgDriver_eq_some (h : tracks.getProgDriver = some t) :
    ∃ driver, tracks.track[t]? = some driver ∧ TrackMode.has driver.trackMode TrackMode.prog = true := by
  rw [getProgDriver, List.findIdx?_eq_some_iff_getElem] at h
  obtain ⟨hlt, hhas, -⟩ := h
  exact ⟨tracks.track[t], List.getElem?_eq_getElem hlt, hhas⟩

theorem not_has_revoked (driver : ProgDriver) :
    TrackMode.has (revoked driver).trackMode TrackMode.prog = false := by
  rw [revoked]
  split
  · exact (by decide : TrackMode.has TrackMode.none TrackMode.prog = false)
  · next h => simpa using h

theorem eq_of_getProgDriver (hu : u < tracks.track.length)
    (h : (tracks.setTrackMode u TrackMode.prog).getProgDriver = some t) : t = u := by
  obtain ⟨driver, hdriver, hhas⟩ := getProgDriver_eq_some h
  by_contra hne
  rw [getElem?_setTrackMode_prog hu, if_neg hne] at hdriver
  obtain ⟨driver', -, rfl⟩ := Option.map_eq_some_iff.mp hdriver
  rw [not_has_revoked] at hhas
  cases hhas

/-- A join leaves the power alone. -/
theorem power_setJoin_true (tracks : ProgTracks) (t : Nat) :
    (tracks.setJoin true).power t = tracks.power t := by
  rw [setJoin]
  split
  · rw [if_pos rfl]
    split
    · rfl
    · next u hu =>
      change ((ProgTracks.setTrackMode _ u TrackMode.main).track[t]?).map _ = _
      rw [track_setTrackMode_main, List.getElem?_modify, power]
      cases tracks.track[t]? with
      | none => rfl
      | some driver =>
        simp only [Option.map_some]
        split <;> rfl
  · rfl

/-- What `setJoin(false)` does on the ESP32. -/
theorem setJoin_false_esp32 (hplatform : tracks.platform = .esp32) :
    (tracks.setJoin false).track =
      tracks.tempProgTrack.elim tracks.track fun u => (tracks.setTrackMode u TrackMode.prog).track := by
  rw [setJoin, if_pos hplatform, if_neg (by decide)]
  cases tracks.tempProgTrack <;> rfl

theorem setTrackMode_of_le (h : tracks.track.length ≤ u) (mode : UInt8) :
    tracks.setTrackMode u mode = tracks := by
  rw [setTrackMode, List.getElem?_eq_none h]

/-- The prog track that `Setup` finds has been given its mode just now, or had it before. -/
theorem getElem?_unjoined (h : tracks.unjoined.getProgDriver = some t) :
    ∃ driver, tracks.track[t]? = some driver ∧
      (tracks.unjoined.track[t]? = some driver ∨
        tracks.unjoined.track[t]? = some { driver with trackMode := TrackMode.prog }) := by
  obtain ⟨driver, hdriver, -⟩ := getProgDriver_eq_some h
  by_cases hjoined : tracks.isJoined = true
  · rw [unjoined, if_pos hjoined] at h hdriver ⊢
    by_cases hplatform : tracks.platform = .esp32
    · have htrack := setJoin_false_esp32 hplatform
      rw [getProgDriver, htrack] at h
      rw [htrack] at hdriver ⊢
      cases htemp : tracks.tempProgTrack with
      | none =>
        rw [htemp] at hdriver
        exact ⟨driver, hdriver, .inl hdriver⟩
      | some u =>
        rw [htemp] at h hdriver
        change (tracks.setTrackMode u TrackMode.prog).track[t]? = some driver at hdriver
        change (tracks.setTrackMode u TrackMode.prog).getProgDriver = some t at h
        by_cases hu : u < tracks.track.length
        · obtain rfl := eq_of_getProgDriver hu h
          refine ⟨tracks.track[t], List.getElem?_eq_getElem hu, .inr ?_⟩
          change (tracks.setTrackMode t TrackMode.prog).track[t]? = _
          rw [getElem?_setTrackMode_prog hu, if_pos rfl, List.getElem?_eq_getElem hu]
          rfl
        · rw [setTrackMode_of_le (Nat.le_of_not_lt hu)] at hdriver
          refine ⟨driver, hdriver, .inl ?_⟩
          change (tracks.setTrackMode u TrackMode.prog).track[t]? = _
          rw [setTrackMode_of_le (Nat.le_of_not_lt hu), hdriver]
    · have htrack : (tracks.setJoin false).track = tracks.track := by
        rw [setJoin, if_neg hplatform]
      rw [htrack] at hdriver ⊢
      exact ⟨driver, hdriver, .inl hdriver⟩
  · rw [unjoined, if_neg hjoined] at hdriver ⊢
    exact ⟨driver, hdriver, .inl hdriver⟩

theorem power_unjoined (h : tracks.unjoined.getProgDriver = some t) :
    tracks.unjoined.power t = tracks.power t := by
  obtain ⟨driver, hdriver, hunjoined | hunjoined⟩ := getElem?_unjoined h
  · rw [power, power, hdriver, hunjoined]
  · rw [power, power, hdriver, hunjoined]
    rfl

end

/-- There is a prog track `t` that can measure current: `Setup` starts a program. -/
structure CanStart (tracks : ProgTracks) (t : Nat) : Prop where
  driver : tracks.unjoined.getProgDriver = some t
  measure : tracks.unjoined.track[t]?.any ProgDriver.canMeasureCurrent = true

/-- The power of the prog track is on or off as well. -/
structure CanProgram (tracks : ProgTracks) (t : Nat) : Prop extends CanStart tracks t where
  power : tracks.unjoined.power t = some .on ∨ tracks.unjoined.power t = some .off

/-- A motor shield: the main track and the prog track are joined, the power of the latter is off. -/
def shield : ProgTracks where
  platform := .avr
  track := [⟨TrackMode.main, .on, true⟩, ⟨TrackMode.prog, .off, true⟩]
  progTrackSyncMain := true
  tempProgTrack := none

theorem canProgram_shield : shield.CanProgram 1 := ⟨⟨by decide, by decide⟩, by decide⟩

/-- The tracks when programming is over. -/
def rejoined (tracks : ProgTracks) : ProgTracks :=
  if tracks.isJoined then tracks.unjoined.setJoin true else tracks.unjoined

section

variable {tracks : ProgTracks} {t : Nat}

theorem isJoined_setJoin_true (h : tracks.getProgDriver = some t) :
    (tracks.setJoin true).isJoined = true := by
  rw [setJoin]
  split
  · rw [if_pos rfl, h]
    rfl
  · rfl

/-- **The tracks are joined again if they were.** -/
theorem isJoined_rejoined (h : tracks.CanStart t) : tracks.rejoined.isJoined = tracks.isJoined := by
  rw [rejoined]
  split
  · next hjoined => rw [isJoined_setJoin_true h.driver, hjoined]
  · next hjoined => rw [unjoined, if_neg hjoined]

/-- **The power is as it was.** -/
theorem power_rejoined (h : tracks.CanStart t) : tracks.rejoined.power t = tracks.power t := by
  rw [rejoined]
  split
  · rw [power_setJoin_true, power_unjoined h.driver]
  · rw [power_unjoined h.driver]

/-! ## Once again -/

/-- No track is a prog track and a main track: no `TRACK_MODE` says so. -/
def Plain (tracks : ProgTracks) : Prop :=
  ∀ driver ∈ tracks.track, TrackMode.has driver.trackMode TrackMode.prog = true →
    TrackMode.has driver.trackMode TrackMode.main = false

instance (tracks : ProgTracks) : Decidable tracks.Plain :=
  inferInstanceAs (Decidable (∀ driver ∈ tracks.track, _))

/-- A track that has become PROG is the programming track. -/
theorem getProgDriver_setTrackMode (h : t < tracks.track.length) :
    (tracks.setTrackMode t TrackMode.prog).getProgDriver = some t := by
  have htrack := getElem?_setTrackMode_prog h
  have hself := htrack t
  rw [if_pos rfl, List.getElem?_eq_getElem h, Option.map_some] at hself
  obtain ⟨hlt, hself⟩ := List.getElem?_eq_some_iff.mp hself
  rw [getProgDriver, List.findIdx?_eq_some_iff_getElem]
  refine ⟨hlt, ?_, ?_⟩
  · rw [hself]
    exact (rfl : TrackMode.has TrackMode.prog TrackMode.prog = true)
  · intro j hj
    have hother := htrack j
    rw [if_neg (Nat.ne_of_lt hj), List.getElem?_eq_getElem (Nat.lt_trans hj hlt),
      List.getElem?_eq_getElem (Nat.lt_trans hj h), Option.map_some, Option.some_inj] at hother
    rw [hother, not_has_revoked]
    decide

theorem platform_setTrackMode (tracks : ProgTracks) (u : Nat) (mode : UInt8) :
    (tracks.setTrackMode u mode).platform = tracks.platform := by
  rw [setTrackMode]
  split
  · rfl
  · dsimp only
    split
    · split <;> rfl
    · split <;> rfl

theorem platform_unjoined (tracks : ProgTracks) : tracks.unjoined.platform = tracks.platform := by
  rw [unjoined]
  split
  · rw [setJoin]
    split
    · rw [if_neg (by decide)]
      split
      · rfl
      · exact platform_setTrackMode _ _ _
    · rfl
  · rfl

/-- What `setJoin(true)` does on the ESP32, to a prog track that is not a main track. -/
theorem setJoin_true_esp32 (hplatform : tracks.platform = .esp32)
    (hdriver : tracks.getProgDriver = some t) {driver : ProgDriver}
    (htrack : tracks.track[t]? = some driver)
    (hmain : TrackMode.has driver.trackMode TrackMode.main = false) :
    tracks.setJoin true = { tracks with
      track := tracks.track.modify t fun driver => { driver with trackMode := TrackMode.main }
      tempProgTrack := some t
      progTrackSyncMain := true } := by
  have hprog : TrackMode.has TrackMode.main TrackMode.prog = false := rfl
  rw [setJoin, if_pos hplatform, if_pos rfl, hdriver]
  simp only [setTrackMode, htrack, hprog, hmain, Bool.false_eq_true, if_false, false_and, and_false]

theorem setJoin_of_ne (hplatform : tracks.platform ≠ .esp32) (joined : Bool) :
    tracks.setJoin joined = { tracks with progTrackSyncMain := joined } := by
  rw [setJoin, if_neg hplatform]

/-- Joined and unjoined once more, on the ESP32. -/
theorem getElem?_unjoined_setJoin (hplatform : tracks.platform = .esp32)
    (hdriver : tracks.getProgDriver = some t) {driver : ProgDriver}
    (htrack : tracks.track[t]? = some driver)
    (hmain : TrackMode.has driver.trackMode TrackMode.main = false) :
    (tracks.setJoin true).unjoined.getProgDriver = some t ∧
      (tracks.setJoin true).unjoined.track[t]? = some { driver with trackMode := TrackMode.prog } := by
  have hjoined := setJoin_true_esp32 hplatform hdriver htrack hmain
  have hlt : t < (tracks.setJoin true).track.length := by
    rw [hjoined, List.length_modify]
    exact (List.getElem?_eq_some_iff.mp htrack).1
  have htracks : (tracks.setJoin true).unjoined.track =
      ((tracks.setJoin true).setTrackMode t TrackMode.prog).track := by
    rw [unjoined, if_pos (by rw [hjoined]; rfl), setJoin_false_esp32 (by rw [hjoined]; exact hplatform),
      hjoined]
    rfl
  rw [getProgDriver, htracks]
  refine ⟨getProgDriver_setTrackMode hlt, ?_⟩
  rw [getElem?_setTrackMode_prog hlt, if_pos rfl, hjoined]
  simp [htrack]

/-- **The prog track can be used again.** -/
theorem canProgram_rejoined (h : tracks.CanProgram t) (hplain : tracks.Plain) :
    tracks.rejoined.CanProgram t := by
  by_cases hjoined : tracks.isJoined = true
  · by_cases hplatform : tracks.platform = .esp32
    · obtain ⟨driver, hdriver, hunjoined⟩ := getElem?_unjoined h.driver
      obtain ⟨driver', hdriver', hhas⟩ := getProgDriver_eq_some h.driver
      have hmain : TrackMode.has driver'.trackMode TrackMode.main = false := by
        rcases hunjoined with heq | heq
        · obtain rfl : driver = driver' := by simpa [heq] using hdriver'
          exact hplain driver (List.mem_of_getElem? hdriver) hhas
        · obtain rfl : { driver with trackMode := TrackMode.prog } = driver' := by
            simpa [heq] using hdriver'
          exact (rfl : TrackMode.has TrackMode.prog TrackMode.main = false)
      obtain ⟨hagain, htrack⟩ := getElem?_unjoined_setJoin
        (tracks.platform_unjoined.trans hplatform) h.driver hdriver' hmain
      have hmeasure := h.measure
      have hpower := h.power
      rw [power] at hpower
      rw [hdriver'] at hmeasure hpower
      rw [rejoined, if_pos hjoined]
      refine ⟨⟨hagain, ?_⟩, ?_⟩
      · rw [htrack]
        exact hmeasure
      · rw [power, htrack]
        exact hpower
    · have hrejoined : tracks.rejoined = tracks := by
        rw [rejoined, if_pos hjoined, setJoin_of_ne (by rwa [platform_unjoined]), unjoined,
          if_pos hjoined, setJoin_of_ne hplatform, ← hjoined]
        rfl
      rw [hrejoined]
      exact h
  · have hrejoined : tracks.rejoined = tracks := by
      rw [rejoined, if_neg hjoined, unjoined, if_neg hjoined]
    rw [hrejoined]
    exact h

end

end ProgTracks

end CommandStation
