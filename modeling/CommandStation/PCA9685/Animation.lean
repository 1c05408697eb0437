import Mathlib.Order.Fin.Basic
import Mathlib.Order.Interval.Set.UnorderedInterval
import CommandStation.PCA9685.Basic

/-!
# Animations

What is written to a servo from its latest request on. While the animation goes on, each refresh writes a
position between the one the servo had and the one requested (`Moving`). The last of them is the one that
was requested. From then on the servo is not busy, and all that may still be written is the 0 that
switches it off (`Arrived`).
-/

namespace CommandStation

namespace PCA9685

variable {platform : Platform} {s s' : ServoData} {d d' : PCA9685} {pin : Fin 16} {held aim : Fin 4096}
variable {n : Nat} {ws : List (Fin 4096)} {out : Option (Fin 4096)}

/-! ## Positions -/

theorem field12_val {v : Int} (h0 : 0 ≤ v) (h : v < 4096) : ((field12 v : Fin 4096) : Int) = v := by
  show ((v % 4096).toNat : Int) = v
  omega

theorem field12_fin (v : Fin 4096) : field12 (v : Int) = v := by
  have hlt := v.isLt
  apply Fin.ext
  have := field12_val (v := (v : Int)) (by omega) (by omega)
  exact_mod_cast this

/-- A fraction of the way leads to a place on it. -/
theorem mapRange_mem {x m a b : Int} (hx : 0 ≤ x) (hxm : x ≤ m) (hm : 0 < m) :
    mapRange x 0 m a b ∈ Set.uIcc a b := by
  have hwhole : (m * (b - a)).tdiv m = b - a := Int.mul_tdiv_cancel_left _ (by omega)
  rw [mapRange, Int.sub_zero, Int.sub_zero, Set.mem_uIcc]
  by_cases hab : a ≤ b
  · left
    have hlow : 0 ≤ (x * (b - a)).tdiv m :=
      Int.tdiv_nonneg (Int.mul_nonneg hx (by omega)) (by omega)
    have hhigh : (x * (b - a)).tdiv m ≤ (m * (b - a)).tdiv m :=
      Int.tdiv_le_tdiv hm (Int.mul_le_mul_of_nonneg_right hxm (by omega))
    omega
  · right
    have hlow : (m * (b - a)).tdiv m ≤ (x * (b - a)).tdiv m :=
      Int.tdiv_le_tdiv hm (Int.mul_le_mul_of_nonpos_right hxm (by omega))
    have hhigh : (x * (b - a)).tdiv m ≤ (0 : Int).tdiv m :=
      Int.tdiv_le_tdiv hm (Int.mul_nonpos_of_nonneg_of_nonpos hx (by omega))
    rw [Int.zero_tdiv] at hhigh
    omega

theorem mapRange_end {m a b : Int} (hm : 0 < m) : mapRange m 0 m a b = b := by
  rw [mapRange, Int.sub_zero, Int.mul_tdiv_cancel_left _ (by omega)]
  omega

theorem field12_mem {v : Int} (h : v ∈ Set.uIcc (held : Int) (aim : Int)) :
    field12 v ∈ Set.uIcc held aim := by
  have hheld := held.isLt
  have haim := aim.isLt
  rw [Set.mem_uIcc] at h ⊢
  have hval := field12_val (v := v) (by omega) (by omega)
  rcases h with h | h
  · left
    exact ⟨Fin.le_def.mpr (by omega), Fin.le_def.mpr (by omega)⟩
  · right
    exact ⟨Fin.le_def.mpr (by omega), Fin.le_def.mpr (by omega)⟩

/-! ## The table -/

/-- The animation of a bouncing signal has the steps of the table. -/
def FitsTable (s : ServoData) : Prop :=
  s.currentProfile &&& ~~~noPowerOff = bounce → s.numSteps ≠ 0 → s.numSteps = 29

theorem fitsTable_request (s : ServoData) (value : Int) (profile : UInt8) (duration : UInt16) :
    FitsTable (request s value profile duration) := by
  intro hbounce _
  have hprofile : profile &&& ~~~noPowerOff = bounce := hbounce
  show stepsFor profile duration = 29
  rw [stepsFor, hprofile]
  rfl

theorem stepsFor_cases (profile : UInt8) (duration : UInt16) :
    stepsFor profile duration ∈ [10, 20, 40, 29] ∨ stepsFor profile duration = duration * 2 + 1 := by
  unfold stepsFor
  dsimp only
  split
  · exact .inl (by decide)
  · split
    · exact .inl (by decide)
    · split
      · exact .inl (by decide)
      · split
        · exact .inl (by decide)
        · exact .inr rfl

theorem toNat_duration (duration : UInt16) :
    (duration * 2 + 1).toNat = (duration.toNat * 2 % 65536 + 1) % 65536 := by
  rw [UInt16.toNat_add, UInt16.toNat_mul]
  rfl

theorem stepsFor_pos (profile : UInt8) (duration : UInt16) : 0 < (stepsFor profile duration).toNat := by
  rcases stepsFor_cases profile duration with hfixed | hlong
  · have hall : ∀ x ∈ ([10, 20, 40, 29] : List UInt16), 0 < x.toNat := by simp
    exact hall _ hfixed
  · -- an odd number
    rw [hlong, toNat_duration]
    omega

/-- The steps of a duration that is not too long do not come near the end of their 16 bits. -/
theorem stepsFor_short {profile : UInt8} {duration : UInt16} (h : duration ≤ 32760) :
    (stepsFor profile duration).toNat < 65531 := by
  rcases stepsFor_cases profile duration with hfixed | hlong
  · have hall : ∀ x ∈ ([10, 20, 40, 29] : List UInt16), x.toNat < 65531 := by simp
    exact hall _ hfixed
  · have hnat : duration.toNat ≤ 32760 := UInt16.le_iff_toNat_le.mp h
    rw [hlong, toNat_duration]
    omega

theorem bounceProfile_le (i : Nat) (hi : i < 30) : ∃ v, bounceProfile[i]? = some v ∧ v.toNat ≤ 100 := by
  have hall : ∀ i < 30, ∃ v, bounceProfile[i]? = some v ∧ v.toNat ≤ 100 := by decide
  exact hall i hi

/-- The position of a step is on the way, and that of the last step is the end of it. -/
theorem position_spec (htable : FitsTable s) (hstep : s.stepNumber.toNat ≤ s.numSteps.toNat)
    (hpos : s.numSteps ≠ 0) :
    ∃ p, position s = some p ∧ p ∈ Set.uIcc (s.fromPosition : Int) (s.toPosition : Int) ∧
      (s.stepNumber = s.numSteps → p = s.toPosition) := by
  have hnat : 0 < s.numSteps.toNat := by
    rw [Nat.pos_iff_ne_zero]
    exact fun h => hpos (UInt16.toNat_inj.mp h)
  unfold position
  by_cases hbounce : s.currentProfile &&& ~~~noPowerOff = bounce
  · have h29 : s.numSteps.toNat = 29 := by rw [htable hbounce hpos]; rfl
    obtain ⟨v, hv, hle⟩ := bounceProfile_le s.stepNumber.toNat (by omega)
    rw [if_pos hbounce, hv]
    refine ⟨_, rfl, mapRange_mem (by omega) (by omega) (by decide), fun hend => ?_⟩
    rw [hend, h29] at hv
    obtain rfl : (100 : UInt8) = v := Option.some.inj hv
    exact mapRange_end (by decide)
  · rw [if_neg hbounce]
    refine ⟨_, rfl, mapRange_mem (by omega) (by omega) (by omega), fun hend => ?_⟩
    rw [hend]
    exact mapRange_end (by omega)

/-! ## Refreshes of one servo -/

/-- The animation goes on: each refresh has written a position on the way. -/
structure Moving (held aim : Fin 4096) (n : Nat) (s : ServoData) (ws : List (Fin 4096)) : Prop where
  source : s.fromPosition = held
  target : s.toPosition = aim
  steps : s.numSteps.toNat = n
  step : s.stepNumber.toNat = ws.length
  busy : ws.length < n
  apart : ws ≠ [] → held ≠ aim
  onWay : ∀ v ∈ ws, v ∈ Set.uIcc held aim

/-- The animation is over: the last position was the one requested, and the servo may have been switched
off since. -/
structure Arrived (held aim : Fin 4096) (n : Nat) (s : ServoData) (ws : List (Fin 4096)) : Prop where
  steps : s.numSteps = 0 ∨ s.numSteps.toNat = n
  idle : ¬ s.stepNumber < s.numSteps
  written : ∃ ps : List (Fin 4096), (∀ v ∈ ps, v ∈ Set.uIcc held aim) ∧
    (ws = ps ++ [aim] ∨ (ws = ps ++ [aim, 0] ∧ s.numSteps = 0))

theorem toNat_pos {x : UInt16} (h : x ≠ 0) : 0 < x.toNat :=
  Nat.pos_of_ne_zero fun hzero => h (UInt16.toNat_inj.mp hzero)

theorem ne_zero_of_lt {x y : UInt16} (h : x < y) : y ≠ 0 := by
  intro hzero
  rw [hzero, UInt16.lt_iff_toNat_lt] at h
  exact Nat.not_lt_zero _ h

theorem toNat_succ {x : UInt16} (h : x.toNat + 1 < 65536) : (x + 1).toNat = x.toNat + 1 := by
  rw [UInt16.toNat_add]
  show (x.toNat + 1) % 65536 = _
  omega

theorem skipToEnd_far (h : ¬ (s.stepNumber = 0 ∧ s.fromPosition = s.toPosition)) : skipToEnd s = s := by
  rw [skipToEnd, if_neg h]

/-- A step of an animation writes a position on the way, at last the end of it. -/
theorem advance_lt (platform : Platform) (htable : FitsTable s) (hlt : s.stepNumber < s.numSteps) :
    ∃ v, advance platform s = some ({ s with stepNumber := s.stepNumber + 1, currentPosition := v }, some v) ∧
      v ∈ Set.uIcc s.fromPosition s.toPosition ∧
      (s.stepNumber + 1).toNat = s.stepNumber.toNat + 1 ∧
      (s.stepNumber + 1 = s.numSteps → v = s.toPosition) := by
  have hnat := UInt16.lt_iff_toNat_lt.mp hlt
  have hbound := s.numSteps.toNat_lt
  have hsucc : (s.stepNumber + 1).toNat = s.stepNumber.toNat + 1 := toNat_succ (by omega)
  have hle : (s.stepNumber + 1).toNat ≤ s.numSteps.toNat := by omega
  obtain ⟨p, hp, hmem, hend⟩ := position_spec (s := { s with stepNumber := s.stepNumber + 1 }) htable
    hle (ne_zero_of_lt hlt)
  refine ⟨field12 p, ?_, field12_mem hmem, hsucc, fun hlast => ?_⟩
  · rw [advance, if_pos hlt]
    dsimp only
    rw [hp]
    rfl
  · rw [hend hlast, field12_fin]

/-- A servo on its way takes one more step, and has then arrived or goes on. -/
theorem updateServo_moving (platform : Platform) (h : Moving held aim n s ws) (htable : FitsTable s) :
    ∃ s' v, updateServo platform s = some (s', some v) ∧ FitsTable s' ∧
      (Moving held aim n s' (ws ++ [v]) ∨ Arrived held aim n s' (ws ++ [v])) := by
  have hbusy := h.busy
  have hlt : s.stepNumber < s.numSteps := by
    rw [UInt16.lt_iff_toNat_lt, h.step, h.steps]
    exact hbusy
  have hne := ne_zero_of_lt hlt
  rw [updateServo, if_neg hne]
  by_cases hsame : s.stepNumber = 0 ∧ s.fromPosition = s.toPosition
  · -- the only step is the last one
    have hend : s.numSteps - 1 + 1 = s.numSteps := by grind
    have hskip : skipToEnd s = { s with stepNumber := s.numSteps - 1 } := by rw [skipToEnd, if_pos hsame]
    have hless : s.numSteps - 1 < s.numSteps := by
      have hpos := toNat_pos hne
      have hone : (1 : UInt16) ≤ s.numSteps := UInt16.le_iff_toNat_le.mpr hpos
      rw [UInt16.lt_iff_toNat_lt, UInt16.toNat_sub_of_le _ _ hone]
      exact Nat.sub_lt hpos (by decide)
    obtain ⟨v, hv, -, -, hlast⟩ := advance_lt platform
      (s := { s with stepNumber := s.numSteps - 1 }) htable hless
    have haim : v = aim := (hlast hend).trans h.target
    refine ⟨_, v, (congrArg _ hskip).trans hv, htable, .inr ⟨.inr h.steps, ?_, ws, h.onWay, .inl (by rw [haim])⟩⟩
    show ¬ s.numSteps - 1 + 1 < s.numSteps
    rw [hend]
    exact UInt16.lt_irrefl _
  · obtain ⟨v, hv, hmem, hsucc, hlast⟩ := advance_lt platform htable hlt
    rw [h.source, h.target] at hmem
    rw [h.step] at hsucc
    refine ⟨_, v, (congrArg _ (skipToEnd_far hsame)).trans hv, htable, ?_⟩
    by_cases hmore : ws.length + 1 < n
    · left
      refine ⟨h.source, h.target, h.steps, ?_, by simpa using hmore, fun _ heq => ?_, ?_⟩
      · rw [List.length_append]
        exact hsucc
      · by_cases hws : ws = []
        · refine hsame ⟨UInt16.toNat_inj.mp ?_, by rw [h.source, h.target, heq]⟩
          rw [h.step, hws]
          rfl
        · exact h.apart hws heq
      · intro v' hv'
        rw [List.mem_append, List.mem_singleton] at hv'
        exact hv'.elim (h.onWay v') (fun heq => heq ▸ hmem)
    · right
      have hall : (s.stepNumber + 1).toNat = s.numSteps.toNat := by
        rw [hsucc, h.steps]
        omega
      have haim : v = aim := (hlast (UInt16.toNat_inj.mp hall)).trans h.target
      refine ⟨.inr h.steps, ?_, ws, h.onWay, .inl (by rw [haim])⟩
      rw [UInt16.lt_iff_toNat_lt]
      exact Nat.not_lt.mpr (Nat.le_of_eq hall.symm)

/-- The steps in which the servo may catch up do not wrap around. -/
theorem catchup_lt (hshort : s.numSteps.toNat < 65531)
    (hwait : s.stepNumber.toNat < catchupEnd platform s.numSteps) : s.stepNumber.toNat + 1 < 65536 := by
  have hend : catchupEnd platform s.numSteps = s.numSteps.toNat + 5 := by
    cases platform <;> simp only [catchupEnd, UInt16.toNat_add] <;>
      show _ = s.numSteps.toNat + catchupSteps.toNat <;> simp [catchupSteps] <;> omega
  omega

/-- A refresh of a servo that is not busy writes nothing, or the 0 that switches it off. -/
theorem advance_idle (platform : Platform) (hidle : ¬ s.stepNumber < s.numSteps) (htable : FitsTable s) :
    ∃ s' out, advance platform s = some (s', out) ∧ FitsTable s' ∧
      (s'.numSteps = 0 ∨ s'.numSteps = s.numSteps) ∧
      (s.numSteps.toNat < 65531 → ¬ s'.stepNumber < s'.numSteps) ∧
      (out = none ∨ out = some 0 ∧ s'.numSteps = 0) := by
  rw [advance, if_neg hidle]
  by_cases hwait : s.stepNumber.toNat < catchupEnd platform s.numSteps
  · rw [if_pos hwait]
    refine ⟨_, none, rfl, htable, .inr rfl, fun hshort => ?_, .inl rfl⟩
    rw [UInt16.lt_iff_toNat_lt] at hidle ⊢
    show ¬ (s.stepNumber + 1).toNat < s.numSteps.toNat
    rw [toNat_succ (catchup_lt hshort hwait)]
    omega
  · rw [if_neg hwait]
    by_cases hoff : s.stepNumber.toNat = catchupEnd platform s.numSteps ∧ s.currentPosition ≠ 0
    · rw [if_pos hoff]
      refine ⟨_, _, rfl, fun _ h => absurd rfl h, .inl rfl, fun _ => UInt16.not_lt_zero, ?_⟩
      by_cases hpower : s.currentProfile &&& noPowerOff = 0
      · exact .inr ⟨if_pos hpower, rfl⟩
      · exact .inl (if_neg hpower)
    · rw [if_neg hoff]
      exact ⟨s, none, rfl, htable, .inr rfl, fun _ => hidle, .inl rfl⟩

/-- A servo that has arrived stays there, and is at most switched off. -/
theorem updateServo_arrived (platform : Platform) (h : Arrived held aim n s ws) (hn : n < 65531) (htable : FitsTable s) :
    ∃ s' out, updateServo platform s = some (s', out) ∧ FitsTable s' ∧
      Arrived held aim n s' (ws ++ out.toList) := by
  by_cases hzero : s.numSteps = 0
  · exact ⟨s, none, by rw [updateServo, if_pos hzero], htable, by simpa using h⟩
  · have hn' : s.numSteps.toNat = n := h.steps.resolve_left hzero
    have hfar : ¬ (s.stepNumber = 0 ∧ s.fromPosition = s.toPosition) := by
      rintro ⟨hstep, -⟩
      have hidle := h.idle
      rw [hstep, UInt16.lt_iff_toNat_lt] at hidle
      exact hidle (toNat_pos hzero)
    obtain ⟨s', out, hs', htable', hsteps, hidle, hout⟩ := advance_idle platform h.idle htable
    have hupdate : updateServo platform s = some (s', out) := by
      rw [updateServo, if_neg hzero, skipToEnd_far hfar, hs']
    obtain ⟨ps, hps, hws⟩ := h.written
    have hone : ws = ps ++ [aim] := hws.resolve_right fun hoff => hzero hoff.2
    refine ⟨s', out, hupdate, htable', ?_, hidle (by omega), ps, hps, ?_⟩
    · exact hsteps.imp_right fun heq => by rw [heq, hn']
    · rcases hout with rfl | ⟨rfl, hoff⟩
      · left
        simpa using hone
      · right
        exact ⟨by simp [hone], hoff⟩

/-- No refresh reads outside the table. -/
theorem updateServo_fits (platform : Platform) (htable : FitsTable s) :
    ∃ s' out, updateServo platform s = some (s', out) ∧ FitsTable s' := by
  by_cases hzero : s.numSteps = 0
  · exact ⟨s, none, by rw [updateServo, if_pos hzero], htable⟩
  · have htable' : FitsTable (skipToEnd s) := by
      unfold skipToEnd
      split <;> exact htable
    rw [updateServo, if_neg hzero]
    by_cases hlt : (skipToEnd s).stepNumber < (skipToEnd s).numSteps
    · obtain ⟨v, hv, -⟩ := advance_lt platform htable' hlt
      exact ⟨_, some v, hv, htable'⟩
    · obtain ⟨s', out, hs', hfits, -⟩ := advance_idle platform hlt htable'
      exact ⟨s', out, hs', hfits⟩

/-! ## Calls -/

/-- The animations of all servos fit the table. -/
def Tables (d : PCA9685) : Prop := ∀ pin s, d.servoData pin = some s → FitsTable s

theorem setServo_same : (d.setServo pin s).servoData pin = some s := Function.update_self ..

theorem setServo_other {p : Fin 16} (hp : p ≠ pin) : (d.setServo p s).servoData pin = d.servoData pin :=
  Function.update_of_ne (Ne.symm hp) ..

theorem Tables.setServo (h : Tables d) (pin : Fin 16) (hs : FitsTable s) : Tables (d.setServo pin s) := by
  intro p s' hp
  by_cases heq : p = pin
  · rw [heq, setServo_same] at hp
    exact Option.some.inj hp ▸ hs
  · rw [setServo_other (Ne.symm heq)] at hp
    exact h p s' hp

theorem Tables.writeAnalogue (h : Tables d) (pin : Fin 16) (value : Int) (profile : UInt8)
    (duration : UInt16) : Tables (d.writeAnalogue pin value profile duration) := by
  unfold PCA9685.writeAnalogue
  split
  · exact h
  · exact h.setServo pin (fitsTable_request _ _ _ _)

theorem Tables.write (h : Tables d) (pin : Fin 16) (value : Int) : Tables (d.write pin value) := by
  unfold PCA9685.write
  split <;> exact h.writeAnalogue _ _ _ _

theorem Tables.configure (h : Tables d) (pin : Fin 16) (params : List Int) :
    Tables (d.configure pin params).1 := by
  unfold PCA9685.configure
  split
  · have hold : FitsTable ((d.servoData pin).getD blankServo) := by
      cases hs : d.servoData pin with
      | none => exact fun _ hne => absurd rfl hne
      | some s => exact h pin s hs
    dsimp only
    split
    · refine Tables.writeAnalogue (h.setServo pin ?_) _ _ _ _
      exact hold
    · exact h.setServo pin hold
  · exact h

/-- The steps of an animation stay within the tables of their profile. -/
theorem Tables.updatePosition (h : Tables d) (platform : Platform) (pin : Fin 16) (status : Bool) :
    ∃ d', d.updatePosition platform pin status = some d' ∧ Tables d' := by
  unfold PCA9685.updatePosition
  cases hs : d.servoData pin with
  | none => exact ⟨d, rfl, h⟩
  | some s =>
    obtain ⟨s', out, hs', hfits⟩ := updateServo_fits platform (h pin s hs)
    have htables := h.setServo pin hfits
    dsimp only
    rw [hs']
    cases out with
    | none => exact ⟨_, rfl, htables⟩
    | some value =>
      refine ⟨_, rfl, ?_⟩
      show Tables ((d.setServo pin s').writeDevice pin value status)
      unfold writeDevice
      split <;> exact htables

theorem Tables.step (h : Tables d) (platform : Platform) (call : Call) :
    ∃ d', PCA9685.step platform d call = some d' ∧ Tables d' := by
  cases call with
  | writeAnalogue pin value profile duration => exact ⟨_, rfl, h.writeAnalogue _ _ _ _⟩
  | write pin value => exact ⟨_, rfl, h.write _ _⟩
  | configure pin params => exact ⟨_, rfl, h.configure _ _⟩
  | updatePosition pin status => exact h.updatePosition platform pin status

theorem Tables.runCalls (h : Tables d) (platform : Platform) (calls : List Call) :
    ∃ d', PCA9685.runCalls platform d calls = some d' ∧ Tables d' := by
  induction calls generalizing d with
  | nil => exact ⟨d, rfl, h⟩
  | cons call calls ih =>
    obtain ⟨d₁, hstep, h₁⟩ := h.step platform call
    obtain ⟨d₂, hrun, h₂⟩ := ih h₁
    exact ⟨d₂, by rw [PCA9685.runCalls, List.foldlM_cons, hstep]; exact hrun, h₂⟩

/-! ## What a call leaves alone -/

/-- The data of a servo, what was written to it, and that the device has not failed. -/
structure SameServo (pin : Fin 16) (d d' : PCA9685) : Prop where
  servo : d'.servoData pin = d.servoData pin
  written : d'.written pin = d.written pin
  failed : d.failed = false → d'.failed = false

theorem SameServo.trans {d'' : PCA9685} (h : SameServo pin d d') (h' : SameServo pin d' d'') :
    SameServo pin d d'' :=
  ⟨h'.servo.trans h.servo, h'.written.trans h.written, fun hok => h'.failed (h.failed hok)⟩

theorem written_append (d : PCA9685) (pin p : Fin 16) (v : Fin 4096) :
    written { d with sent := d.sent ++ [⟨p, v⟩] } pin = d.written pin ++ if p = pin then [v] else [] := by
  unfold written
  rw [List.filter_append, List.map_append]
  by_cases hp : p = pin <;> simp [hp]

theorem sameServo_setServo {p : Fin 16} (hp : p ≠ pin) (d : PCA9685) (s : ServoData) :
    SameServo pin d (d.setServo p s) :=
  ⟨setServo_other hp, rfl, id⟩

theorem sameServo_writeAnalogue {p : Fin 16} (hp : p ≠ pin) (d : PCA9685) (value : Int) (profile : UInt8)
    (duration : UInt16) : SameServo pin d (d.writeAnalogue p value profile duration) := by
  unfold PCA9685.writeAnalogue
  split
  · exact ⟨rfl, rfl, id⟩
  · exact sameServo_setServo hp ..

theorem sameServo_configure {p : Fin 16} (hp : p ≠ pin) (d : PCA9685) (params : List Int) :
    SameServo pin d (d.configure p params).1 := by
  unfold PCA9685.configure
  split
  · dsimp only
    have hset := fun s => sameServo_setServo hp d s
    split
    · have hwrite := fun s value => sameServo_writeAnalogue hp (d.setServo p s) value 0 0
      exact (hset _).trans (hwrite _ _)
    · exact hset _
  · exact ⟨rfl, rfl, id⟩

/-- A call for another servo. -/
theorem sameServo_step {call : Call} (hp : call.pin ≠ pin) (hok : call.Succeeds)
    (hstep : PCA9685.step platform d call = some d') : SameServo pin d d' := by
  cases call with
  | writeAnalogue p value profile duration =>
    obtain rfl := Option.some.inj hstep
    exact sameServo_writeAnalogue hp ..
  | write p value =>
    obtain rfl := Option.some.inj hstep
    unfold PCA9685.write
    split <;> exact sameServo_writeAnalogue hp ..
  | configure p params =>
    obtain rfl := Option.some.inj hstep
    exact sameServo_configure hp ..
  | updatePosition p status =>
    obtain rfl : status = true := hok
    rw [PCA9685.step, PCA9685.updatePosition] at hstep
    cases hs : d.servoData p with
    | none =>
      rw [hs] at hstep
      obtain rfl := Option.some.inj hstep
      exact ⟨rfl, rfl, id⟩
    | some s =>
      rw [hs] at hstep
      obtain ⟨⟨s', out⟩, -, hd'⟩ := Option.map_eq_some_iff.mp hstep
      cases out with
      | none =>
        obtain rfl := hd'
        exact sameServo_setServo hp ..
      | some v =>
        obtain rfl := hd'
        refine ⟨setServo_other hp, ?_, id⟩
        refine (written_append (d.setServo p s') pin p v).trans ?_
        have hp' : p ≠ pin := hp
        rw [if_neg hp', List.append_nil]
        rfl

/-- No call fails if its writes succeed. -/
theorem failed_step {call : Call} (hok : call.Succeeds) (hstep : PCA9685.step platform d call = some d')
    (hd : d.failed = false) : d'.failed = false := by
  obtain ⟨q, hq⟩ := exists_ne call.pin
  exact (sameServo_step (Ne.symm hq) hok hstep).failed hd

theorem failed_runCalls {calls : List Call} (hok : ∀ call ∈ calls, call.Succeeds)
    (hrun : PCA9685.runCalls platform d calls = some d') (hd : d.failed = false) : d'.failed = false := by
  induction calls generalizing d with
  | nil =>
    obtain rfl := Option.some.inj hrun
    exact hd
  | cons call calls ih =>
    rw [PCA9685.runCalls, List.foldlM_cons] at hrun
    obtain ⟨d₁, hstep, hrest⟩ := Option.bind_eq_some_iff.mp hrun
    exact ih (fun c hc => hok c (List.mem_cons_of_mem _ hc)) hrest
      (failed_step (hok call List.mem_cons_self) hstep hd)

/-! ## From a request on -/

/-- After `k` refreshes the servo is on its way or has arrived, with the positions `ws` written since the
request. -/
structure Under (pin : Fin 16) (held aim : Fin 4096) (n k : Nat) (old : List (Fin 4096)) (d : PCA9685) :
    Prop where
  ready : d.failed = false
  tables : Tables d
  servo : ∃ s ws, d.servoData pin = some s ∧ d.written pin = old ++ ws ∧
    (Moving held aim n s ws ∧ ws.length = k ∨ Arrived held aim n s ws)

/-- The call is a refresh of this servo. -/
def Refreshes (pin : Fin 16) (call : Call) : Bool := call.pin = pin ∧ call.isRefresh

/-- A request begins the animation where the servo is held. -/
theorem under_request (h : Tables d) (hd : d.failed = false) (value : Int) (profile : UInt8)
    (duration : UInt16) :
    Under pin ((d.servoData pin).getD (defaultServo value)).currentPosition (clamp value)
      (stepsFor profile duration).toNat 0 (d.written pin) (d.writeAnalogue pin value profile duration) := by
  have hset : d.writeAnalogue pin value profile duration =
      d.setServo pin (request ((d.servoData pin).getD (defaultServo value)) value profile duration) := by
    rw [PCA9685.writeAnalogue, if_neg (by rw [hd]; decide)]
  refine ⟨?_, h.writeAnalogue _ _ _ _, ?_⟩
  · rw [hset]
    exact hd
  · rw [hset]
    refine ⟨_, [], setServo_same, (List.append_nil _).symm, .inl ⟨⟨rfl, rfl, rfl, rfl, ?_, ?_, ?_⟩, rfl⟩⟩
    · exact stepsFor_pos profile duration
    · exact fun hne => absurd rfl hne
    · exact fun v hv => absurd hv List.not_mem_nil

variable {k : Nat} {old : List (Fin 4096)}

theorem under_other (h : Under pin held aim n k old d) {call : Call} (hp : call.pin ≠ pin)
    (hok : call.Succeeds) (hstep : PCA9685.step platform d call = some d') (htables : Tables d') :
    Under pin held aim n k old d' := by
  obtain ⟨s, ws, hs, hw, hphase⟩ := h.servo
  have hsame := sameServo_step hp hok hstep
  exact ⟨hsame.failed h.ready, htables, s, ws, hsame.servo.trans hs, hsame.written.trans hw, hphase⟩

/-- What a refresh makes of the servo, given what it does to its data. -/
theorem updatePosition_eq (hs : d.servoData pin = some s) (hupdate : updateServo platform s = some (s', out))
    (hstep : d.updatePosition platform pin true = some d') :
    d'.servoData pin = some s' ∧ d'.written pin = d.written pin ++ out.toList := by
  rw [PCA9685.updatePosition, hs] at hstep
  dsimp only at hstep
  rw [hupdate] at hstep
  cases out with
  | none =>
    obtain rfl := Option.some.inj hstep
    exact ⟨setServo_same, (List.append_nil _).symm⟩
  | some v =>
    obtain rfl := Option.some.inj hstep
    refine ⟨setServo_same, (written_append (d.setServo pin s') pin pin v).trans ?_⟩
    rw [if_pos rfl]
    rfl

/-- A refresh of its pin takes the animation one step further. -/
theorem under_refresh (h : Under pin held aim n k old d) (hn : n < 65531)
    (hstep : d.updatePosition platform pin true = some d') (hd' : d'.failed = false) (htables : Tables d') :
    Under pin held aim n (k + 1) old d' := by
  obtain ⟨s, ws, hs, hw, hphase⟩ := h.servo
  have htable := h.tables pin s hs
  rcases hphase with ⟨hmoving, hk⟩ | harrived
  · obtain ⟨s', v, hupdate, -, hnext⟩ := updateServo_moving platform hmoving htable
    obtain ⟨hs', hw'⟩ := updatePosition_eq hs hupdate hstep
    refine ⟨hd', htables, s', ws ++ [v], hs', ?_, hnext.imp_left fun hm => ⟨hm, ?_⟩⟩
    · rw [hw', hw, List.append_assoc]
      rfl
    · rw [List.length_append, hk]
      rfl
  · obtain ⟨s', out, hupdate, -, hnext⟩ := updateServo_arrived platform harrived hn htable
    obtain ⟨hs', hw'⟩ := updatePosition_eq hs hupdate hstep
    exact ⟨hd', htables, s', ws ++ out.toList, hs', by rw [hw', hw, List.append_assoc], .inr hnext⟩

/-- Calls for other pins leave the animation alone, and each refresh of its own pin takes it one step
further. -/
theorem under_runCalls (platform : Platform) (h : Under pin held aim n k old d) (hn : n < 65531) {calls : List Call}
    (hok : ∀ call ∈ calls, call.Succeeds) (honly : ∀ call ∈ calls, call.pin = pin → call.isRefresh) :
    ∃ d', PCA9685.runCalls platform d calls = some d' ∧
      Under pin held aim n (k + calls.countP (Refreshes pin)) old d' := by
  induction calls generalizing d k with
  | nil => exact ⟨d, rfl, h⟩
  | cons call calls ih =>
    obtain ⟨d₁, hstep, htables⟩ := h.tables.step platform call
    have hcall := hok call List.mem_cons_self
    have htail := fun {k} (h₁ : Under pin held aim n k old d₁) =>
      ih h₁ (fun c hc => hok c (List.mem_cons_of_mem _ hc)) (fun c hc => honly c (List.mem_cons_of_mem _ hc))
    have hready := failed_step hcall hstep h.ready
    rw [PCA9685.runCalls, List.foldlM_cons, hstep, List.countP_cons]
    by_cases hp : call.pin = pin
    · have hrefresh := honly call List.mem_cons_self hp
      have hone : Refreshes pin call = true := by simp [Refreshes, hp, hrefresh]
      cases call with
      | updatePosition p status =>
        obtain rfl : p = pin := hp
        obtain rfl : status = true := hcall
        obtain ⟨d', hrun, hunder⟩ := htail (under_refresh h hn hstep hready htables)
        refine ⟨d', hrun, ?_⟩
        rwa [if_pos hone, ← Nat.add_assoc, Nat.add_right_comm]
      | writeAnalogue p value profile duration => cases hrefresh
      | write p value => cases hrefresh
      | configure p params => cases hrefresh
    · have hzero : Refreshes pin call ≠ true := by simp [Refreshes, hp]
      obtain ⟨d', hrun, hunder⟩ := htail (under_other h hp hcall hstep htables)
      exact ⟨d', hrun, by rwa [if_neg hzero]⟩

/-! ## The animation of a request -/

/-- The position that a servo has when a request is made. -/
def heldPosition (d : PCA9685) (pin : Fin 16) (value : Int) : Fin 4096 :=
  ((d.servoData pin).getD (defaultServo value)).currentPosition

/-- What was written after `k` refreshes of an animation of `n` steps from one position to another, and
whether the servo is busy. A last 0 switches the servo off. -/
structure Animated (source aim : Fin 4096) (n k : Nat) (busy : Bool) (ws : List (Fin 4096)) : Prop where
  onWay : busy = true → ws.length = k ∧ ∀ v ∈ ws, v ∈ Set.uIcc source aim
  rests : busy = false → ∃ ps : List (Fin 4096), (∀ v ∈ ps, v ∈ Set.uIcc source aim) ∧
    (ws = ps ++ [aim] ∨ ws = ps ++ [aim, 0])
  ends : n ≤ k → busy = false

/-- A servo that is under way has been written its old values, and then those of the animation. -/
theorem Under.animated (h : Under pin held aim n k old d) :
    ∃ ws, d.written pin = old ++ ws ∧ Animated held aim n k (d.read pin) ws := by
  obtain ⟨s, ws, hs, hw, hphase⟩ := h.servo
  have hread : d.read pin = decide (s.stepNumber < s.numSteps) := by
    rw [PCA9685.read, if_neg (by rw [h.ready]; decide), hs]
  refine ⟨ws, hw, ?_⟩
  rw [hread]
  rcases hphase with ⟨hmoving, hk⟩ | harrived
  · have hbusy : s.stepNumber < s.numSteps := by
      rw [UInt16.lt_iff_toNat_lt, hmoving.step, hmoving.steps]
      exact hmoving.busy
    have hlt := hmoving.busy
    refine ⟨fun _ => ⟨hk, hmoving.onWay⟩, fun hno => ?_, fun hend => ?_⟩
    · exact absurd hbusy (of_decide_eq_false hno)
    · omega
  · refine ⟨fun hyes => absurd (of_decide_eq_true hyes) harrived.idle, fun _ => ?_,
      fun _ => decide_eq_false harrived.idle⟩
    obtain ⟨ps, hps, hws⟩ := harrived.written
    exact ⟨ps, hps, hws.imp_right And.left⟩

/-- **What a servo is told.** In every run nothing is read outside the table of the bouncing signal. From
the latest request for a servo on, each position lies between the one it had and the one requested; the
last of them is the latter, and it is written within the steps of the animation. -/
theorem servo_animated (platform : Platform) (before after : List Call) (pin : Fin 16) (value : Int)
    (profile : UInt8) (duration : UInt16) (hduration : duration ≤ 32760)
    (hbefore : ∀ call ∈ before, call.Succeeds) (hafter : ∀ call ∈ after, call.Succeeds)
    (hlatest : ∀ call ∈ after, call.pin = pin → call.isRefresh) :
    ∃ d d', runCalls platform new before = some d ∧
      runCalls platform (d.writeAnalogue pin value profile duration) after = some d' ∧
      ∃ ws, d'.written pin = d.written pin ++ ws ∧
        Animated (heldPosition d pin value) (clamp value) (stepsFor profile duration).toNat
          (after.countP (Refreshes pin)) (d'.read pin) ws := by
  have hnew : Tables new := fun pin s hs => by cases hs
  obtain ⟨d, hd, htables⟩ := hnew.runCalls platform before
  have hready := failed_runCalls hbefore hd rfl
  have hn : (stepsFor profile duration).toNat < 65531 := stepsFor_short hduration
  obtain ⟨d', hd', hunder⟩ := under_runCalls platform
    (under_request htables hready value profile duration) hn hafter hlatest
  rw [Nat.zero_add] at hunder
  exact ⟨d, d', hd, hd', hunder.animated⟩

/-- A semaphore bounces from 410 down to 205. A request in the middle of it is for the medium profile, it
starts from the 308 that were reached, and on the way another servo is moved too. -/
theorem servo_animated_semaphore :
    let before : List Call := [.configure 3 [410, 205, 4, 0, 1], .updatePosition 3 true, .write 3 0,
      .updatePosition 3 true, .updatePosition 3 true, .updatePosition 3 true, .updatePosition 3 true,
      .updatePosition 3 true, .updatePosition 3 true]
    let after : List Call := .updatePosition 3 true :: .write 5 1 :: .updatePosition 5 true ::
      List.replicate 19 (.updatePosition 3 true)
    ∃ d d', runCalls .avr new before = some d ∧
      runCalls .avr (d.writeAnalogue 3 5000 medium 0) after = some d' ∧
      ∃ ws, d'.written 3 = d.written 3 ++ ws ∧
        Animated (heldPosition d 3 5000) (clamp 5000) (stepsFor medium 0).toNat
          (after.countP (Refreshes 3)) (d'.read 3) ws := by
  intro before after
  exact servo_animated .avr before after 3 5000 medium 0 (by decide) (by decide) (by decide) (by decide)

end PCA9685

end CommandStation
