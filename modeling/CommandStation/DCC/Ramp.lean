import CommandStation.DCC.Reminders
import CommandStation.Lib.Framing

/-!
# The way to the target speed

A loco with momentum is taken to its target speed by the speed reminders. Speed codes lie on an
axis from full reverse to full forward; a reminder moves the speed by the notches that have become
due since the last move. The time that has passed is cut to an `int16_t` on the way, and the codes
of the emergency stops of both directions lie on the axis next to the codes for standing still.
-/

namespace CommandStation

open CommandStation.Lib LocoTable DCCConsist

variable {F : Fault → Prop} {s s' : Station} {xs ys zs : List Addr} {a l : Addr} {slot : LocoSlot}
  {now : UInt32}

namespace DCC

/-! ## The axis -/

theorem normalize_bounds (x : UInt8) : -128 ≤ normalize x ∧ normalize x ≤ 127 := by
  revert x
  exact byte_forall (by decide +kernel)

theorem dccalize_normalize (x : UInt8) : dccalize (normalize x) = x := by
  revert x
  exact byte_forall (by decide +kernel)

theorem normalize_dccalize {n : Int} (hlow : -128 ≤ n) (hhigh : n ≤ 127) :
    normalize (dccalize n) = n := by
  have hall : ∀ k < 256, normalize (dccalize ((k : Nat) - 128)) = (k : Nat) - 128 := by
    decide +kernel
  have hn := hall (n + 128).toNat (by omega)
  have hk : (((n + 128).toNat : Nat) : Int) - 128 = n := by omega
  rwa [hk] at hn

theorem normalize_inj {x y : UInt8} : normalize x = normalize y ↔ x = y :=
  ⟨fun h => by rw [← dccalize_normalize x, h, dccalize_normalize], fun h => h ▸ rfl⟩

/-- The emergency stops of both directions are next to the stops. -/
theorem isEstop_iff (x : UInt8) : isEstop x = true ↔ normalize x = -2 ∨ normalize x = 1 := by
  revert x
  exact byte_forall (by decide +kernel)

/-- The notches between the speed of a slot and its target. -/
def gap (slot : LocoSlot) : Nat :=
  (normalize slot.targetSpeed - normalize slot.speedCode).natAbs

/-- The milliseconds since the speed was last moved. -/
def elapsed (slot : LocoSlot) (now : UInt32) : Nat := (now - slot.momentumBase).toNat

theorem gap_pos (h : slot.targetSpeed ≠ slot.speedCode) : 0 < gap slot := by
  have hne : normalize slot.targetSpeed ≠ normalize slot.speedCode :=
    fun heq => h (normalize_inj.mp heq)
  unfold gap
  omega

theorem gap_lt (slot : LocoSlot) : gap slot < 256 := by
  have ht := normalize_bounds slot.targetSpeed
  have hc := normalize_bounds slot.speedCode
  unfold gap
  omega

/-- A speed on the way to its target, a number of notches later. -/
def moved (slot : LocoSlot) (n : Nat) : Int :=
  if normalize slot.speedCode < normalize slot.targetSpeed then normalize slot.speedCode + n
  else normalize slot.speedCode - n

theorem approach_eq (slot : LocoSlot) (n : Nat) :
    approach (normalize slot.speedCode) (normalize slot.targetSpeed) n =
      moved slot (min (gap slot) n) := by
  unfold approach moved gap
  split <;> omega

theorem normalize_nextSpeedCode (slot : LocoSlot) (n : Nat) :
    normalize (nextSpeedCode slot n) = moved slot (min (gap slot) n) := by
  have ht := normalize_bounds slot.targetSpeed
  have hc := normalize_bounds slot.speedCode
  rw [nextSpeedCode, approach_eq]
  apply normalize_dccalize
  all_goals
    unfold moved gap
    split <;> omega

/-! ## The notches that are due -/

/-- The low half of the time since the last move is below 2^15. -/
def Countable (slot : LocoSlot) (now : UInt32) : Prop := elapsed slot now % 65536 < 32768

instance : Decidable (Countable slot now) := inferInstanceAs (Decidable (_ < _))

/-- The notches that become due in the low half of the time. -/
def notches (m : UInt8) (slot : LocoSlot) (now : UInt32) : Nat :=
  elapsed slot now % 65536 / (7 * m.toNat)

theorem ticks_zero (h : getMomentum s slot = 0) : ticks s slot now = 500 := by
  simp [ticks, h]

theorem delay_eq (slot : LocoSlot) (now : UInt32) :
    (now - slot.momentumBase).toUInt16.toInt16.toInt =
      if Countable slot now then ((elapsed slot now % 65536 : Nat) : Int)
      else (elapsed slot now % 65536 : Nat) - 65536 := by
  have hlow : (now - slot.momentumBase).toUInt16.toNat = elapsed slot now % 65536 :=
    UInt32.toNat_toUInt16 _
  rw [← Int16.toInt_toBitVec, UInt16.toBitVec_toInt16, BitVec.toInt_eq_toNat_cond,
    UInt16.toNat_toBitVec, hlow]
  by_cases h : Countable slot now
  · have hsmall : elapsed slot now % 65536 < 32768 := h
    rw [if_pos h, if_pos (by omega)]
  · have hlarge : ¬ elapsed slot now % 65536 < 32768 := h
    rw [if_neg h, if_neg (by omega)]
    rfl

theorem ticks_countable (hm : getMomentum s slot ≠ 0) (h : Countable slot now) :
    ticks s slot now = notches (getMomentum s slot) slot now := by
  have hpos : 0 < (getMomentum s slot).toNat := UInt8.pos_iff_ne_zero.mpr hm
  have hnotch : 0 < momentumFactor * (getMomentum s slot).toNat := by
    rw [show momentumFactor = 7 from rfl]
    omega
  unfold ticks notches
  rw [delay_eq, if_pos h]
  simp only
  rw [if_pos hnotch, Int.tdiv_eq_ediv_of_nonneg (by omega)]
  rfl

/-- If the low half of the time is at least 2^15, no tick is counted. -/
theorem ticks_uncountable (hm : getMomentum s slot ≠ 0) (h : ¬ Countable slot now) :
    ticks s slot now ≤ 0 := by
  have hpos : 0 < (getMomentum s slot).toNat := UInt8.pos_iff_ne_zero.mpr hm
  have hnotch : 0 < momentumFactor * (getMomentum s slot).toNat := by
    rw [show momentumFactor = 7 from rfl]
    omega
  unfold ticks
  rw [delay_eq, if_neg h]
  simp only
  rw [if_pos hnotch]
  have hneg : ((elapsed slot now % 65536 : Nat) : Int) - 65536 =
      -((65536 - elapsed slot now % 65536 : Nat) : Int) := by omega
  rw [hneg, Int.neg_tdiv]
  have hdiv := Int.tdiv_nonneg (Int.natCast_nonneg (65536 - elapsed slot now % 65536))
    (Int.le_of_lt hnotch)
  omega

/-- The notches by which a reminder moves the speed. -/
def remindedNotches (s : Station) (slot : LocoSlot) (now : UInt32) : Nat :=
  if getMomentum s slot = 0 then gap slot
  else if Countable slot now then min (gap slot) (notches (getMomentum s slot) slot now)
  else 0

/-- The speed that a reminder leaves. -/
theorem normalize_reminderCode (hmoving : slot.targetSpeed ≠ slot.speedCode) :
    normalize (reminderCode s slot now) = moved slot (remindedNotches s slot now) := by
  have hgap := gap_lt slot
  have hstay : moved slot 0 = normalize slot.speedCode := by simp [moved]
  unfold reminderCode remindedNotches
  by_cases hm : getMomentum s slot = 0
  · have hdue : Due s slot now := ⟨hmoving, by rw [ticks_zero hm]; decide⟩
    have hall : min (gap slot) 500 = gap slot := by omega
    rw [if_pos hm, if_pos hdue, ticks_zero hm, show (500 : Int) = ((500 : Nat) : Int) from rfl,
      normalize_nextSpeedCode, hall]
  rw [if_neg hm]
  by_cases hcount : Countable slot now
  · rw [if_pos hcount]
    have hticks := ticks_countable hm hcount
    by_cases hdue : Due s slot now
    · rw [if_pos hdue, hticks, normalize_nextSpeedCode]
    · have hnone : notches (getMomentum s slot) slot now = 0 := by
        have hle : ¬ 0 < ticks s slot now := fun h => hdue ⟨hmoving, h⟩
        omega
      rw [if_neg hdue, hnone, Nat.min_zero, hstay]
  · have hdue : ¬ Due s slot now := by
      intro h
      have hle := ticks_uncountable hm hcount
      have hlt := h.2
      omega
    rw [if_neg hcount, if_neg hdue, hstay]

/-- No reminder moves the speed exactly when none of the notches is due. -/
theorem due_iff (hmoving : slot.targetSpeed ≠ slot.speedCode) :
    Due s slot now ↔ remindedNotches s slot now ≠ 0 := by
  have hgap := gap_pos hmoving
  unfold remindedNotches
  by_cases hm : getMomentum s slot = 0
  · rw [if_pos hm]
    exact ⟨fun _ => by omega, fun _ => ⟨hmoving, by rw [ticks_zero hm]; decide⟩⟩
  rw [if_neg hm]
  by_cases hcount : Countable slot now
  · have hticks := ticks_countable hm hcount
    rw [if_pos hcount, Due, hticks]
    constructor
    · rintro ⟨-, hpos⟩
      omega
    · intro hpos
      exact ⟨hmoving, by omega⟩
  · have hle := ticks_uncountable hm hcount
    rw [if_neg hcount, Due]
    constructor
    · rintro ⟨-, hpos⟩
      omega
    · exact fun h => absurd rfl h

/-! ## What a reminder leaves -/

/-- The slot of a root after its speed reminder. -/
def paced (s : Station) (slot : LocoSlot) (now : UInt32) : LocoSlot :=
  if Due s slot now then (slot.setSpeedCode (reminderCode s slot now)).setMomentumBase now else slot

/-- What the speed reminder of root `l` leaves of its slot and of the table. -/
structure Paced (now : UInt32) (l : Addr) (s s' : Station) : Prop where
  root : s'.locos.mem l = paced s (s.locos.mem l) now
  locos : Retuned s.locos s'.locos
  rest : s' = { s with
    locos := s'.locos, queue := s'.queue, tracks := s'.tracks, dcSignals := s'.dcSignals }

theorem remindSpeed_paced (h : Lists s.locos xs ys)
    (hzs : Forest.Chain xs s.locos.leadOf s.locos.consistNextOf l zs) (now : UInt32) :
    wp F (remindSpeed l now) (fun _ s' => Paced now l s s') s := by
  refine wp_remindSpeed h hzs (fun s₂ s' hdue hs₂ hret hs' => ?_) fun s' hdue hs' => ?_
  · refine ⟨?_, hret.trans (hs'.retuned fun _ => rfl), by rw [hs'.rest, hs₂.rest]⟩
    rw [hs'.locos, mem_mapSlots_of_mem List.mem_cons_self, paced, if_pos hdue]
    show ((s₂.locos.write l _).mem l).setSpeedCode _ = _
    rw [mem_write_self, hs₂.locos, mem_write_self]
    rfl
  · refine ⟨?_, hs'.retuned fun _ => rfl, by rw [hs'.rest]⟩
    rw [hs'.locos, mem_mapSlots_of_mem List.mem_cons_self, paced, if_neg hdue]
    rfl

/-- A call of `issueReminder` for a root in a loop state that reminds speeds. -/
theorem issueReminder_paced (h : Lists s.locos xs ys) (hc : Consists s.locos xs none) (ha : a ∈ xs)
    (hroot : (s.locos.mem a).isConsistFollower = false)
    (hstatus : speedStatus s.loopStatus = true) :
    wp F (issueReminder a now) (fun _ s' => Paced now a s s') s := by
  have hlead : s.locos.leadOf a = none := by
    rwa [LocoSlot.isConsistFollower, Option.isSome_eq_false_iff, Option.isNone_iff_eq_none] at hroot
  obtain ⟨zs, hzs⟩ := hc.forest.exists_chain ha hlead
  simp only [issueReminder, wp_bind]
  rw [wp_read (h.live_inUse ha)]
  simp only [wp_get]
  rw [if_pos hstatus, if_neg (by simp [hroot]), wp_bind]
  exact remindSpeed_paced h hzs now

/-! ## One reminder -/

/-- The notches that a reminder should move the speed by: those of the whole time. -/
def wantedNotches (s : Station) (slot : LocoSlot) (now : UInt32) : Nat :=
  if getMomentum s slot = 0 then gap slot
  else min (gap slot) (elapsed slot now / (7 * (getMomentum s slot).toNat))

/-- The speed has moved `n` notches towards the target, and nothing has happened if `n` is 0. -/
structure StepsBy (n : Nat) (slot slot' : LocoSlot) : Prop where
  moves : normalize slot'.speedCode = moved slot n
  rests : n = 0 → slot'.speedCode = slot.speedCode ∧ slot'.momentumBase = slot.momentumBase

theorem moved_inj {m n : Nat} (h : moved slot m = moved slot n) : m = n := by
  unfold moved at h
  split at h <;> omega

theorem speedCode_paced (s : Station) (slot : LocoSlot) (now : UInt32) :
    (paced s slot now).speedCode = reminderCode s slot now := by
  unfold paced
  by_cases hdue : Due s slot now
  · rw [if_pos hdue]
    rfl
  · rw [if_neg hdue, reminderCode, if_neg hdue]

/-- A reminder moves the speed by the wanted notches if and only if these are the ones it counts. -/
theorem stepsBy_paced_iff (hmoving : slot.targetSpeed ≠ slot.speedCode) :
    StepsBy (wantedNotches s slot now) slot (paced s slot now) ↔
      remindedNotches s slot now = wantedNotches s slot now := by
  constructor
  · intro h
    have hmoves := h.moves
    rw [speedCode_paced, normalize_reminderCode hmoving] at hmoves
    exact moved_inj hmoves
  · intro h
    refine ⟨by rw [speedCode_paced, normalize_reminderCode hmoving, h], fun hnone => ?_⟩
    have hdue : ¬ Due s slot now := by
      rw [due_iff hmoving, h]
      exact fun hno => hno hnone
    rw [paced, if_neg hdue]
    exact ⟨rfl, rfl⟩

/-- The two counts agree if no time was lost, or enough is left to reach the target. -/
theorem remindedNotches_eq_iff (hmoving : slot.targetSpeed ≠ slot.speedCode) :
    remindedNotches s slot now = wantedNotches s slot now ↔
      getMomentum s slot = 0 ∨ elapsed slot now < 32768 ∨
        (Countable slot now ∧ gap slot ≤ notches (getMomentum s slot) slot now) := by
  have hgap := gap_pos hmoving
  unfold remindedNotches wantedNotches
  by_cases hm : getMomentum s slot = 0
  · simp [hm]
  have hpos : 0 < (getMomentum s slot).toNat := UInt8.pos_iff_ne_zero.mpr hm
  have hbyte := (getMomentum s slot).toNat_lt
  rw [if_neg hm, if_neg hm]
  -- a notch takes at most 1785 ms, so the lost time holds some of them
  have hlost : 36 * (7 * (getMomentum s slot).toNat) ≤ 65536 := by omega
  by_cases hcount : Countable slot now
  · have hsmall : elapsed slot now % 65536 < 32768 := hcount
    rw [if_pos hcount]
    simp only [hm, hcount, false_or, true_and]
    by_cases hshort : elapsed slot now < 32768
    · have hlow : elapsed slot now % 65536 = elapsed slot now := Nat.mod_eq_of_lt (by omega)
      simp [notches, hlow, hshort]
    have hmore : notches (getMomentum s slot) slot now + 36 ≤
        elapsed slot now / (7 * (getMomentum s slot).toNat) := by
      calc notches (getMomentum s slot) slot now + 36
          = (elapsed slot now % 65536 + 36 * (7 * (getMomentum s slot).toNat)) /
              (7 * (getMomentum s slot).toNat) := (Nat.add_mul_div_right _ _ (by omega)).symm
        _ ≤ elapsed slot now / (7 * (getMomentum s slot).toNat) := Nat.div_le_div_right (by omega)
    simp only [hshort, false_or]
    omega
  · have hlarge : ¬ elapsed slot now % 65536 < 32768 := hcount
    have hshort : ¬ elapsed slot now < 32768 := by omega
    have hsome : 18 ≤ elapsed slot now / (7 * (getMomentum s slot).toNat) := by
      rw [Nat.le_div_iff_mul_le (by omega)]
      omega
    rw [if_neg hcount]
    simp only [hm, hcount, hshort, false_or, false_and, iff_false]
    omega

/-- **One reminder moves the speed by the notches that are due**, unless the time since the last
move is 2^15 ms or more and its low 16 bits are negative or too few for the target. -/
theorem issueReminder_steps_iff (hs : Reachable s) (ha : a ∈ s.locos.slots)
    (hroot : (s.locos.mem a).isConsistFollower = false)
    (hstatus : speedStatus s.loopStatus = true)
    (hmoving : (s.locos.mem a).targetSpeed ≠ (s.locos.mem a).speedCode) :
    wp (fun _ => False) (issueReminder a now) (fun _ s' =>
        StepsBy (wantedNotches s (s.locos.mem a) now) (s.locos.mem a) (s'.locos.mem a)) s ↔
      getMomentum s (s.locos.mem a) = 0 ∨ elapsed (s.locos.mem a) now < 32768 ∨
        (Countable (s.locos.mem a) now ∧
          gap (s.locos.mem a) ≤ notches (getMomentum s (s.locos.mem a)) (s.locos.mem a) now) := by
  obtain ⟨xs, ys, h, hc⟩ := hs.sound.table
  rw [h.slots_eq] at ha
  rw [← remindedNotches_eq_iff hmoving, ← stepsBy_paced_iff hmoving]
  obtain ⟨r, s', hrun, hpaced⟩ := wp_iff_exists.mp
    (issueReminder_paced (F := fun _ => False) h hc ha hroot hstatus)
  rw [wp_iff_exists, ← hpaced.root]
  constructor
  · rintro ⟨r', s'', hrun', hsteps⟩
    rw [hrun] at hrun'
    cases hrun'
    exact hsteps
  · exact fun hsteps => ⟨r, s', hrun, hsteps⟩

instance (n : Nat) (slot slot' : LocoSlot) : Decidable (StepsBy n slot slot') :=
  decidable_of_iff (normalize slot'.speedCode = moved slot n ∧
    (n = 0 → slot'.speedCode = slot.speedCode ∧ slot'.momentumBase = slot.momentumBase))
    ⟨fun h => ⟨h.1, h.2⟩, fun h => ⟨h.moves, h.rests⟩⟩

/-- Loco 3 with a momentum of 70 ms that is asked for speed 50. -/
def accelerating : List Op := [.setMomentum 3 70 70, .setThrottle 3 50 true 0]

/-- After a second it has moved by the notches that are due. -/
theorem issueReminder_steps_iff_second :
    ∃ s, runProg Op.exec accelerating (Station.init .avr 8 []) = .ok ((), s) ∧
      wp (fun _ => False) (issueReminder 0 1000) (fun _ s' =>
        StepsBy (wantedNotches s (s.locos.mem 0) 1000) (s.locos.mem 0) (s'.locos.mem 0)) s := by
  obtain ⟨⟨⟩, s, hrun, ha, hroot, hstatus, hmoving, helapsed⟩ := (wp_iff_exists
    (m := runProg Op.exec accelerating)
    (Q := fun _ s => 0 ∈ s.locos.slots ∧ (s.locos.mem 0).isConsistFollower = false ∧
      speedStatus s.loopStatus = true ∧ (s.locos.mem 0).targetSpeed ≠ (s.locos.mem 0).speedCode ∧
      elapsed (s.locos.mem 0) 1000 < 32768)
    (s := Station.init .avr 8 [])).mp (by decide +kernel)
  exact ⟨s, hrun, (issueReminder_steps_iff ⟨.avr, 8, [], accelerating, hrun⟩ ha hroot hstatus
    hmoving).mpr (.inr (.inl helapsed))⟩

/-- When the reminder comes after 40 seconds it does nothing. -/
theorem not_steps_after_forty_seconds :
    ∃ s, runProg Op.exec accelerating (Station.init .avr 8 []) = .ok ((), s) ∧
      0 ∈ s.locos.slots ∧ (s.locos.mem 0).isConsistFollower = false ∧
      speedStatus s.loopStatus = true ∧ (s.locos.mem 0).targetSpeed ≠ (s.locos.mem 0).speedCode ∧
      ¬ wp (fun _ => False) (issueReminder 0 40000) (fun _ s' =>
        StepsBy (wantedNotches s (s.locos.mem 0) 40000) (s.locos.mem 0) (s'.locos.mem 0)) s := by
  obtain ⟨⟨⟩, s, hrun, h⟩ := (wp_iff_exists
    (m := runProg Op.exec accelerating)
    (Q := fun _ s => 0 ∈ s.locos.slots ∧ (s.locos.mem 0).isConsistFollower = false ∧
      speedStatus s.loopStatus = true ∧ (s.locos.mem 0).targetSpeed ≠ (s.locos.mem 0).speedCode ∧
      ¬ wp (fun _ => False) (issueReminder 0 40000) (fun _ s' =>
        StepsBy (wantedNotches s (s.locos.mem 0) 40000) (s.locos.mem 0) (s'.locos.mem 0)) s)
    (s := Station.init .avr 8 [])).mp (by decide +kernel)
  exact ⟨s, hrun, h⟩

/-! ## The whole way -/

/-- A speed packet that is no emergency stop. -/
def CalmCall (c : DCCQueue.Call) : Prop :=
  ∃ cab steps speedCode, isEstop speedCode = false ∧
    c = .scheduleDCCSpeedPacket (speedPacket cab steps speedCode) 0 cab

/-- Only speed packets that are no emergency stops have joined the queue, as long as the emergency
stop is not locked. -/
def Calm (s s' : Station) : Prop :=
  s.estopIsLocked = false → s'.estopIsLocked = false ∧
    ∃ calls, s'.queue = run DCCQueue.step s.queue calls ∧ ∀ c ∈ calls, CalmCall c

instance : Std.Refl Calm := ⟨fun _ h => ⟨h, [], rfl, by simp⟩⟩

instance : IsTrans Station Calm := by
  refine ⟨fun s s' s'' h h' hunlocked => ?_⟩
  obtain ⟨hunlocked', calls, hcalls, hcalm⟩ := h hunlocked
  obtain ⟨hunlocked'', calls', hcalls', hcalm'⟩ := h' hunlocked'
  refine ⟨hunlocked'', calls ++ calls', by rw [hcalls', hcalls, run_append], fun c hc => ?_⟩
  exact (List.mem_append.mp hc).elim (hcalm c) (hcalm' c)

theorem calm_onSlots {α : Type} (m : Slots α) : Preserves Calm (onSlots m) :=
  preserves_zoom fun _ _ hunlocked => ⟨hunlocked, [], rfl, by simp⟩

theorem isEstop_directed (slot : LocoSlot) (speedCode : UInt8) :
    isEstop (directed slot speedCode) = isEstop speedCode := by
  have hreverse : ∀ x : UInt8, isEstop (x ^^^ 0x80) = isEstop x :=
    byte_forall (by decide +kernel)
  unfold directed
  split
  · exact hreverse speedCode
  · rfl

/-- For a speed that is no estop, only speed packets that are no estops join the queue. -/
theorem calm_setThrottle2 (a : Addr) {speedCode : UInt8} (hcode : isEstop speedCode = false) :
    Preserves Calm (setThrottle2 a speedCode) := by
  have hsend : ∀ b, Preserves Calm (setThrottleDCC (some b) speedCode) := by
    intro b
    refine preserves_get_bind fun s => ?_
    simp only [wp_bind]
    refine wp_mono (wp_iff_forall.mpr fun slot s' hread => ?_) fun _ s' h => h
    have hsame : s' = { s with locos := s'.locos } := by
      simp only [onSlots, zoom] at hread
      split at hread
      · cases hread
        rfl
      · cases hread
    rw [wp_sendSpeed, hsame]
    intro hunlocked
    refine ⟨hunlocked, [_], rfl, fun c hc => ?_⟩
    rw [List.mem_singleton] at hc
    have hdirected := (isEstop_directed slot speedCode).trans hcode
    refine ⟨slot.loco, s.globalSpeedsteps, directed slot speedCode, hdirected, ?_⟩
    rw [hc, hunlocked]
    simp only [speedCall, Bool.false_eq_true, if_false]
    exact if_neg (by simpa [directed] using hdirected)
  refine preserves_bind preserves_get fun s => ?_
  refine preserves_loop (fun b _ => ?_) _ _ _
  exact preserves_bind (calm_onSlots _) fun _ => preserves_bind (hsend b) fun _ =>
    preserves_bind (calm_onSlots _) fun _ => preserves_pure _

/-- A reminder whose speed is no emergency stop sends none. -/
theorem remindSpeed_calm (h : Lists s.locos xs ys) (ha : a ∈ xs)
    (hcode : isEstop (reminderCode s (s.locos.mem a) now) = false) :
    wp (fun _ => True) (remindSpeed a now) (fun _ s' => Calm s s') s := by
  refine wp_remindSpeed_setThrottle2 h ha (fun s₂ hdue hs₂ _ => ?_) fun hdue => ?_
  · -- the tracks may have been driven, which sends no packet
    have hcalm : Calm s { s₂ with locos := s₂.locos.write a ((s₂.locos.mem a).setMomentumBase now) } := by
      intro hunlocked
      rw [hs₂.rest]
      exact ⟨hunlocked, [], rfl, by simp⟩
    exact wp_mono (calm_setThrottle2 a hcode _) fun _ s' hs' => IsTrans.trans _ _ _ hcalm hs'
  · have hstay : reminderCode s (s.locos.mem a) now = (s.locos.mem a).speedCode := if_neg hdue
    rw [hstay] at hcode
    exact calm_setThrottle2 a hcode s

/-- The notches that are due end on the code of an emergency stop between the speed and the
target. -/
def HitsEstop (m : UInt8) (slot : LocoSlot) (now : UInt32) : Prop :=
  m ≠ 0 ∧ Countable slot now ∧ ∃ code ∈ ([-2, 1] : List Int),
    (normalize slot.speedCode < code ∧ code < normalize slot.targetSpeed ∨
      normalize slot.targetSpeed < code ∧ code < normalize slot.speedCode) ∧
    notches m slot now = (code - normalize slot.speedCode).natAbs

instance (m : UInt8) : Decidable (HitsEstop m slot now) :=
  inferInstanceAs (Decidable (_ ∧ _ ∧ _))

/-- A step of `n` notches ends at a code that is neither the speed nor the target if the code is between
them, and that far away. -/
theorem moved_eq_iff {code : Int} (hspeed : ¬ normalize slot.speedCode = code)
    (htarget : ¬ normalize slot.targetSpeed = code) (n : Nat) :
    moved slot (min (gap slot) n) = code ↔
      (normalize slot.speedCode < code ∧ code < normalize slot.targetSpeed ∨
        normalize slot.targetSpeed < code ∧ code < normalize slot.speedCode) ∧
      n = (code - normalize slot.speedCode).natAbs := by
  unfold moved gap
  generalize normalize slot.speedCode = x at *
  generalize normalize slot.targetSpeed = y at *
  split
  · constructor <;> omega
  · constructor <;> omega

/-- With no estop commanded, a reminder has the code of an estop only if the ramp hits it. -/
theorem isEstop_reminderCode_iff (hspeed : isEstop slot.speedCode = false)
    (htarget : isEstop slot.targetSpeed = false) :
    isEstop (reminderCode s slot now) = true ↔ HitsEstop (getMomentum s slot) slot now := by
  have hspeed' : ¬ (normalize slot.speedCode = -2 ∨ normalize slot.speedCode = 1) := by
    rw [← isEstop_iff, hspeed]
    decide
  have htarget' : ¬ (normalize slot.targetSpeed = -2 ∨ normalize slot.targetSpeed = 1) := by
    rw [← isEstop_iff, htarget]
    decide
  rw [isEstop_iff]
  by_cases hmoving : slot.targetSpeed = slot.speedCode
  · have hdue : ¬ Due s slot now := fun h => h.1 hmoving
    rw [reminderCode, if_neg hdue]
    refine ⟨fun h => absurd h hspeed', ?_⟩
    rintro ⟨-, -, code, -, hbetween, -⟩
    rw [hmoving] at hbetween
    omega
  rw [normalize_reminderCode hmoving]
  unfold remindedNotches HitsEstop
  by_cases hm : getMomentum s slot = 0
  · simp only [hm, if_true, ne_eq, not_true, false_and, iff_false]
    unfold moved gap
    split <;> omega
  rw [if_neg hm]
  by_cases hcount : Countable slot now
  · rw [if_pos hcount, moved_eq_iff (mt .inl hspeed') (mt .inl htarget'),
      moved_eq_iff (mt .inr hspeed') (mt .inr htarget')]
    simp only [ne_eq, hm, not_false_eq_true, hcount, true_and, List.mem_cons, List.not_mem_nil,
      or_false, exists_eq_or_imp, exists_eq_left]
  · simp only [hcount, if_false, false_and, and_false, iff_false]
    simpa [moved] using hspeed'

/-- Slot `a` is on its way, in a loop state that reminds speeds. -/
structure OnTheWay (a : Addr) (s : Station) : Prop where
  table : ∃ xs ys, Lists s.locos xs ys ∧ Consists s.locos xs none ∧ a ∈ xs
  root : (s.locos.mem a).isConsistFollower = false
  status : speedStatus s.loopStatus = true
  unlocked : s.estopIsLocked = false
  speed : isEstop (s.locos.mem a).speedCode = false
  target : isEstop (s.locos.mem a).targetSpeed = false

/-- The reminder of slot `a` at `now` is no emergency stop: neither the speed it leaves nor any
packet it sends. -/
def CalmReminder (a : Addr) (s : Station) (now : UInt32) : Prop :=
  wp (fun _ => False) (issueReminder a now)
    (fun _ s' => isEstop (s'.locos.mem a).speedCode = false ∧ Calm s s') s

theorem wp_issueReminder_calm (h : OnTheWay a s)
    (hcode : isEstop (reminderCode s (s.locos.mem a) now) = false) :
    wp (fun _ => True) (issueReminder a now) (fun _ s' => Calm s s') s := by
  obtain ⟨xs, ys, hl, hc, ha⟩ := h.table
  simp only [issueReminder, wp_bind]
  rw [wp_read (hl.live_inUse ha)]
  simp only [wp_get]
  rw [if_pos h.status, if_neg (by simp [h.root]), wp_bind]
  exact remindSpeed_calm hl ha hcode

theorem OnTheWay.paced (h : OnTheWay a s) :
    wp F (issueReminder a now) (fun _ s' => Paced now a s s') s := by
  obtain ⟨xs, ys, hl, hc, ha⟩ := h.table
  exact issueReminder_paced hl hc ha h.root h.status

theorem calmReminder_iff (h : OnTheWay a s) :
    CalmReminder a s now ↔ ¬ HitsEstop (getMomentum s (s.locos.mem a)) (s.locos.mem a) now := by
  rw [← isEstop_reminderCode_iff h.speed h.target, Bool.not_eq_true]
  constructor
  · intro hcalm
    obtain ⟨r, s', hrun, hspeed, -⟩ := wp_iff_exists.mp hcalm
    have hpaced := wp_of_ok hrun (h.paced (F := fun _ => False))
    rwa [hpaced.root, speedCode_paced] at hspeed
  · intro hcode
    refine wp_mono (wp_and h.paced (wp_issueReminder_calm h hcode)) ?_
    rintro _ s' ⟨hpaced, hcalm⟩
    exact ⟨by rwa [hpaced.root, speedCode_paced], hcalm⟩

@[simp] theorem isConsistFollower_paced (s : Station) (slot : LocoSlot) (now : UInt32) :
    (paced s slot now).isConsistFollower = slot.isConsistFollower := by
  unfold paced
  split <;> rfl

@[simp] theorem targetSpeed_paced (s : Station) (slot : LocoSlot) (now : UInt32) :
    (paced s slot now).targetSpeed = slot.targetSpeed := by
  unfold paced
  split <;> rfl

/-- After a calm reminder the slot is still on its way. -/
theorem OnTheWay.step (h : OnTheWay a s) (hcalm : CalmReminder a s now) :
    wp F (issueReminder a now) (fun _ s' => OnTheWay a s') s := by
  obtain ⟨r, s', hrun, hspeed, -⟩ := wp_iff_exists.mp hcalm
  have hpaced := wp_of_ok hrun (h.paced (F := fun _ => False))
  obtain ⟨xs, ys, hl, hc, ha⟩ := h.table
  have hnext : OnTheWay a s' := by
    refine ⟨⟨xs, ys, hpaced.locos.lists hl, hpaced.locos.consists hc, ha⟩, ?_, ?_, ?_, hspeed, ?_⟩
    · rw [hpaced.root, isConsistFollower_paced]
      exact h.root
    · rw [hpaced.rest]
      exact h.status
    · rw [hpaced.rest]
      exact h.unlocked
    · rw [hpaced.root, targetSpeed_paced]
      exact h.target
  unfold wp
  rw [hrun]
  exact hnext

/-- **A ramp sends no emergency stop exactly when no reminder on the way comes at a time when the
notches that are due end on the code of an emergency stop.** -/
theorem ramp_calm_iff (hs : Reachable s) (ha : a ∈ s.locos.slots)
    (hroot : (s.locos.mem a).isConsistFollower = false)
    (hstatus : speedStatus s.loopStatus = true) (hunlocked : s.estopIsLocked = false)
    (hspeed : isEstop (s.locos.mem a).speedCode = false)
    (htarget : isEstop (s.locos.mem a).targetSpeed = false) (clocks : List UInt32) :
    AlongProg (issueReminder a) (CalmReminder a) clocks s ↔
      AlongProg (issueReminder a) (fun s now =>
        ¬ HitsEstop (getMomentum s (s.locos.mem a)) (s.locos.mem a) now) clocks s := by
  obtain ⟨xs, ys, hl, hc⟩ := hs.sound.table
  rw [hl.slots_eq] at ha
  have hstart : OnTheWay a s := ⟨⟨xs, ys, hl, hc, ha⟩, hroot, hstatus, hunlocked, hspeed, htarget⟩
  refine alongProg_congr (OnTheWay a) ?_ ?_ hstart
  · intro s now h
    exact calmReminder_iff h
  · intro s now h hcalm
    exact h.step hcalm

/-- Reminders at 100 and 200 ms take the loco past the emergency stop. -/
theorem ramp_calm_iff_accelerating :
    ∃ s, runProg Op.exec accelerating (Station.init .avr 8 []) = .ok ((), s) ∧
      AlongProg (issueReminder 0) (CalmReminder 0) [100, 200] s := by
  obtain ⟨⟨⟩, s, hrun, ha, hroot, hstatus, hunlocked, hspeed, htarget, hclocks⟩ := (wp_iff_exists
    (m := runProg Op.exec accelerating)
    (Q := fun _ s => 0 ∈ s.locos.slots ∧ (s.locos.mem 0).isConsistFollower = false ∧
      speedStatus s.loopStatus = true ∧ s.estopIsLocked = false ∧
      isEstop (s.locos.mem 0).speedCode = false ∧ isEstop (s.locos.mem 0).targetSpeed = false ∧
      AlongProg (issueReminder 0) (fun s now =>
        ¬ HitsEstop (getMomentum s (s.locos.mem 0)) (s.locos.mem 0) now) [100, 200] s)
    (s := Station.init .avr 8 [])).mp (by decide +kernel)
  exact ⟨s, hrun, (ramp_calm_iff ⟨.avr, 8, [], accelerating, hrun⟩ ha hroot hstatus hunlocked hspeed
    htarget [100, 200]).mpr hclocks⟩

/-- A reminder at 30 ms, when the first notch is due, is an emergency stop. -/
theorem ramp_sends_estop :
    ∃ s, runProg Op.exec accelerating (Station.init .avr 8 []) = .ok ((), s) ∧
      0 ∈ s.locos.slots ∧ (s.locos.mem 0).isConsistFollower = false ∧
      speedStatus s.loopStatus = true ∧ s.estopIsLocked = false ∧
      isEstop (s.locos.mem 0).speedCode = false ∧ isEstop (s.locos.mem 0).targetSpeed = false ∧
      ¬ AlongProg (issueReminder 0) (CalmReminder 0) [30] s := by
  obtain ⟨⟨⟩, s, hrun, ha, hroot, hstatus, hunlocked, hspeed, htarget, hestop⟩ := (wp_iff_exists
    (m := runProg Op.exec accelerating)
    (Q := fun _ s => 0 ∈ s.locos.slots ∧ (s.locos.mem 0).isConsistFollower = false ∧
      speedStatus s.loopStatus = true ∧ s.estopIsLocked = false ∧
      isEstop (s.locos.mem 0).speedCode = false ∧ isEstop (s.locos.mem 0).targetSpeed = false ∧
      wp (fun _ => False) (issueReminder 0 30)
        (fun _ s' => isEstop (s'.locos.mem 0).speedCode = true) s)
    (s := Station.init .avr 8 [])).mp (by decide +kernel)
  refine ⟨s, hrun, ha, hroot, hstatus, hunlocked, hspeed, htarget, fun hcalm => ?_⟩
  obtain ⟨r, s', hreminder, hyes⟩ := wp_iff_exists.mp hestop
  have hno := wp_of_ok hreminder hcalm.1
  rw [hyes] at hno
  cases hno.1

end DCC

end CommandStation
