import CommandStation.DCC.Ramp

/-!
# Taking a consist apart

`DCCConsist::parse` takes the consist of the first loco apart before it looks if the other locos are
free, so a request that it refuses may leave a consist in pieces.

A consist is kept at the speed of its lead: the lead and all followers are given the speed code of the
lead, and it is reversed on the way to the track for those that run reversed. Their target speeds are
reversed when they are stored, but that of the lead is not. When the consist is taken apart nobody runs
reversed any more, and each slot is reminded of the codes that are left in it.
-/

namespace CommandStation

open CommandStation.Lib LocoTable DCCConsist

variable {F : Fault → Prop} {t : LocoTable} {s s' : Station} {xs ys zs : List Addr} {a b l : Addr}

/-! ## Requests that are refused -/

theorem rootOf_mem (hc : Consists t xs none) (hb : b ∈ xs) : t.rootOf b ∈ xs := by
  rw [rootOf]
  cases hlead : t.leadOf b with
  | none => exact hb
  | some l => exact (hc.forest.root b hb l hlead).1

/-- The slot is in the consist that loco `p` leads. -/
def LedBy (t : LocoTable) (p : Int16) (b : Addr) : Prop :=
  (t.mem (t.rootOf b)).isConsistLead = true ∧ (t.mem (t.rootOf b)).loco = locoIdOf p

instance (p : Int16) (b : Addr) : Decidable (LedBy t p b) := inferInstanceAs (Decidable (_ ∧ _))

/-- `killConsistOf` takes the links of the slots that the loco leads. -/
theorem killConsistOf_unchained (h : Lists t xs ys) (hc : Consists t xs none) (p : Int16) :
    wp F (killConsistOf p) (fun _ t' => ∃ cs, Unchained t cs t' ∧
      ∀ b, b ∈ cs ↔ b ∈ xs ∧ LedBy t p b) t := by
  refine wp_mono (killConsistOf_led h hc p) ?_
  rintro _ t' ⟨cs, ⟨rfl, hno⟩ | ⟨l, zs, hzs, rfl, hid, hlead⟩, ht'⟩
  · refine ⟨[], ht', fun b => iff_of_false (by simp) ?_⟩
    rintro ⟨hb, hled, hbid⟩
    rw [hno _ (rootOf_mem hc hb) hbid] at hled
    cases hled
  · have hl : l ∈ xs := hzs.subset l List.mem_cons_self
    refine ⟨l :: zs, ht', fun b => ?_⟩
    constructor
    · intro hb
      have hrootb := (rootOf_eq_iff hzs (hzs.subset b hb)).mpr hb
      rw [LedBy, hrootb]
      exact ⟨hzs.subset b hb, hlead, hid⟩
    · rintro ⟨hb, -, hbid⟩
      have hrootb := h.loco_inj (rootOf_mem hc hb) hl (hbid.trans hid.symm)
      exact (rootOf_eq_iff hzs hb).mp hrootb

/-- A request of `parse` takes the consist apart that this slot is in: the ids are in order and the first
loco leads that consist. -/
def TakesApart (t : LocoTable) (ps : List Int16) (b : Addr) : Prop :=
  checkLocoIds ps = none ∧ b ∈ t.slots ∧ ∃ p ∈ ps.head?, LedBy t p b

theorem wp_any {σ ε α : Type} {m : Prog σ ε α} {s : σ} : wp (fun _ => True) m (fun _ _ => True) s := by
  unfold wp
  split <;> trivial

/-- What `parse` leaves when it returns false. -/
theorem parse_false (h : Lists t xs ys) (hc : Consists t xs none) (ps : List Int16) :
    wp (fun _ => True) (parse ps) (fun r t' => r.1 = false →
      ∃ cs, Unchained t cs t' ∧ ∀ b, b ∈ cs ↔ TakesApart t ps b) t := by
  cases ps with
  | nil =>
    simp only [parse, wp_bind]
    refine wp_mono wp_any fun _ _ _ hfalse => ?_
    cases hfalse
  | cons p rest =>
    rw [parse]
    cases hcheck : checkLocoIds (p :: rest) with
    | some complaint =>
      intro _
      refine ⟨[], unchained_nil.mpr rfl, fun b => iff_of_false (by simp) ?_⟩
      rintro ⟨hnone, -⟩
      rw [hcheck] at hnone
      cases hnone
    | none =>
      simp only
      rw [wp_bind]
      refine wp_mono (killConsistOf_unchained h hc p) ?_
      rintro _ t₁ ⟨cs, ht₁, hcs⟩
      split
      · intro hfalse
        cases hfalse
      · rw [wp_bind]
        refine wp_mono (findConsisted_spec (h.unchained ht₁) (p :: rest)) ?_
        rintro r _ ⟨rfl, -⟩
        cases r with
        | some q =>
          intro _
          refine ⟨cs, ht₁, fun b => ?_⟩
          rw [hcs, TakesApart, h.slots_eq]
          simp [hcheck]
        | none =>
          simp only
          rw [wp_bind]
          refine wp_mono wp_any fun _ _ _ hfalse => ?_
          cases hfalse

/-- **A request that is refused** leaves all slots as they are, except that it has taken the consist of the
first loco apart if the ids were in order. -/
theorem parse_refused (hs : Reachable s) {ps : List Int16} {out : String}
    (hparse : onSlots (DCCConsist.parse ps) s = .ok ((false, out), s')) :
    (∀ b, TakesApart s.locos ps b → s'.locos.mem b = (s.locos.mem b).unchained) ∧
    (∀ b, ¬ TakesApart s.locos ps b → s'.locos.mem b = s.locos.mem b) ∧
    s' = { s with locos := { s.locos with mem := s'.locos.mem } } := by
  obtain ⟨xs, ys, h, hc⟩ := hs.sound.table
  have hwp : wp (fun _ => True) (onSlots (DCCConsist.parse ps)) (fun r s' => r.1 = false →
      s' = { s with locos := s'.locos } ∧ ∃ cs, Unchained s.locos cs s'.locos ∧
        ∀ b, b ∈ cs ↔ TakesApart s.locos ps b) s := by
    rw [wp_onSlots]
    refine wp_mono (parse_false h hc ps) ?_
    intro r t' hr hfalse
    exact ⟨rfl, hr hfalse⟩
  obtain ⟨hstation, cs, hcs, hmem⟩ := wp_of_ok hparse hwp rfl
  refine ⟨fun b hb => hcs.chain b ((hmem b).mpr hb), fun b hb => hcs.other b (mt (hmem b).mp hb), ?_⟩
  rw [hstation]
  congr 1
  exact hcs.statics

/-- Locos 1 and 2 in a consist, and 3 and 4 in another. -/
def twoConsists : List Op := [.parseConsist [1, 2], .parseConsist [3, -4]]

/-- A request for a consist of 1 and 3 takes the one of 1 and 2 apart. -/
theorem parse_refused_two :
    ∃ s s' out, Reachable s ∧ onSlots (DCCConsist.parse [1, 3]) s = .ok ((false, out), s') ∧
      s'.locos.mem 1 = (s.locos.mem 1).unchained ∧ s'.locos.mem 2 = s.locos.mem 2 := by
  obtain ⟨⟨⟩, s, hrun, hids, hslot, hled, hnot, hparse⟩ := (wp_iff_exists (m := runProg Op.exec twoConsists)
    (Q := fun _ s => checkLocoIds [1, 3] = none ∧ 1 ∈ s.locos.slots ∧ LedBy s.locos 1 1 ∧
      ¬ LedBy s.locos 1 2 ∧
      wp (fun _ => False) (onSlots (DCCConsist.parse [1, 3])) (fun r _ => r.1 = false) s)
    (s := Station.init .avr 8 [])).mp (by decide +kernel)
  obtain ⟨⟨r, out⟩, s', hrefused, rfl⟩ := wp_iff_exists.mp hparse
  have hreach : Reachable s := ⟨.avr, 8, [], twoConsists, hrun⟩
  obtain ⟨hapart, hsame, -⟩ := parse_refused hreach hrefused
  refine ⟨s, s', out, hreach, hrefused, hapart 1 ⟨hids, hslot, 1, rfl, hled⟩, hsame 2 ?_⟩
  rintro ⟨-, -, p, hp, hled'⟩
  cases hp
  exact hnot hled'

/-- A request that is refused may change links. -/
theorem not_parse_unchanged : ¬ ∀ (s s' : Station) (ps : List Int16) (out : String), Reachable s →
    onSlots (DCCConsist.parse ps) s = .ok ((false, out), s') → ∀ b ∈ s.locos.slots,
      (s'.locos.mem b).consistLead = (s.locos.mem b).consistLead ∧
      (s'.locos.mem b).consistNext = (s.locos.mem b).consistNext ∧
      (s'.locos.mem b).consistReverse = (s.locos.mem b).consistReverse := by
  intro h
  obtain ⟨⟨⟩, s, hrun, hslot, hlead, hparse⟩ := (wp_iff_exists (m := runProg Op.exec twoConsists)
    (Q := fun _ s => 1 ∈ s.locos.slots ∧ (s.locos.mem 1).consistLead ≠ none ∧
      wp (fun _ => False) (onSlots (DCCConsist.parse [1, 3]))
        (fun r s' => r.1 = false ∧ (s'.locos.mem 1).consistLead = none) s)
    (s := Station.init .avr 8 [])).mp (by decide +kernel)
  obtain ⟨⟨r, out⟩, s', hrefused, rfl, hnone⟩ := wp_iff_exists.mp hparse
  have hsame := (h s s' [1, 3] out ⟨.avr, 8, [], twoConsists, hrun⟩ hrefused 1 hslot).1
  exact hlead (hsame.symm.trans hnone)

namespace DCC

variable {slot : LocoSlot} {now : UInt32} {x y z : UInt8}

/-! ## Bytes that are the same -/

/-- The speed bytes of a packet for a speed code. -/
def sentBytes (s : Station) (speedCode : UInt8) : List UInt8 :=
  speedBytes s.globalSpeedsteps (blocked s speedCode)

/-- The place of a speed code on the axis when there are only 28 speed steps. -/
def notch28 (n : Int) : Int :=
  if 1 < n then (n * 10 + 36) / 46 + 1
  else if n < -2 then -2 - ((-1 - n) * 10 + 36) / 46
  else n

theorem notch28_mono {m n : Int} (h : m ≤ n) : notch28 m ≤ notch28 n := by
  unfold notch28
  split_ifs <;> omega

/-- The command byte for a place on the axis of 28 steps. -/
def notchByte (n : Int) : UInt8 :=
  let code (i : Nat) : UInt8 :=
    if i ≤ 1 then UInt8.ofNat i
    else UInt8.ofNat ((i + 2) / 2) ||| (if i % 2 = 0 then 0 else 0x10)
  if 0 ≤ n then 0x60 ||| code n.toNat else 0x40 ||| code (-1 - n).toNat

/-- The place on the axis of 28 steps for a command byte. -/
def byteNotch (b : UInt8) : Int :=
  let i : Int := if b &&& 0x1F ≤ 1 then (b &&& 0x1F).toNat
    else 2 * ((b &&& 0x0F).toNat : Int) - 2 + (if b &&& 0x10 = 0 then 0 else 1)
  if b &&& 0x20 = 0 then -1 - i else i

theorem speed28Byte_eq_iff (x y : UInt8) :
    speed28Byte x = speed28Byte y ↔ notch28 (normalize x) = notch28 (normalize y) := by
  have hbyte : ∀ x, speed28Byte x = notchByte (notch28 (normalize x)) :=
    byte_forall (by decide +kernel)
  have hnotch : ∀ x, byteNotch (speed28Byte x) = notch28 (normalize x) :=
    byte_forall (by decide +kernel)
  constructor
  · intro h
    rw [← hnotch, h, hnotch]
  · intro h
    rw [hbyte, h, ← hbyte]

theorem estopCode_eq (x : UInt8) : estopCode x = if normalize x < 0 then 0x01 else 0x81 := by
  revert x
  exact byte_forall (by decide +kernel)

/-- Codes that are sent with the same bytes lie side by side on the axis. -/
theorem exists_scale (s : Station) : ∃ scale : Int → Int,
    (∀ m n, m ≤ n → scale m ≤ scale n) ∧
    ∀ x y, sentBytes s x = sentBytes s y ↔ scale (normalize x) = scale (normalize y) := by
  have hbytes : ∀ x y, speedBytes s.globalSpeedsteps x = speedBytes s.globalSpeedsteps y ↔
      if s.globalSpeedsteps ≤ 28 then notch28 (normalize x) = notch28 (normalize y)
      else normalize x = normalize y := by
    intro x y
    unfold speedBytes
    split
    · rw [List.cons.injEq, and_iff_left rfl, speed28Byte_eq_iff]
    · rw [normalize_inj]
      simp
  unfold sentBytes blocked
  by_cases hlocked : s.estopIsLocked = true
  · -- an emergency stop is all that is sent
    refine ⟨fun n => if n < 0 then 0 else 1, ?_, fun x y => ?_⟩
    · intro m n hmn
      dsimp only
      split_ifs <;> omega
    · have hforward : normalize 0x81 = 1 := by decide
      have hreverse : normalize 0x01 = -2 := by decide
      simp only [hlocked, if_true, hbytes, estopCode_eq]
      split_ifs <;> simp [hforward, hreverse, notch28]
  · simp only [hlocked, Bool.false_eq_true, if_false, hbytes]
    by_cases hsteps : s.globalSpeedsteps ≤ 28
    · exact ⟨notch28, fun _ _ => notch28_mono, fun x y => by rw [if_pos hsteps]⟩
    · exact ⟨id, fun _ _ => id, fun x y => by rw [if_neg hsteps]; rfl⟩

theorem moved_bounds (slot : LocoSlot) {n : Nat} (hn : n ≤ gap slot) :
    min (normalize slot.speedCode) (normalize slot.targetSpeed) ≤ moved slot n ∧
      moved slot n ≤ max (normalize slot.speedCode) (normalize slot.targetSpeed) := by
  unfold gap at hn
  unfold moved
  split <;> omega

theorem moved_gap (slot : LocoSlot) : moved slot (gap slot) = normalize slot.targetSpeed := by
  unfold moved gap
  split <;> omega

theorem remindedNotches_le (s : Station) (slot : LocoSlot) (now : UInt32) :
    remindedNotches s slot now ≤ gap slot := by
  unfold remindedNotches
  split_ifs <;> omega

/-- The next reminder of a slot sends the same bytes if both codes of the slot do, or its target does and the
speed is taken there at once. -/
theorem sentBytes_reminderCode (htarget : sentBytes s slot.targetSpeed = sentBytes s x)
    (hspeed : sentBytes s slot.speedCode = sentBytes s x ∨ getMomentum s slot = 0) :
    sentBytes s (reminderCode s slot now) = sentBytes s x := by
  by_cases hmoving : slot.targetSpeed = slot.speedCode
  · have hdue : ¬ Due s slot now := fun h => h.1 hmoving
    rw [reminderCode, if_neg hdue, ← hmoving, htarget]
  obtain ⟨scale, hmono, hscale⟩ := exists_scale s
  rw [hscale, normalize_reminderCode hmoving]
  rw [hscale] at htarget
  by_cases hm : getMomentum s slot = 0
  · rw [remindedNotches, if_pos hm, moved_gap, htarget]
  · have hsame := hspeed.resolve_right hm
    rw [hscale] at hsame
    obtain ⟨hlow, hhigh⟩ := moved_bounds slot (remindedNotches_le s slot now)
    have hlow' := hmono _ _ hlow
    have hhigh' := hmono _ _ hhigh
    rcases Int.le_total (normalize slot.speedCode) (normalize slot.targetSpeed) with hle | hle
    · rw [Int.min_eq_left hle] at hlow'
      rw [Int.max_eq_right hle] at hhigh'
      omega
    · rw [Int.min_eq_right hle] at hlow'
      rw [Int.max_eq_left hle] at hhigh'
      omega

/-- A reminder at the time of the last move leaves the speed, unless it goes to the target at once. -/
theorem reminderCode_at_base (hm : getMomentum s slot ≠ 0) :
    reminderCode s slot slot.momentumBase = slot.speedCode := by
  have hnow : elapsed slot slot.momentumBase = 0 := by simp [elapsed]
  have hcount : Countable slot slot.momentumBase := by
    rw [Countable, hnow]
    decide
  have hdue : ¬ Due s slot slot.momentumBase := by
    rintro ⟨-, hticks⟩
    rw [ticks_countable hm hcount, notches, hnow] at hticks
    simp at hticks
  rw [reminderCode, if_neg hdue]

/-- There is a time when the next move is due. -/
theorem exists_due (s : Station) (hmoving : slot.targetSpeed ≠ slot.speedCode) :
    ∃ now, Due s slot now := by
  -- the longest time for one notch
  refine ⟨slot.momentumBase + 1785, (due_iff hmoving).mpr ?_⟩
  have hgap := gap_pos hmoving
  unfold remindedNotches
  by_cases hm : getMomentum s slot = 0
  · rw [if_pos hm]
    omega
  have helapsed : elapsed slot (slot.momentumBase + 1785) = 1785 := by
    rw [elapsed, UInt32.add_comm, UInt32.add_sub_cancel]
    rfl
  have hcount : Countable slot (slot.momentumBase + 1785) := by
    rw [Countable, helapsed]
    decide
  have hpos : 0 < (getMomentum s slot).toNat := UInt8.pos_iff_ne_zero.mpr hm
  have hbyte := (getMomentum s slot).toNat_lt
  have hone : 1 ≤ 1785 % 65536 / (7 * (getMomentum s slot).toNat) := by
    rw [Nat.le_div_iff_mul_le (by omega)]
    omega
  rw [if_neg hm, if_pos hcount, notches, helapsed]
  exact Nat.ne_of_gt (Nat.lt_min.mpr ⟨hgap, hone⟩)

/-! ## Reminders of a loco that is in no consist -/

/-- Speed reminders have been sent since `s`. -/
structure Going (s s₁ : Station) : Prop where
  locos : Retuned s.locos s₁.locos
  rest : s₁ = { s with
    locos := s₁.locos, queue := s₁.queue, tracks := s₁.tracks, dcSignals := s₁.dcSignals }

theorem Going.refl (s : Station) : Going s s := ⟨.refl _, rfl⟩

theorem Going.trans {s₁ s₂ : Station} (h : Going s s₁) (h' : Going s₁ s₂) : Going s s₂ :=
  ⟨h.locos.trans h'.locos, by rw [h'.rest, h.rest]⟩

theorem Going.sentBytes_eq {s₁ : Station} (h : Going s s₁) (x : UInt8) :
    sentBytes s₁ x = sentBytes s x := by
  rw [h.rest]
  rfl

theorem Going.getMomentum_eq {s₁ : Station} (h : Going s s₁) (slot : LocoSlot) :
    getMomentum s₁ slot = getMomentum s slot := by
  rw [h.rest]
  rfl

/-- The speed bytes in the packet that the reminder of root `l` at `now` sends to the loco of slot `b`, the
root itself or a follower. -/
def sentTo (s : Station) (l b : Addr) (now : UInt32) : List UInt8 :=
  sentBytes s (directed (s.locos.mem b) (reminderCode s (s.locos.mem l) now))

/-- The calls for a speed code that goes to the slots `cs` of a consist. -/
def speedCalls (s : Station) (cs : List Addr) (speedCode : UInt8) : List DCCQueue.Call :=
  cs.map fun b => speedCall (s.locos.mem b).loco s.globalSpeedsteps
    (blocked s (directed (s.locos.mem b) speedCode))

/-- `setThrottle2` schedules one speed packet for each loco of the consist, in its order. -/
theorem setThrottle2_calls (h : Lists s.locos xs ys)
    (hzs : Forest.Chain xs s.locos.leadOf s.locos.consistNextOf l zs) (speedCode : UInt8) :
    wp F (setThrottle2 l speedCode) (fun _ s' =>
      s'.queue = run DCCQueue.step s.queue (speedCalls s (l :: zs) speedCode)) s := by
  simp only [setThrottle2, updateSlots, followSlots, wp_bind, wp_get]
  -- `rest` are the slots still to be written, `done` those before them
  refine wp_loop (fun rest p _ s' => Links s.locos.consistNextOf p rest ∧
      ∃ done locos, l :: zs = done ++ rest ∧ Retuned s.locos locos ∧
        s' = { s with
          queue := run DCCQueue.step s.queue (speedCalls s done speedCode), locos := locos }) ?_ ?_
      (chain_length h hzs) ⟨hzs.links_cons, [], s.locos, rfl, .refl _, rfl⟩
  · rintro rest a _ s' ⟨hlinks, done, locos, hdone, hret, rfl⟩
    cases rest with
    | nil => cases hlinks
    | cons c rest =>
      obtain ⟨hp, hlinks⟩ := hlinks
      cases hp
      have hmem : a ∈ l :: zs := by
        rw [hdone]
        simp
      have hlive : locos.live a = true := (hret.lists h).live_inUse (hzs.subset a hmem)
      have hwritten : Retuned s.locos (locos.write a ((locos.mem a).setSpeedCode speedCode)) :=
        hret.trans (Retuned.write _ a _ rfl)
      refine ⟨rest, rfl, ?_⟩
      simp only [wp_bind]
      rw [wp_write (by exact hlive), wp_setThrottleDCC (by exact hlive), wp_read (by exact hlive), wp_pure]
      dsimp only
      generalize locos.write a ((locos.mem a).setSpeedCode speedCode) = locos' at hwritten ⊢
      have hnext : (locos'.mem a).consistNext = s.locos.consistNextOf a := hwritten.consistNextOf a
      have hloco := hwritten.loco a
      have hreverse := hwritten.consistReverse a
      rw [hnext]
      refine ⟨hlinks, done ++ [a], locos', by simp [hdone], hwritten, ?_⟩
      congr 1
      simp only [speedCalls, List.map_append, List.map_cons, List.map_nil, run_append, run_cons, run_nil,
        directed, blocked, hloco, hreverse]
  · rintro rest _ s' ⟨hlinks, done, locos, hdone, -, rfl⟩
    cases rest with
    | nil =>
      rw [List.append_nil] at hdone
      rw [hdone]
    | cons c rest => cases hlinks.1

/-- A loco of the table that is in no consist. -/
structure Single (s : Station) (xs ys : List Addr) (b : Addr) : Prop where
  lists : Lists s.locos xs ys
  consists : Consists s.locos xs none
  mem : b ∈ xs
  loose : s.locos.Loose b

theorem Single.going {s₁ : Station} (h : Single s xs ys b) (hs₁ : Going s s₁) : Single s₁ xs ys b :=
  ⟨hs₁.locos.lists h.lists, hs₁.locos.consists h.consists, h.mem, by
    rw [Loose, hs₁.locos.leadOf, hs₁.locos.consistNextOf]
    exact h.loose⟩

theorem Single.sentTo_eq (h : Single s xs ys b) :
    sentTo s b b now = sentBytes s (reminderCode s (s.locos.mem b) now) := by
  have hforward := h.consists.reverse b h.mem (fun hnone => by cases hnone) h.loose
  rw [sentTo, directed, hforward]
  rfl

/-- The reminder of a root moves the speed of its own slot, and leaves that of a loco in no consist. -/
theorem Single.reminded (h : Single s xs ys b) (ha : a ∈ xs) (hroot : s.locos.leadOf a = none) :
    wp F (remindSpeed a now) (fun _ s₁ => Going s s₁ ∧
      s₁.locos.mem b = if a = b then paced s (s.locos.mem b) now else s.locos.mem b) s := by
  obtain ⟨zs, hzs⟩ := h.consists.forest.exists_chain ha hroot
  refine wp_mono (wp_and (remindSpeed_spec h.lists hzs now) (remindSpeed_paced h.lists hzs now)) ?_
  rintro _ s₁ ⟨hreminded, hpaced⟩
  refine ⟨⟨hpaced.locos, hpaced.rest⟩, ?_⟩
  split
  · next hab =>
    subst hab
    exact hpaced.root
  · next hab =>
    refine hreminded.other b fun hmem => ?_
    rcases List.mem_cons.mp hmem with heq | hmem
    · exact hab heq.symm
    · have hlead := ((hzs.visits b).mp hmem).2
      rw [h.loose.1] at hlead
      cases hlead

/-- The reminders of slots, each with its clock. -/
def remindSpeeds (r : Addr × UInt32) : Dcc Unit := remindSpeed r.1 r.2

/-- A loco in no consist is sent the same bytes with every reminder, if its next one sends them. -/
theorem Single.keeps_sent (h : Single s xs ys b)
    (htarget : sentBytes s (s.locos.mem b).targetSpeed = sentBytes s x)
    (hspeed : sentBytes s (s.locos.mem b).speedCode = sentBytes s x ∨
      getMomentum s (s.locos.mem b) = 0) {rs : List (Addr × UInt32)}
    (hrs : ∀ r ∈ rs, r.1 ∈ xs ∧ s.locos.leadOf r.1 = none) :
    AlongProg remindSpeeds (fun s₁ r => r.1 = b → sentTo s₁ b b r.2 = sentBytes s x) rs s := by
  refine alongProg_of_inv (fun s₁ => Going s s₁ ∧
    sentBytes s (s₁.locos.mem b).targetSpeed = sentBytes s x ∧
    (sentBytes s (s₁.locos.mem b).speedCode = sentBytes s x ∨
      getMomentum s (s₁.locos.mem b) = 0)) ?_ ?_ ⟨.refl s, htarget, hspeed⟩
  · rintro r - s₁ ⟨hgoing, ht, hc⟩ rfl
    rw [(h.going hgoing).sentTo_eq, ← hgoing.sentBytes_eq x]
    rw [← hgoing.sentBytes_eq, ← hgoing.sentBytes_eq x] at ht hc
    rw [← hgoing.getMomentum_eq] at hc
    exact sentBytes_reminderCode ht hc
  · rintro r hr s₁ ⟨hgoing, ht, hc⟩
    obtain ⟨hrx, hroot⟩ := hrs r hr
    refine wp_mono ((h.going hgoing).reminded hrx ((hgoing.locos.leadOf r.1).trans hroot)) ?_
    rintro _ s₂ ⟨hnext, hmem⟩
    refine ⟨hgoing.trans hnext, ?_⟩
    rw [hmem]
    split
    · refine ⟨by rw [targetSpeed_paced]; exact ht, .inl ?_⟩
      rw [speedCode_paced, ← hgoing.sentBytes_eq, ← hgoing.sentBytes_eq x]
      rw [← hgoing.sentBytes_eq, ← hgoing.sentBytes_eq x] at ht hc
      rw [← hgoing.getMomentum_eq] at hc
      exact sentBytes_reminderCode ht hc
    · exact ⟨ht, hc⟩

/-- A loco that is always sent the same bytes is sent those of its target speed in the end. -/
theorem Single.target_of_sent {w : List UInt8} (h : Single s xs ys b)
    (hall : ∀ clocks : List UInt32, AlongProg remindSpeeds
      (fun s₁ r => r.1 = b → sentTo s₁ b b r.2 = w) (clocks.map fun now => (b, now)) s) :
    sentBytes s (s.locos.mem b).targetSpeed = w := by
  -- each move that is due leaves a smaller gap
  induction hn : gap (s.locos.mem b) using Nat.strong_induction_on generalizing s with
  | _ n ih =>
    by_cases hmoving : (s.locos.mem b).targetSpeed = (s.locos.mem b).speedCode
    · have hsent := (hall [0]).1 rfl
      have hdue : ¬ Due s (s.locos.mem b) 0 := fun hd => hd.1 hmoving
      rwa [h.sentTo_eq, reminderCode, if_neg hdue, ← hmoving] at hsent
    obtain ⟨now, hdue⟩ := exists_due s hmoving
    have hreminded : wp (fun _ => False) (remindSpeed b now) (fun _ s₁ => Going s s₁ ∧
        s₁.locos.mem b = if b = b then paced s (s.locos.mem b) now else s.locos.mem b) s :=
      h.reminded h.mem h.loose.1
    obtain ⟨⟨⟩, s₁, hrun, hgoing, hmem⟩ := wp_iff_exists.mp hreminded
    rw [if_pos rfl] at hmem
    have hall₁ : ∀ clocks : List UInt32, AlongProg remindSpeeds
        (fun s₁ r => r.1 = b → sentTo s₁ b b r.2 = w) (clocks.map fun now => (b, now)) s₁ :=
      fun clocks => wp_iff_forall.mp (hall (now :: clocks)).2 () s₁ hrun
    have hless : gap (s₁.locos.mem b) < n := by
      have hnotches := (due_iff hmoving).mp hdue
      have hle := remindedNotches_le s (s.locos.mem b) now
      have hcode : normalize (reminderCode s (s.locos.mem b) now) =
          moved (s.locos.mem b) (remindedNotches s (s.locos.mem b) now) :=
        normalize_reminderCode hmoving
      rw [← hn, gap, hmem, targetSpeed_paced, speedCode_paced, hcode]
      unfold moved gap at *
      split <;> omega
    have hend := ih _ hless (h.going hgoing) hall₁ rfl
    rwa [hgoing.sentBytes_eq, hmem, targetSpeed_paced] at hend

/-- All reminders of a loco in no consist send what `x` asks for if and only if its target does, and its
speed too unless it has no momentum. -/
theorem Single.sent_iff (h : Single s xs ys b) (x : UInt8) :
    (∀ rs : List (Addr × UInt32), (∀ r ∈ rs, r.1 ∈ xs ∧ s.locos.leadOf r.1 = none) →
      AlongProg remindSpeeds (fun s₁ r => r.1 = b → sentTo s₁ b b r.2 = sentBytes s x) rs s) ↔
    sentBytes s (s.locos.mem b).targetSpeed = sentBytes s x ∧
      (sentBytes s (s.locos.mem b).speedCode = sentBytes s x ∨
        getMomentum s (s.locos.mem b) = 0) := by
  constructor
  · intro hall
    refine ⟨h.target_of_sent fun clocks => hall _ ?_, ?_⟩
    · intro r hr
      obtain ⟨now, -, rfl⟩ := List.mem_map.mp hr
      exact ⟨h.mem, h.loose.1⟩
    · by_cases hm : getMomentum s (s.locos.mem b) = 0
      · exact .inr hm
      · have hsent := (hall [(b, (s.locos.mem b).momentumBase)] (by simpa using ⟨h.mem, h.loose.1⟩)).1 rfl
        rw [h.sentTo_eq, reminderCode_at_base hm] at hsent
        exact .inl hsent
  · rintro ⟨htarget, hspeed⟩ rs hrs
    exact h.keeps_sent htarget hspeed hrs

/-! ## Members of a consist -/

/-- The reminder of a root whose speed has reached its target sends this speed to all its consist. -/
theorem remindSpeed_calls (h : Lists s.locos xs ys)
    (hzs : Forest.Chain xs s.locos.leadOf s.locos.consistNextOf l zs)
    (hreached : (s.locos.mem l).speedCode = (s.locos.mem l).targetSpeed) (now : UInt32) :
    wp F (remindSpeed l now) (fun _ s' => s'.queue = run DCCQueue.step s.queue
      (speedCalls s (l :: zs) (reminderCode s (s.locos.mem l) now))) s := by
  refine wp_remindSpeed_setThrottle2 h hzs.mem (fun _ hdue _ _ => absurd hreached.symm hdue.1) fun hdue => ?_
  have hcode : reminderCode s (s.locos.mem l) now = (s.locos.mem l).speedCode := if_neg hdue
  rw [hcode]
  exact setThrottle2_calls h hzs _

/-- The slots that this speed is sent to are those of the consist. -/
theorem remindSpeed_consist (hs : Reachable s)
    (hreached : (s.locos.mem l).speedCode = (s.locos.mem l).targetSpeed)
    (ha : a ∈ s.locos.slots) (hal : s.locos.rootOf a = l) (now : UInt32) :
    wp F (remindSpeed l now) (fun _ s' => ∃ cs : List Addr,
      (∀ b, b ∈ cs ↔ b ∈ s.locos.slots ∧ s.locos.rootOf b = l) ∧
      s'.queue = run DCCQueue.step s.queue (speedCalls s cs (reminderCode s (s.locos.mem l) now))) s := by
  obtain ⟨xs, ys, h, hc⟩ := hs.sound.table
  rw [h.slots_eq] at ha ⊢
  have hroot : l ∈ xs ∧ s.locos.leadOf l = none := by
    cases hlead : s.locos.leadOf a with
    | none =>
      obtain rfl : a = l := by rwa [rootOf, hlead, Option.getD_none] at hal
      exact ⟨ha, hlead⟩
    | some root =>
      obtain rfl : root = l := by rwa [rootOf, hlead, Option.getD_some] at hal
      exact hc.forest.root a ha root hlead
  obtain ⟨zs, hzs⟩ := hc.forest.exists_chain hroot.1 hroot.2
  refine wp_mono (remindSpeed_calls h hzs hreached now) fun _ s' hs' => ⟨l :: zs, fun b => ?_, hs'⟩
  constructor
  · exact fun hb => ⟨hzs.subset b hb, (rootOf_eq_iff hzs (hzs.subset b hb)).mpr hb⟩
  · rintro ⟨hb, hbl⟩
    exact (rootOf_eq_iff hzs hb).mp hbl

/-- What is left of a member of a consist that is deleted. -/
theorem member_unchained (hs : Reachable s) (hlead : (s.locos.mem l).isConsistLead = true)
    {locoid : Int16} (ha : a ∈ s.locos.slots) (hal : s.locos.rootOf a = l)
    (hid : (s.locos.mem a).loco = locoIdOf locoid)
    (hdelete : onSlots (deleteAnyConsist locoid) s = .ok ((), s')) (hb : b ∈ s.locos.slots)
    (hbl : s.locos.rootOf b = l) :
    s' = { s with locos := s'.locos } ∧ s'.locos.mem b = (s.locos.mem b).unchained ∧
      ∃ ys, Single s' s.locos.slots ys b := by
  obtain ⟨xs, ys, h, hc⟩ := hs.sound.table
  rw [h.slots_eq] at ha hb ⊢
  have hwp : wp (fun _ => True) (onSlots (deleteAnyConsist locoid)) (fun _ s' =>
      s' = { s with locos := s'.locos } ∧
        ∃ cs, ConsistOf s.locos xs (locoIdOf locoid) cs ∧ Unchained s.locos cs s'.locos) s := by
    rw [wp_onSlots]
    exact wp_mono (deleteAnyConsist_unchained h hc locoid) fun _ t' hr => ⟨rfl, hr⟩
  obtain ⟨hstation, cs, ⟨-, hloose⟩ | ⟨l', zs, hzs, rfl, c, hcl, hcid⟩, hcs⟩ := wp_of_ok hdelete hwp
  · -- a loco without links is no lead
    exfalso
    have hal' := hloose a ha hid
    rw [rootOf, hal'.1, Option.getD_none] at hal
    have hnext := hal'.2
    rw [consistNextOf, hal] at hnext
    simp [LocoSlot.isConsistLead, hnext] at hlead
  · have hca : c = a := h.loco_inj (hzs.subset c hcl) ha (hcid.trans hid.symm)
    have hroot : l' = l := by
      rw [← hal, ← hca]
      exact ((rootOf_eq_iff hzs (hzs.subset c hcl)).mpr hcl).symm
    have hmem : b ∈ l' :: zs := (rootOf_eq_iff hzs hb).mp (hbl.trans hroot.symm)
    have hslot := hcs.chain b hmem
    refine ⟨hstation, hslot, ys, h.unchained hcs, hc.unchained hzs hcs, hb, ?_⟩
    rw [Loose, leadOf, consistNextOf, hslot]
    exact ⟨rfl, rfl⟩

/-- **Deleting a consist whose lead has reached its target speed** changes nothing of what the reminders
send to its members, exactly when each of them has been left with the target that it was driven at, and
with the same speed code or with no momentum. Before, the reminder of the lead queues a packet for each
member. -/
theorem deleteAnyConsist_sent_iff (hs : Reachable s)
    (hlead : (s.locos.mem l).isConsistLead = true)
    (hreached : (s.locos.mem l).speedCode = (s.locos.mem l).targetSpeed) {locoid : Int16}
    (ha : a ∈ s.locos.slots) (hal : s.locos.rootOf a = l)
    (hid : (s.locos.mem a).loco = locoIdOf locoid)
    (hdelete : onSlots (deleteAnyConsist locoid) s = .ok ((), s')) :
    (∀ now, wp (fun _ => False) (remindSpeed l now) (fun _ s₁ => ∃ cs : List Addr,
      (∀ b, b ∈ cs ↔ b ∈ s.locos.slots ∧ s.locos.rootOf b = l) ∧
      s₁.queue = run DCCQueue.step s.queue (speedCalls s cs (reminderCode s (s.locos.mem l) now))) s) ∧
    ((∀ b ∈ s.locos.slots, s.locos.rootOf b = l → ∀ (now : UInt32) (rs : List (Addr × UInt32)),
      (∀ r ∈ rs, r.1 ∈ s.locos.slots ∧ (s'.locos.mem r.1).isConsistFollower = false) →
      AlongProg remindSpeeds (fun s₁ r => r.1 = b → sentTo s₁ b b r.2 = sentTo s l b now) rs s') ↔
    ∀ b ∈ s.locos.slots, s.locos.rootOf b = l →
      let driven := sentBytes s (directed (s.locos.mem b) (s.locos.mem l).speedCode)
      sentBytes s (s.locos.mem b).targetSpeed = driven ∧
        (sentBytes s (s.locos.mem b).speedCode = driven ∨ getMomentum s (s.locos.mem b) = 0)) := by
  have hfollower : ∀ b, (s'.locos.mem b).isConsistFollower = false ↔ s'.locos.leadOf b = none := by
    intro b
    rw [LocoSlot.isConsistFollower, Option.isSome_eq_false_iff, Option.isNone_iff_eq_none]
    rfl
  have hsent : ∀ b now, sentTo s l b now
      = sentBytes s (directed (s.locos.mem b) (s.locos.mem l).speedCode) := by
    intro b now
    -- the lead has its target speed, so no momentum step is due
    have hdue : ¬ Due s (s.locos.mem l) now := fun hd => hd.1 hreached.symm
    rw [sentTo, reminderCode, if_neg hdue]
  refine ⟨remindSpeed_consist hs hreached ha hal,
    forall₂_congr fun b hb => forall_congr' fun hbl => ?_⟩
  -- once deleted, the member is alone and is reminded of its own speeds
  obtain ⟨hstation, hslot, ys, hsingle⟩ := member_unchained hs hlead ha hal hid hdelete hb hbl
  have hbytes : ∀ x, sentBytes s' x = sentBytes s x := by
    intro x
    rw [hstation]
    rfl
  have hmomentum : getMomentum s' (s.locos.mem b).unchained = getMomentum s (s.locos.mem b) := by
    rw [hstation]
    rfl
  have hiff := hsingle.sent_iff (directed (s.locos.mem b) (s.locos.mem l).speedCode)
  simp only [hslot, hbytes, hmomentum] at hiff
  simp only [hsent, hfollower]
  constructor
  · intro hall
    exact hiff.mp (hall 0)
  · intro hkept now
    exact hiff.mpr hkept

/-- Loco 3 drives a consist with loco 5 behind it, which runs reversed. -/
def reversedFollower : List Op := [.parseConsist [3, -5], .setThrottle 3 50 true 0]

/-- Without momentum both locos go on as before. -/
theorem deleteAnyConsist_sent_iff_follower :
    ∃ s s', runProg Op.exec reversedFollower (Station.init .avr 8 []) = .ok ((), s) ∧
      onSlots (deleteAnyConsist 5) s = .ok ((), s') ∧
      AlongProg remindSpeeds (fun s₁ r => r.1 = 1 → sentTo s₁ 1 1 r.2 = sentTo s 0 1 7)
        [(0, 3), (1, 4), (1, 100)] s' := by
  obtain ⟨⟨⟩, s, hrun, hlead, hreached, ha, hal, hid, hkept, hdelete⟩ := (wp_iff_exists
    (m := runProg Op.exec reversedFollower)
    (Q := fun _ s => (s.locos.mem 0).isConsistLead = true ∧
      (s.locos.mem 0).speedCode = (s.locos.mem 0).targetSpeed ∧ 1 ∈ s.locos.slots ∧
      s.locos.rootOf 1 = 0 ∧ (s.locos.mem 1).loco = locoIdOf 5 ∧
      (∀ b ∈ s.locos.slots, s.locos.rootOf b = 0 →
        sentBytes s (s.locos.mem b).targetSpeed
          = sentBytes s (directed (s.locos.mem b) (s.locos.mem 0).speedCode) ∧
        (sentBytes s (s.locos.mem b).speedCode
          = sentBytes s (directed (s.locos.mem b) (s.locos.mem 0).speedCode) ∨
          getMomentum s (s.locos.mem b) = 0)) ∧
      wp (fun _ => False) (onSlots (deleteAnyConsist 5)) (fun _ s' =>
        ∀ a ∈ [0, 1], a ∈ s.locos.slots ∧ (s'.locos.mem a).isConsistFollower = false) s)
    (s := Station.init .avr 8 [])).mp (by decide +kernel)
  obtain ⟨⟨⟩, s', hdeleted, hroots⟩ := wp_iff_exists.mp hdelete
  have hsent := (deleteAnyConsist_sent_iff ⟨.avr, 8, [], reversedFollower, hrun⟩ hlead hreached ha hal hid
    hdeleted).2.mpr hkept
  refine ⟨s, s', hrun, hdeleted, hsent 1 ha hal 7 [(0, 3), (1, 4), (1, 100)] fun r hr => ?_⟩
  apply hroots
  simp only [List.mem_cons, List.not_mem_nil, or_false] at hr
  rcases hr with rfl | rfl | rfl <;> simp

/-- Loco 3 drives a consist and runs reversed itself. -/
def reversedLead : List Op := [.parseConsist [-3, 5], .setThrottle 3 50 true 0]

/-- A lead that runs reversed is turned round when its consist is deleted. -/
theorem not_deleteAnyConsist_sent : ¬ ∀ (s s' : Station) (a l : Addr) (locoid : Int16), Reachable s →
    (s.locos.mem l).isConsistLead = true →
    (s.locos.mem l).speedCode = (s.locos.mem l).targetSpeed → a ∈ s.locos.slots →
    s.locos.rootOf a = l → (s.locos.mem a).loco = locoIdOf locoid →
    onSlots (deleteAnyConsist locoid) s = .ok ((), s') →
    ∀ b ∈ s.locos.slots, s.locos.rootOf b = l → ∀ (now : UInt32) (rs : List (Addr × UInt32)),
      (∀ r ∈ rs, r.1 ∈ s.locos.slots ∧ (s'.locos.mem r.1).isConsistFollower = false) →
      AlongProg remindSpeeds (fun s₁ r => r.1 = b → sentTo s₁ b b r.2 = sentTo s l b now) rs s' := by
  intro hall
  obtain ⟨⟨⟩, s, hrun, hlead, hreached, ha, hal, hid, hdelete⟩ := (wp_iff_exists
    (m := runProg Op.exec reversedLead)
    (Q := fun _ s => (s.locos.mem 0).isConsistLead = true ∧
      (s.locos.mem 0).speedCode = (s.locos.mem 0).targetSpeed ∧ 0 ∈ s.locos.slots ∧
      s.locos.rootOf 0 = 0 ∧ (s.locos.mem 0).loco = locoIdOf 3 ∧
      wp (fun _ => False) (onSlots (deleteAnyConsist 3)) (fun _ s' =>
        (s'.locos.mem 0).isConsistFollower = false ∧ sentTo s' 0 0 0 ≠ sentTo s 0 0 0) s)
    (s := Station.init .avr 8 [])).mp (by decide +kernel)
  obtain ⟨⟨⟩, s', hdeleted, hroot, hturned⟩ := wp_iff_exists.mp hdelete
  have hsent := hall s s' 0 0 3 ⟨.avr, 8, [], reversedLead, hrun⟩ hlead hreached ha hal hid hdeleted 0 ha hal 0
    [(0, 0)] (by simpa using ⟨ha, hroot⟩)
  exact hturned (hsent.1 rfl)

end DCC

end CommandStation
