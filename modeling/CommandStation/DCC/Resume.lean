import CommandStation.DCC.EstopLock

/-!
# After the emergency stop lock

`estopLock(false)` sends nothing: the locos are meant to resume their speeds as the reminder loop
goes on. On a DCC track every reminder repeats the speed of a loco. A DC track is given a signal only
when a reminder changes the speed of a loco that is not a consist follower, so a loco that keeps its
speed, or follows another one, stays where the lock has stopped it.
-/

namespace CommandStation

open CommandStation.Lib LocoTable

variable {F : Fault → Prop} {s s' s'' : Station} {xs ys zs : List Addr} {a : Addr}
  {clock : Addr → UInt32}

/-! ## A pass of the reminder loop -/

namespace DCC

/-- One complete pass in the given loop state: every slot is visited once by `issueReminder`, at
the time the clock shows then. -/
def reminderPass (loopStatus : Nat) (clock : Addr → UInt32) : Dcc Unit := do
  modify fun s => { s with loopStatus := loopStatus }
  let s ← get
  runProg (fun a => issueReminder a (clock a)) s.locos.slots

/-- The slot is that of a loco of its own or of a consist lead, and its speed is due to change. -/
def Moves (s : Station) (clock : Addr → UInt32) (a : Addr) : Prop :=
  s.locos.leadOf a = none ∧ Due s (s.locos.mem a) (clock a)

instance (s : Station) (clock : Addr → UInt32) (a : Addr) : Decidable (Moves s clock a) :=
  inferInstanceAs (Decidable (_ ∧ _))

/-- The speed code a pass leaves in a slot: that of the lead. -/
def resumeCode (s : Station) (clock : Addr → UInt32) (a : Addr) : UInt8 :=
  reminderCode s (s.locos.mem (s.locos.rootOf a)) (clock (s.locos.rootOf a))

/-- The speed code on a DC track, if it has a signal. -/
def signalCode (driver : MotorDriver) : Option UInt8 := driver.signal.map Prod.fst

/-- What a pass has done when it has been through the slots `done` of `xs`. -/
structure Passed (clock : Addr → UInt32) (xs done : List Addr) (s s' : Station) : Prop where
  locos : Retuned s.locos s'.locos
  rest : s' = { s with
    locos := s'.locos, queue := s'.queue, tracks := s'.tracks, dcSignals := s'.dcSignals }
  ahead : ∀ b ∈ xs, s.locos.rootOf b ∉ done → s'.locos.mem b = s.locos.mem b
  speed : ∀ b ∈ xs, s.locos.rootOf b ∈ done → (s'.locos.mem b).speedCode = resumeCode s clock b
  count : s'.tracks.length = s.tracks.length
  tracks : ∀ (t : Nat) (driver : MotorDriver), s.tracks[t]? = some driver →
    ∃ driver', s'.tracks[t]? = some driver' ∧ driver' = { driver with signal := driver'.signal } ∧
      ∀ b ∈ xs, driver.Hears (s.locos.mem b).loco.toInt16 → signalCode driver' =
        if b ∈ done ∧ Moves s clock b then some (resumeCode s clock b) else signalCode driver

theorem passed_nil : Passed clock xs [] s s where
  locos := Retuned.refl _
  rest := rfl
  ahead _ _ _ := rfl
  speed _ _ hno := by cases hno
  count := rfl
  tracks _ driver hdriver := by
    refine ⟨driver, hdriver, rfl, fun b _ _ => ?_⟩
    simp

/-- Momentum settings are not touched by a pass. -/
theorem Passed.due_iff {done : List Addr} (h : Passed clock xs done s s') (slot : LocoSlot)
    (now : UInt32) : Due s' slot now ↔ Due s slot now := by
  rw [h.rest]
  rfl

theorem Passed.reminderCode_eq {done : List Addr} (h : Passed clock xs done s s')
    (slot : LocoSlot) (now : UInt32) : reminderCode s' slot now = reminderCode s slot now := by
  rw [h.rest]
  rfl

/-- Two slots that the same track obeys are the same. -/
theorem eq_of_hears (h : Lists s.locos xs ys) {b : Addr} {driver : MotorDriver} (ha : a ∈ xs)
    (hb : b ∈ xs) (hears : driver.Hears (s.locos.mem a).loco.toInt16)
    (hears' : driver.Hears (s.locos.mem b).loco.toInt16) : b = a := by
  have haddr : ∀ c ∈ xs, driver.Hears (s.locos.mem c).loco.toInt16 →
      driver.dcAddr.toUInt16 = (s.locos.mem c).loco := by
    intro c hc hcab
    have hzero : (s.locos.mem c).loco.toInt16 ≠ 0 := by
      intro h0
      have := congrArg Int16.toUInt16 h0
      rw [UInt16.toUInt16_toInt16] at this
      exact h.nonzero c hc this
    rw [hcab.1.resolve_right hzero, UInt16.toUInt16_toInt16]
  exact h.loco_inj hb ha ((haddr b hb hears').symm.trans (haddr a ha hears))

theorem rootOf_of_root (hroot : s.locos.leadOf a = none) : s.locos.rootOf a = a := by
  rw [rootOf, hroot, Option.getD_none]

/-- The root of a slot is not a follower. -/
theorem leadOf_rootOf (hc : Consists s.locos xs none) {b : Addr} (hb : b ∈ xs) :
    s.locos.leadOf (s.locos.rootOf b) = none := by
  obtain ⟨zs, hzs, -⟩ := exists_root hc hb
  exact hzs.root

/-- Consist followers are passed by. -/
theorem Passed.follower {done : List Addr} (h : Passed clock xs done s s')
    (hc : Consists s.locos xs none) (hfollower : s.locos.leadOf a ≠ none) :
    Passed clock xs (done ++ [a]) s s' := by
  have hroot : ∀ b ∈ xs, (s.locos.rootOf b ∈ done ++ [a] ↔ s.locos.rootOf b ∈ done) := by
    intro b hb
    have hne : s.locos.rootOf b ≠ a := fun heq => hfollower (heq ▸ leadOf_rootOf hc hb)
    simp [hne]
  refine ⟨h.locos, h.rest, fun b hb hno => h.ahead b hb ((hroot b hb).not.mp hno),
    fun b hb hin => h.speed b hb ((hroot b hb).mp hin), h.count, ?_⟩
  intro t driver hdriver
  obtain ⟨driver', hdriver', hsame, hsignal⟩ := h.tracks t driver hdriver
  refine ⟨driver', hdriver', hsame, fun b hb hears => ?_⟩
  rw [hsignal b hb hears]
  by_cases hba : b = a
  · subst hba
    have hstays : ¬ Moves s clock b := fun hmoves => hfollower hmoves.1
    simp [hstays]
  · simp [hba]

/-- A root is reminded, and its followers with it. -/
theorem Passed.root {done : List Addr} (h : Passed clock xs done s s') (hl : Lists s.locos xs ys)
    (hunlocked : s.estopIsLocked = false) (ha : a ∈ xs) (hnot : a ∉ done)
    (hzs : Forest.Chain xs s.locos.leadOf s.locos.consistNextOf a zs)
    (hs'' : Reminded (clock a) a zs s' s'') : Passed clock xs (done ++ [a]) s s'' := by
  have hrootOf : s.locos.rootOf a = a := rootOf_of_root hzs.root
  have hmem : s'.locos.mem a = s.locos.mem a := h.ahead a ha (by rw [hrootOf]; exact hnot)
  have hcode : reminderCode s' (s'.locos.mem a) (clock a) = resumeCode s clock a := by
    rw [hmem, h.reminderCode_eq, resumeCode, hrootOf]
  have hdue : Due s' (s'.locos.mem a) (clock a) ↔ Moves s clock a := by
    rw [hmem, h.due_iff]
    exact ⟨fun hd => ⟨hzs.root, hd⟩, fun hm => hm.2⟩
  have hunlocked' : s'.estopIsLocked = false := by rw [h.rest]; exact hunlocked
  have hcount : s''.tracks.length = s'.tracks.length := by
    have hpins := congrArg List.length hs''.kept.brakePins
    simpa using hpins
  refine ⟨h.locos.trans hs''.locos, by rw [hs''.rest, h.rest], ?_, ?_, hcount.trans h.count, ?_⟩
  · intro b hb hno
    simp only [List.mem_append, List.mem_singleton, not_or] at hno
    rw [hs''.other b (fun hin => hno.2 ((rootOf_eq_iff hzs hb).mpr hin)), h.ahead b hb hno.1]
  · intro b hb hin
    by_cases hba : s.locos.rootOf b = a
    · rw [hs''.speed b ((rootOf_eq_iff hzs hb).mp hba), hcode, resumeCode, resumeCode, hba, hrootOf]
    · have hin' : s.locos.rootOf b ∈ done := by simpa [hba] using hin
      rw [hs''.other b (fun hmem => hba ((rootOf_eq_iff hzs hb).mpr hmem)), h.speed b hb hin']
  · intro t driver hdriver
    obtain ⟨driver', hdriver', hsame, hsignal⟩ := h.tracks t driver hdriver
    by_cases hmoves : Moves s clock a
    · obtain ⟨frequency, ht⟩ := hs''.driven (hdue.mpr hmoves) hunlocked' t
      have hhears : driver'.Hears (s'.locos.mem a).loco.toInt16 ↔
          driver.Hears (s.locos.mem a).loco.toInt16 := by
        rw [hmem, hsame]
        rfl
      rw [hdriver', Option.map_some, hcode] at ht
      refine ⟨_, ht, ?_, ?_⟩
      · split
        · rw [hsame]
        · exact hsame
      · intro b hb hears
        by_cases heara : driver.Hears (s.locos.mem a).loco.toInt16
        · -- the track of this loco
          have hba := eq_of_hears hl ha hb heara hears
          subst hba
          rw [if_pos (hhears.mpr heara), if_pos ⟨by simp, hmoves⟩]
          rfl
        · have hba : b ≠ a := fun heq => heara (heq ▸ hears)
          rw [if_neg (hhears.not.mpr heara), hsignal b hb hears]
          simp [hba]
    · have htracks := hs''.quiet fun hd => hmoves (hdue.mp hd.1)
      refine ⟨driver', by rw [htracks]; exact hdriver', hsame, fun b hb hears => ?_⟩
      rw [hsignal b hb hears]
      by_cases hba : b = a
      · subst hba
        simp [hmoves]
      · simp [hba]

/-- One turn of a speed pass. -/
theorem issueReminder_passed {done : List Addr} (h : Passed clock xs done s s')
    (hl : Lists s.locos xs ys) (hc : Consists s.locos xs none) (hunlocked : s.estopIsLocked = false)
    (hstatus : speedStatus s.loopStatus = true) (ha : a ∈ xs) (hnot : a ∉ done) :
    wp F (issueReminder a (clock a)) (fun _ s'' => Passed clock xs (done ++ [a]) s s'') s' := by
  have hl' := h.locos.lists hl
  have hstatus' : speedStatus s'.loopStatus = true := by rw [h.rest]; exact hstatus
  have hfollower : (s'.locos.mem a).isConsistFollower = (s.locos.leadOf a).isSome := by
    rw [← h.locos.leadOf a]
    rfl
  simp only [issueReminder, wp_bind]
  rw [wp_read (hl'.live_inUse ha)]
  simp only [wp_get]
  rw [if_pos hstatus']
  split
  · next hyes =>
    rw [hfollower] at hyes
    exact h.follower hc (Option.isSome_iff_ne_none.mp hyes)
  · next hno =>
    rw [hfollower, Bool.not_eq_true, Option.isSome_eq_false_iff, Option.isNone_iff_eq_none] at hno
    obtain ⟨zs, hzs⟩ := hc.forest.exists_chain ha hno
    have hzs' : Forest.Chain xs s'.locos.leadOf s'.locos.consistNextOf a zs := by
      rw [funext h.locos.leadOf, funext h.locos.consistNextOf]
      exact hzs
    rw [wp_bind]
    refine wp_mono (remindSpeed_spec hl' hzs' (clock a)) ?_
    intro _ s'' hs''
    exact h.root hl hunlocked ha hnot hzs hs''

/-- **A speed pass** gives every slot the speed code of its lead, and the code of every loco that
moves to its tracks. -/
theorem reminderPass_spec (hl : Lists s.locos xs ys) (hc : Consists s.locos xs none)
    (hunlocked : s.estopIsLocked = false) (clock : Addr → UInt32) {loopStatus : Nat}
    (hstatus : speedStatus loopStatus = true) :
    wp F (reminderPass loopStatus clock)
      (fun _ s' => Passed clock xs xs { s with loopStatus := loopStatus } s') s := by
  simp only [reminderPass, wp_bind, wp_modify, wp_get]
  rw [hl.slots_eq]
  have hnodup := hl.nodup_inUse
  -- by induction on the slots still to visit
  have hrun : ∀ rest done s', xs = done ++ rest →
      Passed clock xs done { s with loopStatus := loopStatus } s' →
      wp F (runProg (fun a => issueReminder a (clock a)) rest)
        (fun _ s' => Passed clock xs xs { s with loopStatus := loopStatus } s') s' := by
    intro rest
    induction rest with
    | nil =>
      intro done s' hxs hs'
      rw [List.append_nil] at hxs
      rw [hxs] at hs' ⊢
      exact hs'
    | cons a rest ih =>
      intro done s' hxs hs'
      have ha : a ∈ xs := by rw [hxs]; simp
      have hnot : a ∉ done := by
        intro hin
        rw [hxs] at hnodup
        exact (List.nodup_append.mp hnodup).2.2 a hin a List.mem_cons_self rfl
      rw [runProg, wp_bind]
      refine wp_mono (issueReminder_passed hs' hl hc hunlocked hstatus ha hnot) ?_
      intro _ s'' hs''
      exact ih (done ++ [a]) s'' (by rw [hxs, List.append_assoc]; rfl) hs''
  exact hrun xs [] _ rfl passed_nil

/-! ## Throttle commands under the lock -/

/-- A call of `setThrottle`. -/
structure ThrottleCommand where
  cab : UInt16
  tSpeed : UInt8
  tDirection : Bool
  now : UInt32

/-- The lock is set, throttles are moved, the lock is taken off. -/
def underLock (commands : List ThrottleCommand) : Dcc Unit := do
  estopLock true
  runProg (fun c => setThrottle c.cab c.tSpeed c.tDirection c.now) commands
  estopLock false

/-- Whatever the throttles send under the lock, the station is sound and free of it at the end. -/
theorem underLock_spec (hs : Sound s) (commands : List ThrottleCommand) :
    wp F (underLock commands) (fun _ s' => Sound s' ∧ s'.estopIsLocked = false) s := by
  have hlock : ∀ (lock : Bool) (s : Station), Sound s → wp F (estopLock lock) (fun _ => Sound) s := by
    intro lock s hs
    obtain ⟨xs, ys, h, hc⟩ := hs.table
    exact wp_mono (estopLock_kept h lock) fun _ s' hs' => hs'.sound hs
  have hunlock : ∀ s : Station, wp (fun _ => True) (estopLock false)
      (fun _ s' => s'.estopIsLocked = false) s := by
    intro s
    simp only [estopLock, wp_bind, wp_get]
    split
    · next hunlocked => exact hunlocked
    · rfl
  simp only [underLock, wp_bind]
  refine wp_mono (hlock true s hs) ?_
  intro _ s₁ h₁
  have hthrottles : wp F (runProg (fun c : ThrottleCommand =>
      setThrottle c.cab c.tSpeed c.tDirection c.now) commands) (fun _ => Sound) s₁ := by
    apply wp_runProg Sound _ h₁ (alongProg_of_forall (fun _ _ _ => trivial) s₁)
    intro s c _ hs
    obtain ⟨xs, ys, h, hc⟩ := hs.table
    exact wp_mono (setThrottle_spec hs h hc _ _ _ _) fun _ s' hs' => hs'.1.sound
  refine wp_mono hthrottles ?_
  intro _ s₂ h₂
  exact wp_and (hlock false s₂ h₂) (hunlock s₂)

end DCC

/-! ## Which tracks resume -/

open DCC

/-- Every DC track whose loco has a slot carries the speed code of the loco. -/
def Resumed (s : Station) : Prop :=
  ∀ driver ∈ s.tracks, driver.isDC = true → ∀ a ∈ s.locos.slots,
    (s.locos.mem a).loco = driver.dcAddr.toUInt16 →
    signalCode driver = some (s.locos.mem a).speedCode

/-- What it takes: the loco of every DC track moves in the pass, or its track carries the code
already that the loco is left with. -/
def Resumes (s : Station) (clock : Addr → UInt32) : Prop :=
  ∀ driver ∈ s.tracks, driver.isDC = true → ∀ a ∈ s.locos.slots,
    (s.locos.mem a).loco = driver.dcAddr.toUInt16 →
    Moves s clock a ∨ signalCode driver = some (resumeCode s clock a)

instance (s : Station) : Decidable (Resumed s) :=
  inferInstanceAs (Decidable (∀ driver ∈ s.tracks, _))

instance (s : Station) (clock : Addr → UInt32) : Decidable (Resumes s clock) :=
  inferInstanceAs (Decidable (∀ driver ∈ s.tracks, _))

/-- One track and the slot of its loco, after a pass. -/
theorem signalCode_iff (hs : Sound s) (hc : Consists s.locos xs none)
    (hs' : Passed clock xs xs s s') {driver driver' : MotorDriver} (hdriver : driver ∈ s.tracks)
    (hdc : driver.isDC = true) (ha : a ∈ xs)
    (haddr : (s.locos.mem a).loco = driver.dcAddr.toUInt16)
    (hsignal : ∀ b ∈ xs, driver.Hears (s.locos.mem b).loco.toInt16 → signalCode driver' =
      if b ∈ xs ∧ Moves s clock b then some (resumeCode s clock b) else signalCode driver) :
    signalCode driver' = some (s'.locos.mem a).speedCode ↔
      Moves s clock a ∨ signalCode driver = some (resumeCode s clock a) := by
  have hears : driver.Hears (s.locos.mem a).loco.toInt16 := by
    have hpin := hs.tracks driver hdriver hdc
    refine ⟨.inl ?_, hdc, by rw [hpin]; exact fun h => by cases h⟩
    rw [haddr, Int16.toInt16_toUInt16]
  obtain ⟨zs, hzs, -⟩ := exists_root hc ha
  rw [hsignal a ha hears, hs'.speed a ha hzs.mem]
  by_cases hmoves : Moves s clock a
  · simp [ha, hmoves]
  · simp [hmoves]

/-- After a pass over all slots the locos are resumed if and only if `Resumes` says so of the state before.
-/
theorem resumed_iff_of_passed (hs : Sound s) (hl : Lists s.locos xs ys)
    (hc : Consists s.locos xs none) (hs' : Passed clock xs xs s s') :
    Resumed s' ↔ Resumes s clock := by
  unfold Resumed Resumes
  rw [hl.slots_eq, (hs'.locos.lists hl).slots_eq]
  constructor
  · intro hresumed driver hdriver hdc a ha haddr
    obtain ⟨t, ht⟩ := List.mem_iff_getElem?.mp hdriver
    obtain ⟨driver', ht', hsame, hsignal⟩ := hs'.tracks t driver ht
    rw [← signalCode_iff hs hc hs' hdriver hdc ha haddr hsignal]
    apply hresumed driver' (List.mem_of_getElem? ht')
    · rw [hsame]; exact hdc
    · exact ha
    · rw [hs'.locos.loco a, hsame]; exact haddr
  · intro hresumes driver' hdriver' hdc a ha haddr
    obtain ⟨t, ht'⟩ := List.mem_iff_getElem?.mp hdriver'
    have hlt : t < s.tracks.length := by
      rw [← hs'.count]
      exact (List.getElem?_eq_some_iff.mp ht').1
    have ht : s.tracks[t]? = some s.tracks[t] := List.getElem?_eq_getElem hlt
    obtain ⟨driver'', ht'', hsame, hsignal⟩ := hs'.tracks t s.tracks[t] ht
    rw [ht', Option.some.injEq] at ht''
    subst ht''
    rw [hsame] at hdc haddr
    rw [hs'.locos.loco a] at haddr
    have hmem : s.tracks[t] ∈ s.tracks := List.getElem_mem hlt
    exact (signalCode_iff hs hc hs' hmem hdc ha haddr hsignal).mpr
      (hresumes s.tracks[t] hmem hdc a ha haddr)

/-- **Resuming after the lock**: from every sound state, the lock, any throttle commands, the
unlocking and a speed pass come to an end; and they leave every DC track with the speed code of its
loco exactly when the loco of each either moves in the pass or has its track carry the code
already. -/
theorem resumed_iff (hs : Sound s) (commands : List ThrottleCommand) (clock : Addr → UInt32)
    (loopStatus : Nat) (hstatus : speedStatus loopStatus = true) :
    ∃ s₁ s₂, underLock commands s = .ok ((), s₁) ∧
      reminderPass loopStatus clock s₁ = .ok ((), s₂) ∧ (Resumed s₂ ↔ Resumes s₁ clock) := by
  obtain ⟨⟨⟩, s₁, hrun₁, hs₁, hunlocked⟩ := wp_iff_exists.mp (underLock_spec hs commands)
  obtain ⟨xs, ys, hl, hc⟩ := hs₁.table
  obtain ⟨⟨⟩, s₂, hrun₂, hpassed⟩ := wp_iff_exists.mp
    (reminderPass_spec hl hc hunlocked clock hstatus)
  have hsound : Sound { s₁ with loopStatus := loopStatus } := ⟨hs₁.table, hs₁.tracks, hs₁.reminder⟩
  have hiff := resumed_iff_of_passed hsound hl hc hpassed
  exact ⟨s₁, s₂, hrun₁, hrun₂, hiff⟩

/-- A loco that is still on its way to the target speed when the lock is taken off. -/
def locoWithMomentum : List Op :=
  [.setTrackMode 0 TrackMode.dc 3 false, .setMomentum 3 70 70, .setThrottle 3 50 true 0]

/-- It resumes, with a target speed changed under the lock. -/
theorem resumed_iff_momentum :
    ∃ s s₁ s₂, runProg Op.exec locoWithMomentum (Station.init .avr 8 [.pwm]) = .ok ((), s) ∧
      underLock [⟨3, 60, true, 100⟩] s = .ok ((), s₁) ∧
      reminderPass 0 (fun _ => 1000) s₁ = .ok ((), s₂) ∧ Resumed s₂ := by
  obtain ⟨⟨⟩, s, hs, hresumes⟩ := (wp_iff_exists (m := runProg Op.exec locoWithMomentum)
    (Q := fun _ s => wp (fun _ => True) (underLock [⟨3, 60, true, 100⟩])
      (fun _ s₁ => Resumes s₁ fun _ => 1000) s)
    (s := Station.init .avr 8 [.pwm])).mp (by decide +kernel)
  have hreach : Reachable s := ⟨.avr, 8, [.pwm], locoWithMomentum, hs⟩
  obtain ⟨s₁, s₂, hs₁, hs₂, hiff⟩ :=
    resumed_iff hreach.sound [⟨3, 60, true, 100⟩] (fun _ => 1000) 0 rfl
  rw [wp_iff_forall] at hresumes
  exact ⟨s, s₁, s₂, hs, hs₁, hs₂, hiff.mpr (hresumes () s₁ hs₁)⟩

/-- A loco that has reached its speed does not resume on its DC track: the signal is still the
emergency stop. -/
theorem not_resumed :
    ∃ s s₁ s₂, runProg Op.exec locoOnDC (Station.init .avr 8 [.pwm]) = .ok ((), s) ∧
      underLock [] s = .ok ((), s₁) ∧ reminderPass 0 (fun _ => 1000) s₁ = .ok ((), s₂) ∧
      ¬ Resumed s₂ ∧ s₂.tracks.map signalCode = [some 1] ∧
      s₂.locos.slots.map (fun a => (s₂.locos.mem a).speedCode) = [178] := by
  obtain ⟨⟨⟩, s, hs, hlock⟩ := (wp_iff_exists (m := runProg Op.exec locoOnDC)
    (Q := fun _ s => wp (fun _ => False) (underLock []) (fun _ s₁ =>
      wp (fun _ => False) (reminderPass 0 fun _ => 1000) (fun _ s₂ => ¬ Resumed s₂ ∧
        s₂.tracks.map signalCode = [some 1] ∧
        s₂.locos.slots.map (fun a => (s₂.locos.mem a).speedCode) = [178]) s₁) s)
    (s := Station.init .avr 8 [.pwm])).mp (by decide +kernel)
  obtain ⟨⟨⟩, s₁, hs₁, hpass⟩ := wp_iff_exists.mp hlock
  obtain ⟨⟨⟩, s₂, hs₂, hsignal⟩ := wp_iff_exists.mp hpass
  exact ⟨s, s₁, s₂, hs, hs₁, hs₂, hsignal⟩

end CommandStation
