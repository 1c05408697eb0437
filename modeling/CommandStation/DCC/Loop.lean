import CommandStation.DCC.Sound

/-!
# The reminder loop and the forgetting of locos

`issueReminders` goes through the list of slots with a pointer that it keeps between its calls. The
list may change in the meantime, so `Sound` says that the pointer is on the list unless
`chainModified` is set.
-/

namespace CommandStation

open CommandStation.Lib LocoTable

variable {F : Fault → Prop} {s s' : Station} {xs ys zs : List Addr} {a l : Addr}

namespace DCC

/-! ## Reminders -/

theorem Reminded.kept {now : UInt32} (h : Reminded now l zs s s') : Kept s s' := by
  by_cases hdue : Due s (s.locos.mem l) now ∧ s.estopIsLocked = false
  · refine TrackManager.kept_of_signals
      (fun _ driver => driver.Hears (s.locos.mem l).loco.toInt16) h.locos (by rw [h.rest])
      fun t => ?_
    obtain ⟨frequency, ht⟩ := h.driven hdue.1 hdue.2 t
    exact ⟨some (reminderCode s (s.locos.mem l) now, frequency), by simpa using ht⟩
  · have htracks := h.quiet hdue
    exact ⟨h.locos, by rw [h.rest], by rw [htracks], by rw [htracks]; exact id⟩

/-- The reminder of one slot keeps the station sound. -/
theorem issueReminder_kept (h : Lists s.locos xs ys) (hc : Consists s.locos xs none) (ha : a ∈ xs)
    (now : UInt32) : wp F (issueReminder a now) (fun _ => Kept s) s := by
  simp only [issueReminder, wp_bind]
  rw [wp_read (h.live_inUse ha)]
  simp only [wp_get]
  split
  · split
    · exact Kept.refl s
    · next hfollower =>
      have hroot : s.locos.leadOf a = none := by
        simpa [LocoSlot.isConsistFollower, LocoTable.leadOf] using hfollower
      obtain ⟨zs, hzs⟩ := hc.forest.exists_chain ha hroot
      rw [wp_bind]
      exact wp_mono (remindSpeed_spec h hzs now) fun _ s' hs' => hs'.kept
  · cases groupOfLoopStatus s.loopStatus with
    | none => exact Kept.refl s
    | some group =>
      simp only
      split
      · exact Kept.of_retuned (Retuned.refl _)
      · exact Kept.refl s

/-- The loop of `issueReminders` from a slot on the list; what it returns is on the list too. -/
theorem remindFrom_spec (h : Lists s.locos xs ys) (hc : Consists s.locos xs none)
    {p : Option Addr} {rest : List Addr} (hp : Links s.locos.nextOf p rest) (hrest : rest <:+ xs)
    (now : UInt32) :
    wp F (remindFrom p now) (fun r s' => Kept s s' ∧ ∀ b, r = some b → b ∈ xs) s := by
  simp only [remindFrom, followSlots, wp_bind, wp_get]
  have hlen : rest.length ≤ s.locos.fresh := Nat.le_trans hrest.length_le h.length_inUse
  refine wp_loop (fun rest p b s' => Kept s s' ∧ rest <:+ xs ∧ (∀ c, b = some c → c ∈ xs) ∧
      (Links s.locos.nextOf p rest ∨ p = none)) ?_ ?_ hlen
      ⟨Kept.refl s, hrest, (fun c hno => by cases hno), .inl hp⟩
  · rintro rest a b s₁ ⟨hkept, hsuffix, -, hlinks | hno⟩
    · cases rest with
      | nil => cases hlinks
      | cons c rest =>
        obtain ⟨hpc, hlinks⟩ := hlinks
        cases hpc
        have ha : a ∈ xs := hsuffix.subset List.mem_cons_self
        have hsuffix' : rest <:+ xs := (List.suffix_cons a rest).trans hsuffix
        have hnext : ∀ c, s.locos.nextOf a = some c → c ∈ xs := by
          intro c hc
          cases rest with
          | nil => rw [hlinks] at hc; cases hc
          | cons d rest =>
            rw [hlinks.1] at hc
            cases hc
            exact hsuffix'.subset List.mem_cons_self
        refine ⟨rest, rfl, ?_⟩
        rw [wp_bind]
        refine wp_mono (issueReminder_kept (hkept.locos.lists h) (hkept.locos.consists hc) ha now) ?_
        intro sent s₂ h₂
        have hkept₂ := hkept.trans h₂
        have hslot : (s₂.locos.mem a).next = s.locos.nextOf a := hkept₂.locos.nextOf a
        rw [wp_bind, wp_read ((hkept₂.locos.lists h).live_inUse ha), hslot]
        cases sent with
        | true => exact ⟨hkept₂, hsuffix', hnext, .inr rfl⟩
        | false => exact ⟨hkept₂, hsuffix', (fun c hno => by cases hno), .inl hlinks⟩
    · cases hno
  · rintro rest b s₁ ⟨hkept, -, hb, -⟩
    exact ⟨hkept, hb⟩

/-- Where the loop goes on next time. -/
theorem sound_reminder (hs : Sound s) (h : Lists s.locos xs ys) {next : Option Addr}
    (hnext : ∀ b, next = some b → b ∈ xs) : Sound { s with nextLocoReminder := next } := by
  refine ⟨hs.table, hs.tracks, fun _ b hb => ?_⟩
  show b ∈ s.locos.slots
  rw [h.slots_eq]
  exact hnext b hb

/-- A call of `issueReminders` keeps the station sound, wherever its pass is. -/
theorem issueReminders_sound (hs : Sound s) (now : UInt32) :
    wp F (issueReminders now) (fun _ => Sound) s := by
  obtain ⟨xs, ys, h, hc⟩ := hs.table
  -- the loop from a slot on the list, and the pointer it leaves
  have hgo : ∀ {s₁ : Station} {p : Option Addr} {rest : List Addr}, Sound s₁ →
      Lists s₁.locos xs ys → Consists s₁.locos xs none → Links s₁.locos.nextOf p rest →
      rest <:+ xs → wp F (remindFrom p now) (fun next => wp F
        (modify fun s => { s with nextLocoReminder := next }) fun _ => Sound) s₁ := by
    intro s₁ p rest hs₁ h₁ hc₁ hp hrest
    refine wp_mono (remindFrom_spec h₁ hc₁ hp hrest now) ?_
    rintro next s₂ ⟨hkept, hnext⟩
    exact sound_reminder (hkept.sound hs₁) (hkept.locos.lists h₁) hnext
  simp only [issueReminders, wp_bind, wp_get]
  split
  · simp only [wp_bind, wp_modify]
    have h₁ : Lists { s.locos with chainModified := false } xs ys :=
      ⟨h.inUse, h.recycled, h.nodup, h.live, h.fresh, h.count, h.bound, h.ids, h.nonzero⟩
    have hc₁ : Consists { s.locos with chainModified := false } xs none :=
      ⟨hc.forest, hc.reverse, hc.ids⟩
    have hfirst : ∀ b, s.locos.firstSlot = some b → b ∈ xs := by
      intro b hb
      have hinUse := h.inUse
      rw [hb] at hinUse
      cases xs with
      | nil => cases hinUse
      | cons c xs =>
        cases hinUse.1
        exact List.mem_cons_self
    split
    · next hnone =>
      refine ⟨⟨xs, ys, h₁, hc₁⟩, hs.tracks, fun _ b hb => ?_⟩
      rw [show s.locos.firstSlot = some b from hb] at hnone
      cases hnone
    · simp only [wp_bind, wp_modify]
      refine hgo ⟨⟨xs, ys, h₁, hc₁⟩, hs.tracks, fun _ b hb => ?_⟩ h₁ hc₁ h.inUse
        (List.suffix_refl xs)
      show b ∈ { s.locos with chainModified := false }.slots
      rw [h₁.slots_eq]
      exact hfirst b hb
  · next hgoOn =>
    simp only [wp_bind]
    rw [not_or] at hgoOn
    have hmodified : s.locos.chainModified = false := Bool.not_eq_true _ ▸ hgoOn.1
    obtain ⟨b, hb⟩ := Option.ne_none_iff_exists'.mp hgoOn.2
    have hbx : b ∈ xs := h.slots_eq ▸ hs.reminder hmodified b hb
    obtain ⟨before, after, rfl⟩ := List.append_of_mem hbx
    have hlinks : Links s.locos.nextOf (some b) (b :: after) := ⟨rfl, h.inUse.of_append.2⟩
    rw [hb]
    exact hgo hs h hc hlinks (List.suffix_append before (b :: after))

theorem loop_sound (hs : Sound s) (windowOpen : Bool) (pendingAt remindAt forcedAt : UInt32) :
    wp F (DCC.loop windowOpen pendingAt remindAt forcedAt) (fun _ => Sound) s := by
  have hqueue : ∀ {s : Station} {queue : DCCQueue.State}, Sound s →
      Sound { s with queue := queue } := fun hs => ⟨hs.table, hs.tracks, hs.reminder⟩
  refine wp_when (fun _ => ?_) (fun _ => hs)
  simp only [scheduleNext, wp_bind, wp_get, wp_schedule, wp_pure]
  refine wp_when (fun _ => ?_) (fun _ => hqueue hs)
  simp only [wp_bind]
  refine wp_mono (issueReminders_sound (hqueue hs) remindAt) ?_
  intro _ s' hs'
  exact hqueue hs'

/-! ## Forgetting -/

/-- The loco of a slot in a consist is found by its number as an `int16_t` too. -/
theorem locoIdOf_ofInt {cab : Int} (h : UInt16.ofInt cab ≤ DCCConsist.highestLocoId) :
    DCCConsist.locoIdOf (Int16.ofInt cab) = UInt16.ofInt cab := by
  have hnat : (UInt16.ofInt cab).toNat = (cab % 65536).toNat := by
    simp only [UInt16.ofInt, UInt16.toNat_ofNat']
    omega
  have hle : (cab % 65536).toNat ≤ 10239 := by
    rw [UInt16.le_iff_toNat_le, hnat] at h
    exact h
  have hint : (Int16.ofInt cab).toInt = cab % 65536 := by
    rw [Int16.toInt_ofInt, Int.bmod]
    simp
    omega
  rw [← UInt16.toNat_inj, hnat, DCCConsist.locoIdOf, hint, UInt16.toNat_ofNat']
  omega

theorem marks_forget (a : Addr) (t : LocoTable) :
    wp (fun _ => True) (LocoSlot.forget a) (fun _ t' => t'.chainModified = true) t := by
  rw [LocoSlot.forget, wp_bind]
  have hany : ∀ {m : Slots Unit} {t : LocoTable}, wp (fun _ => True) m (fun _ _ => True) t := by
    intro m t
    rw [wp_iff_forall]
    exact fun _ _ _ => trivial
  refine wp_mono hany ?_
  intro _ t₁ _
  simp only [LocoSlot.recycle, wp_bind, wp_get]
  exact wp_mono hany fun _ _ _ => rfl

/-- A slot that is in no consist any more is forgotten. -/
theorem forget_sound (htracks : ∀ driver ∈ s.tracks, driver.isDC = true → driver.brakePin = .pwm)
    (h : Lists s.locos xs ys) (hc : Consists s.locos xs none) (ha : a ∈ xs)
    (hloose : s.locos.Loose a) :
    wp F (onSlots (LocoSlot.forget a)) (fun _ => Sound) s := by
  simp only [wp_onSlots]
  refine wp_mono (wp_and (forget_spec h ha) (marks_forget a s.locos)) ?_
  rintro _ t' ⟨hforgotten, hmarked⟩
  refine ⟨⟨_, _, hforgotten.lists, hc.forgotten h.nodup_inUse ha hloose hforgotten.data⟩, htracks,
    fun hno => ?_⟩
  rw [show t'.chainModified = false from hno] at hmarked
  cases hmarked

/-- A rule for `forgetLoco`: no loco is found, or the loco is taken out of its consist and its slot is
forgotten. The emergency stop and the step of the reminders come before and leave locos and tracks alone. -/
theorem wp_forgetLoco {Q : Unit → Station → Prop} (h : Lists s.locos xs ys) {cab : Int} (hnone : Q () s)
    (hfound : ∀ a ∈ xs, (s.locos.mem a).loco = UInt16.ofInt cab → ∀ s₁ : Station, s₁.locos = s.locos →
      s₁.tracks = s.tracks →
      wp F (when ((s.locos.mem a).isConsistLead || (s.locos.mem a).isConsistFollower)
        (onSlots (DCCConsist.deleteAnyConsist (Int16.ofInt cab))))
        (fun _ => wp F (onSlots (LocoSlot.forget a)) Q) s₁) :
    wp F (forgetLoco cab) Q s := by
  simp only [forgetLoco, wp_bind, wp_onSlots]
  refine wp_findSlot h (fun _ => hnone) fun a ha hid => ?_
  have hlive := h.live_inUse ha
  simp only [wp_bind]
  rw [wp_setThrottleDCC hlive, wp_read (by exact hlive)]
  simp only [wp_modify]
  refine hfound a ha hid _ ?_ ?_
  · split <;> rfl
  · split <;> rfl

/-- **`forgetLoco` takes the loco out of its consist before it forgets it.** -/
theorem forgetLoco_sound (hs : Sound s) (cab : Int) :
    wp F (forgetLoco cab) (fun _ => Sound) s := by
  obtain ⟨xs, ys, h, hc⟩ := hs.table
  refine wp_forgetLoco h hs fun a ha hid s₁ hlocos htracks => ?_
  have htracks₁ : ∀ driver ∈ s₁.tracks, driver.isDC = true → driver.brakePin = .pwm := by
    rw [htracks]
    exact hs.tracks
  rw [← hlocos] at h hc hid ⊢
  refine wp_when ?_ ?_
  · intro hconsisted
    have hnot : ¬ s₁.locos.Loose a := fun hloose => by
      rw [not_consisted_iff.mpr hloose] at hconsisted
      cases hconsisted
    have hcab : DCCConsist.locoIdOf (Int16.ofInt cab) = UInt16.ofInt cab :=
      locoIdOf_ofInt (hid ▸ hc.ids a ha hnot)
    rw [wp_onSlots]
    refine wp_mono (deleteAnyConsist_spec h hc _) ?_
    intro _ t' ht'
    refine forget_sound htracks₁ ht'.lists ht'.consists ha ?_
    exact (ht'.loose a ha).mpr (.inr ⟨a, ha, hid.trans hcab.symm, rfl⟩)
  · intro hno
    exact forget_sound htracks₁ h hc ha (not_consisted_iff.mp (Bool.not_eq_true _ ▸ hno))

theorem forgetAllLocos_sound (hs : Sound s) : wp F forgetAllLocos (fun _ => Sound) s := by
  obtain ⟨xs, ys, h, -⟩ := hs.table
  simp only [forgetAllLocos, wp_bind]
  rw [wp_setThrottleDCC_none]
  simp only [wp_onSlots, wp_modify]
  refine wp_mono (forgetAll_spec h) ?_
  rintro _ t' ⟨hlists, -, -⟩
  exact ⟨⟨[], [], hlists, consists_nil⟩, hs.tracks, fun _ b hb => by cases hb⟩

end DCC

end CommandStation
