import CommandStation.DCC.Targets
import CommandStation.DCC.Calls
import CommandStation.DCC.Sound

/-!
# The loco table keeps target speeds

`estopAll`, `setThrottle` and `getThrottleSpeedByte` do to the loco table what they are meant to do
to its target speeds.
-/

namespace CommandStation

open CommandStation.Lib LocoTable Targets

variable {F : Fault → Prop} {s s' : Station} {t t' : LocoTable} {xs ys zs : List Addr} {a : Addr}
  {T : Targets} {l : UInt16} {p : UInt8}

/-! ## What the table shows -/

/-- The table with the slots `xs` in use holds these target speeds. -/
structure LocoTable.Shows (t : LocoTable) (xs : List Addr) (T : Targets) : Prop where
  slot : ∀ a ∈ xs, T.slot (t.mem a).loco = some (t.mem a).targetSpeed
  lead : ∀ a ∈ xs, T.lead (t.mem a).loco =
    (t.leadOf a).map fun root => ((t.mem root).loco, (t.mem a).consistReverse)
  unknown : ∀ l, (∀ a ∈ xs, (t.mem a).loco ≠ l) → T.slot l = none
  free : T.free = t.maxLocos - xs.length

/-- The loco table of the station is well-formed, and holds these target speeds. -/
def Station.Shows (s : Station) (T : Targets) : Prop :=
  ∃ xs ys, Lists s.locos xs ys ∧ Consists s.locos xs none ∧ s.locos.Shows xs T

/-- The slot of a loco. -/
def LocoTable.slotOf (t : LocoTable) (xs : List Addr) (l : UInt16) : Option Addr :=
  xs.find? fun a => (t.mem a).loco == l

theorem slotOf_loco (h : Lists t xs ys) (ha : a ∈ xs) : t.slotOf xs (t.mem a).loco = some a := by
  cases hfind : t.slotOf xs (t.mem a).loco with
  | none => exact absurd (beq_self_eq_true _) (List.find?_eq_none.mp hfind a ha)
  | some b =>
    have hb := List.mem_of_find?_eq_some hfind
    have hloco : (t.mem b).loco = (t.mem a).loco := by simpa using List.find?_some hfind
    rw [List.inj_on_of_nodup_map h.ids hb ha hloco]

theorem slotOf_eq_some (h : t.slotOf xs l = some a) : a ∈ xs ∧ (t.mem a).loco = l :=
  ⟨List.mem_of_find?_eq_some h, by simpa using List.find?_some h⟩

/-- A well-formed table shows target speeds. -/
theorem exists_shows (h : Lists t xs ys) (hc : Consists t xs none) : ∃ T, t.Shows xs T := by
  refine ⟨⟨fun l => (t.slotOf xs l).map fun a => (t.mem a).targetSpeed,
    fun l => (t.slotOf xs l).bind fun a =>
      (t.leadOf a).map fun root => ((t.mem root).loco, (t.mem a).consistReverse),
    t.maxLocos - xs.length, ?_⟩, ?_, ?_, ?_, rfl⟩
  · intro l root reverse hlead
    obtain ⟨a, ha, hmap⟩ := Option.bind_eq_some_iff.mp hlead
    obtain ⟨b, hb, heq⟩ := Option.map_eq_some_iff.mp hmap
    obtain ⟨rfl, -⟩ := Prod.mk.inj heq
    obtain ⟨hmem, hroot⟩ := hc.forest.root a (slotOf_eq_some ha).1 b hb
    simp [ha, slotOf_loco h hmem, hroot]
  · intro a ha
    simp [slotOf_loco h ha]
  · intro a ha
    simp [slotOf_loco h ha]
  · intro l hno
    have hnone : t.slotOf xs l = none := List.find?_eq_none.mpr fun a ha => by simpa using hno a ha
    simp [hnone]

theorem Sound.exists_shows (h : Sound s) : ∃ T, s.Shows T := by
  obtain ⟨xs, ys, hl, hc⟩ := h.table
  obtain ⟨T, hT⟩ := CommandStation.exists_shows hl hc
  exact ⟨T, xs, ys, hl, hc, hT⟩

/-- A table that is retuned shows other target speeds. -/
theorem LocoTable.Shows.retuned {T' : Targets} (h : t.Shows xs T) (ht : Retuned t t')
    (hlead : T'.lead = T.lead) (hfree : T'.free = T.free)
    (hslot : ∀ a ∈ xs, T'.slot (t.mem a).loco = some (t'.mem a).targetSpeed)
    (hunknown : ∀ l, T.slot l = none → T'.slot l = none) : t'.Shows xs T' where
  slot a ha := by
    rw [ht.loco]
    exact hslot a ha
  lead a ha := by
    have hloco : ∀ b, (t'.mem b).loco = (t.mem b).loco := ht.loco
    rw [hlead, hloco, h.lead a ha, ht.leadOf, ht.consistReverse]
    simp only [hloco]
  unknown l hno := hunknown l (h.unknown l fun a ha => by
    rw [← ht.loco]
    exact hno a ha)
  free := by
    rw [hfree, h.free, ht.statics]

namespace DCC

/-! ## Looking up and stopping -/

/-- `getThrottleSpeedByte` -/
theorem wp_getThrottleSpeedByte (h : s.Shows T) {Q : UInt8 → Station → Prop}
    (hQ : Q (T.speedByte l) s) : wp F (getThrottleSpeedByte l) Q s := by
  obtain ⟨xs, ys, hl, -, hT⟩ := h
  refine wp_mono (wp_lookup hl l) ?_
  rintro r _ ⟨rfl, ⟨a, ha, hid, rfl⟩ | ⟨hno, rfl⟩⟩
  · rw [speedByte, ← hid, hT.slot a ha] at hQ
    exact hQ
  · rw [speedByte, hT.unknown l hno] at hQ
    exact hQ

/-- `estopAll` -/
theorem wp_estopAll (h : s.Shows T) : wp F estopAll (fun _ s' => s'.Shows T.stop) s := by
  obtain ⟨xs, ys, hl, hc, hT⟩ := h
  simp only [estopAll, wp_bind]
  rw [wp_setThrottleDCC_none]
  refine wp_mono (TrackManager.setDCSignal_spec hl) fun _ s₁ hs₁ => ?_
  have hlocos : s₁.locos = s.locos := by rw [hs₁.rest]
  simp only [wp_get]
  rw [← hlocos] at hl hc hT
  refine wp_mono (wp_updateSlots (fun _ => rfl) (fun a s _ => ⟨s.queue, rfl⟩) hl.inUse
    hl.nodup_inUse (fun b hb => hl.live_inUse hb) hl.length_inUse) fun _ s₂ hs₂ => ?_
  have hret : Retuned s₁.locos s₂.locos := hs₂.retuned fun _ => rfl
  refine ⟨xs, ys, hret.lists hl, hret.consists hc, hT.retuned hret rfl rfl (fun a ha => ?_) ?_⟩
  · rw [hs₂.locos, mem_mapSlots_of_mem ha]
    simp [stop, hT.slot a ha, LocoSlot.setTargetSpeed, LocoSlot.setSpeedCode]
  · intro l hnone
    simp [stop, hnone]

/-! ## Setting a speed -/

/-- The root `a` with the followers `zs` has a new target speed, the other slots have theirs. -/
structure Aimed (a : Addr) (zs : List Addr) (p : UInt8) (t t' : LocoTable) : Prop where
  retuned : Retuned t t'
  root : (t'.mem a).targetSpeed = p
  followers : ∀ b ∈ zs, (t'.mem b).targetSpeed = turned (t.mem b).consistReverse p
  others : ∀ b, b ≠ a → b ∉ zs → (t'.mem b).targetSpeed = (t.mem b).targetSpeed

/-- Members other than the target speed may be written. -/
theorem Aimed.same {t'' : LocoTable} (h : Aimed a zs p t t') (ht : Retuned t' t'')
    (htarget : ∀ b, (t''.mem b).targetSpeed = (t'.mem b).targetSpeed) : Aimed a zs p t t'' where
  retuned := h.retuned.trans ht
  root := (htarget a).trans h.root
  followers b hb := (htarget b).trans (h.followers b hb)
  others b hne hb := (htarget b).trans (h.others b hne hb)

/-- The lead and all its followers have the new target, each in its own direction, and no other slot has. -/
theorem wp_throttleTo (hl : Lists s.locos xs ys)
    (hzs : Forest.Chain xs s.locos.leadOf s.locos.consistNextOf a zs) {cab : UInt16}
    {tSpeed : UInt8} {now : UInt32} : wp F (throttleTo a cab tSpeed p now)
      (fun _ s' => Aimed a zs p s.locos s'.locos) s := by
  have hlive : ∀ {s₁ : Station}, Retuned s.locos s₁.locos → s₁.locos.live a = true := fun h₁ =>
    (h₁.lists hl).live_inUse hzs.mem
  have hchain : ∀ {s₁ : Station}, Retuned s.locos s₁.locos →
      Forest.Chain xs s₁.locos.leadOf s₁.locos.consistNextOf a zs := fun h₁ => by
    rw [funext h₁.leadOf, funext h₁.consistNextOf]
    exact hzs
  simp only [throttleTo, wp_bind]
  rw [wp_write (hl.live_inUse hzs.mem)]
  generalize hs₁ : ({ s with
    locos := s.locos.write a ((s.locos.mem a).setTargetSpeed p) } : Station) = s₁
  have hlocos : s₁.locos = s.locos.write a ((s.locos.mem a).setTargetSpeed p) := by rw [← hs₁]
  have h₁ : Retuned s.locos s₁.locos := by
    rw [hlocos]
    exact Retuned.write _ a _ rfl
  rw [wp_read (hlive h₁)]
  refine wp_mono (copyTarget_spec (h₁.lists hl) (hchain h₁) p) fun _ s₂ hs₂ => ?_
  have haimed : Aimed a zs p s.locos s₂.locos := by
    refine ⟨h₁.trans (hs₂.retuned fun _ => rfl), ?_, fun b hb => ?_, fun b hne hb => ?_⟩
    · rw [hs₂.locos, mem_mapSlots_of_not_mem hzs.not_mem, hlocos, mem_write_self]
      rfl
    · rw [hs₂.locos, mem_mapSlots_of_mem hb, ← h₁.consistReverse]
      rfl
    · rw [hs₂.locos, mem_mapSlots_of_not_mem hb, hlocos, mem_write_of_ne hne]
  rw [wp_read (hlive haimed.retuned)]
  simp only [wp_get]
  split
  · rw [wp_write (hlive haimed.retuned)]
    refine haimed.same (Retuned.write _ a _ rfl) fun b => ?_
    by_cases hb : b = a
    · rw [hb]
      show ((s₂.locos.write a _).mem a).targetSpeed = _
      rw [mem_write_self]
      rfl
    · show ((s₂.locos.write a _).mem b).targetSpeed = _
      rw [mem_write_of_ne hb]
  · rw [wp_bind]
    refine wp_mono (setThrottle2_spec (haimed.retuned.lists hl) (hchain haimed.retuned) p)
      fun _ s₃ hs₃ => ?_
    have haimed₃ : Aimed a zs p s.locos s₃.locos := by
      refine haimed.same (hs₃.retuned fun _ => rfl) fun b => ?_
      rw [hs₃.locos]
      by_cases hb : b ∈ a :: zs
      · rw [mem_mapSlots_of_mem hb]
        rfl
      · rw [mem_mapSlots_of_not_mem hb]
    refine wp_when (fun _ => ?_) fun _ => haimed₃
    refine wp_mono (TrackManager.setDCSignal_spec (haimed₃.retuned.lists hl)) fun _ s₄ hs₄ => ?_
    rw [show s₄.locos = s₃.locos by rw [hs₄.rest]]
    exact haimed₃

/-- A consist that gets a new target speed shows it. -/
theorem Aimed.shows (h : Aimed a zs p t t') (hl : Lists t xs ys) (hc : Consists t xs none)
    (hzs : Forest.Chain xs t.leadOf t.consistNextOf a zs) (hT : t.Shows xs T)
    (hnew : T.slot (t.mem a).loco ≠ some p) : t'.Shows xs (T.setThrottle (t.mem a).loco p) := by
  have hslot := hT.slot a hzs.mem
  have haccepts : T.Accepts (t.mem a).loco p := by
    refine ⟨fun hnone => ?_, ?_, hnew⟩
    · rw [hslot] at hnone
      cases hnone
    · rw [hT.lead a hzs.mem, hzs.root]
      rfl
  have hsome : T.slot (t.mem a).loco ≠ none := by simp [hslot]
  refine hT.retuned h.retuned lead_setThrottle ?_ (fun b hb => ?_) fun l hnone => ?_
  · rw [Targets.setThrottle, if_pos haccepts]
    exact if_neg hsome
  · rw [slot_setThrottle haccepts]
    by_cases hba : b = a
    · rw [hba, withTarget_self, h.root]
    · have hne : (t.mem b).loco ≠ (t.mem a).loco := fun heq =>
        hba (List.inj_on_of_nodup_map hl.ids hb hzs.mem heq)
      have hlead := hT.lead b hb
      cases hr : t.leadOf b with
      | none =>
        rw [hr] at hlead
        have hnot : b ∉ zs := fun hmem => by
          rw [((hzs.visits b).mp hmem).2] at hr
          cases hr
        rw [withTarget_root hlead hne, hT.slot b hb, h.others b hba hnot]
      | some r =>
        rw [hr] at hlead
        rw [withTarget_follower hlead hne]
        by_cases hra : r = a
        · subst hra
          rw [if_pos rfl, h.followers b ((hzs.visits b).mpr ⟨hb, hr⟩)]
        · have hr' := (hc.forest.root b hb r hr).1
          have hnot : b ∉ zs := fun hmem =>
            hra (Option.some.inj (hr.symm.trans ((hzs.visits b).mp hmem).2))
          rw [if_neg fun heq => hra (List.inj_on_of_nodup_map hl.ids hr' hzs.mem heq), hT.slot b hb,
            h.others b hba hnot]
  · rw [slot_setThrottle haccepts, withTarget_root (lead_of_no_slot hnone), hnone]
    rintro rfl
    exact hsome hnone

/-- The speed of a loco that has a slot. -/
theorem wp_throttleSlot (h : s.Shows T) (hl : Lists s.locos xs ys) (ha : a ∈ xs) {tSpeed : UInt8}
    {now : UInt32} : wp F (do
      let slot ← onSlots (readSlot a)
      if slot.isConsistFollower then pure true
      else if slot.targetSpeed = p then pure true
      else
        throttleTo a (s.locos.mem a).loco tSpeed p now
        pure true)
      (fun _ s' => s'.Shows (T.setThrottle (s.locos.mem a).loco p)) s := by
  obtain ⟨xs', ys', hl', hc, hT⟩ := h
  obtain rfl : xs' = xs := hl'.slots_eq.symm.trans hl.slots_eq
  have hsame : ¬ T.Accepts (s.locos.mem a).loco p → s.Shows (T.setThrottle (s.locos.mem a).loco p) :=
    fun hnot => by
      rw [setThrottle_of_not_accepts hnot]
      exact ⟨_, _, hl, hc, hT⟩
  rw [wp_bind, wp_read (hl.live_inUse ha)]
  split
  · next hfollower =>
    refine hsame fun haccepts => ?_
    have hlead := haccepts.2.1
    rw [hT.lead a ha, Option.map_eq_none_iff] at hlead
    rw [LocoSlot.isConsistFollower, show (s.locos.mem a).consistLead = none from hlead] at hfollower
    cases hfollower
  · next hfollower =>
    split
    · next htarget =>
      refine hsame fun haccepts => haccepts.2.2 ?_
      rw [hT.slot a ha, htarget]
    · next htarget =>
      have hroot : s.locos.leadOf a = none := by
        simpa [LocoSlot.isConsistFollower, LocoTable.leadOf] using hfollower
      obtain ⟨zs, hzs⟩ := hc.forest.exists_chain ha hroot
      rw [wp_bind]
      refine wp_mono (wp_throttleTo hl hzs) fun _ s' hs' => ?_
      refine ⟨_, _, hs'.retuned.lists hl, hs'.retuned.consists hc, hs'.shows hl hc hzs hT ?_⟩
      rw [hT.slot a ha]
      exact fun heq => htarget (Option.some.inj heq)

/-- A slot that is created shows a loco that stands still. -/
theorem shows_created (hc : Consists t xs none) (hT : t.Shows xs T)
    (hno : ∀ b ∈ xs, (t.mem b).loco ≠ l) (hroom : xs.length < t.maxLocos)
    (ht' : Created t xs l a t') : t'.Shows (a :: xs) (T.setThrottle l 128) := by
  have hnone : T.slot l = none := hT.unknown l hno
  have hfree : T.free ≠ 0 := by
    rw [hT.free]
    omega
  obtain ⟨old, hslot⟩ := ht'.slot
  refine ⟨fun b hb => ?_, fun b hb => ?_, fun k hk => ?_, ?_⟩
  · rcases List.mem_cons.mp hb with rfl | hb
    · rw [hslot]
      exact slot_setThrottle_self (lead_of_no_slot hnone) fun _ => hfree
    · rw [ht'.mem_inUse b hb, slot_setThrottle_other hnone (hno b hb), hT.slot b hb]
  · rw [lead_setThrottle]
    rcases List.mem_cons.mp hb with rfl | hb
    · rw [LocoTable.leadOf, hslot]
      exact lead_of_no_slot hnone
    · rw [LocoTable.leadOf, ht'.mem_inUse b hb, hT.lead b hb]
      cases hr : t.leadOf b with
      | none => rw [LocoTable.leadOf] at hr; rw [hr]; rfl
      | some root =>
        have hroot := ht'.mem_inUse root (hc.forest.root b hb root hr).1
        rw [LocoTable.leadOf] at hr
        rw [hr, Option.map_some, Option.map_some, hroot]
  · have hkl : k ≠ l := fun heq => hk a List.mem_cons_self (ht'.loco.trans heq.symm)
    rw [slot_setThrottle_other hnone hkl]
    refine hT.unknown k fun b hb => ?_
    rw [← ht'.mem_inUse b hb]
    exact hk b (List.mem_cons_of_mem a hb)
  · rw [(setThrottle_of_no_slot hnone).1, hT.free, ht'.maxLocos, List.length_cons]
    omega

/-- **`setThrottle`** -/
theorem wp_setThrottle_code (h : s.Shows T) (hid : l ≠ 0) {tSpeed : UInt8} {tDirection : Bool}
    (hp : (tSpeed &&& 0x7F) + (if tDirection then 128 else 0) = p) {now : UInt32} :
    wp F (setThrottle l tSpeed tDirection now)
      (fun _ s' => s'.Shows (T.setThrottle l p)) s := by
  obtain ⟨xs, ys, hl, hc, hT⟩ := h
  unfold setThrottle
  rw [if_neg fun hestop => hid hestop.2, hp, wp_bind, wp_onSlots]
  refine wp_mono (getSlot_spec hl l true) ?_
  intro r t' hr
  cases hr with
  | zero hzero => exact absurd hzero hid
  | unknown _ _ hcreate => cases hcreate
  | full _ hno _ hfull =>
    have hnot : ¬ T.Accepts l p := by
      refine fun haccepts => haccepts.1 (hT.unknown l hno) ?_
      rw [hT.free]
      omega
    rw [setThrottle_of_not_accepts hnot]
    exact ⟨xs, ys, hl, hc, hT⟩
  | @found a _ ha hloco =>
    subst hloco
    exact wp_throttleSlot ⟨xs, ys, hl, hc, hT⟩ hl ha
  | @created a t' _ hno _ hroom ht' =>
    obtain ⟨ys', hl'⟩ := ht'.lists
    have hT' := shows_created hc hT hno hroom ht'
    have hfree : T.free ≠ 0 := by
      rw [hT.free]
      omega
    rw [← setThrottle_setThrottle (hT.unknown l hno) hfree (q := 128)]
    obtain rfl := ht'.loco
    exact wp_throttleSlot (s := { s with locos := t' }) ⟨_, _, hl', (hc.created ht').1, hT'⟩ hl'
      List.mem_cons_self

theorem wp_setThrottle (h : s.Shows T) (hid : l ≠ 0) {now : UInt32} :
    wp F (setThrottle l (p &&& 0x7f) (p &&& 0x80 != 0) now)
      (fun _ s' => s'.Shows (T.setThrottle l p)) s :=
  wp_setThrottle_code h hid (speedCode_eq p)

end DCC

end CommandStation
