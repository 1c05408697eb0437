import CommandStation.DCCDecoder.Spec

/-!
# Histories of the station

`op_sound` puts the specifications of the single operations together: every operation keeps the
station sound, in every state, if the table can give it the slots it asks for. From this follow by
induction the results about whole histories.
-/

namespace CommandStation

open CommandStation.Lib LocoTable DCCConsist

variable {F : Fault → Prop} {s s' : Station} {xs ys : List Addr}

/-- `getSlot` supplies a slot for the loco: it has one or there is room for one. -/
def Supplied (s : Station) (locoId : UInt16) : Prop := locoId ≠ 0 ∧ RoomFor s [locoId]

/-- `getSlot` supplies a slot for every loco that the operation asks a slot for. -/
def Op.Served (s : Station) : Op → Prop
  | setThrottle cab tSpeed _ _ => ¬ (tSpeed = 1 ∧ cab = 0) → Supplied s cab
  | setFn cab functionNumber _ => ¬ (cab ≤ 0 ∨ functionNumber < 0) →
      ¬ 31 < functionNumber.toUInt16 → Supplied s (UInt16.ofInt cab)
  | setDCFreq cab freq => ¬ (cab = 0 ∨ 3 < freq) → Supplied s (UInt16.ofInt cab)
  | setMomentum locoId accelerating decelerating => 0 < locoId →
      ¬ (accelerating < -1 ∨ decelerating < -1) →
      ¬ (DCC.momentumTooLong accelerating ∨ DCC.momentumTooLong decelerating) →
      Supplied s (UInt16.ofInt locoId)
  | parseConsist ps => ParseRoom s.locos s.locos.slots ps
  | addLocoToConsist consistId locoId _ =>
      consistId ≠ 0 ∧ consistId ≤ highestLocoId ∧ locoId ≠ 0 ∧ locoId ≤ highestLocoId ∧
      locoId ≠ consistId → RoomFor s [consistId, locoId]
  | decode packet _ => RoomFor s (DCCDecoder.asked s packet)
  | addThrottleLoco _ _ lengthChar locoid =>
      WiThrottle.Accepted lengthChar locoid → Supplied s (UInt16.ofInt locoid)
  | _ => True

instance (s : Station) (locoId : UInt16) : Decidable (Supplied s locoId) :=
  inferInstanceAs (Decidable (_ ∧ _))

instance (s : Station) (op : Op) : Decidable (op.Served s) := by
  cases op <;> unfold Op.Served <;> infer_instance

/-- The operation uses the slots it asks for without a check that it got them. -/
def Op.unchecked : Op → Bool
  | parseConsist _ | decode _ _ => true
  | _ => false

/-! ## Consist operations on the station -/

/-- A steady program on the loco table that leaves the consists in order. -/
theorem wp_onSlots_sound {α : Type} {m : Slots α} {Q : α → LocoTable → Prop} (hs : Sound s)
    (hsteady : Preserves Steady m)
    (h : wp F m (fun r t' => (∃ xs ys, Lists t' xs ys ∧ Consists t' xs none) ∧ Q r t') s.locos) :
    wp F (onSlots m) (fun r s' => Sound s' ∧ Q r s'.locos) s := by
  simp only [wp_onSlots]
  refine wp_mono (wp_and h (hsteady s.locos)) ?_
  rintro r t' ⟨⟨htable, hQ⟩, hsteady'⟩
  refine ⟨⟨htable, hs.tracks, fun hmodified a ha => ?_⟩, hQ⟩
  rw [show t'.slots = s.locos.slots from hsteady'.slots hmodified]
  exact hs.reminder (hsteady' hmodified).1 a ha

theorem parseConsist_sound (hs : Sound s) (ps : List Int16)
    (hF : ¬ ParseRoom s.locos s.locos.slots ps → F .nullPointer) :
    wp F (onSlots (DCCConsist.parse ps))
      (fun _ s' => Sound s' ∧ ParseRoom s.locos s.locos.slots ps) s := by
  obtain ⟨xs, ys, h, hc⟩ := hs.table
  rw [h.slots_eq] at hF ⊢
  have hparse := parse_spec (F := F) h hc ps hF
  refine wp_mono (wp_onSlots_sound (Q := fun _ _ => ParseRoom s.locos xs ps) hs (frame_parse ps)
    (wp_mono hparse fun r t' hr => ⟨hr.2.ok, hr.1⟩)) ?_
  intro r s' hs'
  exact hs'

theorem addLocoToConsist_sound (hs : Sound s) (h : Lists s.locos xs ys)
    (hc : Consists s.locos xs none) (consistId locoId : UInt16) (reversed : Bool) :
    wp F (onSlots (DCCConsist.addLocoToConsist consistId locoId reversed)) (fun r s' => Sound s' ∧
      (consistId ≠ 0 ∧ consistId ≤ highestLocoId ∧ locoId ≠ 0 ∧ locoId ≤ highestLocoId ∧
        locoId ≠ consistId → Added s.locos xs [consistId, locoId] r s'.locos)) s := by
  have hadd := addLocoToConsist_spec (F := F) h hc consistId locoId reversed
  refine wp_mono (wp_onSlots_sound hs (frame_addLocoToConsist consistId locoId reversed)
    (wp_mono hadd fun r t' hr => ⟨hr.1.ok, hr.2⟩)) ?_
  intro r s' hs'
  exact hs'

theorem deleteAnyConsist_sound (hs : Sound s) (locoid : Int16) :
    wp F (onSlots (DCCConsist.deleteAnyConsist locoid)) (fun _ => Sound) s := by
  obtain ⟨xs, ys, h, hc⟩ := hs.table
  have hdelete := deleteAnyConsist_spec (F := F) h hc locoid
  refine wp_mono (wp_onSlots_sound (Q := fun _ _ => True) hs (frame_deleteAnyConsist locoid)
    (wp_mono hdelete fun r t' hr => ⟨⟨xs, ys, hr.lists, hr.consists⟩, trivial⟩)) ?_
  rintro r s' ⟨hsound, -⟩
  exact hsound

/-! ## All operations -/

/-- **Every operation keeps the station sound**; the two that do not check their slots need that
they are served. -/
theorem op_sound (hs : Sound s) (op : Op)
    (hF : op.unchecked = true → ¬ op.Served s → F .nullPointer) :
    wp F op.exec (fun _ => Sound) s := by
  obtain ⟨xs, ys, h, hc⟩ := hs.table
  have hkept : ∀ {m : Dcc Unit}, wp F m (fun _ => Kept s) s →
      wp F (do m; pure true) (fun _ => Sound) s := by
    intro m hm
    rw [wp_bind]
    exact wp_mono hm fun _ s' hs' => hs'.sound hs
  have hdone : ∀ {m : Dcc Unit}, wp F m (fun _ => Sound) s →
      wp F (do m; pure true) (fun _ => Sound) s := fun hm => by rwa [wp_bind]
  cases op with
  | setThrottle cab tSpeed tDirection now =>
    exact wp_mono (DCC.setThrottle_spec hs h hc cab tSpeed tDirection now) fun _ s' hs' =>
      hs'.1.sound
  | setFn cab functionNumber on =>
    exact wp_mono (DCC.setFn_spec hs h hc cab functionNumber on) fun _ s' hs' => hs'.1.sound
  | setDCFreq cab freq =>
    exact hdone (wp_mono (DCC.setDCFreq_spec hs h hc cab freq) fun _ s' hs' => hs'.1.sound)
  | setMomentum locoId accelerating decelerating =>
    exact wp_mono (DCC.setMomentum_spec hs h hc locoId accelerating decelerating)
      fun _ s' hs' => hs'.1.sound
  | estopAll => exact hkept (DCC.estopAll_kept h)
  | estopLock lock => exact hkept (DCC.estopLock_kept h lock)
  | loop windowOpen pendingAt remindAt forcedAt =>
    exact hdone (DCC.loop_sound hs windowOpen pendingAt remindAt forcedAt)
  | forgetLoco cab => exact hdone (DCC.forgetLoco_sound hs cab)
  | forgetAllLocos => exact hdone (DCC.forgetAllLocos_sound hs)
  | parseConsist ps =>
    simp only [Op.exec, wp_bind]
    exact wp_mono (parseConsist_sound hs ps (hF rfl)) fun _ s' hs' => hs'.1
  | addLocoToConsist consistId locoId reversed =>
    exact wp_mono (addLocoToConsist_sound hs h hc consistId locoId reversed) fun _ s' hs' => hs'.1
  | deleteAnyConsist locoid => exact hdone (deleteAnyConsist_sound hs locoid)
  | setAccessory address port gate onoff =>
    exact hdone (wp_mono (DCCDecoder.setAccessory_grown hs address port gate onoff)
      fun _ s' hs' => hs'.sound)
  | setTrackMode track mode dcAddr offAtChange =>
    exact wp_mono (TrackManager.setTrackMode_kept h track mode dcAddr offAtChange)
      fun _ s' hs' => hs'.sound hs
  | setTrackPower trackmodeToMatch powermode =>
    exact hkept (TrackManager.setTrackPower_kept h trackmodeToMatch powermode)
  | setPowerOfTrack powermode track =>
    exact hkept (TrackManager.setPowerOfTrack_kept h powermode track)
  | setDCSignal cab speedbyte =>
    exact hkept (wp_mono (TrackManager.setDCSignal_spec h) fun _ s' hs' => hs'.kept)
  | decoderOnOff on => exact ⟨hs.table, hs.tracks, hs.reminder⟩
  | decode packet now =>
    exact wp_mono (DCCDecoder.parse_grown hs packet now (hF rfl)) fun _ s' hs' => hs'.1.sound
  | addThrottleLoco client throttleChar lengthChar locoid =>
    simp only [Op.exec, wp_bind]
    exact wp_mono (WiThrottle.addLoco_spec hs h hc client throttleChar lengthChar locoid)
      fun _ s' hs' => hs'.1.sound

theorem sound_init (platform : Platform) (maxLocos : Nat) (brakePins : List BrakePin) :
    Sound (Station.init platform maxLocos brakePins) := by
  refine ⟨⟨[], [], lists_init maxLocos, consists_nil⟩, ?_, fun _ a ha => by cases ha⟩
  intro driver hdriver hdc
  obtain ⟨pin, -, rfl⟩ := List.mem_map.mp hdriver
  exact absurd hdc (by decide : ¬ TrackMode.has TrackMode.none TrackMode.dc = true)

/-- Every state the station can be in is sound. -/
theorem Reachable.sound (h : Reachable s) : Sound s := by
  obtain ⟨platform, maxLocos, brakePins, ops, hrun⟩ := h
  have hinv : wp (fun _ => True) (runProg Op.exec ops) (fun _ => Sound)
      (Station.init platform maxLocos brakePins) :=
    wp_runProg Sound (fun s op _ hs => op_sound hs op fun _ _ => trivial)
      (sound_init platform maxLocos brakePins) (alongProg_of_forall (fun _ _ _ => trivial) _)
  rw [wp_iff_forall] at hinv
  exact hinv () s hrun

/-! ## The consists in every state -/

/-- The consist links form a forest of depth one over the slots in use. -/
structure ConsistForest (t : LocoTable) : Prop where
  inUse : Links t.nextOf t.firstSlot t.slots
  lead : ∀ a ∈ t.slots, ∀ l, (t.mem a).consistLead = some l →
    l ∈ t.slots ∧ (t.mem l).isConsistFollower = false
  chain : ∀ l ∈ t.slots, (t.mem l).isConsistFollower = false →
    ∃ zs, Links t.consistNextOf (t.mem l).consistNext zs ∧ zs.Nodup ∧
      ∀ a, a ∈ zs ↔ a ∈ t.slots ∧ (t.mem a).consistLead = some l
  disjoint : ∀ l ∈ t.slots, ∀ l' ∈ t.slots, (t.mem l).isConsistFollower = false →
    (t.mem l').isConsistFollower = false → ∀ zs zs',
      Links t.consistNextOf (t.mem l).consistNext zs →
      Links t.consistNextOf (t.mem l').consistNext zs' → ∀ a ∈ zs, a ∈ zs' → l = l'
  loose : ∀ a ∈ t.slots, (t.mem a).consistLead = none →
    (∀ b ∈ t.slots, (t.mem b).consistLead ≠ some a) →
    (t.mem a).consistNext = none ∧ (t.mem a).consistReverse = false

/-- The links of a sound station are a forest of consists. -/
theorem consistForest_of_sound (hs : Sound s) : ConsistForest s.locos := by
  obtain ⟨xs, ys, h, hc⟩ := hs.table
  have hroot : ∀ a, (s.locos.mem a).isConsistFollower = false ↔ s.locos.leadOf a = none := by
    intro a
    rw [LocoSlot.isConsistFollower, LocoTable.leadOf]
    simp
  -- the chain of a root is the one the forest knows
  have hchain : ∀ l ∈ xs, s.locos.leadOf l = none → ∀ zs,
      Links s.locos.consistNextOf (s.locos.consistNextOf l) zs →
      ∀ a, a ∈ zs ↔ a ∈ xs ∧ s.locos.leadOf a = some l := by
    intro l hl hlead zs hlinks
    obtain ⟨zs', hzs'⟩ := hc.forest.exists_chain hl hlead
    rw [hlinks.unique hzs'.links]
    exact hzs'.visits
  refine ⟨?_, ?_, ?_, ?_, ?_⟩ <;> rw [h.slots_eq]
  · exact h.inUse
  · intro a ha l hl
    obtain ⟨hmem, hlead⟩ := hc.forest.root a ha l hl
    exact ⟨hmem, (hroot l).mpr hlead⟩
  · intro l hl hlead
    obtain ⟨zs, hzs⟩ := hc.forest.exists_chain hl ((hroot l).mp hlead)
    exact ⟨zs, hzs.links, hzs.nodup, hzs.visits⟩
  · intro l hl l' hl' hlead hlead' zs zs' hlinks hlinks' a ha ha'
    have hal := ((hchain l hl ((hroot l).mp hlead) zs hlinks a).mp ha).2
    have hal' := ((hchain l' hl' ((hroot l').mp hlead') zs' hlinks' a).mp ha').2
    rw [hal] at hal'
    exact Option.some.inj hal'
  · intro a ha hlead hnone
    obtain ⟨zs, hzs⟩ := hc.forest.exists_chain ha hlead
    have hnil : zs = [] := by
      rw [List.eq_nil_iff_forall_not_mem]
      intro b hb
      obtain ⟨hbx, hba⟩ := (hzs.visits b).mp hb
      exact hnone b hbx hba
    have hnext := hzs.nil_iff.mp hnil
    exact ⟨hnext, hc.reverse a ha (fun hno => by cases hno) ⟨hlead, hnext⟩⟩

/-- **Consists stay a forest of depth one**: a history in which `parse` and the decoder are served
comes to an end, and in the state it leaves the consist links form a forest. -/
theorem consists_forest (platform : Platform) (maxLocos : Nat) (brakePins : List BrakePin)
    (ops : List Op)
    (hops : AlongProg Op.exec (fun s op => op.unchecked = true → op.Served s) ops
      (Station.init platform maxLocos brakePins)) :
    ∃ s, runProg Op.exec ops (Station.init platform maxLocos brakePins) = .ok ((), s) ∧
      ConsistForest s.locos := by
  have hinv := wp_runProg (F := fun _ => False) Sound
    (fun s op hserved hs => op_sound hs op fun hunchecked hno => absurd (hserved hunchecked) hno)
    (sound_init platform maxLocos brakePins) hops
  obtain ⟨⟨⟩, s, hrun, hsound⟩ := wp_iff_exists.mp hinv
  exact ⟨s, hrun, consistForest_of_sound hsound⟩

/-- Loco 3 leads 5 (reversed) and 7; then 5 is forgotten, which takes the consist apart. -/
theorem consists_forest_forgotten :
    ∃ s, runProg Op.exec [.parseConsist [3, -5], .addLocoToConsist 3 7 false, .forgetLoco 5]
        (Station.init .avr 3 []) = .ok ((), s) ∧
      ConsistForest s.locos ∧ s.locos.slots = [2, 0] ∧ s.locos.leadOf 2 = none := by
  have hops : AlongProg Op.exec (fun s op => op.unchecked = true → op.Served s)
      [.parseConsist [3, -5], .addLocoToConsist 3 7 false, .forgetLoco 5]
      (Station.init .avr 3 []) := by
    refine ⟨fun _ _ => by decide, ?_⟩
    rw [wp_iff_forall]
    intro _ s _
    apply alongProg_of_forall
    intro op hop s hunchecked
    simp only [List.mem_cons, List.not_mem_nil, or_false] at hop
    rcases hop with rfl | rfl <;> cases hunchecked
  obtain ⟨s, hrun, hforest⟩ := consists_forest .avr 3 [] _ hops
  refine ⟨s, hrun, hforest, (wp_iff_forall
    (Q := fun _ s => s.locos.slots = [2, 0] ∧ s.locos.leadOf 2 = none)).mp ?_ () s hrun⟩
  decide +kernel

end CommandStation
