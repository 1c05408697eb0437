import CommandStation.DCC.Operations
import CommandStation.DCCConsist.Spec
import CommandStation.DCCConsist.Steady

/-!
# What the throttle operations do

Most operations of `DCC` and `TrackManager` leave the lists and consists of the loco table as they
are: they are `Retuned`. The specifications say in addition exactly which slots and tracks are
written, as far as later modules need it.
-/

namespace CommandStation

open CommandStation.Lib LocoTable

/-! ## Tables with the same lists and consists -/

/-- The members that say where a slot is: its links, its loco, its direction in a consist. -/
def LocoSlot.place (slot : LocoSlot) : LocoSlot :=
  { newLocoSlot with
    next := slot.next, consistLead := slot.consistLead, consistNext := slot.consistNext,
    loco := slot.loco, consistReverse := slot.consistReverse }

/-- The tables differ only in speeds, functions and the like. -/
structure Retuned (t t' : LocoTable) : Prop where
  place : ∀ a, (t'.mem a).place = (t.mem a).place
  statics : t' = { t with mem := t'.mem }

namespace Retuned

variable {t t' t'' : LocoTable} {xs ys : List Addr} {busy : Option Addr}

theorem refl (t : LocoTable) : Retuned t t := ⟨fun _ => rfl, rfl⟩

theorem trans (h : Retuned t t') (h' : Retuned t' t'') : Retuned t t'' := by
  refine ⟨fun a => (h'.place a).trans (h.place a), ?_⟩
  rw [h'.statics, h.statics]

theorem write (t : LocoTable) (a : Addr) (slot : LocoSlot)
    (hslot : slot.place = (t.mem a).place) : Retuned t (t.write a slot) := by
  refine ⟨fun b => ?_, rfl⟩
  by_cases hb : b = a
  · rw [hb, mem_write_self, hslot]
  · rw [mem_write_of_ne hb]

section Members

variable (h : Retuned t t') (a : Addr)
include h

theorem nextOf : t'.nextOf a = t.nextOf a := by
  have hnext := congrArg LocoSlot.next (h.place a)
  exact hnext

theorem leadOf : t'.leadOf a = t.leadOf a := by
  have hlead := congrArg LocoSlot.consistLead (h.place a)
  exact hlead

theorem consistNextOf : t'.consistNextOf a = t.consistNextOf a := by
  have hnext := congrArg LocoSlot.consistNext (h.place a)
  exact hnext

theorem loco : (t'.mem a).loco = (t.mem a).loco := by
  have hloco := congrArg LocoSlot.loco (h.place a)
  exact hloco

theorem consistReverse : (t'.mem a).consistReverse = (t.mem a).consistReverse := by
  have hreverse := congrArg LocoSlot.consistReverse (h.place a)
  exact hreverse

end Members

theorem lists (h : Retuned t t') (hl : Lists t xs ys) : Lists t' xs ys := by
  have hids : (xs.map fun a => (t'.mem a).loco) = xs.map fun a => (t.mem a).loco :=
    List.map_congr_left fun a _ => h.loco a
  have hnext : ∀ a, t'.nextOf a = t.nextOf a := h.nextOf
  have hloco : ∀ a, (t'.mem a).loco = (t.mem a).loco := h.loco
  rw [h.statics]
  refine ⟨hl.inUse.congr fun a _ => hnext a, hl.recycled.congr fun a _ => hnext a, hl.nodup,
    hl.live, hl.fresh, hl.count, hl.bound, ?_, ?_⟩
  · rw [show (xs.map fun a => (t'.mem a).loco) = _ from hids]
    exact hl.ids
  · intro a ha
    show (t'.mem a).loco ≠ 0
    rw [hloco]
    exact hl.nonzero a ha

theorem consists (h : Retuned t t') (hc : Consists t xs busy) : Consists t' xs busy := by
  have hlead : t'.leadOf = t.leadOf := funext h.leadOf
  have hnext : t'.consistNextOf = t.consistNextOf := funext h.consistNextOf
  refine ⟨by rw [hlead, hnext]; exact hc.forest, ?_, ?_⟩
  · intro a ha hbusy hl
    rw [Loose, hlead, hnext] at hl
    rw [h.consistReverse]
    exact hc.reverse a ha hbusy hl
  · intro a ha hl
    rw [Loose, hlead, hnext] at hl
    rw [h.loco]
    exact hc.ids a ha hl

end Retuned

/-- The slots `cs` are rewritten by `f`. -/
def LocoTable.mapSlots (t : LocoTable) (cs : List Addr) (f : LocoSlot → LocoSlot) : LocoTable :=
  { t with mem := fun a => if a ∈ cs then f (t.mem a) else t.mem a }

theorem LocoTable.mem_mapSlots_of_mem {t : LocoTable} {cs : List Addr} {f : LocoSlot → LocoSlot}
    {a : Addr} (ha : a ∈ cs) : (t.mapSlots cs f).mem a = f (t.mem a) := if_pos ha

theorem LocoTable.mem_mapSlots_of_not_mem {t : LocoTable} {cs : List Addr}
    {f : LocoSlot → LocoSlot} {a : Addr} (ha : a ∉ cs) : (t.mapSlots cs f).mem a = t.mem a :=
  if_neg ha

theorem Retuned.mapSlots (t : LocoTable) (cs : List Addr) (f : LocoSlot → LocoSlot)
    (hf : ∀ slot, (f slot).place = slot.place) : Retuned t (t.mapSlots cs f) := by
  refine ⟨fun a => ?_, rfl⟩
  by_cases ha : a ∈ cs
  · rw [mem_mapSlots_of_mem ha, hf]
  · rw [mem_mapSlots_of_not_mem ha]

variable {F : Fault → Prop} {s : Station} {xs ys zs : List Addr} {a l : Addr}

/-! ## Programs on the loco table -/

@[simp] theorem wp_onSlots {α : Type} {m : Slots α} {Q : α → Station → Prop} :
    wp F (onSlots m) Q = fun s => wp F m (fun r locos => Q r { s with locos := locos }) s.locos :=
  wp_zoom

@[simp] theorem wp_schedule {c : DCCQueue.Call} {Q : Unit → Station → Prop} :
    wp F (schedule c) Q = fun s => Q () { s with queue := DCCQueue.step s.queue c } :=
  wp_modify

theorem wp_read (ha : s.locos.live a = true) {Q : LocoSlot → Station → Prop} :
    wp F (onSlots (readSlot a)) Q s ↔ Q (s.locos.mem a) s := by
  simp only [wp_onSlots, wp_readSlot ha]

theorem wp_write (ha : s.locos.live a = true) {f : LocoSlot → LocoSlot}
    {Q : Unit → Station → Prop} :
    wp F (onSlots (writeSlot a f)) Q s ↔
      Q () { s with locos := s.locos.write a (f (s.locos.mem a)) } := by
  simp only [wp_onSlots, wp_writeSlot ha]

namespace DCC

/-- The call with which a speed code joins the queue. -/
def speedCall (cab : UInt16) (globalSpeedsteps speedCode : UInt8) : DCCQueue.Call :=
  let packet := speedPacket cab globalSpeedsteps speedCode
  if isEstop speedCode then .scheduleEstopPacket packet.bytes 4 cab
  else .scheduleDCCSpeedPacket packet 0 cab

@[simp] theorem wp_sendSpeed {cab : UInt16} {speedCode : UInt8} {Q : Unit → Station → Prop} :
    wp F (sendSpeed cab speedCode) Q = fun s =>
      Q () { s with queue := DCCQueue.step s.queue (speedCall cab s.globalSpeedsteps speedCode) } := by
  funext s
  simp only [sendSpeed, wp_bind, wp_get, speedCall]
  split <;> simp

/-- The speed code that `setThrottleDCC` sends. -/
def blocked (s : Station) (speedCode : UInt8) : UInt8 :=
  if s.estopIsLocked then estopCode speedCode else speedCode

theorem wp_setThrottleDCC_none {speedCode : UInt8} {Q : Unit → Station → Prop} :
    wp F (setThrottleDCC none speedCode) Q s ↔ Q () { s with
      queue := DCCQueue.step s.queue (speedCall 0 s.globalSpeedsteps (blocked s speedCode)) } := by
  simp [setThrottleDCC, blocked]

/-- A speed code is taken apart and put together again. -/
theorem speedCode_eq (p : UInt8) :
    (p &&& 0x7f &&& 0x7F) + (if (p &&& 0x80 != 0) = true then 128 else 0) = p := by
  have hall : ∀ n < 256, (UInt8.ofNat n &&& 0x7f &&& 0x7F) +
      (if (UInt8.ofNat n &&& 0x80 != 0) = true then 128 else 0) = UInt8.ofNat n := by decide +kernel
  have hp := hall p.toNat p.toNat_lt
  rwa [UInt8.ofNat_toNat] at hp

/-- The speed code a loco is sent, as it runs forwards or reversed in its consist. -/
def directed (slot : LocoSlot) (speedCode : UInt8) : UInt8 :=
  if slot.consistReverse then speedCode ^^^ 0x80 else speedCode

theorem wp_setThrottleDCC (ha : s.locos.live a = true) {speedCode : UInt8}
    {Q : Unit → Station → Prop} :
    wp F (setThrottleDCC (some a) speedCode) Q s ↔ Q () { s with
      queue := DCCQueue.step s.queue (speedCall (s.locos.mem a).loco s.globalSpeedsteps
        (blocked s (directed (s.locos.mem a) speedCode))) } := by
  simp [setThrottleDCC, blocked, directed, wp_readSlot ha]

/-! ## Loops along the table -/

/-- The slots `cs` are rewritten by `f`, and packets are sent. -/
structure Updated (cs : List Addr) (f : LocoSlot → LocoSlot) (s s' : Station) : Prop where
  locos : s'.locos = s.locos.mapSlots cs f
  rest : s' = { s with queue := s'.queue, locos := s'.locos }

theorem Updated.retuned {cs : List Addr} {f : LocoSlot → LocoSlot} {s' : Station}
    (h : Updated cs f s s') (hf : ∀ slot, (f slot).place = slot.place) :
    Retuned s.locos s'.locos := by
  rw [h.locos]
  exact Retuned.mapSlots _ cs f hf

/-- A loop that writes every slot of a chain, and sends packets on the way. -/
theorem wp_updateSlots {field : LocoSlot → Option Addr} {f : LocoSlot → LocoSlot}
    {send : Addr → Dcc Unit} {start : Option Addr} {cs : List Addr}
    (hfield : ∀ slot, field (f slot) = field slot)
    (hsend : ∀ a s, s.locos.live a = true →
      wp F (send a) (fun _ s' => ∃ queue, s' = { s with queue := queue }) s)
    (h : Links (fun a => field (s.locos.mem a)) start cs) (hnd : cs.Nodup)
    (hlive : ∀ a ∈ cs, s.locos.live a = true) (hlen : cs.length ≤ s.locos.fresh) :
    wp F (updateSlots field f send start) (fun _ s' => Updated cs f s s') s := by
  simp only [updateSlots, followSlots, wp_bind, wp_get]
  -- `rest` are the slots still to be written, `done` those before them
  refine wp_loop (fun rest p _ s' => Links (fun a => field (s.locos.mem a)) p rest ∧
      ∃ done queue, cs = done ++ rest ∧
        s' = { s with queue := queue, locos := s.locos.mapSlots done f }) ?_ ?_ hlen
      ⟨h, [], s.queue, rfl, by simp [mapSlots]⟩
  · rintro rest a _ s' ⟨hlinks, done, queue, rfl, rfl⟩
    cases rest with
    | nil => cases hlinks
    | cons c rest =>
      obtain ⟨hp, hlinks⟩ := hlinks
      cases hp
      have ha : (s.locos.mapSlots done f).live a = true := hlive a (by simp)
      have hnot : a ∉ done := by
        intro hin
        exact (List.nodup_append.mp hnd).2.2 a hin a List.mem_cons_self rfl
      have hmap : (s.locos.mapSlots done f).write a (f ((s.locos.mapSlots done f).mem a)) =
          s.locos.mapSlots (done ++ [a]) f := by
        rw [mem_mapSlots_of_not_mem hnot, LocoTable.write, mapSlots, mapSlots]
        congr 1
        funext b
        by_cases hb : b = a
        · simp [hb]
        · simp [hb]
      refine ⟨rest, rfl, ?_⟩
      simp only [wp_bind, wp_onSlots]
      rw [wp_writeSlot ha, hmap]
      have ha' : (s.locos.mapSlots (done ++ [a]) f).live a = true := ha
      refine wp_mono (hsend a _ ha') ?_
      rintro _ s' ⟨queue', rfl⟩
      rw [wp_readSlot ha', wp_pure, mem_mapSlots_of_mem (by simp), hfield]
      exact ⟨hlinks, done ++ [a], queue', by simp, rfl⟩
  · rintro rest _ s' ⟨hlinks, done, queue, rfl, rfl⟩
    cases rest with
    | nil => exact ⟨by rw [List.append_nil], rfl⟩
    | cons c rest => cases hlinks.1

/-- **`setThrottle2` gives the speed code to a root and its followers.** -/
theorem setThrottle2_spec (h : Lists s.locos xs ys)
    (hzs : Forest.Chain xs s.locos.leadOf s.locos.consistNextOf l zs) (speedCode : UInt8) :
    wp F (setThrottle2 l speedCode) (fun _ s' =>
      Updated (l :: zs) (fun slot => slot.setSpeedCode speedCode) s s') s := by
  refine wp_updateSlots (fun _ => rfl) ?_ hzs.links_cons hzs.nodup_cons
    (fun b hb => h.live_inUse (hzs.subset b hb)) (chain_length h hzs)
  intro a s ha
  rw [wp_setThrottleDCC ha]
  exact ⟨_, rfl⟩

/-- `copyTarget` gives the target speed to the followers, reversed where they run reversed. -/
theorem copyTarget_spec (h : Lists s.locos xs ys)
    (hzs : Forest.Chain xs s.locos.leadOf s.locos.consistNextOf l zs) (speedCode : UInt8) :
    wp F (copyTarget (s.locos.consistNextOf l) speedCode) (fun _ s' => Updated zs (fun slot =>
      slot.setTargetSpeed (speedCode ^^^ (if slot.consistReverse then 0x80 else 0))) s s') s := by
  have hlen := chain_length h hzs
  rw [List.length_cons] at hlen
  refine wp_updateSlots (fun _ => rfl) ?_ hzs.links hzs.nodup
    (fun b hb => h.live_inUse (hzs.subset b (List.mem_cons_of_mem l hb))) (by omega)
  exact fun a s _ => ⟨s.queue, rfl⟩

/-! ## Looking up -/

/-- The look-ups of a loco change nothing. -/
theorem wp_lookup {α : Type} (h : Lists s.locos xs ys) (cab : UInt16) {found : LocoSlot → α}
    {unknown : α} :
    wp F (onSlots do
      let slot ← LocoSlot.getSlot cab false
      match slot with
      | some a =>
        let slot ← readSlot a
        pure (found slot)
      | none => pure unknown) (fun r s' => s' = s ∧ ((∃ a ∈ xs, (s.locos.mem a).loco = cab ∧
        r = found (s.locos.mem a)) ∨ (∀ a ∈ xs, (s.locos.mem a).loco ≠ cab) ∧ r = unknown)) s := by
  simp only [wp_onSlots, wp_bind]
  refine wp_findSlot h (fun hno => ⟨rfl, .inr ⟨hno, rfl⟩⟩) fun a ha hid => ?_
  simp only [wp_bind]
  rw [wp_readSlot (h.live_inUse ha)]
  exact ⟨rfl, .inl ⟨a, ha, hid, rfl⟩⟩

theorem wp_getThrottleFrequency (h : Lists s.locos xs ys) (cab : UInt16)
    {Q : UInt8 → Station → Prop} (hQ : ∀ frequency, Q frequency s) :
    wp F (getThrottleFrequency cab) Q s := by
  simp only [getThrottleFrequency, wp_bind, wp_get]
  split
  · exact hQ 0
  · refine wp_mono (wp_lookup h cab) ?_
    rintro r _ ⟨rfl, -⟩
    exact hQ r

theorem wp_getLocoSpeedByte (h : Lists s.locos xs ys) (cab : UInt16)
    {Q : UInt8 → Station → Prop} (hQ : ∀ speedcode, Q speedcode s) :
    wp F (getLocoSpeedByte cab) Q s := by
  refine wp_mono (wp_lookup h cab) ?_
  rintro r _ ⟨rfl, -⟩
  exact hQ r

end DCC

/-! ## Tracks -/

/-- The driver obeys a DC signal for the cab. -/
def MotorDriver.Hears (driver : MotorDriver) (cab : Int16) : Prop :=
  (driver.dcAddr = cab ∨ cab = 0) ∧ driver.isDC = true ∧ driver.brakePin ≠ .unused

instance (driver : MotorDriver) (cab : Int16) : Decidable (driver.Hears cab) :=
  inferInstanceAs (Decidable (_ ∧ _))

namespace TrackManager

/-- What `setDCSignal` does when it has been through the tracks `ts`. -/
structure Driven (cab : Int16) (speedbyte : UInt8) (ts : List Nat) (s s' : Station) : Prop where
  rest : s' = { s with tracks := s'.tracks, dcSignals := s'.dcSignals }
  tracks : ∀ t, ∃ frequency, s'.tracks[t]? = (s.tracks[t]?).map fun driver =>
    if t ∈ ts ∧ driver.Hears cab then { driver with signal := some (speedbyte, frequency) }
    else driver

variable {cab : Int16} {speedbyte : UInt8} {ts : List Nat}

theorem driven_nil : Driven cab speedbyte [] s s := by
  refine ⟨rfl, fun t => ⟨0, ?_⟩⟩
  simp

/-- One turn of the loop of `setDCSignal`. -/
theorem setDCSignalOn_spec (h : Lists s.locos xs ys) (t : Nat) :
    wp F (setDCSignalOn cab speedbyte t) (fun _ s' => Driven cab speedbyte [t] s s') s := by
  have hsame : ∀ driver, s.tracks[t]? = some driver → ¬ driver.Hears cab →
      Driven cab speedbyte [t] s s := by
    intro driver hdriver hnot
    refine ⟨rfl, fun u => ⟨0, ?_⟩⟩
    by_cases hu : u = t
    · simp [hu, hdriver, hnot]
    · simp [hu]
  simp only [setDCSignalOn, wp_bind, wp_get]
  cases hdriver : s.tracks[t]? with
  | none =>
    refine ⟨rfl, fun u => ⟨0, ?_⟩⟩
    by_cases hu : u = t
    · simp [hu, hdriver]
    · simp [hu]
  | some driver =>
    simp only
    split
    · next hcab => exact hsame driver hdriver fun hh => hh.1.elim hcab.1 hcab.2
    · next hcab =>
      split
      · next hdc =>
        rw [wp_bind]
        refine DCC.wp_getThrottleFrequency h _ fun frequency => ?_
        simp only [driveTrack, wp_modify, hdriver]
        split
        · next hbrake => exact hsame driver hdriver fun hh => hh.2.2 hbrake
        · next hbrake =>
          have hears : driver.Hears cab := ⟨by tauto, hdc, hbrake⟩
          refine ⟨rfl, fun u => ⟨frequency, ?_⟩⟩
          by_cases hu : u = t
          · have hlt : t < s.tracks.length := (List.getElem?_eq_some_iff.mp hdriver).1
            rw [hu, List.getElem?_set_self hlt, hdriver, Option.map_some,
              if_pos ⟨List.mem_singleton_self t, hears⟩]
          · simp [hu, List.getElem?_set_ne (Ne.symm hu)]
      · next hdc => exact hsame driver hdriver fun hh => hdc hh.2.1

/-- Tracks are driven one after the other. -/
theorem Driven.trans {ts' : List Nat} {s' s'' : Station} (h : Driven cab speedbyte ts s s')
    (h' : Driven cab speedbyte ts' s' s'') : Driven cab speedbyte (ts ++ ts') s s'' := by
  refine ⟨by rw [h'.rest, h.rest], fun t => ?_⟩
  obtain ⟨frequency, ht⟩ := h.tracks t
  obtain ⟨frequency', ht'⟩ := h'.tracks t
  -- the later of two signals is the one that stays
  by_cases hlast : t ∈ ts'
  · refine ⟨frequency', ?_⟩
    rw [ht', ht, Option.map_map]
    congr 1
    funext driver
    by_cases hh : driver.Hears cab
    · have hh' : ({ driver with signal := some (speedbyte, frequency) } : MotorDriver).Hears cab := hh
      by_cases hts : t ∈ ts <;> simp [hts, hh, hh', hlast]
    · simp [hh]
  · refine ⟨frequency, ?_⟩
    rw [ht', ht, Option.map_map]
    congr 1
    funext driver
    simp [hlast]

/-- **`setDCSignal` gives the speed code to all tracks that obey the cab.** -/
theorem setDCSignal_spec (h : Lists s.locos xs ys) :
    wp F (setDCSignal cab speedbyte)
      (fun _ s' => Driven cab speedbyte (List.range s.tracks.length) s s') s := by
  simp only [setDCSignal, forEachTrack, wp_bind, wp_get]
  generalize List.range s.tracks.length = ts
  -- by induction on the tracks still to visit; the loco table is not touched
  induction ts generalizing s with
  | nil => exact driven_nil
  | cons t ts ih =>
    rw [runProg, wp_bind]
    refine wp_mono (setDCSignalOn_spec h t) ?_
    intro _ s₁ h₁
    have hlocos : s₁.locos = s.locos := by rw [h₁.rest]
    refine wp_mono (ih (by rw [hlocos]; exact h)) ?_
    intro _ s₂ h₂
    exact h₁.trans h₂

end TrackManager

/-! ## Speed reminders -/

namespace DCC

/-- A change of speed is due: the target is not reached and there are steps to take. -/
def Due (s : Station) (slot : LocoSlot) (now : UInt32) : Prop :=
  slot.targetSpeed ≠ slot.speedCode ∧ 0 < ticks s slot now

instance (s : Station) (slot : LocoSlot) (now : UInt32) : Decidable (Due s slot now) :=
  inferInstanceAs (Decidable (_ ∧ _))

/-- The speed code that a reminder sends. -/
def reminderCode (s : Station) (slot : LocoSlot) (now : UInt32) : UInt8 :=
  if Due s slot now then nextSpeedCode slot (ticks s slot now) else slot.speedCode

/-- What the speed reminder of root `l` with followers `zs` does. -/
structure Reminded (now : UInt32) (l : Addr) (zs : List Addr) (s s' : Station) : Prop where
  locos : Retuned s.locos s'.locos
  other : ∀ b, b ∉ l :: zs → s'.locos.mem b = s.locos.mem b
  speed : ∀ b ∈ l :: zs, (s'.locos.mem b).speedCode = reminderCode s (s.locos.mem l) now
  driven : Due s (s.locos.mem l) now → s.estopIsLocked = false → ∀ t : Nat, ∃ frequency,
    s'.tracks[t]? = (s.tracks[t]?).map fun driver : MotorDriver =>
      if driver.Hears (s.locos.mem l).loco.toInt16 then
        { driver with signal := some (reminderCode s (s.locos.mem l) now, frequency) }
      else driver
  quiet : ¬ (Due s (s.locos.mem l) now ∧ s.estopIsLocked = false) → s'.tracks = s.tracks
  rest : s' = { s with
    locos := s'.locos, queue := s'.queue, tracks := s'.tracks, dcSignals := s'.dcSignals }

/-- Between the change of the root's speed and its packet: the tracks have been driven, unless the
stop is locked. -/
structure Moving (now : UInt32) (l : Addr) (s s₂ : Station) : Prop where
  locos : s₂.locos =
    s.locos.write l ((s.locos.mem l).setSpeedCode (reminderCode s (s.locos.mem l) now))
  rest : s₂ = { s with locos := s₂.locos, tracks := s₂.tracks, dcSignals := s₂.dcSignals }
  driven : s.estopIsLocked = false → ∀ t : Nat, ∃ frequency,
    s₂.tracks[t]? = (s.tracks[t]?).map fun driver : MotorDriver =>
      if driver.Hears (s.locos.mem l).loco.toInt16 then
        { driver with signal := some (reminderCode s (s.locos.mem l) now, frequency) }
      else driver
  quiet : s.estopIsLocked ≠ false → s₂.tracks = s.tracks

theorem Moving.retuned {now : UInt32} {s₂ : Station} (h : Moving now l s s₂) :
    Retuned s.locos s₂.locos := by
  rw [h.locos]
  exact Retuned.write _ l _ rfl

/-- The tracks are driven at the root's new speed. -/
theorem wp_driveRoot (h : Lists s.locos xs ys) (now : UInt32) :
    wp F (when (s.estopIsLocked = false) (TrackManager.setDCSignal
        (s.locos.mem l).loco.toInt16 (reminderCode s (s.locos.mem l) now)))
      (fun _ s₂ => Moving now l s s₂)
      { s with
        locos := s.locos.write l
          ((s.locos.mem l).setSpeedCode (reminderCode s (s.locos.mem l) now)) } := by
  apply wp_when
  · intro hunlocked
    have hret : Retuned s.locos (s.locos.write l
        ((s.locos.mem l).setSpeedCode (reminderCode s (s.locos.mem l) now))) :=
      Retuned.write _ l _ rfl
    refine wp_mono (TrackManager.setDCSignal_spec (hret.lists h)) ?_
    intro _ s₂ hs₂
    refine ⟨by rw [hs₂.rest], by rw [hs₂.rest], ?_, fun hlocked => absurd hunlocked hlocked⟩
    intro _ t
    obtain ⟨frequency, ht⟩ := hs₂.tracks t
    refine ⟨frequency, ht.trans ?_⟩
    cases htrack : s.tracks[t]? with
    | none => rfl
    | some driver =>
      have hlt : t < s.tracks.length := (List.getElem?_eq_some_iff.mp htrack).1
      simp [hlt]
  · intro hlocked
    exact ⟨rfl, rfl, fun hunlocked => absurd hunlocked hlocked, fun _ => rfl⟩

/-- A speed reminder sends a speed to a whole consist. If a change is due, the tracks are driven and the
root takes the time before. -/
theorem wp_remindSpeed_setThrottle2 {now : UInt32} {Q : Unit → Station → Prop} (h : Lists s.locos xs ys)
    (hl : l ∈ xs)
    (hmoved : ∀ s₂, Due s (s.locos.mem l) now → Moving now l s s₂ →
      Retuned s.locos (s₂.locos.write l ((s₂.locos.mem l).setMomentumBase now)) →
      wp F (setThrottle2 l (reminderCode s (s.locos.mem l) now)) Q
        { s₂ with locos := s₂.locos.write l ((s₂.locos.mem l).setMomentumBase now) })
    (hsame : ¬ Due s (s.locos.mem l) now → wp F (setThrottle2 l (s.locos.mem l).speedCode) Q s) :
    wp F (remindSpeed l now) Q s := by
  have hlive := h.live_inUse hl
  simp only [remindSpeed, wp_bind]
  rw [wp_read hlive]
  simp only [wp_get]
  by_cases hdue : Due s (s.locos.mem l) now
  · rw [if_pos (show _ ∧ _ from hdue)]
    have hcode : nextSpeedCode (s.locos.mem l) (ticks s (s.locos.mem l) now) =
        reminderCode s (s.locos.mem l) now := (if_pos hdue).symm
    rw [wp_bind, wp_write hlive, hcode]
    simp only [wp_bind]
    refine wp_mono (wp_driveRoot h now) ?_
    intro _ s₂ hs₂
    rw [wp_write ((hs₂.retuned.lists h).live_inUse hl)]
    exact hmoved s₂ hdue hs₂ (hs₂.retuned.trans (Retuned.write _ l _ rfl))
  · rw [if_neg (show ¬ (_ ∧ _) from hdue)]
    exact hsame hdue

/-- **A rule for a speed reminder.** If a change is due, the tracks are driven, the root takes the time,
and the new speed goes to the whole consist; otherwise the old one does. -/
theorem wp_remindSpeed {now : UInt32} {Q : Unit → Station → Prop} (h : Lists s.locos xs ys)
    (hzs : Forest.Chain xs s.locos.leadOf s.locos.consistNextOf l zs)
    (hmoved : ∀ s₂ s', Due s (s.locos.mem l) now → Moving now l s s₂ →
      Retuned s.locos (s₂.locos.write l ((s₂.locos.mem l).setMomentumBase now)) →
      Updated (l :: zs) (fun slot => slot.setSpeedCode (reminderCode s (s.locos.mem l) now))
        { s₂ with locos := s₂.locos.write l ((s₂.locos.mem l).setMomentumBase now) } s' → Q () s')
    (hsame : ∀ s', ¬ Due s (s.locos.mem l) now →
      Updated (l :: zs) (fun slot => slot.setSpeedCode (s.locos.mem l).speedCode) s s' → Q () s') :
    wp F (remindSpeed l now) Q s := by
  refine wp_remindSpeed_setThrottle2 h hzs.mem (fun s₂ hdue hs₂ hret => ?_) fun hdue => ?_
  · have hzs' : Forest.Chain xs
        (s₂.locos.write l ((s₂.locos.mem l).setMomentumBase now)).leadOf
        (s₂.locos.write l ((s₂.locos.mem l).setMomentumBase now)).consistNextOf l zs := by
      rw [funext hret.leadOf, funext hret.consistNextOf]
      exact hzs
    exact wp_mono (setThrottle2_spec (hret.lists h) hzs' _) fun _ s' hs' => hmoved s₂ s' hdue hs₂ hret hs'
  · exact wp_mono (setThrottle2_spec h hzs _) fun _ s' hs' => hsame s' hdue hs'

/-- **A speed reminder** moves the speed of a root if a change is due, and repeats it. -/
theorem remindSpeed_spec (h : Lists s.locos xs ys)
    (hzs : Forest.Chain xs s.locos.leadOf s.locos.consistNextOf l zs) (now : UInt32) :
    wp F (remindSpeed l now) (fun _ s' => Reminded now l zs s s') s := by
  refine wp_remindSpeed h hzs (fun s₂ s' hdue hs₂ hret hs' => ?_) fun s' hdue hs' => ?_
  · have htracks : s'.tracks = s₂.tracks := by rw [hs'.rest]
    refine ⟨hret.trans (hs'.retuned fun _ => rfl), ?_, ?_, ?_, ?_, by rw [hs'.rest, hs₂.rest]⟩
    · intro b hb
      have hbl : b ≠ l := fun heq => hb (heq ▸ List.mem_cons_self)
      rw [hs'.locos, mem_mapSlots_of_not_mem hb]
      show (s₂.locos.write l _).mem b = _
      rw [mem_write_of_ne hbl, hs₂.locos, mem_write_of_ne hbl]
    · intro b hb
      rw [hs'.locos, mem_mapSlots_of_mem hb]
      rfl
    · intro _ hunlocked
      rw [htracks]
      exact hs₂.driven hunlocked
    · intro hno
      rw [htracks]
      exact hs₂.quiet fun hunlocked => hno ⟨hdue, hunlocked⟩
  · have hcode : reminderCode s (s.locos.mem l) now = (s.locos.mem l).speedCode := if_neg hdue
    refine ⟨hs'.retuned fun _ => rfl, ?_, ?_, fun hd => absurd hd hdue, ?_, by rw [hs'.rest]⟩
    · intro b hb
      rw [hs'.locos, mem_mapSlots_of_not_mem hb]
    · intro b hb
      rw [hs'.locos, mem_mapSlots_of_mem hb, hcode]
      rfl
    · intro _
      rw [hs'.rest]

end DCC

end CommandStation
