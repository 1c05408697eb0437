import CommandStation.DCC.Run

/-!
# Operations that leave the reminder loop alone

Apart from the reminder loop itself and the two calls that forget locos, no operation touches
`loopStatus` and `nextLocoReminder`. It may put new slots to the front of the list, which sets
`chainModified`; if it does not, the mark is as it was before. `Extended` is this relation between
the states before and after an operation.
-/

namespace CommandStation

open CommandStation.Lib LocoTable

/-- New slots are in front of the old ones; without new ones the mark is unchanged. -/
def LocoTable.Extended (t t' : LocoTable) : Prop :=
  ∀ xs ys, Lists t xs ys → ∃ new ys', Lists t' (new ++ xs) ys' ∧
    (new = [] → t'.chainModified = t.chainModified)

instance : Std.Refl LocoTable.Extended := ⟨fun _ _ ys h => ⟨[], ys, h, fun _ => rfl⟩⟩

instance : IsTrans LocoTable LocoTable.Extended := by
  refine ⟨fun t t' t'' h h' xs ys hl => ?_⟩
  obtain ⟨new, ys', hl', hmark⟩ := h xs ys hl
  obtain ⟨new', ys'', hl'', hmark'⟩ := h' (new ++ xs) ys' hl'
  refine ⟨new' ++ new, ys'', by rwa [List.append_assoc], fun hnil => ?_⟩
  rw [List.append_eq_nil_iff] at hnil
  rw [hmark' hnil.1, hmark hnil.2]

instance : SlotFrame LocoTable.Extended where
  write _ _ _ hnext hloco _ ys h := ⟨[], ys, h.write hnext hloco, fun _ => rfl⟩
  getSlot locoId autoCreate t := by
    rw [wp_iff_forall]
    intro r t' hrun xs ys h
    have hgot := wp_iff_forall.mp (getSlot_spec h locoId autoCreate) r t' hrun
    cases hgot with
    | zero _ => exact ⟨[], ys, h, fun _ => rfl⟩
    | found _ _ _ => exact ⟨[], ys, h, fun _ => rfl⟩
    | unknown _ _ _ => exact ⟨[], ys, h, fun _ => rfl⟩
    | full _ _ _ _ => exact ⟨[], ys, h, fun _ => rfl⟩
    | @created a _ _ _ _ _ hcreated =>
      obtain ⟨ys', hlists⟩ := hcreated.lists
      exact ⟨[a], ys', hlists, fun hno => by cases hno⟩

/-- The reminder loop goes on where it was, unless there are new slots. -/
structure Extended (s s' : Station) : Prop where
  locos : s.locos.Extended s'.locos
  loopStatus : s'.loopStatus = s.loopStatus
  reminder : s'.nextLocoReminder = s.nextLocoReminder

namespace Extended

theorem refl (s : Station) : Extended s s := ⟨Std.Refl.refl s.locos, rfl, rfl⟩

/-- The loco table is not touched. -/
theorem of_same {s s' : Station} (hlocos : s'.locos = s.locos)
    (hstatus : s'.loopStatus = s.loopStatus)
    (hreminder : s'.nextLocoReminder = s.nextLocoReminder) : Extended s s' :=
  ⟨by rw [hlocos]; exact Std.Refl.refl s.locos, hstatus, hreminder⟩

instance : Std.Refl Extended := ⟨refl⟩

instance : IsTrans Station Extended where
  trans _ _ _ h h' := ⟨IsTrans.trans _ _ _ h.locos h'.locos, h'.loopStatus.trans h.loopStatus,
    h'.reminder.trans h.reminder⟩

end Extended

section Rules

variable {α : Type}

theorem extended_modify {g : Station → Station} (hlocos : ∀ s, (g s).locos = s.locos)
    (hstatus : ∀ s, (g s).loopStatus = s.loopStatus)
    (hreminder : ∀ s, (g s).nextLocoReminder = s.nextLocoReminder) :
    Preserves Extended (modify g : Dcc PUnit) :=
  preserves_modify fun s => Extended.of_same (hlocos s) (hstatus s) (hreminder s)

theorem extended_onSlots {m : Slots α} (h : Preserves LocoTable.Extended m) :
    Preserves Extended (onSlots m) := by
  intro s
  simp only [wp_onSlots]
  exact wp_mono (h s.locos) fun _ _ hlocos => ⟨hlocos, rfl, rfl⟩

theorem extended_readSlot (a : Addr) : Preserves Extended (onSlots (readSlot a)) :=
  extended_onSlots (preserves_readSlot a)

/-- Writes that leave the links and the loco of a slot. -/
theorem extended_place (a : Addr) {f : LocoSlot → LocoSlot}
    (hf : ∀ slot, (f slot).place = slot.place) : Preserves LocoTable.Extended (writeSlot a f) := by
  apply frame_writeSlot
  · intro slot
    have hnext := congrArg LocoSlot.next (hf slot)
    exact hnext
  · intro slot
    have hloco := congrArg LocoSlot.loco (hf slot)
    exact hloco

theorem extended_writeSlot (a : Addr) {f : LocoSlot → LocoSlot}
    (hf : ∀ slot, (f slot).place = slot.place) : Preserves Extended (onSlots (writeSlot a f)) :=
  extended_onSlots (extended_place a hf)

theorem extended_schedule (c : DCCQueue.Call) : Preserves Extended (schedule c) :=
  extended_modify (fun _ => rfl) (fun _ => rfl) fun _ => rfl

theorem extended_followSlots {β : Type} {body : Addr → β → Dcc (Option Addr × β)}
    (hbody : ∀ a r, Preserves Extended (body a r)) (start : Option Addr) (r : β) :
    Preserves Extended (followSlots body start r) :=
  preserves_bind preserves_get fun _ => preserves_loop hbody _ start r

/-- The operations that ask for a slot and go on with it. -/
theorem extended_askSlot {locoId : UInt16} {create : Bool} {f : Option Addr → Dcc α}
    (hnone : Preserves Extended (f none)) (hsome : ∀ a, Preserves Extended (f (some a))) :
    Preserves Extended (onSlots (LocoSlot.getSlot locoId create) >>= f) := by
  apply preserves_bind (extended_onSlots (SlotFrame.getSlot locoId create))
  intro slot
  cases slot with
  | none => exact hnone
  | some a => exact hsome a

/-- A question to the table: the slot of a loco is looked up and read. -/
theorem extended_lookup {locoId : UInt16} (g : LocoSlot → α) (d : α) :
    Preserves Extended (onSlots do
      let slot ← LocoSlot.getSlot locoId false
      match slot with
      | some a =>
        let slot ← readSlot a
        pure (g slot)
      | none => pure d) := by
  apply extended_onSlots
  apply preserves_bind (SlotFrame.getSlot locoId false)
  intro slot
  cases slot with
  | none => exact preserves_pure d
  | some a => exact preserves_bind (preserves_readSlot a) fun slot => preserves_pure _

end Rules

/-! ## Tracks -/

namespace TrackManager

theorem extended_getThrottleFrequency (cab : UInt16) :
    Preserves Extended (DCC.getThrottleFrequency cab) :=
  preserves_bind preserves_get fun _ => preserves_ite (fun _ => preserves_pure 0) fun _ =>
    extended_lookup _ _

theorem extended_setTrack (t : Nat) (f : MotorDriver → MotorDriver) :
    Preserves Extended (setTrack t f) :=
  extended_modify (fun _ => rfl) (fun _ => rfl) fun _ => rfl

theorem extended_driveTrack (t : Nat) (speedcode frequency : UInt8) :
    Preserves Extended (driveTrack t speedcode frequency) := by
  apply preserves_modify
  intro s
  cases s.tracks[t]? with
  | none => exact Extended.refl s
  | some driver =>
    simp only
    split
    · exact Extended.refl s
    · exact Extended.of_same rfl rfl rfl

theorem extended_detachDCSignal (t : Nat) : Preserves Extended (detachDCSignal t) := by
  apply preserves_bind preserves_get
  intro s
  cases s.platform with
  | uno => exact extended_driveTrack t 128 0
  | avr => exact extended_driveTrack t 128 0
  | arm => exact extended_setTrack t _
  | esp32 => exact extended_setTrack t _

theorem extended_applyDCSpeed (t : Nat) (dcAddr : Int16) :
    Preserves Extended (applyDCSpeed t dcAddr) :=
  preserves_bind (extended_lookup _ _) fun _ =>
    preserves_bind (extended_getThrottleFrequency _) fun _ => extended_driveTrack t _ _

theorem extended_forEachTrack {body : Nat → Dcc Unit} (h : ∀ t, Preserves Extended (body t)) :
    Preserves Extended (forEachTrack body) :=
  preserves_bind preserves_get fun _ => preserves_runProg h _

/-- The loops over the tracks look at the driver first. -/
theorem extended_onDriver {t : Nat} {f : Station → MotorDriver → Dcc Unit}
    (h : ∀ s driver, Preserves Extended (f s driver)) :
    Preserves Extended (do
      let s ← get
      match s.tracks[t]? with
      | none => pure ()
      | some driver => f s driver) := by
  apply preserves_bind preserves_get
  intro s
  cases s.tracks[t]? with
  | none => exact preserves_pure ()
  | some driver => exact h s driver

theorem extended_setDCSignal (cab : Int16) (speedbyte : UInt8) :
    Preserves Extended (setDCSignal cab speedbyte) := by
  refine extended_forEachTrack fun t => extended_onDriver fun s driver => ?_
  refine preserves_ite (fun _ => preserves_pure ()) fun _ => preserves_ite (fun _ => ?_)
    fun _ => preserves_pure ()
  exact preserves_bind (extended_getThrottleFrequency _) fun _ => extended_driveTrack t _ _

theorem extended_clearPrevious (trackToSet : Nat) (oldAddr : Int16) (mode : UInt8)
    (dcAddr : Int16) : Preserves Extended (clearPrevious trackToSet oldAddr mode dcAddr) := by
  apply preserves_ite
  · intro _
    exact preserves_bind (preserves_when fun _ => extended_detachDCSignal trackToSet) fun _ =>
      extended_setTrack trackToSet _
  · intro _
    exact preserves_bind (extended_detachDCSignal trackToSet) fun _ =>
      extended_setTrack trackToSet _

/-- A change of track mode keeps the slots behind any that are new. -/
theorem extended_setTrackMode (trackToSet : Nat) (mode : UInt8) (dcAddr : Int16)
    (offAtChange : Bool) :
    Preserves Extended (setTrackMode trackToSet mode dcAddr offAtChange) := by
  have hrevoke : ∀ t, Preserves Extended (revokeProg trackToSet t) := fun t =>
    preserves_ite (fun _ => preserves_pure ()) fun _ => extended_setTrack t _
  apply preserves_bind preserves_get
  intro s
  cases s.tracks[trackToSet]? with
  | none => exact preserves_pure false
  | some driver =>
    refine preserves_ite (fun _ => preserves_pure false) fun _ => ?_
    refine preserves_bind (preserves_when fun _ => extended_forEachTrack hrevoke) fun _ => ?_
    refine preserves_bind (extended_clearPrevious _ _ _ _) fun _ => ?_
    refine preserves_bind (extended_setTrack _ _) fun _ => ?_
    refine preserves_bind (preserves_when fun _ => extended_applyDCSpeed _ _) fun _ => ?_
    exact preserves_bind (preserves_when fun _ => extended_setTrack _ _) fun _ =>
      preserves_pure true

theorem extended_setTrackPower (trackmodeToMatch : UInt8) (powermode : PowerMode) :
    Preserves Extended (setTrackPower trackmodeToMatch powermode) := by
  refine extended_forEachTrack fun t => extended_onDriver fun s driver => ?_
  refine preserves_ite (fun _ => ?_) fun _ => preserves_pure ()
  exact preserves_bind (preserves_when fun _ => extended_applyDCSpeed t _) fun _ =>
    extended_setTrack t _

theorem extended_setPowerOfTrack (powermode : PowerMode) (t : Nat) :
    Preserves Extended (setPowerOfTrack powermode t) := by
  refine extended_onDriver fun s driver => preserves_ite (fun _ => extended_setTrack t _)
    fun _ => ?_
  exact preserves_bind (preserves_when fun _ => extended_applyDCSpeed t _) fun _ =>
    extended_setTrack t _

end TrackManager

/-! ## Throttles and functions -/

namespace DCC

theorem extended_setThrottleDCC (slot : Option Addr) (speedCode : UInt8) :
    Preserves Extended (setThrottleDCC slot speedCode) := by
  have hsend : ∀ cab code, Preserves Extended (sendSpeed cab code) := fun cab code =>
    preserves_bind preserves_get fun _ => preserves_ite (fun _ => extended_schedule _)
      fun _ => extended_schedule _
  apply preserves_bind preserves_get
  intro s
  cases slot with
  | none => exact hsend 0 _
  | some a => exact preserves_bind (extended_readSlot a) fun slot => hsend slot.loco _

theorem extended_updateSlots (field : LocoSlot → Option Addr) {f : LocoSlot → LocoSlot}
    (hf : ∀ slot, (f slot).place = slot.place) {send : Addr → Dcc Unit}
    (hsend : ∀ a, Preserves Extended (send a)) (start : Option Addr) :
    Preserves Extended (updateSlots field f send start) := by
  apply extended_followSlots
  intro a _
  exact preserves_bind (extended_writeSlot a hf) fun _ => preserves_bind (hsend a) fun _ =>
    preserves_bind (extended_readSlot a) fun _ => preserves_pure _

theorem extended_setThrottle2 (slot : Addr) (speedCode : UInt8) :
    Preserves Extended (setThrottle2 slot speedCode) := by
  apply extended_updateSlots
  · exact fun _ => rfl
  · exact fun a => extended_setThrottleDCC (some a) speedCode

theorem extended_estopAll : Preserves Extended estopAll := by
  refine preserves_bind (extended_setThrottleDCC none 1) fun _ =>
    preserves_bind (TrackManager.extended_setDCSignal 0 1) fun _ =>
      preserves_bind preserves_get fun _ => ?_
  apply extended_updateSlots
  · exact fun _ => rfl
  · exact fun _ => preserves_pure ()

theorem extended_copyTarget (start : Option Addr) (speedCode : UInt8) :
    Preserves Extended (copyTarget start speedCode) := by
  apply extended_updateSlots
  · exact fun _ => rfl
  · exact fun _ => preserves_pure ()

theorem extended_throttleTo (slot : Addr) (cab : UInt16) (tSpeed speedCode : UInt8)
    (now : UInt32) : Preserves Extended (throttleTo slot cab tSpeed speedCode now) := by
  refine preserves_bind (extended_writeSlot slot fun _ => rfl) fun _ =>
    preserves_bind (extended_readSlot slot) fun lead =>
      preserves_bind (extended_copyTarget _ speedCode) fun _ =>
        preserves_bind (extended_readSlot slot) fun lead' =>
          preserves_bind preserves_get fun s => ?_
  apply preserves_ite
  · intro _
    exact extended_writeSlot slot fun _ => rfl
  · intro _
    exact preserves_bind (extended_setThrottle2 slot speedCode) fun _ =>
      preserves_when fun _ => TrackManager.extended_setDCSignal _ _

theorem extended_setThrottle (cab : UInt16) (tSpeed : UInt8) (tDirection : Bool) (now : UInt32) :
    Preserves Extended (setThrottle cab tSpeed tDirection now) := by
  apply preserves_ite
  · intro _
    exact preserves_bind extended_estopAll fun _ => preserves_pure true
  · intro _
    apply extended_askSlot (preserves_pure false)
    intro a
    apply preserves_bind (extended_readSlot a)
    intro slot
    refine preserves_ite (fun _ => preserves_pure true) fun _ =>
      preserves_ite (fun _ => preserves_pure true) fun _ => ?_
    exact preserves_bind (extended_throttleTo a cab tSpeed _ now) fun _ => preserves_pure true

theorem extended_estopLock (lock : Bool) : Preserves Extended (estopLock lock) := by
  refine preserves_bind preserves_get fun s => preserves_ite (fun _ => preserves_pure ())
    fun _ => ?_
  refine preserves_bind (extended_modify (fun _ => rfl) (fun _ => rfl) fun _ => rfl) fun _ => ?_
  exact preserves_when fun _ => preserves_bind (extended_setThrottleDCC none 1) fun _ =>
    TrackManager.extended_setDCSignal 0 1

theorem extended_setFn (cab : Int) (functionNumber : Int16) (on : Bool) :
    Preserves Extended (setFn cab functionNumber on) := by
  refine preserves_ite (fun _ => preserves_pure false) fun _ => ?_
  apply preserves_bind (preserves_when fun _ => extended_schedule _)
  intro _
  refine preserves_ite (fun _ => preserves_pure true) fun _ => ?_
  apply extended_askSlot (preserves_pure false)
  intro a
  exact preserves_bind (extended_writeSlot a (place_withFunction _ on)) fun _ =>
    preserves_pure true

theorem extended_setDCFreq (cab : Int) (freq : UInt8) : Preserves Extended (setDCFreq cab freq) := by
  refine preserves_ite (fun _ => preserves_pure ()) fun _ => ?_
  exact extended_askSlot (preserves_pure ()) fun a => extended_writeSlot a fun _ => rfl

theorem extended_setMomentum (locoId : Int) (accelerating decelerating : Int16) :
    Preserves Extended (setMomentum locoId accelerating decelerating) := by
  refine preserves_ite (fun _ => preserves_pure false) fun _ => preserves_ite (fun _ => ?_)
    fun _ => preserves_ite (fun _ => preserves_pure false) fun _ =>
      preserves_ite (fun _ => preserves_pure false) fun _ => ?_
  · refine preserves_ite (fun _ => preserves_pure false) fun _ => ?_
    exact preserves_bind (extended_modify (fun _ => rfl) (fun _ => rfl) fun _ => rfl)
      fun _ => preserves_pure true
  · apply extended_askSlot (preserves_pure false)
    intro a
    exact preserves_bind (extended_writeSlot a fun _ => rfl) fun _ => preserves_pure true

/-- A reminder keeps the slots behind any that are new. -/
theorem extended_issueReminder (a : Addr) (now : UInt32) :
    Preserves Extended (issueReminder a now) := by
  refine preserves_bind (extended_readSlot a) fun slot => preserves_bind preserves_get fun s => ?_
  apply preserves_ite
  · intro _
    refine preserves_ite (fun _ => preserves_pure false) fun _ => ?_
    refine preserves_bind (preserves_bind (extended_readSlot a) fun slot =>
      preserves_bind preserves_get fun s => ?_) fun _ => preserves_pure true
    -- the speed of a loco that is on its way to the target is moved first
    refine preserves_ite (fun _ => ?_) fun _ => extended_setThrottle2 a _
    refine preserves_bind (extended_writeSlot a fun _ => rfl) fun _ => ?_
    refine preserves_bind (preserves_when fun _ => TrackManager.extended_setDCSignal _ _)
      fun _ => ?_
    exact preserves_bind (extended_writeSlot a fun _ => rfl) fun _ => extended_setThrottle2 a _
  · intro _
    cases groupOfLoopStatus s.loopStatus with
    | none => exact preserves_pure false
    | some group =>
      refine preserves_ite (fun _ => ?_) fun _ => preserves_pure false
      exact preserves_bind (extended_schedule _) fun _ => preserves_pure true

theorem extended_setAccessory (address : Int) (port : UInt8) (gate : Bool) (onoff : UInt8) :
    Preserves Extended (setAccessory address port gate onoff) :=
  preserves_ite (fun _ => preserves_pure ()) fun _ => preserves_ite
    (fun _ => extended_schedule _) fun _ => preserves_ite
      (fun _ => extended_schedule _) fun _ => extended_schedule _

end DCC

/-! ## The decoder and the throttle clients -/

namespace DCCDecoder

/-- The updates of the sniffer. -/
theorem extended_update {locoId : UInt16} {same : LocoSlot → Prop}
    [∀ slot, Decidable (same slot)] {f : LocoSlot → LocoSlot}
    (hf : ∀ slot, (f slot).place = slot.place) :
    Preserves LocoTable.Extended (do
      let slot ← LocoSlot.getSlot locoId true
      let a ← nonNull slot
      let slot ← readSlot a
      if same slot then pure false
      else
        writeSlot a f
        pure true) := by
  refine preserves_bind (SlotFrame.getSlot locoId true) fun slot =>
    preserves_bind (preserves_nonNull slot) fun a =>
      preserves_bind (preserves_readSlot a) fun slot =>
        preserves_ite (fun _ => preserves_pure false) fun _ => ?_
  exact preserves_bind (extended_place a hf) fun _ => preserves_pure true

theorem extended_updateLoco (loco : UInt16) (speedCode : UInt8) :
    Preserves Extended (updateLoco loco speedCode) := by
  apply extended_onSlots
  refine preserves_ite (fun _ => preserves_pure true) fun _ => ?_
  apply extended_update
  exact fun _ => rfl

theorem extended_updateFunc (loco : UInt16) (func : UInt8) (shift : Nat) :
    Preserves Extended (updateFunc loco func shift) := by
  apply extended_onSlots
  apply extended_update
  exact fun _ => rfl

theorem extended_speedChange (addr : UInt16) (sniffed speed : UInt8) (direction : Bool)
    (now : UInt32) : Preserves Extended (speedChange addr sniffed speed direction now) := by
  refine preserves_bind (extended_updateLoco addr sniffed) fun changed =>
    preserves_ite (fun _ => ?_) fun _ => preserves_pure false
  exact preserves_bind (DCC.extended_setThrottle addr speed direction now) fun _ =>
    preserves_pure true

theorem extended_funcmapFrom (cab i : Int16) (n : Nat) (value : UInt8) :
    Preserves Extended (DCCEXParser.funcmapFrom cab i n value) := by
  induction n generalizing i value with
  | zero => exact preserves_pure true
  | succ n ih =>
    exact preserves_bind (DCC.extended_setFn _ _ _) fun done =>
      preserves_ite (fun _ => ih _ _) fun _ => preserves_pure false

theorem extended_functionChange (addr : UInt16) (func : UInt8) (shift : Nat)
    (value fstart fstop : UInt8) :
    Preserves Extended (functionChange addr func shift value fstart fstop) := by
  refine preserves_bind (extended_updateFunc addr func shift) fun changed =>
    preserves_ite (fun _ => ?_) fun _ => preserves_pure false
  exact preserves_bind (extended_funcmapFrom _ _ _ _) fun _ => preserves_pure true

theorem extended_mobile (addr : UInt16) (instr0 instr1 : UInt8) (now : UInt32) :
    Preserves Extended (mobile addr instr0 instr1 now) := by
  unfold mobile
  extract_lets group
  refine preserves_ite (fun _ => preserves_ite (fun _ => extended_speedChange _ _ _ _ _)
    fun _ => preserves_pure false) fun _ => ?_
  refine preserves_ite (fun _ => extended_speedChange _ _ _ _ _) fun _ => ?_
  refine preserves_ite (fun _ => extended_functionChange _ _ _ _ _ _) fun _ => ?_
  refine preserves_ite (fun _ => preserves_ite (fun _ => extended_functionChange _ _ _ _ _ _)
    fun _ => extended_functionChange _ _ _ _ _ _) fun _ => ?_
  refine preserves_ite (fun _ => preserves_bind (extended_functionChange _ _ _ _ _ _)
    fun _ => extended_functionChange _ _ _ _ _ _) fun _ => ?_
  exact preserves_ite (fun _ => preserves_bind (extended_functionChange _ _ _ _ _ _)
    fun _ => extended_functionChange _ _ _ _ _ _) fun _ => preserves_pure false

theorem extended_parse (p : DCCPacket) (now : UInt32) : Preserves Extended (parse p now) := by
  refine preserves_bind preserves_get fun s => preserves_ite (fun _ => preserves_pure false)
    fun _ => preserves_ite (fun _ => preserves_pure false) fun _ => preserves_ite (fun _ => ?_)
      fun _ => preserves_ite (fun _ => ?_) fun _ => ?_
  · exact preserves_ite (fun _ => preserves_pure false) fun _ => extended_mobile _ _ _ _
  · exact preserves_ite (fun _ => preserves_pure false) fun _ => extended_mobile _ _ _ _
  · refine preserves_ite (fun _ => ?_) fun _ => preserves_pure false
    exact preserves_bind (DCC.extended_setAccessory _ _ _ _) fun _ => preserves_pure true

end DCCDecoder

namespace WiThrottle

theorem extended_sendFunctions (throttleChar : Char) (locoid : Int) (fKeys : List Nat) :
    Preserves Extended (sendFunctions throttleChar locoid fKeys) := by
  induction fKeys with
  | nil => exact preserves_pure ""
  | cons fKey rest ih =>
    refine preserves_bind ?_ fun fstate => preserves_bind ih fun lines => preserves_pure _
    exact preserves_ite (fun _ => preserves_pure none) fun _ => extended_lookup _ _

theorem extended_addLoco (client : WiThrottle) (throttleChar lengthChar : Char) (locoid : Int) :
    Preserves Extended (addLoco client throttleChar lengthChar locoid) := by
  refine preserves_ite (fun _ => preserves_pure _) fun _ => preserves_ite
    (fun _ => preserves_pure _) fun _ => preserves_ite (fun _ => preserves_pure _) fun _ =>
      preserves_ite (fun _ => preserves_pure _) fun _ => ?_
  refine extended_askSlot (preserves_pure _) fun a => ?_
  cases client.myLocos.findIdx? fun loco => loco.throttle == '\x00' with
  | none => exact preserves_pure _
  | some i =>
    refine preserves_bind ?_ fun functionMap =>
      preserves_bind (extended_sendFunctions throttleChar locoid _) fun functions =>
        preserves_pure _
    exact preserves_ite (fun _ => preserves_pure 0) fun _ => extended_lookup _ _

end WiThrottle

/-! ## All operations -/

/-- The operation works on the reminder loop or forgets locos. -/
def Op.reminds : Op → Bool
  | loop .. | forgetLoco _ | forgetAllLocos => true
  | _ => false

/-- **All other operations** leave the reminder loop alone. -/
theorem op_extended (op : Op) (hop : op.reminds = false) : Preserves Extended op.exec := by
  have hvoid : ∀ {m : Dcc Unit}, Preserves Extended m → Preserves Extended (do m; pure true) :=
    fun hm => preserves_bind hm fun _ => preserves_pure true
  cases op with
  | setThrottle cab tSpeed tDirection now => exact DCC.extended_setThrottle cab tSpeed _ now
  | setFn cab functionNumber on => exact DCC.extended_setFn cab functionNumber on
  | setDCFreq cab freq => exact hvoid (DCC.extended_setDCFreq cab freq)
  | setMomentum locoId accelerating decelerating => exact DCC.extended_setMomentum locoId _ _
  | estopAll => exact hvoid DCC.extended_estopAll
  | estopLock lock => exact hvoid (DCC.extended_estopLock lock)
  | loop windowOpen pendingAt remindAt forcedAt => cases hop
  | forgetLoco cab => cases hop
  | forgetAllLocos => cases hop
  | parseConsist ps =>
    exact preserves_bind (extended_onSlots (frame_parse ps)) fun _ => preserves_pure _
  | addLocoToConsist consistId locoId reversed =>
    exact extended_onSlots (frame_addLocoToConsist consistId locoId reversed)
  | deleteAnyConsist locoid => exact hvoid (extended_onSlots (frame_deleteAnyConsist locoid))
  | setAccessory address port gate onoff => exact hvoid (DCC.extended_setAccessory _ _ _ _)
  | setTrackMode track mode dcAddr offAtChange =>
    exact TrackManager.extended_setTrackMode track mode dcAddr offAtChange
  | setTrackPower trackmodeToMatch powermode =>
    exact hvoid (TrackManager.extended_setTrackPower trackmodeToMatch powermode)
  | setPowerOfTrack powermode track =>
    exact hvoid (TrackManager.extended_setPowerOfTrack powermode track)
  | setDCSignal cab speedbyte => exact hvoid (TrackManager.extended_setDCSignal cab speedbyte)
  | decoderOnOff on => exact hvoid (extended_modify (fun _ => rfl) (fun _ => rfl) fun _ => rfl)
  | decode packet now => exact DCCDecoder.extended_parse packet now
  | addThrottleLoco client throttleChar lengthChar locoid =>
    exact preserves_bind (WiThrottle.extended_addLoco client throttleChar lengthChar locoid)
      fun _ => preserves_pure _

end CommandStation
