import CommandStation.DCC.Calls
import CommandStation.DCC.Extended
import CommandStation.DCCDecoder.Echo

/-!
# Whom packets are for

The first byte of a packet says whether it is for all locos, for one loco, for an accessory or for
nobody. The address of a loco is built in several places from a number that none of them checks: it
comes out right for the numbers from 1 to 10239. A speed for the lead of a consist goes to the locos
behind it as well.
-/

namespace CommandStation

open CommandStation.Lib LocoTable

/-- The receiver of a packet. -/
inductive Recipient where
  | broadcast
  | short (address : Nat)
  | accessory
  | long (address : Nat)
  | reserved
  | idle
  deriving DecidableEq, Repr

namespace Recipient

/-- The receiver by the first bytes of a packet. -/
def ofBytes : List UInt8 → Option Recipient
  | [] => none
  | b :: rest =>
    if b = 0 then some broadcast
    else if b < 128 then some (short b.toNat)
    else if b < 192 then some accessory
    else if b < 232 then rest.head?.map fun low => long (256 * (b &&& 0x3F).toNat + low.toNat)
    else if b < 255 then some reserved
    else some idle

/-- A loco has a short address up to 127. -/
def ofLoco (cab : Nat) : Recipient := if cab ≤ 127 then short cab else long cab

end Recipient

/-- The packet of the call is for the loco `cab`. -/
def DCCQueue.Call.IsFor (cab : Nat) (c : DCCQueue.Call) : Prop :=
  Recipient.ofBytes c.bytes = some (.ofLoco cab)

variable {s s' : Station} {t t' : LocoTable} {a b : Addr} {P Q : DCCQueue.Call → Prop}

/-! ## Address bytes -/

namespace DCC

/-- A number of a loco that a packet can hold. -/
def InRange (cab : UInt16) : Prop := cab ≠ 0 ∧ cab ≤ 10239

instance (cab : UInt16) : Decidable (InRange cab) := inferInstanceAs (Decidable (_ ∧ _))

/-- The first bytes of a packet for a loco in range name this loco and no other. -/
theorem ofBytes_addressBytes {cab : UInt16} (h : InRange cab) (rest : List UInt8) :
    Recipient.ofBytes (addressBytes cab (highestShortAddr < cab.toNat) ++ rest) =
      some (.ofLoco cab.toNat) := by
  have hcab : cab.toNat ≤ 10239 := h.2
  have hpos : cab.toNat ≠ 0 := fun hzero => h.1 (UInt16.toNat_inj.mp hzero)
  by_cases hlong : highestShortAddr < cab.toNat
  · have hnot : ¬ cab.toNat ≤ 127 := Nat.not_le.mpr hlong
    have hbyte : ∀ h : UInt8, h < 0x28 → h ||| 0xC0 ≠ 0 ∧ ¬ h ||| 0xC0 < 128 ∧
        ¬ h ||| 0xC0 < 192 ∧ h ||| 0xC0 < 232 ∧ (h ||| 0xC0) &&& 0x3F = h :=
      byte_forall (by decide +kernel)
    have hhigh := toNat_highByte cab
    have hlt : (cab >>> 8).toUInt8 < 0x28 := by
      rw [UInt8.lt_iff_toNat_lt, hhigh]
      show cab.toNat / 256 < 40
      omega
    obtain ⟨h0, h128, h192, h232, hsix⟩ := hbyte _ hlt
    have hlow : cab.toUInt8.toNat = cab.toNat % 256 := UInt16.toNat_toUInt8 cab
    simp only [addressBytes, hlong, decide_true, if_true, List.cons_append, List.nil_append,
      Recipient.ofBytes, if_neg h0, if_neg h128, if_neg h192, if_pos h232, hsix, List.head?_cons,
      Option.map_some, hhigh, hlow, Nat.div_add_mod, Recipient.ofLoco, if_neg hnot]
  · have hshort : cab.toNat ≤ 127 := Nat.not_lt.mp hlong
    have hlow : cab.toUInt8.toNat = cab.toNat := by
      rw [UInt16.toNat_toUInt8]
      omega
    have h0 : cab.toUInt8 ≠ 0 := by
      intro hzero
      rw [hzero] at hlow
      exact hpos hlow.symm
    have h128 : cab.toUInt8 < 128 := by
      rw [UInt8.lt_iff_toNat_lt, hlow]
      exact Nat.lt_succ_of_le hshort
    simp only [addressBytes, hlong, decide_false, Bool.false_eq_true, if_false, List.cons_append,
      List.nil_append, Recipient.ofBytes, if_neg h0, if_pos h128, hlow, Recipient.ofLoco,
      if_pos hshort]

/-- An `int` from 1 to 10239 as an unsigned number. -/
theorem inRange_ofInt {cab : Int} (h : 1 ≤ cab ∧ cab ≤ 10239) :
    InRange (UInt16.ofInt cab) ∧ (UInt16.ofInt cab).toNat = cab.toNat := by
  have hnat : (UInt16.ofInt cab).toNat = cab.toNat := by
    rw [UInt16.ofInt, UInt16.toNat_ofNat']
    omega
  refine ⟨⟨?_, ?_⟩, hnat⟩
  · intro hzero
    rw [hzero] at hnat
    have : (0 : UInt16).toNat = 0 := rfl
    omega
  · rw [UInt16.le_iff_toNat_le, hnat]
    show cab.toNat ≤ 10239
    omega

theorem ofBytes_addressBytes_int {cab : Int} (h : 1 ≤ cab ∧ cab ≤ 10239) (rest : List UInt8) :
    Recipient.ofBytes (addressBytes (UInt16.ofInt cab) (highestShortAddr < cab) ++ rest) =
      some (.ofLoco cab.toNat) := by
  obtain ⟨hrange, hnat⟩ := inRange_ofInt h
  have hlong : (highestShortAddr : Int) < cab ↔ highestShortAddr < (UInt16.ofInt cab).toNat := by
    rw [hnat]
    omega
  have hbytes := ofBytes_addressBytes hrange rest
  rw [hnat] at hbytes
  simpa only [hlong, hnat] using hbytes

end DCC

/-! ## Sending -/

/-- Only packets with the property have joined the queues. -/
def Sent (P : DCCQueue.Call → Prop) (s s' : Station) : Prop :=
  ∃ calls, s'.queue = run DCCQueue.step s.queue calls ∧ ∀ c ∈ calls, P c

namespace Sent

theorem of_queue_eq (h : s'.queue = s.queue) : Sent P s s' := ⟨[], h, fun _ hc => by cases hc⟩

theorem mono (h : Sent P s s') (hP : ∀ c, P c → Q c) : Sent Q s s' := by
  obtain ⟨calls, hqueue, hcalls⟩ := h
  exact ⟨calls, hqueue, fun c hc => hP c (hcalls c hc)⟩

/-- No packet has the property, so none was sent. -/
theorem queue_eq (h : Sent (fun _ => False) s s') : s'.queue = s.queue := by
  obtain ⟨calls, hqueue, hcalls⟩ := h
  rw [List.eq_nil_iff_forall_not_mem.mpr hcalls] at hqueue
  exact hqueue

instance : Std.Refl (Sent P) := ⟨fun _ => of_queue_eq rfl⟩

instance : IsTrans Station (Sent P) := by
  refine ⟨fun s s' s'' h h' => ?_⟩
  obtain ⟨calls, hqueue, hcalls⟩ := h
  obtain ⟨calls', hqueue', hcalls'⟩ := h'
  refine ⟨calls ++ calls', by rw [hqueue', hqueue, run_append], ?_⟩
  intro c hc
  rcases List.mem_append.mp hc with hc | hc
  · exact hcalls c hc
  · exact hcalls' c hc

theorem onSlots {α : Type} (m : Slots α) : Preserves (Sent P) (onSlots m) :=
  preserves_zoom fun _ _ => of_queue_eq rfl

theorem schedule {c : DCCQueue.Call} (h : P c) : Preserves (Sent P) (schedule c) := by
  intro s
  rw [wp_schedule]
  exact ⟨[c], rfl, fun _ hc => List.mem_singleton.mp hc ▸ h⟩

end Sent

namespace DCC

/-- The packet is built from the address of `cab`. -/
theorem sent_addressed {cab : Int} (h : 1 ≤ cab ∧ cab ≤ 10239) (rest : List UInt8) (repeats : Nat) :
    Preserves (Sent (DCCQueue.Call.IsFor cab.toNat)) (schedule (.scheduleDCCPacket
      (addressBytes (UInt16.ofInt cab) (highestShortAddr < cab) ++ rest) repeats
      (UInt16.ofInt cab))) :=
  Sent.schedule (ofBytes_addressBytes_int h rest)

/-- What `setFn` sends is for its loco. -/
theorem sent_setFn {cab : Int} (h : 1 ≤ cab ∧ cab ≤ 10239) (functionNumber : Int16) (on : Bool) :
    Preserves (Sent (DCCQueue.Call.IsFor cab.toNat)) (setFn cab functionNumber on) := by
  apply preserves_ite
  · intro _
    exact preserves_pure false
  · intro _
    refine preserves_bind (preserves_when fun _ => sent_addressed h _ _) fun _ => ?_
    apply preserves_ite
    · intro _
      exact preserves_pure true
    · intro _
      refine preserves_bind (Sent.onSlots _) fun slot => ?_
      cases slot with
      | none => exact preserves_pure false
      | some a => exact preserves_bind (Sent.onSlots _) fun _ => preserves_pure true

theorem setFn_of_not_pos {cab : Int} (h : cab ≤ 0) (functionNumber : Int16) (on : Bool) :
    setFn cab functionNumber on = pure false := by
  unfold setFn
  rw [if_pos (Or.inl h)]

end DCC

/-! ## Consists -/

/-- The table and the queues are as before, apart from speeds and the like. -/
def Tuned (s s' : Station) : Prop := Retuned s.locos s'.locos ∧ s'.queue = s.queue

instance : Std.Refl Tuned := ⟨fun s => ⟨Retuned.refl s.locos, rfl⟩⟩

instance : IsTrans Station Tuned :=
  ⟨fun _ _ _ h h' => ⟨h.1.trans h'.1, h'.2.trans h.2⟩⟩

/-- Slot `b` is `a`, or comes behind it in its consist. -/
def LocoTable.Behind (t : LocoTable) : Addr → Addr → Prop :=
  Relation.ReflTransGen fun a b => t.consistNextOf a = some b

/-- The packet is a speed for the loco of slot `a`, or for one behind it in its consist. It reaches
that loco if there can be one of its number. -/
def LocoTable.IsSpeedFor (t : LocoTable) (a : Addr) (c : DCCQueue.Call) : Prop :=
  ∃ b, t.Behind a b ∧
    (∃ globalSpeedsteps speedCode, c = DCC.speedCall (t.mem b).loco globalSpeedsteps speedCode) ∧
    (DCC.InRange (t.mem b).loco → c.IsFor (t.mem b).loco.toNat)

theorem Retuned.isSpeedFor (h : Retuned t t') {c : DCCQueue.Call} :
    t'.IsSpeedFor a c ↔ t.IsSpeedFor a c := by
  have hnext : t'.consistNextOf = t.consistNextOf := funext h.consistNextOf
  unfold LocoTable.IsSpeedFor LocoTable.Behind
  rw [hnext]
  simp only [h.loco]

/-- Speeds have been sent to the consist of slot `a`. -/
def SpeedsSent (a : Addr) (s s' : Station) : Prop :=
  Retuned s.locos s'.locos ∧ Sent (s.locos.IsSpeedFor a) s s'

theorem Tuned.speedsSent (h : Tuned s s') : SpeedsSent a s s' := ⟨h.1, Sent.of_queue_eq h.2⟩

instance : Std.Refl (SpeedsSent a) := ⟨fun s => Tuned.speedsSent (Std.Refl.refl s)⟩

instance : IsTrans Station (SpeedsSent a) := by
  refine ⟨fun s s' s'' h h' => ⟨h.1.trans h'.1, IsTrans.trans _ _ _ h.2 ?_⟩⟩
  exact h'.2.mono fun c hc => h.1.isSpeedFor.mp hc

section Tuning

/-- A write that leaves the place of the slot. -/
theorem tuned_writeSlot (a : Addr) {f : LocoSlot → LocoSlot}
    (hf : ∀ slot, (f slot).place = slot.place) : Preserves Tuned (onSlots (writeSlot a f)) := by
  intro s
  simp only [wp_onSlots]
  unfold writeSlot
  simp only [wp_bind, wp_get]
  split
  · exact ⟨Retuned.write _ _ _ (hf _), rfl⟩
  · trivial

theorem wp_readSlot_any {R : LocoSlot → LocoTable → Prop} (h : R (t.mem a) t) :
    wp (fun _ => True) (readSlot a) R t := by
  unfold readSlot
  simp only [wp_bind, wp_get]
  split
  · exact h
  · trivial

theorem wp_read_any {R : LocoSlot → Station → Prop} (h : R (s.locos.mem a) s) :
    wp (fun _ => True) (onSlots (readSlot a)) R s := by
  simp only [wp_onSlots]
  exact wp_readSlot_any h

theorem tuned_readSlot (a : Addr) : Preserves Tuned (onSlots (readSlot a)) :=
  fun s => wp_read_any (Std.Refl.refl s)

/-- The search changes nothing, and the slot that it finds meets the test. -/
theorem search_any (test : LocoSlot → Bool) : wp (fun _ => True) (LocoSlot.search test)
    (fun found t' => t' = t ∧ ∀ a, found = some a → test (t.mem a) = true) t := by
  unfold LocoSlot.search follow
  simp only [wp_bind, wp_get]
  refine wp_loop_of_turn trivial
    (fun _ found t' => t' = t ∧ ∀ a, found = some a → test (t.mem a) = true) ?_ ⟨rfl, nofun⟩
  rintro b _ _ ⟨rfl, -⟩
  rw [wp_bind]
  apply wp_readSlot_any
  split
  · next htest =>
    refine ⟨rfl, fun a ha => ?_⟩
    cases ha
    exact htest
  · exact ⟨rfl, nofun⟩

/-- A loco that is only looked up. -/
theorem getSlot_lookup (cab : UInt16) :
    wp (fun _ => True) (LocoSlot.getSlot cab false) (fun _ t' => t' = t) t := by
  unfold LocoSlot.getSlot
  split
  · rfl
  · rw [wp_bind]
    refine wp_mono (search_any _) ?_
    rintro found _ ⟨rfl, -⟩
    split
    · rfl
    · rfl

/-- The slot of a loco has its number. -/
theorem getSlot_loco (cab : UInt16) : wp (fun _ => True) (LocoSlot.getSlot cab true)
    (fun found t' => ∀ a, found = some a → (t'.mem a).loco = cab) t := by
  have hprepare : ∀ (a : Addr) (t : LocoTable), wp (fun _ => True)
      (LocoSlot.prepare a cab >>= fun _ => pure (some a))
      (fun found t' => ∀ a, found = some a → (t'.mem a).loco = cab) t := by
    intro a t
    unfold LocoSlot.prepare writeSlot
    simp only [wp_bind, wp_get]
    split
    · intro b hb
      cases hb
      simp [LocoTable.write, LocoSlot.prepared]
    · trivial
  unfold LocoSlot.getSlot
  split
  · intro a ha
    cases ha
  · rw [wp_bind]
    refine wp_mono (search_any _) ?_
    rintro found _ ⟨rfl, hfound⟩
    split
    · exact fun a ha => eq_of_beq (hfound a ha)
    · simp only [Bool.not_true, Bool.false_eq_true, if_false, wp_bind, wp_get]
      split
      · rw [wp_bind]
        apply wp_readSlot_any
        exact hprepare _ _
      · split
        · intro a ha
          cases ha
        · exact hprepare _ _

end Tuning

/-! ## Tracks -/

namespace TrackManager

/-- To ask for the frequency of a loco sends nothing. -/
theorem tuned_getThrottleFrequency (cab : UInt16) :
    Preserves Tuned (DCC.getThrottleFrequency cab) := by
  apply preserves_bind preserves_get
  intro _
  apply preserves_ite
  · exact fun _ => preserves_pure 0
  intro _ s
  simp only [wp_onSlots, wp_bind]
  refine wp_mono (getSlot_lookup cab) ?_
  rintro slot _ rfl
  cases slot with
  | none => exact ⟨Retuned.refl s.locos, rfl⟩
  | some a =>
    simp only [wp_bind]
    apply wp_readSlot_any
    exact ⟨Retuned.refl s.locos, rfl⟩

/-- The signal of a DC track sends nothing. -/
theorem tuned_setDCSignal (cab : Int16) (speedbyte : UInt8) :
    Preserves Tuned (setDCSignal cab speedbyte) := by
  refine preserves_bind preserves_get fun s => preserves_runProg (fun n => ?_) _
  apply preserves_bind preserves_get
  intro s
  cases s.tracks[n]? with
  | none => exact preserves_pure ()
  | some driver =>
    refine preserves_ite (fun _ => preserves_pure ()) fun _ => preserves_ite (fun _ => ?_)
      fun _ => preserves_pure ()
    refine preserves_bind (tuned_getThrottleFrequency _) fun frequency => ?_
    apply preserves_modify
    intro s
    cases s.tracks[n]? with
    | none => exact Std.Refl.refl s
    | some driver =>
      dsimp only
      split
      · exact Std.Refl.refl s
      · exact ⟨Retuned.refl s.locos, rfl⟩

end TrackManager

/-! ## Speeds -/

namespace DCC

theorem speedCall_isFor {cab : UInt16} (h : InRange cab) (globalSpeedsteps speedCode : UInt8) :
    (speedCall cab globalSpeedsteps speedCode).IsFor cab.toNat := by
  unfold speedCall
  split
  · exact ofBytes_addressBytes h _
  · exact ofBytes_addressBytes h _

theorem wp_setThrottleDCC_any {speedCode : UInt8} {R : Unit → Station → Prop}
    (h : R () { s with queue := DCCQueue.step s.queue (speedCall (s.locos.mem a).loco
      s.globalSpeedsteps (blocked s (directed (s.locos.mem a) speedCode))) }) :
    wp (fun _ => True) (setThrottleDCC (some a) speedCode) R s := by
  unfold setThrottleDCC
  simp only [wp_bind, wp_get]
  apply wp_read_any
  rw [wp_sendSpeed]
  exact h

/-- A slot that is `a` or behind it is sent a speed. -/
theorem setThrottleDCC_sent (hb : s.locos.Behind a b) (speedCode : UInt8) :
    wp (fun _ => True) (setThrottleDCC (some b) speedCode) (fun _ s' => SpeedsSent a s s') s := by
  apply wp_setThrottleDCC_any
  refine ⟨Retuned.refl _, [_], rfl, ?_⟩
  intro c hc
  rw [List.mem_singleton.mp hc]
  exact ⟨b, hb, ⟨_, _, rfl⟩, fun hrange => speedCall_isFor hrange _ _⟩

/-- Whatever `setThrottle2` sends is a speed, for the loco of the slot or for one of its followers. -/
theorem sent_setThrottle2 (a : Addr) (speedCode : UInt8) :
    Preserves (SpeedsSent a) (setThrottle2 a speedCode) := by
  intro s
  simp only [setThrottle2, updateSlots, followSlots, wp_bind, wp_get]
  -- the loop does not leave the consist
  refine wp_mono (wp_loop_of_turn trivial
    (fun p _ s' => SpeedsSent a s s' ∧ ∀ b, p = some b → s.locos.Behind a b) ?_
    ⟨Std.Refl.refl s, ?_⟩) fun _ s' h => h.1
  · rintro b _ s₁ ⟨hsent, hbehind⟩
    have hb := hbehind b rfl
    have hwrites : Preserves Tuned (onSlots (writeSlot b fun slot => slot.setSpeedCode speedCode)) :=
      tuned_writeSlot b fun _ => rfl
    rw [wp_bind]
    refine wp_mono (hwrites s₁) ?_
    intro _ s₂ hwrite
    have hsent₂ : SpeedsSent a s s₂ := IsTrans.trans _ _ _ hsent hwrite.speedsSent
    have hnext₂ : s₂.locos.consistNextOf = s.locos.consistNextOf := funext hsent₂.1.consistNextOf
    have hb₂ : s₂.locos.Behind a b := by
      unfold LocoTable.Behind
      rw [hnext₂]
      exact hb
    rw [wp_bind]
    refine wp_mono (setThrottleDCC_sent hb₂ speedCode) ?_
    intro _ s₃ hspeed
    have hsent₃ : SpeedsSent a s s₃ := IsTrans.trans _ _ _ hsent₂ hspeed
    rw [wp_bind]
    apply wp_read_any
    refine ⟨hsent₃, fun c hc => ?_⟩
    have hnext : s.locos.consistNextOf b = some c := by
      rw [← hsent₃.1.consistNextOf]
      exact hc
    exact Relation.ReflTransGen.tail hb hnext
  · intro b hb
    cases hb
    exact Relation.ReflTransGen.refl

theorem tuned_copyTarget (start : Option Addr) (speedCode : UInt8) :
    Preserves Tuned (copyTarget start speedCode) := by
  refine preserves_bind preserves_get fun s => preserves_loop (fun b _ => ?_) _ _ _
  refine preserves_bind (tuned_writeSlot b fun _ => rfl) fun _ => ?_
  exact preserves_bind (preserves_pure ()) fun _ => preserves_bind (tuned_readSlot b) fun _ =>
    preserves_pure _

theorem sent_throttleTo (a : Addr) (cab : UInt16) (tSpeed speedCode : UInt8) (now : UInt32) :
    Preserves (SpeedsSent a) (throttleTo a cab tSpeed speedCode now) := by
  have htuned : ∀ {α : Type} {m : Dcc α}, Preserves Tuned m → Preserves (SpeedsSent a) m :=
    fun h => h.mono fun _ _ hs => hs.speedsSent
  refine preserves_bind (htuned (tuned_writeSlot a fun _ => rfl)) fun _ =>
    preserves_bind (htuned (tuned_readSlot a)) fun lead =>
      preserves_bind (htuned (tuned_copyTarget _ speedCode)) fun _ =>
        preserves_bind (htuned (tuned_readSlot a)) fun lead' => preserves_bind preserves_get fun s => ?_
  apply preserves_ite
  · intro _
    exact htuned (tuned_writeSlot a fun _ => rfl)
  · intro _
    exact preserves_bind (sent_setThrottle2 a speedCode) fun _ =>
      preserves_when fun _ => htuned (TrackManager.tuned_setDCSignal _ _)

/-- Nothing but speeds for the loco `cab` and those behind it in its consist is sent. -/
def SpeedsFor (cab : Nat) (s s' : Station) : Prop :=
  s'.queue = s.queue ∨ ∃ a, (s'.locos.mem a).loco.toNat = cab ∧ Sent (s'.locos.IsSpeedFor a) s s'

theorem speedsFor_of_speedsSent (h : SpeedsSent a s s') :
    SpeedsFor (s.locos.mem a).loco.toNat s s' := by
  refine .inr ⟨a, congrArg UInt16.toNat (h.1.loco a), h.2.mono ?_⟩
  exact fun c hc => h.1.isSpeedFor.mpr hc

/-- **A speed** is sent to the loco, and to those behind it in its consist. -/
theorem setThrottle_sent {cab : UInt16} {tSpeed : UInt8} (h : ¬ (tSpeed = 1 ∧ cab = 0))
    (tDirection : Bool) (now : UInt32) : wp (fun _ => True) (setThrottle cab tSpeed tDirection now)
      (fun _ s' => SpeedsFor cab.toNat s s') s := by
  unfold setThrottle
  rw [if_neg h]
  generalize (tSpeed &&& 0x7F) + (if tDirection = true then 128 else 0) = speedCode
  simp only [wp_bind, wp_onSlots]
  refine wp_mono (getSlot_loco cab) ?_
  intro slot locos hslot
  cases slot with
  | none => exact .inl rfl
  | some a =>
    have hloco : (locos.mem a).loco = cab := hslot a rfl
    have hspeeds : ∀ s', SpeedsSent a { s with locos := locos } s' → SpeedsFor cab.toNat s s' := by
      intro s' hs'
      rw [← hloco]
      exact speedsFor_of_speedsSent hs'
    rw [wp_bind]
    apply wp_read_any
    split
    · exact hspeeds _ (Std.Refl.refl _)
    · split
      · exact hspeeds _ (Std.Refl.refl _)
      · rw [wp_bind]
        refine wp_mono (sent_throttleTo a cab tSpeed _ now _) ?_
        exact fun _ s' hs' => hspeeds s' hs'

/-- The packet is an emergency stop for all locos. -/
def IsEstopAll (c : DCCQueue.Call) : Prop :=
  ∃ globalSpeedsteps speedCode, isEstop speedCode = true ∧ c = speedCall 0 globalSpeedsteps speedCode

theorem IsEstopAll.ofBytes {c : DCCQueue.Call} (h : IsEstopAll c) :
    Recipient.ofBytes c.bytes = some .broadcast := by
  obtain ⟨globalSpeedsteps, speedCode, -, rfl⟩ := h
  unfold speedCall
  split
  · rfl
  · rfl

/-- `estopAll` sends the estop for all locos. -/
theorem sent_estopAll : Preserves (Sent IsEstopAll) estopAll := by
  have htuned : ∀ {α : Type} {m : Dcc α}, Preserves Tuned m → Preserves (Sent IsEstopAll) m :=
    fun h => h.mono fun _ _ hs => Sent.of_queue_eq hs.2
  have hbroadcast : Preserves (Sent IsEstopAll) (setThrottleDCC none 1) := by
    intro s
    rw [wp_setThrottleDCC_none]
    refine ⟨[_], rfl, ?_⟩
    intro c hc
    refine ⟨s.globalSpeedsteps, blocked s 1, ?_, List.mem_singleton.mp hc⟩
    unfold blocked
    split
    · rfl
    · rfl
  refine preserves_bind hbroadcast fun _ => preserves_bind
    (htuned (TrackManager.tuned_setDCSignal 0 1)) fun _ => preserves_bind preserves_get fun s => ?_
  refine preserves_bind preserves_get fun _ => preserves_loop (fun b _ => ?_) _ _ _
  exact preserves_bind (htuned (tuned_writeSlot b fun _ => rfl)) fun _ => preserves_bind
    (preserves_pure ()) fun _ => preserves_bind (htuned (tuned_readSlot b)) fun _ => preserves_pure _

/-! ## Reminders -/

theorem sent_remindSpeed (a : Addr) (now : UInt32) :
    Preserves (SpeedsSent a) (remindSpeed a now) := by
  have htuned : ∀ {α : Type} {m : Dcc α}, Preserves Tuned m → Preserves (SpeedsSent a) m :=
    fun h => h.mono fun _ _ hs => hs.speedsSent
  refine preserves_bind (htuned (tuned_readSlot a)) fun slot => preserves_bind preserves_get fun s => ?_
  apply preserves_ite
  · intro _
    refine preserves_bind (htuned (tuned_writeSlot a fun _ => rfl)) fun _ => ?_
    refine preserves_bind (preserves_when fun _ => htuned (TrackManager.tuned_setDCSignal _ _))
      fun _ => ?_
    exact preserves_bind (htuned (tuned_writeSlot a fun _ => rfl)) fun _ => sent_setThrottle2 a _
  · intro _
    exact sent_setThrottle2 a _

/-- The number of a loco as an `int`. -/
theorem int_of_inRange {cab : UInt16} (h : InRange cab) (platform : Platform) :
    1 ≤ platform.int cab ∧ platform.int cab ≤ 10239 ∧ (platform.int cab).toNat = cab.toNat := by
  have hcab : cab.toNat ≤ 10239 := h.2
  have hpos : cab.toNat ≠ 0 := fun hzero => h.1 (UInt16.toNat_inj.mp hzero)
  have hint : platform.int cab = cab.toNat := by
    have hsigned : cab.toInt16.toInt = cab.toNat := by
      show cab.toBitVec.toInt = cab.toBitVec.toNat
      rw [BitVec.toInt_eq_toNat_of_lt]
      show 2 * cab.toNat < 2 ^ 16
      omega
    cases platform with
    | uno => exact hsigned
    | avr => exact hsigned
    | arm => rfl
    | esp32 => rfl
  omega

/-- **A reminder** of the speed is sent to the loco and to those behind it in its consist, one of
functions to the loco only. -/
theorem issueReminder_sent (a : Addr) (now : UInt32) : wp (fun _ => True) (issueReminder a now)
    (fun _ s' => if speedStatus s.loopStatus then SpeedsSent a s s'
      else InRange (s.locos.mem a).loco →
        Sent (DCCQueue.Call.IsFor (s.locos.mem a).loco.toNat) s s') s := by
  unfold issueReminder
  rw [wp_bind]
  apply wp_read_any
  rw [wp_bind, wp_get]
  apply wp_ite
  · intro hspeed
    simp only [hspeed, if_true]
    have hsame : SpeedsSent a s s := Std.Refl.refl s
    apply wp_ite
    · exact fun _ => hsame
    · intro _
      exact preserves_bind (sent_remindSpeed a now) (fun _ => preserves_pure true) s
  · intro hspeed
    simp only [hspeed, if_false]
    have hsame : InRange (s.locos.mem a).loco →
        Sent (DCCQueue.Call.IsFor (s.locos.mem a).loco.toNat) s s := fun _ => Std.Refl.refl s
    cases groupOfLoopStatus s.loopStatus with
    | none => exact hsame
    | some group =>
      apply wp_ite
      · intro _
        rw [wp_bind, setFunctionInternal, wp_schedule]
        intro hrange
        refine ⟨[_], rfl, ?_⟩
        intro c hc
        rw [List.mem_singleton.mp hc]
        obtain ⟨hlow, hhigh, hnat⟩ := int_of_inRange hrange s.platform
        have hbytes := ofBytes_addressBytes_int ⟨hlow, hhigh⟩
        rw [hnat] at hbytes
        exact hbytes _
      · exact fun _ => hsame

end DCC

end CommandStation
