import CommandStation.DCC.Loop

/-!
# What the decoder and the throttle clients do

A sniffed packet for a loco makes the decoder ask for the slot of that loco, which it then uses
without a look. `asked` is that loco; with room for it in the table the decoder comes to an end.
-/

namespace CommandStation

open CommandStation.Lib LocoTable

/-- The table has a slot for the loco, or room for one. -/
def RoomFor (s : Station) (locoIds : List UInt16) : Prop := Room s.locos s.locos.slots locoIds

instance (s : Station) (locoIds : List UInt16) : Decidable (RoomFor s locoIds) :=
  inferInstanceAs (Decidable (Room _ _ _))

/-- The loco has a slot. -/
def HasSlot (s : Station) (locoId : UInt16) : Prop :=
  ∃ a ∈ s.locos.slots, (s.locos.mem a).loco = locoId

variable {F : Fault → Prop} {s s' : Station} {xs ys : List Addr} {a : Addr} {locoId : UInt16}

theorem HasSlot.grown (h : HasSlot s locoId) (hs : Grown s s') : HasSlot s' locoId := by
  obtain ⟨a, ha, hid⟩ := h
  obtain ⟨ha', hloco⟩ := hs.slots a ha
  exact ⟨a, ha', hloco.trans hid⟩

theorem HasSlot.roomFor (h : HasSlot s locoId) (hs : Sound s) : RoomFor s [locoId] := by
  obtain ⟨a, ha, hid⟩ := h
  obtain ⟨xs, ys, hl, -⟩ := hs.table
  have hroom : Room s.locos s.locos.slots [] := hl.slots_eq ▸ room_nil hl
  exact (room_cons_of_found ha hid).mp hroom

namespace DCCDecoder

/-- The updates of the sniffer: the slot is asked for, used without a look and written if there is
something new. -/
theorem wp_update (hs : Sound s) (hid : locoId ≠ 0)
    (hF : ¬ RoomFor s [locoId] → F .nullPointer) {same : LocoSlot → Prop}
    [∀ slot, Decidable (same slot)] {f : LocoSlot → LocoSlot}
    (hf : ∀ slot, (f slot).place = slot.place) :
    wp F (onSlots do
      let slot ← LocoSlot.getSlot locoId true
      let a ← nonNull slot
      let slot ← readSlot a
      if same slot then pure false
      else
        writeSlot a f
        pure true) (fun _ s' => RoomFor s [locoId] ∧ Grown s s' ∧ HasSlot s' locoId) s := by
  obtain ⟨xs, ys, h, hc⟩ := hs.table
  have hask : wp F (onSlots (LocoSlot.getSlot locoId true)) (fun r s' =>
      (r = none → ¬ RoomFor s [locoId]) ∧
        ∀ a, r = some a → ∃ xs' ys', Granted s xs locoId a s' xs' ys') s := by
    apply wp_askSlot h hc locoId
    · intro hno
      refine ⟨fun _ hroom => ?_, fun a ha => by cases ha⟩
      rw [RoomFor, h.slots_eq] at hroom
      exact hno ⟨hid, hroom⟩
    · intro a s' xs' ys' hg
      refine ⟨(fun hno => by cases hno), fun b hb => ?_⟩
      cases hb
      exact ⟨xs', ys', hg⟩
  simp only [wp_onSlots, wp_bind] at hask ⊢
  refine wp_mono hask ?_
  intro r t' hr
  cases r with
  | none => exact hF (hr.1 rfl)
  | some a =>
    obtain ⟨xs', ys', hg⟩ := hr.2 a rfl
    have hlive : t'.live a = true := hg.lists.live_inUse hg.mem
    have hgrown := hg.grown hs h
    have hroom : RoomFor s [locoId] := by
      rw [RoomFor, h.slots_eq]
      exact hg.room.2
    have hhas : HasSlot { s with locos := t' } locoId :=
      ⟨a, hg.lists.slots_eq ▸ hg.mem, hg.loco⟩
    simp only [nonNull, wp_pure]
    rw [wp_readSlot hlive]
    split
    · exact ⟨hroom, hgrown, hhas⟩
    · rw [wp_bind, wp_writeSlot hlive]
      have hkept : Kept { s with locos := t' } { s with locos := t'.write a (f (t'.mem a)) } :=
        ⟨Retuned.write _ a _ (hf _), rfl, rfl, id⟩
      have hgrown' := hkept.grown hgrown.sound
      exact ⟨hroom, hgrown.trans hgrown', hhas.grown hgrown'⟩

/-- What an instruction for a loco does. -/
def Followed (s : Station) (locoId : UInt16) (s' : Station) : Prop :=
  RoomFor s [locoId] ∧ Grown s s' ∧ HasSlot s' locoId

/-- A speed from the rails gives its loco a slot, if there is room for it. -/
theorem speedChange_spec (hs : Sound s) (hid : locoId ≠ 0)
    (hF : ¬ RoomFor s [locoId] → F .nullPointer) (sniffed speed : UInt8) (direction : Bool)
    (now : UInt32) :
    wp F (speedChange locoId sniffed speed direction now) (fun _ => Followed s locoId) s := by
  rw [speedChange, wp_bind, updateLoco, if_neg hid]
  refine wp_mono (wp_update hs hid hF fun _ => rfl) ?_
  rintro changed s₁ ⟨hroom, hgrown, hhas⟩
  cases changed with
  | false => exact ⟨hroom, hgrown, hhas⟩
  | true =>
    obtain ⟨xs, ys, h, hc⟩ := hgrown.sound.table
    simp only [if_true, wp_bind]
    refine wp_mono (DCC.setThrottle_spec hgrown.sound h hc locoId speed direction now) ?_
    rintro r s₂ ⟨hgrown', -⟩
    exact ⟨hroom, hgrown.trans hgrown', hhas.grown hgrown'⟩

theorem funcmapFrom_grown (hs : Sound s) (cab i : Int16) (n : Nat) (value : UInt8) :
    wp F (DCCEXParser.funcmapFrom cab i n value) (fun _ => Grown s) s := by
  induction n generalizing s i value with
  | zero => exact Grown.refl hs
  | succ n ih =>
    obtain ⟨xs, ys, h, hc⟩ := hs.table
    rw [DCCEXParser.funcmapFrom, wp_bind]
    refine wp_mono (DCC.setFn_spec hs h hc _ _ _) ?_
    rintro done s₁ ⟨hgrown, -⟩
    cases done with
    | true => exact wp_mono (ih hgrown.sound _ _) fun _ s₂ h₂ => hgrown.trans h₂
    | false => exact hgrown

theorem functionChange_spec (hs : Sound s) (hid : locoId ≠ 0)
    (hF : ¬ RoomFor s [locoId] → F .nullPointer) (func : UInt8) (shift : Nat)
    (value fstart fstop : UInt8) :
    wp F (functionChange locoId func shift value fstart fstop) (fun _ => Followed s locoId) s := by
  rw [functionChange, wp_bind, updateFunc]
  refine wp_mono (wp_update hs hid hF fun _ => rfl) ?_
  rintro changed s₁ ⟨hroom, hgrown, hhas⟩
  cases changed with
  | false => exact ⟨hroom, hgrown, hhas⟩
  | true =>
    simp only [if_true, wp_bind]
    refine wp_mono (funcmapFrom_grown hgrown.sound _ _ _ _) ?_
    intro r s₂ hgrown'
    exact ⟨hroom, hgrown.trans hgrown', hhas.grown hgrown'⟩

/-- Two instructions for the same loco: the second one finds the slot. -/
theorem wp_followed_twice {m m' : Dcc Bool}
    (h : wp F m (fun _ => Followed s locoId) s)
    (h' : ∀ s₁, Sound s₁ → RoomFor s₁ [locoId] → wp F m' (fun _ => Followed s₁ locoId) s₁) :
    wp F (do let _ ← m; m') (fun _ => Followed s locoId) s := by
  rw [wp_bind]
  refine wp_mono h ?_
  rintro _ s₁ ⟨hroom, hgrown, hhas⟩
  refine wp_mono (h' s₁ hgrown.sound (hhas.roomFor hgrown.sound)) ?_
  rintro _ s₂ ⟨-, hgrown', hhas'⟩
  exact ⟨hroom, hgrown.trans hgrown', hhas'⟩

/-- The instruction is one that makes the decoder ask for a slot. -/
def asks (instr0 : UInt8) : Bool :=
  let group := instr0 &&& 0xE0
  if group = 0x20 then instr0 == 0x3F
  else group = 0x40 ∨ group = 0x60 ∨ group = 0x80 ∨ group = 0xA0 ∨ instr0 = 0xDE ∨ instr0 = 0xDF

/-- A packet for a loco keeps the slots that were there, and one that asks for a slot has had room for it.
-/
theorem mobile_spec (hs : Sound s) (hid : locoId ≠ 0) {instr0 : UInt8}
    (hF : asks instr0 = true → ¬ RoomFor s [locoId] → F .nullPointer) (instr1 : UInt8)
    (now : UInt32) :
    wp F (mobile locoId instr0 instr1 now)
      (fun _ s' => Grown s s' ∧ (asks instr0 = true → RoomFor s [locoId])) s := by
  -- an instruction that asks for a slot, and one that does not
  have hyes : ∀ {m : Dcc Bool}, asks instr0 = true →
      wp F m (fun _ => Followed s locoId) s →
      wp F m (fun _ s' => Grown s s' ∧ (asks instr0 = true → RoomFor s [locoId])) s :=
    fun _ h => wp_mono h fun _ s' hs' => ⟨hs'.2.1, fun _ => hs'.1⟩
  have hno : asks instr0 = false → wp F (pure false : Dcc Bool)
      (fun _ s' => Grown s s' ∧ (asks instr0 = true → RoomFor s [locoId])) s :=
    fun h => ⟨Grown.refl hs, fun h' => by rw [h] at h'; cases h'⟩
  have hspeed : ∀ sniffed speed direction, asks instr0 = true → wp F
      (speedChange locoId sniffed speed direction now) (fun _ => Followed s locoId) s :=
    fun _ _ _ hask => speedChange_spec hs hid (hF hask) _ _ _ now
  have hfunction : ∀ func shift value fstart fstop, asks instr0 = true → wp F
      (functionChange locoId func shift value fstart fstop) (fun _ => Followed s locoId) s :=
    fun _ _ _ _ _ hask => functionChange_spec hs hid (hF hask) _ _ _ _ _
  have htwice : ∀ func shift value fstart fstop func' shift' value' fstart' fstop',
      asks instr0 = true → wp F (do
        let _ ← functionChange locoId func shift value fstart fstop
        functionChange locoId func' shift' value' fstart' fstop') (fun _ => Followed s locoId) s :=
    fun _ _ _ _ _ _ _ _ _ _ hask => wp_followed_twice (hfunction _ _ _ _ _ hask)
      fun s₁ hs₁ hroom => functionChange_spec hs₁ hid (fun hno => absurd hroom hno) _ _ _ _ _
  unfold mobile
  extract_lets group
  split
  · next h20 =>
    split
    · next h3f =>
      have hask : asks instr0 = true := by rw [h3f]; rfl
      exact hyes hask (hspeed _ _ _ hask)
    · next h3f => exact hno (by simp [asks, show instr0 &&& 0xE0 = 0x20 from h20, h3f])
  · next h20 =>
    have hasks : asks instr0 = decide (group = 0x40 ∨ group = 0x60 ∨ group = 0x80 ∨ group = 0xA0 ∨
        instr0 = 0xDE ∨ instr0 = 0xDF) := if_neg h20
    split
    · next h40 =>
      have hask : asks instr0 = true := by rw [hasks, decide_eq_true_eq]; grind
      exact hyes hask (hspeed _ _ _ hask)
    · split
      · next h80 =>
        have hask : asks instr0 = true := by rw [hasks, decide_eq_true_eq]; grind
        exact hyes hask (hfunction _ _ _ _ _ hask)
      · split
        · next hA0 =>
          have hask : asks instr0 = true := by rw [hasks, decide_eq_true_eq]; grind
          split
          · exact hyes hask (hfunction _ _ _ _ _ hask)
          · exact hyes hask (hfunction _ _ _ _ _ hask)
        · split
          · next hDE =>
            have hask : asks instr0 = true := by rw [hasks, decide_eq_true_eq]; grind
            exact hyes hask (htwice _ _ _ _ _ _ _ _ _ _ hask)
          · split
            · next hDF =>
              have hask : asks instr0 = true := by rw [hasks, decide_eq_true_eq]; grind
              exact hyes hask (htwice _ _ _ _ _ _ _ _ _ _ hask)
            · exact hno (by rw [hasks, decide_eq_false_iff_not]; grind)

/-- The loco that a packet makes the decoder ask a slot for. -/
def asked (s : Station) (p : DCCPacket) : List UInt16 :=
  let d0 := p.data 0
  if !s.decoderActive || !accepts p then []
  else if d0 &&& 0x80 = 0 then
    if d0 ≠ 0 ∧ asks (p.data 1) then [d0.toUInt16] else []
  else if d0 &&& 0x40 ≠ 0 then
    let addr := 256 * (d0 &&& 0x3F).toUInt16 + (p.data 1).toUInt16
    if addr ≠ 0 ∧ asks (p.data 2) then [addr] else []
  else []

theorem setAccessory_grown (hs : Sound s) (address : Int) (port : UInt8) (gate : Bool)
    (onoff : UInt8) : wp F (DCC.setAccessory address port gate onoff) (fun _ => Grown s) s := by
  unfold DCC.setAccessory
  split
  · exact Grown.refl hs
  · extract_lets b0 b1
    split
    · exact Grown.of_queue hs
    · split
      · exact Grown.of_queue hs
      · exact Grown.of_queue hs

theorem roomFor_nil (hs : Sound s) : RoomFor s [] := by
  obtain ⟨xs, ys, h, -⟩ := hs.table
  rw [RoomFor, h.slots_eq]
  exact room_nil h

/-- A packet for loco `addr`, unless it is the broadcast address, with the instruction `instr0`. -/
theorem mobile_grown (hs : Sound s) (addr : UInt16) (instr0 instr1 : UInt8) (now : UInt32)
    {locos : List UInt16} (hlocos : locos = if addr ≠ 0 ∧ asks instr0 then [addr] else [])
    (hF : ¬ RoomFor s locos → F .nullPointer) :
    wp F (if addr = 0 then pure false else mobile addr instr0 instr1 now)
      (fun _ s' => Grown s s' ∧ RoomFor s locos) s := by
  split
  · next h0 =>
    rw [hlocos, if_neg fun h => h.1 h0]
    exact ⟨Grown.refl hs, roomFor_nil hs⟩
  · next h0 =>
    have hroom : (asks instr0 = true → RoomFor s [addr]) ↔ RoomFor s locos := by
      rw [hlocos]
      by_cases hask : asks instr0 = true
      · simp [hask, h0]
      · simp [hask, roomFor_nil hs]
    refine wp_mono (mobile_spec hs h0 (fun hask hno => hF fun hr => hno (hroom.mpr hr hask))
      instr1 now) ?_
    rintro _ s' ⟨hgrown, hr⟩
    exact ⟨hgrown, hroom.mp hr⟩

/-- **The decoder** comes to an end and leaves a sound station if there is room for the loco it
asks for, and else runs into a null pointer. -/
theorem parse_grown (hs : Sound s) (p : DCCPacket) (now : UInt32)
    (hF : ¬ RoomFor s (asked s p) → F .nullPointer) :
    wp F (parse p now) (fun _ s' => Grown s s' ∧ RoomFor s (asked s p)) s := by
  have hidle : asked s p = [] → Grown s s ∧ RoomFor s (asked s p) := by
    intro hasked
    rw [hasked]
    exact ⟨Grown.refl hs, roomFor_nil hs⟩
  simp only [parse, wp_bind, wp_get]
  by_cases hskip : (!s.decoderActive || !accepts p) = true
  · have hasked : asked s p = [] := if_pos hskip
    rcases Bool.or_eq_true_iff.mp hskip with hoff | hbad
    · rw [if_pos hoff]
      exact hidle hasked
    · rw [if_pos hbad]
      split
      · exact hidle hasked
      · exact hidle hasked
  · have hskip' := hskip
    rw [Bool.or_eq_true_iff, not_or] at hskip'
    rw [if_neg hskip'.1, if_neg hskip'.2]
    split
    · next hshort =>
      have hzero : (p.data 0).toUInt16 = 0 ↔ p.data 0 = 0 := by
        rw [← UInt16.toNat_inj, ← UInt8.toNat_inj]
        simp
      have hlocos : asked s p =
          if (p.data 0).toUInt16 ≠ 0 ∧ asks (p.data 1) then [(p.data 0).toUInt16] else [] := by
        simp only [asked, if_neg hskip, if_pos hshort, ne_eq, hzero]
      have hmobile := mobile_grown hs _ _ (p.data 2) now hlocos hF
      simpa only [hzero] using hmobile
    · next hlong =>
      split
      · next hbit6 =>
        apply mobile_grown hs _ _ _ now _ hF
        simp only [asked, if_neg hskip, if_neg hlong, if_pos hbit6]
      · next hbit6 =>
        have hasked : asked s p = [] := by
          simp only [asked, if_neg hskip, if_neg hlong, if_neg hbit6]
        unfold accessory
        split
        · rw [wp_bind]
          exact wp_mono (setAccessory_grown hs _ _ _ _) fun _ s' hs' => ⟨hs', (hidle hasked).2⟩
        · exact hidle hasked

end DCCDecoder

/-! ## WiThrottle clients -/

namespace WiThrottle

theorem wp_getFn (h : Lists s.locos xs ys) (cab : Int) (functionNumber : Int16)
    {Q : Option Bool → Station → Prop} (hQ : ∀ r, Q r s) :
    wp F (DCC.getFn cab functionNumber) Q s := by
  unfold DCC.getFn
  split
  · exact hQ none
  · refine wp_mono (DCC.wp_lookup h (UInt16.ofInt cab)) ?_
    rintro r _ ⟨rfl, -⟩
    exact hQ r

theorem wp_getFunctionMap (h : Lists s.locos xs ys) (cab : Int) {Q : UInt32 → Station → Prop}
    (hQ : ∀ r, Q r s) : wp F (DCC.getFunctionMap cab) Q s := by
  unfold DCC.getFunctionMap
  split
  · exact hQ 0
  · refine wp_mono (DCC.wp_lookup h (UInt16.ofInt cab)) ?_
    rintro r _ ⟨rfl, -⟩
    exact hQ r

theorem wp_sendFunctions (h : Lists s.locos xs ys) (throttleChar : Char) (locoid : Int)
    (fKeys : List Nat) {Q : String → Station → Prop} (hQ : ∀ r, Q r s) :
    wp F (sendFunctions throttleChar locoid fKeys) Q s := by
  induction fKeys generalizing Q with
  | nil => exact hQ ""
  | cons fKey rest ih =>
    rw [sendFunctions, wp_bind]
    refine wp_getFn h locoid _ fun fstate => ?_
    rw [wp_bind]
    exact ih fun lines => hQ _

/-- The request passes the checks before the slot is asked for. -/
def Accepted (lengthChar : Char) (locoid : Int) : Prop :=
  ¬ (10239 < locoid ∨ locoid < -1) ∧ lengthChar ≠ '*' ∧ locoid ≠ 0 ∧ lengthChar = lorS locoid

instance (lengthChar : Char) (locoid : Int) : Decidable (Accepted lengthChar locoid) :=
  inferInstanceAs (Decidable (_ ∧ _))

/-- A throttle that is given a loco keeps the slots that were there, and fails without a slot for it. -/
theorem addLoco_spec (hs : Sound s) (h : Lists s.locos xs ys) (hc : Consists s.locos xs none)
    (client : WiThrottle) (throttleChar lengthChar : Char) (locoid : Int) :
    wp F (addLoco client throttleChar lengthChar locoid) (fun r s' => Grown s s' ∧
      (Accepted lengthChar locoid → Answered s xs (UInt16.ofInt locoid) (!r.2.1) s')) s := by
  unfold addLoco
  split
  · next hrange => exact ⟨Grown.refl hs, fun hacc => absurd hrange hacc.1⟩
  · split
    · next hstar => exact ⟨Grown.refl hs, fun hacc => absurd hstar hacc.2.1⟩
    · split
      · next hzero => exact ⟨Grown.refl hs, fun hacc => absurd hzero hacc.2.2.1⟩
      · split
        · next hlength => exact ⟨Grown.refl hs, fun hacc => absurd hacc.2.2.2 hlength⟩
        · rw [wp_bind]
          refine wp_askSlot h hc _ ?_ ?_
          · intro _
            exact ⟨Grown.refl hs, fun _ => answered_refused hs⟩
          · intro a s' xs' ys' hg
            have hdone := hg.grown hs h
            simp only
            split
            · exact ⟨hdone, fun _ => hg.answered hdone⟩
            · rw [wp_bind]
              refine wp_getFunctionMap hg.lists locoid fun functionMap => ?_
              rw [wp_bind]
              refine wp_sendFunctions hg.lists throttleChar locoid _ fun functions => ?_
              exact ⟨hdone, fun _ => hg.answered hdone⟩

end WiThrottle

end CommandStation
