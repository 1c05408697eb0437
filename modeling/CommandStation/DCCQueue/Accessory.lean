import CommandStation.DCCQueue.Track

/-!
# Coil-off packets

An accessory packet is sent as coil-on and then, `delayms` later, as coil-off. The coil-off packet
is not scheduled by anyone: `scheduleNextInternal` turns the coil-on slot into it. This file
follows one `scheduleAccOnOffPacket` call: its packet waits as a coil-on slot, then as one coil-off
slot, and is then gone, its coil-off form handed over once.

The coil-off slot is found by `scheduleDCCSpeedPacket` like any other slot of the high priority
queue, through the low half of its `startTime`. A speed packet for that number is copied over the
coil-off packet, and the coil stays on. `AccessorySafe` is what a call must avoid.
-/

namespace CommandStation.DCCQueue

open CommandStation.Lib

/-! ## What is asked of the queues -/

/-- What is wanted for the packet of accessory call `k`. Until its coil-on form was completely
handed over, no coil-off is handed over. From then on there is exactly one slot for it, a coil-off
slot, and no coil-off was handed over yet; or there is none, and its coil-off form was handed over
in one hand-over, not earlier than `delayms` after the last coil-on. -/
def CoilOffKept (k : Nat) (packet : List UInt8) (repeats : Nat) (delayms : Int16) (s : State) :
    Prop :=
  let off := clearGate (packet.take maxPacketSize)
  (copiesIn (handedOf k .accOnPacket s) ≠ 1 + repeats → handedOf k .accOffPacket s = []) ∧
  (copiesIn (handedOf k .accOnPacket s) = 1 + repeats →
    (∃ p, ofCall k (s.highPriorityQueue ++ s.lowPriorityQueue) = [p] ∧
      p.type = .accOffPacket ∧ p.payload = off ∧ handedOf k .accOffPacket s = []) ∨
    (ofCall k (s.highPriorityQueue ++ s.lowPriorityQueue) = [] ∧
      ∃ p r now, handedOf k .accOffPacket s = [.slot p r now] ∧ p.payload = off ∧
        ∀ p' r' now', (handedOf k .accOnPacket s).head? = some (.slot p' r' now') →
          (now'.toNat : Int) + delayms.toInt ≤ now.toNat))

/-- What a call must not do to the accessory packets that are pending. A speed packet must not be for
a loco id for which a coil-off slot is the first one that is found in the high priority queue, by the low
half of its `startTime`. When the slot that `scheduleNext` picks is a coil-on slot with its last
hand-over, which is then turned into a coil-off slot, the clock must not run over, nor may a packet with
no delay still have repeats to hand on to a coil-off slot that looks like a loco packet. -/
def AccessorySafe (s : State) : Call → Prop
  | .scheduleDCCSpeedPacket _ _ loco =>
    ∀ p ∈ s.highPriorityQueue.find? (fun p => p.startTime.toUInt16 == loco), p.type ≠ .accOffPacket
  | .scheduleNext _ now =>
    ∀ p ∈ pickedSlot s now, p.type = .accOnPacket → (p.delayOff ≠ 0 → p.packetRepeat = 0) →
      now.toNat + p.delayOff.toNat < UInt32.size ∧
      (p.delayOff = 0 → p.packetRepeat = 0 ∨ now.toUInt16 = 0)
  | _ => True

instance (s : State) : ∀ c, Decidable (AccessorySafe s c)
  | .scheduleDCCSpeedPacket _ _ loco =>
    inferInstanceAs (Decidable (∀ p ∈ s.highPriorityQueue.find? (fun p => p.startTime.toUInt16 == loco),
      p.type ≠ .accOffPacket))
  | .scheduleNext _ now =>
    inferInstanceAs (Decidable (∀ p ∈ pickedSlot s now,
      p.type = .accOnPacket → (p.delayOff ≠ 0 → p.packetRepeat = 0) →
        now.toNat + p.delayOff.toNat < UInt32.size ∧
        (p.delayOff = 0 → p.packetRepeat = 0 ∨ now.toUInt16 = 0)))
  | .scheduleDCCPacket _ _ _ => isTrue trivial
  | .scheduleDCCFunctionPacket _ _ _ => isTrue trivial
  | .scheduleEstopPacket _ _ _ => isTrue trivial
  | .scheduleAccOnOffPacket _ _ _ => isTrue trivial

/-! ## The three phases of an accessory packet -/

section Phases

variable (k : Nat) (packet : List UInt8) (repeats : Nat) (delayms : Int16)

/-- The packet waits in the coil-on slot `p` of the low priority queue. -/
structure Waiting (p : PendingSlot) (s : State) : Prop where
  high : ofCall k s.highPriorityQueue = []
  low : ofCall k s.lowPriorityQueue = [p]
  type_eq : p.type = .accOnPacket
  payload_eq : p.payload = packet.take maxPacketSize
  delay_eq : p.delayOff = delayms.toUInt16
  copies : copiesIn (handedOf k .accOnPacket s) + p.packetRepeat = repeats
  noOff : handedOf k .accOffPacket s = []

/-- The packet waits in the coil-off slot `p` of the high priority queue. -/
structure Pending (p : PendingSlot) (s : State) : Prop where
  high : ofCall k s.highPriorityQueue = [p]
  low : ofCall k s.lowPriorityQueue = []
  type_eq : p.type = .accOffPacket
  payload_eq : p.payload = clearGate (packet.take maxPacketSize)
  repeat_eq : p.locoId ≠ 0 → p.packetRepeat = 0
  copies : copiesIn (handedOf k .accOnPacket s) = 1 + repeats
  noOff : handedOf k .accOffPacket s = []
  time : ∀ p' r now, (handedOf k .accOnPacket s).head? = some (.slot p' r now) →
    now.toNat + delayms.toUInt16.toNat ≤ p.startTime.toNat

/-- The coil-off packet was handed over. -/
structure Done (s : State) : Prop where
  high : ofCall k s.highPriorityQueue = []
  low : ofCall k s.lowPriorityQueue = []
  copies : copiesIn (handedOf k .accOnPacket s) = 1 + repeats
  off : ∃ p r now, handedOf k .accOffPacket s = [.slot p r now] ∧
    p.payload = clearGate (packet.take maxPacketSize) ∧
    ∀ p' r' now', (handedOf k .accOnPacket s).head? = some (.slot p' r' now') →
      now'.toNat + delayms.toUInt16.toNat ≤ now.toNat

/-- Where the packet of accessory call `k` is. -/
inductive AccPhase (s : State) : Prop
  | waiting (p : PendingSlot) (h : Waiting k packet repeats delayms p s)
  | pending (p : PendingSlot) (h : Pending k packet repeats delayms p s)
  | done (h : Done k packet repeats delayms s)

end Phases

variable {k : Nat} {packet : List UInt8} {repeats : Nat} {delayms : Int16} {s : State}

/-- A delay is at least what was asked for: a negative one is read as a long one. -/
theorem toInt_le_toUInt16 (delayms : Int16) : delayms.toInt ≤ delayms.toUInt16.toNat := by
  show delayms.toBitVec.toInt ≤ (delayms.toBitVec.toNat : Int)
  rw [BitVec.toInt_eq_toNat_cond]
  split <;> omega

/-- A packet in one of the phases is kept. -/
theorem AccPhase.coilOffKept (h : AccPhase k packet repeats delayms s) :
    CoilOffKept k packet repeats delayms s := by
  cases h with
  | waiting p h =>
    have hcopies := h.copies
    exact ⟨fun _ => h.noOff, fun hall => by omega⟩
  | pending p h =>
    refine ⟨fun hne => absurd h.copies hne, fun _ => .inl ⟨p, ?_, h.type_eq, h.payload_eq, h.noOff⟩⟩
    rw [ofCall_append, h.high, h.low, List.append_nil]
  | done h =>
    refine ⟨fun hne => absurd h.copies hne, fun _ => .inr ⟨?_, ?_⟩⟩
    · rw [ofCall_append, h.high, h.low, List.append_nil]
    · obtain ⟨p, r, now, hoff, hpayload, htime⟩ := h.off
      refine ⟨p, r, now, hoff, hpayload, fun p' r' now' hlast => ?_⟩
      have := htime p' r' now' hlast
      have := toInt_le_toUInt16 delayms
      omega

/-- The phase only depends on the slots and the hand-overs of the call. -/
theorem AccPhase.congr {s' : State} (h : AccPhase k packet repeats delayms s)
    (hhigh : ofCall k s'.highPriorityQueue = ofCall k s.highPriorityQueue)
    (hlow : ofCall k s'.lowPriorityQueue = ofCall k s.lowPriorityQueue)
    (hlog : handedFor k s' = handedFor k s) :
    AccPhase k packet repeats delayms s' := by
  have hlog : ∀ type, handedOf k type s' = handedOf k type s := fun type => by
    rw [handedOf, hlog, handedOf]
  cases h with
  | waiting p h =>
    exact .waiting p ⟨hhigh ▸ h.high, hlow ▸ h.low, h.type_eq, h.payload_eq, h.delay_eq,
      hlog .accOnPacket ▸ h.copies, hlog _ ▸ h.noOff⟩
  | pending p h =>
    exact .pending p ⟨hhigh ▸ h.high, hlow ▸ h.low, h.type_eq, h.payload_eq, h.repeat_eq,
      hlog .accOnPacket ▸ h.copies, hlog _ ▸ h.noOff, hlog _ ▸ h.time⟩
  | done h =>
    exact .done ⟨hhigh ▸ h.high, hlow ▸ h.low, hlog .accOnPacket ▸ h.copies,
      hlog .accOnPacket ▸ hlog .accOffPacket ▸ h.off⟩

/-- The slot of the call, wherever it is found, is the one of its phase. -/
theorem AccPhase.of_mem (h : AccPhase k packet repeats delayms s) {pr : Priority}
    {p : PendingSlot} (hp : p ∈ s.queue pr) (hk : p.origin.call = k) :
    (pr = .low ∧ Waiting k packet repeats delayms p s) ∨
    (pr = .high ∧ Pending k packet repeats delayms p s) := by
  have hmem : p ∈ ofCall k (s.queue pr) := mem_ofCall.mpr ⟨hp, hk⟩
  cases h with
  | waiting x h =>
    cases pr with
    | high => simp [State.queue, h.high] at hmem
    | low =>
      simp only [State.queue, h.low, List.mem_singleton] at hmem
      exact .inl ⟨rfl, hmem ▸ h⟩
  | pending x h =>
    cases pr with
    | high =>
      simp only [State.queue, h.high, List.mem_singleton] at hmem
      exact .inr ⟨rfl, hmem ▸ h⟩
    | low => simp [State.queue, h.low] at hmem
  | done h => cases pr <;> simp [State.queue, h.high, h.low] at hmem

/-! ## One call -/

theorem startTime_coilOff {p : PendingSlot} {now : UInt32}
    (hclock : now.toNat + p.delayOff.toNat < UInt32.size) :
    (coilOff p now).startTime.toNat = now.toNat + p.delayOff.toNat := by
  rw [coilOff, PendingSlot.startTime_setStartTime, UInt32.toNat_add, UInt16.toNat_toUInt32]
  exact Nat.mod_eq_of_lt hclock

section HandOver

variable {p : PendingSlot} {now : UInt32} (hk : p.origin.call = k)

include hk

theorem Waiting.handedOn (h : Waiting k packet repeats delayms p s) :
    handedOf k .accOnPacket (handed s p now) =
      .slot p (waveformRepeats p) now :: handedOf k .accOnPacket s := by
  rw [← h.type_eq]
  exact handedOf_handed_of_eq hk

theorem Waiting.handedOff (h : Waiting k packet repeats delayms p s) :
    handedOf k .accOffPacket (handed s p now) = [] := by
  have hother : p.type ≠ .accOffPacket := by
    rw [h.type_eq]
    decide
  exact (handedOf_handed_of_ne hk hother).trans h.noOff

theorem Pending.handedOn (h : Pending k packet repeats delayms p s) :
    handedOf k .accOnPacket (handed s p now) = handedOf k .accOnPacket s := by
  have hother : p.type ≠ .accOnPacket := by
    rw [h.type_eq]
    decide
  exact handedOf_handed_of_ne hk hother

theorem Pending.handedOff (h : Pending k packet repeats delayms p s) :
    handedOf k .accOffPacket (handed s p now) = [.slot p (waveformRepeats p) now] := by
  have hhead : handedOf k p.type (handed s p now) = _ := handedOf_handed_of_eq hk
  rw [h.type_eq, h.noOff] at hhead
  exact hhead

end HandOver

/-- Coil-on is handed over with repeats left: the slot stays. -/
theorem Waiting.repeated {now : UInt32} {before after : List PendingSlot} {p : PendingSlot}
    (h : Waiting k packet repeats delayms p s) (hp : Picked s now .low before p after)
    (hk : p.origin.call = k) (hid : p.locoId ≠ 0) (hrep : p.packetRepeat ≠ 0) :
    Waiting k packet repeats delayms { p with packetRepeat := p.packetRepeat - 1 }
      ((handed s p now).setQueue .low
        (before ++ { p with packetRepeat := p.packetRepeat - 1 } :: after)) where
  high := h.high
  low := hp.ofCall_write_of_eq h.low hk hk
  type_eq := h.type_eq
  payload_eq := h.payload_eq
  delay_eq := h.delay_eq
  copies := by
    have hold := h.copies
    have hw : waveformRepeats p = 0 := if_neg hid
    show copiesIn (handedOf k .accOnPacket (handed s p now)) + (p.packetRepeat - 1) = repeats
    rw [h.handedOn hk, copiesIn_cons, HandOver.copies]
    omega
  noOff := h.handedOff hk

/-- The last coil-on is handed over: the slot becomes the coil-off slot. -/
theorem Waiting.switched {now : UInt32} {before after : List PendingSlot} {p : PendingSlot}
    (h : Waiting k packet repeats delayms p s) (hp : Picked s now .low before p after)
    (hk : p.origin.call = k) (hrep : p.locoId ≠ 0 → p.packetRepeat = 0)
    (hclock : now.toNat + p.delayOff.toNat < UInt32.size)
    (hzero : p.delayOff = 0 → p.packetRepeat = 0 ∨ now.toUInt16 = 0) :
    Pending k packet repeats delayms (coilOff p now)
      { (handed s p now).setQueue .low (before ++ after) with
        highPriorityQueue := coilOff p now :: s.highPriorityQueue } where
  high := by
    show ofCall k (coilOff p now :: s.highPriorityQueue) = _
    rw [ofCall_cons_of_eq (by exact hk), h.high]
  low := hp.ofCall_rest_of_eq h.low hk
  type_eq := rfl
  payload_eq := by rw [payload_coilOff, h.payload_eq]
  repeat_eq := by
    intro hid
    show p.packetRepeat = 0
    by_cases hdelay : p.delayOff = 0
    · rcases hzero hdelay with hr | hnow
      · exact hr
      · -- with no delay the start time is the clock itself
        refine absurd ?_ hid
        rw [coilOff, PendingSlot.locoId_setStartTime, hdelay]
        simpa using hnow
    · exact hrep hdelay
  copies := by
    have hold := h.copies
    have hw := waveformRepeats_of_last hrep
    show copiesIn (handedOf k .accOnPacket (handed s p now)) = 1 + repeats
    rw [h.handedOn hk, copiesIn_cons, HandOver.copies]
    omega
  noOff := h.handedOff hk
  time := by
    intro p' r t hlast
    have hlast : (handedOf k .accOnPacket (handed s p now)).head? = some (.slot p' r t) := hlast
    rw [h.handedOn hk, List.head?_cons, Option.some.injEq, HandOver.slot.injEq] at hlast
    obtain ⟨-, -, rfl⟩ := hlast
    exact Nat.le_of_eq (h.delay_eq ▸ startTime_coilOff hclock).symm

/-- Coil-off is handed over, when its time has come, and its slot is recycled. -/
theorem Pending.recycled {now : UInt32} {before after r : List PendingSlot} {p : PendingSlot}
    (h : Pending k packet repeats delayms p s) (hp : Picked s now .high before p after)
    (hk : p.origin.call = k) :
    Done k packet repeats delayms
      { (handed s p now).setQueue .high (before ++ after) with recycleList := r } where
  high := hp.ofCall_rest_of_eq h.high hk
  low := h.low
  copies := by
    show copiesIn (handedOf k .accOnPacket (handed s p now)) = _
    rw [h.handedOn hk]
    exact h.copies
  off := by
    have hdue : p.startTime.toNat ≤ now.toNat := by
      have hel := hp.eligible
      simp only [eligible, delayed, h.type_eq, Bool.and_eq_true, Bool.not_eq_true'] at hel
      simpa [UInt32.le_iff_toNat_le] using hel.1
    refine ⟨p, waveformRepeats p, now, ?_, h.payload_eq, fun p' r' now' hlast => ?_⟩
    · exact h.handedOff hk
    · have hlast : (handedOf k .accOnPacket (handed s p now)).head? = _ := hlast
      rw [h.handedOn hk] at hlast
      exact Nat.le_trans (h.time p' r' now' hlast) hdue

/-- **A safe call keeps every accessory packet in its phase or moves it on.** -/
theorem accPhase_step (hk : k < s.calls) (c : Call) (hsafe : AccessorySafe s c)
    (h : AccPhase k packet repeats delayms s) : AccPhase k packet repeats delayms (step s c) := by
  have hm := step_moves hk c
  generalize step s c = s' at hm ⊢
  cases hm with
  | frame hhigh hlow hlog => exact h.congr hhigh hlow hlog
  | @speedOverwrite _ _ loco p _ hp hpk _ hfirst =>
    rcases h.of_mem (show p ∈ s.queue .high from hp) hpk with ⟨hpr, -⟩ | ⟨-, hpend⟩
    · cases hpr
    · -- the loco id of a slot is the low half of its start time
      refine absurd hpend.type_eq (hsafe p ?_)
      simpa only [PendingSlot.toUInt16_startTime, Option.mem_def] using hfirst
  | @functionOverwrite _ _ group p _ hp hpk htype =>
    rcases h.of_mem (show p ∈ s.queue .low from hp) hpk with ⟨-, hwait⟩ | ⟨hpr, -⟩
    · exact absurd hwait.type_eq (functionType_range htype).2.2.1
    · cases hpr
  | @estop _ _ loco p _ hp hpk hkill =>
    rcases h.of_mem (show p ∈ s.queue .high from hp) hpk with ⟨hpr, -⟩ | ⟨-, hpend⟩
    · cases hpr
    · simp [estopKills, hpend.type_eq] at hkill
  | @repeated _ now pr before p after hp hpk hid hrep =>
    rcases h.of_mem hp.mem hpk with ⟨rfl, hwait⟩ | ⟨rfl, hpend⟩
    · exact .waiting _ (hwait.repeated hp hpk hid hrep)
    · exact absurd (hpend.repeat_eq hid) hrep
  | @switched _ now pr before p after hp hpk htype hrep =>
    rcases h.of_mem hp.mem hpk with ⟨rfl, hwait⟩ | ⟨rfl, hpend⟩
    · obtain ⟨hclock, hzero⟩ := hsafe p hp.pickedSlot_eq htype hrep
      exact .pending _ (hwait.switched hp hpk hrep hclock hzero)
    · rw [hpend.type_eq] at htype; cases htype
  | @recycled _ now pr before p after r hp hpk htype hrep =>
    rcases h.of_mem hp.mem hpk with ⟨rfl, hwait⟩ | ⟨rfl, hpend⟩
    · exact absurd hwait.type_eq htype
    · exact .done (hpend.recycled hp hpk)

/-! ## Histories -/

/-- A packet starts waiting when it is scheduled. -/
theorem accPhase_schedule (hs : Numbered s) (packet : List UInt8) (repeats : Nat)
    (delayms : Int16) :
    AccPhase s.calls packet repeats delayms
      (step s (.scheduleAccOnOffPacket packet repeats delayms)) := by
  have hnone := hs.ofCall_calls
  have hlog : ∀ type, handedOf s.calls type s = [] := by
    intro type
    rw [handedOf, hs.handedFor_calls, List.filter_nil]
  have he := step_effect s (.scheduleAccOnOffPacket packet repeats delayms)
  generalize step s _ = s' at he ⊢
  cases he with
  | @accOnOff _ _ _ p r hp =>
    refine .waiting p ⟨hnone .high, ?_, hp.type_eq, hp.payload_eq, hp.locoId_eq, ?_, hlog _⟩
    · show ofCall s.calls (s.lowPriorityQueue ++ [p]) = [p]
      rw [ofCall_append, show ofCall s.calls s.lowPriorityQueue = [] from hnone .low,
        ofCall_cons_of_eq (by rw [hp.origin_eq])]
      rfl
    · show copiesIn (handedOf s.calls .accOnPacket s) + _ = _
      rw [hlog, hp.packetRepeat_eq]
      exact Nat.zero_add _

/-- **Coils are switched off**: in every history whose calls are safe for the accessory packets,
every accessory packet has its one coil-off slot from the last coil-on until the coil-off is
handed over, once and not too early. -/
theorem coilOff_kept {cs : List Call} (hsafe : Along step AccessorySafe init cs) {k : Nat}
    {packet : List UInt8} {repeats : Nat} {delayms : Int16}
    (hk : cs[k]? = some (.scheduleAccOnOffPacket packet repeats delayms)) :
    CoilOffKept k packet repeats delayms (after cs) := by
  have hcalls := calls_after_take hk
  rw [after, run_eq_of_getElem? hk]
  -- from the call on, the packet is in one of its phases
  have hstart := accPhase_schedule (numbered_after (cs.take k)) packet repeats delayms
  rw [hcalls] at hstart
  have hinv := inv_run (fun s => k < s.calls ∧ AccPhase k packet repeats delayms s)
    (fun s c hs h => ⟨Nat.lt_succ_of_lt h.1, accPhase_step h.1 c hs h.2⟩)
    ⟨by rw [calls_step, hcalls]; exact Nat.lt_succ_self k, hstart⟩ (hsafe.drop_of_getElem? hk)
  exact hinv.2.coilOffKept

/-- `DCC::setAccessory(1, 0, 1)` at one second, with its coil-on sent four times: the queue takes
the delay of 100 ms for a loco id and puts an idle packet between them. The coil-off is due at
1100 ms. -/
def switchAccessory : List Call :=
  .scheduleAccOnOffPacket [0x81, 0xF9] 3 100 :: List.replicate 7 (.scheduleNext true 1000)

/-- Speed 50 forward for loco 1100, as `setThrottleDCC` builds it. -/
def loco1100Speed50 : Call :=
  .scheduleDCCSpeedPacket ⟨[0xC4, 0x4C, 0x3F, 0xB3], by decide⟩ 0 1100

/-- The accessory of `switchAccessory` is switched off when no speed packet gets in its way. -/
theorem coilOff_kept_switchAccessory :
    CoilOffKept 0 [0x81, 0xF9] 3 100 (after (switchAccessory ++ [.scheduleNext true 1100])) :=
  coilOff_kept (by decide) rfl

/-- A speed packet for loco 1100 is copied over the coil-off packet: the coil stays on. -/
theorem coilOff_lost :
    ¬ CoilOffKept 0 [0x81, 0xF9] 3 100 (after (switchAccessory ++ [loco1100Speed50])) := by
  rintro ⟨-, hkept⟩
  have hnone : ofCall 0 ((after (switchAccessory ++ [loco1100Speed50])).highPriorityQueue ++
      (after (switchAccessory ++ [loco1100Speed50])).lowPriorityQueue) = [] := by decide
  have hoff : handedOf 0 .accOffPacket (after (switchAccessory ++ [loco1100Speed50])) = [] := by
    decide
  rcases hkept (by decide) with ⟨p, hp, -⟩ | ⟨-, p, r, now, hp, -⟩
  · rw [hnone] at hp; cases hp
  · rw [hoff] at hp; cases hp

end CommandStation.DCCQueue
