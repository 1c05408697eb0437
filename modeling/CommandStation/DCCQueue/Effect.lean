import CommandStation.DCCQueue.Basic

/-!
# What one call can do

`Effect s c s'` lists every way a call `c` can take the queues from `s` to `s'`, with what the
code has checked on the way; `step_effect` says the list is complete. Every invariant of the
queues is proved by cases on `Effect`, so the functions of `Basic` are unfolded here only.
-/

namespace CommandStation.DCCQueue

open CommandStation.Lib

/-! ## Small facts about slots -/

namespace PendingSlot

theorem toNat_startTime (p : PendingSlot) :
    p.startTime.toNat = p.highWord.toNat * 65536 + p.lowWord.toNat := by
  have hlow := p.lowWord.toNat_lt
  have hhigh := p.highWord.toNat_lt
  simp only [startTime, UInt32.toNat_or, UInt32.toNat_shiftLeft, UInt16.toNat_toUInt32]
  have h16 : (16 : UInt32).toNat % 32 = 16 := by decide
  have hword : p.highWord.toNat * 2 ^ 16 % 2 ^ 32 = p.highWord.toNat * 2 ^ 16 := by omega
  rw [h16, Nat.shiftLeft_eq, hword, ← Nat.shiftLeft_eq, ← Nat.shiftLeft_add_eq_or_of_lt hlow,
    Nat.shiftLeft_eq]

/-- The members of the union overlap: the loco id of a slot is the low half of its start time. -/
theorem toUInt16_startTime (p : PendingSlot) : p.startTime.toUInt16 = p.locoId := by
  apply UInt16.toNat_inj.mp
  have hlow := p.lowWord.toNat_lt
  rw [UInt32.toNat_toUInt16, toNat_startTime]
  show _ = p.lowWord.toNat
  omega

@[simp] theorem locoId_setStartTime (p : PendingSlot) (t : UInt32) :
    (p.setStartTime t).locoId = t.toUInt16 := rfl

@[simp] theorem startTime_setStartTime (p : PendingSlot) (t : UInt32) :
    (p.setStartTime t).startTime = t := by
  have hlt := t.toNat_lt
  apply UInt32.toNat_inj.mp
  rw [toNat_startTime]
  simp only [setStartTime, UInt32.toNat_toUInt16, UInt32.toNat_shiftRight]
  have h16 : (16 : UInt32).toNat % 32 = 16 := by decide
  rw [h16, Nat.shiftRight_eq_div_pow]
  omega

end PendingSlot

@[simp] theorem take_memcpy (dst src : List UInt8) :
    (memcpy dst src).take src.length = src.take maxPacketSize := by
  rw [memcpy, List.take_take, Nat.min_comm, ← List.take_take, List.take_left]

/-- The gate bit is cleared in the packet buffer, and so in the bytes that are handed over. -/
theorem payload_coilOff (p : PendingSlot) (now : UInt32) :
    (coilOff p now).payload = clearGate p.payload := by
  show (p.packet.modify 1 _).take p.packetLength = (p.packet.take p.packetLength).modify 1 _
  rw [List.take_modify]

/-- The members `getSlot` sets. -/
structure Fills (p : PendingSlot) (type : PendingType) (packet : List UInt8) (repeats : Nat)
    (word : UInt16) (origin : Origin) : Prop where
  type_eq : p.type = type
  payload_eq : p.payload = packet.take maxPacketSize
  packetRepeat_eq : p.packetRepeat = repeats
  locoId_eq : p.locoId = word
  origin_eq : p.origin = origin

theorem initialiseSlot_fills (p : PendingSlot) (type : PendingType) (packet : List UInt8)
    (repeats : Nat) (loco : UInt16) (origin : Origin) :
    Fills (initialiseSlot p type packet repeats loco origin) type packet repeats loco origin :=
  ⟨rfl, take_memcpy _ _, rfl, rfl, rfl⟩

/-- **Recycled or new, the slot is the same**: `getSlot` leaves nothing of a slot's earlier use
visible. -/
theorem getSlot_fills (recycleList : List PendingSlot) (type : PendingType) (packet : List UInt8)
    (repeats : Nat) (loco : UInt16) (origin : Origin) :
    Fills (getSlot recycleList type packet repeats loco origin).1 type packet repeats loco
      origin := by
  cases recycleList with
  | nil => exact initialiseSlot_fills ..
  | cons p rest => exact initialiseSlot_fills ..

/-! ## The inversion -/

/-- The repeats `scheduleNextInternal` asks of the waveform: loco packets are repeated by the
queue. -/
def waveformRepeats (p : PendingSlot) : Nat := if p.locoId = 0 then p.packetRepeat else 0

/-- The last hand-over of a slot gives the waveform all the repeats that are left. -/
theorem waveformRepeats_of_last {p : PendingSlot} (hrep : p.locoId ≠ 0 → p.packetRepeat = 0) :
    waveformRepeats p = p.packetRepeat := by
  unfold waveformRepeats
  split
  · rfl
  · next hid => exact (hrep hid).symm

/-- The type of a function packet belongs to no other call. -/
theorem functionType_range {group : Nat} {type : PendingType}
    (h : functionType group = some type) :
    type ≠ .speedPacket ∧ type ≠ .accOffPacket ∧ type ≠ .accOnPacket ∧ type ≠ .normalPacket := by
  unfold functionType at h
  split at h <;> cases h <;> decide

/-- `scheduleNext` settles on slot `p` of the queue of priority `pr`: it is the first eligible
one, and the low priority queue only gets its turn if the high one has none. -/
structure Picked (s : State) (now : UInt32) (pr : Priority) (before : List PendingSlot)
    (p : PendingSlot) (after : List PendingSlot) : Prop where
  queue_eq : s.queue pr = before ++ p :: after
  eligible : eligible s.lastSentPacketLocoId now p = true
  passed : ∀ x ∈ before, DCCQueue.eligible s.lastSentPacketLocoId now x = false
  turn : pr = .low → ∀ x ∈ s.highPriorityQueue,
    DCCQueue.eligible s.lastSentPacketLocoId now x = false

/-- The slot that `scheduleNext` settles on, if it finds one: the first eligible one of the high
priority queue, or else of the low one. -/
def pickedSlot (s : State) (now : UInt32) : Option PendingSlot :=
  (s.highPriorityQueue.find? (eligible s.lastSentPacketLocoId now)).or
    (s.lowPriorityQueue.find? (eligible s.lastSentPacketLocoId now))

theorem Picked.pickedSlot_eq {s : State} {now : UInt32} {pr : Priority} {p : PendingSlot}
    {before after : List PendingSlot} (hp : Picked s now pr before p after) :
    pickedSlot s now = some p := by
  have hfirst : (s.queue pr).find? (DCCQueue.eligible s.lastSentPacketLocoId now) = some p :=
    List.find?_eq_some_iff_append.mpr
      ⟨hp.eligible, before, after, hp.queue_eq, fun x hx => by simp [hp.passed x hx]⟩
  unfold pickedSlot
  cases pr with
  | high => rw [show s.highPriorityQueue.find? _ = some p from hfirst, Option.some_or]
  | low =>
    have hnone : s.highPriorityQueue.find? (DCCQueue.eligible s.lastSentPacketLocoId now) = none :=
      List.find?_eq_none.mpr fun x hx => by simp [hp.turn rfl x hx]
    rw [hnone, Option.none_or]
    exact hfirst

/-- The state right after `p` was given to `schedulePacket`. -/
def handed (s : State) (p : PendingSlot) (now : UInt32) : State :=
  { s with
    handedOver := .slot p (waveformRepeats p) now :: s.handedOver
    lastSentPacketLocoId := p.locoId
    calls := s.calls + 1 }

/-- Everything a call can do. -/
inductive Effect (s : State) : Call → State → Prop
  | packet {packet repeats loco p r}
      (hp : Fills p .normalPacket packet repeats loco ⟨s.calls, .packet, loco⟩) :
      Effect s (.scheduleDCCPacket packet repeats loco)
        { s with
          lowPriorityQueue := s.lowPriorityQueue ++ [p], recycleList := r
          calls := s.calls + 1 }
  | speedOverwrite {packet repeats loco before p after}
      (hq : s.highPriorityQueue = before ++ p :: after) (hid : p.locoId = loco)
      (hbefore : ∀ x ∈ before, x.locoId ≠ loco) :
      Effect s (.scheduleDCCSpeedPacket packet repeats loco)
        { s with
          highPriorityQueue :=
            before ++ overwrite p packet.bytes repeats ⟨s.calls, .speed, loco⟩ :: after
          calls := s.calls + 1 }
  | speedAdd {packet repeats loco p r} (hno : ∀ x ∈ s.highPriorityQueue, x.locoId ≠ loco)
      (hp : Fills p .speedPacket packet.bytes repeats loco ⟨s.calls, .speed, loco⟩) :
      Effect s (.scheduleDCCSpeedPacket packet repeats loco)
        { s with
          highPriorityQueue := s.highPriorityQueue ++ [p], recycleList := r
          calls := s.calls + 1 }
  | functionInvalid {packet loco group} (hg : functionType group = none) :
      Effect s (.scheduleDCCFunctionPacket packet loco group) { s with calls := s.calls + 1 }
  | functionOverwrite {packet loco group type before p after}
      (hg : functionType group = some type) (hq : s.lowPriorityQueue = before ++ p :: after)
      (hid : p.locoId = loco) (htype : p.type = type) :
      Effect s (.scheduleDCCFunctionPacket packet loco group)
        { s with
          lowPriorityQueue :=
            before ++ overwrite p packet.bytes 0 ⟨s.calls, .function, loco⟩ :: after
          calls := s.calls + 1 }
  | functionAdd {packet loco group type p r} (hg : functionType group = some type)
      (hp : Fills p type packet.bytes 0 loco ⟨s.calls, .function, loco⟩) :
      Effect s (.scheduleDCCFunctionPacket packet loco group)
        { s with
          lowPriorityQueue := s.lowPriorityQueue ++ [p], recycleList := r
          calls := s.calls + 1 }
  | estop {packet repeats loco p r}
      (hp : Fills p .speedPacket packet repeats 0 ⟨s.calls, .estop, loco⟩) :
      Effect s (.scheduleEstopPacket packet repeats loco)
        { s with
          highPriorityQueue := p :: s.highPriorityQueue.filter (fun x => !estopKills loco x)
          recycleList := r, calls := s.calls + 1 }
  -- the union again: the delay is what `locoId` reads from the coil-on slot
  | accOnOff {packet repeats delayms p r}
      (hp : Fills p .accOnPacket packet repeats delayms.toUInt16 ⟨s.calls, .accOnOff, 0⟩) :
      Effect s (.scheduleAccOnOffPacket packet repeats delayms)
        { s with
          lowPriorityQueue := s.lowPriorityQueue ++ [p], recycleList := r
          calls := s.calls + 1 }
  | nothing {now} : Effect s (.scheduleNext false now) { s with calls := s.calls + 1 }
  | idle {now} :
      Effect s (.scheduleNext true now)
        { s with
          handedOver := .idle now :: s.handedOver, lastSentPacketLocoId := 0
          calls := s.calls + 1 }
  | repeated {force now pr before p after} (hp : Picked s now pr before p after)
      (hid : p.locoId ≠ 0) (hrep : p.packetRepeat ≠ 0) :
      Effect s (.scheduleNext force now)
        ((handed s p now).setQueue pr
          (before ++ { p with packetRepeat := p.packetRepeat - 1 } :: after))
  | switched {force now pr before p after} (hp : Picked s now pr before p after)
      (htype : p.type = .accOnPacket) (hrep : p.locoId ≠ 0 → p.packetRepeat = 0) :
      Effect s (.scheduleNext force now)
        { (handed s p now).setQueue pr (before ++ after) with
          highPriorityQueue :=
            coilOff p now :: ((handed s p now).setQueue pr (before ++ after)).highPriorityQueue }
  | recycled {force now pr before p after r} (hp : Picked s now pr before p after)
      (htype : p.type ≠ .accOnPacket) (hrep : p.locoId ≠ 0 → p.packetRepeat = 0) :
      Effect s (.scheduleNext force now)
        { (handed s p now).setQueue pr (before ++ after) with recycleList := r }

theorem scheduleDCCSpeedPacket_effect (s : State) (packet : Packet) (repeats : Nat)
    (loco : UInt16) :
    Effect s (.scheduleDCCSpeedPacket packet repeats loco)
      (step s (.scheduleDCCSpeedPacket packet repeats loco)) := by
  simp only [step, exec, scheduleDCCSpeedPacket]
  split
  · next before p after hsplit =>
    obtain ⟨hq, hid, hbefore⟩ := splitFirst_eq_some hsplit
    exact .speedOverwrite hq (by simpa using hid) (by simpa using hbefore)
  · next hnone =>
    have hno := splitFirst_eq_none.mp hnone
    exact .speedAdd (by simpa using hno) (getSlot_fills ..)

theorem scheduleDCCFunctionPacket_effect (s : State) (packet : Packet) (loco : UInt16)
    (group : Nat) :
    Effect s (.scheduleDCCFunctionPacket packet loco group)
      (step s (.scheduleDCCFunctionPacket packet loco group)) := by
  simp only [step, exec, scheduleDCCFunctionPacket]
  split
  · next hg => exact .functionInvalid hg
  · next type hg =>
    split
    · next before p after hsplit =>
      obtain ⟨hq, hmatch, -⟩ := splitFirst_eq_some hsplit
      simp only [Bool.and_eq_true, beq_iff_eq] at hmatch
      exact .functionOverwrite hg hq hmatch.1 hmatch.2
    · exact .functionAdd hg (getSlot_fills ..)

/-- What `scheduleNextInternal` does with the slot it settles on. -/
theorem scheduleNextInternal_effect {s s' : State} {force : Bool} {now : UInt32} {pr : Priority}
    (hturn : pr = .low → scheduleNextInternal .high now s = none)
    (h : scheduleNextInternal pr now s = some s') :
    Effect s (.scheduleNext force now) { s' with calls := s.calls + 1 } := by
  simp only [scheduleNextInternal] at h
  split at h
  · cases h
  · next before p after hsplit =>
    obtain ⟨hq, hel, hbefore⟩ := splitFirst_eq_some hsplit
    -- the low queue has its turn only if nothing in the high queue may be sent
    have hp : Picked s now pr before p after := by
      refine ⟨hq, hel, hbefore, ?_⟩
      intro hpr
      have hnone := hturn hpr
      simp only [scheduleNextInternal] at hnone
      -- a loco packet is handed over without repeats, and stays if it has some left
      split at hnone
      · next hno => exact splitFirst_eq_none.mp hno
      · split at hnone
        · split at hnone <;> cases hnone
        · cases hnone
    split at h
    · next hid =>
      have hw : waveformRepeats p = 0 := if_neg hid
      split at h
      · next hrep =>
        cases h
        have he : Effect s (.scheduleNext force now) _ := .repeated hp hid hrep
        simp only [handed, hw] at he
        cases pr <;> exact he
      · next hrep =>
        cases h
        unfold finish
        have hrep' : p.locoId ≠ 0 → p.packetRepeat = 0 := fun _ => not_not.mp hrep
        split
        · next htype =>
          have he : Effect s (.scheduleNext force now) _ := .switched hp htype hrep'
          simp only [handed, hw] at he
          cases pr <;> exact he
        · next htype =>
          have he : Effect s (.scheduleNext force now) _ :=
            .recycled (r := p :: s.recycleList) hp htype hrep'
          simp only [handed, hw] at he
          cases pr <;> exact he
    · next hid =>
      -- any other packet has its repeats made by the waveform
      have hid' : p.locoId = 0 := not_not.mp hid
      have hw : waveformRepeats p = p.packetRepeat := if_pos hid'
      cases h
      unfold finish
      have hrep' : p.locoId ≠ 0 → p.packetRepeat = 0 := fun h => absurd hid' h
      split
      · next htype =>
        have he : Effect s (.scheduleNext force now) _ := .switched hp htype hrep'
        simp only [handed, hw, hid'] at he
        cases pr <;> exact he
      · next htype =>
        have he : Effect s (.scheduleNext force now) _ :=
            .recycled (r := p :: s.recycleList) hp htype hrep'
        simp only [handed, hw, hid'] at he
        cases pr <;> exact he

/-- **Every call is one of the listed effects.** -/
theorem step_effect (s : State) (c : Call) : Effect s c (step s c) := by
  cases c with
  | scheduleDCCPacket packet repeats loco => exact .packet (getSlot_fills ..)
  | scheduleDCCSpeedPacket packet repeats loco => exact scheduleDCCSpeedPacket_effect ..
  | scheduleDCCFunctionPacket packet loco group => exact scheduleDCCFunctionPacket_effect ..
  | scheduleEstopPacket packet repeats loco => exact .estop (getSlot_fills ..)
  | scheduleAccOnOffPacket packet repeats delayms =>
    have hf := getSlot_fills s.recycleList .accOnPacket packet repeats 0 ⟨s.calls, .accOnOff, 0⟩
    exact .accOnOff ⟨hf.type_eq, hf.payload_eq, hf.packetRepeat_eq, rfl, hf.origin_eq⟩
  | scheduleNext force now =>
    simp only [step, exec, scheduleNext]
    split
    · next s' h => exact scheduleNextInternal_effect (fun hpr => by cases hpr) h
    · next hhigh =>
      split
      · next s' h => exact scheduleNextInternal_effect (fun _ => hhigh) h
      · cases force
        · exact .nothing
        · exact .idle

end CommandStation.DCCQueue
