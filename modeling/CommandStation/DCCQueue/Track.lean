import CommandStation.DCCQueue.Effect

/-!
# Following one call through a history

The packet of a schedule call is recognised by the number of the call. `ofCall k q` are the slots
of queue `q` that hold it, `handedFor k s` the hand-overs of it.
The lemmas say what the list operations of `Effect` do to `ofCall`: nothing, unless the slot that
is written, removed or added belongs to call `k`.
-/

namespace CommandStation.DCCQueue

open CommandStation.Lib

/-- The slots that hold the packet of call `k`. -/
def ofCall (k : Nat) (q : List PendingSlot) : List PendingSlot :=
  q.filter fun p => p.origin.call == k

namespace HandOver

/-- The hand-over is of the packet of call `k`. -/
def isOf (k : Nat) : HandOver → Bool
  | .idle _ => false
  | .slot p _ _ => p.origin.call == k

/-- The hand-over is from a slot of the given type. -/
def hasType (type : PendingType) : HandOver → Bool
  | .idle _ => false
  | .slot p _ _ => p.type == type

/-- How often a hand-over puts its packet on the track: once and the repeats of the waveform. -/
def copies : HandOver → Nat
  | .idle _ => 1
  | .slot _ repeats _ => 1 + repeats

end HandOver

/-- The hand-overs of the packet of call `k`, newest first. -/
def handedFor (k : Nat) (s : State) : List HandOver := s.handedOver.filter (HandOver.isOf k)

/-- The hand-overs of the packet of call `k` from a slot of type `type`, newest first. -/
def handedOf (k : Nat) (type : PendingType) (s : State) : List HandOver :=
  (handedFor k s).filter (HandOver.hasType type)

/-- How often the packets of these hand-overs are sent. -/
def copiesIn (hs : List HandOver) : Nat := hs.foldr (fun h n => h.copies + n) 0

@[simp] theorem copiesIn_cons (h : HandOver) (hs : List HandOver) :
    copiesIn (h :: hs) = h.copies + copiesIn hs := rfl

/-! ## `ofCall` and the list operations -/

variable {k : Nat} {before after q : List PendingSlot} {p x : PendingSlot}

theorem mem_ofCall : p ∈ ofCall k q ↔ p ∈ q ∧ p.origin.call = k := by simp [ofCall]

@[simp] theorem ofCall_append (q r : List PendingSlot) :
    ofCall k (q ++ r) = ofCall k q ++ ofCall k r := List.filter_append ..

theorem ofCall_cons_of_eq (h : p.origin.call = k) : ofCall k (p :: q) = p :: ofCall k q := by
  simp [ofCall, h]

theorem ofCall_cons_of_ne (h : p.origin.call ≠ k) : ofCall k (p :: q) = ofCall k q := by
  simp [ofCall, h]

@[simp] theorem ofCall_nil : ofCall k [] = [] := rfl

theorem ofCall_snoc_of_ne (h : p.origin.call ≠ k) : ofCall k (q ++ [p]) = ofCall k q := by
  rw [ofCall_append, ofCall_cons_of_ne h, ofCall_nil, List.append_nil]

/-- A slot of another call can be removed unnoticed. -/
theorem ofCall_remove (h : p.origin.call ≠ k) :
    ofCall k (before ++ after) = ofCall k (before ++ p :: after) := by
  rw [ofCall_append, ofCall_append, ofCall_cons_of_ne h]

/-- A slot of another call can be written unnoticed. -/
theorem ofCall_write {p' : PendingSlot} (h : p.origin.call ≠ k) (h' : p'.origin.call ≠ k) :
    ofCall k (before ++ p' :: after) = ofCall k (before ++ p :: after) := by
  rw [← ofCall_remove h', ofCall_remove h]

/-- If the packet sits in one slot only and `p` is that slot, the rest of the queue is foreign. -/
theorem ofCall_eq_singleton (hq : ofCall k (before ++ p :: after) = [x])
    (hp : p.origin.call = k) : p = x ∧ ofCall k (before ++ after) = [] := by
  rw [ofCall_append, ofCall_cons_of_eq hp, List.append_eq_singleton_iff] at hq
  rcases hq with ⟨hb, ha⟩ | ⟨-, ha⟩
  · obtain ⟨rfl, hafter⟩ := List.cons.inj ha
    exact ⟨rfl, by rw [ofCall_append, hb, hafter, List.append_nil]⟩
  · cases ha

/-- Slots of call `k` are not lost to a filter they all pass. -/
theorem ofCall_filter {test : PendingSlot → Bool} (h : ∀ p ∈ ofCall k q, test p = true) :
    ofCall k (q.filter test) = ofCall k q := by
  rw [ofCall, List.filter_filter, ofCall]
  apply List.filter_congr
  intro p hp
  by_cases hk : p.origin.call = k
  · simp [hk, h p (mem_ofCall.mpr ⟨hp, hk⟩)]
  · simp [hk]

/-! ## Where the slots of a queue come from -/

/-- How slot `p` got into the queue of priority `pr` by call `c`: it was there, or the call put it
there. -/
inductive Source (s : State) : Call → Priority → PendingSlot → Prop
  | old {c pr p} (hp : p ∈ s.queue pr) : Source s c pr p
  | packet {packet repeats loco p}
      (hp : Fills p .normalPacket packet repeats loco ⟨s.calls, .packet, loco⟩) :
      Source s (.scheduleDCCPacket packet repeats loco) .low p
  | speedOverwrite {packet repeats p} (hp : p ∈ s.highPriorityQueue) :
      Source s (.scheduleDCCSpeedPacket packet repeats p.locoId) .high
        (overwrite p packet.bytes repeats ⟨s.calls, .speed, p.locoId⟩)
  | speedAdd {packet repeats loco p}
      (hp : Fills p .speedPacket packet.bytes repeats loco ⟨s.calls, .speed, loco⟩) :
      Source s (.scheduleDCCSpeedPacket packet repeats loco) .high p
  | functionOverwrite {packet group p} (hg : functionType group = some p.type)
      (hp : p ∈ s.lowPriorityQueue) :
      Source s (.scheduleDCCFunctionPacket packet p.locoId group) .low
        (overwrite p packet.bytes 0 ⟨s.calls, .function, p.locoId⟩)
  | functionAdd {packet loco group type p} (hg : functionType group = some type)
      (hp : Fills p type packet.bytes 0 loco ⟨s.calls, .function, loco⟩) :
      Source s (.scheduleDCCFunctionPacket packet loco group) .low p
  | estop {packet repeats loco p}
      (hp : Fills p .speedPacket packet repeats 0 ⟨s.calls, .estop, loco⟩) :
      Source s (.scheduleEstopPacket packet repeats loco) .high p
  | accOnOff {packet repeats delayms p}
      (hp : Fills p .accOnPacket packet repeats delayms.toUInt16 ⟨s.calls, .accOnOff, 0⟩) :
      Source s (.scheduleAccOnOffPacket packet repeats delayms) .low p
  | repeated {force now pr p} (hp : p ∈ s.queue pr) :
      Source s (.scheduleNext force now) pr { p with packetRepeat := p.packetRepeat - 1 }
  | switched {force now pr p} (hp : p ∈ s.queue pr) (htype : p.type = .accOnPacket) :
      Source s (.scheduleNext force now) .high (coilOff p now)

section Source

variable {s : State} {now : UInt32} {pr : Priority} {c : Call}

@[simp] theorem handedOver_setQueue : (s.setQueue pr q).handedOver = s.handedOver := by
  cases pr <;> rfl

@[simp] theorem lastSentPacketLocoId_setQueue :
    (s.setQueue pr q).lastSentPacketLocoId = s.lastSentPacketLocoId := by
  cases pr <;> rfl

theorem Picked.mem (hp : Picked s now pr before p after) : p ∈ s.queue pr := by
  rw [hp.queue_eq]; simp

/-- What is left of a queue when a slot is taken out. -/
theorem Picked.mem_of_mem_rest (hp : Picked s now pr before p after) (hx : x ∈ before ++ after) :
    x ∈ s.queue pr := by
  rw [hp.queue_eq]
  rcases List.mem_append.mp hx with hx | hx <;> simp [hx]

/-- The queues after one of them was rewritten. -/
theorem State.mem_setQueue {pr' : Priority} (hx : x ∈ (s.setQueue pr q).queue pr') :
    (pr' = pr ∧ x ∈ q) ∨ x ∈ s.queue pr' := by
  cases pr <;> cases pr'
  · exact .inl ⟨rfl, hx⟩
  · exact .inr hx
  · exact .inr hx
  · exact .inl ⟨rfl, hx⟩

/-- A slot joins the end of a queue. -/
theorem Source.of_mem_snoc (hp : Source s c pr p) (hx : x ∈ s.queue pr ++ [p]) :
    Source s c pr x := by
  rcases List.mem_append.mp hx with hx | hx
  · exact .old hx
  · rw [List.mem_singleton.mp hx]; exact hp

/-- A slot takes another one's place. -/
theorem Source.of_mem_write {p' : PendingSlot} (hq : s.queue pr = before ++ p :: after)
    (hp : Source s c pr p') (hx : x ∈ before ++ p' :: after) : Source s c pr x := by
  simp only [List.mem_append, List.mem_cons] at hx
  rcases hx with hx | rfl | hx
  · exact .old (by rw [hq]; simp [hx])
  · exact hp
  · exact .old (by rw [hq]; simp [hx])

/-- A slot is taken out. -/
theorem Source.of_mem_rest (hp : Picked s now pr before p after) (pr' : Priority)
    (hx : x ∈ ((handed s p now).setQueue pr (before ++ after)).queue pr') :
    Source s c pr' x := by
  rcases State.mem_setQueue hx with ⟨rfl, hmem⟩ | hmem
  · exact .old (hp.mem_of_mem_rest hmem)
  · cases pr' <;> exact .old hmem

/-- **Every slot in the queues has a source.** -/
theorem step_source (c : Call) (pr : Priority) (hx : x ∈ (step s c).queue pr) :
    Source s c pr x := by
  -- a call leaves a slot alone, writes one in its place, or puts one at an end of a queue
  have he := step_effect s c
  generalize step s c = s' at he hx
  -- one case for each effect of a call
  cases he with
  | packet hp =>
    cases pr with
    | high => exact .old hx
    | low => exact Source.of_mem_snoc (.packet hp) hx
  | @speedOverwrite packet repeats _ before p after hq hid hbefore =>
    subst hid
    cases pr with
    | high =>
      have hp : p ∈ s.highPriorityQueue := by rw [hq]; simp
      exact Source.of_mem_write hq (.speedOverwrite hp) hx
    | low => exact .old hx
  | speedAdd hno hp =>
    cases pr with
    | high => exact Source.of_mem_snoc (.speedAdd hp) hx
    | low => exact .old hx
  | functionInvalid hg => cases pr <;> exact .old hx
  | @functionOverwrite packet _ group _ before p after hg hq hid htype =>
    subst hid htype
    cases pr with
    | high => exact .old hx
    | low =>
      have hp : p ∈ s.lowPriorityQueue := by rw [hq]; simp
      exact Source.of_mem_write hq (.functionOverwrite hg hp) hx
  | functionAdd hg hp =>
    cases pr with
    | high => exact .old hx
    | low => exact Source.of_mem_snoc (.functionAdd hg hp) hx
  | estop hp =>
    cases pr with
    | high =>
      rcases List.mem_cons.mp hx with rfl | hx
      · exact .estop hp
      · exact .old (List.mem_filter.mp hx).1
    | low => exact .old hx
  | accOnOff hp =>
    cases pr with
    | high => exact .old hx
    | low => exact Source.of_mem_snoc (.accOnOff hp) hx
  | nothing => cases pr <;> exact .old hx
  | idle => cases pr <;> exact .old hx
  | @repeated _ now pr' before p after hp hid hrep =>
    rcases State.mem_setQueue hx with ⟨rfl, hmem⟩ | hmem
    · exact Source.of_mem_write hp.queue_eq (.repeated hp.mem) hmem
    · cases pr <;> exact .old hmem
  | @switched _ now pr' before p after hp htype hrep =>
    cases pr with
    | high =>
      rcases List.mem_cons.mp hx with rfl | hx
      · exact .switched hp.mem htype
      · exact .of_mem_rest hp .high hx
    | low => exact .of_mem_rest hp .low hx
  | @recycled _ now pr' before p after r hp htype hrep =>
    cases pr with
    | high => exact .of_mem_rest hp .high hx
    | low => exact .of_mem_rest hp .low hx

/-- What a call can add to the log, with the loco id it leaves as the last one. -/
inductive Logged (s : State) : Call → State → Prop
  | quiet {c s'} (hlog : s'.handedOver = s.handedOver)
      (hlast : s'.lastSentPacketLocoId = s.lastSentPacketLocoId) : Logged s c s'
  | idle {now s'} (hlog : s'.handedOver = .idle now :: s.handedOver)
      (hlast : s'.lastSentPacketLocoId = 0) : Logged s (.scheduleNext true now) s'
  | slot {force now pr before p after s'} (hp : Picked s now pr before p after)
      (hlog : s'.handedOver = .slot p (waveformRepeats p) now :: s.handedOver)
      (hlast : s'.lastSentPacketLocoId = p.locoId) : Logged s (.scheduleNext force now) s'

/-- **Only queued slots are handed over.** -/
theorem step_log (s : State) (c : Call) : Logged s c (step s c) := by
  have he := step_effect s c
  generalize step s c = s' at he ⊢
  cases he with
  | idle => exact .idle rfl rfl
  | repeated hp hid hrep => exact .slot hp (by simp [handed]) (by simp [handed])
  | switched hp htype hrep => exact .slot hp (by simp [handed]) (by simp [handed])
  | recycled hp htype hrep => exact .slot hp (by simp [handed]) (by simp [handed])
  | _ => exact .quiet rfl rfl

end Source

/-! ## Invariants of single slots -/

/-- A property of the slots of each queue that every source has; `n` is the number of calls
made so far. -/
structure SlotInv (I : Nat → Priority → PendingSlot → Prop) : Prop where
  mono : ∀ {n pr p}, I n pr p → I (n + 1) pr p
  packet : ∀ {n p packet repeats loco},
    Fills p .normalPacket packet repeats loco ⟨n, .packet, loco⟩ → I (n + 1) .low p
  speedOverwrite : ∀ {n p packet repeats},
    I n .high p → I (n + 1) .high (overwrite p packet repeats ⟨n, .speed, p.locoId⟩)
  speedAdd : ∀ {n p packet repeats loco},
    Fills p .speedPacket packet repeats loco ⟨n, .speed, loco⟩ → I (n + 1) .high p
  functionOverwrite : ∀ {n group p packet},
    functionType group = some p.type → I n .low p →
    I (n + 1) .low (overwrite p packet 0 ⟨n, .function, p.locoId⟩)
  functionAdd : ∀ {n group type p packet loco}, functionType group = some type →
    Fills p type packet 0 loco ⟨n, .function, loco⟩ → I (n + 1) .low p
  estop : ∀ {n p packet repeats loco},
    Fills p .speedPacket packet repeats 0 ⟨n, .estop, loco⟩ → I (n + 1) .high p
  accOnOff : ∀ {n p packet repeats delay},
    Fills p .accOnPacket packet repeats delay ⟨n, .accOnOff, 0⟩ → I (n + 1) .low p
  repeated : ∀ {n pr p}, I n pr p → I n pr { p with packetRepeat := p.packetRepeat - 1 }
  switched : ∀ {n pr p now}, p.type = .accOnPacket → I n pr p → I n .high (coilOff p now)

/-- `I` holds of every slot in the queues and of every slot that was handed over. -/
structure Everywhere (I : Nat → Priority → PendingSlot → Prop) (s : State) : Prop where
  pending : ∀ pr, ∀ p ∈ s.queue pr, I s.calls pr p
  handed : ∀ p r now, HandOver.slot p r now ∈ s.handedOver → ∃ pr, I s.calls pr p

section SlotInv

variable {I : Nat → Priority → PendingSlot → Prop} {s : State}

theorem everywhere_init : Everywhere I init where
  pending := by intro pr p hp; cases pr <;> cases hp
  handed := by intro p r now hp; cases hp

/-- A property of slots survives the call that puts a slot into its queue. -/
theorem SlotInv.of_source (hI : SlotInv I) {c : Call} {pr : Priority}
    (h : ∀ pr, ∀ p ∈ s.queue pr, I s.calls pr p) (hx : Source s c pr x) :
    I (s.calls + 1) pr x := by
  cases hx with
  | old hp => exact hI.mono (h _ _ hp)
  | packet hp => exact hI.packet hp
  | speedOverwrite hp => exact hI.speedOverwrite (h .high _ hp)
  | speedAdd hp => exact hI.speedAdd hp
  | functionOverwrite hg hp => exact hI.functionOverwrite hg (h .low _ hp)
  | functionAdd hg hp => exact hI.functionAdd hg hp
  | estop hp => exact hI.estop hp
  | accOnOff hp => exact hI.accOnOff hp
  | repeated hp => exact hI.mono (hI.repeated (h _ _ hp))
  | switched hp htype => exact hI.mono (hI.switched htype (h _ _ hp))

/-- **The rule for slots**: what each source has holds everywhere after the call. -/
theorem SlotInv.everywhere_step (hI : SlotInv I) (c : Call) (h : Everywhere I s) :
    Everywhere I (step s c) := by
  have old : ∀ p r now, HandOver.slot p r now ∈ s.handedOver → ∃ pr, I (s.calls + 1) pr p := by
    intro p r now hp
    obtain ⟨pr, hpr⟩ := h.handed p r now hp
    exact ⟨pr, hI.mono hpr⟩
  refine ⟨fun pr x hx => hI.of_source h.pending (step_source c pr hx), ?_⟩
  intro x r t hx
  rw [show (step s c).calls = s.calls + 1 from rfl]
  have hl := step_log s c
  generalize step s c = s' at hl hx
  cases hl with
  | quiet hlog hlast =>
    rw [hlog] at hx
    exact old x r t hx
  | idle hlog hlast =>
    rw [hlog] at hx
    rcases List.mem_cons.mp hx with heq | hx
    · cases heq
    · exact old x r t hx
  | slot hp hlog hlast =>
    rw [hlog] at hx
    rcases List.mem_cons.mp hx with heq | hx
    · cases heq
      exact ⟨_, hI.mono (h.pending _ x hp.mem)⟩
    · exact old x r t hx

theorem SlotInv.everywhere_after (hI : SlotInv I) (cs : List Call) :
    Everywhere I (DCCQueue.after cs) :=
  inv_run_of_step _ (fun _ c h => hI.everywhere_step c h) everywhere_init cs

end SlotInv

/-! ## Numbered histories -/

/-- Every packet in the queues and in the log comes from a call that has been made. -/
abbrev Numbered (s : State) : Prop := Everywhere (fun n _ p => p.origin.call < n) s

theorem slotInv_numbered : SlotInv (fun n _ p => p.origin.call < n) where
  mono h := Nat.lt_succ_of_lt h
  packet h := by rw [h.origin_eq]; exact Nat.lt_succ_self _
  speedOverwrite _ := Nat.lt_succ_self _
  speedAdd h := by rw [h.origin_eq]; exact Nat.lt_succ_self _
  functionOverwrite _ _ := Nat.lt_succ_self _
  functionAdd _ h := by rw [h.origin_eq]; exact Nat.lt_succ_self _
  estop h := by rw [h.origin_eq]; exact Nat.lt_succ_self _
  accOnOff h := by rw [h.origin_eq]; exact Nat.lt_succ_self _
  repeated h := h
  switched _ h := h

/-- The calls of a history are numbered by their position. -/
theorem numbered_after (cs : List Call) : Numbered (DCCQueue.after cs) :=
  slotInv_numbered.everywhere_after cs

/-- A call that is not made yet has left no trace. -/
theorem Everywhere.ofCall_calls {s : State} (hs : Numbered s) (pr : Priority) :
    ofCall s.calls (s.queue pr) = [] := by
  refine List.filter_eq_nil_iff.mpr fun p hp => ?_
  have := hs.pending pr p hp
  simp only [beq_iff_eq]
  omega

theorem Everywhere.handedFor_calls {s : State} (hs : Numbered s) : handedFor s.calls s = [] := by
  refine List.filter_eq_nil_iff.mpr fun h hh => ?_
  cases h with
  | idle now => simp [HandOver.isOf]
  | slot p r now =>
    obtain ⟨-, hlt⟩ := hs.handed p r now hh
    simp only [HandOver.isOf, beq_iff_eq]
    omega

theorem calls_step (s : State) (c : Call) : (step s c).calls = s.calls + 1 := rfl

theorem calls_run (s : State) (cs : List Call) : (run step s cs).calls = s.calls + cs.length := by
  induction cs generalizing s with
  | nil => rfl
  | cons c cs ih => rw [run_cons, ih, calls_step, List.length_cons]; omega

/-- The call at position `k` is made when `k` calls have been made. -/
theorem calls_after_take {cs : List Call} {k : Nat} {c : Call} (hk : cs[k]? = some c) :
    (DCCQueue.after (cs.take k)).calls = k := by
  obtain ⟨hlt, -⟩ := List.getElem?_eq_some_iff.mp hk
  rw [DCCQueue.after, calls_run, List.length_take, Nat.min_eq_left (Nat.le_of_lt hlt)]
  exact Nat.zero_add k

/-! ## What a call does to the packet of an earlier call -/

section Moves

variable {s : State} {pr : Priority} {now : UInt32}

theorem handedFor_handed_of_ne (hk : p.origin.call ≠ k) :
    handedFor k (handed s p now) = handedFor k s := by
  simp [handedFor, handed, HandOver.isOf, hk]

theorem handedFor_handed_of_eq (hk : p.origin.call = k) :
    handedFor k (handed s p now) = .slot p (waveformRepeats p) now :: handedFor k s := by
  simp [handedFor, handed, HandOver.isOf, hk]

/-- A hand-over from a slot of another type is not counted. -/
theorem handedOf_handed_of_ne {type : PendingType} (hk : p.origin.call = k) (h : p.type ≠ type) :
    handedOf k type (handed s p now) = handedOf k type s := by
  simp [handedOf, handedFor_handed_of_eq hk, HandOver.hasType, h]

theorem handedOf_handed_of_eq (hk : p.origin.call = k) :
    handedOf k p.type (handed s p now) =
      .slot p (waveformRepeats p) now :: handedOf k p.type s := by
  simp [handedOf, handedFor_handed_of_eq hk, HandOver.hasType]

/-- `Effect` as the packet of call `k` sees it: it is left alone, or its slot is written over or
thrown out, or it is handed over. -/
inductive Moves (k : Nat) (s : State) : Call → State → Prop
  | frame {c s'} (hhigh : ofCall k s'.highPriorityQueue = ofCall k s.highPriorityQueue)
      (hlow : ofCall k s'.lowPriorityQueue = ofCall k s.lowPriorityQueue)
      (hlog : handedFor k s' = handedFor k s) : Moves k s c s'
  | speedOverwrite {packet repeats loco p s'} (hp : p ∈ s.highPriorityQueue)
      (hk : p.origin.call = k) (hid : p.locoId = loco)
      (hfirst : s.highPriorityQueue.find? (fun p => p.locoId == loco) = some p) :
      Moves k s (.scheduleDCCSpeedPacket packet repeats loco) s'
  | functionOverwrite {packet loco group p s'} (hp : p ∈ s.lowPriorityQueue)
      (hk : p.origin.call = k) (htype : functionType group = some p.type) :
      Moves k s (.scheduleDCCFunctionPacket packet loco group) s'
  | estop {packet repeats loco p s'} (hp : p ∈ s.highPriorityQueue) (hk : p.origin.call = k)
      (hkill : estopKills loco p = true) :
      Moves k s (.scheduleEstopPacket packet repeats loco) s'
  | repeated {force now pr before p after} (hp : Picked s now pr before p after)
      (hk : p.origin.call = k) (hid : p.locoId ≠ 0) (hrep : p.packetRepeat ≠ 0) :
      Moves k s (.scheduleNext force now)
        ((handed s p now).setQueue pr
          (before ++ { p with packetRepeat := p.packetRepeat - 1 } :: after))
  | switched {force now pr before p after} (hp : Picked s now pr before p after)
      (hk : p.origin.call = k) (htype : p.type = .accOnPacket)
      (hrep : p.locoId ≠ 0 → p.packetRepeat = 0) :
      Moves k s (.scheduleNext force now)
        { (handed s p now).setQueue pr (before ++ after) with
          highPriorityQueue :=
            coilOff p now :: ((handed s p now).setQueue pr (before ++ after)).highPriorityQueue }
  | recycled {force now pr before p after r} (hp : Picked s now pr before p after)
      (hk : p.origin.call = k) (htype : p.type ≠ .accOnPacket)
      (hrep : p.locoId ≠ 0 → p.packetRepeat = 0) :
      Moves k s (.scheduleNext force now)
        { (handed s p now).setQueue pr (before ++ after) with recycleList := r }

theorem Picked.ofCall_rest (hp : Picked s now pr before p after) (hk : p.origin.call ≠ k) :
    ofCall k (before ++ after) = ofCall k (s.queue pr) := by
  rw [hp.queue_eq, ofCall_remove hk]

theorem Picked.ofCall_write {p' : PendingSlot} (hp : Picked s now pr before p after)
    (hk : p.origin.call ≠ k) (hk' : p'.origin.call ≠ k) :
    ofCall k (before ++ p' :: after) = ofCall k (s.queue pr) := by
  rw [hp.queue_eq, DCCQueue.ofCall_write hk hk']

/-- The one slot of call `k` leaves the queue. -/
theorem Picked.ofCall_rest_of_eq (hp : Picked s now pr before p after)
    (hq : ofCall k (s.queue pr) = [p]) (hk : p.origin.call = k) :
    ofCall k (before ++ after) = [] := by
  rw [hp.queue_eq] at hq
  exact (ofCall_eq_singleton hq hk).2

/-- The one slot of call `k` is written in its place. -/
theorem Picked.ofCall_write_of_eq {p' : PendingSlot} (hp : Picked s now pr before p after)
    (hq : ofCall k (s.queue pr) = [p]) (hk : p.origin.call = k) (hk' : p'.origin.call = k) :
    ofCall k (before ++ p' :: after) = [p'] := by
  have hrest := hp.ofCall_rest_of_eq hq hk
  rw [ofCall_append, List.append_eq_nil_iff] at hrest
  rw [ofCall_append, hrest.1, ofCall_cons_of_eq hk', hrest.2, List.nil_append]

/-- A queue is rewritten without a change to the slots of call `k`. -/
theorem ofCall_setQueue (hq : ofCall k q = ofCall k (s.queue pr)) (p : PendingSlot)
    (now : UInt32) (pr' : Priority) :
    ofCall k (((handed s p now).setQueue pr q).queue pr') = ofCall k (s.queue pr') := by
  cases pr <;> cases pr' <;> first | exact hq | rfl

/-- The log of call `k` after a hand-over from a slot of another call. -/
theorem handedFor_setQueue_of_ne (hk : p.origin.call ≠ k) :
    handedFor k ((handed s p now).setQueue pr q) = handedFor k s := by
  calc handedFor k ((handed s p now).setQueue pr q)
      = handedFor k (handed s p now) := by rw [handedFor, handedOver_setQueue, handedFor]
    _ = handedFor k s := handedFor_handed_of_ne hk

/-- **Every call is one of the listed moves** for the packet of an earlier call. -/
theorem step_moves (hk : k < s.calls) (c : Call) : Moves k s c (step s c) := by
  have hne : s.calls ≠ k := Nat.ne_of_gt hk
  have he := step_effect s c
  generalize step s c = s' at he ⊢
  -- each effect is a move if its slot is of call `k`, and changes nothing for `k` otherwise
  cases he with
  | packet hp => exact .frame rfl (ofCall_snoc_of_ne (by rw [hp.origin_eq]; exact hne)) rfl
  | @speedOverwrite _ _ _ before p after hq hid hbefore =>
    by_cases hpk : p.origin.call = k
    · refine .speedOverwrite (by rw [hq]; simp) hpk hid ?_
      rw [List.find?_eq_some_iff_append]
      exact ⟨by simp [hid], before, after, hq, by simpa using hbefore⟩
    · refine .frame ?_ rfl rfl
      rw [hq]
      exact ofCall_write hpk hne
  | speedAdd hno hp =>
    exact .frame (ofCall_snoc_of_ne (by rw [hp.origin_eq]; exact hne)) rfl rfl
  | functionInvalid hg => exact .frame rfl rfl rfl
  | @functionOverwrite _ _ _ _ before p after hg hq hid htype =>
    by_cases hpk : p.origin.call = k
    · exact .functionOverwrite (by rw [hq]; simp) hpk (htype ▸ hg)
    · refine .frame rfl ?_ rfl
      rw [hq]
      exact ofCall_write hpk hne
  | functionAdd hg hp =>
    exact .frame rfl (ofCall_snoc_of_ne (by rw [hp.origin_eq]; exact hne)) rfl
  | @estop _ _ loco p _ hp =>
    by_cases hkill : ∃ x ∈ ofCall k s.highPriorityQueue, estopKills loco x = true
    · obtain ⟨x, hx, hkill⟩ := hkill
      obtain ⟨hx, hxk⟩ := mem_ofCall.mp hx
      exact .estop hx hxk hkill
    · refine .frame ?_ rfl rfl
      show ofCall k (p :: _) = _
      rw [ofCall_cons_of_ne (by rw [hp.origin_eq]; exact hne)]
      apply ofCall_filter
      intro x hx
      simpa using fun h => hkill ⟨x, hx, h⟩
  | accOnOff hp =>
    exact .frame rfl (ofCall_snoc_of_ne (by rw [hp.origin_eq]; exact hne)) rfl
  | nothing => exact .frame rfl rfl rfl
  | idle => exact .frame rfl rfl rfl
  | @repeated _ now pr before p after hp hid hrep =>
    by_cases hpk : p.origin.call = k
    · exact .repeated hp hpk hid hrep
    · have hk' : { p with packetRepeat := p.packetRepeat - 1 }.origin.call ≠ k := hpk
      have hq := ofCall_setQueue (hp.ofCall_write hpk hk') p now
      exact .frame (hq .high) (hq .low) (handedFor_setQueue_of_ne hpk)
  | @switched _ now pr before p after hp htype hrep =>
    by_cases hpk : p.origin.call = k
    · exact .switched hp hpk htype hrep
    · have hq := ofCall_setQueue (hp.ofCall_rest hpk) p now
      refine .frame ?_ (hq .low) (handedFor_setQueue_of_ne hpk)
      have hk' : (coilOff p now).origin.call ≠ k := hpk
      rw [ofCall_cons_of_ne hk']
      exact hq .high
  | @recycled _ now pr before p after _ hp htype hrep =>
    by_cases hpk : p.origin.call = k
    · exact .recycled hp hpk htype hrep
    · have hq := ofCall_setQueue (hp.ofCall_rest hpk) p now
      exact .frame (hq .high) (hq .low) (handedFor_setQueue_of_ne hpk)

end Moves

end CommandStation.DCCQueue
