import CommandStation.DCCQueue.Track

/-!
# Packets of `scheduleDCCPacket`

A packet given to `scheduleDCCPacket` sits in one slot of the low priority queue until it was sent
once and its repeats: what has been sent and what the slot still owes always add up. Packets for
the same loco leave in the order they came: they are eligible at the same moments, and the queue
is scanned from its head.
-/

namespace CommandStation.DCCQueue

open CommandStation.Lib

/-- What the slots that hold the packet of call `k` still have to send. -/
def owed (k : Nat) (s : State) : Nat :=
  (ofCall k (s.highPriorityQueue ++ s.lowPriorityQueue)).foldr (fun p n => 1 + p.packetRepeat + n) 0

/-- The packet of call `k` is neither lost nor altered nor sent too often. -/
structure Conserved (k : Nat) (packet : List UInt8) (repeats : Nat) (s : State) : Prop where
  balance : copiesIn (handedFor k s) + owed k s = 1 + repeats
  intact : ∀ p ∈ ofCall k (s.highPriorityQueue ++ s.lowPriorityQueue), p.payload = packet
  sent : ∀ p r now, HandOver.slot p r now ∈ handedFor k s → p.payload = packet
  leaves : ofCall k s.lowPriorityQueue = [] ↔ copiesIn (handedFor k s) = 1 + repeats

/-! ## The two phases of a packet -/

section Phases

variable (k : Nat) (packet : List UInt8) (repeats : Nat) (loco : UInt16)

/-- The packet waits in slot `p` of the low priority queue. -/
structure Queued (p : PendingSlot) (s : State) : Prop where
  low : ofCall k s.lowPriorityQueue = [p]
  type_eq : p.type = .normalPacket
  payload_eq : p.payload = packet
  locoId_eq : p.locoId = loco
  copies : copiesIn (handedFor k s) + p.packetRepeat = repeats

/-- The packet was sent as often as asked for. -/
structure Sent (s : State) : Prop where
  low : ofCall k s.lowPriorityQueue = []
  copies : copiesIn (handedFor k s) = 1 + repeats

/-- Where the packet of call `k` is. -/
structure PacketPhase (s : State) : Prop where
  high : ofCall k s.highPriorityQueue = []
  phase : (∃ p, Queued k packet repeats loco p s) ∨ Sent k repeats s
  sent : ∀ p r now, HandOver.slot p r now ∈ handedFor k s → p.payload = packet

end Phases

variable {k : Nat} {packet : List UInt8} {repeats : Nat} {loco : UInt16} {s : State}

/-- In each phase, what was handed over and what is still waiting are together the whole packet. -/
theorem PacketPhase.conserved (h : PacketPhase k packet repeats loco s) :
    Conserved k packet repeats s := by
  rcases h.phase with ⟨p, hq⟩ | hs
  · have hcopies := hq.copies
    have hall : ofCall k (s.highPriorityQueue ++ s.lowPriorityQueue) = [p] := by
      rw [ofCall_append, h.high, hq.low, List.nil_append]
    refine ⟨?_, ?_, h.sent, ?_⟩
    · rw [owed, hall]
      simp only [List.foldr_cons, List.foldr_nil]
      omega
    · intro x hx
      rw [hall, List.mem_singleton] at hx
      rw [hx, hq.payload_eq]
    · rw [hq.low]
      constructor
      · intro hnil
        cases hnil
      · intro hall
        omega
  · have hall : ofCall k (s.highPriorityQueue ++ s.lowPriorityQueue) = [] := by
      rw [ofCall_append, h.high, hs.low, List.nil_append]
    refine ⟨?_, ?_, h.sent, ?_⟩
    · rw [owed, hall]
      exact hs.copies
    · intro x hx
      rw [hall] at hx
      cases hx
    · exact ⟨fun _ => hs.copies, fun _ => hs.low⟩

theorem PacketPhase.congr {s' : State} (h : PacketPhase k packet repeats loco s)
    (hhigh : ofCall k s'.highPriorityQueue = ofCall k s.highPriorityQueue)
    (hlow : ofCall k s'.lowPriorityQueue = ofCall k s.lowPriorityQueue)
    (hlog : handedFor k s' = handedFor k s) : PacketPhase k packet repeats loco s' := by
  refine ⟨hhigh ▸ h.high, ?_, hlog ▸ h.sent⟩
  rcases h.phase with ⟨p, hq⟩ | hs
  · exact .inl ⟨p, hlow ▸ hq.low, hq.type_eq, hq.payload_eq, hq.locoId_eq, hlog ▸ hq.copies⟩
  · exact .inr ⟨hlow ▸ hs.low, hlog ▸ hs.copies⟩

/-- The slot of the call, wherever it is found, is the queued one. -/
theorem PacketPhase.of_mem (h : PacketPhase k packet repeats loco s) {pr : Priority}
    {p : PendingSlot} (hp : p ∈ s.queue pr) (hk : p.origin.call = k) :
    pr = .low ∧ Queued k packet repeats loco p s := by
  have hmem : p ∈ ofCall k (s.queue pr) := mem_ofCall.mpr ⟨hp, hk⟩
  cases pr with
  | high => simp [State.queue, h.high] at hmem
  | low =>
    rcases h.phase with ⟨x, hq⟩ | hs
    · simp only [State.queue, hq.low, List.mem_singleton] at hmem
      exact ⟨rfl, hmem ▸ hq⟩
    · simp [State.queue, hs.low] at hmem

/-! ## One call -/

/-- The hand-over of a queued slot is one of the right bytes. -/
theorem sent_handed {now : UInt32} {p : PendingSlot}
    (hsent : ∀ p r now, HandOver.slot p r now ∈ handedFor k s → p.payload = packet)
    (hk : p.origin.call = k) (hp : p.payload = packet) :
    ∀ x r t, HandOver.slot x r t ∈ handedFor k (handed s p now) → x.payload = packet := by
  intro x r t hx
  rw [handedFor_handed_of_eq hk] at hx
  rcases List.mem_cons.mp hx with heq | hx
  · cases heq; exact hp
  · exact hsent x r t hx

/-- The packet is sent with repeats left: its slot stays, one repeat the poorer. -/
theorem Queued.repeated {now : UInt32} {before after : List PendingSlot} {p : PendingSlot}
    (h : Queued k packet repeats loco p s) (hp : Picked s now .low before p after)
    (hk : p.origin.call = k) (hid : p.locoId ≠ 0) (hrep : p.packetRepeat ≠ 0) :
    Queued k packet repeats loco { p with packetRepeat := p.packetRepeat - 1 }
      ((handed s p now).setQueue .low
        (before ++ { p with packetRepeat := p.packetRepeat - 1 } :: after)) where
  low := hp.ofCall_write_of_eq h.low hk hk
  type_eq := h.type_eq
  payload_eq := h.payload_eq
  locoId_eq := h.locoId_eq
  copies := by
    have hold := h.copies
    have hw : waveformRepeats p = 0 := if_neg hid
    show copiesIn (handedFor k (handed s p now)) + (p.packetRepeat - 1) = repeats
    rw [handedFor_handed_of_eq hk, copiesIn_cons, HandOver.copies]
    omega

/-- The packet is sent for the last time, and its slot is recycled. -/
theorem Queued.recycled {now : UInt32} {before after r : List PendingSlot} {p : PendingSlot}
    (h : Queued k packet repeats loco p s) (hp : Picked s now .low before p after)
    (hk : p.origin.call = k) (hrep : p.locoId ≠ 0 → p.packetRepeat = 0) :
    Sent k repeats
      { (handed s p now).setQueue .low (before ++ after) with recycleList := r } where
  low := hp.ofCall_rest_of_eq h.low hk
  copies := by
    have hold := h.copies
    have hw := waveformRepeats_of_last hrep
    show copiesIn (handedFor k (handed s p now)) = 1 + repeats
    rw [handedFor_handed_of_eq hk, copiesIn_cons, HandOver.copies]
    omega

/-- **Every call keeps the balance of every packet.** -/
theorem packetPhase_step (hk : k < s.calls) (c : Call)
    (h : PacketPhase k packet repeats loco s) : PacketPhase k packet repeats loco (step s c) := by
  have hm := step_moves hk c
  generalize step s c = s' at hm ⊢
  cases hm with
  | frame hhigh hlow hlog => exact h.congr hhigh hlow hlog
  | @speedOverwrite _ _ _ p _ hp hpk hid _ =>
    have hpr := (h.of_mem (show p ∈ s.queue .high from hp) hpk).1
    cases hpr
  | @functionOverwrite _ _ group p _ hp hpk htype =>
    obtain ⟨-, hq⟩ := h.of_mem (show p ∈ s.queue .low from hp) hpk
    exact absurd hq.type_eq (functionType_range htype).2.2.2
  | @estop _ _ _ p _ hp hpk hkill =>
    have hpr := (h.of_mem (show p ∈ s.queue .high from hp) hpk).1
    cases hpr
  | @repeated _ now pr before p after hp hpk hid hrep =>
    obtain ⟨rfl, hq⟩ := h.of_mem hp.mem hpk
    exact ⟨h.high, .inl ⟨_, hq.repeated hp hpk hid hrep⟩, sent_handed h.sent hpk hq.payload_eq⟩
  | @switched _ now pr before p after hp hpk htype hrep =>
    obtain ⟨rfl, hq⟩ := h.of_mem hp.mem hpk
    rw [hq.type_eq] at htype
    cases htype
  | @recycled _ now pr before p after r hp hpk htype hrep =>
    obtain ⟨rfl, hq⟩ := h.of_mem hp.mem hpk
    exact ⟨h.high, .inr (hq.recycled hp hpk hrep), sent_handed h.sent hpk hq.payload_eq⟩

/-! ## Order -/

/-- The packets of `scheduleDCCPacket` stand in the low priority queue in the order of their
calls. -/
def InOrder (s : State) : Prop :=
  s.lowPriorityQueue.Pairwise fun p q =>
    p.type = .normalPacket → q.type = .normalPacket → p.origin.call < q.origin.call

/-- A slot that joins the end is younger than all others. -/
theorem InOrder.snoc (hs : Numbered s) (h : InOrder s) {p : PendingSlot}
    (hp : p.origin.call = s.calls) :
    (s.lowPriorityQueue ++ [p]).Pairwise fun p q =>
      p.type = .normalPacket → q.type = .normalPacket → p.origin.call < q.origin.call := by
  refine List.pairwise_append.mpr ⟨h, List.pairwise_singleton .., ?_⟩
  intro x hx y hy _ _
  rw [List.mem_singleton.mp hy, hp]
  exact hs.pending .low x hx

/-- Every call keeps the packets of a queue in the order of the calls that made them. -/
theorem inOrder_step (hs : Numbered s) (c : Call) (h : InOrder s) : InOrder (step s c) := by
  have he := step_effect s c
  generalize step s c = s' at he ⊢
  cases he with
  | packet hp => exact h.snoc hs (by rw [hp.origin_eq])
  | speedOverwrite hq hid hbefore => exact h
  | speedAdd hno hp => exact h
  | functionInvalid hg => exact h
  | @functionOverwrite _ _ group type before p after hg hq hid htype =>
    have hne : p.type ≠ .normalPacket := fun hn =>
      (functionType_range hg).2.2.2 (htype ▸ hn)
    rw [InOrder, hq] at h
    exact pairwise_replace h (fun x _ _ _ hn => absurd hn hne) (fun x _ _ hn => absurd hn hne)
  | functionAdd hg hp => exact h.snoc hs (by rw [hp.origin_eq])
  | estop hp => exact h
  | accOnOff hp => exact h.snoc hs (by rw [hp.origin_eq])
  | nothing => exact h
  | idle => exact h
  | @repeated _ now pr before p after hp hid hrep =>
    cases pr with
    | high => exact h
    | low =>
      rw [InOrder, show s.lowPriorityQueue = _ from hp.queue_eq] at h
      exact pairwise_replace h (fun x _ hx => hx) (fun x _ hx => hx)
  | @switched _ now pr before p after hp htype hrep =>
    cases pr with
    | high => exact h
    | low =>
      rw [InOrder, show s.lowPriorityQueue = _ from hp.queue_eq] at h
      exact pairwise_remove h
  | @recycled _ now pr before p after r hp htype hrep =>
    cases pr with
    | high => exact h
    | low =>
      rw [InOrder, show s.lowPriorityQueue = _ from hp.queue_eq] at h
      exact pairwise_remove h

theorem inOrder_after (cs : List Call) : InOrder (after cs) := by
  have h := inv_run_of_step (fun s => Numbered s ∧ InOrder s)
    (fun s c h => ⟨slotInv_numbered.everywhere_step c h.1, inOrder_step h.1 c h.2⟩)
    ⟨everywhere_init, List.Pairwise.nil⟩ cs
  exact h.2

/-- Normal packets for the same loco are passed over together. -/
theorem eligible_congr {last : UInt16} {now : UInt32} {p q : PendingSlot}
    (hp : p.type = .normalPacket) (hq : q.type = .normalPacket) (hid : p.locoId = q.locoId) :
    eligible last now p = eligible last now q := by
  have hnormal : (PendingType.normalPacket == .accOffPacket) = false := by decide
  simp only [eligible, delayed, sameLoco, hp, hq, hid, hnormal, Bool.false_and]

/-- **No overtaking**: when a packet is picked, no older one for the same loco is left. -/
theorem no_older_when_picked {now : UInt32} {before after : List PendingSlot}
    {p q : PendingSlot} (horder : InOrder s) (hp : Picked s now .low before p after)
    (hptype : p.type = .normalPacket) (hq : q ∈ s.lowPriorityQueue)
    (hqtype : q.type = .normalPacket) (hid : q.locoId = p.locoId)
    (hlt : q.origin.call < p.origin.call) : False := by
  have hlow : s.lowPriorityQueue = before ++ p :: after := hp.queue_eq
  rw [hlow] at hq
  rw [InOrder, hlow, List.pairwise_append, List.pairwise_cons] at horder
  rcases List.mem_append.mp hq with hq | hq
  · have hno := hp.passed q hq
    rw [eligible_congr hqtype hptype hid, hp.eligible] at hno
    cases hno
  · rcases List.mem_cons.mp hq with rfl | hq
    · exact Nat.lt_irrefl _ hlt
    · have := horder.2.1.1 q hq hptype hqtype
      omega

/-! ## Two packets of one loco -/

/-- The packet of call `k` is only sent when the older packet of call `j` has been sent. -/
structure Ordered (j k : Nat) (s : State) : Prop where
  later : handedFor k s ≠ [] → ofCall j s.lowPriorityQueue = []

section Ordered

variable {j : Nat} {packet' : List UInt8} {repeats' : Nat}

/-- A packet that is gone stays gone. -/
theorem gone_step (hj : j < s.calls) (c : Call) (h : PacketPhase j packet' repeats' loco s)
    (hgone : ofCall j s.lowPriorityQueue = []) : ofCall j (step s c).lowPriorityQueue = [] := by
  have hno : ∀ {pr : Priority} {p : PendingSlot}, p ∈ s.queue pr → p.origin.call ≠ j := by
    intro pr p hp hpj
    have hq := (h.of_mem hp hpj).2.low
    rw [hgone] at hq
    cases hq
  have hm := step_moves hj c
  generalize step s c = s' at hm ⊢
  cases hm with
  | frame hhigh hlow hlog => rw [hlow, hgone]
  | @speedOverwrite _ _ _ p _ hp hpj hid _ =>
    exact absurd hpj (hno (show p ∈ s.queue .high from hp))
  | @functionOverwrite _ _ group p _ hp hpj htype =>
    exact absurd hpj (hno (show p ∈ s.queue .low from hp))
  | @estop _ _ _ p _ hp hpj hkill => exact absurd hpj (hno (show p ∈ s.queue .high from hp))
  | repeated hp hpj hid hrep => exact absurd hpj (hno hp.mem)
  | switched hp hpj htype hrep => exact absurd hpj (hno hp.mem)
  | recycled hp hpj htype hrep => exact absurd hpj (hno hp.mem)

/-- When the younger packet is picked the older one is gone. -/
theorem gone_of_picked {now : UInt32} {pr : Priority} {before after : List PendingSlot}
    {p : PendingSlot} (hjk : j < k) (horder : InOrder s)
    (hj : PacketPhase j packet' repeats' loco s) (hk : PacketPhase k packet repeats loco s)
    (hp : Picked s now pr before p after) (hpk : p.origin.call = k) :
    ofCall j s.lowPriorityQueue = [] := by
  obtain ⟨rfl, hq⟩ := hk.of_mem hp.mem hpk
  rcases hj.phase with ⟨x, hx⟩ | hx
  · have hmem : x ∈ ofCall j s.lowPriorityQueue := by rw [hx.low]; simp
    obtain ⟨hxq, hxj⟩ := mem_ofCall.mp hmem
    exact (no_older_when_picked horder hp hq.type_eq hxq hx.type_eq
      (hx.locoId_eq.trans hq.locoId_eq.symm) (by omega)).elim
  · exact hx.low

/-- Of two scheduled packets, the earlier one stays in front over every call. -/
theorem ordered_step (hjk : j < k) (hk : k < s.calls) (c : Call) (horder : InOrder s)
    (hj : PacketPhase j packet' repeats' loco s) (hkp : PacketPhase k packet repeats loco s)
    (h : Ordered j k s) : Ordered j k (step s c) := by
  have hgone := gone_step (Nat.lt_trans hjk hk) c hj
  refine ⟨fun hne => hgone ?_⟩
  have hm := step_moves hk c
  generalize step s c = s' at hm hne
  cases hm with
  | frame hhigh hlow hlog => exact h.later (hlog ▸ hne)
  | @speedOverwrite _ _ _ p _ hp hpk hid _ =>
    have hpr := (hkp.of_mem (show p ∈ s.queue .high from hp) hpk).1
    cases hpr
  | @functionOverwrite _ _ group p _ hp hpk htype =>
    obtain ⟨-, hq⟩ := hkp.of_mem (show p ∈ s.queue .low from hp) hpk
    exact absurd hq.type_eq (functionType_range htype).2.2.2
  | @estop _ _ _ p _ hp hpk hkill =>
    have hpr := (hkp.of_mem (show p ∈ s.queue .high from hp) hpk).1
    cases hpr
  | repeated hp hpk hid hrep => exact gone_of_picked hjk horder hj hkp hp hpk
  | switched hp hpk htype hrep => exact gone_of_picked hjk horder hj hkp hp hpk
  | recycled hp hpk htype hrep => exact gone_of_picked hjk horder hj hkp hp hpk

end Ordered

/-! ## Histories -/

/-- A packet that was just scheduled waits with all of its repeats. -/
theorem packetPhase_schedule (hs : Numbered s) {packet : List UInt8}
    (hlen : packet.length ≤ maxPacketSize) (repeats : Nat) (loco : UInt16) :
    PacketPhase s.calls packet repeats loco (step s (.scheduleDCCPacket packet repeats loco)) ∧
    handedFor s.calls (step s (.scheduleDCCPacket packet repeats loco)) = [] := by
  have hlog := hs.handedFor_calls
  have he := step_effect s (.scheduleDCCPacket packet repeats loco)
  generalize step s _ = s' at he ⊢
  cases he with
  | @packet _ _ _ p r hp =>
    refine ⟨⟨hs.ofCall_calls .high, .inl ⟨p, ?_, hp.type_eq, ?_, hp.locoId_eq, ?_⟩, ?_⟩, hlog⟩
    · show ofCall s.calls (s.lowPriorityQueue ++ [p]) = [p]
      rw [ofCall_append, show ofCall s.calls s.lowPriorityQueue = [] from hs.ofCall_calls .low,
        ofCall_cons_of_eq (by rw [hp.origin_eq])]
      rfl
    · rw [hp.payload_eq, List.take_of_length_le hlen]
    · show copiesIn (handedFor s.calls s) + _ = _
      rw [hlog, hp.packetRepeat_eq]
      exact Nat.zero_add _
    · intro p r now hmem
      have hmem : HandOver.slot p r now ∈ handedFor s.calls s := hmem
      rw [hlog] at hmem
      cases hmem

/-- From its call on, the packet of a `scheduleDCCPacket` call is in one of its phases. -/
theorem packetPhase_after {cs : List Call} (hlen : packet.length ≤ maxPacketSize)
    (hk : cs[k]? = some (.scheduleDCCPacket packet repeats loco)) :
    k < (after cs).calls ∧ PacketPhase k packet repeats loco (after cs) := by
  have hcalls := calls_after_take hk
  have hstart := (packetPhase_schedule (numbered_after (cs.take k)) hlen repeats loco).1
  rw [hcalls] at hstart
  rw [after, run_eq_of_getElem? hk]
  exact inv_run_of_step (fun s => k < s.calls ∧ PacketPhase k packet repeats loco s)
    (fun s c h => ⟨Nat.lt_succ_of_lt h.1, packetPhase_step h.1 c h.2⟩)
    ⟨by rw [calls_step, hcalls]; exact Nat.lt_succ_self k, hstart⟩ _

/-- What is kept from the younger of two calls on. -/
structure Pair (j k : Nat) (packet' packet : List UInt8) (repeats' repeats : Nat) (loco : UInt16)
    (s : State) : Prop where
  made : k < s.calls
  numbered : Numbered s
  inOrder : InOrder s
  older : PacketPhase j packet' repeats' loco s
  younger : PacketPhase k packet repeats loco s
  ordered : Ordered j k s

theorem pair_step {j : Nat} {packet' : List UInt8} {repeats' : Nat} (hjk : j < k) (c : Call)
    (h : Pair j k packet' packet repeats' repeats loco s) :
    Pair j k packet' packet repeats' repeats loco (step s c) where
  made := Nat.lt_succ_of_lt h.made
  numbered := slotInv_numbered.everywhere_step c h.numbered
  inOrder := inOrder_step h.numbered c h.inOrder
  older := packetPhase_step (Nat.lt_trans hjk h.made) c h.older
  younger := packetPhase_step h.made c h.younger
  ordered := ordered_step hjk h.made c h.inOrder h.older h.younger h.ordered

/-- Packets with the same loco are in the order in which they were scheduled. -/
theorem ordered_after {cs : List Call} {j : Nat} {packet' : List UInt8} {repeats' : Nat}
    (hjk : j < k) (hlen' : packet'.length ≤ maxPacketSize) (hlen : packet.length ≤ maxPacketSize)
    (hj : cs[j]? = some (.scheduleDCCPacket packet' repeats' loco))
    (hk : cs[k]? = some (.scheduleDCCPacket packet repeats loco)) : Ordered j k (after cs) := by
  have hcalls := calls_after_take hk
  have hnum := numbered_after (cs.take k)
  have hj' : (cs.take k)[j]? = some (.scheduleDCCPacket packet' repeats' loco) := by
    rw [List.getElem?_take_of_lt hjk, hj]
  obtain ⟨hmade, holder⟩ := packetPhase_after hlen' hj'
  obtain ⟨hyounger, hlog⟩ := packetPhase_schedule hnum hlen repeats loco
  rw [hcalls] at hyounger hlog
  have hstart : Pair j k packet' packet repeats' repeats loco
      (step (after (cs.take k)) (.scheduleDCCPacket packet repeats loco)) := by
    refine ⟨?_, slotInv_numbered.everywhere_step _ hnum, inOrder_step hnum _ (inOrder_after _),
      packetPhase_step hmade _ holder, hyounger, ⟨fun hne => absurd hlog hne⟩⟩
    rw [calls_step, hcalls]
    exact Nat.lt_succ_self k
  rw [after, run_eq_of_getElem? hk]
  exact (inv_run_of_step _ (fun s c h => pair_step hjk c h) hstart _).ordered

/-- **Packets are conserved**: at every moment of every history a packet given to
`scheduleDCCPacket` has been sent or is still owed, with its own bytes, exactly as often as asked
for; and it is not sent before an older packet for the same loco is through. -/
theorem packets_conserved {cs : List Call} (hlen : packet.length ≤ maxPacketSize)
    (hk : cs[k]? = some (.scheduleDCCPacket packet repeats loco)) :
    Conserved k packet repeats (after cs) ∧
    ∀ j packet' repeats', j < k → packet'.length ≤ maxPacketSize →
      cs[j]? = some (.scheduleDCCPacket packet' repeats' loco) →
      handedFor k (after cs) ≠ [] → copiesIn (handedFor j (after cs)) = 1 + repeats' := by
  refine ⟨(packetPhase_after hlen hk).2.conserved, ?_⟩
  intro j packet' repeats' hjk hlen' hj hne
  have hconserved := (packetPhase_after hlen' hj).2.conserved
  exact hconserved.leaves.mp ((ordered_after hjk hlen' hlen hj hk).later hne)

/-- Two packets for loco 3, the first of them twice, with idle packets between. -/
def loco3Packets : List Call :=
  .scheduleDCCPacket [0x03, 0x90] 1 3 :: .scheduleDCCPacket [0x03, 0x80] 0 3 ::
    List.replicate 5 (.scheduleNext true 0)

theorem packets_conserved_loco3 :
    Conserved 1 [0x03, 0x80] 0 (after loco3Packets) ∧
    copiesIn (handedFor 0 (after loco3Packets)) = 2 := by
  have h : loco3Packets[1]? = some (.scheduleDCCPacket [0x03, 0x80] 0 3) := rfl
  refine ⟨(packets_conserved (by decide) h).1, ?_⟩
  exact (packets_conserved (by decide) h).2 0 [0x03, 0x90] 1 (by decide) (by decide) rfl
    (by decide)

end CommandStation.DCCQueue
