import CommandStation.DCCQueue.Linked

/-!
# The memory refines the lists

`Refines` relates a memory to a state of the model of lists: the slots of each queue and of the recycle
list hold, in order, what the state says. Each operation on pointers keeps this with the operation of
the same name on lists, and so does each call and each history.
-/

namespace CommandStation.DCCQueue.Memory

open CommandStation.Lib

variable {m m' : Memory} {s : State} {q : Priority → List Nat} {re loose : List Nat} {pr : Priority}
  {p : Nat}

/-- The memory holds the lists of the state. -/
structure Refines (m : Memory) (s : State) (q : Priority → List Nat) (re loose : List Nat) : Prop
    extends m.Linked q re loose where
  queue_eq : ∀ pr, s.queue pr = (q pr).map m.slot
  recycleList_eq : s.recycleList = re.map m.slot
  lastSent_eq : s.lastSentPacketLocoId = m.lastSentPacketLocoId
  handedOver_eq : s.handedOver = m.handedOver
  calls_eq : s.calls = m.calls

theorem refines_init : init.Refines DCCQueue.init (fun _ => []) [] [] where
  toLinked := linked_init
  queue_eq pr := by cases pr <;> rfl
  recycleList_eq := rfl
  lastSent_eq := rfl
  handedOver_eq := rfl
  calls_eq := rfl

/-! ## Links and pointers only -/

/-- Other lists of the same slots. -/
theorem Refines.relink {s' : State} {q' : Priority → List Nat} {re' loose' : List Nat}
    (h : m.Refines s q re loose) (hrelinked : Relinked m m') (hlinked : m'.Linked q' re' loose')
    (hqueue : ∀ pr, s'.queue pr = (q' pr).map m.slot) (hrecycled : s'.recycleList = re'.map m.slot)
    (hlast : s'.lastSentPacketLocoId = s.lastSentPacketLocoId)
    (hlog : s'.handedOver = s.handedOver) (hcalls : s'.calls = s.calls) :
    m'.Refines s' q' re' loose' := by
  obtain ⟨next, queue, recycleList, rfl⟩ := hrelinked
  exact ⟨hlinked, hqueue, hrecycled, hlast.trans h.lastSent_eq, hlog.trans h.handedOver_eq,
    hcalls.trans h.calls_eq⟩

/-- One queue has changed, in the state as in the memory. -/
theorem Refines.queue_update (h : m.Refines s q re loose) (pr : Priority) (l : List Nat)
    (pr' : Priority) :
    (s.setQueue pr (l.map m.slot)).queue pr' = (Function.update q pr l pr').map m.slot := by
  have hqueue := h.queue_eq pr'
  cases pr <;> cases pr' <;> first | exact hqueue | rfl

theorem Refines.relink_queue {l loose' : List Nat} (h : m.Refines s q re loose)
    (hrelinked : Relinked m m') (hlinked : m'.Linked (Function.update q pr l) re loose') :
    m'.Refines (s.setQueue pr (l.map m.slot)) (Function.update q pr l) re loose' := by
  refine h.relink hrelinked hlinked (h.queue_update pr l) ?_ ?_ ?_ ?_
  · cases pr <;> exact h.recycleList_eq
  · cases pr <;> rfl
  · cases pr <;> rfl
  · cases pr <;> rfl

theorem Refines.addQueue (h : m.Refines s q re (p :: loose)) (pr : Priority) :
    (m.addQueue pr p).Refines (s.setQueue pr (DCCQueue.addQueue (s.queue pr) (m.slot p)))
      (Function.update q pr (q pr ++ [p])) re loose := by
  have heq : DCCQueue.addQueue (s.queue pr) (m.slot p) = (q pr ++ [p]).map m.slot := by
    rw [DCCQueue.addQueue, h.queue_eq, List.map_append]
    rfl
  rw [heq]
  exact h.relink_queue relinked_addQueue (h.toLinked.addQueue pr)

theorem Refines.jumpQueue (h : m.Refines s q re (p :: loose)) (pr : Priority) :
    (m.jumpQueue pr p).Refines (s.setQueue pr (DCCQueue.jumpQueue (s.queue pr) (m.slot p)))
      (Function.update q pr (p :: q pr)) re loose := by
  have heq : DCCQueue.jumpQueue (s.queue pr) (m.slot p) = (p :: q pr).map m.slot := by
    rw [DCCQueue.jumpQueue, h.queue_eq, List.map_cons]
  rw [heq]
  exact h.relink_queue relinked_jumpQueue (h.toLinked.jumpQueue pr)

theorem Refines.recycle (h : m.Refines s q re (p :: loose)) :
    (m.recycle p).Refines { s with recycleList := DCCQueue.recycle s.recycleList (m.slot p) } q
      (p :: re) loose := by
  refine h.relink relinked_recycle h.toLinked.recycle ?_ ?_ rfl rfl rfl
  · intro pr
    have hqueue := h.queue_eq pr
    cases pr <;> exact hqueue
  · show DCCQueue.recycle s.recycleList (m.slot p) = _
    rw [h.recycleList_eq]
    rfl

theorem Refines.unlink {before after : List Nat} (h : m.Refines s q re loose)
    (hq : q pr = before ++ p :: after) :
    (m.unlink pr before.getLast? p).Refines
      (s.setQueue pr (before.map m.slot ++ after.map m.slot))
      (Function.update q pr (before ++ after)) re (p :: loose) := by
  rw [← List.map_append]
  exact h.relink_queue relinked_unlink (h.toLinked.unlink hq)

/-! ## Contents -/

theorem map_update_of_notMem {f : Nat → PendingSlot} {slot : PendingSlot} {xs : List Nat}
    (hp : p ∉ xs) : xs.map (Function.update f p slot) = xs.map f := by
  apply List.map_congr_left
  intro a ha
  have hne : a ≠ p := fun heq => hp (heq ▸ ha)
  exact Function.update_of_ne hne ..

/-- A loose slot is written. -/
theorem Refines.setSlot_loose (h : m.Refines s q re (p :: loose)) (slot : PendingSlot) :
    (m.setSlot p slot).Refines s q re (p :: loose) := by
  obtain ⟨-, hre, hq⟩ := h.of_loose List.mem_cons_self
  refine ⟨h.toLinked.setSlot p slot, fun pr => ?_, ?_, h.lastSent_eq, h.handedOver_eq, h.calls_eq⟩
  · rw [setSlot_slot, map_update_of_notMem (hq pr)]
    exact h.queue_eq pr
  · rw [setSlot_slot, map_update_of_notMem hre]
    exact h.recycleList_eq

/-- A slot of a queue is written. -/
theorem Refines.setSlot {before after : List Nat} (h : m.Refines s q re loose)
    (hq : q pr = before ++ p :: after) (slot : PendingSlot) :
    (m.setSlot p slot).Refines (s.setQueue pr (before.map m.slot ++ slot :: after.map m.slot)) q re
      loose := by
  have hp : p ∈ q pr := by simp [hq]
  obtain ⟨-, hre, hothers⟩ := h.of_queue hp
  obtain ⟨hbefore, hafter⟩ := h.notMem hq
  have hmap : before.map m.slot ++ slot :: after.map m.slot =
      (q pr).map (Function.update m.slot p slot) := by
    rw [hq, List.map_append, List.map_cons, Function.update_self, map_update_of_notMem hbefore,
      map_update_of_notMem hafter]
  have hqueue : ∀ pr', pr' ≠ pr → s.queue pr' = (q pr').map (Function.update m.slot p slot) := by
    intro pr' hne
    rw [map_update_of_notMem (hothers pr' hne)]
    exact h.queue_eq pr'
  have hrecycled : s.recycleList = re.map (Function.update m.slot p slot) := by
    rw [map_update_of_notMem hre]
    exact h.recycleList_eq
  rw [hmap]
  refine ⟨h.toLinked.setSlot p slot, fun pr' => ?_, ?_, ?_, ?_, ?_⟩
  · by_cases heq : pr' = pr
    · subst heq
      cases pr' <;> rfl
    · have hsame := hqueue pr' heq
      cases pr <;> cases pr' <;> first | exact absurd rfl heq | exact hsame
  · cases pr <;> exact hrecycled
  · cases pr <;> exact h.lastSent_eq
  · cases pr <;> exact h.handedOver_eq
  · cases pr <;> exact h.calls_eq

/-- The search for a slot, on both levels. -/
theorem Refines.find (h : m.Refines s q re loose) (pr : Priority) (test : PendingSlot → Bool) :
    (m.find pr test = some none ∧ splitFirst test (s.queue pr) = none) ∨
      ∃ before p after, q pr = before ++ p :: after ∧ m.find pr test = some (some p) ∧
        splitFirst test (s.queue pr) = some (before.map m.slot, m.slot p, after.map m.slot) := by
  rw [h.toLinked.find, h.queue_eq]
  cases hfind : (q pr).find? fun a => test (m.slot a) with
  | none =>
    refine .inl ⟨rfl, ?_⟩
    rw [splitFirst_eq_none]
    intro slot hslot
    obtain ⟨a, ha, rfl⟩ := List.mem_map.mp hslot
    simpa using List.find?_eq_none.mp hfind a ha
  | some p =>
    obtain ⟨htest, before, after, hq, hbefore⟩ := List.find?_eq_some_iff_append.mp hfind
    refine .inr ⟨before, p, after, hq, rfl, ?_⟩
    rw [hq, List.map_append, List.map_cons]
    apply splitFirst_append htest
    intro slot hslot
    obtain ⟨a, ha, rfl⟩ := List.mem_map.mp hslot
    simpa using hbefore a ha

/-- The slot that is obtained. -/
theorem Refines.getSlot (h : m.Refines s q re loose) (type : PendingType) (packet : List UInt8)
    (repeats : Nat) (loco : UInt16) (origin : Origin) :
    let r := m.getSlot type packet repeats loco origin
    let r' := DCCQueue.getSlot s.recycleList type packet repeats loco origin
    r.2.Refines { s with recycleList := r'.2 } q re.tail (r.1 :: loose) ∧ r.2.slot r.1 = r'.1 := by
  have hlinked := h.toLinked.getSlot type packet repeats loco origin
  intro r r'
  obtain ⟨-, hre, hq⟩ := hlinked.of_loose List.mem_cons_self
  have hslot : r.2.slot = Function.update m.slot r.1 r'.1 ∧ r'.2 = re.tail.map m.slot ∧
      r.2.lastSentPacketLocoId = m.lastSentPacketLocoId ∧ r.2.handedOver = m.handedOver ∧
      r.2.calls = m.calls := by
    have hrecycled := h.recycleList_eq
    cases re with
    | nil =>
      have hnone : m.recycleList = none := h.recycled
      simp [r, r', Memory.getSlot, DCCQueue.getSlot, hrecycled, hnone, Memory.setNext,
        Memory.setSlot]
    | cons a rest =>
      have hsome : m.recycleList = some a := h.recycled.1
      simp [r, r', Memory.getSlot, DCCQueue.getSlot, hrecycled, hsome, Memory.setNext,
        Memory.setSlot]
  obtain ⟨hslot, hrest, hlast, hlog, hcalls⟩ := hslot
  refine ⟨⟨hlinked, fun pr => ?_, ?_, ?_, ?_, ?_⟩, ?_⟩
  · rw [hslot, map_update_of_notMem (hq pr)]
    exact h.queue_eq pr
  · rw [hslot, map_update_of_notMem hre]
    exact hrest
  · exact h.lastSent_eq.trans hlast.symm
  · exact h.handedOver_eq.trans hlog.symm
  · exact h.calls_eq.trans hcalls.symm
  · rw [hslot, Function.update_self]

/-- A new slot joins the end of a queue. -/
theorem Refines.addNew (h : m.Refines s q re []) (pr : Priority) (type : PendingType)
    (packet : List UInt8) (repeats : Nat) (loco : UInt16) (origin : Origin) :
    let r := m.getSlot type packet repeats loco origin
    let r' := DCCQueue.getSlot s.recycleList type packet repeats loco origin
    (r.2.addQueue pr r.1).Refines
      (({ s with recycleList := r'.2 } : State).setQueue pr (DCCQueue.addQueue (s.queue pr) r'.1))
      (Function.update q pr (q pr ++ [r.1])) re.tail [] := by
  obtain ⟨hnew, hslot⟩ := h.getSlot type packet repeats loco origin
  intro r r'
  have hadd := hnew.addQueue pr
  rw [hslot] at hadd
  cases pr <;> exact hadd

/-! ## The schedule calls -/

theorem Refines.scheduleDCCPacket (h : m.Refines s q re []) (packet : List UInt8) (repeats : Nat)
    (loco : UInt16) :
    ∃ q' re', (m.scheduleDCCPacket packet repeats loco).Refines
      (DCCQueue.scheduleDCCPacket packet repeats loco s) q' re' [] := by
  unfold Memory.scheduleDCCPacket
  rw [← h.calls_eq]
  exact ⟨_, _, h.addNew .low .normalPacket packet repeats loco ⟨s.calls, .packet, loco⟩⟩

theorem Refines.scheduleDCCSpeedPacket (h : m.Refines s q re []) (packet : Packet) (repeats : Nat)
    (loco : UInt16) :
    ∃ m' q' re', m.scheduleDCCSpeedPacket packet repeats loco = some m' ∧
      m'.Refines (DCCQueue.scheduleDCCSpeedPacket packet repeats loco s) q' re' [] := by
  unfold Memory.scheduleDCCSpeedPacket DCCQueue.scheduleDCCSpeedPacket
  rw [← h.calls_eq]
  rcases h.find .high fun p => p.locoId == loco with
    ⟨hfind, hsplit⟩ | ⟨before, p, after, hq, hfind, hsplit⟩
  · rw [hfind, show splitFirst _ s.highPriorityQueue = _ from hsplit]
    dsimp only [Option.map_some]
    exact ⟨_, _, _, rfl, h.addNew .high .speedPacket packet.bytes repeats loco ⟨s.calls, .speed, loco⟩⟩
  · rw [hfind, show splitFirst _ s.highPriorityQueue = _ from hsplit]
    dsimp only [Option.map_some]
    exact ⟨_, _, _, rfl, h.setSlot hq _⟩

/-- On the pointers, a function packet does to both lists what it does to the queues of the model. -/
theorem Refines.scheduleDCCFunctionPacket (h : m.Refines s q re []) (packet : Packet) (loco : UInt16)
    (group : Nat) :
    ∃ m' q' re', m.scheduleDCCFunctionPacket packet loco group = some m' ∧
      m'.Refines (DCCQueue.scheduleDCCFunctionPacket packet loco group s) q' re' [] := by
  unfold Memory.scheduleDCCFunctionPacket DCCQueue.scheduleDCCFunctionPacket
  cases functionType group with
  | none => exact ⟨m, q, re, rfl, h⟩
  | some type =>
    dsimp only
    rw [← h.calls_eq]
    rcases h.find .low fun p => p.locoId == loco && p.type == type with
      ⟨hfind, hsplit⟩ | ⟨before, p, after, hq, hfind, hsplit⟩
    · rw [hfind, show splitFirst _ s.lowPriorityQueue = _ from hsplit]
      dsimp only [Option.map_some]
      exact ⟨_, _, _, rfl, h.addNew .low type packet.bytes 0 loco ⟨s.calls, .function, loco⟩⟩
    · rw [hfind, show splitFirst _ s.lowPriorityQueue = _ from hsplit]
      dsimp only [Option.map_some]
      exact ⟨_, _, _, rfl, h.setSlot hq _⟩

theorem Refines.scheduleAccOnOffPacket (h : m.Refines s q re []) (packet : List UInt8)
    (repeats : Nat) (delayms : Int16) :
    ∃ q' re', (m.scheduleAccOnOffPacket packet repeats delayms).Refines
      (DCCQueue.scheduleAccOnOffPacket packet repeats delayms s) q' re' [] := by
  obtain ⟨hnew, hslot⟩ := h.getSlot .accOnPacket packet repeats 0 ⟨s.calls, .accOnOff, 0⟩
  have hadd := (hnew.setSlot_loose
    (((DCCQueue.getSlot s.recycleList .accOnPacket packet repeats 0 ⟨s.calls, .accOnOff, 0⟩).1).setDelayOff
      delayms.toUInt16)).addQueue .low
  rw [setSlot_slot, Function.update_self] at hadd
  unfold Memory.scheduleAccOnOffPacket
  rw [← h.calls_eq]
  dsimp only
  rw [hslot]
  exact ⟨_, _, hadd⟩

theorem foldl_recycle (l re : List PendingSlot) :
    l.foldl DCCQueue.recycle re = l.reverse ++ re := by
  induction l generalizing re with
  | nil => rfl
  | cons p l ih => simp [ih, DCCQueue.recycle]

/-- On the pointers, an estop does to both lists what it does to the queues of the model. -/
theorem Refines.scheduleEstopPacket (h : m.Refines s q re []) (packet : List UInt8) (repeats : Nat)
    (loco : UInt16) :
    ∃ m' q' re', m.scheduleEstopPacket packet repeats loco = some m' ∧
      m'.Refines (DCCQueue.scheduleEstopPacket packet repeats loco s) q' re' [] := by
  have hfuel : (q .high).length < m.created + 1 := Nat.lt_succ_of_le (h.length_le .high)
  obtain ⟨m', heq, hrelinked, hlinked⟩ :=
    h.toLinked.estopFrom loco (List.nil_append _).symm hfuel
  have hhigh : s.highPriorityQueue = (q .high).map m.slot := h.queue_eq .high
  have hkept : s.highPriorityQueue.filter (fun p => !estopKills loco p) =
      ((q .high).filter fun a => !estopKills loco (m.slot a)).map m.slot := by
    rw [hhigh, List.filter_map]
    rfl
  have hrecycled : (s.highPriorityQueue.filter (estopKills loco)).foldl DCCQueue.recycle
      s.recycleList =
      (((q .high).filter fun a => estopKills loco (m.slot a)).reverse ++ re).map m.slot := by
    rw [foldl_recycle, hhigh, h.recycleList_eq, List.filter_map, List.map_append, List.map_reverse]
    rfl
  have hstop : ∃ q' re', m'.Refines
      (({ s with
        recycleList := (s.highPriorityQueue.filter (estopKills loco)).foldl DCCQueue.recycle
          s.recycleList } : State).setQueue .high
        (s.highPriorityQueue.filter fun p => !estopKills loco p)) q' re' [] := by
    refine ⟨_, _, h.relink hrelinked hlinked ?_ hrecycled rfl rfl rfl⟩
    rw [hkept]
    intro pr
    have hqueue := h.queue_update .high
      ((q .high).filter fun a => !estopKills loco (m.slot a)) pr
    cases pr <;> exact hqueue
  obtain ⟨q', re', hstop⟩ := hstop
  obtain ⟨hnew, hslot⟩ := hstop.getSlot .speedPacket packet repeats 0 ⟨s.calls, .estop, loco⟩
  have hjump := hnew.jumpQueue .high
  rw [hslot] at hjump
  have hcalls : m'.calls = s.calls := hstop.calls_eq.symm
  unfold Memory.scheduleEstopPacket
  rw [(h.links .high).head, heq, Option.map_some, hcalls]
  exact ⟨_, _, _, rfl, hjump⟩

/-! ## Handing over -/

/-- The end of `scheduleNextInternal`. -/
theorem Refines.finish {before after : List Nat} (h : m.Refines s q re [])
    (hq : q pr = before ++ p :: after) (now : UInt32) :
    ∃ m' q' re', m.finish pr p now = some m' ∧
      m'.Refines
        (DCCQueue.finish pr (before.map m.slot) (m.slot p) (after.map m.slot) now s) q' re' [] := by
  have hunlink := h.unlink hq
  have hslot : (m.unlink pr before.getLast? p).slot = m.slot := relinked_unlink.slot
  unfold Memory.finish DCCQueue.finish
  rw [h.toLinked.remove hq, Option.map_some, hslot]
  dsimp only
  split
  · have hjump := (hunlink.setSlot_loose (coilOff (m.slot p) now)).jumpQueue .high
    rw [setSlot_slot, Function.update_self] at hjump
    exact ⟨_, _, _, rfl, hjump⟩
  · have hrecycle := hunlink.recycle
    rw [hslot] at hrecycle
    exact ⟨_, _, _, rfl, hrecycle⟩

/-- A packet is handed over. -/
theorem Refines.handOver (h : m.Refines s q re loose) (packet : HandOver) (loco : UInt16) :
    ({ m with handedOver := packet :: m.handedOver, lastSentPacketLocoId := loco } : Memory).Refines
      { s with handedOver := packet :: s.handedOver, lastSentPacketLocoId := loco } q re loose := by
  refine ⟨⟨h.links, h.tail, h.recycled, h.once⟩, fun pr => ?_, h.recycleList_eq, rfl, ?_, h.calls_eq⟩
  · have hqueue := h.queue_eq pr
    cases pr <;> exact hqueue
  · exact congrArg (packet :: ·) h.handedOver_eq

/-- One queue is searched: nothing is found in either model, or the same is done. -/
theorem Refines.scheduleNextInternal (h : m.Refines s q re []) (pr : Priority) (now : UInt32) :
    (m.scheduleNextInternal pr now = some (m, false) ∧
        DCCQueue.scheduleNextInternal pr now s = none) ∨
      ∃ m' s' q' re', m.scheduleNextInternal pr now = some (m', true) ∧
        DCCQueue.scheduleNextInternal pr now s = some s' ∧ m'.Refines s' q' re' [] := by
  unfold Memory.scheduleNextInternal DCCQueue.scheduleNextInternal
  rw [← h.lastSent_eq]
  rcases h.find pr (eligible s.lastSentPacketLocoId now) with
    ⟨hfind, hsplit⟩ | ⟨before, p, after, hq, hfind, hsplit⟩
  · rw [hfind, hsplit]
    exact .inl ⟨rfl, rfl⟩
  · rw [hfind, hsplit, Option.bind_some]
    right
    dsimp only
    split
    · have hover := h.handOver (.slot (m.slot p) 0 now) (m.slot p).locoId
      split
      · exact ⟨_, _, _, _, rfl, rfl, hover.setSlot hq _⟩
      · obtain ⟨m', q', re', heq, hfinish⟩ := hover.finish hq now
        rw [heq]
        exact ⟨_, _, _, _, rfl, rfl, hfinish⟩
    · have hover := h.handOver (.slot (m.slot p) (m.slot p).packetRepeat now) 0
      obtain ⟨m', q', re', heq, hfinish⟩ := hover.finish hq now
      rw [heq]
      exact ⟨_, _, _, _, rfl, rfl, hfinish⟩

/-- So does `scheduleNext`, and it hands over the same packet. -/
theorem Refines.scheduleNext (h : m.Refines s q re []) (force : Bool) (now : UInt32) :
    ∃ m' q' re', m.scheduleNext force now = some (m', (DCCQueue.scheduleNext force now s).2) ∧
      m'.Refines (DCCQueue.scheduleNext force now s).1 q' re' [] := by
  unfold Memory.scheduleNext DCCQueue.scheduleNext
  rcases h.scheduleNextInternal .high now with ⟨heq, hlist⟩ | ⟨m', s', q', re', heq, hlist, hnext⟩
  · rw [heq, hlist, Option.bind_some]
    dsimp only
    rw [if_neg Bool.false_ne_true]
    rcases h.scheduleNextInternal .low now with ⟨heq, hlist⟩ | ⟨m', s', q', re', heq, hlist, hnext⟩
    · rw [heq, hlist, Option.map_some]
      cases force with
      | true => exact ⟨_, _, _, rfl, h.handOver (.idle now) 0⟩
      | false => exact ⟨_, _, _, rfl, h⟩
    · rw [heq, hlist, Option.map_some]
      exact ⟨_, _, _, rfl, hnext⟩
  · rw [heq, hlist, Option.bind_some]
    exact ⟨_, _, _, rfl, hnext⟩

/-! ## Histories -/

/-- Every call does to the lists what it does to the queues of the model, and finds its pointers. -/
theorem Refines.exec (h : m.Refines s q re []) (c : Call) :
    ∃ m' q' re', m.exec c = some m' ∧ m'.Refines (DCCQueue.exec s c) q' re' [] := by
  cases c with
  | scheduleDCCPacket packet repeats loco =>
    obtain ⟨q', re', hcall⟩ := h.scheduleDCCPacket packet repeats loco
    exact ⟨_, q', re', rfl, hcall⟩
  | scheduleDCCSpeedPacket packet repeats loco => exact h.scheduleDCCSpeedPacket packet repeats loco
  | scheduleDCCFunctionPacket packet loco group =>
    exact h.scheduleDCCFunctionPacket packet loco group
  | scheduleEstopPacket packet repeats loco => exact h.scheduleEstopPacket packet repeats loco
  | scheduleAccOnOffPacket packet repeats delayms =>
    obtain ⟨q', re', hcall⟩ := h.scheduleAccOnOffPacket packet repeats delayms
    exact ⟨_, q', re', rfl, hcall⟩
  | scheduleNext force now =>
    obtain ⟨m', q', re', heq, hcall⟩ := h.scheduleNext force now
    exact ⟨m', q', re', by rw [Memory.exec, heq]; rfl, hcall⟩

theorem Refines.step (h : m.Refines s q re []) (c : Call) :
    ∃ m' q' re', m.step c = some m' ∧ m'.Refines (DCCQueue.step s c) q' re' [] := by
  obtain ⟨m', q', re', heq, hexec⟩ := h.exec c
  refine ⟨{ m' with calls := m.calls + 1 }, q', re', by rw [Memory.step, heq]; rfl, ?_⟩
  refine ⟨⟨hexec.links, hexec.tail, hexec.recycled, hexec.once⟩, fun pr => ?_, hexec.recycleList_eq,
    hexec.lastSent_eq, hexec.handedOver_eq, congrArg (· + 1) h.calls_eq⟩
  have hqueue := hexec.queue_eq pr
  cases pr <;> exact hqueue

theorem Refines.run (h : m.Refines s q re []) (cs : List Call) :
    ∃ m' q' re', cs.foldlM Memory.step m = some m' ∧
      m'.Refines (run DCCQueue.step s cs) q' re' [] := by
  induction cs generalizing m s q re with
  | nil => exact ⟨m, q, re, rfl, h⟩
  | cons c cs ih =>
    obtain ⟨m₁, q₁, re₁, heq, hstep⟩ := h.step c
    obtain ⟨m', q', re', hrest, hrun⟩ := ih hstep
    refine ⟨m', q', re', ?_, hrun⟩
    rw [List.foldlM_cons, heq]
    exact hrest

/-- After any history of calls the two queues and the recycle list are linked lists that end with null,
and each slot that was created is in one of them, once. The two pointers of a queue are null together,
and a tail is the last slot, with a null link. The operations append, prepend, push and delete; an
emergency stop moves slots to the recycle list while it walks the queue, and a slot that has been handed
over goes to the recycle list or to the start of the high priority queue. -/
theorem slots_in_lists :
    (∀ cs : List Call, ∃ m q re, after cs = some m ∧
      m.Refines (DCCQueue.after cs) q re [] ∧
      (q .high ++ q .low ++ re).Perm (List.range m.created) ∧
      ∀ pr, ((m.queue pr).head = none ↔ (m.queue pr).tail = none) ∧
        ∀ t, (m.queue pr).tail = some t → (q pr).getLast? = some t ∧ m.next t = none) ∧
    (∀ (m : Memory) q re loose p, m.Linked q re (p :: loose) →
      (∀ pr, (m.addQueue pr p).Linked (Function.update q pr (q pr ++ [p])) re loose ∧
        (m.jumpQueue pr p).Linked (Function.update q pr (p :: q pr)) re loose) ∧
      (m.recycle p).Linked q (p :: re) loose) ∧
    (∀ (m : Memory) q re loose pr p, m.Linked q re loose →
      (p ∈ q pr → ∃ m', m.remove pr p = some m' ∧
        m'.Linked (Function.update q pr ((q pr).erase p)) re (p :: loose)) ∧
      (p ∉ q pr → m.remove pr p = some m)) ∧
    (∀ (m : Memory) q re packet repeats loco, m.Linked q re [] →
      ∃ m', m.scheduleEstopPacket packet repeats loco = some m' ∧
        let recycled := ((q .high).filter fun a => estopKills loco (m.slot a)).reverse ++ re
        m'.Linked
          (Function.update q .high
            (recycled.headD m.created :: (q .high).filter fun a => !estopKills loco (m.slot a)))
          recycled.tail []) ∧
    ∀ (m : Memory) q re pr now p, m.Linked q re [] →
      (q pr).find? (fun a => eligible m.lastSentPacketLocoId now (m.slot a)) = some p →
      (m.slot p).locoId = 0 ∨ (m.slot p).packetRepeat = 0 →
      ∃ m', m.scheduleNextInternal pr now = some (m', true) ∧ m'.Gone q re pr p (m.slot p).type := by
  refine ⟨fun cs => ?_, ?_, ?_, ?_, ?_⟩
  · obtain ⟨m, q, re, heq, h⟩ := refines_init.run cs
    refine ⟨m, q, re, heq, h, h.perm, fun pr => ⟨h.head_eq_none pr, fun t htail => ?_⟩⟩
    exact h.next_tail htail
  · intro m q re loose p h
    exact ⟨fun pr => ⟨h.addQueue pr, h.jumpQueue pr⟩, h.recycle⟩
  · intro m q re loose pr p h
    refine ⟨fun hp => ?_, h.remove_of_notMem⟩
    obtain ⟨before, after, hq⟩ := List.append_of_mem hp
    refine ⟨_, h.remove hq, ?_⟩
    rw [h.erase hq]
    exact h.unlink hq
  · intro m q re packet repeats loco h
    exact h.scheduleEstopPacket packet repeats loco
  · intro m q re pr now p h hfind hleaves
    exact h.scheduleNextInternal hfind hleaves

end CommandStation.DCCQueue.Memory
