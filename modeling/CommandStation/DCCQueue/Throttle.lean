import CommandStation.DCCQueue.Accessory
import Mathlib.Data.List.Chain

/-!
# Speed and emergency-stop packets

Speed and emergency-stop packets travel through the high priority queue. An emergency stop for a
loco purges the speed packets of that loco and jumps the queue; speed packets replace each other
in place; and no two packets for the same loco should follow each other on the track.

Three things in the code get in the way, and the theorems below say exactly where:

* `scheduleDCCSpeedPacket` looks for the loco id only and may copy a speed packet into a delayed
  coil-off slot, which an emergency stop leaves alone;
* emergency-stop packets are stored under loco id 0, so a second emergency stop for the same loco
  does not find the first one and jumps over it;
* for the same reason `lastSentPacketLocoId` does not see them.
-/

namespace CommandStation.DCCQueue

open CommandStation.Lib

/-! ## What the origin of a slot says about its members -/

/-- How type, loco id and queue of a slot depend on the schedule call its packet is from. -/
structure Kinds (pr : Priority) (p : PendingSlot) : Prop where
  high : pr = .high → p.type = .speedPacket ∨ p.type = .accOffPacket
  low : pr = .low → p.type ≠ .speedPacket ∧ p.type ≠ .accOffPacket
  speed : p.origin.kind = .speed → pr = .high ∧ p.locoId = p.origin.loco
  estop : p.origin.kind = .estop → pr = .high ∧ p.type = .speedPacket ∧ p.locoId = 0
  packet : p.origin.kind = .packet → pr = .low ∧ p.type ≠ .accOnPacket ∧ p.locoId = p.origin.loco
  function : p.origin.kind = .function →
    pr = .low ∧ p.type ≠ .accOnPacket ∧ p.locoId = p.origin.loco
  accOnOff : p.origin.kind = .accOnOff →
    p.origin.loco = 0 ∧ (p.type = .accOnPacket ∨ p.type = .accOffPacket)

/-- What kind of packet a slot has, and in which queue it waits, survives every effect. -/
theorem slotInv_kinds : SlotInv (fun _ pr p => Kinds pr p) where
  mono h := h
  packet h := by
    constructor <;> simp [h.origin_eq, h.type_eq, h.locoId_eq]
  speedOverwrite h := by
    refine ⟨h.high, h.low, fun _ => ⟨rfl, rfl⟩, ?_, ?_, ?_, ?_⟩ <;> exact fun hk => by cases hk
  speedAdd h := by
    constructor <;> simp [h.origin_eq, h.type_eq, h.locoId_eq]
  functionOverwrite hg h := by
    obtain ⟨hspeed, hoff, hon, -⟩ := functionType_range hg
    refine ⟨h.high, h.low, ?_, ?_, ?_, fun _ => ⟨rfl, hon, rfl⟩, ?_⟩ <;>
      exact fun hk => by cases hk
  functionAdd hg h := by
    obtain ⟨hspeed, hoff, hon, -⟩ := functionType_range hg
    constructor <;> simp [h.origin_eq, h.type_eq, h.locoId_eq, hspeed, hoff, hon]
  estop h := by
    constructor <;> simp [h.origin_eq, h.type_eq, h.locoId_eq]
  accOnOff h := by
    constructor <;> simp [h.origin_eq, h.type_eq]
  repeated h := ⟨h.high, h.low, h.speed, h.estop, h.packet, h.function, h.accOnOff⟩
  switched htype h := by
    refine ⟨fun _ => .inr rfl, (fun hpr => by cases hpr), ?_, ?_, ?_, ?_, ?_⟩
    · intro hk
      obtain ⟨hpr, -⟩ := h.speed hk
      rcases h.high hpr with ht | ht <;> rw [htype] at ht <;> cases ht
    · intro hk
      have ht := (h.estop hk).2.1
      rw [htype] at ht
      cases ht
    · exact fun hk => absurd htype (h.packet hk).2.1
    · exact fun hk => absurd htype (h.function hk).2.1
    · exact fun hk => ⟨(h.accOnOff hk).1, .inr rfl⟩

/-- Every slot, pending or handed over, has the members its origin says. -/
abbrev KindsHold (s : State) : Prop := Everywhere (fun _ pr p => Kinds pr p) s

theorem kindsHold_after (cs : List Call) : KindsHold (after cs) :=
  slotInv_kinds.everywhere_after cs

/-! ## The emergency stop is final -/

/-- The hand-overs made since the log had the length it has in `s`, newest first. -/
def handedSince (s s' : State) : List HandOver :=
  s'.handedOver.take (s'.handedOver.length - s.handedOver.length)

/-- A speed packet for `loco` (for any loco, if it is 0) from before call `n`. -/
def StaleSpeed (loco : UInt16) (n : Nat) (o : Origin) : Prop :=
  o.kind = .speed ∧ (loco = 0 ∨ o.loco = loco) ∧ o.call < n

/-- No speed packet for `loco` sits in a coil-off slot. -/
def EstopReaches (loco : UInt16) (s : State) : Prop :=
  ∀ p ∈ s.highPriorityQueue, p.type = .accOffPacket → p.origin.kind = .speed →
    loco ≠ 0 ∧ p.origin.loco ≠ loco

instance (loco : UInt16) (s : State) : Decidable (EstopReaches loco s) :=
  inferInstanceAs (Decidable (∀ p ∈ s.highPriorityQueue, _))

/-- The way into the queues that a call takes. -/
def Call.kind : Call → Option CallKind
  | .scheduleDCCPacket .. => some .packet
  | .scheduleDCCSpeedPacket .. => some .speed
  | .scheduleDCCFunctionPacket .. => some .function
  | .scheduleEstopPacket .. => some .estop
  | .scheduleAccOnOffPacket .. => some .accOnOff
  | .scheduleNext .. => none

/-- No packet of a bad origin is pending, and none was handed over since `s₀`. -/
structure Silent (bad : Origin → Prop) (s₀ s : State) : Prop where
  clean : ∀ pr, ∀ p ∈ s.queue pr, ¬ bad p.origin
  grown : ∃ new, s.handedOver = new ++ s₀.handedOver ∧
    ∀ p r now, HandOver.slot p r now ∈ new → ¬ bad p.origin

section Silent

variable {s s₀ : State} {bad : Origin → Prop} {loco : UInt16} {n : Nat}

/-- A slot that a call puts into the queues has a new origin, or that of a slot it found there. -/
theorem Source.origin {c : Call} {pr : Priority} {x : PendingSlot} (hx : Source s c pr x) :
    (c.kind = some x.origin.kind ∧ x.origin.call = s.calls) ∨
      ∃ pr' p, p ∈ s.queue pr' ∧ p.origin = x.origin := by
  cases hx with
  | old hp => exact .inr ⟨_, _, hp, rfl⟩
  | repeated hp => exact .inr ⟨_, _, hp, rfl⟩
  | switched hp htype => exact .inr ⟨_, _, hp, rfl⟩
  | speedOverwrite hp => exact .inl ⟨rfl, rfl⟩
  | functionOverwrite hg hp => exact .inl ⟨rfl, rfl⟩
  | packet hp => rw [hp.origin_eq]; exact .inl ⟨rfl, rfl⟩
  | speedAdd hp => rw [hp.origin_eq]; exact .inl ⟨rfl, rfl⟩
  | functionAdd hg hp => rw [hp.origin_eq]; exact .inl ⟨rfl, rfl⟩
  | estop hp => rw [hp.origin_eq]; exact .inl ⟨rfl, rfl⟩
  | accOnOff hp => rw [hp.origin_eq]; exact .inl ⟨rfl, rfl⟩

/-- **Silence lasts** as long as the calls bring no bad packets. -/
theorem silent_step (c : Call)
    (hnew : ∀ o : Origin, c.kind = some o.kind → o.call = s.calls → ¬ bad o)
    (h : Silent bad s₀ s) : Silent bad s₀ (step s c) := by
  constructor
  · intro pr x hx
    rcases (step_source c pr hx).origin with ⟨hkind, hcall⟩ | ⟨pr', p, hp, horigin⟩
    · exact hnew x.origin hkind hcall
    · rw [← horigin]
      exact h.clean pr' p hp
  · obtain ⟨new, hgrown, hclean⟩ := h.grown
    have hl := step_log s c
    generalize step s c = s' at hl ⊢
    cases hl with
    | quiet hlog hlast => exact ⟨new, hlog.trans hgrown, hclean⟩
    | @idle now _ hlog hlast =>
      refine ⟨.idle now :: new, by rw [hlog, hgrown, List.cons_append], ?_⟩
      intro x r t hx
      rcases List.mem_cons.mp hx with heq | hx
      · cases heq
      · exact hclean x r t hx
    | @slot _ now pr before p after _ hp hlog hlast =>
      refine ⟨.slot p (waveformRepeats p) now :: new, by rw [hlog, hgrown, List.cons_append], ?_⟩
      intro x r t hx
      rcases List.mem_cons.mp hx with heq | hx
      · cases heq
        exact h.clean pr _ hp.mem
      · exact hclean x r t hx

/-- The emergency stop leaves no speed packet of the loco behind. -/
theorem silent_estop (hk : KindsHold s) (hreach : EstopReaches loco s) (packet : List UInt8)
    (repeats : Nat) :
    Silent (StaleSpeed loco (s.calls + 1)) s
      (step s (.scheduleEstopPacket packet repeats loco)) := by
  have he := step_effect s (.scheduleEstopPacket packet repeats loco)
  generalize step s _ = s' at he ⊢
  cases he with
  | @estop _ _ _ e r he =>
    refine ⟨?_, [], rfl, fun _ _ _ h => by cases h⟩
    intro pr p hp hstale
    obtain ⟨hkind, hloco, -⟩ := hstale
    cases pr with
    | high =>
      rcases List.mem_cons.mp hp with rfl | hp
      · rw [he.origin_eq] at hkind
        cases hkind
      · obtain ⟨hp, hkept⟩ := List.mem_filter.mp hp
        have hkinds := hk.pending .high p hp
        by_cases htype : p.type = .accOffPacket
        · obtain ⟨hne, hne'⟩ := hreach p hp htype hkind
          exact hloco.elim hne hne'
        · -- any other slot of the loco is killed
          have hid := (hkinds.speed hkind).2
          simp only [estopKills, Bool.not_eq_true', Bool.and_eq_false_iff, bne_eq_false_iff_eq,
            Bool.or_eq_false_iff, beq_eq_false_iff_ne, htype, false_or, hid] at hkept
          exact hloco.elim hkept.1 hkept.2
    | low =>
      have hpr := ((hk.pending .low p hp).speed hkind).1
      cases hpr

theorem handedSince_of_grown {new : List HandOver} (h : s.handedOver = new ++ s₀.handedOver) :
    handedSince s₀ s = new := by
  rw [handedSince, h, List.length_append, Nat.add_sub_cancel, List.take_left]

theorem Silent.not_mem_handedSince (h : Silent bad s₀ s) {p : PendingSlot} {r : Nat}
    {now : UInt32} (hp : HandOver.slot p r now ∈ handedSince s₀ s) : ¬ bad p.origin := by
  obtain ⟨new, hgrown, hclean⟩ := h.grown
  rw [handedSince_of_grown hgrown] at hp
  exact hclean p r now hp

end Silent

/-- **An emergency stop is final**: unless a speed packet of the loco sits in a coil-off slot when
the emergency stop is scheduled, no speed packet that was scheduled for the loco before is handed
over after it, whatever is called later. -/
theorem no_speed_after_estop (history : List Call) (packet : List UInt8) (repeats : Nat)
    (loco : UInt16) (later : List Call) (hreach : EstopReaches loco (after history)) :
    ∀ p r now, HandOver.slot p r now ∈ handedSince (after history)
        (after (history ++ .scheduleEstopPacket packet repeats loco :: later)) →
      ¬ StaleSpeed loco history.length p.origin := by
  have hcalls : (after history).calls = history.length := by
    rw [after, calls_run]; exact Nat.zero_add _
  have hestop := silent_estop (kindsHold_after history) hreach packet repeats
  -- the packets of later calls have higher numbers
  have hrun := inv_run_of_step (fun s => (after history).calls + 1 ≤ s.calls ∧
      Silent (StaleSpeed loco ((after history).calls + 1)) (after history) s)
    (fun s c h => ⟨Nat.le_succ_of_le h.1, silent_step c (fun o _ hcall hstale => by
      have holder := hstale.2.2
      omega) h.2⟩)
    ⟨Nat.le_refl _, hestop⟩ later
  have hsplit : after (history ++ .scheduleEstopPacket packet repeats loco :: later) =
      run step (step (after history) (.scheduleEstopPacket packet repeats loco)) later :=
    run_append ..
  intro p r now hp hstale
  rw [hsplit] at hp
  have holder := hstale.2.2
  exact hrun.2.not_mem_handedSince hp ⟨hstale.1, hstale.2.1, by omega⟩

/-- Emergency stop for a loco with a two byte address, as `setThrottleDCC` builds it. -/
def loco1100Estop : Call := .scheduleEstopPacket [0xC4, 0x4C, 0x3F, 0x81] 4 1100

/-- With no accessory switched, the pending speed packet of loco 1100 is thrown away. -/
theorem no_speed_after_estop_loco1100 :
    EstopReaches 1100 (after [loco1100Speed50]) ∧
      ∀ p r now, HandOver.slot p r now ∈ handedSince (after [loco1100Speed50])
          (after ([loco1100Speed50] ++ loco1100Estop :: [.scheduleNext true 0])) →
        ¬ StaleSpeed 1100 1 p.origin := by
  have hreach : EstopReaches 1100 (after [loco1100Speed50]) := by decide
  exact ⟨hreach, no_speed_after_estop [loco1100Speed50] _ _ 1100 [.scheduleNext true 0] hreach⟩

/-- The speed packet in the coil-off slot survives the emergency stop and is sent after it. -/
theorem speed_after_estop :
    ¬ ∀ p r now, HandOver.slot p r now ∈
        handedSince (after (switchAccessory ++ [loco1100Speed50]))
          (after ((switchAccessory ++ [loco1100Speed50]) ++
            loco1100Estop :: List.replicate 2 (.scheduleNext true 1100))) →
      ¬ StaleSpeed 1100 (switchAccessory ++ [loco1100Speed50]).length p.origin := by
  intro h
  refine h ⟨.accOffPacket, 4, 0, [0xC4, 0x4C, 0x3F, 0xB3, 0], 1100, 0, ⟨8, .speed, 1100⟩⟩ 0 1100
    (by decide) ⟨rfl, .inr rfl, by decide⟩

/-! ## Throttle packets of one loco leave in order -/

/-- A speed or emergency-stop packet for `loco`. -/
def IsThrottle (loco : UInt16) (o : Origin) : Prop :=
  (o.kind = .speed ∨ o.kind = .estop) ∧ o.loco = loco

instance (loco : UInt16) (o : Origin) : Decidable (IsThrottle loco o) :=
  inferInstanceAs (Decidable ((o.kind = .speed ∨ o.kind = .estop) ∧ o.loco = loco))

/-- No throttle packet of `loco` was handed over after a younger one; the log is newest first. -/
def ThrottleInOrder (loco : UInt16) (log : List HandOver) : Prop :=
  log.Pairwise fun newer older => ∀ p r t p' r' t', newer = .slot p r t → older = .slot p' r' t' →
    IsThrottle loco p.origin → IsThrottle loco p'.origin → p'.origin.call ≤ p.origin.call

/-- What keeps the throttle packets of `loco` in order: a speed packet for it does not meet a
coil-off slot that answers to its id, and there is no second emergency stop while one is
pending. -/
def InTurn (loco : UInt16) (s : State) : Call → Prop
  | .scheduleDCCSpeedPacket _ _ l =>
    l = loco → ∀ p ∈ s.highPriorityQueue, p.type = .accOffPacket → p.locoId ≠ loco
  | .scheduleEstopPacket _ _ l =>
    l = loco → ∀ p ∈ s.highPriorityQueue, p.origin.kind = .estop → p.origin.loco ≠ loco
  | _ => True

instance decidableInTurn (loco : UInt16) (s : State) : ∀ c, Decidable (InTurn loco s c)
  | .scheduleDCCSpeedPacket _ _ l =>
    inferInstanceAs (Decidable (l = loco → ∀ p ∈ s.highPriorityQueue, _))
  | .scheduleEstopPacket _ _ l =>
    inferInstanceAs (Decidable (l = loco → ∀ p ∈ s.highPriorityQueue, _))
  | .scheduleDCCPacket .. => isTrue trivial
  | .scheduleDCCFunctionPacket .. => isTrue trivial
  | .scheduleAccOnOffPacket .. => isTrue trivial
  | .scheduleNext .. => isTrue trivial

/-- The throttle packets of `loco` in the high priority queue are at most an emergency stop and a
younger speed packet behind it, and none is older than one that was handed over. -/
structure Turns (loco : UInt16) (s : State) : Prop where
  plain : ∀ p ∈ s.highPriorityQueue, IsThrottle loco p.origin → p.type = .speedPacket
  queue : s.highPriorityQueue.Pairwise fun p q => IsThrottle loco p.origin →
    IsThrottle loco q.origin →
    p.origin.kind = .estop ∧ q.origin.kind = .speed ∧ p.origin.call < q.origin.call
  past : ∀ p r t, HandOver.slot p r t ∈ s.handedOver → IsThrottle loco p.origin →
    ∀ q ∈ s.highPriorityQueue, IsThrottle loco q.origin → p.origin.call ≤ q.origin.call
  log : ThrottleInOrder loco s.handedOver

section Turns

variable {s : State} {loco : UInt16} {now : UInt32} {before after : List PendingSlot}
  {p q : PendingSlot}

/-- Throttle packets are in the high priority queue only. -/
theorem Kinds.high_of_isThrottle {pr : Priority} (h : Kinds pr p) (hp : IsThrottle loco p.origin) :
    pr = .high :=
  hp.1.elim (fun hk => (h.speed hk).1) (fun hk => (h.estop hk).1)

/-- The slot of a throttle packet is found by its loco id unless it is an emergency stop. -/
theorem Kinds.estop_of_isThrottle {pr : Priority} (h : Kinds pr p) (hp : IsThrottle loco p.origin)
    (hid : p.locoId ≠ loco) : p.origin.kind = .estop := by
  rcases hp.1 with hk | hk
  · exact absurd ((h.speed hk).2.trans hp.2) hid
  · exact hk

/-- A slot of the high priority queue that answers to a loco id and is no coil-off slot holds a
speed packet of that loco. -/
theorem Kinds.speed_of_locoId (h : Kinds .high p) (htype : p.type ≠ .accOffPacket)
    (hid : p.locoId ≠ 0) : p.origin.kind = .speed := by
  have hspeed : p.type = .speedPacket := (h.high rfl).resolve_right htype
  cases hk : p.origin.kind with
  | speed => rfl
  | packet => cases (h.packet hk).1
  | function => cases (h.function hk).1
  | estop => exact absurd (h.estop hk).2.2 hid
  | accOnOff =>
    rcases (h.accOnOff hk).2 with ht | ht <;> rw [hspeed] at ht <;> cases ht

/-- An emergency stop is never passed over. -/
theorem Kinds.eligible_of_estop {pr : Priority} (h : Kinds pr p) (hk : p.origin.kind = .estop)
    (last : UInt16) (now : UInt32) : eligible last now p = true := by
  obtain ⟨-, htype, hid⟩ := h.estop hk
  have hne : (PendingType.speedPacket == .accOffPacket) = false := by decide
  simp [eligible, delayed, sameLoco, htype, hid, hne]

/-- The throttle packet that is handed over is the oldest one of its loco. -/
theorem Turns.oldest (h : Turns loco s) (hk : KindsHold s)
    (hp : Picked s now .high before p after) (hthr : IsThrottle loco p.origin)
    (hq : q ∈ s.highPriorityQueue) (hqthr : IsThrottle loco q.origin) :
    p.origin.call ≤ q.origin.call := by
  have hhigh : s.highPriorityQueue = before ++ p :: after := hp.queue_eq
  have hqueue := h.queue
  rw [hhigh, List.pairwise_append, List.pairwise_cons] at hqueue
  obtain ⟨-, ⟨hafter, -⟩, hbefore⟩ := hqueue
  rw [hhigh] at hq
  rcases List.mem_append.mp hq with hqb | hq
  · -- a throttle packet in front would be an emergency stop, and picked first
    obtain ⟨hestop, -, -⟩ := hbefore q hqb p List.mem_cons_self hqthr hthr
    have hmem : q ∈ s.queue .high := by rw [hp.queue_eq]; simp [hqb]
    have hel := (hk.pending .high q hmem).eligible_of_estop hestop s.lastSentPacketLocoId now
    rw [hp.passed q hqb] at hel
    cases hel
  · rcases List.mem_cons.mp hq with rfl | hq
    · exact Nat.le_refl _
    · exact Nat.le_of_lt (hafter q hq hthr hqthr).2.2

/-- What a hand-over does to the log. -/
theorem Turns.handOver (h : Turns loco s) (hk : KindsHold s) {pr : Priority}
    (hp : Picked s now pr before p after) (r : Nat) :
    ThrottleInOrder loco (.slot p r now :: s.handedOver) ∧
    ∀ x r' t, HandOver.slot x r' t ∈ .slot p r now :: s.handedOver → IsThrottle loco x.origin →
      ∀ q ∈ s.highPriorityQueue, IsThrottle loco q.origin → x.origin.call ≤ q.origin.call := by
  have hhigh : ∀ {p}, p ∈ s.queue pr → IsThrottle loco p.origin → pr = .high :=
    fun hmem hthr => (hk.pending pr _ hmem).high_of_isThrottle hthr
  constructor
  · refine List.pairwise_cons.mpr ⟨?_, h.log⟩
    intro older hmem x r₁ t₁ x' r₂ t₂ hx hx' hthr hthr'
    cases hx
    subst hx'
    have hpr := hhigh hp.mem hthr
    subst hpr
    exact h.past x' r₂ t₂ hmem hthr' p hp.mem hthr
  · intro x r' t hmem hthr q hq hqthr
    rcases List.mem_cons.mp hmem with heq | hmem
    · cases heq
      have hpr := hhigh hp.mem hthr
      subst hpr
      exact h.oldest hk hp hthr hq hqthr
    · exact h.past x r' t hmem hthr q hq hqthr

/-- The high priority queue is left alone and no slot is handed over. -/
theorem Turns.congr {s' : State} (h : Turns loco s)
    (hhigh : s'.highPriorityQueue = s.highPriorityQueue) (hlog : s'.handedOver = s.handedOver) :
    Turns loco s' :=
  ⟨hhigh ▸ h.plain, hhigh ▸ h.queue, hhigh ▸ hlog ▸ h.past, hlog ▸ h.log⟩

/-- A call queues the slot `p`: the other slots of the high priority queue were there before. -/
theorem Turns.queued (h : Turns loco s) (hn : Numbered s) {s' : State}
    (hlog : s'.handedOver = s.handedOver) (horigin : p.origin.call = s.calls)
    (htype : IsThrottle loco p.origin → p.type = .speedPacket)
    (hmem : ∀ x ∈ s'.highPriorityQueue, x = p ∨ x ∈ s.highPriorityQueue)
    (hqueue : s'.highPriorityQueue.Pairwise fun p q => IsThrottle loco p.origin →
      IsThrottle loco q.origin →
      p.origin.kind = .estop ∧ q.origin.kind = .speed ∧ p.origin.call < q.origin.call) :
    Turns loco s' := by
  refine ⟨?_, hqueue, ?_, hlog ▸ h.log⟩
  · intro x hx hthr
    rcases hmem x hx with rfl | hx
    · exact htype hthr
    · exact h.plain x hx hthr
  · intro x r t hx hxthr y hy hythr
    rw [hlog] at hx
    rcases hmem y hy with rfl | hy
    · rw [horigin]
      obtain ⟨-, hlt⟩ := hn.handed x r t hx
      exact Nat.le_of_lt hlt
    · exact h.past x r t hx hxthr y hy hythr

/-- A speed packet for `loco` replaces an older one, or one for another loco is replaced. -/
theorem Turns.speedOverwrite (h : Turns loco s) (hk : KindsHold s) (hn : Numbered s)
    (hloco : loco ≠ 0) {packet : Packet} {repeats : Nat} {l : UInt16}
    (hturn : InTurn loco s (.scheduleDCCSpeedPacket packet repeats l))
    (hq : s.highPriorityQueue = before ++ p :: after) (hid : p.locoId = l) :
    Turns loco
      { s with
        highPriorityQueue :=
          before ++ overwrite p packet.bytes repeats ⟨s.calls, .speed, l⟩ :: after
        calls := s.calls + 1 } := by
  have hp : p ∈ s.queue .high := by simp [State.queue, hq]
  have hold := h.queue
  rw [hq] at hold
  have hmem : ∀ x, x ∈ before ++ overwrite p packet.bytes repeats ⟨s.calls, .speed, l⟩ :: after →
      x = overwrite p packet.bytes repeats ⟨s.calls, .speed, l⟩ ∨ x ∈ s.highPriorityQueue := by
    intro x hx
    simp only [List.mem_append, List.mem_cons] at hx
    rw [hq]
    rcases hx with hx | hx | hx
    · exact .inr (by simp [hx])
    · exact .inl hx
    · exact .inr (by simp [hx])
  by_cases hl : l = loco
  · subst hl
    have htype : p.type ≠ .accOffPacket := fun ht => hturn rfl p hp ht hid
    have hspeed := (hk.pending .high p hp).speed_of_locoId htype (hid ▸ hloco)
    have hthr : IsThrottle l p.origin :=
      ⟨.inl hspeed, ((hk.pending .high p hp).speed hspeed).2.symm.trans hid⟩
    have hplain : (overwrite p packet.bytes repeats ⟨s.calls, .speed, l⟩).type = .speedPacket :=
      h.plain p hp hthr
    refine h.queued hn rfl rfl (fun _ => hplain) hmem ?_
    apply pairwise_replace hold
    · intro x hx hR hxthr _
      have hxq : x ∈ s.queue .high := by simp [State.queue, hq, hx]
      exact ⟨(hR hxthr hthr).1, rfl, hn.pending .high x hxq⟩
    · intro x hx hR _ hxthr
      -- a speed packet is the last throttle packet of its loco
      have hestop := (hR hthr hxthr).1
      rw [hspeed] at hestop
      cases hestop
  · have hno : ¬ IsThrottle loco (⟨s.calls, .speed, l⟩ : Origin) := fun hthr => hl hthr.2
    refine h.queued hn rfl rfl (fun hthr => absurd hthr hno) hmem ?_
    apply pairwise_replace hold
    · exact fun _ _ _ _ hthr => absurd hthr hno
    · exact fun _ _ _ hthr => absurd hthr hno

/-- A speed packet joins the end of the queue. -/
theorem Turns.speedAdd (h : Turns loco s) (hk : KindsHold s) (hn : Numbered s) {packet : Packet}
    {repeats : Nat} {l : UInt16} {r : List PendingSlot}
    (hno : ∀ x ∈ s.highPriorityQueue, x.locoId ≠ l)
    (hp : Fills p .speedPacket packet.bytes repeats l ⟨s.calls, .speed, l⟩) :
    Turns loco
      { s with
        highPriorityQueue := s.highPriorityQueue ++ [p], recycleList := r
        calls := s.calls + 1 } := by
  refine h.queued hn rfl (by rw [hp.origin_eq]) (fun _ => hp.type_eq) ?_ ?_
  · intro x hx
    rcases List.mem_append.mp hx with hx | hx
    · exact .inr hx
    · exact .inl (List.mem_singleton.mp hx)
  · refine List.pairwise_append.mpr ⟨h.queue, List.pairwise_singleton .., ?_⟩
    intro x hx y hy hxthr hythr
    rw [List.mem_singleton.mp hy, hp.origin_eq] at hythr ⊢
    have hid : x.locoId ≠ loco := by
      have := hno x hx
      rwa [show l = loco from hythr.2] at this
    exact ⟨(hk.pending .high x hx).estop_of_isThrottle hxthr hid, rfl, hn.pending .high x hx⟩

/-- An emergency stop throws out the speed packets of the loco and takes the lead. -/
theorem Turns.estop (h : Turns loco s) (hk : KindsHold s) (hn : Numbered s) {packet : List UInt8}
    {repeats : Nat} {l : UInt16} {r : List PendingSlot}
    (hturn : InTurn loco s (.scheduleEstopPacket packet repeats l))
    (hp : Fills p .speedPacket packet repeats 0 ⟨s.calls, .estop, l⟩) :
    Turns loco
      { s with
        highPriorityQueue := p :: s.highPriorityQueue.filter (fun x => !estopKills l x)
        recycleList := r, calls := s.calls + 1 } := by
  refine h.queued hn rfl (by rw [hp.origin_eq]) (fun _ => hp.type_eq) ?_ ?_
  · intro x hx
    rcases List.mem_cons.mp hx with hx | hx
    · exact .inl hx
    · exact .inr (List.mem_filter.mp hx).1
  · refine List.pairwise_cons.mpr ⟨?_, h.queue.filter _⟩
    intro x hx hpthr hxthr
    obtain ⟨hx, hkept⟩ := List.mem_filter.mp hx
    rw [hp.origin_eq] at hpthr
    have hl : l = loco := hpthr.2
    have hkinds := hk.pending .high x hx
    rcases hxthr.1 with hspeed | hestop
    · -- the speed packet would have been thrown out
      have hid : x.locoId = l := (hkinds.speed hspeed).2.trans (hxthr.2.trans hl.symm)
      simp [estopKills, h.plain x hx hxthr, hid] at hkept
    · exact absurd hxthr.2 (hturn hl x hx hestop)

/-- A slot is handed over, and what is left of the high priority queue has the origins it had. -/
theorem Turns.handed (h : Turns loco s) (hk : KindsHold s) {pr : Priority}
    (hp : Picked s now pr before p after) {s' : State}
    (hlog : s'.handedOver = .slot p (waveformRepeats p) now :: s.handedOver)
    (hmem : ∀ x ∈ s'.highPriorityQueue, IsThrottle loco x.origin →
      ∃ y ∈ s.highPriorityQueue, y.origin = x.origin ∧ y.type = x.type)
    (hqueue : s'.highPriorityQueue.Pairwise fun p q => IsThrottle loco p.origin →
      IsThrottle loco q.origin →
      p.origin.kind = .estop ∧ q.origin.kind = .speed ∧ p.origin.call < q.origin.call) :
    Turns loco s' := by
  obtain ⟨horder, hpast⟩ := h.handOver hk hp (waveformRepeats p)
  refine ⟨?_, hqueue, ?_, hlog ▸ horder⟩
  · intro x hx hthr
    obtain ⟨y, hy, horigin, htype⟩ := hmem x hx hthr
    rw [← htype]
    exact h.plain y hy (horigin ▸ hthr)
  · intro x r t hx hxthr q hq hqthr
    obtain ⟨y, hy, horigin, -⟩ := hmem q hq hqthr
    rw [hlog] at hx
    rw [← horigin] at hqthr ⊢
    exact hpast x r t hx hxthr y hy hqthr

/-- **A call in turn keeps the throttle packets of a loco in order.** -/
theorem turns_step (hloco : loco ≠ 0) (hk : KindsHold s) (hn : Numbered s) (c : Call)
    (hturn : InTurn loco s c) (h : Turns loco s) : Turns loco (step s c) := by
  have he := step_effect s c
  generalize step s c = s' at he ⊢
  -- only speeds, estops and what is handed over concern the throttle packets
  cases he with
  | packet hp => exact h.congr rfl rfl
  | speedOverwrite hq hid hbefore => exact h.speedOverwrite hk hn hloco hturn hq hid
  | speedAdd hno hp => exact h.speedAdd hk hn hno hp
  | functionInvalid hg => exact h.congr rfl rfl
  | functionOverwrite hg hq hid htype => exact h.congr rfl rfl
  | functionAdd hg hp => exact h.congr rfl rfl
  | estop hp => exact h.estop hk hn hturn hp
  | accOnOff hp => exact h.congr rfl rfl
  | nothing => exact h.congr rfl rfl
  | idle =>
    refine ⟨h.plain, h.queue, ?_, List.pairwise_cons.mpr ⟨?_, h.log⟩⟩
    · intro x r t hx
      rcases List.mem_cons.mp hx with heq | hx
      · cases heq
      · exact h.past x r t hx
    · intro older _ x r t x' r' t' hx
      cases hx
  | @repeated _ now pr before p after hp hid hrep =>
    cases pr with
    | high =>
      have hhigh : s.highPriorityQueue = before ++ p :: after := hp.queue_eq
      refine h.handed hk hp rfl ?_ (pairwise_replace (hhigh ▸ h.queue) ?_ ?_)
      · intro x hx _
        simp only [State.setQueue, List.mem_append, List.mem_cons] at hx
        rw [hhigh]
        rcases hx with hx | rfl | hx
        · exact ⟨x, by simp [hx], rfl, rfl⟩
        · exact ⟨p, by simp, rfl, rfl⟩
        · exact ⟨x, by simp [hx], rfl, rfl⟩
      · exact fun _ _ hR => hR
      · exact fun _ _ hR => hR
    | low => exact h.handed hk hp rfl (fun x hx _ => ⟨x, hx, rfl, rfl⟩) h.queue
  | @switched _ now pr before p after hp htype hrep =>
    have hkinds := hk.pending pr p hp.mem
    -- the coil off of an accessory is no throttle packet, although its slot is in the high queue now
    have hno : ¬ IsThrottle loco (coilOff p now).origin := by
      intro hthr
      have hpr := hkinds.high_of_isThrottle hthr
      rcases hkinds.high hpr with ht | ht <;> rw [htype] at ht <;> cases ht
    cases pr with
    | high => rcases hkinds.high rfl with ht | ht <;> rw [htype] at ht <;> cases ht
    | low =>
      refine h.handed hk hp rfl ?_ (List.pairwise_cons.mpr ⟨?_, h.queue⟩)
      · intro x hx hthr
        rcases List.mem_cons.mp hx with rfl | hx
        · exact absurd hthr hno
        · exact ⟨x, hx, rfl, rfl⟩
      · exact fun _ _ hthr => absurd hthr hno
  | @recycled _ now pr before p after r hp htype hrep =>
    cases pr with
    | high =>
      have hhigh : s.highPriorityQueue = before ++ p :: after := hp.queue_eq
      refine h.handed hk hp rfl ?_ (pairwise_remove (hhigh ▸ h.queue))
      intro x hx _
      exact ⟨x, hp.mem_of_mem_rest hx, rfl, rfl⟩
    | low => exact h.handed hk hp rfl (fun x hx _ => ⟨x, hx, rfl, rfl⟩) h.queue

end Turns

theorem turns_init (loco : UInt16) : Turns loco init where
  plain p hp := by cases hp
  queue := .nil
  past p r t hp := by cases hp
  log := .nil

/-- **Throttle packets leave in order**: in every history whose calls are in turn for a loco, no
speed or emergency-stop packet of that loco is handed over after a younger one. -/
theorem throttle_in_order {cs : List Call} {loco : UInt16} (hloco : loco ≠ 0)
    (hturn : Along step (InTurn loco) init cs) :
    ThrottleInOrder loco (after cs).handedOver := by
  have hrun := inv_run (fun s => KindsHold s ∧ Numbered s ∧ Turns loco s)
    (fun s c hc h => ⟨slotInv_kinds.everywhere_step c h.1,
      slotInv_numbered.everywhere_step c h.2.1, turns_step hloco h.1 h.2.1 c hc h.2.2⟩)
    ⟨everywhere_init, everywhere_init, turns_init loco⟩ hturn
  exact hrun.2.2.log

/-- A speed packet and then an emergency stop for loco 3 leave in order. -/
theorem throttle_in_order_loco3 :
    ThrottleInOrder 3 (after [.scheduleDCCSpeedPacket ⟨[3, 0x3F, 0xB3], by decide⟩ 0 3,
      .scheduleNext true 0, .scheduleEstopPacket [3, 0x3F, 0x81] 4 3,
      .scheduleNext true 0]).handedOver :=
  throttle_in_order (by decide) (by decide)

/-- Emergency stop for loco 3 running forwards, then running backwards: the second packet jumps
over the first, and the loco is left facing forwards. -/
def loco3EstopTwice : List Call :=
  [.scheduleEstopPacket [3, 0x3F, 0x81] 4 3, .scheduleEstopPacket [3, 0x3F, 0x01] 4 3,
    .scheduleNext true 0, .scheduleNext true 0]

theorem throttle_out_of_order : ¬ ThrottleInOrder 3 (after loco3EstopTwice).handedOver := by
  intro h
  let first : PendingSlot :=
    ⟨.speedPacket, 3, 4, [3, 0x3F, 0x81, 0, 0], 0, 0, ⟨0, .estop, 3⟩⟩
  let second : PendingSlot :=
    ⟨.speedPacket, 3, 4, [3, 0x3F, 0x01, 0, 0], 0, 0, ⟨1, .estop, 3⟩⟩
  have hlog : (after loco3EstopTwice).handedOver = [.slot first 4 0, .slot second 4 0] := by
    decide
  rw [hlog] at h
  have hle := List.rel_of_pairwise_cons h List.mem_cons_self first 4 0 second 4 0 rfl rfl
    (by decide) (by decide)
  exact absurd hle (by decide)

/-! ## No two packets in a row for the same loco -/

/-- The packet handed over last, if that was not an idle packet. -/
def State.lastPacket (s : State) : Option PendingSlot :=
  match s.handedOver.head? with
  | some (.slot p _ _) => some p
  | _ => none

/-- No two packets in a row were scheduled for the same loco. -/
def Spaced (log : List HandOver) : Prop :=
  log.IsChain fun newer older => ∀ p r t p' r' t', newer = .slot p r t → older = .slot p' r' t' →
    p.origin.loco ≠ 0 → p'.origin.loco ≠ p.origin.loco

/-- No emergency stop is about to come before or after a packet for the same loco: when the slot that
`scheduleNext` picks is for the loco of the packet sent last, neither of the two is an emergency stop. -/
def Apart (s : State) : Call → Prop
  | .scheduleNext _ now => ∀ q ∈ s.lastPacket, q.origin.loco ≠ 0 → ∀ p ∈ pickedSlot s now,
      p.origin.loco = q.origin.loco → p.origin.kind ≠ .estop ∧ q.origin.kind ≠ .estop
  | _ => True

instance decidableApart (s : State) : ∀ c, Decidable (Apart s c)
  | .scheduleNext _ now =>
    inferInstanceAs (Decidable (∀ q ∈ s.lastPacket, q.origin.loco ≠ 0 → ∀ p ∈ pickedSlot s now, _))
  | .scheduleDCCPacket .. => isTrue trivial
  | .scheduleDCCSpeedPacket .. => isTrue trivial
  | .scheduleDCCFunctionPacket .. => isTrue trivial
  | .scheduleEstopPacket .. => isTrue trivial
  | .scheduleAccOnOffPacket .. => isTrue trivial

/-- `lastSentPacketLocoId` is the loco id of the last slot. -/
structure LastSent (s : State) : Prop where
  last : ∀ q ∈ s.lastPacket, s.lastSentPacketLocoId = q.locoId
  spaced : Spaced s.handedOver

section LastSent

variable {s : State}

/-- Apart from emergency stops, a slot with a packet for a loco has its id. -/
theorem Kinds.locoId_eq {pr : Priority} {p : PendingSlot} (h : Kinds pr p)
    (hloco : p.origin.loco ≠ 0) (hk : p.origin.kind ≠ .estop) : p.locoId = p.origin.loco := by
  cases hkind : p.origin.kind with
  | packet => exact (h.packet hkind).2.2
  | speed => exact (h.speed hkind).2
  | function => exact (h.function hkind).2.2
  | estop => exact absurd hkind hk
  | accOnOff => exact absurd (h.accOnOff hkind).1 hloco

theorem lastPacket_eq_some {p : PendingSlot} (h : s.lastPacket = some p) :
    ∃ r t rest, s.handedOver = .slot p r t :: rest := by
  cases hlog : s.handedOver with
  | nil => simp [State.lastPacket, hlog] at h
  | cons a rest =>
    cases a with
    | idle t => simp [State.lastPacket, hlog] at h
    | slot q r t =>
      simp only [State.lastPacket, hlog, List.head?_cons, Option.some.injEq] at h
      exact ⟨r, t, rest, by rw [h]⟩

theorem lastPacket_of_slot {p : PendingSlot} {r : Nat} {t : UInt32} {rest : List HandOver}
    (h : s.handedOver = .slot p r t :: rest) : s.lastPacket = some p := by
  simp [State.lastPacket, h]

/-- What was sent last is remembered over every call under which locos stay apart. -/
theorem lastSent_step (hk : KindsHold s) (c : Call) (hapart : Apart s c) (h : LastSent s) :
    LastSent (step s c) := by
  have hl := step_log s c
  generalize step s c = s' at hl ⊢
  cases hl with
  | quiet hlog hlast =>
    have hpacket : s'.lastPacket = s.lastPacket := by rw [State.lastPacket, State.lastPacket, hlog]
    exact ⟨by rw [hpacket, hlast]; exact h.last, hlog ▸ h.spaced⟩
  | idle hlog hlast =>
    refine ⟨?_, ?_⟩
    · intro q hq
      obtain ⟨r, t, rest, hslot⟩ := lastPacket_eq_some hq
      rw [hlog] at hslot
      cases hslot
    · rw [hlog]
      refine List.isChain_cons.mpr ⟨?_, h.spaced⟩
      intro older _ x r t q r' t' hidle
      cases hidle
  | @slot force now pr before p after _ hp hlog hlast =>
    refine ⟨?_, ?_⟩
    · intro q hq
      rw [lastPacket_of_slot hlog] at hq
      cases hq
      exact hlast
    · rw [hlog]
      refine List.isChain_cons.mpr ⟨?_, h.spaced⟩
      intro older hhead x r t q r' t' hx hold hloco hsame
      cases hx
      subst hold
      have hq : s.lastPacket = some q := by simp [State.lastPacket, Option.mem_def.mp hhead]
      have hqloco : q.origin.loco ≠ 0 := hsame ▸ hloco
      obtain ⟨hpk, hqk⟩ := hapart q hq hqloco p hp.pickedSlot_eq hsame.symm
      -- both slots carry the id of their loco, so `p` was not eligible
      have hpid := (hk.pending pr p hp.mem).locoId_eq hloco hpk
      obtain ⟨r₀, t₀, rest, hslot⟩ := lastPacket_eq_some hq
      obtain ⟨pr', hqkinds⟩ := hk.handed q r₀ t₀ (by rw [hslot]; exact List.mem_cons_self)
      have hqid := hqkinds.locoId_eq hqloco hqk
      have hel := hp.eligible
      simp only [eligible, sameLoco, Bool.and_eq_true, Bool.not_eq_true', Bool.and_eq_false_iff,
        bne_eq_false_iff_eq, beq_eq_false_iff_ne, h.last q hq, hpid, hqid, hsame] at hel
      exact hel.2.elim hloco (fun hne => hne rfl)

theorem lastSent_init : LastSent init where
  last q hq := by cases hq
  spaced := .nil

end LastSent

/-- **Packets for one loco are kept apart**: in every history in which no emergency stop is about
to meet a packet for the same loco, no two packets in a row are for the same loco. -/
theorem packets_spaced {cs : List Call} (hapart : Along step Apart init cs) :
    Spaced (after cs).handedOver := by
  have hrun := inv_run (fun s => KindsHold s ∧ LastSent s)
    (fun s c hc h => ⟨slotInv_kinds.everywhere_step c h.1, lastSent_step h.1 c hc h.2⟩)
    ⟨everywhere_init, lastSent_init⟩ hapart
  exact hrun.2.spaced

/-- A function packet for loco 3 has to wait for an idle packet. -/
theorem packets_spaced_loco3 :
    Spaced (after [.scheduleDCCSpeedPacket ⟨[3, 0x3F, 0xB3], by decide⟩ 0 3,
      .scheduleDCCFunctionPacket ⟨[3, 0x90], by decide⟩ 3 1,
      .scheduleNext true 0, .scheduleNext true 0, .scheduleNext true 0]).handedOver :=
  packets_spaced (by decide)

/-- Speed 50 for loco 3 and, right behind it on the track, its emergency stop. -/
theorem packets_not_spaced :
    ¬ Spaced (after [.scheduleDCCSpeedPacket ⟨[3, 0x3F, 0xB3], by decide⟩ 0 3,
      .scheduleNext true 0, .scheduleEstopPacket [3, 0x3F, 0x81] 4 3,
      .scheduleNext true 0]).handedOver := by
  intro h
  let speed : PendingSlot :=
    ⟨.speedPacket, 3, 0, [3, 0x3F, 0xB3, 0, 0], 3, 0, ⟨0, .speed, 3⟩⟩
  let estop : PendingSlot :=
    ⟨.speedPacket, 3, 4, [3, 0x3F, 0x81, 0, 0], 0, 0, ⟨2, .estop, 3⟩⟩
  have hlog : (after [.scheduleDCCSpeedPacket ⟨[3, 0x3F, 0xB3], by decide⟩ 0 3,
      .scheduleNext true 0, .scheduleEstopPacket [3, 0x3F, 0x81] 4 3,
      .scheduleNext true 0]).handedOver = [.slot estop 4 0, .slot speed 0 0] := by decide
  rw [hlog] at h
  exact (List.isChain_cons_cons.mp h).1 estop 4 0 speed 0 0 rfl rfl (by decide) rfl

end CommandStation.DCCQueue
