import CommandStation.DCC.Extended
import CommandStation.Lib.Shadow
import Mathlib.Data.List.Chain

/-!
# Every loco is reminded

`issueReminders` is called whenever there is nothing else to send. It goes on at the slot after the
last one that was reminded, and when it comes to the end of the list it starts a new pass with the
next `loopStatus`. To say which slots it asks for a reminder, the calls of `issueReminder` are
recorded: `Watched` is the station with a list of passes, and `Op.watched` are the operations of the
station with this record, which does not change what they do.

A pass that began with the list of slots as it is and has come to its end has called `issueReminder`
for every slot of the list, once and in order.
-/

namespace CommandStation

open CommandStation.Lib LocoTable

variable {F : Fault → Prop} {s s' : Station} {xs ys : List Addr} {a : Addr}

/-! ## What a reminder sends -/

namespace DCC

/-- Only packets have joined the queues. -/
def Fed (s s' : Station) : Prop := ∃ calls, s'.queue = run DCCQueue.step s.queue calls

instance : Std.Refl Fed := ⟨fun _ => ⟨[], rfl⟩⟩

instance : IsTrans Station Fed := by
  refine ⟨fun s s' s'' h h' => ?_⟩
  obtain ⟨calls, hcalls⟩ := h
  obtain ⟨calls', hcalls'⟩ := h'
  exact ⟨calls ++ calls', by rw [hcalls', hcalls, run_append]⟩

theorem fed_onSlots {α : Type} (m : Slots α) : Preserves Fed (onSlots m) :=
  preserves_zoom fun _ _ => ⟨[], rfl⟩

theorem fed_setThrottleDCC (slot : Option Addr) (speedCode : UInt8) :
    Preserves Fed (setThrottleDCC slot speedCode) := by
  have hsend : ∀ cab code, Preserves Fed (sendSpeed cab code) := by
    intro cab code s
    rw [wp_sendSpeed]
    exact ⟨[speedCall cab s.globalSpeedsteps code], rfl⟩
  apply preserves_bind preserves_get
  intro s
  cases slot with
  | none => exact hsend 0 _
  | some a => exact preserves_bind (fed_onSlots _) fun slot => hsend slot.loco _

/-- The loco of a slot is sent the speed code before its followers are. -/
theorem setThrottle2_sends (ha : s.locos.live a = true) (speedCode : UInt8) :
    wp (fun _ => True) (setThrottle2 a speedCode) (fun _ s' => ∃ calls,
      s'.queue = run DCCQueue.step s.queue (speedCall (s.locos.mem a).loco s.globalSpeedsteps
        (blocked s (directed (s.locos.mem a) speedCode)) :: calls)) s := by
  have hbody : ∀ (b : Addr) (r : Unit), Preserves Fed (do
      onSlots (writeSlot b fun slot => slot.setSpeedCode speedCode)
      setThrottleDCC (some b) speedCode
      let slot ← onSlots (readSlot b)
      pure (slot.consistNext, ())) := fun b _ =>
    preserves_bind (fed_onSlots _) fun _ => preserves_bind (fed_setThrottleDCC (some b) _)
      fun _ => preserves_bind (fed_onSlots _) fun _ => preserves_pure _
  simp only [setThrottle2, updateSlots, followSlots, wp_bind, wp_get]
  cases s.locos.fresh with
  | zero => trivial
  | succ fuel =>
    simp only [Lib.loop, wp_bind]
    rw [wp_write ha, wp_setThrottleDCC (by exact ha), wp_read (by exact ha), wp_pure]
    refine wp_mono (preserves_loop hbody fuel _ () _) ?_
    rintro _ s₂ ⟨calls, hcalls⟩
    refine ⟨calls, hcalls.trans ?_⟩
    rw [run_cons]
    simp [LocoSlot.setSpeedCode, directed, blocked]

/-- The call with which the speed reminder of a slot joins the queue. -/
def speedReminder (s : Station) (slot : LocoSlot) (now : UInt32) : DCCQueue.Call :=
  speedCall slot.loco s.globalSpeedsteps (blocked s (directed slot (reminderCode s slot now)))

/-- The call with which the reminder of a function group joins the queue. -/
def functionReminder (s : Station) (slot : LocoSlot) (group : Nat) : DCCQueue.Call :=
  .scheduleDCCFunctionPacket (functionPacket (s.platform.int slot.loco)
    (functionInstruction group) (functionByte slot.functions group))
    (UInt16.ofInt (s.platform.int slot.loco)) group

/-- A reminder of the speed sends that of its loco first, and then those of its followers. -/
theorem remindSpeed_sends (h : Lists s.locos xs ys) (ha : a ∈ xs) (now : UInt32) :
    wp (fun _ => True) (remindSpeed a now) (fun _ s' => ∃ calls,
      s'.queue = run DCCQueue.step s.queue
        (speedReminder s (s.locos.mem a) now :: calls)) s := by
  refine wp_remindSpeed_setThrottle2 h ha (fun s₂ hdue hs₂ hret => ?_) fun hdue => ?_
  · have hlive := (hret.lists h).live_inUse ha
    refine wp_mono (setThrottle2_sends (by exact hlive) _) ?_
    rintro _ s' ⟨calls, hcalls⟩
    -- the tracks may have been driven, which sends no packet
    have hqueue : s₂.queue = s.queue := by rw [hs₂.rest]
    have hsteps : s₂.globalSpeedsteps = s.globalSpeedsteps := by rw [hs₂.rest]
    have hlocked : s₂.estopIsLocked = s.estopIsLocked := by rw [hs₂.rest]
    refine ⟨calls, hcalls.trans ?_⟩
    rw [speedReminder]
    simp only [blocked, directed, hret.loco, hret.consistReverse, hqueue, hsteps, hlocked]
  · have hcode : reminderCode s (s.locos.mem a) now = (s.locos.mem a).speedCode := if_neg hdue
    rw [speedReminder, hcode]
    exact setThrottle2_sends (h.live_inUse ha) _

end DCC

/-! ## Calls of `issueReminder` -/

/-- A call of `issueReminder`, with the station before and after it. -/
structure Visit where
  slot : Addr
  now : UInt32
  before : Station
  after : Station
  sent : Bool

namespace Visit

open DCC

/-- The slot as it was when it was visited. -/
def target (v : Visit) : LocoSlot := v.before.locos.mem v.slot

/-- The visit sent the speed of the loco. -/
def remindsSpeed (v : Visit) : Bool := v.sent && speedStatus v.before.loopStatus

/-- The visit sent a function group of the loco. -/
def remindsGroup (v : Visit) (group : Nat) : Bool :=
  v.sent && groupOfLoopStatus v.before.loopStatus == some group

/-- There is something to send in this loop state. -/
def Wanted (v : Visit) : Prop :=
  if speedStatus v.before.loopStatus then v.target.isConsistFollower = false
  else ∃ group, groupOfLoopStatus v.before.loopStatus = some group ∧
    v.target.groupFlags &&& groupFlag group ≠ 0

/-- The visit is to a slot in use. It sends what is wanted, as packets that join the queue, and
does nothing at all otherwise. -/
structure Real (v : Visit) : Prop where
  inUse : v.slot ∈ v.before.locos.slots
  sends : v.sent = true ↔ v.Wanted
  speed : v.remindsSpeed = true → ∃ calls, v.after.queue =
    run DCCQueue.step v.before.queue (speedReminder v.before v.target v.now :: calls)
  function : ∀ group, v.remindsGroup group = true →
    v.after.queue = DCCQueue.step v.before.queue (functionReminder v.before v.target group)
  silent : v.sent = false → v.after = v.before

end Visit

namespace DCC

/-- The function states are the odd ones. -/
theorem groupOfLoopStatus_of_speedStatus {n : Nat} (h : speedStatus n = true) :
    groupOfLoopStatus n = none := by
  unfold groupOfLoopStatus
  split
  · cases h
  · cases h
  · cases h
  · cases h
  · cases h
  · rfl

/-- Nothing is wanted and nothing is done. -/
theorem real_silent {now : UInt32} (ha : a ∈ s.locos.slots)
    (hno : ¬ Visit.Wanted ⟨a, now, s, s, false⟩) : Visit.Real ⟨a, now, s, s, false⟩ where
  inUse := ha
  sends := ⟨(fun h => by cases h), fun h => absurd h hno⟩
  speed h := by cases h
  function _ h := by cases h
  silent _ := rfl

/-- A visit to a slot in use sends what is wanted, or does nothing. -/
theorem issueReminder_real (h : Lists s.locos xs ys) (ha : a ∈ xs) (now : UInt32) :
    wp (fun _ => True) (issueReminder a now) (fun sent s' => Visit.Real ⟨a, now, s, s', sent⟩)
      s := by
  have hmem : a ∈ s.locos.slots := by rwa [h.slots_eq]
  simp only [issueReminder, wp_bind]
  rw [wp_read (h.live_inUse ha)]
  simp only [wp_get]
  split
  · next hspeed =>
    have hgroup := groupOfLoopStatus_of_speedStatus hspeed
    split
    · next hfollower =>
      apply real_silent hmem
      simp [Visit.Wanted, Visit.target, hspeed, hfollower]
    · next hroot =>
      rw [wp_bind]
      refine wp_mono (remindSpeed_sends h ha now) ?_
      intro _ s' hs'
      refine ⟨hmem, ?_, fun _ => hs', fun group hno => ?_, (fun hno => by cases hno)⟩
      · simpa [Visit.Wanted, Visit.target, hspeed] using hroot
      · simp [Visit.remindsGroup, hgroup] at hno
  · next hspeed =>
    cases hgroup : groupOfLoopStatus s.loopStatus with
    | none =>
      apply real_silent hmem
      simp [Visit.Wanted, hspeed, hgroup]
    | some group =>
      simp only
      split
      · next hflag =>
        refine ⟨hmem, ?_, fun hno => ?_, fun group' hgroup' => ?_, (fun hno => by cases hno)⟩
        · simp [Visit.Wanted, Visit.target, hspeed, hgroup, hflag]
        · simp [Visit.remindsSpeed, hspeed] at hno
        · simp only [Visit.remindsGroup, hgroup, Bool.true_and, beq_iff_eq,
            Option.some.injEq] at hgroup'
          rw [← hgroup']
          rfl
      · next hflag =>
        apply real_silent hmem
        simpa [Visit.Wanted, Visit.target, hspeed, hgroup] using hflag

end DCC

/-! ## Recording the visits -/

/-- The visits while `loopStatus` has one value, oldest first. -/
structure Pass where
  loopStatus : Nat
  visits : List Visit

/-- The station with the passes of the reminder loop: those that were finished, oldest first, and
the running one. -/
structure Watched where
  station : Station
  finished : List Pass
  running : Pass

namespace Watched

/-- Watching begins. -/
def start (s : Station) : Watched := ⟨s, [], ⟨s.loopStatus, []⟩⟩

/-- A visit is recorded. -/
def visit (w : Watched) (v : Visit) : Watched :=
  { w with running := { w.running with visits := w.running.visits ++ [v] } }

/-- `loopStatus` has changed: a new pass begins. -/
def nextPass (w : Watched) : Watched :=
  { w with finished := w.finished ++ [w.running], running := ⟨w.station.loopStatus, []⟩ }

end Watched

abbrev Watch (α : Type) : Type := Prog Watched Fault α

/-- An operation of the station without visits. -/
def watch {α : Type} (m : Dcc α) : Watch α :=
  zoom Watched.station (fun w s => { w with station := s }) m

namespace Watch

/-- `issueReminder` with the visit recorded. -/
def issueReminder (a : Addr) (now : UInt32) : Watch Bool := do
  let before ← get
  let sent ← watch (DCC.issueReminder a now)
  let after ← get
  modify fun w => w.visit ⟨a, now, before.station, after.station, sent⟩
  pure sent

/-- `remindFrom` with its visits. -/
def remindFrom (start : Option Addr) (now : UInt32) : Watch (Option Addr) := do
  let w ← get
  loop (fun a _ => do
    let sent ← issueReminder a now
    let slot ← watch (onSlots (readSlot a))
    if sent then pure (none, slot.next) else pure (slot.next, none))
    .endlessLoop w.station.locos.fresh start none

/-- `issueReminders` with its visits; the change of `loopStatus` begins a new pass. -/
def issueReminders (now : UInt32) : Watch Unit := do
  let w ← get
  if w.station.locos.chainModified ∨ w.station.nextLocoReminder = none then
    watch (modify fun s => { s with
      locos := { s.locos with chainModified := false }
      nextLocoReminder := s.locos.firstSlot })
    if w.station.locos.firstSlot = none then pure ()
    else
      watch (modify fun s => { s with
        loopStatus := if 9 < s.loopStatus + 1 then 0 else s.loopStatus + 1 })
      modify Watched.nextPass
      let next ← remindFrom w.station.locos.firstSlot now
      watch (modify fun s => { s with nextLocoReminder := next })
  else
    let next ← remindFrom w.station.nextLocoReminder now
    watch (modify fun s => { s with nextLocoReminder := next })

/-- `DCC::loop` with its visits. -/
def dccLoop (windowOpen : Bool) (pendingAt remindAt forcedAt : UInt32) : Watch Unit := do
  when windowOpen do
    let sent ← watch (scheduleNext false pendingAt)
    when (sent = false) do
      issueReminders remindAt
      let _ ← watch (scheduleNext true forcedAt)
      pure ()

end Watch

/-- The operation with its visits. -/
def Op.watched : Op → Watch Bool
  | .loop windowOpen pendingAt remindAt forcedAt => do
    Watch.dccLoop windowOpen pendingAt remindAt forcedAt
    pure true
  | op => watch op.exec

namespace Watch

theorem shadows_watch {α : Type} (m : Dcc α) : Shadows Watched.station (watch m) m :=
  Shadows.zoom (fun _ _ => rfl) m

theorem shadows_issueReminder (a : Addr) (now : UInt32) :
    Shadows Watched.station (issueReminder a now) (DCC.issueReminder a now) := by
  apply Shadows.peek
  intro before
  have hsent : ∀ sent : Bool, Shadows Watched.station (do
      let after ← get
      modify fun w : Watched => w.visit ⟨a, now, before.station, after.station, sent⟩
      pure sent) (pure sent : Dcc Bool) := fun sent =>
    Shadows.peek fun after => Shadows.ghost (fun _ => rfl) (Shadows.pure sent)
  have hbind := (shadows_watch (DCC.issueReminder a now)).bind hsent
  rwa [bind_pure] at hbind

theorem shadows_remindFrom (start : Option Addr) (now : UInt32) :
    Shadows Watched.station (remindFrom start now) (DCC.remindFrom start now) := by
  apply Shadows.get
  intro w
  apply Shadows.loop
  intro a _
  refine (shadows_issueReminder a now).bind fun sent => (shadows_watch _).bind fun slot => ?_
  exact Shadows.ite (fun _ => Shadows.pure _) fun _ => Shadows.pure _

/-- The record of the passes does not change what `issueReminders` does. -/
theorem shadows_issueReminders (now : UInt32) :
    Shadows Watched.station (issueReminders now) (DCC.issueReminders now) := by
  have hgo : ∀ start, Shadows Watched.station (do
      let next ← remindFrom start now
      watch (modify fun s => { s with nextLocoReminder := next })) (do
      let next ← DCC.remindFrom start now
      modify fun s => { s with nextLocoReminder := next }) := fun start =>
    (shadows_remindFrom start now).bind fun next => shadows_watch _
  apply Shadows.get
  intro w
  apply Shadows.ite
  · intro _
    refine (shadows_watch _).bind fun _ => Shadows.ite (fun _ => Shadows.pure ()) fun _ => ?_
    exact (shadows_watch _).bind fun _ => Shadows.ghost (fun _ => rfl) (hgo _)
  · intro _
    exact hgo _

/-- **The record changes nothing**: the watched operations do to the station what the operations
do. -/
theorem shadows_op (op : Op) : Shadows Watched.station op.watched op.exec := by
  cases op with
  | loop windowOpen pendingAt remindAt forcedAt =>
    refine Shadows.bind (Shadows.when fun _ => ?_) fun _ => Shadows.pure true
    refine (shadows_watch _).bind fun sent => Shadows.when fun _ => ?_
    exact (shadows_issueReminders remindAt).bind fun _ => (shadows_watch _).bind fun _ =>
      Shadows.pure ()
  | _ => exact shadows_watch _

end Watch

/-! ## One call of `issueReminders` -/

variable {w w' : Watched}

/-- The reminder loop has visited the first of the slots `rest`; `left` are still to be visited. -/
structure Advanced (rest left : List Addr) (w w' : Watched) : Prop where
  kept : Kept w.station w'.station
  status : w'.station.loopStatus = w.station.loopStatus
  finished : w'.finished = w.finished
  visits : ∃ vs, w'.running = ⟨w.running.loopStatus, w.running.visits ++ vs⟩ ∧
    vs.map Visit.slot ++ left = rest ∧
    ∀ v ∈ vs, v.Real ∧ v.before.loopStatus = w.station.loopStatus

namespace Watch

theorem advanced_refl (rest : List Addr) (w : Watched) : Advanced rest rest w w :=
  ⟨Kept.refl _, rfl, rfl, [], by simp, rfl, (fun _ hv => by cases hv)⟩

/-- A reminder advances the pass by one slot. -/
theorem wp_issueReminder {rest left : List Addr} {w₁ : Watched} (h : Lists w.station.locos xs ys)
    (hc : Consists w.station.locos xs none) (ha : a ∈ xs) (hw : Advanced rest (a :: left) w w₁)
    (now : UInt32) :
    wp (fun _ => True) (issueReminder a now) (fun _ w₂ => Advanced rest left w w₂) w₁ := by
  have h₁ := hw.kept.locos.lists h
  have hc₁ := hw.kept.locos.consists hc
  simp only [issueReminder, watch, wp_bind, wp_get, wp_zoom, wp_modify, wp_pure]
  refine wp_mono (wp_and (wp_and (DCC.issueReminder_kept h₁ hc₁ ha now)
    (DCC.extended_issueReminder a now w₁.station)) (DCC.issueReminder_real h₁ ha now)) ?_
  rintro sent s' ⟨⟨hkept, hextended⟩, hreal⟩
  obtain ⟨vs, hrunning, hslots, hvs⟩ := hw.visits
  refine ⟨hw.kept.trans hkept, hextended.loopStatus.trans hw.status, hw.finished,
    vs ++ [⟨a, now, w₁.station, s', sent⟩], ?_, ?_, ?_⟩
  · simp [Watched.visit, hrunning]
  · simp [← hslots]
  · intro v hv
    rcases List.mem_append.mp hv with hv | hv
    · exact hvs v hv
    · rw [List.mem_singleton.mp hv]
      exact ⟨hreal, hw.status⟩

/-- The loop of `issueReminders` from a slot on the list, and where it goes on next time. -/
theorem wp_remindFrom (h : Lists w.station.locos xs ys) (hc : Consists w.station.locos xs none)
    {p : Option Addr} {rest : List Addr} (hp : Links w.station.locos.nextOf p rest)
    (hrest : rest <:+ xs) (now : UInt32) :
    wp (fun _ => True) (remindFrom p now) (fun r w' => ∃ left, Advanced rest left w w' ∧
      left <:+ xs ∧ Links w.station.locos.nextOf r left) w := by
  simp only [remindFrom, wp_bind, wp_get]
  have hlen : rest.length ≤ w.station.locos.fresh :=
    Nat.le_trans hrest.length_le h.length_inUse
  refine wp_loop (fun todo p b w₁ => ∃ left, Advanced rest left w w₁ ∧ left <:+ xs ∧
    ((todo = left ∧ b = none ∧ Links w.station.locos.nextOf p left) ∨
      (p = none ∧ Links w.station.locos.nextOf b left))) ?_ ?_ hlen
      ⟨rest, advanced_refl rest w, hrest, .inl ⟨rfl, rfl, hp⟩⟩
  · rintro todo a b w₁ ⟨left, hw₁, hsuffix, ⟨rfl, -, hlinks⟩ | ⟨hno, -⟩⟩
    · cases todo with
      | nil => cases hlinks
      | cons c left =>
        obtain ⟨hpc, hlinks⟩ := hlinks
        cases hpc
        have ha : a ∈ xs := hsuffix.subset List.mem_cons_self
        refine ⟨left, rfl, ?_⟩
        rw [wp_bind]
        refine wp_mono (wp_issueReminder h hc ha hw₁ now) ?_
        intro sent w₂ hw₂
        have hnext : (w₂.station.locos.mem a).next = w.station.locos.nextOf a :=
          hw₂.kept.locos.nextOf a
        have hsuffix' : left <:+ xs := (List.suffix_cons a left).trans hsuffix
        simp only [watch, wp_bind, wp_zoom]
        rw [wp_read ((hw₂.kept.locos.lists h).live_inUse ha), hnext]
        cases sent with
        | true => exact ⟨left, hw₂, hsuffix', .inr ⟨rfl, hlinks⟩⟩
        | false => exact ⟨left, hw₂, hsuffix', .inl ⟨rfl, rfl, hlinks⟩⟩
    · cases hno
  · rintro todo b w₁ ⟨left, hw₁, hsuffix, ⟨-, rfl, hlinks⟩ | ⟨-, hlinks⟩⟩
    · exact ⟨left, hw₁, hsuffix, hlinks⟩
    · exact ⟨left, hw₁, hsuffix, hlinks⟩

end Watch

/-- The links of the rest of a list start at its head. -/
theorem LocoTable.Lists.links_suffix {t : LocoTable} {left : List Addr} (h : Lists t xs ys)
    (hleft : left <:+ xs) : Links t.nextOf left.head? left := by
  obtain ⟨before, rfl⟩ := hleft
  cases left with
  | nil => rfl
  | cons b left => exact ⟨rfl, h.inUse.of_append.2⟩

theorem links_head? {t : LocoTable} {p : Option Addr} {left : List Addr}
    (h : Links t.nextOf p left) : p = left.head? := by
  cases left with
  | nil => exact h
  | cons b left => exact h.1

/-! ## What holds of the record -/

namespace Watched

/-- All passes, oldest first. -/
def passes (w : Watched) : List Pass := w.finished ++ [w.running]

/-- The loop state after `n`. -/
def succStatus (n : Nat) : Nat := if 9 < n + 1 then 0 else n + 1

/-- In every run of the station the record is about slots in use and reminders that were sent, and
the loop states of the passes follow one another. -/
structure Good (w : Watched) : Prop where
  sound : Sound w.station
  status : ∀ n ∈ w.passes.map Pass.loopStatus, n < 10
  running : w.running.loopStatus = w.station.loopStatus
  real : ∀ pass ∈ w.passes, ∀ v ∈ pass.visits,
    v.Real ∧ v.before.loopStatus = pass.loopStatus
  counted : (w.passes.map Pass.loopStatus).IsChain fun m n => n = succStatus m

/-- Since watching began the slots in use have been `xs`. A pass that was finished, other than the
one that was running then, has visited them all; the running one has some left. -/
structure Swept (xs : List Addr) (w : Watched) : Prop where
  slots : w.station.locos.slots = xs
  complete : ∀ pass ∈ w.finished.tail, pass.visits.map Visit.slot = xs
  inUse : w.finished ≠ [] → xs ≠ []
  current : w.finished ≠ [] → w.station.locos.chainModified = false ∧
    ∃ left, w.running.visits.map Visit.slot ++ left = xs ∧
      w.station.nextLocoReminder = left.head?

theorem succStatus_lt (n : Nat) : succStatus n < 10 := by
  unfold succStatus
  split <;> omega

theorem good_start (hs : Sound s) (hstatus : s.loopStatus < 10) : Good (start s) := by
  refine ⟨hs, ?_, rfl, ?_, List.IsChain.singleton _⟩
  · intro n hn
    rw [List.mem_singleton.mp hn]
    exact hstatus
  · intro pass hpass v hv
    rw [List.mem_singleton.mp hpass] at hv
    cases hv

theorem swept_start (s : Station) : Swept s.locos.slots (start s) :=
  ⟨rfl, (fun _ h => by cases h), (fun h => absurd rfl h), fun h => absurd rfl h⟩

/-- The station changes, the record does not. -/
theorem Good.of_station (hw : Good w) (hs : Sound s)
    (hstatus : s.loopStatus = w.station.loopStatus) : Good { w with station := s } :=
  ⟨hs, hw.status, hw.running.trans hstatus.symm, hw.real, hw.counted⟩

/-- A new pass begins. -/
theorem Good.nextPass (hw : Good w) (hs : Sound s)
    (hstatus : s.loopStatus = succStatus w.station.loopStatus) :
    Good (Watched.nextPass { w with station := s }) := by
  have hpasses : (Watched.nextPass { w with station := s }).passes =
      w.passes ++ [⟨s.loopStatus, []⟩] := rfl
  refine ⟨hs, ?_, rfl, ?_, ?_⟩
  · intro n hn
    rw [hpasses, List.map_append] at hn
    rcases List.mem_append.mp hn with hn | hn
    · exact hw.status n hn
    · rw [List.mem_singleton.mp hn, hstatus]
      exact succStatus_lt _
  · intro pass hpass v hv
    rw [hpasses] at hpass
    rcases List.mem_append.mp hpass with hpass | hpass
    · exact hw.real pass hpass v hv
    · rw [List.mem_singleton.mp hpass] at hv
      cases hv
  · rw [hpasses, List.map_append, List.isChain_append]
    refine ⟨hw.counted, List.IsChain.singleton _, ?_⟩
    intro m hm n hn
    simp only [passes, List.map_append, List.map_cons, List.map_nil, List.getLast?_append,
      List.getLast?_singleton, Option.some_or, Option.mem_def, Option.some.injEq] at hm
    simp only [List.map_cons, List.map_nil, List.head?_cons, Option.mem_def,
      Option.some.injEq] at hn
    rw [← hn, ← hm, hw.running, hstatus]

/-- The reminder loop has gone on, and knows where to go on next time. -/
theorem Good.advanced {rest left : List Addr} (hw : Good w) (h : Advanced rest left w w')
    {next : Option Addr} (hnext : Sound { w'.station with nextLocoReminder := next }) :
    Good { w' with station := { w'.station with nextLocoReminder := next } } := by
  obtain ⟨vs, hrunning, -, hvs⟩ := h.visits
  have hstates : (w'.finished ++ [w'.running]).map Pass.loopStatus =
      w.passes.map Pass.loopStatus := by
    simp [passes, h.finished, hrunning]
  refine ⟨hnext, ?_, ?_, ?_, ?_⟩
  · show ∀ n ∈ (w'.finished ++ [w'.running]).map Pass.loopStatus, _
    rw [hstates]
    exact hw.status
  · show w'.running.loopStatus = w'.station.loopStatus
    rw [hrunning, h.status, ← hw.running]
  · intro pass hpass v hv
    replace hpass : pass ∈ w'.finished ++ [w'.running] := hpass
    rw [h.finished, hrunning, List.mem_append, List.mem_singleton] at hpass
    rcases hpass with hpass | rfl
    · exact hw.real pass (List.mem_append_left _ hpass) v hv
    · rcases List.mem_append.mp hv with hv | hv
      · exact hw.real w.running (List.mem_append_right _ (List.mem_singleton_self _)) v hv
      · exact ⟨(hvs v hv).1, (hvs v hv).2.trans hw.running.symm⟩
  · show ((w'.finished ++ [w'.running]).map Pass.loopStatus).IsChain _
    rw [hstates]
    exact hw.counted

/-- A pass that was finished has swept all the slots, and the running one has some left. -/
theorem Swept.advanced {rest left : List Addr} (hw : Swept xs w) (h : Advanced rest left w w')
    (hslots : w'.station.locos.slots = xs)
    (hmark : w'.station.locos.chainModified = false)
    (hrest : w.finished ≠ [] → w.running.visits.map Visit.slot ++ rest = xs) :
    Swept xs { w' with station := { w'.station with nextLocoReminder := left.head? } } := by
  obtain ⟨vs, hrunning, hvisited, -⟩ := h.visits
  refine ⟨hslots, ?_, ?_, fun hfinished => ⟨hmark, left, ?_, rfl⟩⟩
  · show ∀ pass ∈ w'.finished.tail, _
    rw [h.finished]
    exact hw.complete
  · show w'.finished ≠ [] → _
    rw [h.finished]
    exact hw.inUse
  · show w'.running.visits.map Visit.slot ++ left = xs
    rw [hrunning, List.map_append, List.append_assoc, hvisited]
    exact hrest (h.finished ▸ hfinished)

/-- All slots have been visited when `issueReminders` starts again. -/
theorem Swept.nextPass (hw : Swept xs w) (hxs : xs ≠ []) (hslots : s.locos.slots = xs)
    (hmark : s.locos.chainModified = false) (hfirst : s.nextLocoReminder = xs.head?)
    (hagain : w.station.locos.chainModified = true ∨ w.station.nextLocoReminder = none) :
    Swept xs (Watched.nextPass { w with station := s }) := by
  refine ⟨hslots, ?_, fun _ => hxs, fun _ => ⟨hmark, xs, rfl, hfirst⟩⟩
  show ∀ pass ∈ (w.finished ++ [w.running]).tail, _
  by_cases hfinished : w.finished = []
  · rw [hfinished]
    intro pass hpass
    cases hpass
  · obtain ⟨hmark', left, hleft, hnext⟩ := hw.current hfinished
    rw [hmark'] at hagain
    have hnone : left.head? = none := by
      rcases hagain with hno | hnone
      · cases hno
      · rw [← hnext, hnone]
    rw [List.head?_eq_none_iff.mp hnone, List.append_nil] at hleft
    rw [List.tail_append_of_ne_nil hfinished]
    intro pass hpass
    rcases List.mem_append.mp hpass with hpass | hpass
    · exact hw.complete pass hpass
    · rw [List.mem_singleton.mp hpass, hleft]

end Watched

namespace Watch

open Watched

/-- The reminder loop goes on from a slot on the list. -/
theorem wp_goOn (hw : Good w) (h : Lists w.station.locos xs ys)
    (hc : Consists w.station.locos xs none) {p : Option Addr} {rest : List Addr}
    (hp : Links w.station.locos.nextOf p rest) (hrest : rest <:+ xs)
    (hmark : w.station.locos.chainModified = false) (now : UInt32) :
    wp (fun _ => True) (remindFrom p now) (fun next w' =>
      Good { w' with station := { w'.station with nextLocoReminder := next } } ∧
      (Swept xs w → (w.finished ≠ [] → w.running.visits.map Visit.slot ++ rest = xs) →
        Swept xs { w' with station := { w'.station with nextLocoReminder := next } })) w := by
  refine wp_mono (wp_remindFrom h hc hp hrest now) ?_
  rintro next w' ⟨left, hadvanced, hleft, hlinks⟩
  have hlists := hadvanced.kept.locos.lists h
  have hnext := links_head? hlinks
  rw [hnext]
  constructor
  · apply hw.advanced hadvanced
    apply DCC.sound_reminder (hadvanced.kept.sound hw.sound) hlists
    intro b hb
    exact hleft.subset (List.mem_of_head? hb)
  · intro hswept hvisited
    apply hswept.advanced hadvanced hlists.slots_eq _ hvisited
    rw [hadvanced.kept.locos.statics]
    exact hmark

/-- A call of `issueReminders` keeps the record of the passes, and what they have swept. -/
theorem wp_issueReminders (hw : Good w) (now : UInt32) :
    wp (fun _ => True) (issueReminders now) (fun _ w' => Good w' ∧
      ∀ xs, Swept xs w → Swept xs w') w := by
  obtain ⟨xs, ys, h, hc⟩ := hw.sound.table
  have hxs : ∀ {xs'}, Swept xs' w → xs' = xs := fun hswept => hswept.slots.symm.trans h.slots_eq
  simp only [issueReminders, wp_bind, wp_get]
  split
  · next hagain =>
    have h₁ : Lists { w.station.locos with chainModified := false } xs ys :=
      ⟨h.inUse, h.recycled, h.nodup, h.live, h.fresh, h.count, h.bound, h.ids, h.nonzero⟩
    have hc₁ : Consists { w.station.locos with chainModified := false } xs none :=
      ⟨hc.forest, hc.reverse, hc.ids⟩
    have hfirst : w.station.locos.firstSlot = xs.head? := links_head? h.inUse
    have hsound : ∀ n, Sound { w.station with
        locos := { w.station.locos with chainModified := false }
        nextLocoReminder := w.station.locos.firstSlot, loopStatus := n } := by
      intro n
      refine ⟨⟨xs, ys, h₁, hc₁⟩, hw.sound.tracks, fun _ b hb => ?_⟩
      show b ∈ { w.station.locos with chainModified := false }.slots
      rw [h₁.slots_eq]
      exact List.mem_of_head? (hfirst ▸ hb)
    simp only [watch, wp_bind, wp_zoom, wp_modify]
    split
    · next hnone =>
      refine ⟨hw.of_station (hsound _) rfl, fun xs' hswept => ?_⟩
      obtain rfl := hxs hswept
      have hnil : xs' = [] := List.head?_eq_none_iff.mp (hfirst.symm.trans hnone)
      exact ⟨h₁.slots_eq, hswept.complete, hswept.inUse, fun hfinished =>
        absurd hnil (hswept.inUse hfinished)⟩
    · next hsome =>
      simp only [wp_bind, wp_zoom, wp_modify]
      have hstatus : (if 9 < w.station.loopStatus + 1 then 0 else w.station.loopStatus + 1) =
          succStatus w.station.loopStatus := rfl
      refine wp_mono (wp_goOn (hw.nextPass (hsound _) hstatus) h₁ hc₁ h.inUse
        (List.suffix_refl xs) rfl now) ?_
      rintro next w' ⟨hgood, hgo⟩
      refine ⟨hgood, fun xs' hswept => ?_⟩
      obtain rfl := hxs hswept
      have hne : xs' ≠ [] := fun hnil => hsome (by rw [hfirst, hnil]; rfl)
      exact hgo (hswept.nextPass hne h₁.slots_eq rfl hfirst hagain) fun _ => rfl
  · next hgoOn =>
    rw [not_or] at hgoOn
    have hmark : w.station.locos.chainModified = false := Bool.not_eq_true _ ▸ hgoOn.1
    obtain ⟨b, hb⟩ := Option.ne_none_iff_exists'.mp hgoOn.2
    have hbx : b ∈ xs := h.slots_eq ▸ hw.sound.reminder hmark b hb
    obtain ⟨before, after, rfl⟩ := List.append_of_mem hbx
    have hrest : b :: after <:+ before ++ b :: after := List.suffix_append before (b :: after)
    have hlinks := h.links_suffix hrest
    simp only [hb, wp_bind, watch, wp_zoom, wp_modify]
    refine wp_mono (wp_goOn hw h hc hlinks hrest hmark now) ?_
    rintro next w' ⟨hgood, hgo⟩
    refine ⟨hgood, fun xs' hswept => ?_⟩
    obtain rfl := hxs hswept
    refine hgo hswept fun hfinished => ?_
    -- what is left of the pass starts at the slot where the loop goes on
    obtain ⟨-, left, hleft, hnext⟩ := hswept.current hfinished
    have hleft' : left <:+ before ++ b :: after := ⟨_, hleft⟩
    have hhead : left.head? = (b :: after).head? := hnext.symm.trans hb
    have hunique := (h.links_suffix hleft').unique (by rw [hhead]; exact hlinks)
    rw [hunique] at hleft
    exact hleft

end Watch

/-! ## Forgetting -/

namespace DCC

/-- The loop state is not touched. -/
def SameStatus (s s' : Station) : Prop := s'.loopStatus = s.loopStatus

instance : Std.Refl SameStatus := ⟨fun _ => rfl⟩

instance : IsTrans Station SameStatus := ⟨fun _ _ _ h h' => Eq.trans h' h⟩

theorem sameStatus_onSlots {α : Type} (m : Slots α) : Preserves SameStatus (onSlots m) :=
  preserves_zoom fun _ _ => rfl

theorem sameStatus_setThrottleDCC (slot : Option Addr) (speedCode : UInt8) :
    Preserves SameStatus (setThrottleDCC slot speedCode) :=
  (extended_setThrottleDCC slot speedCode).mono fun _ _ h => h.loopStatus

theorem sameStatus_forgetLoco (cab : Int) : Preserves SameStatus (forgetLoco cab) := by
  apply preserves_bind (sameStatus_onSlots _)
  intro slot
  cases slot with
  | none => exact preserves_pure ()
  | some a =>
    refine preserves_bind (sameStatus_setThrottleDCC (some a) 1) fun _ =>
      preserves_bind (sameStatus_onSlots _) fun slot => preserves_bind ?_ fun _ =>
        preserves_bind (preserves_when fun _ => sameStatus_onSlots _) fun _ =>
          sameStatus_onSlots _
    apply preserves_modify
    intro s
    split <;> rfl

theorem sameStatus_forgetAllLocos : Preserves SameStatus forgetAllLocos :=
  preserves_bind (sameStatus_setThrottleDCC none 1) fun _ =>
    preserves_bind (sameStatus_onSlots _) fun _ => preserves_modify fun _ => rfl

/-- `forgetLoco` does nothing, or it takes a slot off the list. -/
theorem forgetLoco_slots (h : Lists s.locos xs ys) (hc : Consists s.locos xs none) (cab : Int) :
    wp (fun _ => True) (forgetLoco cab)
      (fun _ s' => s' = s ∨ s'.locos.slots.length < xs.length) s := by
  refine wp_forgetLoco h (.inl rfl) fun a ha _ s₁ hlocos _ => ?_
  have hforget : ∀ s₂ : Station, Lists s₂.locos xs ys →
      wp (fun _ => True) (onSlots (LocoSlot.forget a))
        (fun _ s' => s' = s ∨ s'.locos.slots.length < xs.length) s₂ := by
    intro s₂ h₂
    rw [wp_onSlots]
    refine wp_mono (forget_spec h₂ ha) ?_
    intro _ t' ht'
    refine .inr ?_
    show t'.slots.length < xs.length
    rw [ht'.lists.slots_eq, List.length_erase_of_mem ha]
    have := List.length_pos_of_mem ha
    omega
  rw [← hlocos] at h hc
  refine wp_when (fun _ => ?_) fun _ => hforget s₁ h
  rw [wp_onSlots]
  exact wp_mono (deleteAnyConsist_spec h hc _) fun _ t' ht' => hforget _ ht'.lists

end DCC

/-! ## Runs -/

namespace Watched

/-- The operation neither creates nor removes a slot. -/
def Unchanged (s : Station) (op : Op) : Prop :=
  wp (fun _ => True) op.exec (fun _ s' => s'.locos.slots = s.locos.slots) s

/-- The station changes and the list of slots does not. -/
theorem Swept.of_station (hw : Swept xs w) (hslots : s.locos.slots = w.station.locos.slots)
    (hcurrent : w.finished ≠ [] →
      s.locos.chainModified = w.station.locos.chainModified ∧
        s.nextLocoReminder = w.station.nextLocoReminder) :
    Swept xs { w with station := s } := by
  refine ⟨hslots.trans hw.slots, hw.complete, hw.inUse, fun hfinished => ?_⟩
  obtain ⟨hmark, hnext⟩ := hcurrent hfinished
  have hold := hw.current hfinished
  rw [← hmark, ← hnext] at hold
  exact hold

/-- Operations that leave the reminder loop alone. -/
theorem wp_extended (hw : Good w) (op : Op) (hop : op.reminds = false) :
    wp (fun _ => True) op.exec (fun _ s' => Good { w with station := s' } ∧
      ∀ xs, Swept xs w → s'.locos.slots = w.station.locos.slots →
        Swept xs { w with station := s' }) w.station := by
  obtain ⟨xs, ys, h, -⟩ := hw.sound.table
  refine wp_mono (wp_and (op_sound hw.sound op fun _ _ => trivial)
    (op_extended op hop w.station)) ?_
  rintro _ s' ⟨hsound, hextended⟩
  refine ⟨hw.of_station hsound hextended.loopStatus, fun xs' hswept hslots => ?_⟩
  obtain ⟨new, ys', h', hmark⟩ := hextended.locos xs ys h
  have hnil : new = [] := by
    rw [h'.slots_eq, h.slots_eq] at hslots
    exact List.append_left_eq_self.mp hslots
  exact hswept.of_station hslots fun _ => ⟨hmark hnil, hextended.reminder⟩

theorem wp_forgetLoco (hw : Good w) (cab : Int) :
    wp (fun _ => True) (DCC.forgetLoco cab) (fun _ s' => Good { w with station := s' } ∧
      ∀ xs, Swept xs w → s'.locos.slots = w.station.locos.slots →
        Swept xs { w with station := s' }) w.station := by
  obtain ⟨xs, ys, h, hc⟩ := hw.sound.table
  refine wp_mono (wp_and (wp_and (DCC.forgetLoco_sound hw.sound cab)
    (DCC.sameStatus_forgetLoco cab w.station)) (DCC.forgetLoco_slots h hc cab)) ?_
  rintro _ s' ⟨⟨hsound, hstatus⟩, hslots'⟩
  refine ⟨hw.of_station hsound hstatus, fun xs' hswept hslots => ?_⟩
  rcases hslots' with rfl | hless
  · exact hswept
  · rw [hslots, h.slots_eq] at hless
    exact absurd hless (Nat.lt_irrefl _)

theorem wp_forgetAllLocos (hw : Good w) :
    wp (fun _ => True) DCC.forgetAllLocos (fun _ s' => Good { w with station := s' } ∧
      ∀ xs, Swept xs w → s'.locos.slots = w.station.locos.slots →
        Swept xs { w with station := s' }) w.station := by
  obtain ⟨xs, ys, h, -⟩ := hw.sound.table
  have hempty : wp (fun _ => True) DCC.forgetAllLocos (fun _ s' => s'.locos.slots = []) w.station := by
    simp only [DCC.forgetAllLocos, wp_bind]
    rw [DCC.wp_setThrottleDCC_none]
    simp only [wp_onSlots, wp_modify]
    exact wp_mono (forgetAll_spec h) fun _ t' ht' => ht'.1.slots_eq
  refine wp_mono (wp_and (wp_and (DCC.forgetAllLocos_sound hw.sound)
    (DCC.sameStatus_forgetAllLocos w.station)) hempty) ?_
  rintro _ s' ⟨⟨hsound, hstatus⟩, hnil⟩
  refine ⟨hw.of_station hsound hstatus, fun xs' hswept hslots => ?_⟩
  apply hswept.of_station hslots
  intro hfinished
  exact absurd (hswept.slots.symm.trans (hslots.symm.trans hnil)) (hswept.inUse hfinished)

/-- **One operation**: the record stays good, and if the slots stay as they are the passes go on. -/
theorem wp_op (hw : Good w) (op : Op) :
    wp (fun _ => True) op.watched (fun _ w' => Good w' ∧
      ∀ xs, Swept xs w → Unchanged w.station op → Swept xs w') w := by
  -- operations without visits
  have hwatch : wp (fun _ => True) op.exec (fun _ s' => Good { w with station := s' } ∧
        ∀ xs, Swept xs w → s'.locos.slots = w.station.locos.slots →
          Swept xs { w with station := s' }) w.station →
      wp (fun _ => True) (watch op.exec) (fun _ w' => Good w' ∧
        ∀ xs, Swept xs w → Unchanged w.station op → Swept xs w') w := by
    intro hop
    simp only [watch, wp_zoom]
    rw [wp_iff_forall] at hop ⊢
    intro r s' hrun
    obtain ⟨hgood, hswept⟩ := hop r s' hrun
    exact ⟨hgood, fun xs hw hsame => hswept xs hw (wp_iff_forall.mp hsame r s' hrun)⟩
  have hdone : ∀ {m : Dcc Unit} {Q : Station → Prop}, wp (fun _ => True) m (fun _ => Q) w.station →
      wp (fun _ => True) (do m; pure true) (fun _ => Q) w.station := fun hm => by rwa [wp_bind]
  cases op with
  | loop windowOpen pendingAt remindAt forcedAt =>
    have hqueue : ∀ {w : Watched} {queue : DCCQueue.State}, Good w →
        Good { w with station := { w.station with queue := queue } } := fun hw =>
      hw.of_station ⟨hw.sound.table, hw.sound.tracks, hw.sound.reminder⟩ rfl
    have hqueue' : ∀ {xs : List Addr} {w : Watched} {queue : DCCQueue.State}, Swept xs w →
        Swept xs { w with station := { w.station with queue := queue } } := fun hw =>
      hw.of_station rfl fun _ => ⟨rfl, rfl⟩
    simp only [Op.watched, Watch.dccLoop, wp_bind]
    refine wp_when (fun _ => ?_) fun _ => ⟨hw, fun _ hswept _ => hswept⟩
    simp only [watch, wp_bind, wp_zoom, scheduleNext, wp_get, wp_schedule, wp_pure]
    refine wp_when (fun _ => ?_) fun _ => ⟨hqueue hw, fun _ hswept _ => hqueue' hswept⟩
    simp only [wp_bind]
    refine wp_mono (Watch.wp_issueReminders (hqueue hw) remindAt) ?_
    rintro _ w' ⟨hgood, hswept⟩
    exact ⟨hqueue hgood, fun xs hw _ => hqueue' (hswept xs (hqueue' hw))⟩
  | forgetLoco cab => exact hwatch (hdone (wp_forgetLoco hw cab))
  | forgetAllLocos => exact hwatch (hdone (wp_forgetAllLocos hw))
  | _ => exact hwatch (wp_extended hw _ rfl)

/-- The record of a run. -/
theorem wp_run (hw : Good w) (ops : List Op) :
    wp (fun _ => True) (runProg Op.watched ops) (fun _ w' => Good w' ∧ ∀ xs, Swept xs w →
      AlongProg Op.exec Unchanged ops w.station → Swept xs w') w := by
  induction ops generalizing w with
  | nil => exact ⟨hw, fun _ hswept _ => hswept⟩
  | cons op ops ih =>
    rw [runProg, wp_bind, wp_iff_forall]
    intro r w₁ hrun₁
    obtain ⟨hgood₁, hswept₁⟩ := wp_iff_forall.mp (wp_op hw op) r w₁ hrun₁
    refine wp_mono (ih hgood₁) ?_
    rintro _ w' ⟨hgood, hswept⟩
    refine ⟨hgood, fun xs hw hunchanged => ?_⟩
    have hrest : AlongProg Op.exec Unchanged ops w₁.station :=
      wp_iff_forall.mp ((Watch.shadows_op op).wp_iff.mpr hunchanged.2) r w₁ hrun₁
    exact hswept xs (hswept₁ xs hw hunchanged.1) hrest

/-! ## Counting reminders -/

/-- How many of the visits to slot `a` are of the kind `q`. -/
def reminders (a : Addr) (q : Visit → Bool) (passes : List Pass) : Nat :=
  (passes.flatMap Pass.visits).countP fun v => v.slot == a && q v

/-- A complete pass visits the slot once. -/
theorem countP_pass {visits : List Visit} (hvisits : visits.map Visit.slot = xs) (hnodup : xs.Nodup)
    (ha : a ∈ xs) {q : Visit → Bool} {c : Bool}
    (hq : ∀ v ∈ visits, v.slot = a → q v = c) :
    visits.countP (fun v => v.slot == a && q v) = if c then 1 else 0 := by
  have hsame : visits.countP (fun v => v.slot == a && q v) =
      visits.countP fun v => v.slot == a && c := by
    apply List.countP_congr
    intro v hv
    by_cases hslot : v.slot = a
    · simp [hslot, hq v hv hslot]
    · simp [hslot]
  rw [hsame]
  cases c with
  | false => simp
  | true =>
    have hone : visits.countP (fun v => v.slot == a) = (visits.map Visit.slot).count a := by
      rw [List.count, List.countP_map]
      rfl
    simp only [Bool.and_true]
    rw [hone, hvisits, List.count_eq_one_of_mem hnodup ha]
    rfl

/-- The passes whose loop state sends what is counted. -/
theorem reminders_eq {passes : List Pass} (hnodup : xs.Nodup) (ha : a ∈ xs) {q : Visit → Bool}
    {c : Nat → Bool} (hcomplete : ∀ pass ∈ passes, pass.visits.map Visit.slot = xs)
    (hq : ∀ pass ∈ passes, ∀ v ∈ pass.visits, v.slot = a → q v = c pass.loopStatus) :
    reminders a q passes = (passes.map Pass.loopStatus).countP c := by
  induction passes with
  | nil => rfl
  | cons pass passes ih =>
    have hpass := countP_pass (hcomplete pass List.mem_cons_self) hnodup ha
      (hq pass List.mem_cons_self)
    have hrest := ih (fun p hp => hcomplete p (List.mem_cons_of_mem pass hp))
      fun p hp => hq p (List.mem_cons_of_mem pass hp)
    rw [reminders] at hrest ⊢
    rw [List.flatMap_cons, List.countP_append, hpass, hrest, List.map_cons, List.countP_cons,
      Nat.add_comm]

/-- Loop states that follow one another are determined by the first. -/
theorem chain_eq_iterate {m : Nat} {ns : List Nat} (h : (m :: ns).IsChain fun m n => n = succStatus m) :
    m :: ns = (List.range (ns.length + 1)).map fun i => succStatus^[i] m := by
  induction ns generalizing m with
  | nil => rfl
  | cons n ns ih =>
    obtain ⟨hn, hns⟩ := List.isChain_cons_cons.mp h
    rw [List.length_cons, List.range_succ_eq_map (n := ns.length + 1), List.map_cons,
      List.map_map, ih hns, hn]
    rfl

/-- Ten successive loop states: five of them remind speeds, and each group has one. -/
theorem ten_states {ns : List Nat} (hchain : ns.IsChain fun m n => n = succStatus m)
    (hlt : ∀ n ∈ ns, n < 10) (hlength : ns.length = 10) :
    ns.countP DCC.speedStatus = 5 ∧ ∀ group, 1 ≤ group → group ≤ 5 →
      ns.countP (fun n => DCC.groupOfLoopStatus n == some group) = 1 := by
  cases ns with
  | nil => cases hlength
  | cons m ns =>
    have hm : m < 10 := hlt m List.mem_cons_self
    rw [chain_eq_iterate hchain, show ns.length + 1 = 10 from hlength]
    have hall : ∀ m < 10, ((List.range 10).map fun i => succStatus^[i] m).countP
        DCC.speedStatus = 5 ∧ ∀ group < 6, 1 ≤ group →
          ((List.range 10).map fun i => succStatus^[i] m).countP
            (fun n => DCC.groupOfLoopStatus n == some group) = 1 := by decide
    refine ⟨(hall m hm).1, fun group hlow hhigh => (hall m hm).2 group (by omega) hlow⟩

/-- What ten complete passes send to the loco of a slot. -/
theorem ten_passes {passes : List Pass} (hnodup : xs.Nodup) (ha : a ∈ xs)
    (hcomplete : ∀ pass ∈ passes, pass.visits.map Visit.slot = xs)
    (hreal : ∀ pass ∈ passes, ∀ v ∈ pass.visits, v.Real ∧ v.before.loopStatus = pass.loopStatus)
    (hchain : (passes.map Pass.loopStatus).IsChain fun m n => n = succStatus m)
    (hlt : ∀ n ∈ passes.map Pass.loopStatus, n < 10) (hlength : passes.length = 10) :
    ((∀ pass ∈ passes, DCC.speedStatus pass.loopStatus = true → ∀ v ∈ pass.visits, v.slot = a →
        v.target.isConsistFollower = false) → reminders a Visit.remindsSpeed passes = 5) ∧
    ∀ group, 1 ≤ group → group ≤ 5 →
      (∀ pass ∈ passes, DCC.groupOfLoopStatus pass.loopStatus = some group →
        ∀ v ∈ pass.visits, v.slot = a → v.target.groupFlags &&& DCC.groupFlag group ≠ 0) →
      reminders a (fun v => v.remindsGroup group) passes = 1 := by
  -- of ten loop states in a row five remind speeds, and one each group of functions
  obtain ⟨hspeeds, hgroups⟩ := ten_states hchain hlt (by rwa [List.length_map])
  constructor
  · intro hroot
    rw [← hspeeds]
    apply reminders_eq hnodup ha hcomplete
    intro pass hpass v hv hslot
    obtain ⟨hv', hstatus⟩ := hreal pass hpass v hv
    rw [Visit.remindsSpeed, hstatus]
    cases hspeed : DCC.speedStatus pass.loopStatus with
    | false => rw [Bool.and_false]
    | true =>
      have hwanted : v.Wanted := by
        rw [Visit.Wanted, hstatus, if_pos hspeed]
        exact hroot pass hpass hspeed v hv hslot
      rw [hv'.sends.mpr hwanted, Bool.and_true]
  · intro group hlow hhigh htouched
    rw [← hgroups group hlow hhigh]
    apply reminders_eq hnodup ha hcomplete
    intro pass hpass v hv hslot
    obtain ⟨hv', hstatus⟩ := hreal pass hpass v hv
    rw [Visit.remindsGroup, hstatus]
    by_cases hgroup : DCC.groupOfLoopStatus pass.loopStatus = some group
    · have hwanted : v.Wanted := by
        have hspeed : DCC.speedStatus pass.loopStatus ≠ true := by
          intro hspeed
          rw [DCC.groupOfLoopStatus_of_speedStatus hspeed] at hgroup
          cases hgroup
        rw [Visit.Wanted, hstatus, if_neg hspeed]
        exact ⟨group, hgroup, htouched pass hpass hgroup v hv hslot⟩
      rw [hv'.sends.mpr hwanted, Bool.true_and]
    · simp [hgroup]

end Watched

open Watched in
theorem Reachable.loopStatus_lt (h : Reachable s) : s.loopStatus < 10 := by
  obtain ⟨platform, maxLocos, brakePins, ops, hrun⟩ := h
  have hgood : Good (start (Station.init platform maxLocos brakePins)) :=
    good_start (sound_init platform maxLocos brakePins) (show 0 < 10 by decide)
  obtain ⟨w, hw, rfl⟩ := (Shadows.runProg Watch.shadows_op ops).exists_run
    (t := start (Station.init platform maxLocos brakePins)) hrun
  have hgood' := (wp_iff_forall.mp (wp_run hgood ops) () w hw).1
  rw [← hgood'.running]
  exact hgood'.status _ (by simp [passes])

open Watched in
/-- **Every loco is reminded.** In every state the reminder pointer is null, on the list or masked by
`chainModified`, and every call of `issueReminder` is for a slot in use. In a stretch of the run that
neither creates nor removes slots, each pass between two changes of `loopStatus` calls
`issueReminder` for every slot once and in order, and ten successive passes send a loco five speed
reminders if it follows no other, and one reminder of each function group that was touched. -/
theorem reminders_go_round (hs : Reachable s) (ops : List Op)
    (hrun : runProg Op.exec ops s = .ok ((), s')) :
    (s.locos.chainModified = false → ∀ a, s.nextLocoReminder = some a → a ∈ s.locos.slots) ∧
    ∃ w, runProg Op.watched ops (start s) = .ok ((), w) ∧ w.station = s' ∧
      (∀ pass ∈ w.passes, ∀ v ∈ pass.visits, v.Real ∧ v.before.loopStatus = pass.loopStatus) ∧
      ((w.passes.map Pass.loopStatus).IsChain fun m n => n = succStatus m) ∧
      (AlongProg Op.exec Unchanged ops s →
        (∀ pass ∈ w.finished.tail, pass.visits.map Visit.slot = s.locos.slots) ∧
        ∀ ten, ten <:+: w.finished.tail → ten.length = 10 → ∀ a ∈ s.locos.slots,
          ((∀ pass ∈ ten, DCC.speedStatus pass.loopStatus = true → ∀ v ∈ pass.visits,
              v.slot = a → v.target.isConsistFollower = false) →
            reminders a Visit.remindsSpeed ten = 5) ∧
          ∀ group, 1 ≤ group → group ≤ 5 →
            (∀ pass ∈ ten, DCC.groupOfLoopStatus pass.loopStatus = some group →
              ∀ v ∈ pass.visits, v.slot = a →
                v.target.groupFlags &&& DCC.groupFlag group ≠ 0) →
            reminders a (fun v => v.remindsGroup group) ten = 1) := by
  have hgood := good_start hs.sound hs.loopStatus_lt
  obtain ⟨w, hw, hstation⟩ := (Shadows.runProg Watch.shadows_op ops).exists_run (t := start s) hrun
  obtain ⟨hgood', hswept⟩ := wp_iff_forall.mp (wp_run hgood ops) () w hw
  refine ⟨hs.sound.reminder, w, hw, hstation, hgood'.real, hgood'.counted, fun hunchanged => ?_⟩
  have hcomplete := (hswept s.locos.slots (swept_start s) hunchanged).complete
  refine ⟨hcomplete, fun ten hten hlength a ha => ?_⟩
  obtain ⟨xs, ys, h, -⟩ := hs.sound.table
  have hnodup : s.locos.slots.Nodup := by
    rw [h.slots_eq]
    exact h.nodup_inUse
  have hpasses : ten <:+: w.passes :=
    hten.trans ((List.tail_suffix _).isInfix.trans (List.prefix_append _ _).isInfix)
  apply ten_passes hnodup ha
  · exact fun pass hpass => hcomplete pass (hten.subset hpass)
  · exact fun pass hpass => hgood'.real pass (hpasses.subset hpass)
  · exact hgood'.counted.infix (hpasses.map Pass.loopStatus)
  · exact fun n hn => hgood'.status n ((hpasses.map Pass.loopStatus).subset hn)
  · exact hlength

/-- Two locos, of which the second has its light on: in five turns of the loop the pass for the first
function group and a pass for the speeds are complete. -/
theorem reminders_go_round_two :
    ∃ s s' w, runProg Op.exec [.setThrottle 3 20 true 0, .setFn 5 0 true, .loop true 0 0 0]
        (Station.init .avr 2 []) = .ok ((), s) ∧
      runProg Op.exec (List.replicate 5 (.loop true 0 0 0)) s = .ok ((), s') ∧
      runProg Op.watched (List.replicate 5 (.loop true 0 0 0)) (Watched.start s) = .ok ((), w) ∧
      w.station = s' ∧ w.finished.tail ≠ [] ∧
      ∀ pass ∈ w.finished.tail, pass.visits.map Visit.slot = [1, 0] := by
  obtain ⟨_, s, hs, hslots, hrun, hpasses, hunchanged⟩ : ∃ u s,
      runProg Op.exec [.setThrottle 3 20 true 0, .setFn 5 0 true, .loop true 0 0 0]
        (Station.init .avr 2 []) = .ok (u, s) ∧ s.locos.slots = [1, 0] ∧
      wp (fun _ => False) (runProg Op.exec (List.replicate 5 (.loop true 0 0 0)))
        (fun _ _ => True) s ∧
      wp (fun _ => True) (runProg Op.watched (List.replicate 5 (.loop true 0 0 0)))
        (fun _ w => w.finished.tail.length = 2) (Watched.start s) ∧
      AlongProg Op.exec (fun s op => wp (fun _ => True) op.exec
        (fun _ s' => s'.locos.slots = s.locos.slots) s)
        (List.replicate 5 (.loop true 0 0 0)) s := by
    rw [← wp_iff_exists]
    decide +kernel
  rw [wp_iff_exists] at hrun
  rw [wp_iff_forall] at hpasses
  obtain ⟨_, s', hs', -⟩ := hrun
  obtain ⟨-, w, hw, hstation, -, -, hstretch⟩ :=
    reminders_go_round ⟨.avr, 2, [], _, hs⟩ (List.replicate 5 (.loop true 0 0 0)) hs'
  have hlength := hpasses () w hw
  refine ⟨s, s', w, hs, hs', hw, hstation, ?_, ?_⟩
  · intro hnil
    rw [hnil] at hlength
    cases hlength
  · rw [← hslots]
    exact (hstretch hunchanged).1

end CommandStation
