import CommandStation.I2CManager.Basic
import CommandStation.Lib.Links
import CommandStation.Lib.Run

/-!
# The queue holds the pending requests

The blocks that are linked from `queueHead` are exactly those whose status is pending. The queue is
changed at its ends only: a call adds a block behind the tail, an interrupt or a time-out removes
the head. So the requests leave in the order in which they were queued, each of them once.
-/

namespace CommandStation.I2C

open CommandStation.Lib

namespace I2CManager

variable {s : I2CManager} {l : List Nat} {p : Nat} {now : UInt32} {status : Status} {op : Op}

/-- The link of a request block. -/
def next (s : I2CManager) (p : Nat) : Option Nat := (s.mem p).nextRequest

/-- The requests `l` are queued. -/
structure Queue (s : I2CManager) (l : List Nat) : Prop where
  links : Links s.next s.queueHead l
  nodup : l.Nodup
  tail : s.queueTail = l.getLast?
  pending : ∀ p, (s.mem p).status = .pending ↔ p ∈ l
  completionStatus : s.completionStatus ≠ .pending
  overallStatus : s.overallStatus ≠ .pending

/-- A request is being carried out, and it is the first one. When nothing is, no request waits. -/
structure Serves (s : I2CManager) (l : List Nat) : Prop where
  current : s.currentRequest = none ∨ s.currentRequest = l.head?
  active : s.state = .active → s.currentRequest = l.head? ∧ l ≠ []
  free : s.state = .free → l = []

/-- What holds between two calls. -/
structure Steady (s : I2CManager) (l : List Nat) : Prop where
  queue : s.Queue l
  serves : s.Serves l

theorem Queue.head (h : s.Queue l) : s.queueHead = l.head? := by
  cases l with
  | nil => exact h.links
  | cons p l => exact h.links.1

/-! ## Starting a transaction -/

/-- A change of the registers leaves the queue alone. -/
theorem Queue.congr {s' : I2CManager} (h : s.Queue l) (hmem : s'.mem = s.mem)
    (hhead : s'.queueHead = s.queueHead) (htail : s'.queueTail = s.queueTail)
    (hcompletion : s'.completionStatus ≠ .pending) (hoverall : s'.overallStatus ≠ .pending) :
    s'.Queue l := by
  refine ⟨?_, h.nodup, htail.trans h.tail, ?_, hcompletion, hoverall⟩
  · rw [hhead]
    exact h.links.congr fun p _ => by rw [next, next, hmem]
  · rw [hmem]
    exact h.pending

theorem startNext_eq : s.startNext now = s.startTransaction now := by
  unfold startNext startTransaction
  grind

theorem startTransaction_of_ne (h : s.state ≠ .free) : s.startTransaction now = s := by
  unfold startTransaction
  grind

/-- If the manager is free, the first request is started. -/
theorem Queue.start (h : s.Queue l) (hfree : s.state = .free)
    (hcurrent : s.currentRequest = none ∨ s.currentRequest = l.head?) :
    (s.startTransaction now).Steady l := by
  cases l with
  | nil =>
    have hsame : s.startTransaction now = s := by
      unfold startTransaction
      simp [h.head, hfree]
    rw [hsame]
    exact ⟨h, hcurrent, fun hactive => absurd (hfree.symm.trans hactive) nofun, fun _ => rfl⟩
  | cons p l =>
    have hhead : s.queueHead = some p := h.head
    unfold startTransaction
    simp only [hhead, hfree]
    split
    · exact ⟨h.congr rfl hhead.symm rfl nofun h.overallStatus, .inr rfl, fun _ => ⟨rfl, nofun⟩, nofun⟩
    · exact ⟨h.congr rfl hhead.symm rfl nofun h.overallStatus, .inr rfl, fun _ => ⟨rfl, nofun⟩, nofun⟩

/-! ## The ends of the queue -/

/-- The head is removed. -/
theorem Queue.dequeue (h : s.Queue (p :: l)) (hstatus : status ≠ .pending) :
    (s.dequeue p status).Queue l := by
  have hnotin : p ∉ l := (List.nodup_cons.mp h.nodup).1
  have hnext : ∀ q, (s.dequeue p status).next q = s.next q := by
    intro q
    by_cases hq : q = p
    · subst hq
      simp [next, I2CManager.dequeue, write]
    · simp [next, I2CManager.dequeue, write, hq]
  refine ⟨?_, (List.nodup_cons.mp h.nodup).2, ?_, ?_, h.completionStatus, h.overallStatus⟩
  · exact h.links.2.congr fun q _ => hnext q
  · have hlinks : Links s.next (s.mem p).nextRequest l := h.links.2
    show (if (s.mem p).nextRequest.isNone then none else s.queueTail) = l.getLast?
    cases l with
    | nil => rw [show (s.mem p).nextRequest = none from hlinks]; rfl
    | cons q l =>
      rw [show (s.mem p).nextRequest = some q from hlinks.1, h.tail]
      rfl
  · intro q
    by_cases hq : q = p
    · subst hq
      simp [I2CManager.dequeue, write, hstatus, hnotin]
    · have := h.pending q
      simpa [I2CManager.dequeue, write, hq] using this

/-- A block that is not pending is queued behind the last one. -/
theorem Queue.enqueue (h : s.Queue l) (hnot : (s.mem p).status ≠ .pending) :
    (s.enqueue p).Queue (l ++ [p]) := by
  have hnotin : p ∉ l := fun hin => hnot ((h.pending p).mpr hin)
  have hnodup : (l ++ [p]).Nodup := by
    rw [List.nodup_append]
    refine ⟨h.nodup, by simp, ?_⟩
    rintro a ha b hb rfl
    exact hnotin (List.mem_singleton.mp hb ▸ ha)
  -- the queue is empty, or its last request gets a successor
  rcases List.eq_nil_or_concat l with rfl | ⟨l, t, rfl⟩
  · have htail : s.queueTail = none := h.tail
    unfold I2CManager.enqueue
    simp only [write, htail]
    refine ⟨?_, hnodup, rfl, ?_, h.completionStatus, h.overallStatus⟩
    · exact ⟨rfl, by simp [next]⟩
    · intro q
      have := h.pending q
      by_cases hq : q = p
      · simp [hq]
      · simpa [hq] using this
  · have htail : s.queueTail = some t := by rw [h.tail]; simp
    have hpt : t ≠ p := by
      rintro rfl
      exact hnotin (by simp)
    have htl : t ∉ l := by
      have := h.nodup
      rw [List.concat_eq_append, List.nodup_append] at this
      exact fun hin => this.2.2 t hin t (List.mem_singleton_self t) rfl
    have hpl : p ∉ l := fun hin => hnotin (by simp [hin])
    unfold I2CManager.enqueue
    simp only [write, htail]
    rw [List.concat_eq_append] at h hnodup hnotin ⊢
    refine ⟨?_, hnodup, by simp, ?_, h.completionStatus, h.overallStatus⟩
    · refine Links.snoc (b := t) (a := p) h.links ?_ ?_ ?_
      · simp [next, hpt]
      · simp [next, hpt.symm]
      · intro q hq
        have hqt : q ≠ t := fun heq => htl (heq ▸ hq)
        have hqp : q ≠ p := fun heq => hpl (heq ▸ hq)
        simp [next, hqt, hqp]
    · intro q
      have := h.pending q
      by_cases hqt : q = t
      · subst hqt
        simp [hpt]
        simpa using this
      · by_cases hqp : q = p
        · simp [hqp, hpt.symm]
        · simpa [hqt, hqp] using this

/-! ## The calls -/

/-- The block that the event puts on the queue, if there is one. -/
def queues (s : I2CManager) : Op → Option Nat
  | .queueRequest req _ => if nullRead (s.mem req).params then none else some req
  | _ => none

/-- What an event does to the queue: it adds a block at the end, or takes away the first one. -/
inductive Moves (s : I2CManager) (op : Op) (l : List Nat) : List Nat → Prop where
  | same : s.queues op = none → Moves s op l l
  | pushed (req : Nat) : s.queues op = some req → Moves s op l (l ++ [req])
  | popped (p : Nat) (rest : List Nat) : s.queues op = none → l = p :: rest → Moves s op l rest

/-- A request that is not pending goes to the end of the queue. -/
theorem Steady.queueRequest (h : s.Steady l) (hnull : ¬ nullRead (s.mem p).params)
    (hnot : (s.mem p).status ≠ .pending) : (s.queueRequest now p).Steady (l ++ [p]) := by
  have hqueue := h.queue.enqueue hnot
  have hstate : (s.enqueue p).state = s.state := by
    unfold enqueue
    dsimp only
    split <;> rfl
  have hcurrent : (s.enqueue p).currentRequest = s.currentRequest := by
    unfold enqueue
    dsimp only
    split <;> rfl
  rw [I2CManager.queueRequest, if_neg hnull]
  by_cases hfree : s.state = .free
  · refine hqueue.start (hstate.trans hfree) ?_
    have hnil := h.serves.free hfree
    subst hnil
    have hnone : s.currentRequest = none := by
      rcases h.serves.current with hc | hc <;> simpa using hc
    exact .inl (hcurrent.trans hnone)
  · rw [startTransaction_of_ne (by rwa [hstate])]
    have hhead : l ≠ [] → (l ++ [p]).head? = l.head? := by
      intro hne
      cases l with
      | nil => exact absurd rfl hne
      | cons q l => rfl
    refine ⟨hqueue, ?_, ?_, ?_⟩
    · rw [hcurrent]
      by_cases hne : l = []
      · subst hne
        have hnone : s.currentRequest = none := by
          rcases h.serves.current with hc | hc <;> simpa using hc
        exact .inl hnone
      · rw [hhead hne]
        exact h.serves.current
    · rw [hstate, hcurrent]
      intro hactive
      obtain ⟨hc, hne⟩ := h.serves.active hactive
      exact ⟨hc.trans (hhead hne).symm, by simp⟩
    · rw [hstate]
      exact fun hf => absurd hf hfree

/-- The first request is given up, and the next one is started. -/
theorem Queue.dequeue_start (h : s.Queue (p :: l)) (hstatus : status ≠ .pending) :
    ((s.dequeue p status).startTransaction now).Steady l :=
  (h.dequeue hstatus).start rfl (.inl rfl)

/-- A look at the time-out keeps the queue steady, and moves at most its head. -/
theorem Steady.checkForTimeout (h : s.Steady l) :
    ∃ l', (s.checkForTimeout now).Steady l' ∧ s.Moves (.checkForTimeout now) l l' := by
  unfold I2CManager.checkForTimeout
  cases l with
  | nil =>
    rw [show s.queueHead = none from h.queue.head]
    exact ⟨[], h, .same rfl⟩
  | cons p l =>
    have hhead : s.queueHead = some p := h.queue.head
    rw [hhead]
    dsimp only
    split
    · refine ⟨l, Queue.dequeue_start ?_ nofun, .popped p l rfl rfl⟩
      exact h.queue.congr rfl hhead.symm rfl h.queue.completionStatus h.queue.overallStatus
    · exact ⟨p :: l, h, .same rfl⟩

/-! ## Interrupts -/

theorem Failure.status_ne_pending (failure : Failure) : failure.status ≠ .pending := by
  cases failure <;> exact nofun

theorem Queue.hardware (h : s.Queue l) (report : Report) : (s.hardware report).Queue l := by
  cases report with
  | working rxCount => exact h.congr rfl rfl rfl h.completionStatus h.overallStatus
  | completed rxCount => exact h.congr rfl rfl rfl h.completionStatus h.overallStatus
  | failed rxCount failure =>
    exact h.congr rfl rfl rfl (Failure.status_ne_pending failure) h.overallStatus

theorem Queue.countRetry (h : s.Queue l) : s.countRetry.Queue l := by
  unfold I2CManager.countRetry
  split
  · exact h
  · exact h.congr rfl rfl rfl h.completionStatus h.overallStatus

theorem countRetry_currentRequest : s.countRetry.currentRequest = s.currentRequest := by
  unfold I2CManager.countRetry
  split <;> rfl

/-- A write to the block that leaves its status and its link. -/
theorem Queue.write (h : s.Queue l) {f : I2CRB → I2CRB}
    (hstatus : (f (s.mem p)).status = (s.mem p).status)
    (hnext : (f (s.mem p)).nextRequest = (s.mem p).nextRequest) : (s.write p f).Queue l := by
  refine ⟨?_, h.nodup, h.tail, ?_, h.completionStatus, h.overallStatus⟩
  · refine h.links.congr fun q _ => ?_
    by_cases hq : q = p
    · subst hq
      simpa [next, I2CManager.write] using hnext
    · simp [next, I2CManager.write, hq]
  · intro q
    by_cases hq : q = p
    · subst hq
      simpa [I2CManager.write, hstatus] using h.pending q
    · simpa [I2CManager.write, hq] using h.pending q

/-- A settled transaction: the request goes on with its next phase, or is removed. -/
theorem Queue.nextPhase (h : s.Queue (p :: l)) (hcurrent : s.currentRequest = some p) :
    if (s.nextPhase p).2 then (s.nextPhase p).1.Steady (p :: l)
    else (s.nextPhase p).1.Queue l ∧ (s.nextPhase p).1.state = .free ∧
      (s.nextPhase p).1.currentRequest = none := by
  have hfinish : ∀ s' : I2CManager, s'.Queue (p :: l) → (s'.finish p).Queue l := by
    intro s' h'
    have hrest : (s'.dequeue p s'.overallStatus).Queue l := h'.dequeue h'.overallStatus
    exact hrest.congr rfl rfl rfl hrest.completionStatus hrest.overallStatus
  have hover : ({ s with overallStatus := s.completionStatus } : I2CManager).Queue (p :: l) :=
    h.congr rfl rfl rfl h.completionStatus h.completionStatus
  unfold I2CManager.nextPhase
  dsimp only
  split
  · split
    · simp only [if_true]
      exact ⟨hover.congr rfl rfl rfl h.completionStatus h.completionStatus, .inr hcurrent,
        fun _ => ⟨hcurrent, nofun⟩, nofun⟩
    · exact ⟨hfinish _ hover, rfl, rfl⟩
  · have hwritten := hover.write (p := p) (f := fun rb => { rb with nBytes := s.rxCount }) rfl rfl
    split
    · refine ⟨hfinish _ ?_, rfl, rfl⟩
      exact hwritten.congr rfl rfl rfl h.completionStatus h.completionStatus
    · simp only [if_true]
      exact ⟨hwritten.congr rfl rfl rfl h.completionStatus h.completionStatus, .inr hcurrent,
        fun _ => ⟨hcurrent, nofun⟩, nofun⟩
  · refine ⟨hfinish _ ?_, rfl, rfl⟩
    exact h.congr rfl rfl rfl h.completionStatus h.overallStatus
  · exact ⟨hfinish _ hover, rfl, rfl⟩

theorem hardware_currentRequest (report : Report) :
    (s.hardware report).currentRequest = s.currentRequest := by
  cases report <;> rfl

/-- The hardware reports that it is done, or the manager stays in its state. -/
theorem hardware_state (report : Report) :
    (s.hardware report).state = .completed ∨ (s.hardware report).state = s.state := by
  cases report with
  | working rxCount => exact .inr rfl
  | completed rxCount => exact .inl rfl
  | failed rxCount failure => exact .inl rfl

/-- What the hardware reports leaves the queue alone. -/
theorem Steady.hardware (h : s.Steady l) (report : Report) : (s.hardware report).Steady l := by
  refine ⟨h.queue.hardware report, ?_, ?_, ?_⟩
  · rw [hardware_currentRequest]
    exact h.serves.current
  · intro hactive
    rw [hardware_currentRequest]
    rcases hardware_state (s := s) report with hstate | hstate
    · rw [hstate] at hactive
      cases hactive
    · exact h.serves.active (hstate.symm.trans hactive)
  · intro hfree
    rcases hardware_state (s := s) report with hstate | hstate
    · rw [hstate] at hfree
      cases hfree
    · exact h.serves.free (hstate.symm.trans hfree)

theorem Steady.startNext (h : s.Steady l) : s.startNext now = s := by
  rw [startNext_eq]
  by_cases hfree : s.state = .free
  · unfold startTransaction
    have hhead : s.queueHead = none := by
      rw [h.queue.head, h.serves.free hfree]
      rfl
    rw [hhead, hfree]
  · exact startTransaction_of_ne hfree

/-- An interrupt keeps the queue steady, and moves at most its head. -/
theorem Steady.handleInterrupt (h : s.Steady l) (report : Report) :
    ∃ l', (s.handleInterrupt now report).Steady l' ∧ s.Moves (.handleInterrupt report now) l l' := by
  unfold I2CManager.handleInterrupt
  dsimp only
  rw [hardware_currentRequest]
  cases hcurrent : s.currentRequest with
  | none =>
    have hsteady := h.hardware report
    refine ⟨l, ?_, .same rfl⟩
    rw [hsteady.startNext]
    exact hsteady
  | some p =>
    dsimp only
    split
    · next hdone =>
      cases l with
      | nil =>
        rcases h.serves.current with hc | hc <;> rw [hcurrent] at hc <;> cases hc
      | cons q l =>
        obtain rfl : p = q := by
          rcases h.serves.current with hc | hc <;> rw [hcurrent] at hc <;> cases hc
          rfl
        have hqueue := (h.queue.hardware report).countRetry
        have hcount : (s.hardware report).countRetry.currentRequest = some p :=
          (countRetry_currentRequest.trans (hardware_currentRequest report)).trans hcurrent
        split
        · have hphase := hqueue.nextPhase hcount
          generalize (s.hardware report).countRetry.nextPhase p = r at hphase ⊢
          obtain ⟨s', going⟩ := r
          cases going with
          | true =>
            simp only [if_true] at hphase
            exact ⟨p :: l, hphase, .same rfl⟩
          | false =>
            simp only [Bool.false_eq_true, if_false] at hphase
            refine ⟨l, ?_, .popped p l rfl rfl⟩
            show (s'.startNext now).Steady l
            rw [startNext_eq]
            exact hphase.1.start hphase.2.1 (.inl hphase.2.2)
        · refine ⟨p :: l, ?_, .same rfl⟩
          rw [startNext_eq]
          refine Queue.start ?_ rfl (.inr hcount)
          exact hqueue.congr rfl rfl rfl hqueue.completionStatus hqueue.overallStatus
    · have hsteady := h.hardware report
      refine ⟨l, ?_, .same rfl⟩
      rw [hsteady.startNext]
      exact hsteady

/-! ## Runs -/

theorem Steady.setParams (h : s.Steady l) (params : Params) (hnot : (s.mem p).status ≠ .pending) :
    (s.setParams p params).Steady l := by
  have hnotin : p ∉ l := fun hin => hnot ((h.queue.pending p).mpr hin)
  refine ⟨⟨?_, h.queue.nodup, h.queue.tail, ?_, h.queue.completionStatus, h.queue.overallStatus⟩,
    h.serves.current, h.serves.active, h.serves.free⟩
  · refine h.queue.links.congr fun q hq => ?_
    have hne : q ≠ p := fun heq => hnotin (heq ▸ hq)
    simp [next, I2CManager.setParams, I2CManager.write, hne]
  · intro q
    by_cases hq : q = p
    · subst hq
      simp [I2CManager.setParams, I2CManager.write, hnotin]
    · simpa [I2CManager.setParams, I2CManager.write, hq] using h.queue.pending q

/-- One event. -/
theorem Steady.step (h : s.Steady l) (hwaits : s.Waits op) :
    ∃ l', (s.step op).Steady l' ∧ s.Moves op l l' := by
  cases op with
  | setParams req params => exact ⟨l, h.setParams params hwaits, .same rfl⟩
  | queueRequest req now =>
    by_cases hnull : nullRead (s.mem req).params
    · refine ⟨l, ?_, .same (if_pos hnull)⟩
      show (s.queueRequest now req).Steady l
      rw [I2CManager.queueRequest, if_pos hnull]
      exact h
    · have hnot := hwaits.resolve_left hnull
      exact ⟨l ++ [req], h.queueRequest hnull hnot, .pushed req (if_neg hnull)⟩
  | handleInterrupt report now => exact h.handleInterrupt report
  | checkForTimeout now => exact h.checkForTimeout
  | setTimeout value =>
    exact ⟨l, ⟨h.queue.congr rfl rfl rfl h.queue.completionStatus h.queue.overallStatus,
      h.serves.current, h.serves.active, h.serves.free⟩, .same rfl⟩
  | setMuxCount count =>
    exact ⟨l, ⟨h.queue.congr rfl rfl rfl h.queue.completionStatus h.queue.overallStatus,
      h.serves.current, h.serves.active, h.serves.free⟩, .same rfl⟩

theorem New.steady (h : s.New) : s.Steady [] := by
  refine ⟨⟨?_, List.nodup_nil, h.queueTail, ?_, ?_, ?_⟩, .inl h.currentRequest, ?_, fun _ => rfl⟩
  · exact h.queueHead
  · exact fun p => ⟨fun hp => absurd hp (h.notPending p), nofun⟩
  · rw [h.completionStatus]
    exact nofun
  · rw [h.overallStatus]
    exact nofun
  · rw [h.state]
    exact nofun

end I2CManager

/-- The manager, with the requests that have been queued and those that have been completed. -/
structure Watched where
  i2c : I2CManager
  queued : List Nat
  left : List Nat

namespace Watched

open I2CManager

variable {w : Watched} {op : Op} {l : List Nat}

def start (i2c : I2CManager) : Watched := ⟨i2c, [], []⟩

/-- The first request, if the event has changed its status from pending. -/
def leaves (w : Watched) (op : Op) : List Nat :=
  w.i2c.queueHead.toList.filter fun p => ((w.i2c.step op).mem p).status ≠ .pending

def step (w : Watched) (op : Op) : Watched where
  i2c := w.i2c.step op
  queued := w.queued ++ (w.i2c.queues op).toList
  left := w.left ++ w.leaves op

/-- Only the first request of the queue leaves the pending state. -/
def Orderly (w : Watched) (op : Op) : Prop :=
  ∀ p, (w.i2c.mem p).status = .pending → ((w.i2c.step op).mem p).status ≠ .pending →
    w.i2c.queueHead = some p

/-- The requests that have been queued are those that have been completed, in this order, and
behind them those that wait. -/
theorem step_orderly (h : w.i2c.Steady l) (hqueued : w.queued = w.left ++ l)
    (hwaits : w.i2c.Waits op) : w.Orderly op ∧ ∃ l', (w.step op).i2c.Steady l' ∧
      (w.step op).queued = (w.step op).left ++ l' := by
  obtain ⟨l', hsteady, hmoves⟩ := h.step hwaits
  -- who is in the queue after the step is pending, so only who has left it is completed
  have hstay : ∀ p ∈ l', ((w.i2c.step op).mem p).status = .pending :=
    fun p hp => (hsteady.queue.pending p).mpr hp
  have hleaves : ∀ p rest, l = p :: rest → p ∈ l' → w.leaves op = [] := by
    intro p rest hl hp
    rw [leaves, h.queue.head, hl]
    simp [hstay p hp]
  refine ⟨?_, l', hsteady, ?_⟩
  · -- the one that is completed was the first
    intro p hp hnot
    have hin := (h.queue.pending p).mp hp
    have hnotin : p ∉ l' := fun hin' => hnot (hstay p hin')
    cases hmoves with
    | same _ => exact absurd hin hnotin
    | pushed req _ => exact absurd (List.mem_append_left _ hin) hnotin
    | popped q rest _ hl =>
      subst hl
      rcases List.mem_cons.mp hin with rfl | hin'
      · exact h.queue.head
      · exact absurd hin' hnotin
  · show w.queued ++ (w.i2c.queues op).toList = w.left ++ w.leaves op ++ l'
    cases hmoves with
    | same hnone =>
      have hnoleave : w.leaves op = [] := by
        cases l with
        | nil => simp [leaves, h.queue.head]
        | cons p rest => exact hleaves p rest rfl List.mem_cons_self
      simp [hnone, hnoleave, hqueued]
    | pushed req hsome =>
      have hnoleave : w.leaves op = [] := by
        cases l with
        | nil => simp [leaves, h.queue.head]
        | cons p rest => exact hleaves p rest rfl (by simp)
      simp [hsome, hnoleave, hqueued]
    | popped p rest hnone hl =>
      subst hl
      have hnot : p ∉ l' := (List.nodup_cons.mp h.queue.nodup).1
      have hnotPending : ((w.i2c.step op).mem p).status ≠ .pending :=
        fun hp => hnot ((hsteady.queue.pending p).mp hp)
      have hleave : w.leaves op = [p] := by
        rw [leaves, h.queue.head]
        simp [hnotPending]
      simp [hnone, hleave, hqueued]

/-- What holds after every event. -/
structure Holds (w : Watched) (l : List Nat) : Prop where
  links : Links w.i2c.next w.i2c.queueHead l
  nodup : l.Nodup
  head : w.i2c.queueHead = l.head?
  tail : w.i2c.queueTail = l.getLast?
  pending : ∀ p, (w.i2c.mem p).status = .pending ↔ p ∈ l
  current : w.i2c.currentRequest = none ∨ w.i2c.currentRequest = w.i2c.queueHead
  active : w.i2c.state = .active → w.i2c.currentRequest = w.i2c.queueHead ∧ l ≠ []
  free : w.i2c.state = .free → l = []
  order : w.queued = w.left ++ l
  once : ∀ p, w.queued.count p =
    w.left.count p + if (w.i2c.mem p).status = .pending then 1 else 0

theorem holds_of_steady (h : w.i2c.Steady l) (hqueued : w.queued = w.left ++ l) : w.Holds l := by
  refine ⟨h.queue.links, h.queue.nodup, h.queue.head, h.queue.tail, h.queue.pending, ?_, ?_,
    h.serves.free, hqueued, ?_⟩
  · rw [h.queue.head]
    exact h.serves.current
  · rw [h.queue.head]
    exact h.serves.active
  · intro p
    rw [hqueued, List.count_append, h.queue.nodup.count]
    simp only [h.queue.pending p]

theorem run_orderly (h : w.i2c.Steady l) (hqueued : w.queued = w.left ++ l) {ops : List Op}
    (hwaits : Along step (fun w op => w.i2c.Waits op) w ops) :
    Along step Orderly w ops ∧ ∃ l', (run step w ops).Holds l' := by
  induction ops generalizing w l with
  | nil => exact ⟨trivial, l, holds_of_steady h hqueued⟩
  | cons op ops ih =>
    obtain ⟨horderly, l', hsteady, hqueued'⟩ := step_orderly h hqueued hwaits.1
    obtain ⟨hrest, hholds⟩ := ih hsteady hqueued' hwaits.2
    exact ⟨⟨horderly, hrest⟩, hholds⟩

/-- **The queue is the list of the pending requests**, in every run: it is linked from `queueHead`
to `queueTail`, its first request is the one that is carried out, and the requests leave it in the
order in which they were queued, each of them once. -/
theorem i2c_queue {i2c : I2CManager} (h : i2c.New) {ops : List Op}
    (hwaits : Along step (fun w op => w.i2c.Waits op) (start i2c) ops) :
    Along step Orderly (start i2c) ops ∧ ∃ l, (run step (start i2c) ops).Holds l :=
  run_orderly h.steady rfl hwaits

/-- A manager with two multiplexers. -/
def twoMuxes : I2CManager where
  mem := fun _ => ⟨⟨0, ⟨muxNone, 254, 0⟩, 0, 0, 0, 0⟩, .ok, 0, none⟩
  queueHead := none
  queueTail := none
  currentRequest := none
  state := .free
  completionStatus := .ok
  overallStatus := .ok
  retryCounter := 0
  muxPhase := .off
  muxCount := 2
  muxData := 0
  deviceAddress := 0
  operation := 0
  sendBuffer := .muxData
  receiveBuffer := 0
  bytesToSend := 0
  bytesToReceive := 0
  rxCount := 0
  startTime := 0
  timeout := 100000
  bus := []

theorem twoMuxes_new : twoMuxes.New := by
  refine ⟨rfl, rfl, rfl, rfl, rfl, rfl, rfl, ?_⟩
  intro p
  exact nofun

/-- A request behind a multiplexer fails once and is then carried out in three phases, a second one
is queued meanwhile and times out. -/
theorem i2c_queue_two :
    let ops : List Op := [.setParams 7 ⟨Operation.send, ⟨0, 3, 0x20⟩, 100, 2, 0, 0⟩,
      .queueRequest 7 10, .handleInterrupt (.failed 0 .negativeAcknowledge) 20,
      .setParams 9 ⟨Operation.send, ⟨muxNone, 254, 0x27⟩, 200, 1, 0, 0⟩, .queueRequest 9 30,
      .handleInterrupt (.completed 0) 40, .handleInterrupt (.completed 0) 50,
      .handleInterrupt (.completed 0) 60, .checkForTimeout 100100]
    (run step (start twoMuxes) ops).left = [7, 9] ∧
      ∃ l, (run step (start twoMuxes) ops).Holds l :=
  ⟨by decide +kernel, (i2c_queue twoMuxes_new (by decide +kernel)).2⟩

end Watched

end CommandStation.I2C
