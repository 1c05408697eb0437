import CommandStation.I2CManager.Queue

/-!
# Retries

One counter serves all phases of a request, and it is reset when a request has been completed. So a
request gets its own retries, and its payload is not sent again, as long as no time-out removes a
request that has been retried and no epilog that may be retried fails: a failed epilog starts the
whole request again, and a time-out leaves the counter to the next request.
-/

namespace CommandStation.I2C

open CommandStation.Lib

namespace I2CManager

variable {s s' : I2CManager} {l : List Nat} {p q : Nat} {now : UInt32} {status : Status} {op : Op}
  {report : Report}

/-- A request that allows retries. -/
def retries (s : I2CManager) (p : Nat) : Prop :=
  (s.mem p).params.operation &&& Operation.noRetry = 0

instance (s : I2CManager) (p : Nat) : Decidable (s.retries p) := inferInstanceAs (Decidable (_ = _))

/-- The interrupt reports that a transaction of the first request has failed, other than its
epilog. -/
def fails (s : I2CManager) : Op → Prop
  | .handleInterrupt (.failed _ _) _ => s.state = .active ∧ s.muxPhase ≠ .epilog
  | _ => False

/-- The interrupt reports that the payload of the first request has been sent. -/
def delivers (s : I2CManager) : Op → Prop
  | .handleInterrupt (.completed _) _ =>
    s.state = .active ∧ (s.muxPhase = .payload ∨ s.muxPhase = .off)
  | _ => False

/-- The first request stays on the queue. -/
def stays (s : I2CManager) (op : Op) : Prop :=
  ∃ p ∈ s.queueHead, ((s.step op).mem p).status = .pending

/-- An event that the counter of retries can cope with: a request that has been retried does not
time out, and an epilog does not fail while its request may still be retried. -/
def Copes (s : I2CManager) : Op → Prop
  | .checkForTimeout now => s.state = .active ∧ s.expired now → s.retryCounter = 0
  | .handleInterrupt (.failed _ _) _ => s.state = .active ∧ s.muxPhase = .epilog →
    ∀ p ∈ s.currentRequest, ¬ s.retries p ∨ maxI2CRetries ≤ s.retryCounter
  | _ => True

instance (s : I2CManager) : DecidablePred s.fails := fun op => by
  unfold fails
  split <;> infer_instance

instance (s : I2CManager) : DecidablePred s.delivers := fun op => by
  unfold delivers
  split <;> infer_instance

instance (s : I2CManager) (op : Op) : Decidable (s.stays op) :=
  inferInstanceAs (Decidable (∃ p ∈ s.queueHead, _))

instance (s : I2CManager) : DecidablePred s.Copes
  | .checkForTimeout _ => inferInstanceAs (Decidable (_ → _))
  | .handleInterrupt (.failed _ _) _ => inferInstanceAs (Decidable (_ → _))
  | .handleInterrupt (.working _) _ | .handleInterrupt (.completed _) _ | .setParams _ _
  | .queueRequest _ _ | .setTimeout _ | .setMuxCount _ => isTrue trivial

/-- The transactions that an event has started. -/
def started (s : I2CManager) (op : Op) : List Transaction :=
  (s.step op).bus.take ((s.step op).bus.length - s.bus.length)

/-- The request is started again from its first phase. -/
def restarts (s : I2CManager) (p : Nat) (op : Op) : Prop :=
  ∃ t ∈ s.started op, t.req = p ∧ (t.phase = .prolog ∨ t.phase = .off)

instance (s : I2CManager) (p : Nat) (op : Op) : Decidable (s.restarts p op) :=
  inferInstanceAs (Decidable (∃ t ∈ s.started op, _))

/-! ## What an interrupt does -/

theorem started_eq {new : List Transaction} (h : (s.step op).bus = new ++ s.bus) :
    s.started op = new := by
  simp [started, h]

/-- The first request is started. -/
structure Started (s : I2CManager) (p : Nat) (s' : I2CManager) : Prop where
  state : s'.state = .active
  currentRequest : s'.currentRequest = some p
  completionStatus : s'.completionStatus = .ok
  muxPhase : s'.muxPhase = .prolog ∨ s'.muxPhase = .off
  retryCounter : s'.retryCounter = s.retryCounter
  mem : s'.mem = s.mem
  bus : ∃ t, s'.bus = t :: s.bus ∧ t.req = p ∧ t.phase = s'.muxPhase

theorem started_startTransaction (now : UInt32) (hfree : s.state = .free) (hhead : s.queueHead = some p) :
    s.Started p (s.startTransaction now) := by
  unfold startTransaction
  simp only [hfree, hhead]
  split
  · exact ⟨rfl, rfl, rfl, .inl rfl, rfl, rfl, _, rfl, rfl, rfl⟩
  · exact ⟨rfl, rfl, rfl, .inr rfl, rfl, rfl, _, rfl, rfl, rfl⟩

theorem startTransaction_of_none (hhead : s.queueHead = none) : s.startTransaction now = s := by
  unfold startTransaction
  grind

/-- The next phase of the request `p` is started. -/
structure GoesOn (s : I2CManager) (p : Nat) (s' : I2CManager) : Prop where
  state : s'.state = .active
  currentRequest : s'.currentRequest = s.currentRequest
  queueHead : s'.queueHead = s.queueHead
  completionStatus : s'.completionStatus = s.completionStatus
  muxPhase : s.muxPhase = .prolog ∧ s.completionStatus = .ok ∧ s'.muxPhase = .payload ∨
    s.muxPhase = .payload ∧ s'.muxPhase = .epilog
  retryCounter : s'.retryCounter = s.retryCounter
  params : ∀ q, (s'.mem q).params = (s.mem q).params
  status : ∀ q, (s'.mem q).status = (s.mem q).status
  bus : ∃ t, s'.bus = t :: s.bus ∧ t.req = p ∧ t.phase = s'.muxPhase

/-- The request `p` has been removed. -/
structure Removed (s : I2CManager) (p : Nat) (s' : I2CManager) : Prop where
  state : s'.state = .free
  currentRequest : s'.currentRequest = none
  retryCounter : s'.retryCounter = 0
  status : (s'.mem p).status = s.completionStatus ∨ (s'.mem p).status = s.overallStatus
  bus : s'.bus = s.bus

theorem removed_finish {s₀ : I2CManager} (hbus : s.bus = s₀.bus)
    (hstatus : s.overallStatus = s₀.completionStatus ∨ s.overallStatus = s₀.overallStatus) :
    s₀.Removed p (s.finish p) := by
  refine ⟨rfl, rfl, rfl, ?_, hbus⟩
  simpa [finish, dequeue, write] using hstatus

/-- The transaction is settled. -/
theorem nextPhase_cases (s : I2CManager) (p : Nat) :
    ((s.nextPhase p).2 = true ∧ s.GoesOn p (s.nextPhase p).1) ∨
      ((s.nextPhase p).2 = false ∧ s.Removed p (s.nextPhase p).1) := by
  have hwrite : ∀ (f : I2CRB → I2CRB) (q : Nat), (f (s.mem p)).params = (s.mem p).params →
      (f (s.mem p)).status = (s.mem p).status →
      ((Function.update s.mem p (f (s.mem p))) q).params = (s.mem q).params ∧
        ((Function.update s.mem p (f (s.mem p))) q).status = (s.mem q).status := by
    intro f q hparams hstatus
    by_cases hq : q = p
    · subst hq
      simp [hparams, hstatus]
    · simp [hq]
  unfold nextPhase
  dsimp only
  split
  · next hphase =>
    split
    · next hok =>
      exact .inl ⟨rfl, rfl, rfl, rfl, rfl, .inl ⟨hphase, hok.1, rfl⟩, rfl, fun _ => rfl,
        fun _ => rfl, _, rfl, rfl, rfl⟩
    · exact .inr ⟨rfl, removed_finish rfl (.inl rfl)⟩
  · next hphase =>
    split
    · exact .inr ⟨rfl, removed_finish rfl (.inl rfl)⟩
    · refine .inl ⟨rfl, rfl, rfl, rfl, rfl, .inr ⟨hphase, rfl⟩, rfl, ?_, ?_, _, rfl, rfl, rfl⟩
      · exact fun q => (hwrite (fun rb => { rb with nBytes := s.rxCount }) q rfl rfl).1
      · exact fun q => (hwrite (fun rb => { rb with nBytes := s.rxCount }) q rfl rfl).2
  · exact .inr ⟨rfl, removed_finish rfl (.inr rfl)⟩
  · exact .inr ⟨rfl, removed_finish rfl (.inl rfl)⟩

/-- What an interrupt does that ends a transaction of the request `p`; `s` has counted it. -/
inductive Ended (s : I2CManager) (p : Nat) (now : UInt32) (s' : I2CManager) : Prop where
  | goesOn : s.settled (s.mem p).params → s.GoesOn p s' → Ended s p now s'
  | removed (s₂ : I2CManager) : s.settled (s.mem p).params → s.Removed p s₂ →
    s' = s₂.startTransaction now → Ended s p now s'
  | retried : ¬ s.settled (s.mem p).params → s.Started p s' → Ended s p now s'

/-- An attempt that is complete is counted, and the request is settled or tried again. -/
theorem handleInterrupt_ended (hcurrent : s.currentRequest = some p) (hhead : s.queueHead = some p)
    (hdone : (s.hardware report).state = .completed) :
    (s.hardware report).countRetry.Ended p now (s.handleInterrupt now report) := by
  have hhead' : (s.hardware report).queueHead = some p := by
    cases report <;> exact hhead
  unfold I2CManager.handleInterrupt
  dsimp only
  rw [hardware_currentRequest, hcurrent]
  dsimp only
  rw [if_pos ⟨hdone, hhead'⟩]
  split
  · next hsettled =>
    rcases nextPhase_cases (s.hardware report).countRetry p with ⟨hgoing, hnext⟩ | ⟨hgoing, hnext⟩
    all_goals
      generalize (s.hardware report).countRetry.nextPhase p = r at hgoing hnext ⊢
      obtain ⟨s₂, going⟩ := r
      dsimp only at hgoing hnext
      subst hgoing
    · exact .goesOn hsettled hnext
    · exact .removed s₂ hsettled hnext startNext_eq
  · next hsettled =>
    refine .retried hsettled ?_
    rw [startNext_eq]
    have hhead₁ : (s.hardware report).countRetry.queueHead = some p := by
      unfold countRetry
      split <;> exact hhead'
    have h := started_startTransaction (s := { (s.hardware report).countRetry with state := .free })
      now rfl hhead₁
    exact ⟨h.state, h.currentRequest, h.completionStatus, h.muxPhase, h.retryCounter, h.mem, h.bus⟩

end I2CManager

/-- The manager with what has happened to the first request of the queue since it was queued: its
payload has been sent, and how often it has failed. -/
structure Tried where
  i2c : I2CManager
  delivered : Bool
  failures : Nat

namespace Tried

open I2CManager

def start (i2c : I2CManager) : Tried := ⟨i2c, false, 0⟩

def step (w : Tried) (op : Op) : Tried where
  i2c := w.i2c.step op
  delivered := w.i2c.stays op ∧ (w.delivered ∨ w.i2c.delivers op)
  failures :=
    if w.i2c.stays op then w.failures + (if w.i2c.fails op then 1 else 0) else 0

/-- A payload that has been sent is not sent again, and a request that allows retries and fails is
started again exactly if it has failed less than `MAX_I2C_RETRIES` times before. -/
structure Fair (w : Tried) (op : Op) : Prop where
  sentOnce : w.delivered → ∀ p ∈ w.i2c.queueHead, ∀ t ∈ w.i2c.started op, t.req = p →
    t.phase ≠ .payload ∧ t.phase ≠ .off
  retried : ∀ p ∈ w.i2c.queueHead, w.i2c.retries p → w.i2c.fails op →
    (w.i2c.restarts p op ↔ w.failures < maxI2CRetries.toNat)

variable {w : Tried} {s : I2CManager} {l : List Nat} {p : Nat} {op : Op} {now : UInt32}
  {report : Report}

/-- The counter counts the failures of the request that is carried out, and an epilog is not
retried. -/
structure Counts (w : Tried) (l : List Nat) : Prop where
  steady : w.i2c.Steady l
  busy : w.i2c.currentRequest ≠ none → w.i2c.state = .active
  idle : w.i2c.currentRequest = none →
    w.i2c.retryCounter = 0 ∧ w.delivered = false ∧ w.failures = 0
  attempt : w.i2c.state = .active → w.i2c.muxPhase ≠ .epilog → w.i2c.completionStatus = .ok ∧
    w.i2c.retryCounter.toNat = w.failures ∧ w.failures ≤ 2 ∧ w.delivered = false
  epilog : w.i2c.state = .active → w.i2c.muxPhase = .epilog → w.i2c.retryCounter.toNat ≤ 3 ∧
    (w.i2c.completionStatus = .ok ∨
      ∀ p ∈ w.i2c.currentRequest, ¬ w.i2c.retries p ∨ 2 < w.i2c.retryCounter.toNat)

/-- The first request has left the queue, and the next one is started. -/
theorem counts_next (hsteady : (s.startTransaction now).Steady l) (hfree : s.state = .free)
    (hcurrent : s.currentRequest = none) (hzero : s.retryCounter = 0) :
    Counts ⟨s.startTransaction now, false, 0⟩ l := by
  cases hhead : s.queueHead with
  | none =>
    rw [startTransaction_of_none hhead] at hsteady ⊢
    refine ⟨hsteady, fun h => absurd hcurrent h, fun _ => ⟨hzero, rfl, rfl⟩, ?_, ?_⟩
    · exact fun h => absurd (hfree.symm.trans h) nofun
    · exact fun h => absurd (hfree.symm.trans h) nofun
  | some q =>
    have h := started_startTransaction now hfree hhead
    refine ⟨hsteady, fun _ => h.state, ?_, ?_, ?_⟩
    · exact fun hnone => absurd (h.currentRequest.symm.trans hnone) nofun
    · intro _ _
      refine ⟨h.completionStatus, ?_, Nat.zero_le _, rfl⟩
      rw [h.retryCounter, hzero]
      rfl
    · intro _ hepilog
      rcases h.muxPhase with hphase | hphase <;> exact absurd (hphase.symm.trans hepilog) nofun

theorem step_of_not_stays (h : ¬ w.i2c.stays op) : w.step op = ⟨w.i2c.step op, false, 0⟩ := by
  simp [step, h]

theorem step_of_stays (h : w.i2c.stays op) : w.step op = ⟨w.i2c.step op,
    w.delivered ∨ w.i2c.delivers op, w.failures + if w.i2c.fails op then 1 else 0⟩ := by
  simp [step, h]

/-- An event that starts nothing. -/
theorem Fair.of_quiet (hbus : (w.i2c.step op).bus = w.i2c.bus) (hfails : ¬ w.i2c.fails op) :
    w.Fair op := by
  have hnone : w.i2c.started op = [] := started_eq hbus
  refine ⟨?_, fun _ _ _ h => absurd h hfails⟩
  rw [hnone]
  exact fun _ _ _ _ ht => absurd ht List.not_mem_nil

/-! ## The counter -/

theorem toNat_succ {c : UInt8} (h : c.toNat ≤ 3) : (c + 1).toNat = c.toNat + 1 := by
  rw [UInt8.toNat_add, show (1 : UInt8).toNat = 1 from rfl]
  omega

theorem settled_iff {params : Params} : s.settled params ↔ s.completionStatus = .ok ∨
    2 < s.retryCounter.toNat ∨ params.operation &&& Operation.noRetry ≠ 0 := by
  rw [settled, UInt8.lt_iff_toNat_lt]
  exact Iff.rfl

/-- What a transaction that has ended has been counted as. -/
structure Counted (s : I2CManager) (report : Report) (s₁ : I2CManager) : Prop where
  mem : s₁.mem = s.mem
  queueHead : s₁.queueHead = s.queueHead
  currentRequest : s₁.currentRequest = s.currentRequest
  muxPhase : s₁.muxPhase = s.muxPhase
  bus : s₁.bus = s.bus
  completionStatus : (∃ rxCount, report = .completed rxCount) ∧
    s₁.completionStatus = s.completionStatus ∨
    (∃ rxCount failure, report = .failed rxCount failure) ∧ s₁.completionStatus ≠ .ok
  retryCounter : s₁.retryCounter =
    if s₁.completionStatus = .ok then s.retryCounter else s.retryCounter + 1

/-- A transaction that ends is counted, as a failure or not. -/
theorem counted_countRetry (hactive : s.state = .active)
    (hdone : (s.hardware report).state = .completed) :
    Counted s report (s.hardware report).countRetry := by
  have hcount : ∀ s₁ : I2CManager, s₁.countRetry = { s₁ with retryCounter :=
      if s₁.completionStatus = .ok then s₁.retryCounter else s₁.retryCounter + 1 } := by
    intro s₁
    unfold countRetry
    split <;> rfl
  rw [hcount]
  cases report with
  | working rxCount => exact absurd (hactive.symm.trans hdone) nofun
  | completed rxCount => exact ⟨rfl, rfl, rfl, rfl, rfl, .inl ⟨⟨_, rfl⟩, rfl⟩, rfl⟩
  | failed rxCount failure =>
    refine ⟨rfl, rfl, rfl, rfl, rfl, .inr ⟨⟨_, _, rfl⟩, ?_⟩, rfl⟩
    show failure.status ≠ .ok
    cases failure <;> exact nofun

theorem startTransaction_mem : (s.startTransaction now).mem = s.mem := by
  unfold startTransaction
  split
  · dsimp only
    split <;> rfl
  · rfl

/-- When a request has been removed, the transaction that is started is for another one. -/
theorem started_other {s₂ : I2CManager} (hstep : w.i2c.step op = s₂.startTransaction now)
    (hsteady : (w.i2c.step op).Steady l) (hfree : s₂.state = .free) (hbus : s₂.bus = w.i2c.bus)
    (hnot : (s₂.mem p).status ≠ .pending) : ∀ t ∈ w.i2c.started op, t.req ≠ p := by
  cases hhead : s₂.queueHead with
  | none =>
    have hnone : w.i2c.started op = [] := by
      apply started_eq
      rw [hstep, startTransaction_of_none hhead, hbus]
      rfl
    rw [hnone]
    exact fun _ ht => absurd ht List.not_mem_nil
  | some q =>
    have h := started_startTransaction now hfree hhead
    obtain ⟨t, ht, hreq, -⟩ := h.bus
    have hone : w.i2c.started op = [t] := by
      apply started_eq
      rw [hstep, ht, hbus]
      rfl
    have hpending : ((w.i2c.step op).mem q).status = .pending := by
      refine (hsteady.queue.pending q).mpr (List.mem_of_mem_head? ?_)
      rw [← (hsteady.serves.active (by rw [hstep]; exact h.state)).1, hstep]
      exact h.currentRequest
    rw [hone]
    intro t' ht' hp
    rw [List.mem_singleton] at ht'
    subst ht'
    rw [hreq] at hp
    subst hp
    rw [hstep, startTransaction_mem] at hpending
    exact hnot hpending

/-! ## One event -/

section Ended

variable {s₁ : I2CManager} {l' : List Nat} (h : w.Counts l) (hactive : w.i2c.state = .active)
  (hhead : w.i2c.queueHead = some p) (hcounted : Counted w.i2c report s₁)

include h hactive hcounted in
/-- In an attempt, only a failure is counted. -/
theorem Counts.attempt_counted (hphase : w.i2c.muxPhase ≠ .epilog) :
    (s₁.completionStatus = .ok ∧ (∃ rxCount, report = .completed rxCount) ∧
      s₁.retryCounter.toNat = w.failures) ∨
    (s₁.completionStatus ≠ .ok ∧ (∃ rxCount failure, report = .failed rxCount failure) ∧
      s₁.retryCounter.toNat = w.failures + 1) := by
  obtain ⟨hok, hcount, hle, -⟩ := h.attempt hactive hphase
  rcases hcounted.completionStatus with ⟨hreport, hstatus⟩ | ⟨hreport, hstatus⟩
  · have hok₁ := hstatus.trans hok
    refine .inl ⟨hok₁, hreport, ?_⟩
    rw [hcounted.retryCounter, if_pos hok₁, hcount]
  · refine .inr ⟨hstatus, hreport, ?_⟩
    rw [hcounted.retryCounter, if_neg hstatus, toNat_succ (by omega), hcount]

include h hactive hhead hcounted in
/-- The next phase is started. -/
theorem Counts.goesOn (hsteady : (w.i2c.step (.handleInterrupt report now)).Steady l')
    (hsettled : s₁.settled (s₁.mem p).params)
    (hgoes : s₁.GoesOn p (w.i2c.step (.handleInterrupt report now))) :
    w.Fair (.handleInterrupt report now) ∧ ∃ l', (w.step (.handleInterrupt report now)).Counts l' := by
  have hphase : w.i2c.muxPhase ≠ .epilog := by
    rw [← hcounted.muxPhase]
    rcases hgoes.muxPhase with ⟨hp, -⟩ | ⟨hp, -⟩ <;> rw [hp] <;> exact nofun
  obtain ⟨-, -, hle, hnot⟩ := h.attempt hactive hphase
  have hcurrent : w.i2c.currentRequest = some p := by
    rw [(h.steady.serves.active hactive).1, ← h.steady.queue.head, hhead]
  have hstays : w.i2c.stays (.handleInterrupt report now) := by
    refine ⟨p, hhead, ?_⟩
    rw [hgoes.status, hcounted.mem]
    refine (h.steady.queue.pending p).mpr (List.mem_of_mem_head? ?_)
    rw [← h.steady.queue.head]
    exact hhead
  have hcurrent' : (w.i2c.step (.handleInterrupt report now)).currentRequest = some p :=
    (hgoes.currentRequest.trans hcounted.currentRequest).trans hcurrent
  have hparams : (w.i2c.step (.handleInterrupt report now)).retries p ↔ w.i2c.retries p := by
    rw [retries, hgoes.params, hcounted.mem]
    exact Iff.rfl
  obtain ⟨t, hbus, hreq, htphase⟩ := hgoes.bus
  have hstarted : w.i2c.started (.handleInterrupt report now) = [t] := by
    apply started_eq
    rw [hbus, hcounted.bus]
    rfl
  rw [step_of_stays hstays]
  rcases hgoes.muxPhase with ⟨hp, hok, hp'⟩ | ⟨hp, hp'⟩
  · -- the payload follows the prolog
    rcases h.attempt_counted hactive hcounted hphase with ⟨-, ⟨rxCount, rfl⟩, hcount⟩ | ⟨hbad, -⟩
    · refine ⟨⟨?_, fun _ _ _ hf => absurd hf id⟩, l', hsteady, fun _ => hgoes.state, ?_, ?_, ?_⟩
      · simp [hnot]
      · exact fun hnone => absurd (hcurrent'.symm.trans hnone) nofun
      · intro _ _
        refine ⟨hgoes.completionStatus.trans hok, ?_, hle, ?_⟩
        · rw [hgoes.retryCounter, hcount]
          rfl
        · rw [hcounted.muxPhase] at hp
          simp [hnot, delivers, hp]
      · exact fun _ he => absurd (hp'.symm.trans he) nofun
    · exact absurd hok hbad
  · -- the epilog follows the payload
    refine ⟨⟨?_, ?_⟩, l', hsteady, fun _ => hgoes.state, ?_, ?_, ?_⟩
    · simp [hnot]
    · intro q hq hretries hfails
      obtain rfl : p = q := Option.some_inj.mp (hhead.symm.trans hq)
      rcases h.attempt_counted hactive hcounted hphase with
        ⟨-, ⟨rxCount, rfl⟩, -⟩ | ⟨hbad, -, hcount⟩
      · exact absurd hfails id
      · have hmore : 2 < s₁.retryCounter.toNat := by
          rcases settled_iff.mp hsettled with hok | hmore | hno
          · exact absurd hok hbad
          · exact hmore
          · rw [hcounted.mem] at hno
            exact absurd hretries hno
        constructor
        · rintro ⟨t', ht', -, hphase'⟩
          rw [hstarted, List.mem_singleton] at ht'
          subst ht'
          rw [htphase, hp'] at hphase'
          rcases hphase' with hphase' | hphase' <;> cases hphase'
        · intro hlt
          rw [show maxI2CRetries.toNat = 2 from rfl] at hlt
          omega
    · exact fun hnone => absurd (hcurrent'.symm.trans hnone) nofun
    · exact fun _ he => absurd hp' he
    · intro _ _
      rcases h.attempt_counted hactive hcounted hphase with ⟨hok, -, hcount⟩ | ⟨hbad, -, hcount⟩
      · refine ⟨?_, .inl (hgoes.completionStatus.trans hok)⟩
        show (w.i2c.step _).retryCounter.toNat ≤ 3
        rw [hgoes.retryCounter]
        omega
      · refine ⟨?_, .inr fun q hq => ?_⟩
        · show (w.i2c.step _).retryCounter.toNat ≤ 3
          rw [hgoes.retryCounter]
          omega
        · obtain rfl : p = q := Option.some_inj.mp (hcurrent'.symm.trans hq)
          show ¬ (w.i2c.step _).retries p ∨ 2 < (w.i2c.step _).retryCounter.toNat
          rw [hparams, hgoes.retryCounter]
          rcases settled_iff.mp hsettled with hok | hmore | hno
          · exact absurd hok hbad
          · exact .inr hmore
          · rw [hcounted.mem] at hno
            exact .inl hno

include h hactive hhead hcounted in
/-- The request is removed, and the next one is started. -/
theorem Counts.removed {s₂ : I2CManager} (hqueue : s₁.Queue l)
    (hsteady : (w.i2c.step (.handleInterrupt report now)).Steady l')
    (hsettled : s₁.settled (s₁.mem p).params) (hremoved : s₁.Removed p s₂)
    (hstep : w.i2c.step (.handleInterrupt report now) = s₂.startTransaction now) :
    w.Fair (.handleInterrupt report now) ∧ ∃ l', (w.step (.handleInterrupt report now)).Counts l' := by
  have hnot : (s₂.mem p).status ≠ .pending := by
    rcases hremoved.status with hstatus | hstatus <;> rw [hstatus]
    · exact hqueue.completionStatus
    · exact hqueue.overallStatus
  have hother := started_other hstep hsteady hremoved.state (hremoved.bus.trans hcounted.bus) hnot
  have hleaves : ¬ w.i2c.stays (.handleInterrupt report now) := by
    rintro ⟨q, hq, hpending⟩
    obtain rfl : p = q := Option.some_inj.mp (hhead.symm.trans hq)
    rw [hstep, startTransaction_mem] at hpending
    exact hnot hpending
  refine ⟨⟨?_, ?_⟩, l', ?_⟩
  · intro _ q hq t ht hreq
    obtain rfl : p = q := Option.some_inj.mp (hhead.symm.trans hq)
    exact absurd hreq (hother t ht)
  · intro q hq hretries hfails
    obtain rfl : p = q := Option.some_inj.mp (hhead.symm.trans hq)
    have hno : ¬ w.i2c.restarts p (.handleInterrupt report now) :=
      fun ⟨t, ht, hreq, _⟩ => hother t ht hreq
    have hphase : w.i2c.muxPhase ≠ .epilog := by
      cases report with
      | working rxCount => exact absurd hfails id
      | completed rxCount => exact absurd hfails id
      | failed rxCount failure => exact hfails.2
    rcases h.attempt_counted hactive hcounted hphase with
      ⟨-, ⟨rxCount, rfl⟩, -⟩ | ⟨hbad, -, hcount⟩
    · exact absurd hfails id
    · refine ⟨fun hr => absurd hr hno, fun hlt => ?_⟩
      rw [show maxI2CRetries.toNat = 2 from rfl] at hlt
      rcases settled_iff.mp hsettled with hok | hmore | hnoretry
      · exact absurd hok hbad
      · omega
      · rw [hcounted.mem] at hnoretry
        exact absurd hretries hnoretry
  · rw [step_of_not_stays hleaves]
    rw [hstep] at hsteady ⊢
    exact counts_next hsteady hremoved.state hremoved.currentRequest hremoved.retryCounter

include h hactive hhead hcounted in
/-- The request is started again. -/
theorem Counts.retried (hcopes : w.i2c.Copes (.handleInterrupt report now))
    (hsteady : (w.i2c.step (.handleInterrupt report now)).Steady l')
    (hsettled : ¬ s₁.settled (s₁.mem p).params)
    (hstarted : s₁.Started p (w.i2c.step (.handleInterrupt report now))) :
    w.Fair (.handleInterrupt report now) ∧ ∃ l', (w.step (.handleInterrupt report now)).Counts l' := by
  have hcurrent : w.i2c.currentRequest = some p := by
    rw [(h.steady.serves.active hactive).1, ← h.steady.queue.head, hhead]
  rw [settled_iff, hcounted.mem] at hsettled
  push Not at hsettled
  obtain ⟨hbad, hmore, hretries⟩ := hsettled
  -- a failed epilog would start the request again: this is what `Copes` rules out
  have hphase : w.i2c.muxPhase ≠ .epilog := by
    intro hepilog
    obtain ⟨hle, hlast⟩ := h.epilog hactive hepilog
    have hcount := hcounted.retryCounter
    rw [if_neg hbad] at hcount
    rw [hcount, toNat_succ hle] at hmore
    rcases hcounted.completionStatus with ⟨-, hstatus⟩ | ⟨⟨rxCount, failure, rfl⟩, -⟩
    · rcases hlast with hok | hlast
      · exact hbad (hstatus.trans hok)
      · rcases hlast p hcurrent with hno | hover
        · exact hno hretries
        · omega
    · rcases hcopes ⟨hactive, hepilog⟩ p hcurrent with hno | hover
      · exact hno hretries
      · rw [UInt8.le_iff_toNat_le, show maxI2CRetries.toNat = 2 from rfl] at hover
        omega
  obtain ⟨-, -, hle, hnot⟩ := h.attempt hactive hphase
  rcases h.attempt_counted hactive hcounted hphase with ⟨hok, -⟩ | ⟨-, ⟨rxCount, failure, rfl⟩, hcount⟩
  · exact absurd hok hbad
  -- the attempt fails and the request stays at the head of the queue
  have hfails : w.i2c.fails (.handleInterrupt (.failed rxCount failure) now) := ⟨hactive, hphase⟩
  have hstays : w.i2c.stays (.handleInterrupt (.failed rxCount failure) now) := by
    refine ⟨p, hhead, ?_⟩
    rw [hstarted.mem, hcounted.mem]
    refine (h.steady.queue.pending p).mpr (List.mem_of_mem_head? ?_)
    rw [← h.steady.queue.head]
    exact hhead
  obtain ⟨t, hbus, hreq, htphase⟩ := hstarted.bus
  -- so the step starts one transfer, of the same request
  have hone : w.i2c.started (.handleInterrupt (.failed rxCount failure) now) = [t] := by
    apply started_eq
    rw [hbus, hcounted.bus]
    rfl
  refine ⟨⟨?_, ?_⟩, l', ?_⟩
  · simp [hnot]
  · intro q hq _ _
    obtain rfl : p = q := Option.some_inj.mp (hhead.symm.trans hq)
    refine ⟨fun _ => ?_, fun _ => ?_⟩
    · rw [show maxI2CRetries.toNat = 2 from rfl]
      omega
    · refine ⟨t, ?_, hreq, ?_⟩
      · rw [hone]
        exact List.mem_singleton_self t
      · rw [htphase]
        exact hstarted.muxPhase
  · rw [step_of_stays hstays, if_pos hfails]
    refine ⟨hsteady, fun _ => hstarted.state, ?_, ?_, ?_⟩
    · exact fun hnone => absurd (hstarted.currentRequest.symm.trans hnone) nofun
    · intro _ _
      refine ⟨hstarted.completionStatus, ?_, ?_, ?_⟩
      · rw [hstarted.retryCounter, hcount]
      · show w.failures + 1 ≤ 2
        omega
      · simp [hnot, delivers]
    · intro _ hepilog
      rcases hstarted.muxPhase with hp | hp <;> exact absurd (hp.symm.trans hepilog) nofun

end Ended

/-- The request that is carried out is the first one. -/
theorem serving (h : s.Steady l) (hactive : s.state = .active) :
    ∃ p, s.currentRequest = some p ∧ s.queueHead = some p ∧ (s.mem p).status = .pending := by
  obtain ⟨hcurrent, hne⟩ := h.serves.active hactive
  obtain ⟨p, l, rfl⟩ := List.exists_cons_of_ne_nil hne
  exact ⟨p, hcurrent, h.queue.head, (h.queue.pending p).mpr List.mem_cons_self⟩

theorem not_active (h : s.Steady l) (hnone : s.currentRequest = none) : s.state ≠ .active := by
  intro hactive
  obtain ⟨p, hcurrent, -⟩ := serving h hactive
  cases hnone.symm.trans hcurrent

theorem active_of_fails (h : s.fails op) : s.state = .active := by
  unfold fails at h
  split at h
  · exact h.1
  · exact h.elim

theorem active_of_delivers (h : s.delivers op) : s.state = .active := by
  unfold delivers at h
  split at h
  · exact h.1
  · exact h.elim

/-- An event that starts nothing, while no request is carried out. -/
theorem Counts.rests (h : w.Counts l) (hsteady : (w.i2c.step op).Steady l)
    (hnone : w.i2c.currentRequest = none) (hcurrent : (w.i2c.step op).currentRequest = none)
    (hcounter : (w.i2c.step op).retryCounter = w.i2c.retryCounter)
    (hbus : (w.i2c.step op).bus = w.i2c.bus) : w.Fair op ∧ ∃ l', (w.step op).Counts l' := by
  have hstate := not_active h.steady hnone
  have hfails : ¬ w.i2c.fails op := fun hf => hstate (active_of_fails hf)
  have hdelivers : ¬ w.i2c.delivers op := fun hd => hstate (active_of_delivers hd)
  obtain ⟨hzero, hnot, hnever⟩ := h.idle hnone
  have hstep : w.step op = ⟨w.i2c.step op, false, 0⟩ := by
    simp [step, hnot, hnever, hfails, hdelivers]
  refine ⟨Fair.of_quiet hbus hfails, l, ?_⟩
  rw [hstep]
  refine ⟨hsteady, fun hc => absurd hcurrent hc, fun _ => ⟨hcounter.trans hzero, rfl, rfl⟩, ?_, ?_⟩
  · exact fun hactive => absurd hactive (not_active hsteady hcurrent)
  · exact fun hactive => absurd hactive (not_active hsteady hcurrent)

/-- An event leaves the transaction of the hardware alone. -/
structure LeavesAlone (s s' : I2CManager) : Prop where
  state : s'.state = s.state
  currentRequest : s'.currentRequest = s.currentRequest
  completionStatus : s'.completionStatus = s.completionStatus
  muxPhase : s'.muxPhase = s.muxPhase
  retryCounter : s'.retryCounter = s.retryCounter
  params : ∀ p, (s.mem p).status = .pending → (s'.mem p).params = (s.mem p).params
  status : ∀ p, (s.mem p).status = .pending → (s'.mem p).status = .pending
  bus : s'.bus = s.bus

theorem LeavesAlone.refl (s : I2CManager) : LeavesAlone s s :=
  ⟨rfl, rfl, rfl, rfl, rfl, fun _ _ => rfl, fun _ h => h, rfl⟩

/-- A step that leaves the attempts alone keeps their count. -/
theorem Counts.leavesAlone {l' : List Nat} (h : w.Counts l) (hsteady : (w.i2c.step op).Steady l')
    (halone : LeavesAlone w.i2c (w.i2c.step op)) (hfails : ¬ w.i2c.fails op)
    (hdelivers : ¬ w.i2c.delivers op) : w.Fair op ∧ ∃ l', (w.step op).Counts l' := by
  refine ⟨Fair.of_quiet halone.bus hfails, l', ?_⟩
  have hstep : w.step op = ⟨w.i2c.step op, w.delivered, w.failures⟩ := by
    by_cases hcurrent : w.i2c.currentRequest = none
    · obtain ⟨-, hnot, hnever⟩ := h.idle hcurrent
      simp [step, hnot, hnever, hfails, hdelivers]
    · obtain ⟨p, -, hhead, hpending⟩ := serving h.steady (h.busy hcurrent)
      rw [step_of_stays ⟨p, hhead, halone.status p hpending⟩]
      simp [hfails, hdelivers]
  rw [hstep]
  refine ⟨hsteady, ?_, ?_, ?_, ?_⟩
  · show (w.i2c.step op).currentRequest ≠ none → (w.i2c.step op).state = .active
    rw [halone.currentRequest, halone.state]
    exact h.busy
  · show (w.i2c.step op).currentRequest = none → (w.i2c.step op).retryCounter = 0 ∧ _
    rw [halone.currentRequest, halone.retryCounter]
    exact h.idle
  · show (w.i2c.step op).state = .active → (w.i2c.step op).muxPhase ≠ .epilog →
      (w.i2c.step op).completionStatus = .ok ∧ (w.i2c.step op).retryCounter.toNat = _ ∧ _
    rw [halone.state, halone.muxPhase, halone.completionStatus, halone.retryCounter]
    exact h.attempt
  · show (w.i2c.step op).state = .active → (w.i2c.step op).muxPhase = .epilog →
      (w.i2c.step op).retryCounter.toNat ≤ 3 ∧ ((w.i2c.step op).completionStatus = .ok ∨
        ∀ p ∈ (w.i2c.step op).currentRequest, ¬ (w.i2c.step op).retries p ∨
          2 < (w.i2c.step op).retryCounter.toNat)
    rw [halone.state, halone.muxPhase, halone.completionStatus, halone.retryCounter,
      halone.currentRequest]
    intro hactive hepilog
    obtain ⟨hle, hlast⟩ := h.epilog hactive hepilog
    refine ⟨hle, hlast.imp_right fun hlast q hq => ?_⟩
    obtain ⟨p, hcurrent, -, hpending⟩ := serving h.steady hactive
    obtain rfl : p = q := Option.some_inj.mp (hcurrent.symm.trans hq)
    rw [retries, halone.params p hpending]
    exact hlast p hq

theorem hardware_retryCounter (report : Report) :
    (s.hardware report).retryCounter = s.retryCounter := by
  cases report <;> rfl

theorem hardware_bus (report : Report) : (s.hardware report).bus = s.bus := by
  cases report <;> rfl

/-- The hardware is still at work, and nothing is done. -/
theorem handleInterrupt_of_ne (h : s.Steady l)
    (hne : s.currentRequest = none ∨ (s.hardware report).state ≠ .completed) :
    s.handleInterrupt now report = s.hardware report := by
  unfold I2CManager.handleInterrupt
  dsimp only
  rw [hardware_currentRequest]
  split
  · exact (h.hardware report).startNext
  · next hcurrent =>
    split
    · next hdone =>
      rcases hne with hnone | hne
      · cases hnone.symm.trans hcurrent
      · exact absurd hdone.1 hne
    · exact (h.hardware report).startNext

/-- An interrupt. -/
theorem Counts.handleInterrupt (h : w.Counts l)
    (hcopes : w.i2c.Copes (.handleInterrupt report now)) :
    w.Fair (.handleInterrupt report now) ∧
      ∃ l', (w.step (.handleInterrupt report now)).Counts l' := by
  by_cases hcurrent : w.i2c.currentRequest = none
  · have hstep : w.i2c.step (.handleInterrupt report now) = w.i2c.hardware report :=
      handleInterrupt_of_ne h.steady (.inl hcurrent)
    refine h.rests ?_ hcurrent ?_ ?_ ?_ <;> rw [hstep]
    · exact h.steady.hardware report
    · exact (hardware_currentRequest report).trans hcurrent
    · exact hardware_retryCounter report
    · exact hardware_bus report
  · have hactive := h.busy hcurrent
    by_cases hdone : (w.i2c.hardware report).state = .completed
    · obtain ⟨p, hp, hhead, -⟩ := serving h.steady hactive
      have hcounted := counted_countRetry hactive hdone
      obtain ⟨l', hsteady, -⟩ : ∃ l', (w.i2c.handleInterrupt now report).Steady l' ∧
          w.i2c.Moves (.handleInterrupt report now) l l' := h.steady.handleInterrupt report
      have hended : (w.i2c.hardware report).countRetry.Ended p now
          (w.i2c.handleInterrupt now report) := handleInterrupt_ended hp hhead hdone
      cases hended with
      | goesOn hsettled hgoes =>
        exact h.goesOn hactive hhead hcounted hsteady hsettled hgoes
      | removed s₂ hsettled hremoved hstep =>
        have hqueue := (h.steady.queue.hardware report).countRetry
        exact h.removed hactive hhead hcounted hqueue hsteady hsettled hremoved hstep
      | retried hsettled hstarted =>
        exact h.retried hactive hhead hcounted hcopes hsteady hsettled hstarted
    · have hstep : w.i2c.step (.handleInterrupt report now) = w.i2c.hardware report :=
        handleInterrupt_of_ne h.steady (.inr hdone)
      cases report with
      | working rxCount =>
        have halone : LeavesAlone w.i2c (w.i2c.step (.handleInterrupt (.working rxCount) now)) := by
          rw [hstep]
          exact ⟨rfl, rfl, rfl, rfl, rfl, fun _ _ => rfl, fun _ hp => hp, rfl⟩
        have hsteady : (w.i2c.step (.handleInterrupt (.working rxCount) now)).Steady l := by
          rw [hstep]
          exact h.steady.hardware _
        exact h.leavesAlone hsteady halone id id
      | completed rxCount => exact absurd rfl hdone
      | failed rxCount failure => exact absurd rfl hdone

/-- The first request takes too long. -/
theorem checkForTimeout_removes (hcurrent : s.currentRequest = some p)
    (hhead : s.queueHead = some p) (hactive : s.state = .active) (hexpired : s.expired now) :
    ∃ s₂ : I2CManager, s.checkForTimeout now = s₂.startTransaction now ∧ s₂.state = .free ∧
      s₂.currentRequest = none ∧ s₂.retryCounter = s.retryCounter ∧ s₂.bus = s.bus ∧
      (s₂.mem p).status ≠ .pending := by
  unfold I2CManager.checkForTimeout
  rw [hhead]
  dsimp only
  rw [if_pos ⟨hactive, hcurrent, hexpired⟩]
  refine ⟨_, rfl, rfl, rfl, rfl, rfl, ?_⟩
  simp [dequeue, write]

/-- A time-out: the request is removed, and it has not been retried. -/
theorem Counts.checkForTimeout (h : w.Counts l) (hcopes : w.i2c.Copes (.checkForTimeout now)) :
    w.Fair (.checkForTimeout now) ∧ ∃ l', (w.step (.checkForTimeout now)).Counts l' := by
  by_cases hexpired : w.i2c.state = .active ∧ w.i2c.expired now
  · obtain ⟨hactive, hexpired⟩ := hexpired
    obtain ⟨l', hsteady, -⟩ : ∃ l', (w.i2c.step (.checkForTimeout now)).Steady l' ∧
        w.i2c.Moves (.checkForTimeout now) l l' := h.steady.step trivial
    obtain ⟨p, hcurrent, hhead, -⟩ := serving h.steady hactive
    obtain ⟨s₂, hstep, hfree, hnone, hcounter, hbus, hnot⟩ :=
      checkForTimeout_removes hcurrent hhead hactive hexpired
    change w.i2c.step (.checkForTimeout now) = _ at hstep
    have hleaves : ¬ w.i2c.stays (.checkForTimeout now) := by
      rintro ⟨q, hq, hpending⟩
      obtain rfl : p = q := Option.some_inj.mp (hhead.symm.trans hq)
      rw [hstep, startTransaction_mem] at hpending
      exact hnot hpending
    refine ⟨⟨?_, fun _ _ _ hf => absurd hf id⟩, l', ?_⟩
    · intro _ q hq t ht hreq
      obtain rfl : p = q := Option.some_inj.mp (hhead.symm.trans hq)
      exact absurd hreq (started_other hstep hsteady hfree hbus hnot t ht)
    · rw [step_of_not_stays hleaves]
      rw [hstep] at hsteady ⊢
      exact counts_next hsteady hfree hnone (hcounter.trans (hcopes ⟨hactive, hexpired⟩))
  · have hstep : w.i2c.step (.checkForTimeout now) = w.i2c := by
      show w.i2c.checkForTimeout now = w.i2c
      unfold I2CManager.checkForTimeout
      split
      · rfl
      · rw [if_neg fun hexp => hexpired ⟨hexp.1, hexp.2.2⟩]
    have halone : LeavesAlone w.i2c (w.i2c.step (.checkForTimeout now)) := by
      rw [hstep]
      exact .refl _
    have hsteady : (w.i2c.step (.checkForTimeout now)).Steady l := by
      rw [hstep]
      exact h.steady
    exact h.leavesAlone hsteady halone id id

theorem write_mem {f : I2CRB → I2CRB} {q : Nat} :
    (s.write q f).mem p = if p = q then f (s.mem q) else s.mem p := by
  simp only [write, Function.update_apply]

/-- A block that is put on the queue. -/
theorem leavesAlone_enqueue {req : Nat} : LeavesAlone s (s.enqueue req) := by
  unfold enqueue
  dsimp only
  split
  · refine ⟨rfl, rfl, rfl, rfl, rfl, ?_, ?_, rfl⟩
    all_goals
      intro p hp
      simp only [write_mem]
      grind
  · refine ⟨rfl, rfl, rfl, rfl, rfl, ?_, ?_, rfl⟩
    all_goals
      intro p hp
      simp only [write_mem]
      grind

/-- A request is queued. -/
theorem Counts.queueRequest {req : Nat} (h : w.Counts l)
    (hwaits : w.i2c.Waits (.queueRequest req now)) :
    w.Fair (.queueRequest req now) ∧ ∃ l', (w.step (.queueRequest req now)).Counts l' := by
  obtain ⟨l', hsteady, -⟩ := h.steady.step hwaits
  by_cases hnull : nullRead (w.i2c.mem req).params
  · have hstep : w.i2c.step (.queueRequest req now) = w.i2c := if_pos hnull
    exact h.leavesAlone hsteady (by rw [hstep]; exact .refl _) id id
  · have hstep : w.i2c.step (.queueRequest req now) = (w.i2c.enqueue req).startTransaction now :=
      if_neg hnull
    have halone : LeavesAlone w.i2c (w.i2c.enqueue req) := leavesAlone_enqueue
    by_cases hfree : w.i2c.state = .free
    · -- nothing waits, and the new request is started
      have hnil := h.steady.serves.free hfree
      have hhead : w.i2c.queueHead = none := by
        rw [h.steady.queue.head, hnil]
        rfl
      have hnone : w.i2c.currentRequest = none := by
        rcases h.steady.serves.current with hc | hc
        · exact hc
        · rw [hc, hnil]
          rfl
      have hleaves : ¬ w.i2c.stays (.queueRequest req now) := by
        rintro ⟨q, hq, -⟩
        cases hhead.symm.trans hq
      refine ⟨⟨?_, ?_⟩, l', ?_⟩
      · intro _ q hq
        cases hhead.symm.trans hq
      · intro q hq
        cases hhead.symm.trans hq
      · rw [step_of_not_stays hleaves]
        rw [hstep] at hsteady ⊢
        refine counts_next hsteady (halone.state.trans hfree) (halone.currentRequest.trans hnone) ?_
        exact halone.retryCounter.trans (h.idle hnone).1
    · have hsame : w.i2c.step (.queueRequest req now) = w.i2c.enqueue req := by
        rw [hstep]
        apply startTransaction_of_ne
        rw [halone.state]
        exact hfree
      exact h.leavesAlone hsteady (by rw [hsame]; exact halone) id id

/-- One event. -/
theorem Counts.step (h : w.Counts l) (hwaits : w.i2c.Waits op) (hcopes : w.i2c.Copes op) :
    w.Fair op ∧ ∃ l', (w.step op).Counts l' := by
  cases op with
  | setParams req params =>
    obtain ⟨l', hsteady, -⟩ := h.steady.step hwaits
    have halone : LeavesAlone w.i2c (w.i2c.step (.setParams req params)) := by
      refine ⟨rfl, rfl, rfl, rfl, rfl, ?_, ?_, rfl⟩
      · intro p hp
        have hne : p ≠ req := fun heq => hwaits (heq ▸ hp)
        simp [I2CManager.step, setParams, write, hne]
      · intro p hp
        have hne : p ≠ req := fun heq => hwaits (heq ▸ hp)
        simpa [I2CManager.step, setParams, write, hne] using hp
    exact h.leavesAlone hsteady halone id id
  | queueRequest req now => exact h.queueRequest hwaits
  | handleInterrupt report now => exact h.handleInterrupt hcopes
  | checkForTimeout now => exact h.checkForTimeout hcopes
  | setTimeout value =>
    obtain ⟨l', hsteady, -⟩ := h.steady.step hwaits
    exact h.leavesAlone hsteady ⟨rfl, rfl, rfl, rfl, rfl, fun _ _ => rfl, fun _ hp => hp, rfl⟩ id id
  | setMuxCount count =>
    obtain ⟨l', hsteady, -⟩ := h.steady.step hwaits
    exact h.leavesAlone hsteady ⟨rfl, rfl, rfl, rfl, rfl, fun _ _ => rfl, fun _ hp => hp, rfl⟩ id id

theorem counts_start (h : s.New) : (start s).Counts [] := by
  refine ⟨h.steady, fun hc => absurd h.currentRequest hc, fun _ => ⟨h.retryCounter, rfl, rfl⟩, ?_, ?_⟩
  · exact fun hactive => absurd hactive (not_active h.steady h.currentRequest)
  · exact fun hactive => absurd hactive (not_active h.steady h.currentRequest)

theorem run_fair (h : w.Counts l) {ops : List Op}
    (hops : Along step (fun w op => w.i2c.Waits op ∧ w.i2c.Copes op) w ops) :
    Along step Fair w ops := by
  induction ops generalizing w l with
  | nil => trivial
  | cons op ops ih =>
    obtain ⟨hfair, l', hcounts⟩ := h.step hops.1.1 hops.1.2
    exact ⟨hfair, ih hcounts hops.2⟩

/-- **Every request has its own retries, and its payload is sent once**, in every run in which no
epilog fails that may be retried, and no request times out that has been retried. -/
theorem i2c_retries {i2c : I2CManager} (h : i2c.New) {ops : List Op}
    (hops : Along step (fun w op => w.i2c.Waits op ∧ w.i2c.Copes op) (start i2c) ops) :
    Along step Fair (start i2c) ops :=
  run_fair (counts_start h) hops

instance (w : Tried) : DecidablePred w.Fair := fun op =>
  decidable_of_iff ((w.delivered → ∀ p ∈ w.i2c.queueHead, ∀ t ∈ w.i2c.started op, t.req = p →
      t.phase ≠ .payload ∧ t.phase ≠ .off) ∧
    ∀ p ∈ w.i2c.queueHead, w.i2c.retries p → w.i2c.fails op →
      (w.i2c.restarts p op ↔ w.failures < maxI2CRetries.toNat))
    ⟨fun h => ⟨h.1, h.2⟩, fun h => ⟨h.sentOnce, h.retried⟩⟩

open Watched in
/-- A request behind a multiplexer fails three times and is given up, a second one fails in its
payload, is carried out when it is tried again, and its epilog is completed. -/
theorem i2c_retries_two :
    let ops : List Op := [.setParams 7 ⟨Operation.send, ⟨0, 3, 0x20⟩, 100, 2, 0, 0⟩,
      .queueRequest 7 10, .setParams 9 ⟨Operation.send, ⟨1, 3, 0x27⟩, 200, 1, 0, 0⟩,
      .queueRequest 9 30, .handleInterrupt (.failed 0 .negativeAcknowledge) 40,
      .handleInterrupt (.failed 0 .busError) 50, .handleInterrupt (.failed 0 .busError) 60,
      .handleInterrupt (.completed 0) 70, .handleInterrupt (.failed 0 .arbitrationLost) 80,
      .handleInterrupt (.completed 0) 90, .handleInterrupt (.completed 0) 100,
      .handleInterrupt (.completed 0) 110]
    (((run step (start twoMuxes) ops).i2c.mem 7).status = .busError ∧
      ((run step (start twoMuxes) ops).i2c.mem 9).status = .ok) ∧
      Along step Fair (start twoMuxes) ops :=
  ⟨by decide +kernel, i2c_retries twoMuxes_new (by decide +kernel)⟩

open Watched in
/-- The epilog of a request fails, and its payload is sent again. And a request times out that has
been retried twice, and the next one is given up at its first failure. -/
theorem i2c_retries_shared : twoMuxes.New ∧
    let failedEpilog : List Op := [.setParams 7 ⟨Operation.send, ⟨0, 3, 0x20⟩, 100, 2, 0, 0⟩,
      .queueRequest 7 10, .handleInterrupt (.completed 0) 20, .handleInterrupt (.completed 0) 30,
      .handleInterrupt (.failed 0 .negativeAcknowledge) 40, .handleInterrupt (.completed 0) 50]
    let timedOut : List Op := [.setParams 7 ⟨Operation.send, ⟨muxNone, 254, 0x20⟩, 100, 2, 0, 0⟩,
      .queueRequest 7 10, .handleInterrupt (.failed 0 .busError) 20,
      .handleInterrupt (.failed 0 .busError) 30, .checkForTimeout 100100,
      .setParams 9 ⟨Operation.send, ⟨muxNone, 254, 0x27⟩, 200, 1, 0, 0⟩, .queueRequest 9 100110,
      .handleInterrupt (.failed 0 .arbitrationLost) 100120]
    let Waits := fun (w : Tried) op => w.i2c.Waits op
    (Along step Waits (start twoMuxes) failedEpilog ∧
        ¬ Along step Fair (start twoMuxes) failedEpilog ∧
        ((run step (start twoMuxes) failedEpilog).i2c.bus.filter
          fun t => t.phase = .payload).map (·.req) = [7, 7]) ∧
      Along step Waits (start twoMuxes) timedOut ∧ ¬ Along step Fair (start twoMuxes) timedOut ∧
        (run step (start twoMuxes) timedOut).i2c.bus.map (·.req) = [9, 7, 7, 7] :=
  ⟨twoMuxes_new, by decide +kernel⟩

end Tried

end CommandStation.I2C
