import CommandStation.EXRAIL2.Resuming
import CommandStation.EXRAIL2.Pausing
import CommandStation.DCC.Run

/-!
# Killing blink tasks

`killBlinkOnVpin` walks along the ring until it is back at the task it has started at. It does what
it is for, unless it kills that very task while there are others: then nothing leads back to the
start, and the loop goes round for ever, or on to a task that has been deleted.
-/

namespace CommandStation

open CommandStation.Lib

/-! ## Rings with some members left out -/

namespace Tasks

variable {P P' : RMFT2 → Prop} [DecidablePred P] [DecidablePred P'] {t t' t'' : Tasks} {a : Addr}
  {xs ys : List Addr}

/-- The tasks of the ring `xs` with `P` are gone, the others are the same and in their order. -/
structure Without (P : RMFT2 → Prop) [DecidablePred P] (xs : List Addr) (t t' : Tasks) : Prop where
  circle : Circle t'.next (xs.filter fun a => ¬ P (t.mem a))
  perm : (xs.filter fun a => ¬ P (t.mem a)).Perm t'.live
  others : ∀ a, SameObject (t'.mem a) (t.mem a)

theorem SameObject.trans {task task' task'' : RMFT2} (h : SameObject task' task)
    (h' : SameObject task'' task') : SameObject task'' task := by
  unfold SameObject at *
  rw [h', h]

/-- Only what `P` is on the members matters. -/
theorem Without.congr (h : Without P xs t t') (heq : ∀ a ∈ xs, P (t.mem a) ↔ P' (t.mem a)) :
    Without P' xs t t' := by
  have hfilter : (xs.filter fun a => ¬ P' (t.mem a)) = xs.filter fun a => ¬ P (t.mem a) := by
    refine List.filter_congr fun a ha => ?_
    simp [heq a ha]
  exact ⟨hfilter ▸ h.circle, hfilter ▸ h.perm, h.others⟩

/-- Where the list starts does not matter. -/
theorem Without.rotate (h : Without P (xs ++ ys) t t') : Without P (ys ++ xs) t t' := by
  obtain ⟨hcircle, hperm, hothers⟩ := h
  rw [List.filter_append] at hcircle hperm
  refine ⟨?_, ?_, hothers⟩
  · rw [List.filter_append]
    exact hcircle.rotate
  · rw [List.filter_append]
    exact List.perm_append_comm.trans hperm

/-- The task at `a` has been deleted before the others. -/
theorem Without.of_killed (hk : Killed a t t') (h : Without P (xs ++ ys) t' t'') (ha : P (t.mem a))
    (hP : ∀ b, P (t'.mem b) ↔ P (t.mem b)) : Without P (xs ++ a :: ys) t t'' := by
  have hfilter : ((xs ++ a :: ys).filter fun b => ¬ P (t.mem b)) =
      (xs ++ ys).filter fun b => ¬ P (t'.mem b) := by
    simp [List.filter_append, ha, hP]
  exact ⟨hfilter ▸ h.circle, hfilter ▸ h.perm, fun b => (hk.others b).trans (h.others b)⟩

/-- There is nothing to leave out. -/
theorem without_self (hc : Circle t.next xs) (hperm : xs.Perm t.live) (h : ∀ a ∈ xs, ¬ P (t.mem a)) :
    Without P xs t t := by
  have hfilter : (xs.filter fun a => ¬ P (t.mem a)) = xs :=
    List.filter_eq_self.mpr fun a ha => by simpa using h a ha
  exact ⟨hfilter.symm ▸ hc, hfilter.symm ▸ hperm, fun _ => rfl⟩

/-- Members are left out of a ring twice. -/
theorem Without.trans (h : Without P xs t t')
    (h' : Without P' (xs.filter fun a => ¬ P (t.mem a)) t' t'')
    (hP' : ∀ a, P' (t'.mem a) ↔ P' (t.mem a)) : Without (fun task => P task ∨ P' task) xs t t'' := by
  have hfilter : (xs.filter fun a => ¬ (P (t.mem a) ∨ P' (t.mem a))) =
      (xs.filter fun a => ¬ P (t.mem a)).filter fun a => ¬ P' (t'.mem a) := by
    rw [List.filter_filter]
    refine List.filter_congr fun a _ => ?_
    simp [hP', Bool.and_comm]
  exact ⟨hfilter ▸ h'.circle, hfilter ▸ h'.perm, fun a => (h.others a).trans (h'.others a)⟩

/-- The result determines which members are left out. -/
theorem Without.iff_of_without (h : Without P xs t t') (h' : Without P' xs t t') (ha : a ∈ xs) :
    P (t.mem a) ↔ P' (t.mem a) := by
  have hmem := (h.perm.trans h'.perm.symm).mem_iff (a := a)
  simpa [List.mem_filter, ha, not_iff_not] using hmem

end Tasks

/-! ## Which tasks are killed -/

namespace RMFT2

variable {pin count : UInt16} {task task' : RMFT2}

/-- The task blinks one of the `count` pins from `pin` on. -/
def BlinksIn (pin count : UInt16) (task : RMFT2) : Prop :=
  task.isBlink ∧ pin.toNat ≤ task.blinkPin.toNat ∧ task.blinkPin.toNat < pin.toNat + count.toNat

/-- The test of the source, with the last pin in 16 bits. -/
def Tested (pin count : UInt16) (task : RMFT2) : Prop :=
  task.isBlink ∧ pin ≤ task.blinkPin ∧ task.blinkPin ≤ pin + count - 1

instance : DecidablePred (BlinksIn pin count) := fun _ => inferInstanceAs (Decidable (_ ∧ _))

instance : DecidablePred (Tested pin count) := fun _ => inferInstanceAs (Decidable (_ ∧ _))

theorem tested_congr (h : Tasks.SameObject task' task) : Tested pin count task' ↔ Tested pin count task := by
  unfold Tested
  rw [h.isBlink, h.blinkPin]

theorem blinksIn_congr (h : Tasks.SameObject task' task) :
    BlinksIn pin count task' ↔ BlinksIn pin count task := by
  unfold BlinksIn
  rw [h.isBlink, h.blinkPin]

theorem toNat_lastPin :
    (pin + count - 1).toNat = (pin.toNat + count.toNat + 65535) % 65536 := by
  simp only [UInt16.toNat_sub, UInt16.toNat_add]
  have : (1 : UInt16).toNat = 1 := rfl
  omega

/-- The pins are in 16 bits and there is one, or the first one is not 0. -/
theorem tested_iff (hfits : pin.toNat + count.toNat ≤ 65536) (hsome : pin ≠ 0 ∨ count ≠ 0) :
    Tested pin count task ↔ BlinksIn pin count task := by
  have hnat : pin.toNat + count.toNat ≠ 0 := by
    intro hzero
    rcases hsome with hpin | hcount
    · exact hpin (UInt16.toNat_inj.mp (show pin.toNat = 0 by omega))
    · exact hcount (UInt16.toNat_inj.mp (show count.toNat = 0 by omega))
  simp only [Tested, BlinksIn, UInt16.le_iff_toNat_le, toNat_lastPin]
  have : (pin.toNat + count.toNat + 65535) % 65536 = pin.toNat + count.toNat - 1 := by omega
  rw [this]
  constructor
  · rintro ⟨hblink, hfirst, hlast⟩
    exact ⟨hblink, hfirst, by omega⟩
  · rintro ⟨hblink, hfirst, hlast⟩
    exact ⟨hblink, hfirst, by omega⟩

/-- Beyond 16 bits the last pin is before the first one. -/
theorem not_tested (hover : 65536 < pin.toNat + count.toNat) : ¬ Tested pin count task := by
  rintro ⟨-, hfirst, hlast⟩
  rw [UInt16.le_iff_toNat_le] at hfirst hlast
  rw [toNat_lastPin] at hlast
  have := count.toNat_lt
  omega

/-- No pins from 0 on: the last pin is the greatest there is. -/
theorem tested_zero : Tested 0 0 task ↔ task.isBlink := by
  have hlast : task.blinkPin ≤ 0 + 0 - 1 := by
    rw [UInt16.le_iff_toNat_le, toNat_lastPin]
    have := task.blinkPin.toNat_lt
    simp only [UInt16.toNat_zero]
    omega
  exact ⟨fun h => h.1, fun h => ⟨h, by simp [UInt16.le_iff_toNat_le], hlast⟩⟩

end RMFT2

namespace Exrail

open CommandStation.Tasks RMFT2

variable {F : Crash → Prop} {script : Script} {w : Inputs} {s s' : Exrail} {T : Targets}
  {pin count : UInt16} {a b l : Addr} {xs front back : List Addr} {turns : Nat}

/-! ## The walk -/

/-- One turn of the loop of `killBlinkOnVpin`. -/
def killBlinkTurn (w : Inputs) (pin count : UInt16) (stoptask : Option Addr) (a : Addr) (_ : Unit) :
    Exr (Option Addr × Unit) := do
  let task ← readTask a
  when (task.isBlink ∧ pin ≤ task.blinkPin ∧ task.blinkPin ≤ pin + count - 1) (kill w a)
  if some task.next = stoptask then pure (none, ()) else pure (some task.next, ())

/-- `killBlinkOnVpin` with a bound on the turns of its loop. -/
def killBlinkWithin (script : Script) (w : Inputs) (pin count : UInt16) (turns : Nat) : Exr Unit :=
  when (script.has Script.featureBlink) do
    let s ← get
    Lib.loop (killBlinkTurn w pin count s.tasks.loopTask) .endlessLoop turns s.tasks.loopTask ()

theorem killBlinkOnVpin_eq :
    killBlinkOnVpin script w pin count s = killBlinkWithin script w pin count s.tasks.live.length s := by
  unfold killBlinkOnVpin killBlinkWithin when
  split
  · rfl
  · rfl

/-- The loco table can be worked on. -/
def Driven (s : Exrail) : Prop := ∃ T, s.Shows T

/-- A task is deleted, after its loco has been stopped. -/
theorem Driven.wp_kill {Q : Unit → Exrail → Prop} (h : s.Driven) (hring : s.tasks.Ring)
    (ha : a ∈ s.tasks.live) (hQ : ∀ s', s'.Driven → Tasks.Killed a s.tasks s'.tasks → Q () s') :
    wp F (kill w a) Q s := by
  have hdelete : ∀ s' : Exrail, s'.tasks = s.tasks → s'.Driven →
      wp F (onTasks (destruct a)) Q s' := by
    intro s' htasks h'
    simp only [onTasks, wp_zoom, htasks]
    exact wp_destruct hring ha fun t' hk => hQ _ h' hk
  simp only [kill, wp_bind]
  refine wp_read ha (wp_when ?_ fun _ => hdelete s rfl h)
  rintro ⟨hloco, -⟩
  obtain ⟨T, hT⟩ := h
  simp only [setSpeed, setThrottle, DCC.getThrottleDirection, wp_bind, wp_pure]
  refine wp_station ?_
  simp only [wp_bind, wp_pure]
  refine DCC.wp_getThrottleSpeedByte hT (wp_station ?_)
  have hstop : ∀ direction : Bool, wp (fun fault => F (.station fault))
      (DCC.setThrottle (s.tasks.mem a).loco 1 direction w.millis) (fun _ station => ∃ T, station.Shows T)
      s.rails.station := by
    have hne : (s.tasks.mem a).loco ≠ 0 := fun heq => by simp [heq] at hloco
    intro direction
    cases direction with
    | false => exact wp_mono (DCC.wp_setThrottle (p := 1) hT hne) fun _ _ h => ⟨_, h⟩
    | true => exact wp_mono (DCC.wp_setThrottle (p := 0x81) hT hne) fun _ _ h => ⟨_, h⟩
  exact wp_mono (hstop _) fun _ station h => hdelete _ rfl h

/-- The walk has been round, and has left the tasks out that it should. -/
structure Walked (pin count : UInt16) (xs : List Addr) (s s' : Exrail) : Prop where
  without : Without (Tested pin count) xs s.tasks s'.tasks
  ring : s'.tasks.Ring
  driven : s'.Driven

/-- The walk from the tasks `back` on to `l`, the first one of the ring, which stays. -/
theorem wp_walk (hs : s.Driven) (hring : s.tasks.Ring) (hc : Circle s.tasks.next (front ++ back))
    (hperm : (front ++ back).Perm s.tasks.live) (hhead : (front ++ back).head? = some l)
    (hkept : ∀ a ∈ front, ¬ Tested pin count (s.tasks.mem a))
    (hl : ¬ Tested pin count (s.tasks.mem l)) (hturns : turns < back.length → F .endlessLoop) :
    wp F (Lib.loop (killBlinkTurn w pin count (some l)) .endlessLoop turns back.head? ())
      (fun _ s' => Walked pin count (front ++ back) s s') s := by
  induction back generalizing front s turns with
  | nil =>
    rw [List.append_nil] at hc hperm ⊢
    rw [List.head?_nil, wp_loop_none]
    exact ⟨without_self hc hperm hkept, hring, hs⟩
  | cons a back ih =>
    cases turns with
    | zero => exact hturns (Nat.succ_pos _)
    | succ turns =>
    rw [List.head?_cons, Lib.loop, wp_bind]
    have hturns' : turns < back.length → F .endlessLoop := fun hlt => hturns (Nat.succ_lt_succ hlt)
    have ha : a ∈ s.tasks.live := hperm.subset (by simp)
    have hhead' : (front ++ [a]).head? = some l := by
      rw [← hhead]
      cases front <;> rfl
    -- the walk ends behind the last task
    have hnext : ∀ {s' : Exrail} {Q : Unit → Exrail → Prop},
        wp F (Lib.loop (killBlinkTurn w pin count (some l)) .endlessLoop turns back.head? ()) Q s' →
        wp F (if some (s.tasks.mem a).next = some l then pure (none, ())
          else pure (some (s.tasks.mem a).next, ()) : Exr (Option Addr × Unit))
          (fun r => wp F (Lib.loop (killBlinkTurn w pin count (some l)) .endlessLoop turns r.1 r.2) Q)
          s' := by
      intro s' Q hQ
      have hend : some (s.tasks.next a) = some l ↔ back = [] := by
        rw [← hhead']
        exact hc.next_eq_head_iff
      refine wp_ite (fun heq => ?_) fun hmore => ?_
      · rwa [hend.mp heq] at hQ
      · have hp : some (s.tasks.next a) = back.head? := by
          rw [hc.next_eq, if_neg fun hnil => hmore (hend.mpr hnil)]
        rwa [← hp] at hQ
    simp only [killBlinkTurn, wp_bind]
    refine wp_read ha (wp_when (fun hkill => ?_) fun hkeep => hnext ?_)
    · -- the task is not the one where the walk ends
      have hne : front ≠ [] := by
        rintro rfl
        obtain rfl := Option.some.inj hhead
        exact hl hkill
      refine hs.wp_kill hring ha fun s' hs' hk => hnext ?_
      have hsame : ∀ b, Tested pin count (s'.tasks.mem b) ↔ Tested pin count (s.tasks.mem b) :=
        fun b => tested_congr (hk.others b)
      have hperm' : (front ++ back).Perm s'.tasks.live := by
        rw [hk.live]
        simpa using (List.perm_middle.symm.trans hperm).erase a
      refine wp_mono (ih hs' hk.ring (hk.circle hc hperm) hperm' ?_ ?_ ?_ ?_) fun _ s'' h =>
        ⟨h.without.of_killed hk hkill hsame, h.ring, h.driven⟩
      · cases front with
        | nil => exact absurd rfl hne
        | cons b front => exact hhead
      · exact fun b hb => (hsame b).not.mpr (hkept b hb)
      · exact (hsame l).not.mpr hl
      · exact hturns'
    · have hfront : front ++ a :: back = (front ++ [a]) ++ back := by simp
      rw [hfront] at hc hperm hhead ⊢
      refine ih hs hring hc hperm hhead (fun b hb => ?_) hl hturns'
      rcases List.mem_append.mp hb with hb | hb
      · exact hkept b hb
      · rwa [List.mem_singleton.mp hb]

/-- The only task there is may be killed: it leads to itself. -/
theorem wp_alone (hs : s.Driven) (hring : s.tasks.Ring) (hc : Circle s.tasks.next [l])
    (hlive : s.tasks.live = [l]) (htest : Tested pin count (s.tasks.mem l))
    (hturns : turns = 0 → F .endlessLoop) :
    wp F (Lib.loop (killBlinkTurn w pin count (some l)) .endlessLoop turns (some l) ())
      (fun _ s' => Walked pin count [l] s s') s := by
  cases turns with
  | zero => exact hturns rfl
  | succ turns =>
  have hl : l ∈ s.tasks.live := by rw [hlive]; exact List.mem_singleton_self l
  have hself : (s.tasks.mem l).next = l := circle_singleton.mp hc
  rw [Lib.loop, wp_bind]
  simp only [killBlinkTurn, wp_bind]
  refine wp_read hl (wp_when (fun hkill => ?_) fun hkeep => absurd htest hkeep)
  refine hs.wp_kill hring hl fun s' hs' hk => ?_
  have hempty : s'.tasks.live = [] := by rw [hk.live, hlive, List.erase_cons_head]
  have hnone : Without (Tested pin count) ([] ++ []) s'.tasks s'.tasks :=
    without_self .nil (by rw [hempty]; rfl) (by simp)
  rw [hself, if_pos rfl, wp_pure, wp_loop_none]
  exact ⟨hnone.of_killed hk htest fun b => tested_congr (hk.others b), hk.ring, hs'⟩

/-- Nothing leads to a task that has been deleted: a walk that waits for it does not end. -/
theorem wp_lost (hs : s.Driven) (hring : s.tasks.Ring) (hl : l ∉ s.tasks.live) :
    wp (fun _ => True) (Lib.loop (killBlinkTurn w pin count (some l)) .endlessLoop turns (some a) ())
      (fun _ _ => False) s := by
  refine wp_mono (wp_loop_of_turn trivial
    (fun p _ s => p.isSome ∧ l ∉ s.tasks.live ∧ s.tasks.Ring ∧ s.Driven) ?_ ⟨rfl, hl, hring, hs⟩)
    fun _ _ h => Bool.noConfusion h.1
  rintro a _ s ⟨-, hl, hring, hs⟩
  by_cases ha : a ∈ s.tasks.live
  · have hmore : some (s.tasks.mem a).next ≠ some l := fun heq =>
      hl (Option.some.inj heq ▸ hring.next_mem ha)
    simp only [killBlinkTurn, wp_bind]
    refine wp_read ha (wp_when (fun _ => ?_) fun _ => ?_)
    · refine hs.wp_kill hring ha fun s' hs' hk => ?_
      rw [if_neg hmore]
      exact ⟨rfl, fun hmem => hl (List.mem_of_mem_erase (hk.live ▸ hmem)), hk.ring, hs'⟩
    · rw [if_neg hmore]
      exact ⟨rfl, hl, hring, hs⟩
  · simp [killBlinkTurn, Exrail.readTask, onTasks, Tasks.readTask, ha]

/-! ## One call -/

/-- The call may start where it does: `loopTask` is not to be killed, or is the only task. -/
def Starts (pin count : UInt16) (t : Tasks) : Prop :=
  ∀ l, t.loopTask = some l → Tested pin count (t.mem l) → t.live = [l]

/-- The loop walks the whole ring and kills the tasks that blink one of the pins, if there is a turn for
each task. -/
theorem wp_killBlinkWithin (hfeature : script.has Script.featureBlink) (hs : s.Driven)
    (hring : s.tasks.Ring) (hstarts : Starts pin count s.tasks) (hc : Circle s.tasks.next xs)
    (hperm : xs.Perm s.tasks.live) (hturns : turns < xs.length → F .endlessLoop) :
    wp F (killBlinkWithin script w pin count turns) (fun _ s' => Walked pin count xs s s') s := by
  unfold killBlinkWithin when
  rw [if_pos hfeature]
  simp only [wp_bind, wp_get]
  cases hl : s.tasks.loopTask with
  | none =>
    rw [hring.loopTask_eq_none.mp hl] at hperm
    obtain rfl := hperm.eq_nil
    rw [wp_loop_none]
    exact ⟨without_self hc (by rw [hring.loopTask_eq_none.mp hl]) (by simp), hring, hs⟩
  | some l =>
    have hlive : l ∈ s.tasks.live := hring.loopTask_mem hl
    obtain ⟨front, back, rfl⟩ := List.append_of_mem (hperm.mem_iff.mpr hlive)
    by_cases htest : Tested pin count (s.tasks.mem l)
    · have halone := hstarts l hl htest
      have hsingle : front ++ l :: back = [l] := by
        rw [halone] at hperm
        exact List.perm_singleton.mp hperm
      rw [hsingle] at hc hturns ⊢
      exact wp_alone hs hring hc halone htest fun hzero => hturns (by simp [hzero])
    · have hc' : Circle s.tasks.next ([] ++ (l :: back ++ front)) := hc.rotate
      have hturned : (l :: back ++ front).Perm (front ++ l :: back) := List.perm_append_comm
      have hwalk : wp F (Lib.loop (killBlinkTurn w pin count (some l)) .endlessLoop turns
          (l :: back ++ front).head? ())
          (fun _ s' => Walked pin count ([] ++ (l :: back ++ front)) s s') s :=
        wp_walk hs hring hc' (hturned.trans hperm) rfl (by simp) htest
          (by rwa [hturned.length_eq])
      refine wp_mono hwalk fun _ s' h => ?_
      have hwithout : Without (Tested pin count) ((l :: back) ++ front) s.tasks s'.tasks := h.without
      exact ⟨hwithout.rotate, h.ring, h.driven⟩

/-- The call does not end: it kills the task that it has started at, and there are others. -/
theorem wp_killBlinkWithin_lost (hfeature : script.has Script.featureBlink) (hs : s.Driven)
    (hring : s.tasks.Ring) (hstarts : ¬ Starts pin count s.tasks) :
    wp (fun _ => True) (killBlinkWithin script w pin count turns) (fun _ _ => False) s := by
  simp only [Starts, not_forall] at hstarts
  obtain ⟨l, hl, htest, hmore⟩ := hstarts
  have hlive : l ∈ s.tasks.live := hring.loopTask_mem hl
  obtain ⟨ys, hc, hperm⟩ := hring.from_mem hlive
  have hnext : some (s.tasks.mem l).next ≠ some l := by
    intro heq
    have hys : ys = [] := hc.next_self_iff.mp (Option.some.inj heq)
    rw [hys] at hperm
    exact hmore (List.perm_singleton.mp hperm.symm)
  unfold killBlinkWithin when
  rw [if_pos hfeature]
  simp only [wp_bind, wp_get, hl]
  cases turns with
  | zero => trivial
  | succ turns =>
    rw [Lib.loop, wp_bind]
    simp only [killBlinkTurn, wp_bind]
    refine wp_read hlive (wp_when (fun _ => ?_) fun hkeep => absurd htest hkeep)
    refine hs.wp_kill hring hlive fun s' hs' hk => ?_
    rw [if_neg hnext, wp_pure]
    exact wp_lost hs' hk.ring (by rw [hk.live]; exact hring.nodup.not_mem_erase)

/-- After the call, exactly the tasks that blink a pin of the range are gone, and the others are in
their order; it takes some number of turns. -/
def Clears (script : Script) (w : Inputs) (pin count : UInt16) (s : Exrail) : Prop :=
  ∀ xs, Circle s.tasks.next xs → xs.Perm s.tasks.live → ∃ turns,
    wp (fun _ => False) (killBlinkWithin script w pin count turns)
      (fun _ s' => Without (BlinksIn pin count) xs s.tasks s'.tasks) s

/-- The call may start where it does, and the last pin of the range is computed without overflow, or
the overflow concerns no task. -/
structure Fit (pin count : UInt16) (t : Tasks) : Prop where
  starts : Starts pin count t
  past : 65536 < pin.toNat + count.toNat → ∀ a ∈ t.live, (t.mem a).isBlink → (t.mem a).blinkPin < pin
  empty : pin = 0 → count = 0 → ∀ a ∈ t.live, ¬ (t.mem a).isBlink

/-- In a build without `BLINK`, no task blinks a pin of the range. -/
def Ready (script : Script) (pin count : UInt16) (t : Tasks) : Prop :=
  if script.has Script.featureBlink then Fit pin count t
  else ∀ a ∈ t.live, ¬ BlinksIn pin count (t.mem a)

theorem Fit.tested_iff {t : Tasks} (h : Fit pin count t) (ha : a ∈ t.live) :
    Tested pin count (t.mem a) ↔ BlinksIn pin count (t.mem a) := by
  by_cases hover : 65536 < pin.toNat + count.toNat
  · refine iff_of_false (not_tested hover) ?_
    rintro ⟨hblink, hfirst, -⟩
    have := UInt16.lt_iff_toNat_lt.mp (h.past hover a ha hblink)
    omega
  · by_cases hempty : pin = 0 ∧ count = 0
    · have hno := h.empty hempty.1 hempty.2 a ha
      exact iff_of_false (fun ht => hno ht.1) fun hb => hno hb.1
    · exact RMFT2.tested_iff (by omega) (by tauto)

/-- The range is exact on all tasks, so no overflow concerns any. -/
theorem fit_of_tested_iff {t : Tasks} (hstarts : Starts pin count t)
    (h : ∀ a ∈ t.live, Tested pin count (t.mem a) ↔ BlinksIn pin count (t.mem a)) :
    Fit pin count t := by
  refine ⟨hstarts, fun hover a ha hblink => ?_, ?_⟩
  · by_contra hge
    rw [UInt16.not_lt, UInt16.le_iff_toNat_le] at hge
    have := (t.mem a).blinkPin.toNat_lt
    exact not_tested hover ((h a ha).mpr ⟨hblink, hge, by omega⟩)
  · rintro rfl rfl a ha hblink
    have := ((h a ha).mp (tested_zero.mpr hblink)).2.2
    simp at this

/-! ## One call and a run of calls -/

/-- What a call does that meets its condition. -/
theorem Ready.wp_killBlinkWithin (h : Ready script pin count s.tasks) (hs : s.Driven)
    (hring : s.tasks.Ring) (hc : Circle s.tasks.next xs) (hperm : xs.Perm s.tasks.live)
    (hturns : xs.length ≤ turns) :
    wp F (killBlinkWithin script w pin count turns)
      (fun _ s' => Without (BlinksIn pin count) xs s.tasks s'.tasks ∧ s'.tasks.Ring ∧ s'.Driven) s := by
  by_cases hfeature : script.has Script.featureBlink
  · rw [Ready, if_pos hfeature] at h
    refine wp_mono (Exrail.wp_killBlinkWithin hfeature hs hring h.starts hc hperm
      fun hlt => absurd hturns (Nat.not_le_of_lt hlt))
      fun _ s' hw => ⟨hw.without.congr fun a ha => h.tested_iff (hperm.subset ha), hw.ring, hw.driven⟩
  · rw [Ready, if_neg hfeature] at h
    unfold killBlinkWithin when
    rw [if_neg hfeature]
    exact ⟨without_self hc hperm fun a ha => h a (hperm.subset ha), hring, hs⟩

/-- The calls of `SET` and `RESET`, of a signal with three pins, or of any other statements. -/
def killBlinks (script : Script) (w : Inputs) : List (UInt16 × UInt16) → Exr Unit :=
  runProg fun call => killBlinkOnVpin script w call.1 call.2

/-- After a series of calls no task is left that blinks one of their pins, and all others are. -/
theorem wp_killBlinks {calls : List (UInt16 × UInt16)} (hs : s.Driven) (hring : s.tasks.Ring)
    (hc : Circle s.tasks.next xs) (hperm : xs.Perm s.tasks.live)
    (h : AlongProg (fun call => killBlinkOnVpin script w call.1 call.2)
      (fun s call => Ready script call.1 call.2 s.tasks) calls s) :
    wp F (killBlinks script w calls) (fun _ s' =>
      Without (fun task => ∃ call ∈ calls, BlinksIn call.1 call.2 task) xs s.tasks s'.tasks) s := by
  induction calls generalizing s xs with
  | nil => exact without_self hc hperm (by simp)
  | cons call calls ih =>
    obtain ⟨hready, hrest⟩ := h
    rw [killBlinks, runProg, wp_bind]
    have hcall : wp F (killBlinkOnVpin script w call.1 call.2) (fun _ s' =>
        Without (BlinksIn call.1 call.2) xs s.tasks s'.tasks ∧ s'.tasks.Ring ∧ s'.Driven) s :=
      wp_of_eq killBlinkOnVpin_eq
        (hready.wp_killBlinkWithin hs hring hc hperm (Nat.le_of_eq hperm.length_eq))
    refine wp_mono (wp_and hcall hrest) ?_
    rintro _ s' ⟨⟨hwithout, hring', hs'⟩, hrest'⟩
    refine wp_mono (ih hs' hring' hwithout.circle hwithout.perm hrest') fun _ s'' h => ?_
    exact (hwithout.trans h fun a => by
      simp only [blinksIn_congr (hwithout.others a)]).congr fun a _ => by simp

/-- `SET` and `RESET` make one call for each pin, so they end if every call meets its condition. -/
theorem wp_setPins {task : RMFT2} {operand : Int16} (hs : s.Driven) (hring : s.tasks.Ring)
    (hc : Circle s.tasks.next xs) (hperm : xs.Perm s.tasks.live)
    (h : AlongProg (fun call => killBlinkOnVpin script w call.1 call.2)
      (fun s call => Ready script call.1 call.2 s.tasks)
      ((List.range (arg script task 1).toNat).map fun i => (operandU operand + UInt16.ofNat i, 1)) s) :
    wp F (setPins script w task operand) (fun _ s' => Without (fun old =>
      ∃ i < (arg script task 1).toNat, BlinksIn (operandU operand + UInt16.ofNat i) 1 old)
      xs s.tasks s'.tasks) s := by
  have hcalls := wp_killBlinks (F := F) hs hring hc hperm h
  rw [killBlinks, runProg_map] at hcalls
  rw [setPins, thenBreak, wp_bind]
  refine wp_mono hcalls fun _ s' h => ?_
  exact h.congr fun a _ => by simp

/-- **`killBlinkOnVpin`** ends and kills the right tasks if and only if its range does not overflow
into other pins and it does not start at a task, one of several, that it kills. Where every call of a
run meets this, all of them end, and exactly the tasks that blink a pin of some range are gone. -/
theorem killBlinkOnVpin_clears_iff (script : Script) (w : Inputs) (s : Exrail) (hring : s.tasks.Ring)
    (hs : Sound s.rails.station) :
    (∀ pin count, Clears script w pin count s ↔ Ready script pin count s.tasks) ∧
    ∀ (calls : List (UInt16 × UInt16)) (xs : List Addr), Circle s.tasks.next xs →
      xs.Perm s.tasks.live → AlongProg (fun call => killBlinkOnVpin script w call.1 call.2)
        (fun s call => Ready script call.1 call.2 s.tasks) calls s →
      wp (fun _ => False) (killBlinks script w calls) (fun _ s' =>
        Without (fun task => ∃ call ∈ calls, BlinksIn call.1 call.2 task) xs s.tasks s'.tasks) s := by
  have hdriven : s.Driven := hs.exists_shows
  refine ⟨fun pin count => ⟨fun h => ?_, fun h xs hc hperm => ?_⟩, fun calls xs hc hperm h =>
    wp_killBlinks hdriven hring hc hperm h⟩
  · obtain ⟨xs, hc, hperm, -⟩ := id hring
    obtain ⟨turns, hw⟩ := h xs hc hperm
    by_cases hfeature : script.has Script.featureBlink
    · rw [Ready, if_pos hfeature]
      by_cases hstarts : Starts pin count s.tasks
      · have hwalk : wp (fun _ => True) (killBlinkWithin script w pin count turns)
            (fun _ s' => Walked pin count xs s s') s :=
          Exrail.wp_killBlinkWithin hfeature hdriven hring hstarts hc hperm fun _ => trivial
        obtain ⟨-, s', -, hclear, hwalked⟩ := wp_iff_exists.mp (wp_and hw hwalk)
        exact fit_of_tested_iff hstarts fun a ha =>
          hwalked.without.iff_of_without hclear (hperm.mem_iff.mpr ha)
      · have hlost : wp (fun _ => True) (killBlinkWithin script w pin count turns)
            (fun _ _ => False) s := wp_killBlinkWithin_lost hfeature hdriven hring hstarts
        obtain ⟨-, s', -, -, hno⟩ := wp_iff_exists.mp (wp_and hw hlost)
        exact hno.elim
    · rw [Ready, if_neg hfeature]
      unfold killBlinkWithin when at hw
      rw [if_neg hfeature] at hw
      have hself : Without (fun _ => False) xs s.tasks s.tasks :=
        without_self hc hperm fun _ _ => id
      exact fun a ha => ((hself.iff_of_without hw (hperm.mem_iff.mpr ha)).not.mp id)
  · exact ⟨xs.length, wp_mono (h.wp_killBlinkWithin hdriven hring hc hperm (Nat.le_refl _))
      fun _ _ h => h.1⟩

/-- A ring of a task that blinks pin 10 and one that does not blink, with `loopTask` at `l`. -/
def blinking (l : Addr) : Exrail :=
  let s := init bareRails [] fun a =>
    if a = 1 then { RMFT2.zero with next := 2, timer := 10, blinkState := .blinkLow }
    else { RMFT2.zero with next := 1 }
  { s with tasks := { s.tasks with live := [1, 2], loopTask := some l } }

theorem circle_blinking (l : Addr) : Circle (blinking l).tasks.next [1, 2] := by
  rw [circle_cons]
  exact ⟨by decide, rfl, rfl⟩

theorem ring_blinking {l : Addr} (hl : l ∈ [1, 2]) : (blinking l).tasks.Ring := by
  obtain ⟨xs, hc, hperm⟩ := (circle_blinking l).from_mem hl
  exact ⟨l :: xs, hc, hperm, rfl⟩

theorem sound_blinking (l : Addr) : Sound (blinking l).rails.station := sound_init ..

/-- `AUTOSTART BLINK(11,500,500) BLINK(10,500,500) SET(10,2) DONE` -/
@[irreducible] def blinkTwo : Script := Script.ofCells Script.featureBlink (fun _ => .text)
  [(.autostart, 0), (.blink, 11), (.pad, 500), (.pad, 500), (.blink, 10), (.pad, 500), (.pad, 500),
    (.set, 10), (.pad, 2), (.endtask, 0)]

/-- From the task that does not blink, the other one is killed. -/
theorem killBlinkOnVpin_clears_two : Clears blinkTwo .idle 10 1 (blinking 2) := by
  refine ((killBlinkOnVpin_clears_iff blinkTwo .idle (blinking 2) (ring_blinking (by simp))
    (sound_blinking 2)).1 10 1).mpr ?_
  have hfit : Fit 10 1 (blinking 2).tasks := by
    refine ⟨?_, fun hover => absurd hover (by decide), fun hzero => absurd hzero (by decide)⟩
    rintro l hl htest
    obtain rfl := Option.some.inj hl
    exact absurd htest (by decide)
  rw [Ready, if_pos (by decide +kernel)]
  exact hfit

/-- From the task that blinks, the loop does not end; and a script gets there: the kill of the first
pin of `SET` leaves `loopTask` at the task that blinks the second one. -/
theorem not_killBlinkOnVpin_clears :
    (¬ ∀ (script : Script) (w : Inputs) (s : Exrail) (pin count : UInt16), s.tasks.Ring →
      Sound s.rails.station → Clears script w pin count s) ∧
    wp (· = .endlessLoop) (history blinkTwo .idle (List.replicate 24 (.loop .idle)))
      (fun _ _ => False) (init bareRails [] fun _ => .zero) := by
  refine ⟨fun hall => ?_, by decide +kernel⟩
  have hring : (blinking 1).tasks.Ring := ring_blinking (by simp)
  obtain ⟨turns, hw⟩ := hall blinkTwo .idle (blinking 1) 10 1 hring (sound_blinking 1) [1, 2]
    (circle_blinking 1) (.refl _)
  have hstarts : ¬ Starts 10 1 (blinking 1).tasks := fun h =>
    absurd (h 1 rfl (by decide)) (by decide)
  have hfeature : blinkTwo.has Script.featureBlink := by decide +kernel
  have hlost : wp (fun _ => True) (killBlinkWithin blinkTwo .idle 10 1 turns) (fun _ _ => False)
      (blinking 1) :=
    wp_killBlinkWithin_lost hfeature (sound_blinking 1).exists_shows hring hstarts
  obtain ⟨-, s', -, -, hno⟩ := wp_iff_exists.mp (wp_and hw hlost)
  exact hno

end Exrail

end CommandStation
