import CommandStation.DCC.TargetsSpec
import CommandStation.EXRAIL2.Nesting
import CommandStation.DCCEXParser.KeywordHasher

/-!
# Pausing and resuming the locos

`</ PAUSE>` has every task save the speed of its loco before all locos are stopped, the opcode
`PAUSE` only stops them. Both ways of resuming set the speeds that the tasks have saved, whenever
that was. What becomes of the target speeds can be told before the pause.
-/

namespace CommandStation

open CommandStation.Lib CommandStation.Tasks

/-! ## Saved speeds -/

/-- The speed that `resume` sets. -/
def RMFT2.saved (task : RMFT2) : Option (UInt16 × UInt8) :=
  if task.loco ≠ 0 then some (task.loco, task.pauseSpeed) else none

/-- The task after `pause`. -/
def RMFT2.withPaused (T : Targets) (task : RMFT2) : RMFT2 :=
  if task.loco ≠ 0 then { task with pauseSpeed := T.speedByte task.loco } else task

namespace Tasks

variable {t : Tasks} {a : Addr}

/-- The tasks from one of them on. -/
def around (t : Tasks) (a : Addr) : List Addr := List.iterate t.next a t.live.length

theorem Ring.around (h : t.Ring) (ha : a ∈ t.live) :
    ∃ ys, t.around a = a :: ys ∧ Circle t.next (a :: ys) ∧ (a :: ys).Perm t.live := by
  obtain ⟨ys, hc, hperm⟩ := h.from_mem ha
  refine ⟨ys, ?_, hc, hperm⟩
  rw [Tasks.around, ← hperm.length_eq]
  exact hc.iterate

/-- The speeds that are set when these tasks resume. -/
def savedSpeeds (t : Tasks) (order : List Addr) : List (UInt16 × UInt8) :=
  order.filterMap fun a => (t.mem a).saved

theorem savedSpeeds_append (t : Tasks) (xs ys : List Addr) :
    t.savedSpeeds (xs ++ ys) = t.savedSpeeds xs ++ t.savedSpeeds ys := List.filterMap_append

end Tasks

theorem Targets.restore_append {T : Targets} {saved saved' : List (UInt16 × UInt8)} :
    T.restore (saved ++ saved') = (T.restore saved).restore saved' := List.foldl_append

namespace Exrail

variable {F : Crash → Prop} {script : Script} {w : Inputs} {s s' : Exrail} {T : Targets}
  {a this : Addr} {xs ys : List Addr}

/-- The target speeds that the station holds. -/
def Shows (s : Exrail) (T : Targets) : Prop := s.rails.station.Shows T

theorem wp_station {α : Type} {m : Dcc α} {Q : α → Exrail → Prop}
    (h : wp (fun fault => F (.station fault)) m
      (fun b station => Q b { s with rails.station := station }) s.rails.station) :
    wp F (onStation m) Q s := by
  unfold wp onStation onRails JoinStation.onStation zoom
  unfold wp at h
  cases hm : m s.rails.station with
  | ok r =>
    rw [hm] at h
    exact h
  | error fault =>
    rw [hm] at h
    exact h

/-! ## One task -/

/-- A task that is paused saves the speed of its loco. -/
theorem wp_pauseTask {Q : Unit → Exrail → Prop} (ha : a ∈ s.tasks.live) (hT : s.Shows T)
    (h : Q () { s with tasks := s.tasks.write a (RMFT2.withPaused T) }) :
    wp F (pause a) Q s := by
  simp only [pause, wp_bind]
  refine wp_read ha ?_
  refine wp_when (fun hloco => ?_) fun hloco => ?_
  · rw [wp_bind]
    refine wp_station (DCC.wp_getThrottleSpeedByte hT (wp_write ha ?_))
    have hwrite : s.tasks.write a (RMFT2.withPaused T) = s.tasks.write a fun task =>
        { task with pauseSpeed := T.speedByte (s.tasks.mem a).loco } :=
      write_congr (if_pos hloco)
    rw [hwrite] at h
    exact h
  · have hsame : s.tasks.write a (RMFT2.withPaused T) = s.tasks := write_self (if_neg hloco)
    rw [hsame] at h
    exact h

/-- A task that is resumed gives its loco the speed that was saved. -/
theorem wp_resumeTask (ha : a ∈ s.tasks.live) (hT : s.Shows T) : wp F (resume w a)
    (fun _ s' => s'.tasks = s.tasks ∧ s'.Shows (T.restore (s.tasks.savedSpeeds [a]))) s := by
  simp only [resume, wp_bind]
  refine wp_read ha ?_
  by_cases hloco : (s.tasks.mem a).loco = 0
  · have hsaved : s.tasks.savedSpeeds [a] = [] := by simp [savedSpeeds, RMFT2.saved, hloco]
    rw [hsaved]
    exact wp_when (fun hne => absurd hloco hne) fun _ => ⟨rfl, hT⟩
  · have hsaved : s.tasks.savedSpeeds [a] =
        [((s.tasks.mem a).loco, (s.tasks.mem a).pauseSpeed)] := by
      simp [savedSpeeds, RMFT2.saved, hloco]
    rw [hsaved]
    refine wp_when (fun _ => ?_) fun hno => absurd hloco hno
    simp only [setThrottle, wp_bind, wp_pure]
    exact wp_station (wp_mono (DCC.wp_setThrottle hT hloco) fun _ station h => ⟨rfl, h⟩)

/-! ## The loops along the ring -/

/-- A loop along the ring that goes to every task, in order, and leaves the ring as it is. -/
theorem wp_eachTask_around {P : List Addr → Exrail → Prop} {body : Addr → Exr Bool}
    (hc : Circle s.tasks.next xs) (hperm : xs.Perm s.tasks.live)
    (hhead : s.tasks.loopTask = xs.head?)
    (hring : ∀ done s', P done s' → s'.tasks.live = s.tasks.live ∧
      s'.tasks.loopTask = s.tasks.loopTask ∧ s'.tasks.next = s.tasks.next)
    (hbody : ∀ done a rest s', xs = done ++ a :: rest → P done s' →
      wp F (body a) (fun found s'' => found = false ∧ P (done ++ [a]) s'') s')
    (h : P [] s) : wp F (eachTask body) (fun _ s' => P xs s') s := by
  simp only [eachTask, wp_bind, wp_get]
  refine wp_loop (fun rest p _ s' => p = rest.head? ∧ ∃ done, xs = done ++ rest ∧ P done s')
    ?_ ?_ (le_of_eq hperm.length_eq) ⟨hhead, [], rfl, h⟩
  · rintro rest a _ s' ⟨hp, done, hxs, hP⟩
    cases rest with
    | nil => cases hp
    | cons b rest =>
      obtain rfl := Option.some.inj hp
      refine ⟨rest, rfl, ?_⟩
      simp only [wp_bind]
      refine wp_mono (hbody done a rest s' hxs hP) ?_
      rintro found s'' ⟨hfound, hP'⟩
      obtain ⟨hlive, hloop, hnext⟩ := hring _ s'' hP'
      have ha : a ∈ s''.tasks.live := by
        rw [hlive]
        exact hperm.subset (hxs ▸ by simp)
      simp only [hfound, Bool.false_eq_true, if_false, wp_bind]
      refine wp_read ha ?_
      have hnext' : some (s''.tasks.mem a).next = if rest = [] then (done ++ [a]).head?
          else rest.head? := by
        rw [hxs] at hc
        rw [← hc.next_eq, ← hnext]
        rfl
      have hdone : xs = done ++ [a] ++ rest := by simpa using hxs
      simp only [wp_get]
      refine wp_ite (fun hback => ⟨?_, done ++ [a], hdone, hP'⟩)
        fun hgo => ⟨?_, done ++ [a], hdone, hP'⟩
      · rw [← hback, hloop, hhead, hdone] at hnext'
        cases rest with
        | nil => rfl
        | cons b rest =>
          -- the first task would be behind `a` as well
          have hnodup := hc.nodup
          rw [hdone] at hnodup
          have hmem : b ∈ done ++ [a] := by
            refine List.mem_of_head? (Eq.trans ?_ hnext')
            cases done <;> rfl
          exact absurd rfl ((List.nodup_append.mp hnodup).2.2 b hmem b List.mem_cons_self)
      · rw [hloop, hhead, hdone] at hgo
        cases rest with
        | nil => exact absurd (by rw [hnext', List.append_nil]; rfl) hgo
        | cons b rest => exact hnext'
  · rintro rest _ s' ⟨hp, done, hxs, hP⟩
    rw [List.head?_eq_none_iff.mp hp.symm, List.append_nil] at hxs
    rw [hxs]
    exact hP

/-! ## All tasks -/

/-- The tasks `done` have saved their speeds, and nothing else has changed. -/
structure Saving (T : Targets) (s : Exrail) (done : List Addr) (s' : Exrail) : Prop where
  rails : s'.rails = s.rails
  mem : ∀ a, s'.tasks.mem a = if a ∈ done then (s.tasks.mem a).withPaused T else s.tasks.mem a
  live : s'.tasks.live = s.tasks.live
  loopTask : s'.tasks.loopTask = s.tasks.loopTask

theorem withPaused_next (task : RMFT2) : (task.withPaused T).next = task.next := by
  unfold RMFT2.withPaused
  split <;> rfl

theorem Saving.next {done : List Addr} (h : Saving T s done s') : s'.tasks.next = s.tasks.next := by
  funext a
  rw [Tasks.next, h.mem]
  split
  · exact withPaused_next _
  · rfl

/-- Every task saves the speed of its loco. -/
theorem wp_pauseTasks (hT : s.Shows T) (hc : Circle s.tasks.next xs) (hperm : xs.Perm s.tasks.live)
    (hhead : s.tasks.loopTask = xs.head?) : wp F (eachTask fun a => do
      pause a
      pure false) (fun _ s' => Saving T s xs s') s := by
  refine wp_eachTask_around (P := Saving T s) hc hperm hhead
    (fun done s' h => ⟨h.live, h.loopTask, h.next⟩) (fun done a rest s' hxs h => ?_)
    ⟨rfl, fun a => by simp, rfl, rfl⟩
  have ha : a ∈ s'.tasks.live := by
    rw [h.live]
    exact hperm.subset (hxs ▸ by simp)
  have hT' : s'.Shows T := by
    rw [Shows, h.rails]
    exact hT
  rw [wp_bind]
  refine wp_pauseTask ha hT' ⟨rfl, h.rails, fun b => ?_, h.live, h.loopTask⟩
  by_cases hb : b = a
  · have hnodup := hc.nodup
    rw [hxs] at hnodup
    have hnot : a ∉ done := fun hmem =>
      absurd rfl ((List.nodup_append.mp hnodup).2.2 a hmem a List.mem_cons_self)
    rw [hb, write_mem_self, h.mem, if_neg hnot, if_pos (by simp)]
  · rw [write_mem, if_neg hb, h.mem]
    simp [hb]

/-- The tasks `done` have resumed. -/
def Resuming (T : Targets) (s : Exrail) (done : List Addr) (s' : Exrail) : Prop :=
  s'.tasks = s.tasks ∧ s'.Shows (T.restore (s.tasks.savedSpeeds done))

theorem Resuming.wp_resumeTask {done : List Addr} (h : Resuming T s done s')
    (ha : a ∈ s.tasks.live) :
    wp F (resume w a) (fun _ s'' => Resuming T s (done ++ [a]) s'') s' := by
  obtain ⟨htasks, hT⟩ := h
  refine wp_mono (Exrail.wp_resumeTask (htasks ▸ ha) hT) fun _ s'' ⟨htasks', hT'⟩ => ?_
  refine ⟨htasks'.trans htasks, ?_⟩
  rw [savedSpeeds_append, Targets.restore_append]
  rwa [htasks] at hT'

theorem wp_resumeTasks (hT : s.Shows T) (hc : Circle s.tasks.next xs)
    (hperm : xs.Perm s.tasks.live) (hhead : s.tasks.loopTask = xs.head?) : wp F (eachTask fun a => do
      resume w a
      pure false) (fun _ s' => Resuming T s xs s') s := by
  refine wp_eachTask_around (P := Resuming T s) hc hperm hhead
    (fun done s' h => by rw [h.1]; exact ⟨rfl, rfl, rfl⟩) (fun done a rest s' hxs h => ?_) ⟨rfl, hT⟩
  rw [wp_bind]
  refine wp_mono (h.wp_resumeTask (hperm.subset (hxs ▸ by simp))) fun _ s'' h' => ?_
  exact ⟨rfl, h'⟩

/-- `RESUME` goes round the ring from its task on. -/
theorem wp_resumeAll (hT : s.Shows T) (hc : Circle s.tasks.next (this :: ys))
    (hperm : (this :: ys).Perm s.tasks.live) : wp F (resumeAll w this)
      (fun _ s' => s'.Shows (T.restore (s.tasks.savedSpeeds (this :: ys)))) s := by
  have hlive : ∀ b ∈ this :: ys, b ∈ s.tasks.live := fun b hb => hperm.subset hb
  simp only [resumeAll, thenBreak, wp_bind, onTasks, wp_zoom, wp_modify]
  generalize hs₁ : ({ s with tasks := { s.tasks with pausingTask := .null } } : Exrail) = s₁
  have hmem : s₁.tasks.mem = s.tasks.mem := by rw [← hs₁]
  have hlive₁ : s₁.tasks.live = s.tasks.live := by rw [← hs₁]
  have hT₁ : s₁.Shows T := by rw [← hs₁]; exact hT
  have hc₁ : Circle s₁.tasks.next (this :: ys) := hc.congr fun a _ => by simp [Tasks.next, hmem]
  have hsaved : s₁.tasks.savedSpeeds = s.tasks.savedSpeeds := by
    funext order
    simp [savedSpeeds, hmem]
  rw [← hsaved]
  have hstart : Resuming T s₁ [] s₁ := ⟨rfl, hT₁⟩
  refine wp_mono (hstart.wp_resumeTask (hlive₁ ▸ hlive this List.mem_cons_self)) fun _ s₂ hs₂ => ?_
  refine wp_read (hs₂.1 ▸ hlive₁ ▸ hlive this List.mem_cons_self) ?_
  simp only [wp_get, wp_pure]
  -- `rest` are the tasks that have not resumed, with `this` behind them
  refine wp_loop (fun rest p _ s' => p = rest.head? ∧
    ((∃ done zs, ys = done ++ zs ∧ rest = zs ++ [this] ∧ Resuming T s₁ (this :: done) s') ∨
      rest = [] ∧ Resuming T s₁ (this :: ys) s')) ?_ ?_
    (show (ys ++ [this]).length ≤ _ from ?_) ⟨?_, .inl ⟨[], ys, rfl, rfl, hs₂⟩⟩
  · rintro rest a _ s' ⟨hp, ⟨done, zs, rfl, rfl, hs'⟩ | ⟨rfl, -⟩⟩
    · cases zs with
      | nil =>
        obtain rfl : this = a := (Option.some.inj hp).symm
        rw [List.append_nil] at *
        exact ⟨[], rfl, wp_ite (fun _ => ⟨rfl, .inr ⟨rfl, hs'⟩⟩) fun hne => absurd rfl hne⟩
      | cons z zs =>
        obtain rfl : z = a := (Option.some.inj hp).symm
        have hz : z ∈ s₁.tasks.live := hlive₁ ▸ hlive z (by simp)
        have hne : z ≠ this := by
          rintro rfl
          simpa using hc.nodup
        refine ⟨zs ++ [this], rfl, ?_⟩
        rw [if_neg hne]
        simp only [wp_bind]
        refine wp_mono (hs'.wp_resumeTask hz) fun _ s'' hs'' => ?_
        refine wp_read (hs''.1 ▸ hz) ⟨?_, .inl ⟨done ++ [z], zs, by simp, rfl, hs''⟩⟩
        have hnext := (show Circle _ ((this :: done) ++ z :: zs) from hc₁).next_eq
        rw [hs''.1]
        refine hnext.trans ?_
        cases zs <;> rfl
    · cases hp
  · rintro rest _ s' ⟨hp, ⟨done, zs, rfl, rfl, hs'⟩ | ⟨rfl, hs'⟩⟩
    · cases zs <;> cases hp
    · exact hs'.2
  · rw [hs₂.1, hlive₁, ← hperm.length_eq]
    simp
  · rw [hs₂.1]
    have hnext := (show Circle _ ([] ++ this :: ys) from hc₁).next_eq
    refine hnext.trans ?_
    cases ys <;> rfl

/-! ## A pause and its resume -/

/-- Who pauses and resumes: a task with `PAUSE` and `RESUME`, or the commands. -/
inductive Pauser where
  | task (this : Addr)
  | command

namespace Pauser

/-- `PAUSE` of the task, or `</ PAUSE>`. -/
def pause (script : Script) (w : Inputs) : Pauser → Exr Unit
  | .task this => do
    let task ← readTask this
    let _ ← execute script w this task (arg script task 0).toInt16 (some .pause)
  | .command => do
    let _ ← parseSlash script w 1 fun _ => hk "PAUSE"

/-- `RESUME` of the task, or `</ RESUME>`. -/
def resume (script : Script) (w : Inputs) : Pauser → Exr Unit
  | .task this => do
    let task ← readTask this
    let _ ← execute script w this task (arg script task 0).toInt16 (some .resume)
  | .command => do
    let _ ← parseSlash script w 1 fun _ => hk "RESUME"

/-- The task exists. -/
def Exists (t : Tasks) : Pauser → Prop
  | .task this => this ∈ t.live
  | .command => True

/-- The locos of the tasks. -/
def locos (t : Tasks) : List UInt16 :=
  t.live.filterMap fun a => if (t.mem a).loco ≠ 0 then some (t.mem a).loco else none

/-- The loco of a task will have its target speed again. `PAUSE` goes by the speeds that the tasks
have saved before. With `</ PAUSE>` all but followers of consists have. -/
def Restores (t : Tasks) (T : Targets) (l : UInt16) : Pauser → Prop
  | .task this => T.Restorable (t.savedSpeeds (t.around this)) l
  | .command => T.Follows (locos t) l

end Pauser

/-- Between a pause and its resume: the tasks are the same, with the same locos and saved speeds, and
no speed is set. -/
structure Undisturbed (s s' : Exrail) : Prop where
  ring : s'.tasks.Ring
  live : s'.tasks.live = s.tasks.live
  next : ∀ a ∈ s.tasks.live, s'.tasks.next a = s.tasks.next a
  saved : ∀ a ∈ s.tasks.live, (s'.tasks.mem a).saved = (s.tasks.mem a).saved
  shows : ∀ T, s.Shows T → s'.Shows T

/-- What `getThrottleSpeedByte` answers. -/
def speedByteOf (s : Exrail) (l : UInt16) : UInt8 :=
  match DCC.getThrottleSpeedByte l s.rails.station with
  | .ok (speed, _) => speed
  | .error _ => 128

theorem speedByteOf_eq {l : UInt16} (h : s.Shows T) : s.speedByteOf l = T.speedByte l := by
  have hanswer : wp (fun _ => False) (DCC.getThrottleSpeedByte l)
      (fun speed _ => speed = T.speedByte l) s.rails.station := DCC.wp_getThrottleSpeedByte h rfl
  obtain ⟨speed, station, hexec, rfl⟩ := wp_iff_exists.mp hanswer
  rw [speedByteOf, hexec]

/-- What a pause leaves: the locos are stopped, and what the tasks have saved is given. -/
structure Paused (T : Targets) (saved : RMFT2 → RMFT2) (s s₁ : Exrail) : Prop where
  ring : s₁.tasks.Ring
  live : s₁.tasks.live = s.tasks.live
  next : s₁.tasks.next = s.tasks.next
  mem : ∀ a ∈ s.tasks.live, s₁.tasks.mem a = saved (s.tasks.mem a)
  shows : s₁.Shows T.stop

/-- The tasks after a pause. -/
def Pauser.after (T : Targets) : Pauser → RMFT2 → RMFT2
  | .task _ => id
  | .command => RMFT2.withPaused T

/-- A pause stops the locos of all other tasks, and each task has saved what its loco did. -/
theorem Pauser.wp_pause {pauser : Pauser} (hring : s.tasks.Ring) (hT : s.Shows T)
    (hexists : pauser.Exists s.tasks) :
    wp F (pauser.pause script w) (fun _ s₁ => Paused T (pauser.after T) s s₁) s := by
  cases pauser with
  | task this =>
    simp only [Pauser.pause, wp_bind]
    refine wp_read hexists ?_
    unfold execute
    simp only [wp_bind]
    refine wp_station (wp_mono (DCC.wp_estopAll hT) fun _ station hstation => ?_)
    simp only [thenBreak, onTasks, wp_bind, wp_zoom, wp_modify, wp_pure]
    exact ⟨hring.congr (fun _ _ => rfl) rfl rfl, rfl, rfl, fun _ _ => rfl, hstation⟩
  | command =>
    have hslash : parseSlash script w 1 (fun _ => hk "PAUSE") = guarded True slashPause := by
      unfold parseSlash
      rw [if_neg (by decide), if_pos rfl]
      rfl
    obtain ⟨xs, hc, hperm, hhead⟩ := id hring
    simp only [Pauser.pause, hslash, guarded, slashPause, if_true, wp_bind, wp_pure]
    refine wp_mono (wp_pauseTasks hT hc hperm hhead) fun _ s₁ hs₁ => ?_
    have hT₁ : s₁.rails.station.Shows T := by
      rw [hs₁.rails]
      exact hT
    refine wp_station (wp_mono (DCC.wp_estopAll hT₁) fun _ station hstation => ?_)
    simp only [onTasks, wp_zoom, wp_modify]
    refine ⟨hring.congr (fun a _ => congrFun hs₁.next a) hs₁.live hs₁.loopTask, hs₁.live, hs₁.next,
      fun a ha => ?_, hstation⟩
    show s₁.tasks.mem a = _
    rw [hs₁.mem, if_pos (hperm.mem_iff.mpr ha)]
    rfl

/-- The order in which the tasks resume: the pausing task first, or any. -/
def Pauser.Orders (t : Tasks) (order : List Addr) : Pauser → Prop
  | .task this => order = t.around this
  | .command => order.Perm t.live

/-- A resume gives the locos what was saved, in the order in which it visits the tasks. -/
theorem Pauser.wp_resume {pauser : Pauser} (hring : s.tasks.Ring) (hT : s.Shows T)
    (hexists : pauser.Exists s.tasks) : wp F (pauser.resume script w) (fun _ s' => ∃ order,
      pauser.Orders s.tasks order ∧ s'.Shows (T.restore (s.tasks.savedSpeeds order))) s := by
  cases pauser with
  | task this =>
    obtain ⟨ys, haround, hc, hperm⟩ := hring.around hexists
    simp only [Pauser.resume, wp_bind]
    refine wp_read hexists ?_
    refine wp_mono (wp_resumeAll hT hc hperm) fun _ s' hs' => ?_
    exact ⟨this :: ys, haround.symm, hs'⟩
  | command =>
    have hslash : parseSlash script w 1 (fun _ => hk "RESUME") = guarded True (slashResume w) := by
      unfold parseSlash
      rw [if_neg (by decide), if_neg (by decide), if_pos rfl]
      rfl
    obtain ⟨xs, hc, hperm, hhead⟩ := hring
    simp only [Pauser.resume, hslash, guarded, slashResume, onTasks, if_true, wp_bind, wp_pure,
      wp_zoom, wp_modify]
    generalize hs₁ : ({ s with tasks := { s.tasks with pausingTask := .null } } : Exrail) = s₁
    have hT₁ : s₁.Shows T := by rw [← hs₁]; exact hT
    have hmem : s₁.tasks.mem = s.tasks.mem := by rw [← hs₁]
    have hc₁ : Circle s₁.tasks.next xs := hc.congr fun a _ => by simp [Tasks.next, hmem]
    have hperm₁ : xs.Perm s₁.tasks.live := by rw [← hs₁]; exact hperm
    have hhead₁ : s₁.tasks.loopTask = xs.head? := by rw [← hs₁]; exact hhead
    refine wp_mono (wp_resumeTasks hT₁ hc₁ hperm₁ hhead₁) fun _ s' hs' => ⟨xs, hperm, ?_⟩
    have hsaved : s.tasks.savedSpeeds xs = s₁.tasks.savedSpeeds xs := by simp [savedSpeeds, hmem]
    rw [hsaved]
    exact hs'.2

theorem saved_withPaused {task : RMFT2} : (task.withPaused T).saved =
    if task.loco ≠ 0 then some (task.loco, T.speedByte task.loco) else none := by
  unfold RMFT2.withPaused RMFT2.saved
  by_cases hloco : task.loco = 0 <;> simp [hloco]

/-- The locos whose speeds are set are those of the tasks. -/
theorem mem_savedSpeeds {t t' : Tasks} {order : List Addr} {f : UInt16 → UInt8 → UInt8}
    (hperm : order.Perm t.live) (hsaved : ∀ a ∈ t.live, (t'.mem a).saved =
      if (t.mem a).loco ≠ 0 then some ((t.mem a).loco, f (t.mem a).loco (t.mem a).pauseSpeed)
      else none) {l : UInt16} :
    l ∈ (t'.savedSpeeds order).map Prod.fst ↔ l ∈ Pauser.locos t := by
  simp only [savedSpeeds, Pauser.locos, List.map_filterMap, List.mem_filterMap, hperm.mem_iff]
  refine exists_congr fun a => and_congr_right fun ha => ?_
  rw [hsaved a ha]
  by_cases hloco : (t.mem a).loco = 0 <;> simp [hloco]

/-- **Pause and resume.** The pause and the resume return, and a loco of a task has its target speed
and direction again if and only if the pause restores it. -/
theorem pause_restores (script : Script) (w w' : Inputs) (pauser : Pauser) (s : Exrail) (T : Targets)
    (hring : s.tasks.Ring) (hT : s.Shows T) (hexists : pauser.Exists s.tasks) :
    wp (fun _ => False) (pauser.pause script w) (fun _ s₁ => ∀ s₂, Undisturbed s₁ s₂ →
      wp (fun _ => False) (pauser.resume script w') (fun _ s₃ => ∀ l ∈ Pauser.locos s.tasks,
        s₃.speedByteOf l = s.speedByteOf l ↔ pauser.Restores s.tasks T l) s₂) s := by
  refine wp_mono (Pauser.wp_pause hring hT hexists) fun _ s₁ hs₁ s₂ hs₂ => ?_
  have hlive : s₂.tasks.live = s.tasks.live := hs₂.live.trans hs₁.live
  have hsaved : ∀ a ∈ s.tasks.live,
      (s₂.tasks.mem a).saved = (pauser.after T (s.tasks.mem a)).saved := fun a ha => by
    rw [hs₂.saved a (hs₁.live ▸ ha), hs₁.mem a ha]
  have hexists₂ : pauser.Exists s₂.tasks := by
    cases pauser with
    | task this =>
      show this ∈ s₂.tasks.live
      rw [hlive]
      exact hexists
    | command => trivial
  refine wp_mono (Pauser.wp_resume hs₂.ring (hs₂.shows _ hs₁.shows) hexists₂) ?_
  rintro _ s₃ ⟨order, horder, hs₃⟩ l hl
  rw [speedByteOf_eq hs₃, speedByteOf_eq hT]
  cases pauser with
  | task this =>
    -- the pausing task resumes the tasks in the order of the ring, starting with itself
    obtain ⟨ys, haround, hc, hperm⟩ := hring.around hexists
    have hc₂ : Circle s₂.tasks.next (this :: ys) := hc.congr fun a ha => by
      rw [hs₂.next a (hs₁.live ▸ hperm.subset ha), hs₁.next]
    have horder' : order = this :: ys := by
      rw [show order = s₂.tasks.around this from horder, Tasks.around, hlive, ← hperm.length_eq]
      exact hc₂.iterate
    have hspeeds : s₂.tasks.savedSpeeds order = s.tasks.savedSpeeds (s.tasks.around this) := by
      rw [horder', haround]
      exact List.filterMap_congr fun a ha => hsaved a (hperm.subset ha)
    rw [hspeeds]
    refine Targets.restored_iff ?_
    rw [haround]
    exact (mem_savedSpeeds (f := fun _ speed => speed) hperm fun a _ => rfl).mpr hl
  | command =>
    -- the command resumes them in any order, but each of them was told the same speed
    have hperm : order.Perm s.tasks.live := by
      rw [← hlive]
      exact horder
    have hspeeds : ∀ a ∈ s.tasks.live, (s₂.tasks.mem a).saved =
        if (s.tasks.mem a).loco ≠ 0 then
          some ((s.tasks.mem a).loco, T.speedByte (s.tasks.mem a).loco)
        else none := fun a ha => (hsaved a ha).trans saved_withPaused
    have hids : ∀ k, k ∈ (s₂.tasks.savedSpeeds order).map Prod.fst ↔ k ∈ Pauser.locos s.tasks :=
      fun k => mem_savedSpeeds (f := fun l _ => T.speedByte l) hperm hspeeds
    rw [Targets.restored_iff ((hids l).mpr hl), Targets.restorable_iff_follows ?_ ((hids l).mpr hl)]
    · exact Targets.follows_congr hids
    · intro entry hentry
      obtain ⟨a, ha, heq⟩ := List.mem_filterMap.mp hentry
      rw [hspeeds a (hperm.subset ha)] at heq
      split at heq
      · rw [← Option.some.inj heq]
      · cases heq

/-- The target speeds when loco 3 runs forwards at speed 50 and there is no room for another loco. -/
def onlyLoco3 : Targets := ⟨fun l => if l = 3 then some 178 else none, fun _ => none, 0, nofun⟩

/-- Loco 3 is in the only slot of the table. -/
def loco3Station : Station :=
  { Station.init .avr 1 [] with
    locos := { LocoTable.init 1 with
      mem := fun _ => { newLocoSlot with loco := 3, speedCode := 178, targetSpeed := 178 }
      live := fun a => a == 0
      fresh := 1
      firstSlot := some 0
      slotCount := 1 } }

theorem loco3Station_shows : loco3Station.Shows onlyLoco3 := by
  have hl : LocoTable.Lists loco3Station.locos [0] [] := by
    constructor <;> simp [loco3Station, LocoTable.init, newLocoSlot, LocoTable.nextOf, Links, Seg]
  have hc : LocoTable.Consists loco3Station.locos [0] none := by
    refine ⟨⟨fun _ _ _ h => ?_, fun _ _ _ => ⟨[], rfl, .nil, fun b => ⟨fun h => ?_, fun h => ?_⟩⟩⟩,
      fun _ _ _ _ => rfl, fun _ _ hlinks => absurd ⟨rfl, rfl⟩ hlinks⟩
    · cases h
    · cases h
    · cases h.2
  refine ⟨[0], [], hl, hc, fun _ _ => rfl, fun _ _ => rfl, fun l hl => ?_, rfl⟩
  have hne : 3 ≠ l := hl 0 (List.mem_singleton_self 0)
  exact if_neg hne.symm

/-- Two tasks, with locos 3 and 4. -/
@[irreducible] def twoTasks : Exrail :=
  { init (JoinStation.init loco3Station false) [] fun _ => .zero with
    tasks := { Tasks.init fun a => { RMFT2.zero with next := 3 - a, loco := if a = 1 then 3 else 4 } with
      live := [1, 2]
      loopTask := some 1 } }

/-- `PAUSE` and `RESUME` of the first task do not bring loco 3 back to its speed, and the commands do. -/
theorem pause_restores_of_task :
    wp (fun _ => False) ((Pauser.task 1).pause pauseAndResume .idle) (fun _ s₁ => ∀ s₂, Undisturbed s₁ s₂ →
      wp (fun _ => False) ((Pauser.task 1).resume pauseAndResume .idle)
        (fun _ s₃ => s₃.speedByteOf 3 ≠ 178) s₂) twoTasks ∧
    wp (fun _ => False) (Pauser.command.pause pauseAndResume .idle) (fun _ s₁ => ∀ s₂, Undisturbed s₁ s₂ →
      wp (fun _ => False) (Pauser.command.resume pauseAndResume .idle)
        (fun _ s₃ => s₃.speedByteOf 3 = 178 ∧ s₃.speedByteOf 4 = 128) s₂) twoTasks := by
  have hring : twoTasks.tasks.Ring := by
    unfold twoTasks
    exact ⟨[1, 2], circle_cons.mpr ⟨by decide, rfl, rfl⟩, .refl _, rfl⟩
  have hT : twoTasks.Shows onlyLoco3 := by
    unfold twoTasks
    exact loco3Station_shows
  have hlocos : Pauser.locos twoTasks.tasks = [3, 4] := by
    unfold twoTasks
    decide
  have hspeed : ∀ l, twoTasks.speedByteOf l = onlyLoco3.speedByte l := fun _ => speedByteOf_eq hT
  constructor
  · have hexists : 1 ∈ twoTasks.tasks.live := by
      unfold twoTasks
      exact List.mem_cons_self
    refine wp_mono (pause_restores pauseAndResume .idle .idle (.task 1) twoTasks onlyLoco3 hring hT hexists)
      fun _ s₁ h s₂ hs₂ => wp_mono (h s₂ hs₂) fun _ s₃ hs₃ heq => ?_
    -- neither task has saved a speed
    have hrestores : Targets.lastSaved (twoTasks.tasks.savedSpeeds (twoTasks.tasks.around 1)) 3 =
        some 178 := (hs₃ 3 (by simp [hlocos])).mp (heq.trans (hspeed 3).symm)
    have hsaved : Targets.lastSaved (twoTasks.tasks.savedSpeeds (twoTasks.tasks.around 1)) 3 = some 0 := by
      unfold twoTasks
      decide
    exact absurd (hsaved.symm.trans hrestores) (by decide)
  · refine wp_mono (pause_restores pauseAndResume .idle .idle .command twoTasks onlyLoco3 hring hT trivial)
      fun _ s₁ h s₂ hs₂ => wp_mono (h s₂ hs₂) fun _ s₃ hs₃ => ⟨?_, ?_⟩
    · exact ((hs₃ 3 (by simp [hlocos])).mpr trivial).trans (hspeed 3)
    · exact ((hs₃ 4 (by simp [hlocos])).mpr trivial).trans (hspeed 4)

/-- `AUTOSTART SETLOCO(3) FWD(50) PAUSE RESUME DONE` -/
@[irreducible] def driveAndPause : Script := Script.ofCells 0 (fun _ => .text)
  [(.autostart, 0), (.setloco, 3), (.fwd, 50), (.pause, 0), (.resume, 0), (.endtask, 0)]

/-- The loco runs forwards at speed 50. After `PAUSE` and `RESUME` it stands, in the other
direction: its task had never saved a speed. -/
theorem pause_forgets : ¬ ∀ (script : Script) (w : Inputs) (pauser : Pauser) (s : Exrail),
    Reached script s → pauser.Exists s.tasks → wp (fun _ => True) (pauser.pause script w) (fun _ s₁ =>
      ∀ s₂, Undisturbed s₁ s₂ → wp (fun _ => True) (pauser.resume script w) (fun _ s₃ =>
        ∀ l ∈ Pauser.locos s.tasks, s₃.speedByteOf l = s.speedByteOf l) s₂) s := by
  intro hall
  have hrun : wp (fun _ => False)
      (history driveAndPause .idle [.loop .idle, .loop .idle, .loop .idle]) (fun _ s =>
        1 ∈ s.tasks.live ∧ 3 ∈ Pauser.locos s.tasks ∧
        wp (fun _ => False) ((Pauser.task 1).pause driveAndPause .idle) (fun _ s₁ =>
          (s₁.tasks.next 1 = 1 ∧ s₁.tasks.live = [1] ∧ s₁.tasks.loopTask = some 1) ∧
          wp (fun _ => False) ((Pauser.task 1).resume driveAndPause .idle) (fun _ s₃ =>
            s₃.speedByteOf 3 ≠ s.speedByteOf 3) s₁) s) (init bareRails [] fun _ => .zero) := by
    decide +kernel
  obtain ⟨_, s, hexec, hthis, hloco, hpause⟩ := wp_iff_exists.mp hrun
  obtain ⟨_, s₁, hpaused, ⟨hnext, hlive, hloop⟩, hresume⟩ := wp_iff_exists.mp hpause
  obtain ⟨_, s₃, hresumed, hne⟩ := wp_iff_exists.mp hresume
  have hring : s₁.tasks.Ring :=
    ⟨[1], circle_singleton.mpr hnext, hlive ▸ List.Perm.refl _, hloop⟩
  have hrestored := wp_of_ok hpaused (hall driveAndPause .idle (.task 1) s
    ⟨_, _, _, _, _, hexec⟩ hthis) s₁ ⟨hring, rfl, fun _ _ => rfl, fun _ _ => rfl, fun _ h => h⟩
  exact hne (wp_of_ok hresumed hrestored 3 hloco)

end Exrail

end CommandStation
