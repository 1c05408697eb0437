import CommandStation.EXRAIL2.Steps

/-!
# The pausing task

While a script has paused the others, `pausingTask` points to its task, and the others get no
service. The destructor does not look at `pausingTask`: when the pausing task ends without a
`RESUME`, the pointer keeps its address and the other tasks stay suspended. As long as no call kills
the pausing task, the pointer is valid.
-/

namespace CommandStation

open CommandStation.Lib CommandStation.Tasks

namespace Tasks

/-- `pausingTask` is null, the external pause, or a task that exists. -/
def PauseValid (t : Tasks) : Prop :=
  match t.pausingTask with
  | .task a => a ∈ t.live
  | _ => True

instance (t : Tasks) : Decidable t.PauseValid := by
  unfold PauseValid
  split <;> infer_instance

/-- The pausing task exists, and it is not one that blinks. -/
def PauseOk (script : Script) (t : Tasks) : Prop :=
  ∀ a, t.pausingTask = .task a → a ∈ t.live ∧
    (script.has Script.featureBlink → (t.mem a).isBlink = false)

variable {script : Script} {t t' : Tasks} {a : Addr}

theorem PauseOk.valid (h : t.PauseOk script) : t.PauseValid := by
  unfold PauseValid
  split
  · next a ha => exact (h a ha).1
  · trivial

theorem PauseOk.congr (h : t.PauseOk script) (hpausing : t'.pausingTask = t.pausingTask)
    (hlive : t'.live = t.live) (hmem : t'.mem = t.mem) : t'.PauseOk script := by
  intro a ha
  rw [hlive, hmem]
  exact h a (hpausing ▸ ha)

theorem PauseOk.write (h : t.PauseOk script) {f : RMFT2 → RMFT2}
    (hblink : script.has Script.featureBlink → (t.mem a).isBlink = false →
      (f (t.mem a)).isBlink = false) : (t.write a f).PauseOk script := by
  intro b hb
  obtain ⟨hlive, hcalm⟩ := h b hb
  refine ⟨hlive, fun hfeature => ?_⟩
  by_cases hba : b = a
  · subst hba
    rw [write_mem_self]
    exact hblink hfeature (hcalm hfeature)
  · rw [write_mem, if_neg hba]
    exact hcalm hfeature

theorem Created.pauseOk (hc : Created a t t') (h : t.PauseOk script) : t'.PauseOk script := by
  intro b hb
  obtain ⟨hlive, hcalm⟩ := h b (hc.pausingTask ▸ hb)
  have hne : b ≠ a := fun heq => hc.fresh (heq ▸ hlive)
  rw [hc.live, (hc.others b hne).isBlink]
  exact ⟨List.mem_cons_of_mem a hlive, hcalm⟩

/-- The task that is killed is not the pausing one. -/
theorem Killed.pauseOk (hk : Killed a t t') (h : t.PauseOk script)
    (hspared : t.pausingTask ≠ .task a) : t'.PauseOk script := by
  intro b hb
  rw [hk.pausingTask] at hb
  obtain ⟨hlive, hcalm⟩ := h b hb
  have hne : b ≠ a := fun heq => hspared (heq ▸ hb)
  rw [hk.live, (hk.others b).isBlink]
  exact ⟨(List.mem_erase_of_ne hne).mpr hlive, hcalm⟩

end Tasks

namespace Exrail

variable {script : Script} {w : Inputs} {s : Exrail}

/-- What holds of the pausing task is kept, unless this task is killed. -/
theorem kept_pauseOk : Kept script (fun p a => p ≠ .task a) (PauseOk script) where
  flag _ _ _ _ h := h.congr setFlag_pausingTask setFlag_live setFlag_mem
  write h _ hblink := h.write fun hfeature hcalm => by
    by_contra hblinks
    rw [hblink hfeature (by simpa using hblinks)] at hcalm
    cases hcalm
  create h hc := hc.pauseOk h
  killed h _ hspared hk := hk.pauseOk h fun heq => by
    rcases hspared with hspared | ⟨hfeature, hblink⟩
    · exact hspared heq
    · rw [(h _ heq).2 hfeature] at hblink
      cases hblink
  paused _ hp := hp
  pointed h := h
  forced _ h := h.congr setFlag_pausingTask setFlag_live setFlag_mem
  acquired _ _ h _ := h.congr setFlag_pausingTask setFlag_live setFlag_mem
  freed {t} id h := by
    have hnote : (t.note (.freed id)).PauseOk script := h
    exact hnote.congr setFlag_pausingTask setFlag_live setFlag_mem
  freedAll {t} h := by
    obtain ⟨flags, hflags⟩ := t.freeAllSections_eq
    rw [hflags]
    exact h

/-- The call does not kill the pausing task. -/
def sparesPausing (script : Script) (s : Exrail) (turn : Turn) : Prop :=
  match s.tasks.pausingTask with
  | .task a => ¬ turn.kills script s a
  | _ => True

instance (script : Script) (s : Exrail) (turn : Turn) : Decidable (sparesPausing script s turn) := by
  unfold sparesPausing
  split <;> infer_instance

theorem pausingTask_init (mem : Addr → RMFT2) : (Tasks.init mem).PauseOk script :=
  fun _ ha => by cases ha

/-- **The pausing task exists**, in every run in which no call kills the task that has paused the
others. -/
theorem pausingTask_valid (script : Script) (w : Inputs) (rails : JoinStation)
    (turnouts : List Turnout) (mem : Addr → RMFT2) (turns : List Turn)
    (hspared : wp (fun _ => True) (begin script w)
      (fun _ s => AlongProg (Turn.exec script) (sparesPausing script) turns s)
      (init rails turnouts mem)) :
    wp NotDangling (history script w turns)
      (fun _ s => s.tasks.PauseValid) (init rails turnouts mem) := by
  rw [history, wp_bind]
  refine wp_mono (wp_and (kept_pauseOk.wp_begin (pausingTask_init mem)) hspared) fun _ s hs => ?_
  refine wp_mono (kept_pauseOk.wp_run hs.1 (hs.2.mono fun s turn hspares => ?_)) fun _ s' h => h.2.valid
  intro a _ hkills heq
  rw [sparesPausing, heq] at hspares
  exact hspares hkills

/-- A station with room for one loco and no tracks, at start-up. -/
def bareRails : JoinStation := JoinStation.init (Station.init .avr 1 []) false

/-- `AUTOSTART PAUSE RESUME DONE AUTOSTART LATCH(1) DONE`. Irreducible, so that only the kernel runs
it. -/
@[irreducible] def pauseAndResume : Script := Script.ofCells 0 (fun _ => .text)
  [(.autostart, 0), (.pause, 0), (.resume, 0), (.endtask, 0), (.autostart, 0), (.latch, 1),
    (.endtask, 0)]

theorem pausingTask_valid_of_resume : wp NotDangling
    (history pauseAndResume .idle (List.replicate 12 (.loop .idle))) (fun _ s => s.tasks.PauseValid)
    (init bareRails [] fun _ => .zero) := by
  refine pausingTask_valid _ _ _ _ _ _ ?_
  decide +kernel

/-- `AUTOSTART PAUSE DONE AUTOSTART LATCH(1) DONE` -/
def pauseAndEnd : Script := Script.ofCells 0 (fun _ => .text)
  [(.autostart, 0), (.pause, 0), (.endtask, 0), (.autostart, 0), (.latch, 1), (.endtask, 0)]

/-- The first task pauses the second one and ends: the second one is suspended for ever. -/
theorem pausingTask_dangles : ¬ ∀ (script : Script) (w : Inputs) (rails : JoinStation)
    (turnouts : List Turnout) (mem : Addr → RMFT2) (turns : List Turn),
    wp NotDangling (history script w turns) (fun _ s => s.tasks.PauseValid)
      (init rails turnouts mem) := by
  simp only [not_forall]
  refine ⟨pauseAndEnd, .idle, bareRails, [], fun _ => .zero, List.replicate 6 (.loop .idle), ?_⟩
  decide +kernel

end Exrail

end CommandStation
