import CommandStation.EXRAIL2.Plain

/-!
# Commands and the other opcodes

A property of the ring is `Stable` if also what commands do keeps it, and the opcodes that have to do
with sections, the pausing task and blinking. Which tasks may be killed is left to a parameter `K`,
as a property may depend on that.
-/

namespace CommandStation

open CommandStation.Lib CommandStation.Tasks

/-- The command kills this task. -/
def Command.kills (c : Command) (t : Tasks) (a : Addr) : Prop :=
  match c with
  | .slash paramCount p => paramCount ≠ 0 ∧ p 0 = hk "KILL" ∧
      (p 1 = hk "ALL" ∨ paramCount = 2 ∧ ((t.mem a).taskId.toNat : Int) = (p 1).toInt)
  | _ => False

instance (c : Command) (t : Tasks) (a : Addr) : Decidable (c.kills t a) := by
  unfold Command.kills
  split <;> infer_instance

namespace Exrail

/-- A property of the ring that every command keeps, and every opcode but those of the flow of
control, as long as the tasks that are killed are allowed by `K`. -/
structure Stable (script : Script) (K : PausingTask → Addr → Prop) (I : Tasks → Bool → Prop) : Prop
    extends Steady script I where
  killed : ∀ {t t' skip a}, I t skip → K t.pausingTask a → Tasks.Killed a t t' → I t' skip
  paused : ∀ {t skip p}, I t skip → (∀ a, p = .task a → a ∈ t.live ∧
    (script.has Script.featureBlink → (t.mem a).isBlink = false)) →
    I { t with pausingTask := p } skip
  forced : ∀ {t skip} id, I t skip → I (t.setFlag id sectionFlag 0) skip
  acquired : ∀ {t skip} a id, I t skip → t.getFlag id sectionFlag = false →
    I ((t.setFlag id sectionFlag 0).note (.acquired a id)) skip
  freed : ∀ {t skip} id, I t skip → I ((t.note (.freed id)).setFlag id 0 sectionFlag) skip
  freedAll : ∀ {t skip}, I t skip → I (t.freeAllSections.note .freedAll) skip

variable {script : Script} {w : Inputs} {K : PausingTask → Addr → Prop} {I : Tasks → Bool → Prop}
  {s : Exrail} {a this : Addr} {task : RMFT2} {operand : Int16}

section Kills

variable (hI : Stable script K I)

include hI

theorem Stable.wp_kill (h : Within I s) (ha : a ∈ s.tasks.live) (hK : K s.tasks.pausingTask a) :
    wp NotDangling (kill w a) (fun _ => Within I) s :=
  Exrail.wp_kill (hI.well h).ring ha fun _ _ hk => hI.killed h hK hk

/-- To kill all tasks keeps what is stable, if all of them may be killed. -/
theorem Stable.wp_killAll (h : Within I s) (hK : ∀ a ∈ s.tasks.live, K s.tasks.pausingTask a) :
    wp NotDangling (killAll w) (fun _ => Within I) s := by
  simp only [killAll, wp_bind, wp_get]
  refine wp_mono (wp_loop_of_turn (F := NotDangling) (by simp [NotDangling])
    (fun p _ s => Within I s ∧ p = s.tasks.loopTask ∧
      ∀ a ∈ s.tasks.live, K s.tasks.pausingTask a) ?_ ⟨h, rfl, hK⟩) fun _ _ h => h.1
  rintro a _ s ⟨h, ha, hK⟩
  have hring := (hI.well h).ring
  have hlive : a ∈ s.tasks.live := hring.loopTask_mem ha.symm
  simp only [wp_bind]
  refine Exrail.wp_kill hring hlive fun rails t' hk => ?_
  refine ⟨hI.killed h (hK a hlive) hk, rfl, fun b hb => ?_⟩
  have hb' : b ∈ s.tasks.live := List.mem_of_mem_erase (hk.live ▸ hb)
  rw [hk.pausingTask]
  exact hK b hb'

theorem Stable.wp_slashKill {id : Int16} (h : Within I s)
    (hK : ∀ a ∈ s.tasks.live, ((s.tasks.mem a).taskId.toNat : Int) = id.toInt →
      K s.tasks.pausingTask a) : wp NotDangling (slashKill w id) (fun _ => Within I) s := by
  refine wp_ite (fun _ => h) fun _ => ?_
  refine wp_eachTask (P := fun s' => s' = s) (fun s' h' => h' ▸ (hI.well h).ring) ?_
    (fun s' h' => h' ▸ h) rfl
  rintro a s rfl ha
  rw [wp_bind]
  refine wp_read ha ?_
  refine wp_ite (fun hid => ?_) fun _ => ⟨nofun, fun _ => ⟨rfl, ha⟩⟩
  rw [wp_bind]
  exact wp_mono (hI.wp_kill h ha (hK a ha hid)) fun _ s' h' => ⟨fun _ => h', nofun⟩

end Kills

/-! ## Commands -/

theorem wp_resume {Q : Unit → Exrail → Prop} (ha : a ∈ s.tasks.live)
    (h : ∀ rails, Q () { s with rails := rails }) : wp NotDangling (resume w a) Q s := by
  simp only [resume, wp_bind]
  refine wp_read ha ?_
  exact wp_when (fun _ => wp_setThrottle h) fun _ => h s.rails

theorem retains_guarded {c : Prop} [Decidable c] {m : Exr Unit} (h : Retains I m) :
    Retains I (guarded c m) :=
  keeps_ite (fun _ => keeps_bind h fun _ => keeps_pure true) fun _ => keeps_pure false

theorem retains_introduceLcc : Retains I (introduceLcc script) := by
  refine keeps_get_bind fun s => ?_
  split
  · exact fun _ _ => Crash.noConfusion
  · refine keeps_ite (fun _ => retains_modify (fun _ => rfl) fun _ => rfl) fun _ => ?_
    exact keeps_bind (keeps_when fun _ => retains_modify (fun _ => rfl) fun _ => rfl) fun _ =>
      retains_modify (fun _ => rfl) fun _ => rfl

section Commands

variable (hI : Stable script K I)

include hI

theorem Stable.retains_freeAll : Retains I freeAll := by
  intro s h
  simp only [freeAll, Exrail.note, onTasks, wp_bind, wp_zoom, wp_modify]
  exact hI.freedAll h

theorem Stable.retains_pausing {p : PausingTask} (hp : ∀ a, p ≠ .task a) :
    Retains I (onTasks (modify fun t => { t with pausingTask := p })) :=
  fun _ h => hI.paused h fun a ha => absurd ha (hp a)

theorem Stable.retains_slashPause : Retains I slashPause := by
  refine keeps_bind (hI.retains_eachTask fun a s h ha => ?_) fun _ =>
    keeps_bind retains_onStation fun _ => hI.retains_pausing nofun
  simp only [pause, wp_bind]
  refine wp_read ha ?_
  refine wp_when (fun _ => ?_) fun _ => ⟨h, ha⟩
  rw [wp_bind]
  refine wp_onStation fun speed rails => ?_
  refine wp_write ha ⟨?_, ha⟩
  exact hI.write (f := fun task => { task with pauseSpeed := speed }) h ha
    ⟨rfl, rfl, rfl, rfl, rfl, fun _ h => ⟨h, rfl⟩⟩

theorem Stable.retains_slashResume : Retains I (slashResume w) := by
  refine keeps_bind (hI.retains_pausing nofun) fun _ =>
    keeps_bind (hI.retains_eachTask fun a s h ha => ?_) fun _ => keeps_pure _
  rw [wp_bind]
  exact wp_resume ha fun _ => ⟨h, ha⟩

/-- The `</ ...>` commands keep what is stable, if the tasks that they kill are ones that may be killed. -/
theorem Stable.wp_parseSlash {paramCount : UInt8} {p : Nat → Int16} (h : Within I s)
    (hK : ∀ a ∈ s.tasks.live, (Command.slash paramCount p).kills s.tasks a →
      K s.tasks.pausingTask a) :
    wp NotDangling (parseSlash script w paramCount p) (fun _ => Within I) s := by
  unfold parseSlash
  refine wp_ite (fun _ => h) fun hcount => ?_
  refine wp_ite (fun _ => retains_guarded hI.retains_slashPause s h) fun _ => ?_
  refine wp_ite (fun _ => retains_guarded hI.retains_slashResume s h) fun _ => ?_
  refine wp_ite (fun _ => retains_guarded hI.retains_freeAll s h) fun _ => ?_
  refine wp_ite (fun _ => wp_ite (fun _ => h) fun _ => ?_) fun _ => ?_
  · exact retains_guarded (keeps_bind hI.retains_newTask fun _ => keeps_pure _) s h
  refine wp_ite (fun ⟨hkill, hall⟩ => ?_) fun _ => ?_
  · unfold guarded
    rw [if_pos trivial, wp_bind]
    exact wp_mono (hI.wp_killAll h fun a ha => hK a ha ⟨hcount, hkill, .inl hall⟩) fun _ _ h' => h'
  refine wp_ite (fun _ => h) fun htwo => ?_
  unfold slashOne
  refine wp_ite (fun hkill => ?_) fun _ => ?_
  · exact hI.wp_slashKill h fun a ha hid => hK a ha ⟨hcount, hkill, .inr ⟨not_not.mp htwo, hid⟩⟩
  refine wp_ite (fun _ => hI.forced _ h) fun _ => ?_
  refine wp_ite (fun _ => hI.freed _ h) fun _ => ?_
  refine wp_ite (fun _ => hI.flag _ _ _ rfl h) fun _ => ?_
  refine wp_ite (fun _ => hI.flag _ _ _ rfl h) fun _ => ?_
  refine wp_ite (fun _ => retains_guarded (hI.retains_doSignal rfl) s h) fun _ => ?_
  refine wp_ite (fun _ => retains_guarded (hI.retains_doSignal rfl) s h) fun _ => ?_
  exact wp_ite (fun _ => retains_guarded (hI.retains_doSignal rfl) s h) fun _ => h

/-- **Commands.** -/
theorem Stable.wp_command {c : Command} (h : Within I s)
    (hK : ∀ a ∈ s.tasks.live, c.kills s.tasks a → K s.tasks.pausingTask a) :
    wp NotDangling (command script w c) (fun _ => Within I) s := by
  cases c with
  | slash paramCount p =>
    rw [command, wp_bind]
    exact hI.wp_parseSlash h hK
  | aspect address value =>
    refine keeps_bind hI.retains_signalAspectEvent (fun _ => keeps_when fun _ => ?_) s h
    exact keeps_bind retains_onStation fun _ => keeps_pure _
  | lcc => exact keeps_when (fun _ => retains_introduceLcc) s h
  | lccEvent eventid =>
    refine keeps_when (fun _ => keeps_get_bind fun _ => keeps_when fun _ => ?_) s h
    exact hI.retains_startNonRecursiveTask
  | block block loco entering => exact keeps_when (fun _ => hI.retains_handleEvent) s h
  | setClosed id closed => exact hI.retains_setClosed s h
  | setClosedStateOnly id closed => exact hI.retains_setClosedStateOnly s h
  | setTurnouts turnouts => exact h
  | setAccessory address port gate onoff => exact hI.retains_setAccessory s h
  | setPosition turntable position => exact hI.retains_setPosition s h
  | changeEvent vpin change => exact keeps_when (fun _ => hI.retains_handleEvent) s h
  | clockEvent clocktime change =>
    refine keeps_when (fun _ => ?_) s h
    exact keeps_bind hI.retains_handleEvent fun _ => hI.retains_handleEvent
  | powerEvent track overload => exact keeps_when (fun _ => hI.retains_handleEvent) s h
  | railsyncEvent on =>
    refine keeps_when (fun _ => ?_) s h
    refine keeps_ite (fun _ => hI.retains_handleEvent) fun _ => ?_
    exact keeps_ite (fun _ => retains_onStation) fun _ => hI.retains_handleEvent
  | createNewTask route cab =>
    exact keeps_when (fun _ => keeps_bind hI.retains_newTask fun _ => keeps_pure _) s h
  | sensor progCounter => exact keeps_bind hI.retains_newTask (fun _ => keeps_pure _) s h
  | readLocoCallback cv => exact h
  | station op => exact keeps_bind retains_onStation (fun _ => keeps_pure _) s h
  | tracks op => exact retains_onRails s h

end Commands

/-! ## Opcodes -/

theorem wp_thenBreak {α : Type} {m : Exr α} {Q : Flow → Exrail → Prop}
    (h : wp NotDangling m (fun _ => Q .breaks) s) : wp NotDangling (thenBreak m) Q s := by
  rwa [thenBreak, wp_bind]

theorem wp_thenReturn {α : Type} {m : Exr α} {Q : Flow → Exrail → Prop}
    (h : wp NotDangling m (fun _ => Q .returns) s) : wp NotDangling (thenReturn m) Q s := by
  rwa [thenReturn, wp_bind]

section Opcodes

variable (hI : Stable script K I)

include hI

/-- To resume all tasks keeps what is stable. -/
theorem Stable.wp_resumeAll (h : Within I s) (hthis : this ∈ s.tasks.live) :
    wp NotDangling (resumeAll w this) (fun _ => Within I) s := by
  have h' : Within I { s with tasks := { s.tasks with pausingTask := .null } } := hI.paused h nofun
  simp only [resumeAll, wp_bind, onTasks, wp_zoom, wp_modify]
  refine wp_resume hthis fun rails => ?_
  refine wp_read hthis ?_
  simp only [wp_get, thenBreak, wp_bind]
  refine wp_mono (wp_loop_of_turn (F := NotDangling) (by simp [NotDangling])
    (fun p _ s => Within I s ∧ ∀ a, p = some a → a ∈ s.tasks.live) ?_ ?_) fun _ _ h => h.1
  · rintro a _ s ⟨h, ha⟩
    refine wp_ite (fun _ => ⟨h, by simp⟩) fun _ => ?_
    simp only [wp_bind]
    refine wp_resume (ha a rfl) fun rails => ?_
    refine wp_read (ha a rfl) ⟨h, fun b hb => ?_⟩
    obtain rfl := Option.some.inj hb
    exact (hI.well h).ring.next_mem (ha a rfl)
  · refine ⟨h', fun b hb => ?_⟩
    obtain rfl := Option.some.inj hb
    exact (hI.well h).ring.next_mem hthis

theorem Stable.wp_reserve (h : Within I s) (hthis : this ∈ s.tasks.live)
    (hcalm : script.has Script.featureBlink → (s.tasks.mem this).isBlink = false) :
    wp NotDangling (reserve w this task operand) (fun _ => Within I) s := by
  simp only [reserve, Exrail.getFlag, wp_bind, wp_get, wp_pure]
  refine wp_ite (fun _ => ?_) fun hfree => ?_
  · have hdelay : Retains (During script this I) (thenReturn (delayMe w this 500)) :=
      retains_thenReturn hI.retains_delayMe
    refine wp_mono (keeps_bind (keeps_when fun _ => retains_setSpeed) (fun _ => hdelay) s ?_)
      fun _ _ h' => h'.1
    exact ⟨h, hthis, hcalm⟩
  · simp only [thenBreak, Exrail.setFlag, Exrail.note, onTasks, wp_bind, wp_zoom, wp_modify, wp_pure]
    exact hI.acquired this _ h (by simpa using hfree)

/-- No task blinks the pin any more, so there may be a new one that does. -/
theorem Stable.wp_blink (h : Within I s) (hloop : s.tasks.loopTask = some this)
    (hcalm : script.has Script.featureBlink → (s.tasks.mem this).isBlink = false) :
    wp NotDangling (blink script w task operand) (fun _ => Within I) s := by
  simp only [blink, thenBreak, wp_bind, wp_pure]
  have hnew : ∀ s', Within I s' → (script.has Script.featureBlink → ∀ b ∈ s'.tasks.live,
      (s'.tasks.mem b).isBlink → (s'.tasks.mem b).blinkPin ≠ operandU operand) →
      wp NotDangling (newTask w task.progCounter 0 false) (fun a => wp NotDangling
        (Exrail.writeTask a fun task => { task.setBlinkPin (operandU operand) with
          blinkState := .blinkLow }) fun _ => Within I) s' := by
    intro s' h' hclear
    refine wp_newTask (hI.well h').ring fun a t' hc _ => ?_
    refine Exrail.wp_write hc.mem ?_
    have hcreated := hc.write (f := fun task => { task.setBlinkPin (operandU operand) with
      blinkState := .blinkLow }) rfl rfl
    refine hI.create h' hcreated (hcreated.well (hI.well h') fun hfeature _ b hb hblink => ?_)
    rw [write_mem_self]
    have hpin : (({ (t'.mem a).setBlinkPin (operandU operand) with
        blinkState := .blinkLow } : RMFT2)).blinkPin = operandU operand :=
      RMFT2.blinkPin_setBlinkPin _ _
    rw [hpin]
    exact hclear hfeature b hb hblink
  by_cases hfeature : script.has Script.featureBlink
  · refine wp_mono (hI.wp_killBlinkOnVpin hfeature h hloop (hcalm hfeature)) fun _ s' h' => ?_
    refine hnew s' h'.1 fun _ b hb hblink hpin => h'.2 b hb hblink ?_
    rw [hpin, UInt16.add_sub_cancel]
    exact ⟨UInt16.le_refl _, UInt16.le_refl _⟩
  · unfold killBlinkOnVpin when
    rw [if_neg hfeature]
    exact hnew s h fun hf => absurd hf hfeature

theorem Stable.wp_neopixel {pin count : UInt16} (h : Within I s)
    (hloop : s.tasks.loopTask = some this)
    (hcalm : script.has Script.featureBlink → (s.tasks.mem this).isBlink = false) :
    wp NotDangling (thenBreak (killBlinkOnVpin script w pin count)) (fun _ => Within I) s := by
  refine wp_thenBreak ?_
  by_cases hfeature : script.has Script.featureBlink
  · exact wp_mono (hI.wp_killBlinkOnVpin hfeature h hloop (hcalm hfeature)) fun _ _ h' => h'.1
  · unfold killBlinkOnVpin when
    rw [if_neg hfeature]
    exact h

end Opcodes

end Exrail

end CommandStation
