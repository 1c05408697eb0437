import CommandStation.EXRAIL2.Structure
import CommandStation.EXRAIL2.Steps

/-!
# Opcodes that leave their task where it is

A task goes on to the next cell after most opcodes: they neither wait nor transfer control. Only its
own steps move a task; no opcode, command or step of another task does.
-/

namespace CommandStation

open CommandStation.Lib CommandStation.Tasks

namespace Opcode

/-- The opcode may keep the task waiting at its cell. -/
def waits : Opcode → Bool
  | .reserve | .at_ | .atgte | .atlt | .attimeout2 | .after | .afteroverload | .waitWhileRed
  | .readLoco2 | .waitfor | .waitfortt => true
  | _ => false

/-- The opcode sends the task to another place of the script. -/
def transfers : Opcode → Bool
  | .follow | .randomFollow | .call | .randomCall | .return_ => true
  | _ => false

end Opcode

namespace Exrail

variable {script : Script} {w : Inputs} {s s' : Exrail} {this : Addr} {task : RMFT2}
  {operand : Int16} {pc : Int}

/-! ## A task that others take steps beside -/

/-- What is said of a task is about its place in the script, and where it is to return to. -/
def AboutPlace (P : RMFT2 → Prop) : Prop := ∀ task task' : RMFT2,
  task'.progCounter = task.progCounter → task'.stackDepth = task.stackDepth →
    task'.callStack = task.callStack → P task → P task'

/-- The task exists and `P` holds of it, and it is not one that blinks a pin. -/
structure Rests (script : Script) (this : Addr) (P : RMFT2 → Prop) (t : Tasks) : Prop where
  well : t.Well script
  live : this ∈ t.live
  calm : script.has Script.featureBlink → (t.mem this).isBlink = false
  holds : P (t.mem this)

section Resting

variable {P : RMFT2 → Prop} (hP : AboutPlace P)

include hP

theorem Rests.same {t t' : Tasks} (h : Rests script this P t) (hwell : t'.Well script)
    (hlive : this ∈ t'.live) (hobject : SameObject (t'.mem this) (t.mem this)) :
    Rests script this P t' where
  well := hwell
  live := hlive
  calm hfeature := by
    rw [hobject.isBlink]
    exact h.calm hfeature
  holds := by
    refine hP (t.mem this) _ ?_ ?_ ?_ h.holds
    all_goals rw [hobject]

theorem Rests.killed {t t' : Tasks} {a : Addr} (h : Rests script this P t)
    (hk : Tasks.Killed a t t') (hne : a ≠ this) : Rests script this P t' :=
  h.same hP (hk.well h.well) (hk.live ▸ (List.mem_erase_of_ne hne.symm).mpr h.live) (hk.others this)

theorem Rests.setFlag {t : Tasks} {id : UInt16} {on off : UInt8} (h : Rests script this P t) :
    Rests script this P (t.setFlag id on off) :=
  h.same hP h.well.setFlag (by rw [setFlag_live]; exact h.live) (by rw [setFlag_mem]; rfl)

theorem Rests.congr {t t' : Tasks} (h : Rests script this P t) (hmem : t'.mem = t.mem)
    (hlive : t'.live = t.live) (hloop : t'.loopTask = t.loopTask) : Rests script this P t' :=
  h.same hP (h.well.congr hmem hlive hloop) (hlive ▸ h.live) (by rw [hmem]; rfl)

/-- **Only its own steps move a task**, and change where it is to return to. -/
theorem lasting_rests : Lasting script (fun a => a ≠ this) (fun _ a => a ≠ this)
    (fun t _ => Rests script this P t) where
  well h := h.well
  flag _ _ _ _ h := h.setFlag hP
  write {t skip a f} h ha hf := by
    by_cases heq : this = a
    · subst heq
      refine ⟨h.well.write hf.next hf.blink, h.live, fun hfeature => ?_, ?_⟩
      · rw [write_mem_self]
        by_contra hblink
        have hwas := (hf.blink hfeature (by simpa using hblink)).1
        rw [h.calm hfeature] at hwas
        cases hwas
      · rw [write_mem_self]
        exact hP _ _ hf.progCounter hf.stackDepth hf.callStack h.holds
    · exact h.same hP (h.well.write hf.next hf.blink) h.live (by rw [write_mem, if_neg heq]; rfl)
  create {t t' skip a} h hc hwell := by
    have hne : this ≠ a := fun heq => hc.fresh (heq ▸ h.live)
    exact h.same hP hwell (hc.live ▸ List.mem_cons_of_mem a h.live) (hc.others this hne)
  killBlink {t t' skip a} hfeature h hblink hk := by
    refine h.killed hP hk fun heq => ?_
    rw [heq, h.calm hfeature] at hblink
    cases hblink
  killed h hne hk := h.killed hP hk hne
  paused h _ := h.congr hP rfl rfl rfl
  pointed h ha := h.same hP ⟨h.well.ring.point ha, h.well.blinks⟩ h.live rfl
  moved {t skip f a} hne h hf :=
    h.same hP (hf.well h.well) h.live (by rw [write_mem, if_neg fun heq => hne heq.symm]; rfl)
  forced _ h := h.setFlag hP
  acquired _ _ h _ := (h.setFlag hP).congr hP rfl rfl rfl
  freed {t skip} id h := by
    have hnote : Rests script this P (t.note (.freed id)) := h.congr hP rfl rfl rfl
    exact hnote.setFlag hP
  freedAll {t skip} h := by
    obtain ⟨flags, hflags⟩ := t.freeAllSections_eq
    rw [hflags]
    exact h.congr hP rfl rfl rfl

/-- A statement that does not transfer control and does not kill its task. -/
theorem Rests.wp_statement {op : Opcode} (hop : op.isStatement) (htransfer : op.transfers = false)
    (h : Within (fun t skip => Rests script this P t ∧ skip = false) s) (hloop : s.tasks.loopTask = some this)
    (hprint : op = .print → (script.messages (operandU operand)).isCondition = false)
    (hsurvives : ¬ opcodeKills script w this task operand (some op) s.tasks this) :
    wp NotDangling (execute script w this task operand (some op))
      (fun _ => Within fun t skip => Rests script this P t ∧ skip = false) s := by
  have hlasting : Lasting script _ _ fun t _ => Rests script this P t := lasting_rests hP
  have hI := (hlasting.fixed false).toStable
  have hlive := h.1.live
  have hcalm := h.1.calm
  -- most statements touch neither the task nor its place in the script
  by_cases hplain : op.isPlain
  · exact wp_mono (hI.execute_plain hplain s ⟨h, hlive, hcalm⟩) fun _ _ h' => h'.1
  unfold execute
  cases op with
  | reserve => exact hI.wp_reserve h hlive hcalm
  | free =>
    simp only [thenBreak, Exrail.setFlag, Exrail.note, onTasks, wp_bind, wp_zoom, wp_modify, wp_pure]
    exact hI.freed _ h
  | freeall => exact retains_thenBreak hI.retains_freeAll s h
  | pause =>
    rw [wp_bind]
    refine wp_onStation fun _ rails => ?_
    simp only [thenBreak, onTasks, wp_bind, wp_zoom, wp_modify, wp_pure]
    refine hI.paused h fun a ha => ?_
    obtain rfl := PausingTask.task.inj ha
    exact ⟨hlive, hcalm⟩
  | resume => exact hI.wp_resumeAll h hlive
  | blink => exact hI.wp_blink h hloop hcalm
  | neopixel => exact hI.wp_neopixel h hloop hcalm
  | print =>
    show wp NotDangling (printMessage script w task operand) _ s
    have hprint := hprint rfl
    unfold opcodeKills at hsurvives
    unfold printMessage
    cases hm : script.messages (operandU operand) with
    | text => exact h
    | parse c =>
      simp only [hm] at hsurvives
      exact wp_thenBreak (hI.wp_command h fun a _ hkills heq => hsurvives (heq ▸ hkills))
    | ifLoco locolist => rw [hm] at hprint; cases hprint
    | ifAll vpinList => rw [hm] at hprint; cases hprint
    | ifAny vpinList => rw [hm] at hprint; cases hprint
  | onrailsyncon | onrailsyncoff =>
    refine wp_ite (fun _ => h) fun hbooster => ?_
    exact absurd ⟨by simpa using hbooster, rfl⟩ hsurvives
  | endtask | signal | roster | onclocktime | onvpSensor | ifTypeOpcodes =>
    exact absurd rfl hsurvives
  | killall => exact absurd trivial hsurvives
  | _ => first
    | exact absurd hop (by decide)
    | exact absurd htransfer (by decide)
    | exact absurd (by decide) hplain

end Resting

/-! ## The task stays where it is -/

/-- The task exists and is at a cell, and it is not one that blinks a pin. -/
structure StaysAt (script : Script) (this : Addr) (pc : Int) (t : Tasks) : Prop where
  well : t.Well script
  live : this ∈ t.live
  calm : script.has Script.featureBlink → (t.mem this).isBlink = false
  at_ : (t.mem this).progCounter = pc

theorem staysAt_iff {t : Tasks} :
    StaysAt script this pc t ↔ Rests script this (fun task => task.progCounter = pc) t :=
  ⟨fun h => ⟨h.well, h.live, h.calm, h.at_⟩, fun h => ⟨h.well, h.live, h.calm, h.holds⟩⟩

theorem aboutPlace_progCounter : AboutPlace fun task => task.progCounter = pc :=
  fun _ _ hsame _ _ h => hsame.trans h

theorem StaysAt.same {t t' : Tasks} (h : StaysAt script this pc t) (hwell : t'.Well script)
    (hlive : this ∈ t'.live) (hobject : SameObject (t'.mem this) (t.mem this)) :
    StaysAt script this pc t' :=
  staysAt_iff.mpr ((staysAt_iff.mp h).same aboutPlace_progCounter hwell hlive hobject)

theorem StaysAt.setFlag {t : Tasks} {id : UInt16} {on off : UInt8} (h : StaysAt script this pc t) :
    StaysAt script this pc (t.setFlag id on off) :=
  staysAt_iff.mpr ((staysAt_iff.mp h).setFlag aboutPlace_progCounter)

theorem StaysAt.congr {t t' : Tasks} (h : StaysAt script this pc t) (hmem : t'.mem = t.mem)
    (hlive : t'.live = t.live) (hloop : t'.loopTask = t.loopTask) : StaysAt script this pc t' :=
  staysAt_iff.mpr ((staysAt_iff.mp h).congr aboutPlace_progCounter hmem hlive hloop)

theorem lasting_staysAt : Lasting script (fun a => a ≠ this) (fun _ a => a ≠ this)
    (fun t _ => StaysAt script this pc t) := by
  simp only [staysAt_iff]
  exact lasting_rests aboutPlace_progCounter

/-- The task is where it was, and no condition has failed. -/
def Unmoved (script : Script) (this : Addr) (pc : Int) (s : Exrail) : Prop :=
  Within (fun t skip => StaysAt script this pc t ∧ skip = false) s

theorem wp_statement {op : Opcode} (hop : op.isStatement) (htransfer : op.transfers = false)
    (h : Unmoved script this pc s) (hloop : s.tasks.loopTask = some this)
    (hprint : op = .print → (script.messages (operandU operand)).isCondition = false)
    (hsurvives : ¬ opcodeKills script w this task operand (some op) s.tasks this) :
    wp NotDangling (execute script w this task operand (some op))
      (fun _ => Unmoved script this pc) s := by
  have hunmoved : Unmoved script this pc = Within fun t skip =>
      Rests script this (fun task => task.progCounter = pc) t ∧ skip = false := by
    funext s
    simp only [Unmoved, staysAt_iff]
  rw [hunmoved] at h ⊢
  exact Rests.wp_statement aboutPlace_progCounter hop htransfer h hloop hprint hsurvives

/-! ## What opcodes end with -/

/-- The program is left with `break`. -/
def Breaks (m : Exr Flow) : Prop := ∀ s, wp (fun _ => True) m (fun flow _ => flow = .breaks) s

theorem breaks_pure : Breaks (pure .breaks) := fun _ => rfl

theorem breaks_bind {α : Type} {m : Exr α} {f : α → Exr Flow} (h : ∀ a, Breaks (f a)) :
    Breaks (m >>= f) := by
  intro s
  rw [wp_bind]
  exact wp_iff_forall.mpr fun a s' _ => h a s'

theorem breaks_thenBreak {α : Type} {m : Exr α} : Breaks (thenBreak m) :=
  breaks_bind fun _ => breaks_pure

theorem breaks_ite {c : Prop} [Decidable c] {m m' : Exr Flow} (h : Breaks m) (h' : Breaks m') :
    Breaks (if c then m else m') := by
  split
  · exact h
  · exact h'

/-- **An opcode that neither waits nor goes elsewhere is left with `break`.** -/
theorem breaks_execute {op : Opcode} (hwaits : op.waits = false) (htransfer : op.transfers = false)
    (hend : op ≠ .endtask ∧ op ≠ .endexrail ∧ op ≠ .killall) :
    Breaks (execute script w this task operand (some op)) := by
  unfold execute
  cases op with
  | toggleTurnout | momentum | setfreq | pickupStash => exact breaks_bind fun _ => breaks_thenBreak
  | pom | fon | foff | ftoggle => exact breaks_bind fun _ => breaks_thenBreak
  | aspect | poweron | free | pause | readLoco1 => exact breaks_bind fun _ => breaks_thenBreak
  | poweroff | join => exact breaks_bind fun _ => breaks_bind fun _ => breaks_thenBreak
  | estopall => exact breaks_ite breaks_thenBreak breaks_thenBreak
  | setPower => exact breaks_ite breaks_thenBreak (breaks_ite breaks_thenBreak breaks_pure)
  | blink =>
    exact breaks_bind fun _ => breaks_bind fun _ => breaks_thenBreak
  | resume =>
    exact breaks_bind fun _ => breaks_bind fun _ => breaks_bind fun _ => breaks_bind fun _ =>
      breaks_thenBreak
  | ifreserve =>
    refine breaks_bind fun _ => breaks_ite breaks_thenBreak (breaks_bind fun _ => breaks_thenBreak)
  | ifloco | print =>
    show Breaks (printMessage script w task operand)
    unfold printMessage
    split
    · exact breaks_pure
    · exact breaks_thenBreak
    · exact breaks_thenBreak
  | onrailsyncon | onrailsyncoff => exact breaks_ite breaks_pure breaks_thenBreak
  | reserve | at_ | atgte | atlt | attimeout2 | after | afteroverload | waitWhileRed =>
    exact absurd hwaits (by decide)
  | readLoco2 | waitfor | waitfortt => exact absurd hwaits (by decide)
  | follow | randomFollow | call | randomCall | return_ => exact absurd htransfer (by decide)
  | endtask => exact absurd rfl hend.1
  | endexrail => exact absurd rfl hend.2.1
  | killall => exact absurd rfl hend.2.2
  | _ => first
    | exact breaks_thenBreak
    | exact breaks_pure

end Exrail

end CommandStation
