import CommandStation.EXRAIL2.Flags
import CommandStation.EXRAIL2.Steps

/-!
# Sections

A task acquires a section with `RESERVE` or `IFRESERVE`, which test the flag of the section and set
it. Nothing but the freeing of a section clears its flag, so between two acquisitions of a section it
has been freed.
-/

namespace CommandStation

open CommandStation.Lib CommandStation.Tasks

namespace Tasks

variable {t t' : Tasks} {a b : Addr} {id : UInt16} {events older mid : List SectionEvent}

/-- Whether the section has been acquired and not freed since. The newest event comes first. -/
def held (id : UInt16) : List SectionEvent → Bool
  | [] => false
  | .acquired _ id' :: older => id' = id || held id older
  | .freed id' :: older => id' ≠ id && held id older
  | .freedAll :: _ => false

/-- A section that is held is freed before it is not held any more. -/
theorem held_append (h : held id older = true) (hmid : .freed id ∉ mid) (hall : .freedAll ∉ mid) :
    held id (mid ++ older) = true := by
  induction mid with
  | nil => exact h
  | cons event mid ih =>
    simp only [List.mem_cons, not_or] at hmid hall
    have ih := ih hmid.2 hall.2
    cases event with
    | acquired a id' => simp [held, ih]
    | freed id' =>
      have hne : id' ≠ id := fun heq => hmid.1 (by rw [heq])
      simp [held, ih, hne]
    | freedAll => exact absurd rfl hall.1

/-- A section that is held has its flag set, and none was held when a task acquired it. -/
structure SectionsOk (t : Tasks) : Prop where
  flagged : ∀ id, id.toNat < maxFlags → held id t.sections = true → t.getFlag id sectionFlag = true
  exclusive : ∀ newer a id older, t.sections = newer ++ .acquired a id :: older →
    id.toNat < maxFlags → held id older = false

theorem sectionsOk_init (mem : Addr → RMFT2) : (init mem).SectionsOk :=
  ⟨fun _ _ h => (by cases h), fun newer _ _ _ h => (by cases newer <;> cases h)⟩

/-- Section flags stay set, and nothing is noted. -/
theorem SectionsOk.mono (h : t.SectionsOk) (hsections : t'.sections = t.sections)
    (hflags : ∀ id, t.getFlag id sectionFlag = true → t'.getFlag id sectionFlag = true) :
    t'.SectionsOk where
  flagged id hid hheld := hflags id (h.flagged id hid (hsections ▸ hheld))
  exclusive := hsections ▸ h.exclusive

theorem SectionsOk.congr (h : t.SectionsOk) (hsections : t'.sections = t.sections)
    (hflags : t'.flags = t.flags) : t'.SectionsOk :=
  h.mono hsections fun id hid => by rwa [getFlag_congr hflags]

/-- An event is noted. -/
theorem SectionsOk.exclusive_cons {event : SectionEvent} (h : t.SectionsOk)
    (hevent : ∀ a id, event = .acquired a id → id.toNat < maxFlags → held id t.sections = false) :
    ∀ newer a id older, event :: t.sections = newer ++ .acquired a id :: older →
      id.toNat < maxFlags → held id older = false := by
  intro newer a id older heq hid
  cases newer with
  | nil =>
    obtain ⟨hhead, rfl⟩ := List.cons.inj heq
    exact hevent a id hhead hid
  | cons _ newer => exact h.exclusive newer a id older (List.cons.inj heq).2 hid

/-- A task acquires a section whose flag is not set. -/
theorem SectionsOk.acquire (h : t.SectionsOk) (hfree : t.getFlag id sectionFlag = false) :
    ((t.setFlag id sectionFlag 0).note (.acquired a id)).SectionsOk := by
  have hsections : ((t.setFlag id sectionFlag 0).note (.acquired a id)).sections =
      .acquired a id :: t.sections := congrArg (_ :: ·) setFlag_sections
  refine ⟨fun id' hid' hheld => ?_, ?_⟩
  · rw [hsections, held] at hheld
    rw [getFlag_note, getFlag_setFlag_set (by decide)]
    by_cases hid : id = id'
    · simp [hid, hid']
    · simp only [hid, decide_false, Bool.false_or] at hheld
      rw [h.flagged id' hid' hheld, Bool.true_or]
  · rw [hsections]
    refine h.exclusive_cons fun b id' heq hid' => ?_
    obtain ⟨-, rfl⟩ := SectionEvent.acquired.inj heq
    by_contra hheld
    rw [h.flagged id hid' (by simpa using hheld)] at hfree
    cases hfree

theorem SectionsOk.free (h : t.SectionsOk) :
    ((t.note (.freed id)).setFlag id 0 sectionFlag).SectionsOk := by
  have hsections : ((t.note (.freed id)).setFlag id 0 sectionFlag).sections =
      .freed id :: t.sections := setFlag_sections
  refine ⟨fun id' hid' hheld => ?_, ?_⟩
  · rw [hsections, held, Bool.and_eq_true, decide_eq_true_iff] at hheld
    rw [getFlag_setFlag_clear, getFlag_note, h.flagged id' hid' hheld.2]
    simp [Ne.symm hheld.1]
  · rw [hsections]
    exact h.exclusive_cons fun _ _ heq => by cases heq

theorem SectionsOk.freeAll (h : t.SectionsOk) : (t.freeAllSections.note .freedAll).SectionsOk := by
  have hsections : (t.freeAllSections.note .freedAll).sections = .freedAll :: t.sections := by
    obtain ⟨flags, hflags⟩ := t.freeAllSections_eq
    rw [hflags]
    rfl
  refine ⟨fun id' _ hheld => ?_, ?_⟩
  · rw [hsections] at hheld
    cases hheld
  · rw [hsections]
    exact h.exclusive_cons fun _ _ heq => by cases heq

theorem SectionsOk.setFlag {on off : UInt8} (h : t.SectionsOk)
    (hmasks : (on ||| off) &&& sectionFlag = 0) : (t.setFlag id on off).SectionsOk :=
  h.mono setFlag_sections fun _ hid => by rwa [getFlag_setFlag_of_disjoint hmasks]

/-- A section is reserved by force. -/
theorem SectionsOk.force (h : t.SectionsOk) : (t.setFlag id sectionFlag 0).SectionsOk :=
  h.mono setFlag_sections fun _ hid => by
    rw [getFlag_setFlag_set (by decide), hid, Bool.true_or]

theorem Created.sectionsOk (hc : Created a t t') (h : t.SectionsOk) : t'.SectionsOk := by
  have huse : t.useId.SectionsOk := by
    unfold useId
    split
    · exact h.setFlag rfl
    · exact h
  have hsections : t.useId.sections = t.sections := by
    obtain ⟨flags, hflags⟩ := t.useId_eq
    rw [hflags]
  exact huse.congr (hc.sections.trans hsections.symm) hc.flags

theorem Killed.sectionsOk (hk : Killed a t t') (h : t.SectionsOk) : t'.SectionsOk := by
  have hclear : (t.setFlag (t.mem a).taskId.toUInt16 0 taskFlag).SectionsOk := h.setFlag rfl
  exact hclear.congr (hk.sections.trans setFlag_sections.symm) hk.flags

end Tasks

namespace Exrail

variable {script : Script} {w : Inputs} {s : Exrail} {this : Addr}

theorem kept_sections : Kept script (fun _ _ => True) SectionsOk where
  flag _ _ _ hmasks h := h.setFlag (disjoint_of_or hmasks).1
  write h _ _ := h.congr rfl rfl
  create h hc := hc.sectionsOk h
  killed h _ _ hk := hk.sectionsOk h
  paused h _ := h.congr rfl rfl
  pointed h := h.congr rfl rfl
  forced _ h := h.force
  acquired _ _ h hfree := h.acquire hfree
  freed _ h := h.free
  freedAll h := h.freeAll

/-- `RESERVE` of a section that is taken: the task waits. -/
theorem wp_reserve_taken {task : RMFT2} {operand : Int16} {Q : Flow → Exrail → Prop}
    (hthis : this ∈ s.tasks.live) (htaken : s.tasks.getFlag (operandU operand) sectionFlag = true)
    (h : ∀ rails, Q .returns { s with rails := rails, tasks := s.tasks.write this fun task =>
      { task with delayTime := 500, delayStart := w.millis } }) :
    wp NotDangling (reserve w this task operand) Q s := by
  simp only [reserve, Exrail.getFlag, wp_bind, wp_get, wp_pure]
  rw [if_pos htaken, wp_bind]
  have hwait : ∀ rails, wp NotDangling (thenReturn (delayMe w this 500)) Q
      { s with rails := rails } := fun rails =>
    wp_thenReturn (Exrail.wp_write hthis (h rails))
  exact wp_when (fun _ => wp_setSpeed hwait) fun _ => hwait s.rails

/-- A step of a task at a `RESERVE` whose section is taken leaves the flags as they are and the task
where it is. -/
theorem wp_loop2_reserve_taken (hthis : this ∈ s.tasks.live)
    (hcalm : ¬ (script.has Script.featureBlink ∧ (s.tasks.mem this).isBlink))
    (hop : script.getOpcode (progCounterOf s this) = Opcode.reserve.toByte)
    (htaken : s.tasks.getFlag (script.getOperand (progCounterOf s this) 0) sectionFlag = true) :
    wp NotDangling (loop2 script w this) (fun _ s' => s'.tasks.flags = s.tasks.flags ∧
      progCounterOf s' this = progCounterOf s this) s := by
  simp only [loop2, wp_bind]
  refine wp_read hthis ?_
  refine wp_ite (fun _ => ⟨rfl, rfl⟩) fun _ => ?_
  rw [if_neg hcalm]
  simp only [wp_bind, wp_modify]
  rw [show script.getOpcode (s.tasks.mem this).progCounter = Opcode.reserve.toByte from hop,
    Opcode.ofByte_toByte]
  refine wp_reserve_taken (s := { s with skipIf := false }) hthis ?_ fun rails => ?_
  · simpa [operandU, arg, progCounterOf] using htaken
  · exact ⟨rfl, by simp [progCounterOf]⟩

/-- **Mutual exclusion.** Between two acquisitions of a section it is freed, in every run; and a task
that finds a section taken changes no flag and stays at its `RESERVE`. -/
theorem reserve_excludes (script : Script) :
    (∀ (w : Inputs) (rails : JoinStation) (turnouts : List Turnout) (mem : Addr → RMFT2)
      (turns : List Turn), wp NotDangling (history script w turns)
      (fun _ s => ∀ newer mid older a b id,
          s.tasks.sections = newer ++ .acquired b id :: (mid ++ .acquired a id :: older) →
          id.toNat < maxFlags → .freed id ∈ mid ∨ .freedAll ∈ mid) (init rails turnouts mem)) ∧
    (∀ (w : Inputs) (s : Exrail) (this : Addr), this ∈ s.tasks.live →
      ¬ (script.has Script.featureBlink ∧ (s.tasks.mem this).isBlink) →
      script.getOpcode (progCounterOf s this) = Opcode.reserve.toByte →
      s.tasks.getFlag (script.getOperand (progCounterOf s this) 0) sectionFlag = true →
      wp NotDangling (loop2 script w this) (fun _ s' => s'.tasks.flags = s.tasks.flags ∧
        progCounterOf s' this = progCounterOf s this) s) := by
  refine ⟨fun w rails turnouts mem turns => ?_, fun w s this hthis hcalm hop htaken =>
    wp_loop2_reserve_taken hthis hcalm hop htaken⟩
  refine wp_mono (kept_sections.wp_begin_run (sectionsOk_init mem)) fun _ s h => ?_
  intro newer mid older a b id heq hid
  by_contra hnot
  rw [not_or] at hnot
  have hfree := h.2.exclusive newer b id _ heq hid
  have hheld : held id (mid ++ .acquired a id :: older) = true :=
    held_append (by simp [held]) hnot.1 hnot.2
  rw [hheld] at hfree
  cases hfree

/-- `AUTOSTART RESERVE(5) DONE` -/
def reserveFive : Script :=
  Script.ofCells 0 (fun _ => .text) [(.autostart, 0), (.reserve, 5), (.endtask, 0)]

/-- Section 5 is taken, and the task is at its `RESERVE`. -/
def sectionTaken : Exrail :=
  { init (JoinStation.init (Station.init .avr 1 []) false) [] fun _ => .zero with
    tasks := ({ Tasks.init fun _ => { RMFT2.zero with next := 1, progCounter := 3 } with
      live := [1]
      loopTask := some 1 }).setFlag 5 sectionFlag 0 }

theorem reserve_excludes_taken : wp NotDangling (loop2 reserveFive .idle 1)
    (fun _ s' => s'.tasks.flags = sectionTaken.tasks.flags ∧ progCounterOf s' 1 = 3) sectionTaken :=
  (reserve_excludes reserveFive).2 .idle sectionTaken 1 (by decide) (by decide) (by decide) (by decide)

end Exrail

end CommandStation
