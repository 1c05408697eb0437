import CommandStation.EXRAIL2.Ring
import CommandStation.EXRAIL2.Loop
import CommandStation.Lib.Keeps

/-!
# What programs do to the ring

A property of the tasks is `Steady` if the things that most opcodes and commands do keep it: setting
latches and signals, writing to a task without moving it in the ring or the script, creating tasks,
and killing a task that blinks. The programs that do nothing else keep every steady property, and no
pointer to a task that does not exist is followed on the way.
-/

namespace CommandStation

open CommandStation.Lib

/-! ## Well-formed rings -/

/-- Any fault but that a pointer to a task that does not exist is followed. -/
def NotDangling (e : Crash) : Prop := e ≠ .dangling

instance : DecidablePred NotDangling := fun e => inferInstanceAs (Decidable (e ≠ _))

namespace Tasks

variable {script : Script} {t t' : Tasks} {a b : Addr}

/-- The tasks form a ring, and different tasks blink different pins. -/
structure Well (script : Script) (t : Tasks) : Prop where
  ring : t.Ring
  blinks : script.has Script.featureBlink → ∀ a ∈ t.live, ∀ b ∈ t.live, (t.mem a).isBlink →
    (t.mem b).isBlink → (t.mem a).blinkPin = (t.mem b).blinkPin → a = b

/-- Something was written to a task that leaves it where it is, in the ring and in the script. -/
structure Minor (script : Script) (task task' : RMFT2) : Prop where
  next : task'.next = task.next
  taskId : task'.taskId = task.taskId
  progCounter : task'.progCounter = task.progCounter
  stackDepth : task'.stackDepth = task.stackDepth
  callStack : task'.callStack = task.callStack
  blink : script.has Script.featureBlink → task'.isBlink →
    task.isBlink ∧ task'.blinkPin = task.blinkPin

theorem Ring.write (h : t.Ring) {f : RMFT2 → RMFT2} (hf : (f (t.mem a)).next = (t.mem a).next) :
    (t.write a f).Ring := by
  refine h.congr (fun b _ => ?_) rfl rfl
  by_cases hb : b = a <;> simp [Tasks.next, write_mem, hb, hf]

theorem SameObject.blinkState {task old : RMFT2} (h : SameObject task old) :
    task.blinkState = old.blinkState := by
  rw [h]

theorem SameObject.isBlink {task old : RMFT2} (h : SameObject task old) :
    task.isBlink = old.isBlink := by
  rw [h]
  rfl

theorem SameObject.blinkPin {task old : RMFT2} (h : SameObject task old) :
    task.blinkPin = old.blinkPin := by
  rw [h]
  rfl

/-- A write that changes neither the ring nor the blinking keeps the tasks well-formed. -/
theorem Well.write (h : t.Well script) {f : RMFT2 → RMFT2}
    (hnext : (f (t.mem a)).next = (t.mem a).next)
    (hblink : script.has Script.featureBlink → (f (t.mem a)).isBlink →
      (t.mem a).isBlink ∧ (f (t.mem a)).blinkPin = (t.mem a).blinkPin) :
    (t.write a f).Well script := by
  refine ⟨h.ring.write hnext, fun hfeature b hb c hc hblinkb hblinkc hpin => ?_⟩
  have hsame : ∀ d, ((t.write a f).mem d).isBlink →
      (t.mem d).isBlink ∧ ((t.write a f).mem d).blinkPin = (t.mem d).blinkPin := by
    intro d hd
    by_cases hda : d = a
    · subst hda
      rw [write_mem_self] at hd ⊢
      exact hblink hfeature hd
    · rw [write_mem, if_neg hda] at hd ⊢
      exact ⟨hd, rfl⟩
  obtain ⟨hb', hpinb⟩ := hsame b hblinkb
  obtain ⟨hc', hpinc⟩ := hsame c hblinkc
  exact h.blinks hfeature b hb c hc hb' hc' (hpinb ▸ hpinc ▸ hpin)

theorem Well.congr (h : t.Well script) (hmem : t'.mem = t.mem) (hlive : t'.live = t.live)
    (hloop : t'.loopTask = t.loopTask) : t'.Well script := by
  refine ⟨h.ring.congr (fun a _ => by simp [Tasks.next, hmem]) hlive hloop, ?_⟩
  rw [hmem, hlive]
  exact h.blinks

theorem Well.setFlag (h : t.Well script) {id : UInt16} {on off : UInt8} :
    (t.setFlag id on off).Well script :=
  h.congr setFlag_mem setFlag_live setFlag_loopTask

theorem Killed.well (hk : Killed a t t') (h : t.Well script) : t'.Well script := by
  refine ⟨hk.ring, fun hfeature b hb c hc hblinkb hblinkc hpin => ?_⟩
  rw [hk.live] at hb hc
  rw [(hk.others b).isBlink] at hblinkb
  rw [(hk.others c).isBlink] at hblinkc
  rw [(hk.others b).blinkPin, (hk.others c).blinkPin] at hpin
  exact h.blinks hfeature b (List.mem_of_mem_erase hb) c (List.mem_of_mem_erase hc) hblinkb hblinkc
    hpin

/-- A new task keeps the ring well-formed, as long as no other task blinks its pin. -/
theorem Created.well (hc : Created a t t') (h : t.Well script)
    (hapart : script.has Script.featureBlink → (t'.mem a).isBlink → ∀ b ∈ t.live,
      (t.mem b).isBlink → (t.mem b).blinkPin ≠ (t'.mem a).blinkPin) : t'.Well script := by
  have hold : ∀ b, b ∈ t'.live → b ≠ a → b ∈ t.live ∧
      (t'.mem b).isBlink = (t.mem b).isBlink ∧ (t'.mem b).blinkPin = (t.mem b).blinkPin := by
    intro b hb hba
    rw [hc.live, List.mem_cons] at hb
    exact ⟨hb.resolve_left hba, (hc.others b hba).isBlink, (hc.others b hba).blinkPin⟩
  refine ⟨hc.ring, fun hfeature b hb d hd hblinkb hblinkd hpin => ?_⟩
  by_cases hba : b = a
  · by_cases hda : d = a
    · rw [hba, hda]
    · obtain ⟨hmem, hblink, hsame⟩ := hold d hd hda
      rw [hba] at hblinkb hpin
      exact absurd (hsame ▸ hpin.symm) (hapart hfeature hblinkb d hmem (hblink ▸ hblinkd))
  · obtain ⟨hmemb, hblink, hsame⟩ := hold b hb hba
    by_cases hda : d = a
    · rw [hda] at hblinkd hpin
      exact absurd (hsame ▸ hpin) (hapart hfeature hblinkd b hmemb (hblink ▸ hblinkb))
    · obtain ⟨hmemd, hblink', hsame'⟩ := hold d hd hda
      exact h.blinks hfeature b hmemb d hmemd (hblink ▸ hblinkb) (hblink' ▸ hblinkd)
        (hsame ▸ hsame' ▸ hpin)

theorem Created.mem (hc : Created a t t') : a ∈ t'.live := by
  rw [hc.live]
  exact List.mem_cons_self

/-- The new task may be written to. -/
theorem Created.write (hc : Created a t t') {f : RMFT2 → RMFT2}
    (hnext : (f (t'.mem a)).next = (t'.mem a).next)
    (hid : (f (t'.mem a)).taskId = (t'.mem a).taskId) : Created a t (t'.write a f) where
  ring := hc.ring.write hnext
  fresh := hc.fresh
  live := hc.live
  taskId := by rw [write_mem_self, hid, hc.taskId]
  others b hb := by
    rw [write_mem, if_neg hb]
    exact hc.others b hb
  flags := hc.flags
  pausingTask := hc.pausingTask
  peak := hc.peak
  sections := hc.sections

end Tasks

namespace Exrail

open CommandStation.Tasks

variable {script : Script} {w : Inputs} {I : Tasks → Bool → Prop} {s : Exrail} {a : Addr}

/-! ## Steady properties -/

/-- A property of the ring and of the flag that a condition failed. -/
def Within (I : Tasks → Bool → Prop) (s : Exrail) : Prop := I s.tasks s.skipIf

/-- The program keeps the property, and follows no pointer to a task that does not exist. -/
abbrev Retains {α : Type} (I : Tasks → Bool → Prop) (m : Exr α) : Prop :=
  Keeps NotDangling (Within I) m

/-- What most opcodes do keeps the property. -/
structure Steady (script : Script) (I : Tasks → Bool → Prop) : Prop where
  well : ∀ {t skip}, I t skip → t.Well script
  flag : ∀ {t skip} id on off, (on ||| off) &&& (sectionFlag ||| taskFlag) = 0 → I t skip →
    I (t.setFlag id on off) skip
  write : ∀ {t skip a f}, I t skip → a ∈ t.live → Minor script (t.mem a) (f (t.mem a)) →
    I (t.write a f) skip
  create : ∀ {t t' skip a}, I t skip → Tasks.Created a t t' → t'.Well script → I t' skip
  killBlink : ∀ {t t' skip a}, script.has Script.featureBlink → I t skip → (t.mem a).isBlink →
    Tasks.Killed a t t' → I t' skip

/-! ## Elementary programs -/

section Elementary

variable {F : Crash → Prop}

theorem wp_onRails {α : Type} {m : Joins α} {Q : α → Exrail → Prop}
    (h : ∀ b rails, Q b { s with rails := rails }) : wp NotDangling (onRails m) Q s := by
  unfold wp onRails
  cases m s.rails with
  | ok r => exact h r.1 r.2
  | error e => exact Crash.noConfusion

theorem wp_onStation {α : Type} {m : Dcc α} {Q : α → Exrail → Prop}
    (h : ∀ b rails, Q b { s with rails := rails }) : wp NotDangling (onStation m) Q s :=
  wp_onRails h

theorem retains_onRails {α : Type} {m : Joins α} : Retains I (onRails m) :=
  fun _ h => wp_onRails fun _ _ => h

theorem retains_onStation {α : Type} {m : Dcc α} : Retains I (onStation m) := retains_onRails

/-- A change of anything but the ring. -/
theorem retains_modify {f : Exrail → Exrail} (hf : ∀ s, (f s).tasks = s.tasks)
    (hskip : ∀ s, (f s).skipIf = s.skipIf) : Retains I (modify f : Exr PUnit) := by
  refine keeps_modify fun s h => ?_
  unfold Within
  rw [hf, hskip]
  exact h

theorem wp_read {Q : RMFT2 → Exrail → Prop} (ha : a ∈ s.tasks.live) (h : Q (s.tasks.mem a) s) :
    wp F (Exrail.readTask a) Q s := by
  simp only [Exrail.readTask, onTasks, wp_zoom]
  exact wp_readTask ha h

theorem wp_write {f : RMFT2 → RMFT2} {Q : Unit → Exrail → Prop} (ha : a ∈ s.tasks.live)
    (h : Q () { s with tasks := s.tasks.write a f }) : wp F (Exrail.writeTask a f) Q s := by
  simp only [Exrail.writeTask, onTasks, wp_zoom]
  exact wp_writeTask ha h

theorem wp_newTask {progCounter : Int} {loco : UInt16} {invert : Bool} {Q : Addr → Exrail → Prop}
    (hring : s.tasks.Ring) (h : ∀ a t', Tasks.Created a s.tasks t' →
      (t'.mem a).blinkState = .notBlinkTask → Q a { s with tasks := t' }) :
    wp F (newTask w progCounter loco invert) Q s := by
  simp only [newTask, onTasks, wp_zoom]
  exact wp_construct hring h

theorem retains_setThrottle {cab : UInt16} {tSpeed : UInt8} {tDirection : Bool} :
    Retains I (setThrottle w cab tSpeed tDirection) :=
  keeps_bind retains_onStation fun _ => keeps_pure _

theorem retains_setSpeed {loco : UInt16} {tSpeed : UInt8} : Retains I (setSpeed w loco tSpeed) :=
  keeps_bind retains_onStation fun _ => retains_setThrottle

theorem wp_setThrottle {cab : UInt16} {tSpeed : UInt8} {tDirection : Bool} {Q : Unit → Exrail → Prop}
    (h : ∀ rails, Q () { s with rails := rails }) :
    wp NotDangling (setThrottle w cab tSpeed tDirection) Q s := by
  simp only [setThrottle, wp_bind, wp_pure]
  exact wp_onStation fun _ rails => h rails

theorem wp_setSpeed {loco : UInt16} {tSpeed : UInt8} {Q : Unit → Exrail → Prop}
    (h : ∀ rails, Q () { s with rails := rails }) : wp NotDangling (setSpeed w loco tSpeed) Q s := by
  simp only [setSpeed, wp_bind]
  refine wp_onStation fun _ _ => ?_
  exact wp_setThrottle h

theorem wp_kill {Q : Unit → Exrail → Prop} (hring : s.tasks.Ring) (ha : a ∈ s.tasks.live)
    (h : ∀ rails t', Tasks.Killed a s.tasks t' → Q () { s with rails := rails, tasks := t' }) :
    wp NotDangling (kill w a) Q s := by
  simp only [kill, wp_bind]
  refine wp_read ha ?_
  have hdelete : ∀ rails, wp NotDangling (onTasks (destruct a)) Q { s with rails := rails } := by
    intro rails
    simp only [onTasks, wp_zoom]
    exact wp_destruct hring ha fun t' hk => h rails t' hk
  exact wp_when (fun _ => wp_setSpeed hdelete) fun _ => hdelete s.rails

end Elementary

/-- A loop along the ring, where the body does not delete the task it is at unless it leaves. -/
theorem wp_eachTask {P : Exrail → Prop} {Q : Bool → Exrail → Prop} {body : Addr → Exr Bool}
    (hring : ∀ s, P s → s.tasks.Ring)
    (hbody : ∀ a s, P s → a ∈ s.tasks.live → wp NotDangling (body a)
      (fun found s' => (found = true → Q true s') ∧ (found = false → P s' ∧ a ∈ s'.tasks.live)) s)
    (hdone : ∀ s, P s → Q false s) (h : P s) : wp NotDangling (eachTask body) Q s := by
  simp only [eachTask, wp_bind, wp_get]
  refine wp_mono (wp_loop_of_turn (F := NotDangling) (by simp [NotDangling])
    (fun p found s => p.elim (Q found s) fun a => P s ∧ a ∈ s.tasks.live) ?_ ?_) fun _ _ h => h
  · rintro a _ s ⟨h, ha⟩
    simp only [wp_bind]
    refine wp_mono (hbody a s h ha) fun found s' h' => ?_
    cases found with
    | true => exact h'.1 rfl
    | false =>
      obtain ⟨hP, ha'⟩ := h'.2 rfl
      simp only [Bool.false_eq_true, if_false, wp_bind]
      refine wp_read ha' ?_
      simp only [wp_get]
      refine wp_ite (fun _ => hdone s' hP) fun _ => ⟨hP, (hring s' hP).next_mem ha'⟩
  · cases hl : s.tasks.loopTask with
    | none => exact hdone s h
    | some l => exact ⟨h, (hring s h).loopTask_mem hl⟩

variable (hI : Steady script I)

include hI

theorem Steady.retains_setFlag {id : UInt16} {on off : UInt8}
    (hmasks : (on ||| off) &&& (sectionFlag ||| taskFlag) = 0) :
    Retains I (Exrail.setFlag id on off) :=
  fun _ h => hI.flag id on off hmasks h

/-- A task that exists is written to. -/
theorem Steady.wp_minor {f : RMFT2 → RMFT2} (h : Within I s) (ha : a ∈ s.tasks.live)
    (hf : Minor script (s.tasks.mem a) (f (s.tasks.mem a))) :
    wp NotDangling (Exrail.writeTask a f) (fun _ => Within I) s :=
  Exrail.wp_write ha (hI.write h ha hf)

/-- A loop along the ring that never leaves early. -/
theorem Steady.retains_eachTask {body : Addr → Exr Bool}
    (hbody : ∀ a s, Within I s → a ∈ s.tasks.live →
      wp NotDangling (body a) (fun _ s' => Within I s' ∧ a ∈ s'.tasks.live) s) :
    Retains I (eachTask body) := by
  intro s h
  refine wp_eachTask (P := Within I) (fun s h => (hI.well h).ring) (fun a s h ha => ?_)
    (fun _ h => h) h
  exact wp_mono (hbody a s h ha) fun _ s' h' => ⟨fun _ => h'.1, fun _ => h'⟩

/-- A task that blinks is killed, if it blinks a pin of a range; the loop is then at the task behind
it. `clear` says that no task blinks a pin of the range. -/
theorem Steady.wp_killBlink {P : UInt16 → Prop} [DecidablePred P] {Q : Unit → Exrail → Prop}
    (hfeature : script.has Script.featureBlink) (h : Within I s) (ha : a ∈ s.tasks.live)
    (hkept : ¬ ((s.tasks.mem a).isBlink ∧ P (s.tasks.mem a).blinkPin) → Q () s)
    (hkilled : (s.tasks.mem a).isBlink → P (s.tasks.mem a).blinkPin → ∀ s', Within I s' →
      Tasks.Killed a s.tasks s'.tasks → Q () s') :
    wp NotDangling (when ((s.tasks.mem a).isBlink ∧ P (s.tasks.mem a).blinkPin) (kill w a)) Q s := by
  refine wp_when (fun ⟨hblink, hpin⟩ => ?_) hkept
  refine wp_kill (hI.well h).ring ha fun rails t' hk => ?_
  exact hkilled hblink hpin _ (hI.killBlink hfeature h hblink hk) hk

/-- Killing the task that blinks a pin. The loop may miss the task it has started at and go on for
ever, but it does not go to a task that has been deleted. -/
theorem Steady.retains_killBlinkOnVpin {pin : UInt16} :
    Retains I (killBlinkOnVpin script w pin 1) := by
  refine keeps_when fun hfeature s h => ?_
  simp only [wp_bind, wp_get]
  have hrange : ∀ p : UInt16, pin ≤ p ∧ p ≤ pin + 1 - 1 → p = pin := by
    intro p hp
    rw [UInt16.add_sub_cancel] at hp
    exact UInt16.le_antisymm hp.2 hp.1
  cases hl : s.tasks.loopTask with
  | none =>
    simp only [wp_loop_none]
    exact h
  | some l =>
    have hlive : l ∈ s.tasks.live := (hI.well h).ring.loopTask_mem hl
    refine wp_mono (wp_loop_of_turn (F := NotDangling) (by simp [NotDangling])
      (fun p _ s => Within I s ∧ (∀ a, p = some a → a ∈ s.tasks.live) ∧
        (l ∈ s.tasks.live ∨ ∀ b ∈ s.tasks.live, (s.tasks.mem b).isBlink →
          (s.tasks.mem b).blinkPin ≠ pin)) ?_ ?_) fun _ _ h => h.1
    · rintro a _ s ⟨h, ha, hstop⟩
      replace ha := ha a rfl
      have hwell := hI.well h
      simp only [wp_bind]
      refine wp_read ha ?_
      refine hI.wp_killBlink (P := fun p => pin ≤ p ∧ p ≤ pin + 1 - 1) hfeature h ha ?_ ?_
      · intro _
        refine wp_ite (fun _ => ⟨h, by simp, hstop⟩) fun _ => ⟨h, fun b hb => ?_, hstop⟩
        obtain rfl := Option.some.inj hb
        exact hwell.ring.next_mem ha
      · intro hblink hpin s' h' hk
        have hl : l ∈ s.tasks.live :=
          hstop.resolve_right fun hclear => hclear a ha hblink (hrange _ hpin)
        have hstop' : l ∈ s'.tasks.live ∨ ∀ b ∈ s'.tasks.live, (s'.tasks.mem b).isBlink →
            (s'.tasks.mem b).blinkPin ≠ pin := by
          by_cases hal : l = a
          · -- no other task blinks this pin
            refine .inr fun b hb hblink' hpin' => ?_
            rw [hk.live] at hb
            rw [(hk.others b).isBlink] at hblink'
            rw [(hk.others b).blinkPin, ← hrange _ hpin] at hpin'
            have heq := hwell.blinks hfeature b (List.mem_of_mem_erase hb) a ha hblink' hblink hpin'
            rw [heq] at hb
            exact hwell.ring.nodup.not_mem_erase hb
          · exact .inl (hk.live ▸ (List.mem_erase_of_ne hal).mpr hl)
        refine wp_ite (fun _ => ⟨h', by simp, hstop'⟩) fun hmore => ⟨h', fun b hb => ?_, hstop'⟩
        obtain rfl := Option.some.inj hb
        have hne : s.tasks.next a ≠ a := fun heq => by
          -- the task would be alone, and so the one where the loop stops
          obtain ⟨ys, hc, hperm⟩ := hwell.ring.from_mem ha
          rw [hc.next_self_iff.mp heq] at hperm
          have hla : l = a := by simpa using hperm.mem_iff.mpr hl
          exact hmore (by rw [hla]; exact congrArg some heq)
        rw [hk.live]
        exact (List.mem_erase_of_ne hne).mpr (hwell.ring.next_mem ha)
    · exact ⟨h, fun a ha => Option.some.inj ha ▸ hlive, .inl hlive⟩

/-- The loop starts at a task that does not blink: it goes round once, and then no task blinks a pin
of the range. -/
theorem Steady.wp_killBlinkOnVpin {this : Addr} {pin count : UInt16}
    (hfeature : script.has Script.featureBlink) (h : Within I s)
    (hloop : s.tasks.loopTask = some this) (hthis : (s.tasks.mem this).isBlink = false) :
    wp NotDangling (killBlinkOnVpin script w pin count) (fun _ s' => Within I s' ∧
      ∀ b ∈ s'.tasks.live, (s'.tasks.mem b).isBlink →
        ¬ (pin ≤ (s'.tasks.mem b).blinkPin ∧ (s'.tasks.mem b).blinkPin ≤ pin + count - 1)) s := by
  unfold killBlinkOnVpin when
  rw [if_pos hfeature]
  simp only [wp_bind, wp_get, hloop]
  let Clear (s : Exrail) (b : Addr) : Prop := (s.tasks.mem b).isBlink →
    ¬ (pin ≤ (s.tasks.mem b).blinkPin ∧ (s.tasks.mem b).blinkPin ≤ pin + count - 1)
  -- the ring in the order of the walk: `front` has been visited
  refine wp_mono (wp_loop_of_turn (F := NotDangling) (by simp [NotDangling]) (fun p _ s =>
    Within I s ∧ (s.tasks.mem this).isBlink = false ∧ ∃ front back,
      Circle s.tasks.next (front ++ back) ∧ (front ++ back).Perm s.tasks.live ∧
      (front ++ back).head? = some this ∧ p = back.head? ∧ ∀ b ∈ front, Clear s b) ?_ ?_) ?_
  · rintro a _ s ⟨h, hthis, front, back, hc, hperm, hhead, hp, hclear⟩
    obtain ⟨back, rfl⟩ : ∃ rest, back = a :: rest := by
      cases back with
      | nil => cases hp
      | cons b back => exact ⟨back, by rw [Option.some.inj hp]⟩
    have ha : a ∈ s.tasks.live := hperm.subset (by simp)
    have hhead' : (front ++ [a]).head? = some this := by
      rw [← hhead]
      cases front <;> rfl
    -- the walk ends behind the last task
    have hend : some (s.tasks.next a) = some this ↔ back = [] := by
      rw [← hhead']
      exact hc.next_eq_head_iff
    have hnext : ∀ {s' : Exrail} {Q : Option Addr × Unit → Exrail → Prop},
        Q (back.head?, ()) s' → wp NotDangling (if some (s.tasks.mem a).next = some this
          then pure (none, ()) else pure (some (s.tasks.mem a).next, ()) : Exr _) Q s' := by
      intro s' Q hQ
      refine wp_ite (fun heq => ?_) fun hne => ?_
      · rw [hend.mp heq] at hQ
        exact hQ
      · have hback : back ≠ [] := fun hnil => hne (hend.mpr hnil)
        have hp := hc.next_eq
        rw [if_neg hback] at hp
        rw [← hp] at hQ
        exact hQ
    simp only [wp_bind]
    refine wp_read ha ?_
    refine hI.wp_killBlink (P := fun p => pin ≤ p ∧ p ≤ pin + count - 1) hfeature h ha ?_ ?_
    · intro hkept
      refine hnext ⟨h, hthis, front ++ [a], back, by simpa using hc, by simpa using hperm,
        by simpa using hhead, rfl, fun b hb => ?_⟩
      rcases List.mem_append.mp hb with hb | hb
      · exact hclear b hb
      · obtain rfl := List.mem_singleton.mp hb
        exact fun hblink hpin => hkept ⟨hblink, hpin⟩
    · intro hblink hpin s' h' hk
      have hne : front ≠ [] := by
        rintro rfl
        obtain rfl := Option.some.inj hhead
        rw [hthis] at hblink
        cases hblink
      refine hnext ⟨h', by rw [(hk.others this).isBlink, hthis], front, back, hk.circle hc hperm, ?_,
        ?_, rfl, fun b hb => ?_⟩
      · rw [hk.live]
        simpa using (List.perm_middle.symm.trans hperm).erase a
      · cases front with
        | nil => exact absurd rfl hne
        | cons b front => exact hhead
      · show (s'.tasks.mem b).isBlink → _
        rw [(hk.others b).isBlink, (hk.others b).blinkPin]
        exact hclear b hb
  · obtain ⟨ys, hc, hperm⟩ := (hI.well h).ring.from_mem ((hI.well h).ring.loopTask_mem hloop)
    exact ⟨h, hthis, [], this :: ys, hc, hperm, rfl, rfl, by simp⟩
  · rintro _ s ⟨h, -, front, back, -, hperm, -, hp, hclear⟩
    have hback : back = [] := List.head?_eq_none_iff.mp hp.symm
    refine ⟨h, fun b hb => hclear b ?_⟩
    simpa [hback] using hperm.mem_iff.mpr hb

/-! ## Tasks, events and signals -/

/-- A task is created, and its members are set in a way that it does not blink. -/
theorem Steady.wp_newTask_write {progCounter : Int} {loco : UInt16} {invert : Bool}
    {f : RMFT2 → RMFT2} (hf : ∀ task, (f task).next = task.next ∧ (f task).taskId = task.taskId ∧
      (f task).blinkState = task.blinkState) :
    Retains I (newTask w progCounter loco invert >>= fun a => Exrail.writeTask a f) := by
  intro s h
  rw [wp_bind]
  refine wp_newTask (hI.well h).ring fun a t' hc hblink => ?_
  obtain ⟨hnext, hid, hstate⟩ := hf (t'.mem a)
  refine wp_write hc.mem ?_
  have hcreated := hc.write (f := f) hnext hid
  refine hI.create h hcreated (hcreated.well (hI.well h) fun _ hblinks => ?_)
  rw [write_mem_self, RMFT2.isBlink, hstate, hblink] at hblinks
  cases hblinks

theorem Steady.retains_newTask {progCounter : Int} {loco : UInt16} {invert : Bool} :
    Retains I (newTask w progCounter loco invert) := by
  intro s h
  refine wp_newTask (hI.well h).ring fun a t' hc hblink => ?_
  refine hI.create h hc (hc.well (hI.well h) fun _ hblinks => ?_)
  rw [RMFT2.isBlink, hblink] at hblinks
  cases hblinks

theorem Steady.retains_startNonRecursiveTask {progCounter : Int} {loco : UInt16} :
    Retains I (startNonRecursiveTask w progCounter loco) := by
  refine keeps_bind (hI.retains_eachTask fun a s h ha => ?_) fun running => keeps_when fun _ => ?_
  · rw [wp_bind]
    exact wp_read ha ⟨h, ha⟩
  · exact hI.wp_newTask_write fun _ => ⟨rfl, rfl, rfl⟩

theorem Steady.retains_handleEvent {op : Opcode} {id : Int16} {loco : UInt16} :
    Retains I (handleEvent script w op id loco) :=
  keeps_runProg fun _ _ => hI.retains_startNonRecursiveTask

theorem Steady.retains_setAccessory {address : Int} {port : UInt8} {gate : Bool} {onoff : UInt8} :
    Retains I (setAccessory script w address port gate onoff) :=
  keeps_bind retains_onStation fun _ => keeps_when fun _ => hI.retains_handleEvent

theorem Steady.retains_setClosedStateOnly {id : UInt16} {closeFlag : Bool} :
    Retains I (setClosedStateOnly script w id closeFlag) := by
  refine keeps_get_bind fun s => ?_
  cases Turnout.get s.turnouts id with
  | none => exact keeps_pure ()
  | some _ =>
    exact keeps_bind (retains_modify (fun _ => rfl) fun _ => rfl) fun _ => hI.retains_handleEvent

theorem Steady.retains_setClosed {id : UInt16} {closeFlag : Bool} :
    Retains I (setClosed script w id closeFlag) := by
  refine keeps_get_bind fun s => ?_
  cases Turnout.get s.turnouts id with
  | none => exact keeps_pure ()
  | some tt =>
    refine keeps_bind ?_ fun _ => hI.retains_setClosedStateOnly
    unfold setClosedInternal
    split
    · exact hI.retains_setAccessory
    · exact keeps_pure ()

theorem Steady.retains_setPosition {id : UInt16} {position : UInt8} :
    Retains I (setPosition script w id position) := by
  unfold setPosition
  split
  · exact keeps_pure ()
  · exact keeps_when fun _ => hI.retains_handleEvent

theorem Steady.retains_setSignalPin {pin : UInt16} : Retains I (setSignalPin script w pin) :=
  keeps_when fun _ => hI.retains_killBlinkOnVpin

/-- To show a signal writes no task. -/
theorem Steady.retains_showSignal {signal : SignalDefinition} {id : Int16} {rag : UInt8} :
    Retains I (showSignal script w signal id rag) := by
  have hpins : Retains I (do
      setSignalPin script w signal.redpin
      setSignalPin script w signal.amberpin
      setSignalPin script w signal.greenpin) :=
    keeps_bind hI.retains_setSignalPin fun _ =>
      keeps_bind hI.retains_setSignalPin fun _ => hI.retains_setSignalPin
  unfold showSignal
  cases signal.type with
  | dcc => exact hI.retains_setAccessory
  | dccx => exact keeps_bind retains_onStation fun _ => keeps_pure ()
  | signal => exact hpins
  | signalH => exact hpins
  | _ => exact keeps_pure ()

theorem Steady.retains_doSignal {id : Int16} {rag : UInt8}
    (hrag : (rag ||| signalMask) &&& (sectionFlag ||| taskFlag) = 0) :
    Retains I (doSignal script w id rag) := by
  refine keeps_when fun _ => keeps_bind hI.retains_handleEvent fun _ => ?_
  split
  · exact keeps_pure ()
  · refine keeps_bind (hI.retains_setFlag hrag) fun _ => ?_
    split
    · exact keeps_pure ()
    · exact hI.retains_showSignal

theorem Steady.retains_signalAspectEvent {address : Int16} {aspect : UInt8} :
    Retains I (signalAspectEvent script w address aspect) := by
  refine keeps_ite (fun _ => keeps_pure false) fun _ => ?_
  split
  · exact keeps_pure false
  · refine keeps_ite (fun _ => keeps_pure false) fun _ => ?_
    refine keeps_ite (fun _ => keeps_bind (hI.retains_doSignal rfl) fun _ => keeps_pure true) fun _ => ?_
    refine keeps_ite (fun _ => keeps_bind (hI.retains_doSignal rfl) fun _ => keeps_pure true) fun _ => ?_
    exact keeps_ite (fun _ => keeps_bind (hI.retains_doSignal rfl) fun _ => keeps_pure true) fun _ =>
      keeps_pure false

end Exrail

end CommandStation
