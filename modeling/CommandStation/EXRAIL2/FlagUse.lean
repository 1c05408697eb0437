import CommandStation.EXRAIL2.Flags
import CommandStation.EXRAIL2.Steps

/-!
# What may write to the flags

`FlagUse` says of an opcode, a command or a call which sections and latches it may change, and which
signal it sets. `Only` says of a program that it writes nothing else to the flags, but for the marks of
tasks that are created or die: it keeps every property of the flags that these writes keep. Pointers
may be what they like here, a run that follows a dangling one has come to its end.
-/

namespace CommandStation

open CommandStation.Lib CommandStation.Tasks

/-- The slot of a signal, if signals are compiled in. -/
def Script.signalSlot (script : Script) (id : Int16) : Option UInt16 :=
  if script.has Script.featureSignal then (script.signalLookup.find? id).map Int16.toUInt16 else none

/-- The sections and latches that may be changed, and the call of `doSignal` that is made. -/
structure FlagUse where
  sections : UInt16 → Bool
  latches : UInt16 → Bool
  signal : Option (Int16 × UInt8)

namespace FlagUse

def nothing : FlagUse := ⟨fun _ => false, fun _ => false, none⟩

def ofSection (id : UInt16) : FlagUse := { nothing with sections := (· == id) }

def allSections : FlagUse := { nothing with sections := fun _ => true }

def ofLatch (id : UInt16) : FlagUse := { nothing with latches := (· == id) }

def ofSignal (call : Option (Int16 × UInt8)) : FlagUse := { nothing with signal := call }

/-- The writes: the id and the bits to be set and cleared. -/
inductive Allows (script : Script) (use : FlagUse) : UInt16 → UInt8 → UInt8 → Prop where
  | task {id on off} (hmasks : on ||| off = taskFlag) : Allows script use id on off
  | ofSection {id on off} (h : use.sections id = true) (hmasks : on ||| off = sectionFlag) :
      Allows script use id on off
  | ofLatch {id on off} (h : use.latches id = true) (hmasks : on ||| off = latchFlag) :
      Allows script use id on off
  | ofSignal {id slot colour} (h : use.signal = some (id, colour)) (hslot : script.signalSlot id = some slot)
      (hmasks : colour ||| signalMask = signalMask) : Allows script use slot colour signalMask

/-- A property of the flags that these writes keep. -/
def Closed (script : Script) (use : FlagUse) (P : (UInt16 → UInt8) → Prop) : Prop :=
  ∀ (t : Tasks) {id on off}, use.Allows script id on off → P t.flags → P (t.setFlag id on off).flags

end FlagUse

/-! ## Which use is made of the flags -/

namespace Exrail

open FlagUse

variable (script : Script)

/-- The colour that an aspect of a DCC-EX signal stands for. -/
def aspectColour (address : Int16) (aspect : UInt8) : Option UInt8 :=
  if ¬ script.has Script.featureSignal then none
  else
    match (script.signalLookup.find? address).bind
        fun sigslot => script.signalDefinitions[sigslot.toInt.toNat]? with
    | none => none
    | some signal =>
      if signal.type ≠ .dccx then none
      else if aspect.toUInt16 = signal.redpin then some signalRed
      else if aspect.toUInt16 = signal.amberpin then some signalAmber
      else if aspect.toUInt16 = signal.greenpin then some signalGreen
      else none

def aspectUse (address : Int16) (aspect : UInt8) : FlagUse :=
  ofSignal ((aspectColour script address aspect).map fun colour => (address, colour))

/-- The commands with one parameter. -/
def slashOneUse (keyword p : Int16) : FlagUse :=
  if keyword = hk "RESERVE" ∨ keyword = hk "FREE" then ofSection p.toUInt16
  else if keyword = hk "LATCH" ∨ keyword = hk "UNLATCH" then ofLatch p.toUInt16
  else if keyword = hk "RED" then ofSignal (some (p, signalRed))
  else if keyword = hk "AMBER" then ofSignal (some (p, signalAmber))
  else if keyword = hk "GREEN" then ofSignal (some (p, signalGreen))
  else nothing

end Exrail

open FlagUse Exrail

/-- Of the commands, `</ FREEALL>`, those with one parameter and `<A address aspect>` write flags. -/
def Command.flagUse (script : Script) : Command → FlagUse
  | .slash paramCount p =>
    if paramCount = 1 ∧ p 0 = hk "FREEALL" then allSections
    else if paramCount = 2 then slashOneUse (p 0) (p 1)
    else nothing
  | .aspect address value => aspectUse script address value.toUInt16.toUInt8
  | _ => nothing

namespace Exrail

variable (script : Script)

/-- Of the opcodes, those for sections, latches and signals write flags, and `PRINT` if it gives a
command. -/
def opcodeUse (operand : Int16) : Option Opcode → FlagUse
  | some .reserve | some .ifreserve | some .free => ofSection (operandU operand)
  | some .freeall => allSections
  | some .latch | some .unlatch => ofLatch (operandU operand)
  | some .red => ofSignal (some (operand, signalRed))
  | some .amber => ofSignal (some (operand, signalAmber))
  | some .green => ofSignal (some (operand, signalGreen))
  | some .aspect => aspectUse script (operand >>> 5) (operandU operand &&& 0x1f).toUInt8
  | some .ifloco | some .print =>
    match script.messages (operandU operand) with
    | .parse c => c.flagUse script
    | _ => nothing
  | _ => nothing

/-- The step of a task. -/
def stepUse (w : Inputs) (task : RMFT2) : FlagUse :=
  if task.delayTime ≠ 0 ∧ w.millis - task.delayStart < task.delayTime then nothing
  else if script.has Script.featureBlink ∧ task.isBlink then nothing
  else opcodeUse script (arg script task 0).toInt16 (Opcode.ofByte (script.getOpcode task.progCounter))

/-- A call. -/
def Turn.flagUse (turn : Turn) (s : Exrail) : FlagUse :=
  match turn with
  | .loop w =>
    match turn.serves s with
    | none => nothing
    | some this => stepUse script w (s.tasks.mem this)
  | .command _ c => c.flagUse script

/-! ## Programs -/

/-- A program that follows a dangling pointer has come to its end. -/
abbrev Anything (_ : Crash) : Prop := True

/-- The program writes only these flags. -/
def Only {α : Type} (script : Script) (use : FlagUse) (m : Exr α) : Prop :=
  ∀ P, use.Closed script P → Keeps Anything (fun s => P s.tasks.flags) m

variable {script} {use : FlagUse} {w : Inputs} {α β : Type} {m : Exr α} {f : α → Exr β}

theorem only_pure (a : α) : Only script use (pure a) := fun _ _ => keeps_pure a

theorem Only.bind (h : Only script use m) (h' : ∀ a, Only script use (f a)) : Only script use (m >>= f) :=
  fun P hP => keeps_bind (h P hP) fun a => h' a P hP

theorem only_get_bind {f : Exrail → Exr β} (h : ∀ s, Only script use (f s)) :
    Only script use (get >>= f) :=
  fun P hP => keeps_get_bind fun s => h s P hP

theorem only_ite {c : Prop} [Decidable c] {m m' : Exr α} (h : c → Only script use m)
    (h' : ¬ c → Only script use m') : Only script use (if c then m else m') :=
  fun P hP => keeps_ite (fun hc => h hc P hP) fun hc => h' hc P hP

theorem only_when {c : Prop} [Decidable c] {m : Exr Unit} (h : c → Only script use m) :
    Only script use (when c m) :=
  fun P hP => keeps_when fun hc => h hc P hP

theorem only_runProg {ι : Type} {exec : ι → Exr α} {is : List ι} (h : ∀ i, Only script use (exec i)) :
    Only script use (runProg exec is) :=
  fun P hP => keeps_runProg fun i _ => h i P hP

theorem only_loop {body : α → β → Exr (Option α × β)} {endless : Crash} {fuel : Nat} {p : Option α} {b : β}
    (h : ∀ a b, Only script use (body a b)) : Only script use (Lib.loop body endless fuel p b) :=
  fun P hP _ hs => wp_loop_of_turns trivial (fun a b s hs => h a b P hP s hs) hs

/-- A change of anything but the flags. -/
theorem only_modify {g : Exrail → Exrail} (hg : ∀ s, (g s).tasks.flags = s.tasks.flags) :
    Only script use (modify g : Exr PUnit) := by
  refine fun P _ => keeps_modify fun s hs => ?_
  rwa [hg]

theorem only_throw {e : Crash} : Only script use (throw e : Exr α) := fun _ _ _ _ => trivial

theorem only_onRails {m : Joins α} : Only script use (onRails m) := by
  intro P _ s hs
  unfold wp onRails
  cases m s.rails with
  | ok r => exact hs
  | error e => trivial

theorem only_onStation {m : Dcc α} : Only script use (onStation m) := only_onRails

theorem only_onTasks {m : Prog Tasks Crash α}
    (h : ∀ P, use.Closed script P → Keeps Anything (fun t : Tasks => P t.flags) m) :
    Only script use (onTasks m) := by
  intro P hP s hs
  rw [onTasks, wp_zoom]
  exact h P hP s.tasks hs

theorem only_setFlag {id : UInt16} {on off : UInt8} (h : use.Allows script id on off) :
    Only script use (Exrail.setFlag id on off) :=
  only_onTasks fun _ hP t ht => hP t h ht

theorem only_getFlag {id : UInt16} {mask : UInt8} : Only script use (Exrail.getFlag id mask) :=
  only_get_bind fun _ => only_pure _

theorem only_note {event : SectionEvent} : Only script use (Exrail.note event) :=
  only_onTasks fun _ _ _ ht => ht

/-! ## Tasks -/

section Tasks

variable {P : (UInt16 → UInt8) → Prop} {a : Addr}

theorem keeps_readTask : Keeps Anything (fun t : Tasks => P t.flags) (Tasks.readTask a) := by
  refine keeps_get_bind fun t => keeps_ite (fun _ => keeps_pure _) fun _ => ?_
  exact fun _ _ => trivial

theorem keeps_writeTask {f : RMFT2 → RMFT2} :
    Keeps Anything (fun t : Tasks => P t.flags) (Tasks.writeTask a f) := by
  intro t ht
  simp only [Tasks.writeTask, wp_bind, wp_get]
  exact wp_ite (fun _ => ht) fun _ => trivial

theorem useId_closed (hP : use.Closed script P) {t : Tasks} (ht : P t.flags) : P t.useId.flags := by
  unfold useId
  split
  · exact hP t (.task rfl) ht
  · exact ht

theorem keeps_construct (hP : use.Closed script P) {progCtr : Int} {loco : UInt16} {invert : Bool} :
    Keeps Anything (fun t : Tasks => P t.flags) (construct w.alloc progCtr loco invert) := by
  intro t ht
  simp only [construct, wp_bind, wp_get, wp_set]
  have hsetUp : P (t.setUp (w.alloc.pick t.live) progCtr loco invert).flags := useId_closed hP ht
  cases t.loopTask with
  | none =>
    simp only [wp_bind, wp_modify, wp_pure]
    exact keeps_writeTask _ hsetUp
  | some l =>
    simp only [wp_bind, wp_pure]
    refine wp_mono (keeps_readTask _ hsetUp) fun task t₁ ht₁ => ?_
    refine wp_mono (keeps_writeTask t₁ ht₁) fun _ t₂ ht₂ => ?_
    exact keeps_writeTask t₂ ht₂

theorem keeps_unchain {next : Addr} :
    Keeps Anything (fun t : Tasks => P t.flags) (unchain a next) := by
  refine keeps_get_bind fun t => fun t' ht' => ?_
  refine wp_loop_of_turns trivial (fun ring _ t ht => ?_) ht'
  rw [wp_bind]
  refine wp_mono (keeps_readTask t ht) fun task t₁ ht₁ => ?_
  apply wp_ite
  · intro _
    rw [wp_bind]
    exact wp_mono (keeps_writeTask t₁ ht₁) fun _ _ ht₂ => ht₂
  · exact fun _ => ht₁

theorem keeps_destruct (hP : use.Closed script P) :
    Keeps Anything (fun t : Tasks => P t.flags) (destruct a) := by
  intro t ht
  simp only [destruct, wp_bind, wp_modify]
  refine wp_mono (keeps_readTask t ht) fun task t₁ ht₁ => ?_
  have hfree : P (t₁.setFlag task.taskId.toUInt16 0 taskFlag).flags := hP t₁ (.task rfl) ht₁
  apply wp_ite
  · exact fun _ => hfree
  · intro _
    rw [wp_bind]
    exact wp_mono (keeps_unchain _ hfree) fun _ _ ht₂ => ht₂

theorem freeAllSections_closed (hP : use.Closed script P) (huse : ∀ id, use.sections id = true) {t : Tasks}
    (ht : P t.flags) : P t.freeAllSections.flags := by
  unfold freeAllSections
  generalize List.range maxFlags = ids
  induction ids generalizing t with
  | nil => exact ht
  | cons i ids ih => exact ih (hP t (.ofSection (huse _) rfl) ht)

end Tasks

theorem only_readTask {a : Addr} : Only script use (Exrail.readTask a) :=
  only_onTasks fun _ _ => keeps_readTask

theorem only_writeTask {a : Addr} {g : RMFT2 → RMFT2} : Only script use (Exrail.writeTask a g) :=
  only_onTasks fun _ _ => keeps_writeTask

theorem only_newTask {progCounter : Int} {loco : UInt16} {invert : Bool} :
    Only script use (newTask w progCounter loco invert) :=
  only_onTasks fun _ hP => keeps_construct hP

theorem only_freeAll (huse : ∀ id, use.sections id = true) : Only script use freeAll :=
  (only_onTasks fun _ hP => keeps_modify fun _ ht => freeAllSections_closed hP huse ht).bind fun _ =>
    only_note

/-! ## Locos, tasks and events -/

theorem only_setThrottle {cab : UInt16} {tSpeed : UInt8} {tDirection : Bool} :
    Only script use (setThrottle w cab tSpeed tDirection) :=
  only_onStation.bind fun _ => only_pure _

theorem only_setSpeed {loco : UInt16} {tSpeed : UInt8} : Only script use (setSpeed w loco tSpeed) :=
  only_onStation.bind fun _ => only_setThrottle

theorem only_resume {a : Addr} : Only script use (resume w a) :=
  only_readTask.bind fun _ => only_when fun _ => only_setThrottle

theorem only_kill {a : Addr} : Only script use (kill w a) := by
  have hdelete : Only script use (onTasks (destruct a)) := only_onTasks fun _ hP => keeps_destruct hP
  exact only_readTask.bind fun _ => (only_when fun _ => only_setSpeed).bind fun _ => hdelete

theorem only_eachTask {body : Addr → Exr Bool} (h : ∀ a, Only script use (body a)) :
    Only script use (eachTask body) := by
  refine only_get_bind fun s => only_loop fun a _ => (h a).bind fun found => only_ite (fun _ => only_pure _) ?_
  intro _
  exact only_readTask.bind fun task => only_get_bind fun s => only_ite (fun _ => only_pure _) fun _ => only_pure _

theorem only_killAll : Only script use (killAll w) :=
  only_get_bind fun _ => only_loop fun _ _ => only_kill.bind fun _ => only_get_bind fun _ => only_pure _

theorem only_killBlinkOnVpin {pin count : UInt16} : Only script use (killBlinkOnVpin script w pin count) := by
  refine only_when fun _ => only_get_bind fun s => only_loop fun a _ => only_readTask.bind fun task => ?_
  refine (only_when fun _ => only_kill).bind fun _ => ?_
  exact only_ite (fun _ => only_pure _) fun _ => only_pure _

theorem only_startNonRecursiveTask {progCounter : Int} {loco : UInt16} :
    Only script use (startNonRecursiveTask w progCounter loco) := by
  have hrunning : Only script use (eachTask fun a => do
      let task ← Exrail.readTask a
      pure (task.onEventStartPosition = progCounter ∧ task.loco = loco)) :=
    only_eachTask fun _ => only_readTask.bind fun _ => only_pure _
  exact hrunning.bind fun _ => only_when fun _ => only_newTask.bind fun _ => only_writeTask

theorem only_handleEvent {op : Opcode} {id : Int16} {loco : UInt16} :
    Only script use (handleEvent script w op id loco) :=
  only_runProg fun _ => only_startNonRecursiveTask

/-! ## Accessories, turnouts and signals -/

theorem only_setAccessory {address : Int} {port : UInt8} {gate : Bool} {onoff : UInt8} :
    Only script use (setAccessory script w address port gate onoff) :=
  only_onStation.bind fun _ => only_when fun _ => only_handleEvent

theorem only_setClosedStateOnly {id : UInt16} {closeFlag : Bool} :
    Only script use (setClosedStateOnly script w id closeFlag) := by
  apply only_get_bind
  intro s
  split
  · exact only_pure _
  · exact Only.bind (only_modify fun _ => rfl) fun _ => only_handleEvent

theorem only_setClosed {id : UInt16} {closeFlag : Bool} : Only script use (setClosed script w id closeFlag) := by
  apply only_get_bind
  intro s
  split
  · exact only_pure _
  · next tt _ =>
    have hinternal : Only script use (setClosedInternal script w tt closeFlag) := by
      unfold setClosedInternal
      split
      · exact only_setAccessory
      · exact only_pure _
    exact hinternal.bind fun _ => only_setClosedStateOnly

theorem only_setPosition {id : UInt16} {position : UInt8} :
    Only script use (setPosition script w id position) := by
  unfold setPosition
  split
  · exact only_pure _
  · exact only_when fun _ => only_handleEvent

theorem only_setSignalPin {pin : UInt16} : Only script use (setSignalPin script w pin) :=
  only_when fun _ => only_killBlinkOnVpin

theorem only_showSignal {signal : SignalDefinition} {id : Int16} {rag : UInt8} :
    Only script use (showSignal script w signal id rag) := by
  unfold showSignal
  split
  · exact only_setAccessory
  · exact only_onStation.bind fun _ => only_pure _
  · exact only_setSignalPin.bind fun _ => only_setSignalPin.bind fun _ => only_setSignalPin
  · exact only_setSignalPin.bind fun _ => only_setSignalPin.bind fun _ => only_setSignalPin
  · exact only_pure _

/-- What follows the write of the flags. -/
theorem only_doSignal {id : Int16} {rag : UInt8} (huse : use.signal = some (id, rag))
    (hrag : rag ||| signalMask = signalMask) : Only script use (doSignal script w id rag) := by
  refine only_when fun hfeature => only_handleEvent.bind fun _ => ?_
  split
  · exact only_pure _
  · next sigslot hfind =>
    have hslot : script.signalSlot id = some sigslot.toUInt16 := by
      rw [Script.signalSlot, if_pos hfeature, hfind]
      rfl
    refine (only_setFlag (.ofSignal huse hslot hrag)).bind fun _ => ?_
    split
    · exact only_pure _
    · exact only_showSignal

/-- The aspect of a signal is one of its colours, or nothing. -/
theorem signalAspectEvent_eq (address : Int16) (aspect : UInt8) : signalAspectEvent script w address aspect =
    (aspectColour script address aspect).elim (pure false) fun colour =>
      doSignal script w address colour >>= fun _ => pure true := by
  unfold signalAspectEvent aspectColour
  by_cases hfeature : ¬ script.has Script.featureSignal
  · rw [if_pos hfeature, if_pos hfeature]
    rfl
  rw [if_neg hfeature, if_neg hfeature]
  cases (script.signalLookup.find? address).bind
      fun sigslot => script.signalDefinitions[sigslot.toInt.toNat]? with
  | none => rfl
  | some signal =>
    simp only
    split
    · rfl
    · split
      · rfl
      · split
        · rfl
        · split <;> rfl

theorem aspectColour_masked {address : Int16} {aspect colour : UInt8}
    (h : aspectColour script address aspect = some colour) : colour ||| signalMask = signalMask := by
  have hcolour : colour = signalRed ∨ colour = signalAmber ∨ colour = signalGreen := by
    unfold aspectColour at h
    grind
  rcases hcolour with rfl | rfl | rfl <;> rfl

theorem only_signalAspectEvent {address : Int16} {aspect : UInt8} :
    Only script (aspectUse script address aspect) (signalAspectEvent script w address aspect) := by
  rw [signalAspectEvent_eq]
  cases hcolour : aspectColour script address aspect with
  | none => exact only_pure _
  | some colour =>
    refine (only_doSignal ?_ (aspectColour_masked hcolour)).bind fun _ => only_pure _
    rw [aspectUse, hcolour]
    rfl

/-! ## Commands -/

theorem only_guarded {c : Prop} [Decidable c] {m : Exr Unit} (h : Only script use m) :
    Only script use (guarded c m) :=
  only_ite (fun _ => h.bind fun _ => only_pure _) fun _ => only_pure _

theorem only_slashFlag {id : Int16} {on off : UInt8} (h : use.Allows script id.toUInt16 on off) :
    Only script use (slashFlag id on off) :=
  (only_setFlag h).bind fun _ => only_pure _

theorem only_pausing {p : PausingTask} :
    Only script use (onTasks (modify fun t => { t with pausingTask := p })) :=
  only_onTasks fun _ _ => keeps_modify fun _ ht => ht

theorem only_slashPause : Only script use slashPause := by
  have hall : Only script use (eachTask fun a => do
      pause a
      pure false) := by
    refine only_eachTask fun a => Only.bind ?_ fun _ => only_pure _
    exact only_readTask.bind fun _ => only_when fun _ => only_onStation.bind fun _ => only_writeTask
  exact hall.bind fun _ => only_onStation.bind fun _ => only_pausing

theorem only_slashResume : Only script use (slashResume w) := by
  have hall : Only script use (eachTask fun a => do
      resume w a
      pure false) := only_eachTask fun _ => only_resume.bind fun _ => only_pure _
  exact only_pausing.bind fun _ => hall.bind fun _ => only_pure _

theorem only_slashKill {id : Int16} : Only script use (slashKill w id) := by
  refine only_ite (fun _ => only_pure _) fun _ => only_eachTask fun a => only_readTask.bind fun _ => ?_
  exact only_guarded only_kill

/-- A command with one keyword uses the flags that its keyword names, and no others. -/
theorem only_slashOne {keyword p : Int16} :
    Only script (slashOneUse keyword p) (slashOne script w keyword p) := by
  unfold slashOne
  refine only_ite (fun _ => only_slashKill) fun _ => ?_
  refine only_ite (fun h => ?_) fun hreserve => ?_
  · exact only_slashFlag (.ofSection (by simp [slashOneUse, h, ofSection]) rfl)
  refine only_ite (fun h => ?_) fun hfree => ?_
  · refine only_note.bind fun _ => only_slashFlag (.ofSection (by simp [slashOneUse, h, ofSection]) rfl)
  have hsection : ¬ (keyword = hk "RESERVE" ∨ keyword = hk "FREE") := not_or.mpr ⟨hreserve, hfree⟩
  refine only_ite (fun h => ?_) fun hlatch => ?_
  · exact only_slashFlag (.ofLatch (by rw [slashOneUse, if_neg hsection, if_pos (.inl h)]; simp [ofLatch]) rfl)
  refine only_ite (fun h => ?_) fun hunlatch => ?_
  · exact only_slashFlag (.ofLatch (by rw [slashOneUse, if_neg hsection, if_pos (.inr h)]; simp [ofLatch]) rfl)
  have hlatched : ¬ (keyword = hk "LATCH" ∨ keyword = hk "UNLATCH") := not_or.mpr ⟨hlatch, hunlatch⟩
  refine only_ite (fun h => ?_) fun hred => ?_
  · refine only_guarded (only_doSignal ?_ rfl)
    rw [slashOneUse, if_neg hsection, if_neg hlatched, if_pos h]
    rfl
  refine only_ite (fun h => ?_) fun hamber => ?_
  · refine only_guarded (only_doSignal ?_ rfl)
    rw [slashOneUse, if_neg hsection, if_neg hlatched, if_neg hred, if_pos h]
    rfl
  refine only_ite (fun h => ?_) fun _ => only_pure _
  refine only_guarded (only_doSignal ?_ rfl)
  rw [slashOneUse, if_neg hsection, if_neg hlatched, if_neg hred, if_neg hamber, if_pos h]
  rfl

/-- A `</ ...>` command uses the flags that it names, and no others. -/
theorem only_parseSlash {paramCount : UInt8} {p : Nat → Int16} :
    Only script ((Command.slash paramCount p).flagUse script) (parseSlash script w paramCount p) := by
  refine only_ite (fun _ => only_pure _) fun _ => ?_
  refine only_ite (fun _ => only_guarded only_slashPause) fun _ => ?_
  refine only_ite (fun _ => only_guarded only_slashResume) fun _ => ?_
  refine only_ite (fun hfreeall => ?_) fun _ => ?_
  · refine only_ite (fun hcount => ?_) fun _ => only_pure _
    refine (only_freeAll fun id => ?_).bind fun _ => only_pure _
    rw [Command.flagUse, if_pos ⟨hcount, hfreeall⟩]
    rfl
  refine only_ite (fun _ => only_ite (fun _ => only_pure _) fun _ => ?_) fun _ => ?_
  · exact only_guarded (only_newTask.bind fun _ => only_pure _)
  refine only_ite (fun _ => only_guarded only_killAll) fun _ => ?_
  refine only_ite (fun _ => only_pure _) fun hcount => ?_
  have htwo : paramCount = 2 := not_not.mp hcount
  have hone : ¬ (paramCount = 1 ∧ p 0 = hk "FREEALL") := by
    rw [htwo]
    exact fun h => absurd h.1 (by decide)
  rw [Command.flagUse, if_neg hone, if_pos htwo]
  exact only_slashOne

/-- **Commands.** -/
theorem only_command (c : Command) : Only script (c.flagUse script) (command script w c) := by
  cases c with
  | slash paramCount p => exact only_parseSlash.bind fun _ => only_pure _
  | aspect address value =>
    refine only_signalAspectEvent.bind fun _ => only_when fun _ => ?_
    exact only_onStation.bind fun _ => only_pure _
  | lcc =>
    refine only_when fun _ => only_get_bind fun s => ?_
    split
    · exact only_throw
    · refine only_ite (fun _ => only_modify fun _ => rfl) fun _ => ?_
      exact Only.bind (only_when fun _ => only_modify fun _ => rfl) fun _ => only_modify fun _ => rfl
  | lccEvent eventid =>
    exact only_when fun _ => only_get_bind fun _ => only_when fun _ => only_startNonRecursiveTask
  | block block loco entering => exact only_when fun _ => only_handleEvent
  | setClosed id closed => exact only_setClosed
  | setClosedStateOnly id closed => exact only_setClosedStateOnly
  | setTurnouts turnouts => exact only_modify fun _ => rfl
  | setAccessory address port gate onoff => exact only_setAccessory
  | setPosition turntable position => exact only_setPosition
  | changeEvent vpin change => exact only_when fun _ => only_handleEvent
  | clockEvent clocktime change =>
    exact only_when fun _ => only_handleEvent.bind fun _ => only_handleEvent
  | powerEvent track overload => exact only_when fun _ => only_handleEvent
  | railsyncEvent on =>
    refine only_when fun _ => only_ite (fun _ => only_handleEvent) fun _ => ?_
    exact only_ite (fun _ => only_onStation) fun _ => only_handleEvent
  | createNewTask route cab => exact only_when fun _ => only_newTask.bind fun _ => only_pure _
  | sensor progCounter => exact only_newTask.bind fun _ => only_pure _
  | readLocoCallback cv => exact only_modify fun _ => rfl
  | station op => exact only_onStation.bind fun _ => only_pure _
  | tracks op => exact only_onRails

/-! ## Opcodes -/

section Opcodes

variable {this : Addr} {task : RMFT2} {operand : Int16}

theorem Only.thenBreak (h : Only script use m) : Only script use (thenBreak m) := h.bind fun _ => only_pure _

theorem Only.thenReturn (h : Only script use m) : Only script use (thenReturn m) := h.bind fun _ => only_pure _

theorem Only.ifLoco (h : Only script use m) : Only script use (ifLoco task m) :=
  Only.thenBreak (only_when fun _ => h.bind fun _ => only_pure _)

theorem only_changeSpeed {least : UInt8} {f : Platform → UInt8 → UInt8} :
    Only script use (changeSpeed w task least f) :=
  Only.ifLoco (only_get_bind fun _ => only_onStation.bind fun _ => only_when fun _ => only_setSpeed)

theorem only_delayMe {delay : UInt32} : Only script use (delayMe w this delay) := only_writeTask

theorem only_waitUntil {c : Exrail → Bool} {delay : UInt32} : Only script use (waitUntil w this c delay) :=
  only_get_bind fun _ => only_ite (fun _ => only_pure _) fun _ => only_delayMe.thenReturn

theorem only_waitAfter {c : Exrail → Bool} {time : UInt32} : Only script use (waitAfter w this task c time) := by
  refine only_get_bind fun _ => only_ite (fun _ => only_writeTask.bind fun _ => only_delayMe.thenReturn) ?_
  exact fun _ => only_ite (fun _ => only_pure _) fun _ => only_pure _

theorem only_at {c : Exrail → Bool} : Only script use (at_ w this c) :=
  only_writeTask.bind fun _ => only_waitUntil

theorem only_acquire (huse : use.sections (operandU operand) = true) :
    Only script use (do
      Exrail.setFlag (operandU operand) sectionFlag 0
      thenBreak (note (.acquired this (operandU operand)))) :=
  (only_setFlag (.ofSection huse rfl)).bind fun _ => only_note.thenBreak

theorem only_reserve (huse : use.sections (operandU operand) = true) :
    Only script use (reserve w this task operand) := by
  refine only_getFlag.bind fun taken => only_ite (fun _ => ?_) fun _ => only_acquire huse
  exact (only_when fun _ => only_setSpeed).bind fun _ => only_delayMe.thenReturn

theorem only_ifReserve (huse : use.sections (operandU operand) = true) :
    Only script use (ifReserve this operand) :=
  only_getFlag.bind fun _ => only_ite (fun _ => (only_modify fun _ => rfl).thenBreak) fun _ => only_acquire huse

theorem only_jump {route : Int16} : Only script use (jump script w this route) :=
  only_ite (fun _ => only_kill.thenReturn) fun _ => only_writeTask.thenReturn

theorem only_callRoute {position : Int} {route : Int16} :
    Only script use (callRoute script w this task position route) :=
  only_ite (fun _ => only_kill.thenReturn) fun _ => only_writeTask.bind fun _ => only_jump

theorem only_startRoute {route : Int16} {loco : UInt16} {invert : Bool} {also : Exr Unit}
    (h : Only script use also) : Only script use (startRoute script w route loco invert also) :=
  Only.thenBreak (only_when fun _ => only_newTask.bind fun _ => h)

theorem only_blink : Only script use (blink script w task operand) :=
  only_killBlinkOnVpin.bind fun _ => only_newTask.bind fun _ => only_writeTask.thenBreak

theorem only_resumeAll : Only script use (resumeAll w this) := by
  refine only_pausing.bind fun _ => only_resume.bind fun _ => only_readTask.bind fun _ => only_get_bind fun _ => ?_
  refine Only.thenBreak (only_loop fun a _ => only_ite (fun _ => only_pure _) fun _ => ?_)
  exact only_resume.bind fun _ => only_readTask.bind fun _ => only_pure _

theorem only_printMessage :
    Only script (opcodeUse script operand (some .print)) (printMessage script w task operand) := by
  unfold printMessage opcodeUse
  cases script.messages (operandU operand) with
  | parse c => exact (only_command c).thenBreak
  | text => exact only_pure _
  | ifLoco locolist => exact (only_modify fun _ => rfl).thenBreak
  | ifAll vpinList => exact (only_modify fun _ => rfl).thenBreak
  | ifAny vpinList => exact (only_modify fun _ => rfl).thenBreak

theorem only_atTimeout2 : Only script use (atTimeout2 script w this task operand) := by
  refine only_get_bind fun _ => only_ite (fun _ => only_pure _) fun _ => ?_
  exact only_ite (fun _ => only_writeTask.thenBreak) fun _ => only_delayMe.thenReturn

theorem only_afterOverload : Only script use (afterOverload w this task operand) := by
  refine only_get_bind fun s => Only.bind ?_ fun on => only_waitAfter
  unfold isPowerOn
  split
  · exact only_throw
  · exact only_pure _

theorem only_setPower : Only script use (setPower script task operand) :=
  only_ite (fun _ => only_onStation.thenBreak) fun _ =>
    only_ite (fun _ => only_onStation.thenBreak) fun _ => only_pure _

theorem only_consist : Only script use (consist task operand) :=
  Only.thenBreak (only_ite (fun _ => only_onStation) fun _ => only_onStation.bind fun _ => only_pure _)

theorem only_manageRouteState {id : Int16} {state : UInt8} :
    Only script use (manageRouteState script id state) := by
  unfold manageRouteState
  split
  · exact only_pure ()
  · exact only_when fun _ => only_modify fun _ => rfl

/-- **Opcodes.** -/
theorem only_execute (op : Option Opcode) :
    Only script (opcodeUse script operand op) (execute script w this task operand op) := by
  cases op with
  | none => exact only_kill.thenBreak
  | some op =>
    unfold execute
    cases op with
    -- what writes flags
    | reserve => exact only_reserve (beq_self_eq_true _)
    | ifreserve => exact only_ifReserve (beq_self_eq_true _)
    | free =>
      exact only_note.bind fun _ => (only_setFlag (.ofSection (beq_self_eq_true _) rfl)).thenBreak
    | freeall => exact (only_freeAll fun _ => rfl).thenBreak
    | latch | unlatch => exact (only_setFlag (.ofLatch (beq_self_eq_true _) rfl)).thenBreak
    | red | amber | green => exact (only_doSignal rfl rfl).thenBreak
    | aspect =>
      refine only_signalAspectEvent.bind fun _ => Only.thenBreak (only_when fun _ => ?_)
      exact only_onStation.bind fun _ => only_pure _
    | ifloco | print => exact only_printMessage
    -- speeds and functions of locos
    | rev | fwd => exact only_setThrottle.ifLoco
    | speed => exact only_setSpeed.ifLoco
    | speedup | speedRel | slowdown => exact only_changeSpeed
    | xfwd | xrev => exact only_setThrottle.thenBreak
    | saveSpeed | restoreSpeed => exact only_onStation.ifLoco
    | xsaveSpeed | xrestoreSpeed | xpom | xfon | xfoff | xftoggle => exact only_onStation.thenBreak
    | momentum | setfreq => exact only_get_bind fun _ => only_onStation.thenBreak
    | pom | fon | foff | ftoggle => exact only_get_bind fun _ => only_onStation.ifLoco
    | estopall => exact only_ite (fun _ => only_onStation.thenBreak) fun _ => only_onStation.thenBreak
    | consist => exact only_consist
    | forget => exact (only_onStation.bind fun _ => only_writeTask).ifLoco
    -- the loco of the task
    | invertDirection | setloco => exact only_writeTask.thenBreak
    | pickupStash => exact only_get_bind fun _ => only_writeTask.thenBreak
    | readLoco2 =>
      refine only_get_bind fun _ => only_ite (fun _ => only_delayMe.thenReturn) fun _ => ?_
      exact only_writeTask.thenBreak
    -- turnouts and accessories
    | throw | close => exact only_setClosed.thenBreak
    | toggleTurnout => exact only_get_bind fun _ => only_setClosed.thenBreak
    | rotate => exact only_setPosition.thenBreak
    | dccactivate => exact only_setAccessory.thenBreak
    | set | reset => exact (only_runProg fun _ => only_killBlinkOnVpin).thenBreak
    | blink => exact only_blink
    | neopixel => exact only_killBlinkOnVpin.thenBreak
    -- waiting
    | at_ | atgte | atlt => exact only_at
    | after => exact only_waitAfter
    | afteroverload => exact only_afterOverload
    | attimeout1 => exact only_writeTask.thenBreak
    | attimeout2 => exact only_atTimeout2
    | delay | delayms | delaymins | randwait => exact only_delayMe.thenBreak
    | waitfor | waitfortt => exact only_waitUntil
    | waitWhileRed =>
      refine only_get_bind fun s => only_ite (fun _ => ?_) fun _ => only_pure _
      refine Only.bind (only_when fun _ => ?_) fun _ => only_delayMe.thenReturn
      exact only_onStation.bind fun _ => only_when fun _ => only_setSpeed
    -- conditions
    | iftimeout | if_ | else_ | ifgte | iflt | ifbitmapAll | ifbitmapAny | ifnot | ifre | ifrandom
    | ifred | ifamber | ifgreen | ifthrown | ifclosed | ifstash | ifstashedHere | ifttposition
    | ifRouteHidden | ifRouteInactive | ifRouteActive | ifRouteDisabled =>
      exact Only.thenBreak (only_modify fun _ => rfl)
    -- the flow of control
    | follow | randomFollow => exact only_jump
    | call | randomCall => exact only_callRoute
    | return_ => exact only_ite (fun _ => only_kill.thenReturn) fun _ => only_writeTask.thenReturn
    | endtask | endexrail => exact only_kill.thenReturn
    | killall => exact only_killAll.thenReturn
    | signal | roster | onclocktime | onvpSensor | ifTypeOpcodes => exact only_kill.thenBreak
    | onrailsyncon | onrailsyncoff =>
      exact only_ite (fun _ => only_pure _) fun _ => only_kill.thenBreak
    | start | startShared | sendloco => exact only_startRoute (only_pure ())
    | startSend => exact only_startRoute only_writeTask
    | pause => exact only_onStation.bind fun _ => only_pausing.thenBreak
    | resume => exact only_resumeAll
    -- tracks
    | poweroff =>
      exact only_onStation.bind fun _ => only_onStation.bind fun _ => only_onRails.thenBreak
    | poweron => exact only_onStation.bind fun _ => only_onRails.thenBreak
    | join => exact only_onRails.bind fun _ => only_onStation.bind fun _ => only_onStation.thenBreak
    | unjoin | setTrack => exact only_onRails.thenBreak
    | setPower => exact only_setPower
    | readLoco1 => exact Only.bind (only_modify fun _ => rfl) fun _ => only_onRails.thenBreak
    -- routes and the stash
    | routeHidden | routeInactive | routeActive | routeDisabled => exact only_manageRouteState.thenBreak
    | stash | clearStash | clearAllStash => exact Only.thenBreak (only_modify fun _ => rfl)
    | clearAnyStash => exact Only.ifLoco (only_modify fun _ => rfl)
    -- nothing that comes back
    | route | automation | sequence | drive | autostart | pad | turnout | servoturnout | pinturnout
    | onclose | onlcc | onacon | onacof | onthrow | onactivate | ondeactivate | onred | onamber
    | ongreen | onchange | ontime | onbutton | onsensor | onbitmap | dccturntable | exttturntable
    | ttaddposition | onrotate | onoverload | onblockenter | onblockexit | lcc | acon | acof | lccx
    | servo | bitmapInc | bitmapDec | bitmapAnd | bitmapOr | bitmapXor | endif => exact only_pure _

end Opcodes

/-! ## Calls -/

theorem only_moveTo {this : Addr} {progCounter : Int} : Only script use (moveTo this progCounter) :=
  only_onTasks fun _ _ => keeps_modify fun _ ht => ht

theorem only_skipIfBlock {this : Addr} : Only script use (skipIfBlock script w this) := by
  apply only_get_bind
  intro s
  split
  · exact only_throw
  · exact only_moveTo.bind fun _ => (only_when fun _ => only_kill).bind fun _ => only_pure _

theorem only_proceed {this : Addr} (flow : Flow) : Only script use (proceed script w this flow) := by
  cases flow with
  | returns => exact only_pure ()
  | breaks =>
    have hmove : Only script use (do
        let s ← get
        moveTo this (progCounterOf s this + 3)) := only_get_bind fun _ => only_moveTo
    apply only_get_bind
    intro s
    apply only_ite
    · exact fun _ => only_skipIfBlock.bind fun _ => only_when fun _ => hmove
    · exact fun _ => (only_pure true).bind fun _ => only_when fun _ => hmove

theorem only_blinkStep {this : Addr} {task : RMFT2} : Only script use (blinkStep script w this task) := by
  unfold blinkStep
  split
  · exact only_writeTask.bind fun _ => only_delayMe
  · exact only_writeTask.bind fun _ => only_delayMe

variable {s : Exrail} {P : (UInt16 → UInt8) → Prop}

theorem wp_readTask_of {a : Addr} {Q : RMFT2 → Exrail → Prop} (h : Q (s.tasks.mem a) s) :
    wp Anything (Exrail.readTask a) Q s := by
  simp only [Exrail.readTask, onTasks, Tasks.readTask, wp_zoom, wp_bind, wp_get]
  exact wp_ite (fun _ => h) fun _ => trivial

/-- The step of a task writes what its opcode may write. -/
theorem wp_loop2_closed {this : Addr} (hP : (stepUse script w (s.tasks.mem this)).Closed script P)
    (h : P s.tasks.flags) : wp Anything (loop2 script w this) (fun _ s' => P s'.tasks.flags) s := by
  rw [loop2, wp_bind]
  refine wp_readTask_of ?_
  unfold stepUse at hP
  apply wp_ite
  · exact fun _ => h
  · intro hready
    rw [if_neg hready] at hP
    apply wp_ite
    · exact fun _ => only_blinkStep P hP s h
    · intro hcalm
      rw [if_neg hcalm] at hP
      rw [wp_bind, wp_modify]
      exact ((only_execute _).bind fun flow => only_proceed flow) P hP { s with skipIf := false } h

/-- **Calls.** From any state, a call keeps the properties of the flags that its use keeps. -/
theorem wp_turn_closed {turn : Turn} (hP : (turn.flagUse script s).Closed script P) (h : P s.tasks.flags) :
    wp Anything (turn.exec script) (fun _ s' => P s'.tasks.flags) s := by
  cases turn with
  | command w c => exact only_command c P hP s h
  | loop w =>
    simp only [Turn.exec, Exrail.loop, wp_bind, wp_get]
    cases hl : s.tasks.loopTask with
    | none => exact h
    | some l =>
      simp only [wp_bind]
      refine wp_readTask_of ?_
      simp only [onTasks, wp_zoom, wp_modify]
      refine wp_when (fun hserviced => ?_) fun _ => h
      have hserves : (Turn.loop w).serves s = some (s.tasks.mem l).next := by
        simp only [Turn.serves, hl]
        exact if_pos hserviced
      rw [Turn.flagUse, hserves] at hP
      exact wp_loop2_closed hP h

end Exrail

end CommandStation
