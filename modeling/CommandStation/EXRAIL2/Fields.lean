import CommandStation.EXRAIL2.FlagUse
import CommandStation.EXRAIL2.TaskIds
import CommandStation.Lib.Shadow

/-!
# Four uses of one array

The numbers of sections, latches, tasks and signal slots meet in the array of flags. A write concerns
the bits of its use and the id that it is for, so the uses do not disturb each other, and the bits of a
signal are those of the last call of `doSignal` for it.
-/

namespace CommandStation

open CommandStation.Lib CommandStation.Tasks

namespace Exrail

open FlagUse

variable {script : Script} {use : FlagUse} {w : Inputs} {s : Exrail} {id slot : UInt16} {mask colour : UInt8}

/-! ## Bits that are not written -/

/-- A write of other bits, or for another id. -/
theorem masked_setFlag {t : Tasks} {id' : UInt16} {on off : UInt8} (h : id = id' → (on ||| off) &&& mask = 0) :
    (t.setFlag id' on off).flags id &&& mask = t.flags id &&& mask := by
  rw [setFlag_flags]
  split
  · next hid =>
    rw [masked_of_disjoint _ (h hid.1), hid.1]
  · rfl

theorem closed_of_disjoint (h : ∀ {on off}, use.Allows script id on off → (on ||| off) &&& mask = 0)
    (bits : UInt8) : use.Closed script fun flags => flags id &&& mask = bits := by
  intro t id' on off hallows hbits
  rw [masked_setFlag fun hid => h (hid ▸ hallows), hbits]

theorem closed_section (h : use.sections id = false) (bits : UInt8) :
    use.Closed script fun flags => flags id &&& sectionFlag = bits := by
  refine closed_of_disjoint (fun hallows => ?_) bits
  cases hallows with
  | task hmasks => rw [hmasks]; rfl
  | ofSection hsection => rw [h] at hsection; cases hsection
  | ofLatch _ hmasks => rw [hmasks]; rfl
  | ofSignal _ _ hmasks => rw [hmasks]; rfl

theorem closed_latch (h : use.latches id = false) (bits : UInt8) :
    use.Closed script fun flags => flags id &&& latchFlag = bits := by
  refine closed_of_disjoint (fun hallows => ?_) bits
  cases hallows with
  | task hmasks => rw [hmasks]; rfl
  | ofSection _ hmasks => rw [hmasks]; rfl
  | ofLatch hlatch => rw [h] at hlatch; cases hlatch
  | ofSignal _ _ hmasks => rw [hmasks]; rfl

theorem closed_signal (h : ∀ id colour, use.signal = some (id, colour) → script.signalSlot id ≠ some slot)
    (bits : UInt8) : use.Closed script fun flags => flags slot &&& signalMask = bits := by
  refine closed_of_disjoint (fun hallows => ?_) bits
  cases hallows with
  | task hmasks => rw [hmasks]; rfl
  | ofSection _ hmasks => rw [hmasks]; rfl
  | ofLatch _ hmasks => rw [hmasks]; rfl
  | ofSignal hsignal hslot => exact absurd hslot (h _ _ hsignal)

/-! ## The bits of a signal -/

theorem masked_colour (x : UInt8) (h : colour ||| mask = mask) : ((x &&& ~~~mask) ||| colour) &&& mask = colour := by
  have hbits := congrArg UInt8.toBitVec h
  apply UInt8.eq_of_toBitVec_eq
  simp only [UInt8.toBitVec_and, UInt8.toBitVec_or, UInt8.toBitVec_not] at *
  ext i hi
  have hbit := congrArg (fun b => b[i]) hbits
  simp only [BitVec.getElem_and, BitVec.getElem_or, BitVec.getElem_not] at *
  revert hbit
  generalize colour.toBitVec[i] = p
  generalize mask.toBitVec[i] = q
  generalize x.toBitVec[i] = y
  revert p q y
  decide

/-- A call of `doSignal` leaves the bits that it would write itself. -/
theorem closed_colour {id : Int16} (h : use.signal = some (id, colour)) (hcolour : colour ||| signalMask = signalMask) :
    use.Closed script fun flags => flags slot &&& signalMask = colour := by
  intro t id' on off hallows hbits
  have hother : (on ||| off) &&& signalMask = 0 →
      (t.setFlag id' on off).flags slot &&& signalMask = colour := fun hdisjoint => by
    rw [masked_setFlag fun _ => hdisjoint, hbits]
  cases hallows with
  | task hmasks => exact hother (by rw [hmasks]; rfl)
  | ofSection _ hmasks => exact hother (by rw [hmasks]; rfl)
  | ofLatch _ hmasks => exact hother (by rw [hmasks]; rfl)
  | ofSignal hsignal =>
    rw [h] at hsignal
    cases hsignal
    rw [setFlag_flags]
    split
    · exact masked_colour _ hcolour
    · exact hbits

/-- The program leaves the signal of a slot in a colour. -/
def Sets {α : Type} (slot : UInt16) (colour : UInt8) (m : Exr α) : Prop :=
  ∀ s, wp Anything m (fun _ s' => s'.tasks.flags slot &&& signalMask = colour) s

section Sets

variable {α β : Type} {m : Exr α} {f : α → Exr β}

theorem Sets.of_right (h : ∀ a, Sets slot colour (f a)) : Sets slot colour (m >>= f) := by
  intro s
  rw [wp_bind]
  exact wp_iff_forall.mpr fun a s' _ => h a s'

theorem Sets.bind (script : Script) (id : Int16) (h : Sets slot colour m)
    (hf : ∀ a, Only script (ofSignal (some (id, colour))) (f a)) (hcolour : colour ||| signalMask = signalMask) :
    Sets slot colour (m >>= f) := by
  intro s
  rw [wp_bind]
  exact wp_mono (h s) fun a s' hs' => hf a _ (closed_colour rfl hcolour) s' hs'

end Sets

theorem signalSlot_eq_some {id : Int16} : script.signalSlot id = some slot ↔
    script.has Script.featureSignal = true ∧ ∃ sigslot, script.signalLookup.find? id = some sigslot ∧
      sigslot.toUInt16 = slot := by
  unfold Script.signalSlot
  split
  · next hfeature => simp [hfeature]
  · next hfeature => simp [hfeature]

/-- `doSignal` sets the colour in the slot of its signal. -/
theorem sets_doSignal {id : Int16} (hslot : script.signalSlot id = some slot) (hin : slot.toNat < maxFlags)
    (hcolour : colour ||| signalMask = signalMask) : Sets slot colour (doSignal script w id colour) := by
  obtain ⟨hfeature, sigslot, hfind, rfl⟩ := signalSlot_eq_some.mp hslot
  have hset : Sets sigslot.toUInt16 colour (Exrail.setFlag sigslot.toUInt16 colour signalMask) := by
    intro s
    simp only [Exrail.setFlag, onTasks, wp_zoom, wp_modify]
    rw [setFlag_flags, if_pos ⟨rfl, hin⟩]
    exact masked_colour _ hcolour
  unfold doSignal when
  rw [if_pos hfeature]
  apply Sets.of_right
  intro _
  rw [hfind]
  refine Sets.bind script id hset (fun _ => ?_) hcolour
  split
  · exact only_pure _
  · exact only_showSignal

theorem sets_signalAspectEvent {address : Int16} {aspect : UInt8}
    (hcall : aspectColour script address aspect = some colour) (hslot : script.signalSlot address = some slot)
    (hin : slot.toNat < maxFlags) : Sets slot colour (signalAspectEvent script w address aspect) := by
  rw [signalAspectEvent_eq, hcall]
  have hcolour := aspectColour_masked hcall
  exact Sets.bind script address (sets_doSignal hslot hin hcolour) (fun _ => only_pure _) hcolour

/-- The keywords that set a signal. -/
theorem slashOneUse_signal {keyword p id : Int16} (h : (slashOneUse keyword p).signal = some (id, colour)) :
    id = p ∧ (keyword = hk "RED" ∧ colour = signalRed ∨ keyword = hk "AMBER" ∧ colour = signalAmber ∨
      keyword = hk "GREEN" ∧ colour = signalGreen) := by
  unfold slashOneUse at h
  split at h
  · cases h
  · split at h
    · cases h
    · split at h
      · next hred => cases h; exact ⟨rfl, .inl ⟨hred, rfl⟩⟩
      · split at h
        · next hamber => cases h; exact ⟨rfl, .inr (.inl ⟨hamber, rfl⟩)⟩
        · split at h
          · next hgreen => cases h; exact ⟨rfl, .inr (.inr ⟨hgreen, rfl⟩)⟩
          · cases h

/-- A command that sets a signal sets the colour of its slot. -/
theorem sets_slashOne {keyword p id : Int16} (h : (slashOneUse keyword p).signal = some (id, colour))
    (hslot : script.signalSlot id = some slot) (hin : slot.toNat < maxFlags) :
    Sets slot colour (slashOne script w keyword p) := by
  have hguarded : ∀ colour, colour ||| signalMask = signalMask → script.signalSlot p = some slot →
      Sets slot colour (guarded True (doSignal script w p colour)) := by
    intro colour hcolour hslot
    unfold guarded
    rw [if_pos trivial]
    exact Sets.bind script p (sets_doSignal hslot hin hcolour) (fun _ => only_pure _) hcolour
  obtain ⟨rfl, ⟨rfl, rfl⟩ | ⟨rfl, rfl⟩ | ⟨rfl, rfl⟩⟩ := slashOneUse_signal h
  · have heq : slashOne script w (hk "RED") id = guarded True (doSignal script w id signalRed) := by
      unfold slashOne
      simp +decide
    rw [heq]
    exact hguarded _ rfl hslot
  · have heq : slashOne script w (hk "AMBER") id = guarded True (doSignal script w id signalAmber) := by
      unfold slashOne
      simp +decide
    rw [heq]
    exact hguarded _ rfl hslot
  · have heq : slashOne script w (hk "GREEN") id = guarded True (doSignal script w id signalGreen) := by
      unfold slashOne
      simp +decide
    rw [heq]
    exact hguarded _ rfl hslot

theorem aspectUse_signal {address id : Int16} {aspect : UInt8}
    (h : (aspectUse script address aspect).signal = some (id, colour)) :
    id = address ∧ aspectColour script address aspect = some colour := by
  cases hcolour : aspectColour script address aspect with
  | none =>
    rw [aspectUse, hcolour] at h
    cases h
  | some colour' =>
    rw [aspectUse, hcolour] at h
    cases h
    exact ⟨rfl, rfl⟩

/-- The colours that are set fit in the bits of a signal. -/
theorem Command.signal_masked {c : Command} {id : Int16} (h : (c.flagUse script).signal = some (id, colour)) :
    colour ||| signalMask = signalMask := by
  cases c with
  | slash paramCount p =>
    rw [Command.flagUse] at h
    split at h
    · cases h
    · split at h
      · obtain ⟨-, ⟨-, rfl⟩ | ⟨-, rfl⟩ | ⟨-, rfl⟩⟩ := slashOneUse_signal h <;> rfl
      · cases h
  | aspect address value => exact aspectColour_masked (aspectUse_signal h).2
  | _ => cases h

/-- The colour that an opcode sets has no bits outside those of signals. -/
theorem opcode_signal_masked {operand id : Int16} {op : Option Opcode}
    (h : (opcodeUse script operand op).signal = some (id, colour)) : colour ||| signalMask = signalMask := by
  have hprint : (opcodeUse script operand (some .print)).signal = some (id, colour) →
      colour ||| signalMask = signalMask := by
    intro huse
    unfold opcodeUse at huse
    cases hmessage : script.messages (operandU operand) with
    | parse c =>
      simp only [hmessage] at huse
      exact Command.signal_masked huse
    | _ =>
      simp only [hmessage] at huse
      cases huse
  cases op with
  | none => cases h
  | some op =>
    cases op with
    | red | amber | green => cases h; rfl
    | aspect => exact aspectColour_masked (aspectUse_signal h).2
    | ifloco | print => exact hprint h
    | _ => cases h

section Turns

variable {id : Int16} (hslot : script.signalSlot id = some slot) (hin : slot.toNat < maxFlags)

include hslot hin

/-- A command that sets a signal. -/
theorem sets_command {c : Command} (h : (c.flagUse script).signal = some (id, colour)) :
    Sets slot colour (command script w c) := by
  cases c with
  | slash paramCount p =>
    have huse : paramCount = 2 ∧ (slashOneUse (p 0) (p 1)).signal = some (id, colour) := by
      rw [Command.flagUse] at h
      split at h
      · cases h
      · split at h
        · next htwo => exact ⟨htwo, h⟩
        · cases h
    have hone : parseSlash script w paramCount p = slashOne script w (p 0) (p 1) := by
      obtain ⟨-, ⟨hkey, -⟩ | ⟨hkey, -⟩ | ⟨hkey, -⟩⟩ := slashOneUse_signal huse.2
      all_goals
        unfold parseSlash
        rw [huse.1, hkey]
        simp +decide
    intro s
    rw [command, wp_bind, hone]
    exact sets_slashOne huse.2 hslot hin s
  | aspect address value =>
    obtain ⟨rfl, hcall⟩ := aspectUse_signal h
    refine Sets.bind script id (sets_signalAspectEvent hcall hslot hin) (fun _ => only_when fun _ => ?_)
      (aspectColour_masked hcall)
    exact only_onStation.bind fun _ => only_pure _
  | _ => cases h

theorem sets_printMessage {task : RMFT2} {operand : Int16}
    (h : (opcodeUse script operand (some .print)).signal = some (id, colour)) :
    Sets slot colour (printMessage script w task operand) := by
  unfold opcodeUse at h
  unfold printMessage
  cases hmessage : script.messages (operandU operand) with
  | parse c =>
    simp only [hmessage] at h
    exact Sets.bind script id (sets_command hslot hin h) (fun _ => only_pure _) (Command.signal_masked h)
  | _ =>
    simp only [hmessage] at h
    cases h

/-- An opcode that sets a signal. -/
theorem sets_execute {this : Addr} {task : RMFT2} {operand : Int16} {op : Option Opcode}
    (h : (opcodeUse script operand op).signal = some (id, colour)) :
    Sets slot colour (execute script w this task operand op) := by
  have hsignal : ∀ {colour}, colour ||| signalMask = signalMask → script.signalSlot operand = some slot →
      Sets slot colour (thenBreak (doSignal script w operand colour)) := fun hcolour hslot =>
    Sets.bind script operand (sets_doSignal hslot hin hcolour) (fun _ => only_pure _) hcolour
  cases op with
  | none => cases h
  | some op =>
    cases op with
    | red | amber | green => cases h; exact hsignal rfl hslot
    | aspect =>
      obtain ⟨rfl, hcall⟩ := aspectUse_signal h
      refine Sets.bind script (operand >>> 5) (sets_signalAspectEvent hcall hslot hin) (fun _ => ?_)
        (aspectColour_masked hcall)
      exact Only.thenBreak (only_when fun _ => only_onStation.bind fun _ => only_pure _)
    | ifloco | print => exact sets_printMessage hslot hin h
    | _ => cases h

/-- After an opcode that sets a signal, its slot has the colour. -/
theorem wp_loop2_sets {this : Addr} (h : (stepUse script w (s.tasks.mem this)).signal = some (id, colour)) :
    wp Anything (loop2 script w this) (fun _ s' => s'.tasks.flags slot &&& signalMask = colour) s := by
  rw [loop2, wp_bind]
  refine wp_readTask_of ?_
  unfold stepUse at h
  apply wp_ite
  · intro hwaits
    rw [if_pos hwaits] at h
    cases h
  · intro hready
    rw [if_neg hready] at h
    apply wp_ite
    · intro hblinks
      rw [if_pos hblinks] at h
      cases h
    · intro hcalm
      rw [if_neg hcalm] at h
      rw [wp_bind, wp_modify]
      exact Sets.bind script id (sets_execute hslot hin h) (fun flow => only_proceed flow)
        (opcode_signal_masked h) { s with skipIf := false }

/-- A call that sets a signal leaves it in the colour. -/
theorem wp_turn_sets {turn : Turn} (h : (turn.flagUse script s).signal = some (id, colour)) :
    wp Anything (turn.exec script) (fun _ s' => s'.tasks.flags slot &&& signalMask = colour) s := by
  cases turn with
  | command w c => exact sets_command hslot hin h s
  | loop w =>
    simp only [Turn.exec, Exrail.loop, wp_bind, wp_get]
    rw [Turn.flagUse, Turn.serves] at h
    cases hl : s.tasks.loopTask with
    | none =>
      simp only [hl] at h
      cases h
    | some l =>
      simp only [hl] at h
      simp only [wp_bind]
      refine wp_readTask_of ?_
      simp only [onTasks, wp_zoom, wp_modify]
      refine wp_when (fun hserviced => ?_) fun hnot => ?_
      · have hserved : serviced s.tasks (s.tasks.next l) := hserviced
        rw [if_pos hserved] at h
        exact wp_loop2_sets hslot hin h
      · have hserved : ¬ serviced s.tasks (s.tasks.next l) := hnot
        rw [if_neg hserved] at h
        cases h

end Turns

/-! ## Slots -/

theorem exists_definition {id : Int16} (h : script.signalSlot id = some slot) :
    ∃ i signal, script.signalDefinitions[i]? = some signal ∧ signal.id.toInt16 = id ∧
      slot = (Int16.ofNat i).toUInt16 := by
  obtain ⟨-, sigslot, hfind, rfl⟩ := signalSlot_eq_some.mp h
  rw [LookList.find?, Option.map_eq_some_iff] at hfind
  obtain ⟨entry, hentry, rfl⟩ := hfind
  have hid := List.find?_some hentry
  obtain ⟨⟨signal, i⟩, hmem, rfl⟩ := List.mem_map.mp (List.mem_of_find?_eq_some hentry)
  refine ⟨i, signal, ?_, beq_iff_eq.mp hid, rfl⟩
  exact List.mem_zipIdx_iff_getElem?.mp (List.mem_filter.mp hmem).1

section Slots

variable (hslots : script.signalDefinitions.length < 256)

include hslots

theorem exists_slot {id : Int16} (h : script.signalSlot id = some slot) :
    ∃ signal, script.signalDefinitions[slot.toNat]? = some signal ∧ signal.id.toInt16 = id ∧
      slot.toNat < maxFlags := by
  obtain ⟨i, signal, hi, hid, rfl⟩ := exists_definition h
  have hlt : i < 256 := Nat.lt_trans (List.getElem?_eq_some_iff.mp hi).1 hslots
  have hnat : (Int16.ofNat i).toUInt16.toNat = i := by
    show i % 65536 = i
    exact Nat.mod_eq_of_lt (by omega)
  rw [hnat]
  exact ⟨signal, hi, hid, hlt⟩

/-- Each signal has a slot of its own. -/
theorem signalSlot_injective {id id' : Int16} (h : script.signalSlot id = some slot)
    (h' : script.signalSlot id' = some slot) : id = id' := by
  obtain ⟨signal, hsignal, rfl, -⟩ := exists_slot hslots h
  obtain ⟨signal', hsignal', rfl, -⟩ := exists_slot hslots h'
  rw [hsignal] at hsignal'
  cases hsignal'
  rfl

end Slots

theorem isSignal_iff {t : Tasks} {id : Int16} : isSignal script t id colour = true ↔
    ∃ slot, script.signalSlot id = some slot ∧ t.flags slot &&& signalMask = colour := by
  unfold isSignal Script.signalSlot
  cases script.has Script.featureSignal with
  | false => simp
  | true =>
    cases script.signalLookup.find? id with
    | none => simp
    | some sigslot => simp

/-! ## Tasks -/

/-- A task is created or dies, or no mark of a task id is changed. -/
inductive TaskStep (t t' : Tasks) : Prop where
  | created (a : Addr) (h : Tasks.Created a t t')
  | killed (a : Addr) (h : Tasks.Killed a t t')
  | other (hlive : t'.live = t.live) (hused : ∀ id, t'.getFlag id taskFlag = t.getFlag id taskFlag)

/-- Whatever is done consists of such steps. -/
theorem kept_steps (t₀ : Tasks) :
    Kept script (fun _ _ => True) (Relation.ReflTransGen TaskStep t₀) where
  flag {t} id on off hmasks h := by
    have hdisjoint := (disjoint_of_or hmasks).2
    exact h.tail (.other setFlag_live fun _ => getFlag_setFlag_of_disjoint hdisjoint)
  write h _ _ := h.tail (.other rfl fun _ => getFlag_congr rfl)
  create h hc := h.tail (.created _ hc)
  killed h _ _ hk := h.tail (.killed _ hk)
  paused h _ := h.tail (.other rfl fun _ => getFlag_congr rfl)
  pointed h := h.tail (.other rfl fun _ => getFlag_congr rfl)
  forced id h := h.tail (.other setFlag_live fun _ => getFlag_setFlag_of_disjoint rfl)
  acquired {t} a id h _ := by
    have hset : Relation.ReflTransGen TaskStep t₀ (t.setFlag id sectionFlag 0) :=
      h.tail (.other setFlag_live fun _ => getFlag_setFlag_of_disjoint rfl)
    exact hset.tail (.other rfl fun _ => getFlag_note)
  freed {t} id h := by
    have hnote : Relation.ReflTransGen TaskStep t₀ (t.note (.freed id)) :=
      h.tail (.other rfl fun _ => getFlag_note)
    exact hnote.tail (.other setFlag_live fun _ => getFlag_setFlag_of_disjoint rfl)
  freedAll {t} h := by
    have hused : ∀ id, t.freeAllSections.getFlag id taskFlag = t.getFlag id taskFlag := fun _ =>
      getFlag_freeAllSections_of_disjoint rfl
    obtain ⟨flags, hflags⟩ := t.freeAllSections_eq
    rw [hflags] at hused ⊢
    have hfree : Relation.ReflTransGen TaskStep t₀ { t with flags := flags } := h.tail (.other rfl hused)
    exact hfree.tail (.other rfl fun _ => getFlag_note)

/-! ## One call -/

/-- What a call has changed of the flags, it has changed for the use that it makes of them. -/
structure Apart (script : Script) (turn : Turn) (s s' : Exrail) : Prop where
  sections : ∀ id, s'.tasks.getFlag id sectionFlag ≠ s.tasks.getFlag id sectionFlag →
    (turn.flagUse script s).sections id = true
  latches : ∀ id, s'.tasks.getFlag id latchFlag ≠ s.tasks.getFlag id latchFlag →
    (turn.flagUse script s).latches id = true
  signals : ∀ slot, s'.tasks.flags slot &&& signalMask ≠ s.tasks.flags slot &&& signalMask →
    ∃ id colour, (turn.flagUse script s).signal = some (id, colour) ∧ script.signalSlot id = some slot
  tasks : Relation.ReflTransGen TaskStep s.tasks s'.tasks

theorem getFlag_of_masked {t t' : Tasks} (h : t'.flags id &&& mask = t.flags id &&& mask) :
    t'.getFlag id mask = t.getFlag id mask := by
  unfold Tasks.getFlag
  rw [h]

theorem flags_of_turn {turn : Turn} {s' : Exrail} {P : (UInt16 → UInt8) → Prop}
    (hok : turn.exec script s = .ok ((), s')) (hP : (turn.flagUse script s).Closed script P)
    (h : P s.tasks.flags) : P s'.tasks.flags :=
  wp_iff_forall.mp (wp_turn_closed hP h) () s' hok

/-- The bits of a signal that the call does not set. -/
theorem masked_of_turn {turn : Turn} {s' : Exrail} (hok : turn.exec script s = .ok ((), s'))
    (h : ∀ id colour, (turn.flagUse script s).signal = some (id, colour) → script.signalSlot id ≠ some slot) :
    s'.tasks.flags slot &&& signalMask = s.tasks.flags slot &&& signalMask :=
  flags_of_turn hok (closed_signal h _) rfl

/-- **One call.** -/
theorem wp_turn_apart (turn : Turn) (h : s.tasks.Well script) :
    wp NotDangling (turn.exec script) (fun _ s' => s'.tasks.Well script ∧ Apart script turn s s') s := by
  have hkept : wp NotDangling (turn.exec script) (fun _ => Within fun t _ =>
      t.Well script ∧ Relation.ReflTransGen TaskStep s.tasks t) s :=
    ((kept_steps s.tasks).lasting (M := fun _ => True)).wp_turn (fun _ _ => trivial) (fun h => h)
      ⟨h, .refl⟩ fun _ _ _ => trivial
  refine wp_mono_ok hkept ?_
  rintro _ s' hok ⟨hwell, hsteps⟩
  refine ⟨hwell, fun id hne => ?_, fun id hne => ?_, fun slot hne => ?_, hsteps⟩
  · by_contra hnot
    rw [Bool.not_eq_true] at hnot
    exact hne (getFlag_of_masked (flags_of_turn hok (closed_section hnot _) rfl))
  · by_contra hnot
    rw [Bool.not_eq_true] at hnot
    exact hne (getFlag_of_masked (flags_of_turn hok (closed_latch hnot _) rfl))
  · by_contra hnot
    refine hne (masked_of_turn hok fun id colour huse hslot => ?_)
    exact hnot ⟨id, colour, huse, hslot⟩

/-! ## Runs -/

/-- The state with the calls of `doSignal` up to now, the latest first. -/
structure Signalling where
  exrail : Exrail
  calls : List (Int16 × UInt8)

def onState {α : Type} (m : Exr α) : Prog Signalling Crash α :=
  zoom Signalling.exrail (fun n s => { n with exrail := s }) m

/-- A call, with a record of the signal it sets. -/
def Turn.signalled (script : Script) (turn : Turn) : Prog Signalling Crash Unit := do
  let n ← get
  onState (turn.exec script)
  modify fun n' => { n' with calls := (turn.flagUse script n.exrail).signal.toList ++ n'.calls }

/-- The start-up sets every signal red. -/
def beginSignalled (script : Script) (w : Inputs) : Prog Signalling Crash Unit := do
  onState (begin script w)
  modify fun n => { n with
    calls := (script.signalLookup.map fun entry => (entry.1, signalRed)).reverse ++ n.calls }

def signalledHistory (script : Script) (w : Inputs) (turns : List Turn) : Prog Signalling Crash Unit := do
  beginSignalled script w
  runProg (Turn.signalled script) turns

/-- The colour of the latest call for a signal. -/
def latest (id : Int16) (calls : List (Int16 × UInt8)) : Option UInt8 :=
  (calls.find? fun call => call.1 == id).map Prod.snd

theorem shadows_onState {α : Type} (m : Exr α) : Shadows Signalling.exrail (onState m) m :=
  .zoom (fun _ _ => rfl) m

/-- The record disturbs nothing. -/
theorem shadows_signalledHistory (turns : List Turn) :
    Shadows Signalling.exrail (signalledHistory script w turns) (history script w turns) := by
  have hrecord : ∀ {m : Exr Unit} (g : Signalling → Signalling), (∀ n, (g n).exrail = n.exrail) →
      Shadows Signalling.exrail (onState m >>= fun _ => modify g) m := by
    intro m g hg
    have hghost : Shadows Signalling.exrail (onState m >>= fun _ => modify g >>= fun _ => pure ())
        (m >>= pure) := (shadows_onState m).bind fun _ => .ghost hg (.pure ())
    rwa [bind_pure m] at hghost
  have hturn : ∀ turn, Shadows Signalling.exrail (Turn.signalled script turn) (turn.exec script) := by
    intro turn
    apply Shadows.peek
    exact fun n => hrecord _ fun _ => rfl
  have hbegin : Shadows Signalling.exrail (beginSignalled script w) (begin script w) :=
    hrecord _ fun _ => rfl
  exact hbegin.bind fun _ => .runProg hturn turns

/-- Every signal shows the colour of the latest call for it. -/
structure Shown (script : Script) (n : Signalling) : Prop where
  well : n.exrail.tasks.Well script
  shown : ∀ id slot, script.signalSlot id = some slot →
    latest id n.calls = some (n.exrail.tasks.flags slot &&& signalMask)

theorem latest_cons_self (id : Int16) (colour : UInt8) (calls : List (Int16 × UInt8)) :
    latest id ((id, colour) :: calls) = some colour := by
  simp [latest]

theorem latest_cons_of_ne {id id' : Int16} (h : id' ≠ id) (colour : UInt8) (calls : List (Int16 × UInt8)) :
    latest id ((id', colour) :: calls) = latest id calls := by
  simp [latest, h]

/-- All signals of a list are set to one colour, the one looked at among them. -/
theorem sets_runSignals {id : Int16} {entries : List (Int16 × Int16)} (hslot : script.signalSlot id = some slot)
    (hin : slot.toNat < maxFlags) (hmem : id ∈ entries.map Prod.fst) :
    Sets slot signalRed (runProg (fun entry : Int16 × Int16 => doSignal script w entry.1 signalRed) entries) := by
  induction entries with
  | nil => cases hmem
  | cons entry entries ih =>
    by_cases hrest : id ∈ entries.map Prod.fst
    · exact Sets.of_right fun _ => ih hrest
    · -- it is set here, and what follows sets other signals to the same colour
      obtain rfl : id = entry.1 := (List.mem_cons.mp hmem).resolve_right hrest
      intro s
      rw [runProg, wp_bind]
      refine wp_mono (sets_doSignal hslot hin rfl s) fun _ s' hs' => ?_
      refine keeps_runProg (I := fun s => s.tasks.flags slot &&& signalMask = signalRed) (fun other _ => ?_) s' hs'
      have honly : Only script (ofSignal (some (other.1, signalRed))) (doSignal script w other.1 signalRed) :=
        only_doSignal rfl rfl
      exact honly _ (closed_colour rfl rfl)

theorem mem_signalLookup {id : Int16} (h : script.signalSlot id = some slot) :
    script.has Script.featureSignal = true ∧ id ∈ script.signalLookup.map Prod.fst := by
  obtain ⟨hfeature, sigslot, hfind, -⟩ := signalSlot_eq_some.mp h
  rw [LookList.find?, Option.map_eq_some_iff] at hfind
  obtain ⟨entry, hentry, -⟩ := hfind
  have hid := List.find?_some hentry
  exact ⟨hfeature, List.mem_map.mpr ⟨entry, List.mem_of_find?_eq_some hentry, beq_iff_eq.mp hid⟩⟩

theorem sets_begin {id : Int16} (hslot : script.signalSlot id = some slot) (hin : slot.toNat < maxFlags) :
    Sets slot signalRed (begin script w) := by
  obtain ⟨hfeature, hmem⟩ := mem_signalLookup hslot
  unfold begin when
  rw [if_pos hfeature]
  refine Sets.bind script id (sets_runSignals hslot hin hmem) (fun _ => ?_) rfl
  exact only_runProg fun _ => only_newTask

/-- At the begin every signal is set to red. -/
theorem latest_begin {id : Int16} (h : id ∈ script.signalLookup.map Prod.fst) (calls : List (Int16 × UInt8)) :
    latest id ((script.signalLookup.map fun entry => (entry.1, signalRed)).reverse ++ calls) = some signalRed := by
  generalize hreds : (script.signalLookup.map fun entry => (entry.1, signalRed)).reverse = reds
  have hmem : (id, signalRed) ∈ reds := by
    obtain ⟨entry, hentry, rfl⟩ := List.mem_map.mp h
    rw [← hreds, List.mem_reverse]
    exact List.mem_map_of_mem hentry
  have hred : ∀ call ∈ reds, call.2 = signalRed := by
    intro call hcall
    rw [← hreds, List.mem_reverse] at hcall
    obtain ⟨entry, -, rfl⟩ := List.mem_map.mp hcall
    rfl
  unfold latest
  rw [List.find?_append]
  cases hfind : reds.find? fun call => call.1 == id with
  | none => exact absurd (beq_self_eq_true id) (List.find?_eq_none.mp hfind _ hmem)
  | some call => exact congrArg some (hred call (List.mem_of_find?_eq_some hfind))

section Shown

variable (hslots : script.signalDefinitions.length < 256)

include hslots

theorem wp_beginSignalled {rails : JoinStation} {turnouts : List Turnout} {mem : Addr → RMFT2} :
    wp NotDangling (beginSignalled script w) (fun _ => Shown script) ⟨init rails turnouts mem, []⟩ := by
  simp only [beginSignalled, onState, wp_bind, wp_zoom, wp_modify]
  refine wp_mono_ok ((kept_steps (Tasks.init mem)).wp_begin .refl) ?_
  rintro _ s hok ⟨hwell, -⟩
  refine ⟨hwell, fun id slot hslot => ?_⟩
  obtain ⟨-, -, -, hin⟩ := exists_slot hslots hslot
  rw [latest_begin (mem_signalLookup hslot).2]
  exact congrArg some (wp_iff_forall.mp (sets_begin hslot hin _) _ s hok).symm

/-- A call sets one signal and records it, or leaves all as they are. -/
theorem wp_signalled (turn : Turn) {n : Signalling} (h : Shown script n) :
    wp NotDangling (turn.signalled script) (fun _ => Shown script) n := by
  simp only [Turn.signalled, onState, wp_bind, wp_get, wp_zoom, wp_modify]
  refine wp_mono_ok (wp_turn_apart turn h.well) ?_
  rintro _ s hok ⟨hwell, -⟩
  refine ⟨hwell, fun id slot hslot => ?_⟩
  have hold := h.shown id slot hslot
  cases huse : (turn.flagUse script n.exrail).signal with
  | none =>
    have hmasked : s.tasks.flags slot &&& signalMask = n.exrail.tasks.flags slot &&& signalMask :=
      masked_of_turn hok fun _ _ hsignal => by
        rw [huse] at hsignal
        cases hsignal
    rw [hmasked]
    exact hold
  | some call =>
    obtain ⟨id', colour⟩ := call
    by_cases hid : id' = id
    · rw [hid] at huse
      obtain ⟨-, -, -, hin⟩ := exists_slot hslots hslot
      have hset := wp_iff_forall.mp (wp_turn_sets hslot hin huse) _ s hok
      rw [hset, hid]
      exact latest_cons_self id colour n.calls
    · have hmasked : s.tasks.flags slot &&& signalMask = n.exrail.tasks.flags slot &&& signalMask :=
        masked_of_turn hok fun _ _ hsignal hslot' => by
          rw [huse] at hsignal
          cases hsignal
          exact hid (signalSlot_injective hslots hslot' hslot)
      rw [hmasked]
      exact (latest_cons_of_ne hid colour n.calls).trans hold

/-- **Runs.** -/
theorem wp_signalledHistory {rails : JoinStation} {turnouts : List Turnout} {mem : Addr → RMFT2}
    (turns : List Turn) :
    wp NotDangling (signalledHistory script w turns) (fun _ => Shown script) ⟨init rails turnouts mem, []⟩ := by
  rw [signalledHistory, wp_bind]
  refine wp_mono (wp_beginSignalled hslots) fun _ n hn => ?_
  refine wp_runProg (P := fun _ _ => True) (Shown script) (fun n turn _ h => wp_signalled hslots turn h) hn ?_
  exact alongProg_of_forall (fun _ _ _ => trivial) n

/-- The uses of the flags do not disturb each other, and a signal shows the colour that it was last set
to. -/
theorem uses_undisturbed (w : Inputs) (rails : JoinStation) (turnouts : List Turnout) (mem : Addr → RMFT2)
    (turns : List Turn) :
    Shadows Signalling.exrail (signalledHistory script w turns) (history script w turns) ∧
      wp NotDangling (signalledHistory script w turns) (fun _ n =>
        (∀ id colour, isSignal script n.exrail.tasks id colour = true ↔
          (script.signalSlot id).isSome = true ∧ latest id n.calls = some colour) ∧
        ∀ turn, wp NotDangling (turn.exec script) (fun _ s' => Apart script turn n.exrail s') n.exrail)
        ⟨init rails turnouts mem, []⟩ := by
  refine ⟨shadows_signalledHistory turns, ?_⟩
  refine wp_mono (wp_signalledHistory hslots turns) fun _ n hn => ⟨fun id colour => ?_, fun turn => ?_⟩
  · rw [isSignal_iff]
    cases hslot : script.signalSlot id with
    | none => simp
    | some slot => simp [hn.shown id slot hslot]
  · exact wp_mono (wp_turn_apart turn hn.well) fun _ _ h => h.2

end Shown

/-- `AUTOSTART GREEN(5) DONE` and a signal 5. -/
@[irreducible] def greenAtStart : Script :=
  { Script.ofCells Script.featureSignal (fun _ => .text) [(.autostart, 0), (.green, 5), (.endtask, 0)] with
    signalDefinitions := [⟨.virtual, 5, 0, 0, 0⟩] }

theorem uses_undisturbed_of_green :
    wp NotDangling (signalledHistory greenAtStart .idle (List.replicate 3 (.loop .idle)))
      (fun _ n => ∀ id colour, isSignal greenAtStart n.exrail.tasks id colour = true ↔
        (greenAtStart.signalSlot id).isSome = true ∧ latest id n.calls = some colour)
      ⟨init (JoinStation.init (Station.init .avr 1 []) false) [] fun _ => .zero, []⟩ := by
  have hslots : greenAtStart.signalDefinitions.length < 256 := by
    unfold greenAtStart
    decide
  have hrun := uses_undisturbed hslots .idle (JoinStation.init (Station.init .avr 1 []) false) []
    (fun _ => .zero) (List.replicate 3 (.loop .idle))
  exact wp_mono hrun.2 fun _ _ h => h.1

end Exrail

end CommandStation
