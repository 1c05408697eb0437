import CommandStation.EXRAIL2.Pausing
import CommandStation.Lib.Keeps

/-!
# The filter of commands

`RMFT2::ComandFilter` sees every command before the parser does. Those that are for the automation are
carried out, and marked as handled: their opcode becomes 0.

In the source, the cases `K` and `k` for the block detectors have got into the switch over the first parameter
of `J`.
-/

namespace CommandStation.Exrail

open CommandStation.Lib

/-- A call of `RMFT2::blockEvent`. -/
structure BlockEvent where
  block : Int16
  loco : Int16
  entering : Bool
  deriving DecidableEq, Repr

/-- The state, with the block events that were raised. The newest comes first. -/
structure Filtering where
  exrail : Exrail
  raised : List BlockEvent

abbrev Filter (α : Type) : Type := Prog Filtering Crash α

/-- A program without block events. -/
def onExrail {α : Type} (m : Exr α) : Filter α :=
  zoom Filtering.exrail (fun s exrail => { s with exrail := exrail }) m

variable (script : Script) (w : Inputs)

def raiseBlockEvent (event : BlockEvent) : Filter Unit := do
  modify fun s => { s with raised := event :: s.raised }
  onExrail (blockEvent script w event.block event.loco event.entering)

/-- The opcode behind a program that answers whether it has handled the command. -/
def handledBy (opcode : Char) (m : Exr Bool) : Filter Char := do
  let handled ← onExrail m
  pure (if handled then '\x00' else opcode)

/-- `<L>` and `<L eventid>` -/
def filterLcc (opcode : Char) (paramCount : UInt8) (p : Nat → Int16) : Filter Char :=
  if ¬ script.has featureLCC then pure opcode
  else if paramCount = 0 then handledBy opcode do
    introduceLcc script
    pure true
  else if paramCount = 1 then
    if p 0 < 0 ∨ script.countLCCLookup ≤ (p 0).toInt then pure opcode
    else handledBy opcode do
      lccEvent script w (p 0)
      pure true
  else pure opcode

/-- `<J …>`, with what has got into its switch. -/
def filterInfo (opcode : Char) (paramCount : UInt8) (p : Nat → Int16) : Filter Char :=
  if paramCount < 1 then pure opcode
  else if p 0 = hk "A" then  -- <JA> and <JA id> are answered
    pure (if paramCount = 1 ∨ paramCount = 2 then '\x00' else opcode)
  else if p 0 = 75 ∨ p 0 = 107 then  -- case 'K': case 'k':
    if paramCount ≠ 2 then pure opcode
    else do
      raiseBlockEvent script w ⟨p 0, p 1, opcode = 'K'⟩
      pure '\x00'
  else pure opcode

/-- `RMFT2::ComandFilter`: the opcode that is left. -/
def comandFilter (opcode : Char) (paramCount : UInt8) (p : Nat → Int16) : Filter Char :=
  match opcode with
  | 'D' => pure (if p 0 = hk "EXRAIL" then '\x00' else opcode)  -- <D EXRAIL ON/OFF>
  | '/' => handledBy opcode (parseSlash script w paramCount p)
  | 'A' =>
    if paramCount ≠ 2 then pure opcode
    else handledBy opcode (signalAspectEvent script w (p 0) (p 1).toUInt16.toUInt8)
  | 'L' => filterLcc script w opcode paramCount p
  | 'J' => filterInfo script w opcode paramCount p
  | _ => pure opcode  -- other commands pass through

/-! ## What is raised -/

variable {script : Script} {w : Inputs} {opcode : Char} {paramCount : UInt8} {p : Nat → Int16}
  {raised : List BlockEvent}

/-- The block events so far are these. -/
def Raised (raised : List BlockEvent) (s : Filtering) : Prop := s.raised = raised

theorem keeps_onExrail {α : Type} {m : Exr α} : Keeps (fun _ => True) (Raised raised) (onExrail m) := by
  intro s h
  rw [onExrail, wp_zoom]
  exact wp_iff_forall.mpr fun _ _ _ => h

theorem keeps_handledBy {m : Exr Bool} : Keeps (fun _ => True) (Raised raised) (handledBy opcode m) :=
  keeps_bind keeps_onExrail fun _ => keeps_pure _

theorem keeps_filterLcc : Keeps (fun _ => True) (Raised raised) (filterLcc script w opcode paramCount p) :=
  keeps_ite (fun _ => keeps_pure _) fun _ => keeps_ite (fun _ => keeps_handledBy) fun _ =>
    keeps_ite (fun _ => keeps_ite (fun _ => keeps_pure _) fun _ => keeps_handledBy) fun _ => keeps_pure _

/-- A `<J>` that gets into the case of a block detector. -/
def IsStray (opcode : Char) (paramCount : UInt8) (p : Nat → Int16) : Prop :=
  opcode = 'J' ∧ paramCount = 2 ∧ (p 0 = 75 ∨ p 0 = 107)

theorem keeps_filterInfo (h : ¬ IsStray 'J' paramCount p) :
    Keeps (fun _ => True) (Raised raised) (filterInfo script w 'J' paramCount p) := by
  refine keeps_ite (fun _ => keeps_pure _) fun _ => keeps_ite (fun _ => keeps_pure _) fun _ => ?_
  refine keeps_ite (fun hblock => keeps_ite (fun _ => keeps_pure _) fun htwo => ?_) fun _ => keeps_pure _
  exact absurd ⟨rfl, not_not.mp htwo, hblock⟩ h

/-- Only a stray `<J>` raises a block event. -/
theorem keeps_comandFilter (h : ¬ IsStray opcode paramCount p) :
    Keeps (fun _ => True) (Raised raised) (comandFilter script w opcode paramCount p) := by
  unfold comandFilter
  split
  · exact keeps_pure _
  · exact keeps_handledBy
  · exact keeps_ite (fun _ => keeps_pure _) fun _ => keeps_handledBy
  · exact keeps_filterLcc
  · exact keeps_filterInfo h
  · exact keeps_pure _

/-- The block event that a command is meant to raise: `<K block loco>` and `<k block loco>`. -/
def blockCommand (opcode : Char) (paramCount : UInt8) (p : Nat → Int16) : Option BlockEvent :=
  if paramCount ≠ 2 then none
  else if opcode = 'K' then some ⟨p 0, p 1, true⟩
  else if opcode = 'k' then some ⟨p 0, p 1, false⟩
  else none

/-- The filter raises the block event that the command is meant to raise, and no other; and then the command
is handled. -/
def FiltersBlocks (opcode : Char) (paramCount : UInt8) (p : Nat → Int16) : Prop :=
  ∀ (script : Script) (w : Inputs) (s s' : Filtering) (opcode' : Char),
    comandFilter script w opcode paramCount p s = .ok (opcode', s') →
    s'.raised = (blockCommand opcode paramCount p).toList ++ s.raised ∧
      (blockCommand opcode paramCount p ≠ none → opcode' = '\x00')

/-- A command that is meant to raise an event passes through. -/
theorem comandFilter_block (h : blockCommand opcode paramCount p ≠ none) :
    comandFilter script w opcode paramCount p = pure opcode := by
  have hopcode : opcode = 'K' ∨ opcode = 'k' := by
    by_contra hnot
    rw [not_or] at hnot
    refine h ?_
    rw [blockCommand, if_neg hnot.1, if_neg hnot.2, ite_self]
  rcases hopcode with rfl | rfl <;> rfl

/-- A stray `<J>` is taken for the end of a block. -/
theorem comandFilter_stray (h : IsStray opcode paramCount p) (hfeature : script.has Script.featureBlock = false)
    (s : Filtering) : comandFilter script w opcode paramCount p s =
      .ok ('\x00', { s with raised := ⟨p 0, p 1, false⟩ :: s.raised }) := by
  obtain ⟨rfl, rfl, hblock⟩ := h
  have hother : p 0 ≠ hk "A" := by
    rcases hblock with hp | hp <;> rw [hp] <;> decide
  have hnone : blockEvent script w (p 0) (p 1) false = pure () := by
    rw [blockEvent, hfeature]
    rfl
  show filterInfo script w 'J' 2 p s = _
  rw [filterInfo, if_neg (by decide), if_neg hother, if_pos hblock, if_neg (by decide), raiseBlockEvent]
  simp only [Char.reduceEq, decide_false, hnone]
  rfl

/-- **Block events** are raised as they are meant to, exactly by the commands that are no block commands and no
stray `<J>`. -/
theorem filtersBlocks_iff (opcode : Char) (paramCount : UInt8) (p : Nat → Int16) :
    FiltersBlocks opcode paramCount p ↔
      blockCommand opcode paramCount p = none ∧ ¬ IsStray opcode paramCount p := by
  let s : Filtering := ⟨init bareRails [] fun _ => .zero, []⟩
  constructor
  · intro h
    refine ⟨?_, fun hstray => ?_⟩
    · by_contra hsome
      obtain ⟨hraised, -⟩ := h pauseAndEnd .idle s s opcode (by rw [comandFilter_block hsome]; rfl)
      rw [List.append_nil] at hraised
      exact hsome (Option.toList_eq_nil_iff.mp hraised.symm)
    · obtain ⟨hraised, -⟩ := h pauseAndEnd .idle s _ _ (comandFilter_stray hstray (by decide) s)
      rw [blockCommand, hstray.1] at hraised
      simp [s] at hraised
  · rintro ⟨hnone, hstray⟩ script w s s' opcode' hok
    have hkeeps : Keeps (fun _ => True) (Raised s.raised) (comandFilter script w opcode paramCount p) :=
      keeps_comandFilter hstray
    have hkept := wp_of_ok hok (hkeeps s rfl)
    rw [hnone]
    exact ⟨hkept, fun hne => absurd rfl hne⟩

/-- `<J 75 1>` ends block 75. -/
theorem stray_raises : ¬ ∀ (opcode : Char) (paramCount : UInt8) (p : Nat → Int16),
    FiltersBlocks opcode paramCount p := by
  intro h
  have hstray : IsStray 'J' 2 fun n => if n = 0 then 75 else 1 := ⟨rfl, rfl, .inl rfl⟩
  have hraised := (h _ _ _ pauseAndEnd .idle ⟨init bareRails [] fun _ => .zero, []⟩ _ _
    (comandFilter_stray hstray (by decide) _)).1
  simp [blockCommand] at hraised

end CommandStation.Exrail
