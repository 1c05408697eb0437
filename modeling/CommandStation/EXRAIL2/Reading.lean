import CommandStation.EXRAIL2.Statements

/-!
# Scripts are read as they are nested

A task that goes through a structured script visits the statements that the structure says, with the
outcomes that its conditions have, in any interleaving with other tasks and commands. The program
counter is always at a cell from which a definite part of the script is left to do.
-/

namespace CommandStation

open CommandStation.Lib CommandStation.Tasks

namespace Exrail

variable {script : Script} {w : Inputs} {s s' : Exrail} {this : Addr} {task : RMFT2}
  {operand : Int16} {pc : Int} {bound k : Nat} {todo : Block Statement Condition}

/-! ## What is seen of a task -/

/-- The task gets to the switch: it does not wait for a delay to pass, and does not blink a pin. -/
def ready (script : Script) (w : Inputs) (task : RMFT2) : Prop :=
  ¬ (task.delayTime ≠ 0 ∧ w.millis - task.delayStart < task.delayTime) ∧
    ¬ (script.has Script.featureBlink ∧ task.isBlink)

instance (script : Script) (w : Inputs) (task : RMFT2) : Decidable (ready script w task) :=
  inferInstanceAs (Decidable (_ ∧ _))

/-- The opcode that the task is at. -/
def opcodeAt (script : Script) (task : RMFT2) : Option Opcode :=
  Opcode.ofByte (script.getOpcode task.progCounter)

/-- What the task at its cell is seen to do. The marks between blocks do nothing. -/
def seen (script : Script) (w : Inputs) (this : Addr) (s : Exrail) : List (Event Opcode Opcode) :=
  let task := s.tasks.mem this
  match opcodeAt script task with
  | none => []
  | some op =>
    if Opcode.opensIf op.toByte then
      [.branch op !skips script w task (arg script task 0).toInt16 op s]
    else if op.isStatement then [.visit op]
    else []

/-- The task gets to the switch in this call. -/
def Turn.steps (script : Script) (turn : Turn) (s : Exrail) (this : Addr) : Prop :=
  match turn with
  | .loop w => turn.serves s = some this ∧ ready script w (s.tasks.mem this)
  | .command _ _ => False

instance (script : Script) (turn : Turn) (s : Exrail) (this : Addr) :
    Decidable (turn.steps script s this) :=
  match turn with
  | .loop _ => inferInstanceAs (Decidable (_ ∧ _))
  | .command _ _ => inferInstanceAs (Decidable False)

/-- What the task is seen to do in this call. -/
def Turn.seen (script : Script) (turn : Turn) (s : Exrail) (this : Addr) :
    List (Event Opcode Opcode) :=
  match turn with
  | .loop w => if turn.steps script s this then Exrail.seen script w this s else []
  | .command _ _ => []

/-- The call sends the task to another place of the script. -/
def Turn.transfers (script : Script) (turn : Turn) (s : Exrail) (this : Addr) : Prop :=
  turn.steps script s this ∧ (opcodeAt script (s.tasks.mem this)).any Opcode.transfers

/-- A part of a run in which the task is neither killed nor sent elsewhere, and what it is seen to
do. -/
inductive Stretch (script : Script) (this : Addr) :
    Exrail → List (Event Opcode Opcode) → Exrail → Prop where
  | here (s : Exrail) : Stretch script this s [] s
  | turn {s s' s'' : Exrail} {es : List (Event Opcode Opcode)} (turn : Turn) : ¬ turn.kills script s this →
      ¬ turn.transfers script s this → turn.exec script s = .ok ((), s') →
      Stretch script this s' es s'' → Stretch script this s (turn.seen script s this ++ es) s''

/-! ## The structured reading -/

/-- What is seen of a statement, or of a condition and its outcome. -/
def seenOf : Event Statement Condition → Event Opcode Opcode
  | .visit s => .visit s.op
  | .branch c held => .branch c.op held

/-- From what is left to do, by what is seen, to what is then left to do. A statement that waits is
visited again. -/
inductive Reads : Block Statement Condition → List (Event Opcode Opcode) →
    Block Statement Condition → Prop where
  | nil (b) : Reads b [] b
  | step {b b' b'' e es} : b.Step e b' → Reads b' es b'' → Reads b (seenOf e :: es) b''
  | again {s rest es b'} : s.op.waits → Reads (.stmt s rest) es b' →
      Reads (.stmt s rest) (.visit s.op :: es) b'

theorem Reads.one {b b' : Block Statement Condition} {e : Event Statement Condition}
    (h : b.Step e b') : Reads b [seenOf e] b' := .step h (.nil b')

theorem Reads.append {b b' b'' : Block Statement Condition} {es es' : List (Event Opcode Opcode)}
    (h : Reads b es b') (h' : Reads b' es' b'') : Reads b (es ++ es') b'' := by
  induction h with
  | nil b => exact h'
  | step hstep _ ih => exact .step hstep (ih h')
  | again hwaits _ ih => exact .again hwaits (ih h')

/-- A part of a structured script is left to do from a cell on. -/
def Remains (script : Script) (bound : Nat) (todo : Block Statement Condition) (k : Nat) : Prop :=
  k ≤ script.lastCell ∧ Rest script.layout (· = script.lastCell) bound todo k

/-- The task is at a cell from which this is left to do. -/
structure IsAt (script : Script) (bound : Nat) (this : Addr) (k : Nat)
    (todo : Block Statement Condition) (s : Exrail) : Prop where
  stays : StaysAt script this (3 * k) s.tasks
  remains : Remains script bound todo k

/-! ## Steps of the task -/

theorem Remains.lt {op : Opcode} (h : Remains script bound todo k)
    (hop : script.cellAt k = op.toByte) (hend : op ≠ .endexrail) : k + 1 ≤ script.lastCell := by
  rcases Nat.lt_or_eq_of_le h.1 with hlt | rfl
  · exact hlt
  · exact absurd (Opcode.toByte_injective (hop.symm.trans script.ends)) hend

/-- At the end of the script nothing is left to do. -/
theorem Remains.done (h : Remains script bound todo script.lastCell) : todo = .done := by
  have hends : ∀ op : Opcode, script.cellAt script.lastCell = op.toByte → op = .endexrail :=
    fun op hop => Opcode.toByte_injective (hop.symm.trans script.ends)
  cases h.2 with
  | done => rfl
  | pad hop => cases hends .pad hop
  | endif hop => cases hends .endif hop
  | else_ hop => cases hends .else_ hop
  | stmt hs => exact absurd (hends _ hs.2.2.1) (Statement.ne_endexrail _)
  | ifThen hc => exact absurd (hends _ hc.2.2.1) (Condition.ne_endexrail _)
  | ifElse hc => exact absurd (hends _ hc.2.2.1) (Condition.ne_endexrail _)

/-- The operands behind a statement or condition are passed over. -/
theorem remains_of_padded {k' : Nat} (hpads : script.padded k k') (hlast : k + 1 ≤ script.lastCell)
    (h : Rest script.layout (· = script.lastCell) bound todo k') :
    Remains script bound todo (k + 1) :=
  ⟨hlast, h.of_pads (fun j hj hlt => hpads.2 j (by omega) hlt) hpads.1⟩

theorem StaysAt.opcodeAt {op : Opcode} (h : StaysAt script this (3 * k) s.tasks)
    (hop : script.cellAt k = op.toByte) : opcodeAt script (s.tasks.mem this) = some op := by
  rw [Exrail.opcodeAt, h.at_]
  show Opcode.ofByte (script.cellAt k) = _
  rw [hop, Opcode.ofByte_toByte]

theorem seen_condition {c : Condition}
    (hop : opcodeAt script (s.tasks.mem this) = some c.op) : seen script w this s =
      [.branch c.op !skips script w (s.tasks.mem this)
        (arg script (s.tasks.mem this) 0).toInt16 c.op s] := by
  simp [seen, hop, c.opens]

theorem seen_statement {stmt : Statement}
    (hop : opcodeAt script (s.tasks.mem this) = some stmt.op) :
    seen script w this s = [.visit stmt.op] := by
  have h := stmt.isStatement
  have hopens : Opcode.opensIf stmt.op.toByte = false := by
    simp only [Opcode.isStatement, Bool.and_eq_true, Bool.not_eq_true'] at h
    exact h.1.1.1.1
  simp [seen, hop, hopens, h]

theorem seen_mark {op : Opcode} (hop : opcodeAt script (s.tasks.mem this) = some op)
    (hopens : Opcode.opensIf op.toByte = false) (hmark : op.isStatement = false) :
    seen script w this s = [] := by
  simp [seen, hop, hopens, hmark]

/-- The task moves. -/
theorem StaysAt.moveTo {t : Tasks} (h : StaysAt script this pc t) (pc' : Int) :
    StaysAt script this pc' (t.write this fun task => { task with progCounter := pc' }) where
  well := OnlyMoves.well (fun _ => rfl) h.well
  live := h.live
  calm hfeature := by
    rw [write_mem_self]
    exact h.calm hfeature
  at_ := by rw [write_mem_self]

section Steps

variable {F : Crash → Prop}

theorem wp_loop2_ready {Q : Unit → Exrail → Prop} (hlive : this ∈ s.tasks.live)
    (hready : ready script w (s.tasks.mem this))
    (h : wp F (execute script w this (s.tasks.mem this) (arg script (s.tasks.mem this) 0).toInt16
      (opcodeAt script (s.tasks.mem this))) (fun flow => wp F (proceed script w this flow) Q)
      { s with skipIf := false }) : wp F (loop2 script w this) Q s := by
  simp only [loop2, wp_bind]
  refine wp_read hlive ?_
  rw [if_neg hready.1, if_neg hready.2]
  simp only [wp_bind, wp_modify]
  exact h

/-- A call of `loop` gives its step to the task that it serves. -/
theorem wp_loop_serves {Q : Unit → Exrail → Prop} (hring : s.tasks.Ring)
    (hserves : (Turn.loop w).serves s = some this)
    (h : wp F (loop2 script w this) Q { s with tasks.loopTask := some this }) :
    wp F (loop script w) Q s := by
  obtain ⟨l, hl, rfl, hserviced⟩ := Turn.serves_eq_some hserves
  simp only [loop, wp_bind, wp_get, hl]
  refine wp_read (hring.loopTask_mem hl) ?_
  simp only [onTasks, wp_zoom, wp_modify]
  exact wp_when (fun _ => h) fun hnot => absurd hserviced hnot

/-- The next opcode. -/
theorem wp_proceed_next (h : StaysAt script this (3 * k) s.tasks) (hskip : s.skipIf = false) :
    wp F (proceed script w this .breaks)
      (fun _ s' => StaysAt script this (3 * (k + 1 : Nat)) s'.tasks) s := by
  simp only [proceed, hskip, Bool.false_eq_true, if_false, wp_bind, wp_get, wp_pure]
  refine wp_when (fun _ => ?_) fun hnot => absurd rfl hnot
  simp only [moveTo, onTasks, wp_bind, wp_get, wp_zoom, wp_modify]
  have hpc : progCounterOf s this + 3 = 3 * (k + 1 : Nat) := by
    rw [progCounterOf, h.at_]
    omega
  rw [hpc]
  exact h.moveTo _

/-- The opcode behind the end of the block. -/
theorem wp_proceed_skip {q : Nat} (h : StaysAt script this (3 * k) s.tasks)
    (hskip : s.skipIf = true)
    (hfound : skipFrom script (script.lastCell + 2) 1 (3 * k) = some (3 * (q : Int), true)) :
    wp F (proceed script w this .breaks)
      (fun _ s' => StaysAt script this (3 * (q + 1 : Nat)) s'.tasks) s := by
  have hfound' : skipFrom script (script.lastCell + 2) 1 (progCounterOf s this) =
      some (3 * (q : Int), true) := by rw [progCounterOf, h.at_, hfound]
  simp only [proceed, hskip, if_true, wp_bind, wp_get, skipIfBlock]
  rw [hfound']
  simp only [moveTo, onTasks, wp_bind, wp_zoom, wp_modify]
  refine wp_when (fun hnot => absurd hnot (by decide)) fun _ => ?_
  simp only [wp_pure]
  refine wp_when (fun _ => ?_) fun hnot => absurd rfl hnot
  simp only [wp_bind, wp_get, progCounterOf, write_mem_self]
  rw [show (3 * (q : Int) + 3) = 3 * (q + 1 : Nat) by omega]
  exact (h.moveTo (3 * (q : Int))).moveTo _

/-- **Conditions**, and `ELSE`, set the flag and move nothing. -/
theorem wp_condition {op : Opcode} (hop : Opcode.opensIf op.toByte ∨ op = .else_)
    (hmessage : op = .ifloco → (script.messages (operandU operand)).isCondition = true)
    (h : Unmoved script this pc s) : wp F (execute script w this task operand (some op))
      (fun flow s' => flow = .breaks ∧ s'.skipIf = skips script w task operand op s ∧
        StaysAt script this pc s'.tasks) s := by
  unfold execute
  cases op with
  | iftimeout | if_ | else_ | ifgte | iflt | ifbitmapAll | ifbitmapAny | ifnot | ifre | ifrandom
  | ifred | ifamber | ifgreen | ifthrown | ifclosed | ifstash | ifstashedHere | ifttposition
  | ifRouteHidden | ifRouteInactive | ifRouteActive | ifRouteDisabled => exact ⟨rfl, rfl, h.1⟩
  | ifreserve =>
    simp only [ifReserve, Exrail.getFlag, wp_bind, wp_get, wp_pure]
    refine wp_ite (fun htaken => ⟨rfl, htaken.symm, h.1⟩) fun hfree => ?_
    simp only [thenBreak, Exrail.setFlag, Exrail.note, onTasks, wp_bind, wp_zoom, wp_modify,
      wp_pure]
    refine ⟨trivial, ?_, h.1.setFlag.congr rfl rfl rfl⟩
    exact h.2.trans (by simpa [skips] using hfree)
  | ifloco =>
    have hmessage := hmessage rfl
    show wp F (printMessage script w task operand) _ s
    unfold printMessage
    cases hm : script.messages (operandU operand) with
    | text => rw [hm] at hmessage; cases hmessage
    | parse c => rw [hm] at hmessage; cases hmessage
    | ifLoco locolist => exact ⟨rfl, by simp [skips, hm], h.1⟩
    | ifAll vpinList => exact ⟨rfl, by simp [skips, hm], h.1⟩
    | ifAny vpinList => exact ⟨rfl, by simp [skips, hm], h.1⟩
  | _ => exact absurd hop (by decide)

/-- A condition, or `ELSE`. -/
theorem wp_loop2_condition {op : Opcode} {Q : Unit → Exrail → Prop}
    (h : StaysAt script this (3 * k) s.tasks) (hready : ready script w (s.tasks.mem this))
    (hcell : script.cellAt k = op.toByte) (hop : Opcode.opensIf op.toByte ∨ op = .else_)
    (hmessage : op = .ifloco → (script.messageAt k).isCondition = true)
    (hheld : skips script w (s.tasks.mem this) (arg script (s.tasks.mem this) 0).toInt16 op s =
      false → ∀ s', StaysAt script this (3 * (k + 1 : Nat)) s'.tasks → Q () s')
    (hfailed : skips script w (s.tasks.mem this) (arg script (s.tasks.mem this) 0).toInt16 op s =
      true → ∃ q : Nat,
        skipFrom script (script.lastCell + 2) 1 (3 * k) = some (3 * (q : Int), true) ∧
        ∀ s', StaysAt script this (3 * (q + 1 : Nat)) s'.tasks → Q () s') :
    wp F (loop2 script w this) Q s := by
  refine wp_loop2_ready h.live hready ?_
  rw [h.opcodeAt hcell]
  have hmessage' : op = .ifloco → (script.messages
      (operandU (arg script (s.tasks.mem this) 0).toInt16)).isCondition = true := by
    rw [operandU, UInt16.toUInt16_toInt16, arg, h.at_]
    exact hmessage
  have hunmoved : Unmoved script this (3 * k) { s with skipIf := false } := ⟨h, rfl⟩
  refine wp_mono (wp_condition hop hmessage' hunmoved) fun flow s' ⟨hflow, hskip, hstays⟩ => ?_
  rw [hflow]
  have hskips : s'.skipIf = skips script w (s.tasks.mem this)
      (arg script (s.tasks.mem this) 0).toInt16 op s := by
    rw [hskip]
    exact skips_eq rfl
  cases hs : skips script w (s.tasks.mem this) (arg script (s.tasks.mem this) 0).toInt16 op s with
  | false => exact wp_mono (wp_proceed_next hstays (hskips.trans hs)) fun _ s'' => hheld hs s''
  | true =>
    obtain ⟨q, hfound, hQ⟩ := hfailed hs
    exact wp_mono (wp_proceed_skip hstays (hskips.trans hs) hfound) fun _ s'' => hQ s''

/-- An operand that is taken for an opcode, or `ENDIF`. -/
theorem wp_loop2_mark {op : Opcode} (h : StaysAt script this (3 * k) s.tasks)
    (hready : ready script w (s.tasks.mem this)) (hcell : script.cellAt k = op.toByte)
    (hop : op = .pad ∨ op = .endif) : wp F (loop2 script w this)
      (fun _ s' => StaysAt script this (3 * (k + 1 : Nat)) s'.tasks) s := by
  refine wp_loop2_ready h.live hready ?_
  rw [h.opcodeAt hcell]
  have hnext := wp_proceed_next (F := F) (w := w) (s := { s with skipIf := false }) h rfl
  rcases hop with rfl | rfl
  · exact hnext
  · exact hnext

end Steps

/-- The task is at a cell again from which a definite part of the script is left to do, and what was
seen leads from one to the other. -/
def Advances (script : Script) (bound : Nat) (this : Addr) (todo : Block Statement Condition)
    (es : List (Event Opcode Opcode)) (s' : Exrail) : Prop :=
  ∃ k' todo', IsAt script bound this k' todo' s' ∧ Reads todo es todo'

section Advance

variable {F : Crash → Prop}

/-- A condition is read, whatever its outcome is. -/
theorem IsAt.wp_branch {c : Condition} {K : Nat → Prop} {k' : Nat}
    {b thens failed : Block Statement Condition} (h : IsAt script bound this k b s)
    (hbound : bound ≤ 32767) (hready : ready script w (s.tasks.mem this))
    (hc : script.layout.cond c k k') (hthens : Placed script.layout thens K k')
    (hdepth : thens.depth < bound)
    (hend : ∀ q, K q →
      script.cellAt q = Opcode.endif.toByte ∨ script.cellAt q = Opcode.else_.toByte)
    {held : Block Statement Condition} (hheld : b.Step (.branch c true) held)
    (hfailed : b.Step (.branch c false) failed)
    (hrest : Rest script.layout (· = script.lastCell) bound held k')
    (hbehind : ∀ q, K q → Rest script.layout (· = script.lastCell) bound failed (q + 1)) :
    wp F (loop2 script w this)
      (fun _ => Advances script bound this b (seen script w this s)) s := by
  have hlast : k + 1 ≤ script.lastCell := h.remains.lt hc.2.2.1 c.ne_endexrail
  have hseen := seen_condition (w := w) (h.stays.opcodeAt hc.2.2.1)
  refine wp_loop2_condition h.stays hready hc.2.2.1 (.inl c.opens) hc.2.2.2
    (fun hskips s' hs' => ?_) fun hskips => ?_
  · refine ⟨k + 1, held, ⟨hs', remains_of_padded hc.2.1 hlast hrest⟩, ?_⟩
    rw [hseen, hskips]
    exact .one hheld
  · obtain ⟨q, hq, hqlast, hfound⟩ := skipFrom_placed hc.2.1 hthens (by omega) hlast hend
    refine ⟨q, hfound, fun s' hs' => ⟨q + 1, failed, ⟨hs', hqlast, hbehind q hq⟩, ?_⟩⟩
    rw [hseen, hskips]
    exact .one hfailed

/-- **Between statements.** Conditions, the marks between blocks and operands always lead on. -/
theorem IsAt.wp_silent (h : IsAt script bound this k todo s) (hbound : bound ≤ 32767)
    (hready : ready script w (s.tasks.mem this)) (hlast : k ≠ script.lastCell)
    (hvisit : ∀ op, Event.visit op ∉ seen script w this s) :
    wp F (loop2 script w this)
      (fun _ => Advances script bound this todo (seen script w this s)) s := by
  cases h.remains.2 with
  | done hk => exact absurd hk hlast
  | pad hop hrest =>
    have hcell : k + 1 ≤ script.lastCell := h.remains.lt hop (by decide)
    refine wp_mono (wp_loop2_mark h.stays hready hop (.inl rfl)) fun _ s' hs' => ?_
    refine ⟨k + 1, todo, ⟨hs', hcell, hrest⟩, ?_⟩
    rw [seen_mark (h.stays.opcodeAt hop) rfl rfl]
    exact .nil todo
  | endif hop hrest =>
    have hcell : k + 1 ≤ script.lastCell := h.remains.lt hop (by decide)
    refine wp_mono (wp_loop2_mark h.stays hready hop (.inr rfl)) fun _ s' hs' => ?_
    refine ⟨k + 1, todo, ⟨hs', hcell, hrest⟩, ?_⟩
    rw [seen_mark (h.stays.opcodeAt hop) rfl rfl]
    exact .nil todo
  | else_ hop helses hdepth hend hrest =>
    have hcell : k + 1 ≤ script.lastCell := h.remains.lt hop (by decide)
    have hpads : script.padded k (k + 1) := ⟨Nat.lt_succ_self k, fun j hj hlt => by omega⟩
    obtain ⟨q, hq, hqlast, hfound⟩ :=
      skipFrom_placed hpads helses (by omega) hcell fun q hq => .inl (hend q hq)
    refine wp_loop2_condition h.stays hready hop (.inr rfl) (fun heq => by cases heq)
      (fun hskips => by cases hskips) fun _ => ⟨q, hfound, fun s' hs' => ?_⟩
    refine ⟨q + 1, todo, ⟨hs', hqlast, hrest q hq⟩, ?_⟩
    rw [seen_mark (h.stays.opcodeAt hop) rfl rfl]
    exact .nil todo
  | @stmt stmt rest _ _ hs hrest =>
    have hseen := seen_statement (w := w) (h.stays.opcodeAt hs.2.2.1)
    exact absurd (hseen ▸ List.mem_singleton_self _) (hvisit stmt.op)
  | ifThen hc hthens hdepth hend hrest hhere =>
    exact h.wp_branch hbound hready hc hthens hdepth (fun q hq => .inl (hend q hq))
      (.ifThen_held _ _ _) (.ifThen_failed _ _ _) hhere hrest
  | ifElse hc hthens hdepth hend hrest hhere =>
    exact h.wp_branch hbound hready hc hthens hdepth (fun q hq => .inr (hend q hq))
      (.ifElse_held _ _ _ _) (.ifElse_failed _ _ _ _) hhere hrest

end Advance

/-- A task that waits is at its cell, and visits the statement again. -/
theorem IsAt.again {stmt : Statement} {rest : Block Statement Condition}
    (h : IsAt script bound this k (.stmt stmt rest) s)
    (hop : opcodeAt script (s.tasks.mem this) = some stmt.op) (hwaits : stmt.op.waits)
    (hs' : StaysAt script this (3 * k) s'.tasks) :
    Advances script bound this (.stmt stmt rest) (seen script w this s) s' := by
  refine ⟨k, _, ⟨hs', h.remains⟩, ?_⟩
  rw [seen_statement hop]
  exact .again hwaits (.nil _)

/-- **Statements** lead on to what is behind them, or have to be visited again. -/
theorem IsAt.wp_visit {stmt : Statement} {rest : Block Statement Condition} {k' : Nat}
    (h : IsAt script bound this k (.stmt stmt rest) s)
    (hs : script.layout.stmt stmt k k')
    (hrest : Rest script.layout (· = script.lastCell) bound rest k')
    (hloop : s.tasks.loopTask = some this) (hready : ready script w (s.tasks.mem this))
    (htransfer : stmt.op.transfers = false) (hsurvives : ¬ stepKills script w this s this) :
    wp NotDangling (loop2 script w this)
      (fun _ => Advances script bound this (.stmt stmt rest) (seen script w this s)) s := by
  have hop := h.stays.opcodeAt hs.2.2.1
  have hlast : k + 1 ≤ script.lastCell := h.remains.lt hs.2.2.1 stmt.ne_endexrail
  have hprint : stmt.op = .print → (script.messages
      (operandU (arg script (s.tasks.mem this) 0).toInt16)).isCondition = false := by
    rw [operandU, UInt16.toUInt16_toInt16, arg, h.stays.at_]
    exact hs.2.2.2
  have hunkilled : ¬ opcodeKills script w this (s.tasks.mem this)
      (arg script (s.tasks.mem this) 0).toInt16 (some stmt.op) s.tasks this := by
    intro hkills
    rw [← hop] at hkills
    exact hsurvives ⟨hready.1, hready.2, .inl hkills⟩
  have hunmoved : Unmoved script this (3 * k) { s with skipIf := false } := ⟨h.stays, rfl⟩
  refine wp_loop2_ready h.stays.live hready ?_
  rw [hop]
  have hstays := wp_statement stmt.isStatement htransfer hunmoved hloop hprint hunkilled
  by_cases hwaits : stmt.op.waits
  · refine wp_mono hstays fun flow s₁ hs₁ => ?_
    cases flow with
    | returns => exact h.again hop hwaits hs₁.1
    | breaks =>
      refine wp_mono (wp_proceed_next hs₁.1 hs₁.2) fun _ s' hs' => ?_
      refine ⟨k + 1, rest, ⟨hs', remains_of_padded hs.2.1 hlast hrest⟩, ?_⟩
      rw [seen_statement hop]
      exact .one (.stmt stmt rest)
  · have hend : stmt.op ≠ .endtask ∧ stmt.op ≠ .endexrail ∧ stmt.op ≠ .killall := by
      refine ⟨fun heq => hunkilled ?_, stmt.ne_endexrail, fun heq => hunkilled ?_⟩
      · rw [heq]
        rfl
      · rw [heq]
        trivial
    have hbreaks : Breaks (execute script w this (s.tasks.mem this)
        (arg script (s.tasks.mem this) 0).toInt16 (some stmt.op)) :=
      breaks_execute (by simpa using hwaits) htransfer hend
    refine wp_mono (wp_and hstays (hbreaks _)) fun flow s₁ ⟨hs₁, hflow⟩ => ?_
    rw [hflow]
    refine wp_mono (wp_proceed_next hs₁.1 hs₁.2) fun _ s' hs' => ?_
    refine ⟨k + 1, rest, ⟨hs', remains_of_padded hs.2.1 hlast hrest⟩, ?_⟩
    rw [seen_statement hop]
    exact .one (.stmt stmt rest)

/-- One step, whatever the task is at. -/
theorem IsAt.wp_loop2 (h : IsAt script bound this k todo s) (hbound : bound ≤ 32767)
    (hloop : s.tasks.loopTask = some this) (hready : ready script w (s.tasks.mem this))
    (htransfer : (opcodeAt script (s.tasks.mem this)).any Opcode.transfers = false)
    (hsurvives : ¬ stepKills script w this s this) : wp NotDangling (loop2 script w this)
      (fun _ => Advances script bound this todo (seen script w this s)) s := by
  by_cases hlast : k = script.lastCell
  · -- the task would end here
    have hend : script.cellAt k = Opcode.endexrail.toByte := hlast ▸ script.ends
    have hop := h.stays.opcodeAt hend
    refine absurd ⟨hready.1, hready.2, .inl ?_⟩ hsurvives
    rw [← opcodeAt, hop]
    rfl
  · by_cases hvisit : ∀ op, Event.visit op ∉ seen script w this s
    · exact h.wp_silent hbound hready hlast hvisit
    · cases h.remains.2 with
      | @stmt stmt rest _ _ hs hrest =>
        refine h.wp_visit hs hrest hloop hready ?_ hsurvives
        rw [h.stays.opcodeAt hs.2.2.1] at htransfer
        exact htransfer
      | done hk => exact absurd hk hlast
      | pad hop => exact absurd (by simp [seen_mark (h.stays.opcodeAt hop) rfl rfl]) hvisit
      | endif hop => exact absurd (by simp [seen_mark (h.stays.opcodeAt hop) rfl rfl]) hvisit
      | else_ hop => exact absurd (by simp [seen_mark (h.stays.opcodeAt hop) rfl rfl]) hvisit
      | ifThen hc => exact absurd (by simp [seen_condition (h.stays.opcodeAt hc.2.2.1)]) hvisit
      | ifElse hc => exact absurd (by simp [seen_condition (h.stays.opcodeAt hc.2.2.1)]) hvisit

/-! ## Runs -/

/-- The task gets to the switch when the call gives it a step. -/
theorem IsAt.wp_loop_steps {F : Crash → Prop} {Q : Unit → Exrail → Prop}
    (h : IsAt script bound this k todo s) (hserves : (Turn.loop w).serves s = some this)
    (hQ : ∀ s', s' = { s with tasks.loopTask := some this } →
      IsAt script bound this k todo s' → wp F (loop2 script w this) Q s') :
    wp F (loop script w) Q s := by
  have hring : Tasks.Ring { s.tasks with loopTask := some this } :=
    h.stays.well.ring.point h.stays.live
  refine wp_loop_serves h.stays.well.ring hserves (hQ _ rfl ⟨?_, h.remains⟩)
  exact h.stays.same ⟨hring, h.stays.well.blinks⟩ h.stays.live rfl

theorem seen_of_steps (hs' : s' = { s with tasks.loopTask := some this }) :
    seen script w this s' = seen script w this s := by
  have hskips : ∀ op, skips script w (s.tasks.mem this) (arg script (s.tasks.mem this) 0).toInt16
      op s' = skips script w (s.tasks.mem this) (arg script (s.tasks.mem this) 0).toInt16 op s :=
    fun op => skips_eq (by rw [hs'])
  rw [hs'] at hskips ⊢
  simp only [seen, hskips]

theorem seen_loop (hsteps : (Turn.loop w).steps script s this) :
    (Turn.loop w).seen script s this = seen script w this s := if_pos hsteps

theorem seen_of_not_steps {turn : Turn} (hsteps : ¬ turn.steps script s this) :
    turn.seen script s this = [] := by
  cases turn with
  | loop w => exact if_neg hsteps
  | command w c => rfl

/-- **One call**, whether the task takes a step in it or not. -/
theorem IsAt.wp_turn {turn : Turn} (h : IsAt script bound this k todo s) (hbound : bound ≤ 32767)
    (hsurvives : ¬ turn.kills script s this) (htransfers : ¬ turn.transfers script s this) :
    wp NotDangling (turn.exec script)
      (fun _ => Advances script bound this todo (turn.seen script s this)) s := by
  by_cases hsteps : turn.steps script s this
  · cases turn with
    | command w c => cases hsteps
    | loop w =>
      rw [seen_loop hsteps]
      refine h.wp_loop_steps hsteps.1 fun s' hs' h' => ?_
      have hloop : s'.tasks.loopTask = some this := by rw [hs']
      have hready : ready script w (s'.tasks.mem this) := by
        rw [hs']
        exact hsteps.2
      have htransfer : (opcodeAt script (s'.tasks.mem this)).any Opcode.transfers = false := by
        rw [hs']
        simpa using fun hany => htransfers ⟨hsteps, hany⟩
      have hkills : ¬ stepKills script w this s' this := fun hkills =>
        hsurvives (kills_of_serves hsteps.1 (hkills.of_pointed (by rw [hs'])))
      rw [← seen_of_steps hs']
      exact h'.wp_loop2 hbound hloop hready htransfer hkills
  · have hstands : ∀ s', StaysAt script this (3 * k) s'.tasks →
        Advances script bound this todo [] s' := fun s' hs' => ⟨k, todo, ⟨hs', h.remains⟩, .nil todo⟩
    rw [seen_of_not_steps hsteps]
    by_cases hserves : turn.serves s = some this
    · cases turn with
      | command w c => cases hserves
      | loop w =>
        -- its delay has not passed
        refine h.wp_loop_steps hserves fun s' hs' h' => ?_
        have hdelayed : (s'.tasks.mem this).delayTime ≠ 0 ∧
            w.millis - (s'.tasks.mem this).delayStart < (s'.tasks.mem this).delayTime := by
          rw [hs']
          by_contra hready
          refine hsteps ⟨hserves, hready, fun ⟨hfeature, hblink⟩ => ?_⟩
          rw [h.stays.calm hfeature] at hblink
          cases hblink
        simp only [loop2, wp_bind]
        refine wp_read h'.stays.live ?_
        rw [if_pos hdelayed]
        exact hstands s' h'.stays
    · refine wp_mono (lasting_staysAt.wp_turn (I := fun t _ => StaysAt script this (3 * k) t)
        (fun a ha heq => hserves (heq ▸ ha)) id h.stays fun a _ hkills heq => ?_) fun _ s' => hstands s'
      exact hsurvives (heq ▸ hkills)

/-- **Runs.** -/
theorem IsAt.stretch {es : List (Event Opcode Opcode)} (h : IsAt script bound this k todo s)
    (hbound : bound ≤ 32767) (hrun : Stretch script this s es s') :
    Advances script bound this todo es s' := by
  induction hrun generalizing k todo with
  | here s => exact ⟨k, todo, h, .nil todo⟩
  | turn turn hsurvives htransfers hexec _ ih =>
    obtain ⟨k₁, todo₁, h₁, hread⟩ := wp_of_ok hexec (h.wp_turn hbound hsurvives htransfers)
    obtain ⟨k', todo', h', hreads⟩ := ih h₁
    exact ⟨k', todo', h', hread.append hreads⟩

end Exrail

end CommandStation
