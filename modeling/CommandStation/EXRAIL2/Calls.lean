import CommandStation.EXRAIL2.Nesting
import CommandStation.Lib.CallStack

/-!
# Calls and returns

The call stack of a task. `CALL`, `RANDOM_CALL` and `RETURN` are the calls and returns of a stack of
bounded depth, whose positions are the cells behind a call with its operands; nothing else that is
done, by the task or by others, touches the stack.
-/

namespace CommandStation

open CommandStation.Lib CommandStation.Tasks

/-! ## The stack of a task -/

/-- The positions on the stack, the last one that was pushed first. -/
def RMFT2.stack (task : RMFT2) : List Int := (List.range task.stackDepth).reverse.map task.callStack

@[simp] theorem RMFT2.length_stack (task : RMFT2) : task.stack.length = task.stackDepth := by
  simp [stack]

/-- `callStack[stackDepth++]=position` -/
theorem RMFT2.stack_push (task : RMFT2) (position : Int) (progCounter : Int) :
    ({ task with
      callStack := Function.update task.callStack task.stackDepth position
      stackDepth := task.stackDepth + 1
      progCounter := progCounter } : RMFT2).stack = position :: task.stack := by
  simp only [stack, List.range_succ, List.reverse_append, List.reverse_singleton,
    List.singleton_append, List.map_cons, Function.update_self]
  congr 1
  refine List.map_congr_left fun i hi => ?_
  rw [List.mem_reverse, List.mem_range] at hi
  exact Function.update_of_ne (Nat.ne_of_lt hi) _ _

/-- `callStack[--stackDepth]` -/
theorem RMFT2.stack_eq_cons {task : RMFT2} (h : task.stackDepth ≠ 0) (progCounter : Int) :
    task.stack = task.callStack (task.stackDepth - 1) :: ({ task with
      progCounter := progCounter
      stackDepth := task.stackDepth - 1 } : RMFT2).stack := by
  obtain ⟨n, hn⟩ := Nat.exists_eq_succ_of_ne_zero h
  simp [stack, hn, List.range_succ]

namespace Script

variable (script : Script)

/-- The cell behind a `CALL` or a `RANDOM_CALL`. The operand of `RANDOM_CALL` is the number of the
routes, which are in as many cells behind it. -/
def behindCall (progCounter : Int) : Int :=
  if script.getOpcode progCounter = Opcode.randomCall.toByte then
    progCounter + 3 * (1 + (script.getOperand progCounter 0).toInt16.toInt)
  else progCounter + 3

end Script

/-- The macro `RANDOM_CALL`. -/
def randomCallCells (ids : List UInt16) : List (Opcode × UInt16) :=
  (.randomCall, UInt16.ofNat ids.length) :: ids.map fun id => (.call, id)

namespace Exrail

variable {script : Script} {w : Inputs} {s s' : Exrail} {a : Addr} {task : RMFT2}
  {operand : Int16} {P : RMFT2 → Prop} {st : List Int}

/-- The call or return that a task carries out next. -/
def transferAt (script : Script) (task : RMFT2) : Option (Transfer Int) :=
  match opcodeAt script task with
  | some .call | some .randomCall => some (.call (script.behindCall task.progCounter))
  | some .return_ => some .ret
  | _ => none

/-- The call or return that the task carries out in this call of `loop`. -/
def Turn.transfer (script : Script) (turn : Turn) (s : Exrail) (a : Addr) : Option (Transfer Int) :=
  match turn with
  | .loop w =>
    if turn.serves s = some a ∧ ready script w (s.tasks.mem a) then transferAt script (s.tasks.mem a)
    else none
  | .command _ _ => none

/-- The calls and returns of a task in a run. -/
def transfers (script : Script) (a : Addr) : List Turn → Exrail → List (Transfer Int)
  | [], _ => []
  | turn :: turns, s => (turn.transfer script s a).toList ++
      match turn.exec script s with
      | .ok (_, s') => transfers script a turns s'
      | .error _ => []

/-! ## What the macros write -/

/-- The bytes of an operand. -/
theorem joined_bytes (x : UInt16) : (x >>> 8).toUInt8.toUInt16 <<< 8 ||| x.toUInt8.toUInt16 = x := by
  apply UInt16.toNat_inj.mp
  have hx := x.toNat_lt
  have hor := Nat.two_pow_add_eq_or_of_lt (i := 8) (b := x.toNat % 256) (Nat.mod_lt _ (by decide))
    (x.toNat / 256)
  simp only [UInt16.toNat_or, UInt16.toNat_shiftLeft, UInt8.toNat_toUInt16, UInt16.toNat_toUInt8,
    UInt16.toNat_shiftRight, UInt16.reduceToNat, Nat.shiftLeft_eq, Nat.shiftRight_eq_div_pow,
    Nat.reduceMod, Nat.reducePow]
  rw [show x.toNat / 256 % 256 * 256 % 65536 = 2 ^ 8 * (x.toNat / 256) by omega, ← hor]
  omega

theorem getOperand_ofCells {features : UInt8} {messages : UInt16 → Message}
    {cells : List (Opcode × UInt16)} {k n : Nat} : (Script.ofCells features messages cells).getOperand
      (3 * k) n = (cells.getD (k + n) (.endexrail, 0)).2 := by
  have hlow : (3 * (k : Int) + 1 + (n : Int) * 3).toNat = 3 * (k + n) + 1 := by omega
  have hhigh : (3 * (k : Int) + 1 + (n : Int) * 3 + 1).toNat = 3 * (k + n) + 2 := by omega
  have hdiv : (3 * (k + n) + 1) / 3 = k + n ∧ (3 * (k + n) + 2) / 3 = k + n := by omega
  have hmod : (3 * (k + n) + 1) % 3 = 1 ∧ (3 * (k + n) + 2) % 3 = 2 := by omega
  simp only [Script.getOperand, Script.ofCells, hlow, hhigh, hdiv, hmod]
  exact joined_bytes _

section Macros

variable (features : UInt8) (messages : UInt16 → Message) (front back : List (Opcode × UInt16))

/-- The cell behind `CALL` is the next one. -/
theorem behindCall_call_cells (id : UInt16) :
    (Script.ofCells features messages (front ++ [(.call, id)] ++ back)).behindCall
      (3 * front.length) = 3 * (front ++ [(Opcode.call, id)]).length := by
  have hop : (Script.ofCells features messages (front ++ [(.call, id)] ++ back)).cellAt
      front.length = Opcode.call.toByte := by
    rw [cellAt_ofCells]
    simp
  rw [Script.cellAt] at hop
  rw [Script.behindCall, hop, if_neg (by decide)]
  simp
  omega

/-- The cell behind `RANDOM_CALL` is the one behind all its routes. -/
theorem behindCall_randomCall_cells {ids : List UInt16} (hids : ids.length < 32768) :
    (Script.ofCells features messages (front ++ randomCallCells ids ++ back)).behindCall
      (3 * front.length) = 3 * (front ++ randomCallCells ids).length := by
  have hcell : (front ++ randomCallCells ids ++ back).getD front.length (.endexrail, 0) =
      (.randomCall, UInt16.ofNat ids.length) := by simp [randomCallCells]
  have hop : (Script.ofCells features messages (front ++ randomCallCells ids ++ back)).cellAt
      front.length = Opcode.randomCall.toByte := by
    rw [cellAt_ofCells, hcell]
  have hoperand : (UInt16.ofNat ids.length).toInt16.toInt = ids.length :=
    Int16.toInt_ofNat_of_lt hids
  rw [Script.cellAt] at hop
  rw [Script.behindCall, if_pos hop, getOperand_ofCells, Nat.add_zero, hcell, hoperand]
  simp [randomCallCells]
  omega

end Macros

/-! ## What does not touch the stack -/

/-- The task exists and has this stack. -/
abbrev Stacked (script : Script) (a : Addr) (st : List Int) (t : Tasks) : Prop :=
  Rests script a (fun task => task.stack = st) t

theorem aboutPlace_stack : AboutPlace fun task => task.stack = st := by
  intro task task' _ hdepth hstack h
  rw [RMFT2.stack, hdepth, hstack]
  exact h

/-- The task moves in the script, and may push or pop. -/
theorem Rests.move {t : Tasks} {f : RMFT2 → RMFT2} {Q : RMFT2 → Prop} (h : Rests script a P t)
    (hf : OnlyMoves f) (hQ : P (t.mem a) → Q (f (t.mem a))) : Rests script a Q (t.write a f) where
  well := hf.well h.well
  live := h.live
  calm hfeature := by
    rw [write_mem_self, hf]
    exact h.calm hfeature
  holds := by
    rw [write_mem_self]
    exact hQ h.holds

theorem Rests.moves {t : Tasks} (h : Stacked script a st t) (progCounter : Int) :
    Stacked script a st (t.write a fun task => { task with progCounter := progCounter }) :=
  h.move (fun _ => rfl) id

theorem Rests.pointed {t : Tasks} (h : Stacked script a st t) :
    Stacked script a st { t with loopTask := some a } :=
  h.same aboutPlace_stack ⟨h.well.ring.point h.live, h.well.blinks⟩ h.live rfl

theorem Rests.push {t : Tasks} (h : Stacked script a st t) (position : Int) :
    Stacked script a (position :: st) (t.write a fun task => { task with
      callStack := Function.update task.callStack task.stackDepth position
      stackDepth := task.stackDepth + 1 }) :=
  h.move (fun _ => rfl) fun hstack => hstack ▸ RMFT2.stack_push (t.mem a) position _

theorem Rests.pop {t : Tasks} (h : Stacked script a st t) (hdepth : (t.mem a).stackDepth ≠ 0) :
    ∃ position rest, st = position :: rest ∧
      position = (t.mem a).callStack ((t.mem a).stackDepth - 1) ∧
      Stacked script a rest (t.write a fun task => { task with
        progCounter := task.callStack (task.stackDepth - 1)
        stackDepth := task.stackDepth - 1 }) :=
  ⟨_, _, h.holds.symm.trans (RMFT2.stack_eq_cons hdepth _), rfl, h.move (fun _ => rfl) fun _ => rfl⟩

/-- The state behind a condition: the flag apart, a section may have been reserved. -/
theorem Rests.wp_condition {op : Opcode} (h : Stacked script a st s.tasks)
    (hop : Opcode.opensIf op.toByte ∨ op = .else_) (hmessage : op ≠ .ifloco) :
    wp NotDangling (execute script w a task operand (some op))
      (fun _ s' => Stacked script a st s'.tasks) s := by
  unfold execute
  cases op with
  | iftimeout | if_ | else_ | ifgte | iflt | ifbitmapAll | ifbitmapAny | ifnot | ifre | ifrandom
  | ifred | ifamber | ifgreen | ifthrown | ifclosed | ifstash | ifstashedHere | ifttposition
  | ifRouteHidden | ifRouteInactive | ifRouteActive | ifRouteDisabled => exact h
  | ifreserve =>
    simp only [ifReserve, Exrail.getFlag, wp_bind, wp_get, wp_pure]
    refine wp_ite (fun _ => h) fun _ => ?_
    simp only [thenBreak, Exrail.setFlag, Exrail.note, onTasks, wp_bind, wp_zoom, wp_modify, wp_pure]
    exact (h.setFlag aboutPlace_stack).congr aboutPlace_stack rfl rfl rfl
  | ifloco => exact absurd rfl hmessage
  | _ => exact absurd hop (by decide)

theorem lasting_stacked : Lasting script (fun b => b ≠ a) (fun _ b => b ≠ a)
    (fun t _ => Stacked script a st t) := lasting_rests aboutPlace_stack

theorem Rests.wp_printMessage (h : Stacked script a st s.tasks)
    (hsurvives : ∀ c, script.messages (operandU operand) = .parse c → ¬ c.kills s.tasks a) :
    wp NotDangling (printMessage script w task operand) (fun _ s' => Stacked script a st s'.tasks)
      s := by
  unfold printMessage
  split
  · exact h
  · next c hc =>
    refine wp_thenBreak (lasting_stacked.toStable.wp_command h fun b _ hkills heq => ?_)
    exact hsurvives c hc (heq ▸ hkills)
  · exact h

/-- **Opcodes that are no calls.** `FOLLOW` only moves the task. -/
theorem Rests.wp_execute {op : Option Opcode} (h : Stacked script a st s.tasks)
    (hskip : s.skipIf = false) (hloop : s.tasks.loopTask = some a)
    (hop : op ≠ some .call ∧ op ≠ some .randomCall ∧ op ≠ some .return_)
    (hsurvives : ¬ opcodeKills script w a task operand op s.tasks a) :
    wp NotDangling (execute script w a task operand op)
      (fun _ s' => Stacked script a st s'.tasks) s := by
  have hjump : ∀ route, ¬ script.findRoute route < 0 →
      wp NotDangling (jump script w a route) (fun _ s' => Stacked script a st s'.tasks) s := by
    intro route hfound
    simp only [jump, hfound, if_false, thenReturn, wp_bind, wp_pure]
    exact Exrail.wp_write h.live (h.moves _)
  cases op with
  | none => exact absurd rfl hsurvives
  | some op =>
    by_cases hmessage : op = .print ∨ op = .ifloco
    · have hno : ∀ c, script.messages (operandU operand) = .parse c → ¬ c.kills s.tasks a := by
        intro c hc hkills
        refine hsurvives ?_
        rcases hmessage with rfl | rfl
        · simp only [opcodeKills, hc]
          exact hkills
        · simp only [opcodeKills, hc]
          exact hkills
      rcases hmessage with rfl | rfl
      · exact h.wp_printMessage hno
      · exact h.wp_printMessage hno
    · by_cases hcondition : Opcode.opensIf op.toByte ∨ op = .else_
      · exact h.wp_condition hcondition fun heq => hmessage (.inr heq)
      · by_cases htransfer : op.transfers
        · cases op with
          | follow => exact hjump _ fun hnone => hsurvives ⟨hnone, rfl⟩
          | randomFollow => exact hjump _ fun hnone => hsurvives ⟨hnone, rfl⟩
          | call => exact absurd rfl hop.1
          | randomCall => exact absurd rfl hop.2.1
          | return_ => exact absurd rfl hop.2.2
          | _ => cases htransfer
        · by_cases hmark : op.isStatement
          · refine wp_mono (Rests.wp_statement aboutPlace_stack hmark (by simpa using htransfer)
              ⟨h, hskip⟩ hloop (fun hprint => absurd (.inl hprint) hmessage) hsurvives) ?_
            exact fun _ _ h' => h'.1
          · have hmarks : op = .endif ∨ op = .endexrail ∨ op = .pad := by
              simp only [Opcode.isStatement, Bool.and_eq_true, Bool.not_eq_true', bne_iff_ne] at hmark
              rw [not_or, Bool.not_eq_true] at hcondition
              tauto
            rcases hmarks with rfl | rfl | rfl
            · exact h
            · exact absurd rfl hsurvives
            · exact h

/-- A new task has an empty stack. -/
theorem rests_of_newTask {progCounter : Int} {loco : UInt16} {invert : Bool}
    (hwell : s.tasks.Well script) : wp NotDangling (newTask w progCounter loco invert)
      (fun a s' => Rests script a (fun task => task.stackDepth = 0) s'.tasks) s := by
  simp only [newTask, onTasks, wp_zoom]
  refine wp_construct_setUp hwell.ring fun a t' hc hself => ?_
  have hcalm : (t'.mem a).isBlink = false := by
    rw [hself]
    simp [setUp, RMFT2.isBlink]
  refine ⟨hc.well hwell fun _ hb => ?_, hc.mem, fun _ => hcalm, ?_⟩
  · rw [hcalm] at hb
    cases hb
  · rw [hself]
    simp [setUp]

/-! ## Calls and returns -/

/-- The route that a call goes to. -/
def routeAt (script : Script) (w : Inputs) (task : RMFT2) : Int16 :=
  match opcodeAt script task with
  | some .randomCall => randomRoute script w task (arg script task 0).toInt16
  | _ => (arg script task 0).toInt16

/-- The task is at a call with a full stack, or to a route that is unknown, or at a `RETURN` with an
empty stack. -/
def fails (script : Script) (w : Inputs) (task : RMFT2) : Prop :=
  match transferAt script task with
  | some (.call _) => task.stackDepth = maxStackDepth ∨ script.findRoute (routeAt script w task) < 0
  | some .ret => task.stackDepth = 0
  | none => False

theorem behindCall_call (hop : opcodeAt script task = some .call) :
    script.behindCall task.progCounter = task.progCounter + 3 := by
  refine if_neg fun heq => ?_
  rw [opcodeAt, heq, Opcode.ofByte_toByte] at hop
  cases hop

theorem behindCall_randomCall (hop : opcodeAt script task = some .randomCall) :
    script.behindCall task.progCounter =
      task.progCounter + 3 * ((arg script task 0).toInt16.toInt + 1) := by
  rw [Script.behindCall, if_pos (Opcode.toByte_of_ofByte hop).symm, arg]
  omega

/-- What the switch does at a call or return. -/
theorem execute_transfer (h : (transferAt script task).isSome) :
    (∃ resume, transferAt script task = some (.call resume) ∧
      execute script w a task (arg script task 0).toInt16 (opcodeAt script task) =
        callRoute script w a task resume (routeAt script w task)) ∨
    transferAt script task = some .ret ∧
      execute script w a task (arg script task 0).toInt16 (opcodeAt script task) =
        returnFromCall w a task := by
  unfold transferAt at h ⊢
  split at h
  · next hop =>
    refine .inl ⟨_, rfl, ?_⟩
    rw [hop, routeAt, hop, behindCall_call hop]
    rfl
  · next hop =>
    refine .inl ⟨_, rfl, ?_⟩
    rw [hop, routeAt, hop, behindCall_randomCall hop]
    rfl
  · next hop =>
    refine .inr ⟨rfl, ?_⟩
    rw [hop]
    rfl
  · cases h

/-- A call or return that fails kills the task. -/
theorem Rests.wp_execute_fails (h : Stacked script a st s.tasks)
    (hfails : fails script w task) :
    wp NotDangling (execute script w a task (arg script task 0).toInt16 (opcodeAt script task))
      (fun flow s' => flow = .returns ∧ a ∉ s'.tasks.live) s := by
  have hkill : ∀ s' : Exrail, s'.tasks.Ring → a ∈ s'.tasks.live →
      wp NotDangling (thenReturn (kill w a)) (fun flow s' => flow = .returns ∧ a ∉ s'.tasks.live)
        s' := by
    intro s' hring hlive
    rw [thenReturn, wp_bind]
    refine wp_kill hring hlive fun rails t' hk => ?_
    exact ⟨rfl, by show a ∉ t'.live; rw [hk.live]; exact hring.nodup.not_mem_erase⟩
  have hsome : (transferAt script task).isSome := by
    unfold fails at hfails
    split at hfails
    · next heq => rw [heq]; rfl
    · next heq => rw [heq]; rfl
    · exact hfails.elim
  rcases execute_transfer (w := w) (a := a) hsome with ⟨resume, htransfer, heq⟩ | ⟨htransfer, heq⟩
  · rw [fails, htransfer] at hfails
    rw [heq]
    unfold callRoute
    refine wp_ite (fun _ => hkill s h.well.ring h.live) fun hroom => ?_
    rw [wp_bind]
    refine Exrail.wp_write h.live ?_
    rw [jump, if_pos (hfails.resolve_left hroom)]
    exact hkill _ (h.push resume).well.ring h.live
  · rw [fails, htransfer] at hfails
    rw [heq]
    unfold returnFromCall
    rw [if_pos hfails]
    exact hkill s h.well.ring h.live

/-- A call or return that does not fail does to the stack what it should, and goes to the route or
to the cell that is on top of the stack. -/
theorem Rests.wp_execute_transfer (h : Stacked script a st s.tasks) (htask : task = s.tasks.mem a)
    {t : Transfer Int} (ht : transferAt script task = some t) (hgood : ¬ fails script w task)
    (hle : st.length ≤ maxStackDepth) :
    wp NotDangling (execute script w a task (arg script task 0).toInt16 (opcodeAt script task))
      (fun flow s' => flow = .returns ∧ ∃ st', t.step maxStackDepth st = some st' ∧
        Stacked script a st' s'.tasks ∧
        (t = .ret → some (s'.tasks.mem a).progCounter = st.head?)) s := by
  have hdepth : st.length = task.stackDepth := by rw [← h.holds, RMFT2.length_stack, htask]
  rcases execute_transfer (w := w) (a := a) (by rw [ht]; rfl) with
    ⟨resume, htransfer, heq⟩ | ⟨htransfer, heq⟩
  · rw [fails, htransfer] at hgood
    obtain ⟨hroom, hfound⟩ := not_or.mp hgood
    obtain rfl := Option.some.inj (ht.symm.trans htransfer)
    rw [heq]
    simp only [callRoute, hroom, if_false, jump, hfound, thenReturn, wp_bind, wp_pure]
    refine Exrail.wp_write h.live (Exrail.wp_write h.live ?_)
    refine ⟨trivial, resume :: st, Transfer.step_call.mpr ⟨?_, rfl⟩, (h.push resume).moves _, by simp⟩
    omega
  · rw [fails, htransfer] at hgood
    obtain rfl := Option.some.inj (ht.symm.trans htransfer)
    rw [heq]
    simp only [returnFromCall, hgood, if_false, thenReturn, wp_bind, wp_pure]
    refine Exrail.wp_write h.live ?_
    rw [htask] at hgood
    obtain ⟨position, rest, rfl, hposition, hrest⟩ := h.pop hgood
    refine ⟨trivial, rest, Transfer.step_ret.mpr ⟨position, rfl⟩, hrest, fun _ => ?_⟩
    rw [write_mem_self, List.head?_cons, hposition]

/-! ## One call of the loop, or a command -/

/-- That the ring is well-formed lasts, whatever is killed. -/
theorem kept_well : Kept script (fun _ _ => True) fun _ => True where
  flag _ _ _ _ _ := trivial
  write _ _ _ := trivial
  create _ _ := trivial
  killed _ _ _ _ := trivial
  paused _ _ := trivial
  pointed _ := trivial
  forced _ _ := trivial
  acquired _ _ _ _ := trivial
  freed _ _ := trivial
  freedAll _ := trivial

/-- Skipping only moves the task. -/
theorem Rests.wp_proceed {flow : Flow} (h : Stacked script a st s.tasks)
    (hend : s.skipIf = true → ∀ progCounter, skipFrom script (script.lastCell + 2) 1
      (s.tasks.mem a).progCounter ≠ some (progCounter, false)) :
    wp NotDangling (proceed script w a flow) (fun _ s' => Stacked script a st s'.tasks) s := by
  have hmove : ∀ s' : Exrail, Stacked script a st s'.tasks → wp NotDangling (do
      let s ← get
      moveTo a (progCounterOf s a + 3)) (fun _ s' => Stacked script a st s'.tasks) s' := by
    intro s' h'
    simp only [moveTo, onTasks, wp_bind, wp_get, wp_zoom, wp_modify]
    exact h'.moves _
  cases flow with
  | returns => exact h
  | breaks =>
    simp only [proceed, wp_bind, wp_get]
    refine wp_ite (fun hskip => ?_) fun _ => ?_
    · simp only [skipIfBlock, wp_bind, wp_get]
      split
      · exact Crash.noConfusion
      · next progCounter found hfrom =>
        have hfound : found = true := by
          by_contra hnot
          rw [Bool.not_eq_true] at hnot
          exact hend hskip progCounter (hnot ▸ hfrom)
        simp only [moveTo, onTasks, wp_bind, wp_zoom, wp_modify, wp_pure]
        refine wp_when (fun hnot => absurd (hfound.symm.trans hnot) Bool.noConfusion) fun _ => ?_
        exact wp_when (fun _ => hmove _ (h.moves progCounter)) fun hnot => absurd hfound hnot
    · rw [wp_bind, wp_pure]
      exact wp_when (fun _ => hmove s h) fun hnot => absurd rfl hnot

/-- A step of the task that is neither a call nor a return. -/
theorem Rests.wp_loop2 (h : Stacked script a st s.tasks) (hloop : s.tasks.loopTask = some a)
    (hnone : ready script w (s.tasks.mem a) → transferAt script (s.tasks.mem a) = none)
    (hsurvives : ¬ stepKills script w a s a) :
    wp NotDangling (loop2 script w a) (fun _ s' => Stacked script a st s'.tasks) s := by
  by_cases hready : ready script w (s.tasks.mem a)
  · refine wp_loop2_ready h.live hready ?_
    have hop : opcodeAt script (s.tasks.mem a) ≠ some .call ∧
        opcodeAt script (s.tasks.mem a) ≠ some .randomCall ∧
        opcodeAt script (s.tasks.mem a) ≠ some .return_ := by
      have htransfer := hnone hready
      refine ⟨fun heq => ?_, fun heq => ?_, fun heq => ?_⟩
      all_goals simp [transferAt, heq] at htransfer
    have hlasting : Lasting script (fun _ => True) (fun _ _ => True)
        (fun t _ => t.Well script ∧ True) := kept_well.lasting
    have hswitched : wp NotDangling (execute script w a (s.tasks.mem a)
        (arg script (s.tasks.mem a) 0).toInt16 (opcodeAt script (s.tasks.mem a)))
        (fun _ s' => Switched script w a (s.tasks.mem a) (arg script (s.tasks.mem a) 0).toInt16
          (opcodeAt script (s.tasks.mem a)) (fun t _ => t.Well script ∧ True)
          { s with skipIf := false } s') { s with skipIf := false } :=
      hlasting.wp_execute trivial id ⟨h.well, trivial⟩ rfl hloop h.calm fun _ _ _ => trivial
    have hstacked : wp NotDangling (execute script w a (s.tasks.mem a)
        (arg script (s.tasks.mem a) 0).toInt16 (opcodeAt script (s.tasks.mem a)))
        (fun _ s' => Stacked script a st s'.tasks) { s with skipIf := false } :=
      Rests.wp_execute h rfl hloop hop fun hkills => hsurvives ⟨hready.1, hready.2, .inl hkills⟩
    refine wp_mono (wp_and hstacked (wp_mono_fault (fun _ _ => trivial) hswitched)) ?_
    rintro flow s' ⟨h', hs'⟩
    refine h'.wp_proceed fun hskip progCounter hfrom => hsurvives ⟨hready.1, hready.2, .inr ⟨rfl, ?_, ?_⟩⟩
    · obtain ⟨-, op, hop, hskips⟩ := hs'.skipIf hskip
      rw [skipsBlock, ← opcodeAt, hop, Option.any_some, ← hskips]
      exact (skips_eq rfl).symm
    · rw [(hs'.skipIf hskip).1] at hfrom
      rw [missingEndif, hfrom]
      rfl
  · simp only [loop2, wp_bind]
    refine wp_read h.live (wp_ite (fun _ => h) fun hdelay => wp_ite (fun hblink => ?_) fun hblink => ?_)
    · exact absurd (h.calm hblink.1) (by simp [hblink.2])
    · exact absurd ⟨hdelay, hblink⟩ hready

/-- A call of `loop`, or a command, in which the task neither calls nor returns. -/
theorem Rests.wp_turn_other {turn : Turn} (h : Stacked script a st s.tasks)
    (hnone : turn.transfer script s a = none) (hspared : ¬ turn.kills script s a) :
    wp NotDangling (turn.exec script) (fun _ s' => Stacked script a st s'.tasks) s := by
  by_cases hserves : turn.serves s = some a
  · cases turn with
    | command w c => cases hserves
    | loop w =>
      have hpointed := h.pointed
      refine wp_loop_serves h.well.ring hserves (hpointed.wp_loop2 rfl (fun hready => ?_) fun hkills => ?_)
      · rw [Turn.transfer, if_pos ⟨hserves, hready⟩] at hnone
        exact hnone
      · exact hspared (kills_of_serves hserves (hkills.of_pointed rfl))
  · refine lasting_stacked.wp_turn (fun b hb heq => hserves (heq ▸ hb)) id h fun b _ hkills heq => ?_
    exact hspared (heq ▸ hkills)

/-- The call or return of the task that is served. -/
theorem Turn.transfer_eq_some {turn : Turn} {t : Transfer Int}
    (ht : turn.transfer script s a = some t) : ∃ w, turn = .loop w ∧
      (Turn.loop w).serves s = some a ∧ ready script w (s.tasks.mem a) ∧
      transferAt script (s.tasks.mem a) = some t := by
  cases turn with
  | command w c => cases ht
  | loop w =>
    rw [Turn.transfer] at ht
    split_ifs at ht with h
    exact ⟨w, rfl, h.1, h.2, ht⟩

/-- The task carries out a call or return that fails. -/
def Turn.fails (script : Script) (turn : Turn) (s : Exrail) (a : Addr) : Prop :=
  match turn with
  | .loop w => (turn.transfer script s a).isSome ∧ Exrail.fails script w (s.tasks.mem a)
  | .command _ _ => False

/-- The step of a task that is at a call or return. -/
theorem Rests.wp_turn_of_execute {Q : Exrail → Prop}
    (h : Stacked script a st s.tasks) (hserves : (Turn.loop w).serves s = some a)
    (hready : ready script w (s.tasks.mem a))
    (hexecute : wp NotDangling (execute script w a (s.tasks.mem a)
      (arg script (s.tasks.mem a) 0).toInt16 (opcodeAt script (s.tasks.mem a)))
      (fun flow s' => flow = .returns ∧ Q s') { s with tasks.loopTask := some a, skipIf := false }) :
    wp NotDangling ((Turn.loop w).exec script) (fun _ => Q) s := by
  have hpointed := h.pointed
  refine wp_loop_serves h.well.ring hserves (wp_loop2_ready hpointed.live hready ?_)
  refine wp_mono hexecute fun flow s' ⟨hflow, hQ⟩ => ?_
  rw [hflow]
  exact hQ

/-- **A call or return that fails** kills the task. -/
theorem Rests.wp_turn_fails {turn : Turn} (h : Stacked script a st s.tasks)
    (hfails : turn.fails script s a) :
    wp NotDangling (turn.exec script) (fun _ s' => a ∉ s'.tasks.live) s := by
  cases turn with
  | command w c => exact hfails.elim
  | loop w =>
    obtain ⟨t, ht⟩ := Option.isSome_iff_exists.mp hfails.1
    obtain ⟨w', heq, hserves, hready, -⟩ := Turn.transfer_eq_some ht
    cases heq
    have hpointed := h.pointed
    exact h.wp_turn_of_execute hserves hready
      (Rests.wp_execute_fails (s := { s with tasks.loopTask := some a, skipIf := false }) hpointed hfails.2)

/-- A task that a call of `loop` does not kill does not fail. -/
theorem Turn.not_fails {turn : Turn} (hspared : ¬ turn.kills script s a) :
    ¬ turn.fails script s a := by
  intro hfails
  cases turn with
  | command w c => exact hfails
  | loop w =>
    obtain ⟨t, ht⟩ := Option.isSome_iff_exists.mp hfails.1
    obtain ⟨w', heq, hserves, hready, -⟩ := Turn.transfer_eq_some ht
    cases heq
    refine hspared (kills_of_serves hserves ⟨hready.1, hready.2, .inl ?_⟩)
    have hfails := hfails.2
    rw [← opcodeAt]
    unfold Exrail.fails transferAt routeAt at hfails
    cases hop : opcodeAt script (s.tasks.mem a) with
    | none => simp [hop] at hfails
    | some op =>
      cases op with
      | call | randomCall | return_ =>
        simp only [hop] at hfails
        exact ⟨hfails, rfl⟩
      | _ => simp [hop] at hfails

/-- **A call or return that does not fail** does to the stack what it should. -/
theorem Rests.wp_turn_transfer {turn : Turn} {t : Transfer Int} (h : Stacked script a st s.tasks)
    (ht : turn.transfer script s a = some t) (hgood : ¬ turn.fails script s a)
    (hle : st.length ≤ maxStackDepth) :
    wp NotDangling (turn.exec script) (fun _ s' => ∃ st', t.step maxStackDepth st = some st' ∧
      Stacked script a st' s'.tasks ∧
      (t = .ret → some (s'.tasks.mem a).progCounter = st.head?)) s := by
  obtain ⟨w, rfl, hserves, hready, htransfer⟩ := Turn.transfer_eq_some ht
  have hpointed := h.pointed
  refine h.wp_turn_of_execute hserves hready ?_
  exact Rests.wp_execute_transfer (s := { s with tasks.loopTask := some a, skipIf := false }) hpointed
    rfl htransfer (fun hfails => hgood ⟨by rw [ht]; rfl, hfails⟩) hle

/-! ## Runs of a task -/

/-- A call of `loop`, or a command, that does not kill the task. -/
theorem Rests.wp_turn_spared {turn : Turn} (h : Stacked script a st s.tasks)
    (hspared : ¬ turn.kills script s a) (hle : st.length ≤ maxStackDepth) :
    wp NotDangling (turn.exec script) (fun _ s' => ∃ st',
      Transfer.run maxStackDepth (turn.transfer script s a).toList st = some st' ∧
      Stacked script a st' s'.tasks) s := by
  cases ht : turn.transfer script s a with
  | none => exact wp_mono (h.wp_turn_other ht hspared) fun _ s' h' => ⟨st, rfl, h'⟩
  | some t =>
    refine wp_mono (h.wp_turn_transfer ht (Turn.not_fails hspared) hle) ?_
    rintro _ s' ⟨st', hstep, h', -⟩
    refine ⟨st', ?_, h'⟩
    rw [Option.toList_some, Transfer.run, hstep]
    rfl

/-- Over a run the call stack of a task is what its transfers make of it. -/
theorem Rests.wp_run {turns : List Turn} (h : Stacked script a st s.tasks)
    (hle : st.length ≤ maxStackDepth)
    (hspared : AlongProg (Turn.exec script) (fun s turn => ¬ turn.kills script s a) turns s) :
    wp NotDangling (runProg (Turn.exec script) turns) (fun _ s' => ∃ st',
      Transfer.run maxStackDepth (transfers script a turns s) st = some st' ∧
      Stacked script a st' s'.tasks) s := by
  induction turns generalizing s st with
  | nil => exact ⟨st, rfl, h⟩
  | cons turn turns ih =>
    rw [runProg, wp_bind]
    refine wp_mono_ok (wp_and (h.wp_turn_spared hspared.1 hle) hspared.2) ?_
    rintro _ s' hexec ⟨⟨st', hrun, h'⟩, hspared'⟩
    have hle' := Transfer.length_run hrun hle
    refine wp_mono (ih h' hle' hspared') ?_
    rintro _ s'' ⟨st'', hrun', h''⟩
    refine ⟨st'', ?_, h''⟩
    rw [transfers, hexec, Transfer.run_append, hrun]
    exact hrun'

/-- **The call stack.** In every run of a task, its stack is that of the calls and returns it has
carried out, which never hold more than the stack may. A `RETURN` either fails or has a call that it
matches, and resumes at the cell behind that call and its operands; a call or return that fails kills
the task; nothing else touches the stack. -/
theorem call_stack (script : Script) (a : Addr) (s : Exrail) (turns : List Turn)
    (hnew : Rests script a (fun task => task.stackDepth = 0) s.tasks)
    (hspared : AlongProg (Turn.exec script) (fun s turn => ¬ turn.kills script s a) turns s) :
    wp NotDangling (runProg (Turn.exec script) turns) (fun _ s' =>
      (s'.tasks.mem a).stackDepth ≤ maxStackDepth ∧
      Transfer.run maxStackDepth (transfers script a turns s) [] = some (s'.tasks.mem a).stack ∧
      ∀ turn : Turn,
        (turn.transfer script s' a = some .ret → turn.fails script s' a ∨
          ∃ before resume between, transfers script a turns s = before ++ .call resume :: between ∧
            Transfer.Matched between) ∧
        (∀ before resume between, transfers script a turns s = before ++ .call resume :: between →
          Transfer.Matched between → turn.transfer script s' a = some .ret →
          wp NotDangling (turn.exec script) (fun _ s'' => a ∈ s''.tasks.live ∧
            (s''.tasks.mem a).progCounter = resume) s') ∧
        (turn.fails script s' a →
          wp NotDangling (turn.exec script) (fun _ s'' => a ∉ s''.tasks.live) s') ∧
        (turn.transfer script s' a = none → ¬ turn.kills script s' a →
          wp NotDangling (turn.exec script) (fun _ s'' => a ∈ s''.tasks.live ∧
            (s''.tasks.mem a).stack = (s'.tasks.mem a).stack) s')) s := by
  have hempty : Stacked script a [] s.tasks :=
    ⟨hnew.well, hnew.live, hnew.calm, by rw [RMFT2.stack, hnew.holds]; rfl⟩
  refine wp_mono (hempty.wp_run (Nat.zero_le _) hspared) ?_
  rintro _ s' ⟨st, hrun, h⟩
  have hle : st.length ≤ maxStackDepth := Transfer.length_run hrun (Nat.zero_le _)
  have hdepth : (s'.tasks.mem a).stackDepth = st.length := by rw [← h.holds, RMFT2.length_stack]
  refine ⟨hdepth ▸ hle, by rw [hrun, h.holds], fun turn => ⟨fun hret => ?_, ?_, h.wp_turn_fails, ?_⟩⟩
  · -- a `RETURN` finds the stack empty, or the call on top of it
    obtain ⟨w, rfl, -, -, htransfer⟩ := Turn.transfer_eq_some hret
    cases st with
    | nil => exact .inl ⟨by rw [hret]; rfl, by rw [fails, htransfer]; exact hdepth⟩
    | cons resume rest =>
      obtain ⟨before, between, heq, hmatched, -⟩ := Transfer.matched_of_top hrun
      exact .inr ⟨before, resume, between, heq, hmatched⟩
  · -- the call that it matches is on top, so it resumes there
    intro before resume between heq hmatched hret
    rw [heq] at hrun
    obtain ⟨rest, rfl, -⟩ := Transfer.top_of_matched hmatched hrun
    have hgood : ¬ turn.fails script s' a := by
      obtain ⟨w, rfl, -, -, htransfer⟩ := Turn.transfer_eq_some hret
      rintro ⟨-, hfails⟩
      rw [fails, htransfer] at hfails
      exact absurd (hdepth.symm.trans hfails) (Nat.succ_ne_zero _)
    refine wp_mono (h.wp_turn_transfer hret hgood hle) ?_
    rintro _ s'' ⟨st', -, h', hresume⟩
    exact ⟨h'.live, Option.some.inj (hresume rfl)⟩
  · intro hnone hspared'
    refine wp_mono (h.wp_turn_other hnone hspared') fun _ s'' h' => ⟨h'.live, ?_⟩
    rw [h'.holds, h.holds]

/-- `AUTOSTART CALL(1) DONE SEQUENCE(1) RANDOM_CALL(2,2) RETURN SEQUENCE(2) RETURN` -/
@[irreducible] def callAndReturn : Script := Script.ofCells 0 (fun _ => .text)
  ([(.autostart, 0), (.call, 1), (.endtask, 0), (.sequence, 1)] ++ randomCallCells [2, 2] ++
    [(.return_, 0), (.sequence, 2), (.return_, 0)])

/-- A new task at `CALL` is in `SEQUENCE(2)` after so many turns, and returns to the cell behind
`RANDOM_CALL` and its routes. -/
theorem call_stack_callAndReturn : wp NotDangling (do
      begin callAndReturn .idle
      newTask .idle 3 0 false)
    (fun a s => wp NotDangling (runProg (Turn.exec callAndReturn) (List.replicate 7 (.loop .idle)))
      (fun _ s' => (s'.tasks.mem a).stack = [21, 6] ∧
        ∀ turn : Turn, turn.transfer callAndReturn s' a = some .ret →
          wp NotDangling (turn.exec callAndReturn) (fun _ s'' => (s''.tasks.mem a).progCounter = 21) s') s)
    (init bareRails [] fun _ => .zero) := by
  have hwell : wp NotDangling (begin callAndReturn .idle)
      (fun _ s => s.tasks.Well callAndReturn ∧ True) (init bareRails [] fun _ => .zero) :=
    kept_well.wp_begin trivial
  have hnew : wp NotDangling (do
      begin callAndReturn .idle
      newTask .idle 3 0 false)
      (fun a s => Rests callAndReturn a (fun task => task.stackDepth = 0) s.tasks)
      (init bareRails [] fun _ => .zero) := by
    rw [wp_bind]
    exact wp_mono hwell fun _ s h => rests_of_newTask h.1
  have hruns : wp (fun _ => True) (do
      begin callAndReturn .idle
      newTask .idle 3 0 false)
      (fun a s => AlongProg (Turn.exec callAndReturn) (fun s turn => ¬ turn.kills callAndReturn s a)
          (List.replicate 7 (.loop .idle)) s ∧
        transfers callAndReturn a (List.replicate 7 (.loop .idle)) s =
          [.call (callAndReturn.behindCall 3), .call (callAndReturn.behindCall 12)])
      (init bareRails [] fun _ => .zero) := by
    decide +kernel
  have hcall : callAndReturn.behindCall 3 = 6 := by
    unfold callAndReturn
    exact behindCall_call_cells 0 _ [(.autostart, 0)] _ 1
  have hrandom : callAndReturn.behindCall 12 = 21 := by
    unfold callAndReturn
    exact @behindCall_randomCall_cells 0 _ [(.autostart, 0), (.call, 1), (.endtask, 0), (.sequence, 1)] _
      [2, 2] (by decide)
  refine wp_mono (wp_and hnew hruns) ?_
  rintro a s ⟨hnew, hspared, htransfers⟩
  rw [hcall, hrandom] at htransfers
  refine wp_mono (call_stack callAndReturn a s _ hnew hspared) ?_
  rintro _ s' ⟨-, hrun, hturns⟩
  rw [htransfers] at hrun
  refine ⟨(Option.some.inj hrun).symm, fun turn hret => ?_⟩
  exact wp_mono ((hturns turn).2.1 [.call 6] 21 [] htransfers .nil hret) fun _ _ h => h.2

end Exrail

end CommandStation
