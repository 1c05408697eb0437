import CommandStation.EXRAIL2.Stable

/-!
# What a step can do

A property of the ring that the flow of control keeps as well is `Lasting`: it holds in every state
that is reached. `Turn.kills` says, from the state before a call, which tasks the call kills.
-/

namespace CommandStation

open CommandStation.Lib CommandStation.Tasks

namespace Exrail

/-- Something was written to a task that only changes where it is in the script. -/
def OnlyMoves (f : RMFT2 → RMFT2) : Prop := ∀ task : RMFT2, f task =
  { task with
    progCounter := (f task).progCounter
    stackDepth := (f task).stackDepth
    callStack := (f task).callStack }

theorem OnlyMoves.well {script : Script} {t : Tasks} {a : Addr} {f : RMFT2 → RMFT2}
    (hf : OnlyMoves f) (h : t.Well script) : (t.write a f).Well script := by
  refine h.write (by rw [hf]) fun _ hblink => ?_
  rw [hf] at hblink
  exact ⟨hblink, by rw [hf]; rfl⟩

/-- A property that the steps of the tasks in `M` keep. -/
structure Lasting (script : Script) (M : Addr → Prop) (K : PausingTask → Addr → Prop)
    (I : Tasks → Bool → Prop) : Prop extends Stable script K I where
  pointed : ∀ {t skip a}, I t skip → a ∈ t.live → I { t with loopTask := some a } skip
  moved : ∀ {t skip f a}, M a → I t skip → OnlyMoves f → I (t.write a f) skip

/-- What has to be shown of a property, besides that the ring is well-formed. -/
structure Kept (script : Script) (K : PausingTask → Addr → Prop) (J : Tasks → Prop) : Prop where
  flag : ∀ {t} id on off, (on ||| off) &&& (sectionFlag ||| taskFlag) = 0 → J t →
    J (t.setFlag id on off)
  write : ∀ {t a f}, J t → (f (t.mem a)).taskId = (t.mem a).taskId →
    (script.has Script.featureBlink → (f (t.mem a)).isBlink → (t.mem a).isBlink) → J (t.write a f)
  create : ∀ {t t' a}, J t → Tasks.Created a t t' → J t'
  killed : ∀ {t t' a}, J t → t.Well script → K t.pausingTask a ∨
    script.has Script.featureBlink ∧ (t.mem a).isBlink → Tasks.Killed a t t' → J t'
  paused : ∀ {t p}, J t → (∀ a, p = .task a → a ∈ t.live ∧
    (script.has Script.featureBlink → (t.mem a).isBlink = false)) → J { t with pausingTask := p }
  pointed : ∀ {t p}, J t → J { t with loopTask := p }
  forced : ∀ {t} id, J t → J (t.setFlag id sectionFlag 0)
  acquired : ∀ {t} a id, J t → t.getFlag id sectionFlag = false →
    J ((t.setFlag id sectionFlag 0).note (.acquired a id))
  freed : ∀ {t} id, J t → J ((t.note (.freed id)).setFlag id 0 sectionFlag)
  freedAll : ∀ {t}, J t → J (t.freeAllSections.note .freedAll)

variable {script : Script} {w : Inputs} {M : Addr → Prop} {K : PausingTask → Addr → Prop}
  {I : Tasks → Bool → Prop} {s : Exrail} {a this : Addr} {task : RMFT2} {operand : Int16}

/-- What the operations on the tasks keep lasts over the steps of a task. -/
theorem Kept.lasting {J : Tasks → Prop} (hJ : Kept script K J) :
    Lasting script M K (fun t _ => t.Well script ∧ J t) where
  well h := h.1
  flag id on off hmasks h := ⟨h.1.setFlag, hJ.flag id on off hmasks h.2⟩
  write h _ hf := ⟨h.1.write hf.next hf.blink,
    hJ.write h.2 hf.taskId fun hfeature hblink => (hf.blink hfeature hblink).1⟩
  create h hc hwell := ⟨hwell, hJ.create h.2 hc⟩
  killBlink hfeature h hblink hk :=
    ⟨hk.well h.1, hJ.killed h.2 h.1 (.inr ⟨hfeature, hblink⟩) hk⟩
  killed h hK hk := ⟨hk.well h.1, hJ.killed h.2 h.1 (.inl hK) hk⟩
  paused h hp := ⟨h.1.congr rfl rfl rfl, hJ.paused h.2 hp⟩
  pointed h ha := ⟨⟨h.1.ring.point ha, h.1.blinks⟩, hJ.pointed h.2⟩
  moved _ h hf := by
    refine ⟨hf.well h.1, hJ.write h.2 (by rw [hf]) fun _ hblink => ?_⟩
    rw [hf] at hblink
    exact hblink
  forced id h := ⟨h.1.setFlag, hJ.forced id h.2⟩
  acquired {t _} a id h hfree := by
    have hset : (t.setFlag id sectionFlag 0).Well script := h.1.setFlag
    exact ⟨hset.congr rfl rfl rfl, hJ.acquired a id h.2 hfree⟩
  freed {t _} id h := by
    have hnote : (t.note (.freed id)).Well script := h.1.congr rfl rfl rfl
    exact ⟨hnote.setFlag, hJ.freed id h.2⟩
  freedAll {t _} h := by
    refine ⟨?_, hJ.freedAll h.2⟩
    obtain ⟨flags, hflags⟩ := t.freeAllSections_eq
    rw [hflags]
    exact h.1.congr rfl rfl rfl

/-- A lasting property with the flag as it is now. -/
theorem Lasting.fixed (hI : Lasting script M K I) (b : Bool) :
    Lasting script M K (fun t skip => I t skip ∧ skip = b) where
  well h := hI.well h.1
  flag id on off hmasks h := ⟨hI.flag id on off hmasks h.1, h.2⟩
  write h ha hf := ⟨hI.write h.1 ha hf, h.2⟩
  create h hc hwell := ⟨hI.create h.1 hc hwell, h.2⟩
  killBlink hfeature h hblink hk := ⟨hI.killBlink hfeature h.1 hblink hk, h.2⟩
  killed h hK hk := ⟨hI.killed h.1 hK hk, h.2⟩
  paused h hp := ⟨hI.paused h.1 hp, h.2⟩
  pointed h ha := ⟨hI.pointed h.1 ha, h.2⟩
  moved ha h hf := ⟨hI.moved ha h.1 hf, h.2⟩
  forced id h := ⟨hI.forced id h.1, h.2⟩
  acquired a id h hfree := ⟨hI.acquired a id h.1 hfree, h.2⟩
  freed id h := ⟨hI.freed id h.1, h.2⟩
  freedAll h := ⟨hI.freedAll h.1, h.2⟩

/-! ## Opcodes -/

/-- The opcode kills this task. `this` is the task that carries it out. -/
def opcodeKills (script : Script) (w : Inputs) (this : Addr) (task : RMFT2) (operand : Int16)
    (op : Option Opcode) (t : Tasks) (a : Addr) : Prop :=
  match op with
  | none => a = this
  | some op =>
    match op with
    | .endtask | .endexrail | .signal | .roster | .onclocktime | .onvpSensor | .ifTypeOpcodes =>
      a = this
    | .onrailsyncon | .onrailsyncoff => script.boosterInput = false ∧ a = this
    | .killall => True
    | .follow => script.findRoute operand < 0 ∧ a = this
    | .randomFollow => script.findRoute (randomRoute script w task operand) < 0 ∧ a = this
    | .call => (task.stackDepth = maxStackDepth ∨ script.findRoute operand < 0) ∧ a = this
    | .randomCall => (task.stackDepth = maxStackDepth ∨
        script.findRoute (randomRoute script w task operand) < 0) ∧ a = this
    | .return_ => task.stackDepth = 0 ∧ a = this
    | .ifloco | .print =>
      match script.messages (operandU operand) with
      | .parse c => c.kills t a
      | _ => False
    | _ => False

instance (script : Script) (w : Inputs) (this : Addr) (task : RMFT2) (operand : Int16)
    (op : Option Opcode) (t : Tasks) (a : Addr) :
    Decidable (opcodeKills script w this task operand op t a) := by
  unfold opcodeKills
  split
  · infer_instance
  · split
    all_goals first | infer_instance | (split <;> infer_instance)

/-- The state behind the switch: if the flag is set then the opcode was a condition that failed, or
`ELSE`, and has changed nothing but the flag. -/
structure Switched (script : Script) (w : Inputs) (this : Addr) (task : RMFT2) (operand : Int16)
    (op : Option Opcode) (I : Tasks → Bool → Prop) (s s' : Exrail) : Prop where
  within : Within I s'
  skipIf : s'.skipIf = true → s'.tasks = s.tasks ∧
    ∃ op', op = some op' ∧ skips script w task operand op' s = true

section Opcodes

variable {op : Option Opcode}

theorem switched_of_fixed {s' : Exrail} (h : Within (fun t skip => I t skip ∧ skip = false) s') :
    Switched script w this task operand op I s s' :=
  ⟨h.1, fun hskip => by rw [h.2] at hskip; cases hskip⟩

variable (hI : Lasting script M K I)

include hI

theorem Lasting.wp_moves {f : RMFT2 → RMFT2} {Q : Unit → Exrail → Prop} (hf : OnlyMoves f)
    (hM : M this) (h : Within I s) (hthis : this ∈ s.tasks.live)
    (hQ : ∀ s', Within I s' → this ∈ s'.tasks.live →
      s'.tasks.pausingTask = s.tasks.pausingTask → Q () s') :
    wp NotDangling (Exrail.writeTask this f) Q s :=
  Exrail.wp_write hthis (hQ _ (hI.moved hM h hf) hthis rfl)

theorem Lasting.wp_jump {route : Int16} (hM : M this) (h : Within I s) (hthis : this ∈ s.tasks.live)
    (hK : script.findRoute route < 0 → K s.tasks.pausingTask this) :
    wp NotDangling (jump script w this route) (fun _ => Within I) s := by
  refine wp_ite (fun hnone => ?_) fun _ => ?_
  · exact wp_thenReturn (hI.wp_kill h hthis (hK hnone))
  · exact wp_thenReturn (hI.wp_moves (fun _ => rfl) hM h hthis fun _ h' _ _ => h')

theorem Lasting.wp_callRoute {position : Int} {route : Int16} (hM : M this) (h : Within I s)
    (hthis : this ∈ s.tasks.live) (hK : task.stackDepth = maxStackDepth ∨
      script.findRoute route < 0 → K s.tasks.pausingTask this) :
    wp NotDangling (callRoute script w this task position route) (fun _ => Within I) s := by
  refine wp_ite (fun hfull => ?_) fun _ => ?_
  · exact wp_thenReturn (hI.wp_kill h hthis (hK (.inl hfull)))
  · rw [wp_bind]
    refine hI.wp_moves (fun _ => rfl) hM h hthis fun s' h' hthis' hpausing => ?_
    refine hI.wp_jump hM h' hthis' fun hnone => ?_
    rw [hpausing]
    exact hK (.inr hnone)

theorem Lasting.wp_returnFromCall (hM : M this) (h : Within I s) (hthis : this ∈ s.tasks.live)
    (hK : task.stackDepth = 0 → K s.tasks.pausingTask this) :
    wp NotDangling (returnFromCall w this task) (fun _ => Within I) s := by
  refine wp_ite (fun hempty => ?_) fun _ => ?_
  · exact wp_thenReturn (hI.wp_kill h hthis (hK hempty))
  · exact wp_thenReturn (hI.wp_moves (fun _ => rfl) hM h hthis fun _ h' _ _ => h')

/-- An opcode keeps what lasts, if the tasks that it kills are ones that may be killed. -/
theorem Lasting.wp_execute (hM : M this) (hskip : ∀ {t skip skip'}, I t skip → I t skip')
    (h : Within I s)
    (hs : s.skipIf = false) (hloop : s.tasks.loopTask = some this)
    (hcalm : script.has Script.featureBlink → (s.tasks.mem this).isBlink = false)
    (hK : ∀ a ∈ s.tasks.live, opcodeKills script w this task operand op s.tasks a →
      K s.tasks.pausingTask a) :
    wp NotDangling (execute script w this task operand op)
      (fun _ s' => Switched script w this task operand op I s s') s := by
  have hthis : this ∈ s.tasks.live := (hI.well h).ring.loopTask_mem hloop
  have hI' := hI.fixed false
  have h' : Within (fun t skip => I t skip ∧ skip = false) s := ⟨h, hs⟩
  have hfixed : ∀ {m : Exr Flow},
      wp NotDangling m (fun _ => Within fun t skip => I t skip ∧ skip = false) s →
      wp NotDangling m (fun _ s' => Switched script w this task operand op I s s') s := fun hm =>
    wp_mono hm fun _ _ h' => switched_of_fixed h'
  have hkill : K s.tasks.pausingTask this →
      wp NotDangling (kill w this) (fun _ => Within fun t skip => I t skip ∧ skip = false) s :=
    hI'.wp_kill h' hthis
  cases op with
  | none =>
    exact hfixed (wp_thenBreak (hkill (hK this hthis rfl)))
  | some op =>
    by_cases hplain : op.isPlain
    · exact hfixed (wp_mono (hI'.execute_plain hplain s ⟨h', hthis, hcalm⟩) fun _ _ h' => h'.1)
    have hcondition : wp NotDangling (skipWhen (skips script w task operand op))
        (fun _ s' => Switched script w this task operand (some op) I s s') s :=
      ⟨hskip h, fun htrue => ⟨rfl, op, rfl, htrue⟩⟩
    have hthenKill : ∀ {flow : Flow}, K s.tasks.pausingTask this →
        wp NotDangling (kill w this >>= fun _ => pure flow)
          (fun _ s' => Switched script w this task operand (some op) I s s') s := fun hK => by
      refine hfixed ?_
      rw [wp_bind]
      exact hkill hK
    unfold execute
    cases op with
    | iftimeout | if_ | else_ | ifgte | iflt | ifbitmapAll | ifbitmapAny | ifnot | ifre | ifrandom
    | ifred | ifamber | ifgreen | ifthrown | ifclosed | ifstash | ifstashedHere | ifttposition
    | ifRouteHidden | ifRouteInactive | ifRouteActive | ifRouteDisabled => exact hcondition
    | ifreserve =>
      simp only [ifReserve, Exrail.getFlag, wp_bind, wp_get, wp_pure]
      refine wp_ite (fun htaken => ?_) fun hfree => ?_
      · exact ⟨hskip h, fun _ => ⟨rfl, .ifreserve, rfl, htaken⟩⟩
      · refine hfixed ?_
        simp only [thenBreak, Exrail.setFlag, Exrail.note, onTasks, wp_bind, wp_zoom, wp_modify,
          wp_pure]
        exact hI'.acquired this _ h' (by simpa using hfree)
    | ifloco | print =>
      show wp NotDangling (printMessage script w task operand) _ s
      unfold printMessage
      split
      · exact hfixed h'
      · next c hc =>
        refine hfixed (wp_thenBreak (hI'.wp_command h' fun a ha hkills => hK a ha ?_))
        simp only [opcodeKills, hc]
        exact hkills
      · next message hm =>
        refine ⟨hskip h, fun htrue => ⟨rfl, _, rfl, ?_⟩⟩
        simpa [skips, hm] using htrue
    -- sections
    | reserve => exact hfixed (hI'.wp_reserve h' hthis hcalm)
    | free =>
      refine hfixed ?_
      simp only [thenBreak, Exrail.setFlag, Exrail.note, onTasks, wp_bind, wp_zoom, wp_modify, wp_pure]
      exact hI'.freed _ h'
    | freeall => exact hfixed (retains_thenBreak hI'.retains_freeAll s h')
    -- pausing and blinking
    | pause =>
      refine hfixed ?_
      rw [wp_bind]
      refine wp_onStation fun _ rails => ?_
      simp only [thenBreak, onTasks, wp_bind, wp_zoom, wp_modify, wp_pure]
      refine hI'.paused h' fun a ha => ?_
      obtain rfl := PausingTask.task.inj ha
      exact ⟨hthis, hcalm⟩
    | resume => exact hfixed (hI'.wp_resumeAll h' hthis)
    | blink => exact hfixed (hI'.wp_blink h' hloop hcalm)
    | neopixel => exact hfixed (hI'.wp_neopixel h' hloop hcalm)
    -- the flow of control
    | follow => exact hfixed (hI'.wp_jump hM h' hthis fun hnone => hK this hthis ⟨hnone, rfl⟩)
    | randomFollow => exact hfixed (hI'.wp_jump hM h' hthis fun hnone => hK this hthis ⟨hnone, rfl⟩)
    | call => exact hfixed (hI'.wp_callRoute hM h' hthis fun hbad => hK this hthis ⟨hbad, rfl⟩)
    | randomCall =>
      exact hfixed (hI'.wp_callRoute hM h' hthis fun hbad => hK this hthis ⟨hbad, rfl⟩)
    | return_ =>
      exact hfixed (hI'.wp_returnFromCall hM h' hthis fun hempty => hK this hthis ⟨hempty, rfl⟩)
    | endtask | endexrail => exact hthenKill (hK this hthis rfl)
    | signal | roster | onclocktime | onvpSensor | ifTypeOpcodes =>
      exact hthenKill (hK this hthis rfl)
    | onrailsyncon | onrailsyncoff =>
      refine wp_ite (fun _ => hfixed h') fun hbooster => ?_
      exact hthenKill (hK this hthis ⟨by simpa using hbooster, rfl⟩)
    | killall =>
      exact hfixed (wp_thenReturn (hI'.wp_killAll h' fun a ha => hK a ha trivial))
    | _ => exact absurd (by decide) hplain

end Opcodes

/-! ## Calls -/

/-- The block a task is in does not end. -/
def missingEndif (script : Script) (task : RMFT2) : Prop :=
  ((skipFrom script (script.lastCell + 2) 1 task.progCounter).map Prod.snd) = some false

instance (script : Script) (task : RMFT2) : Decidable (missingEndif script task) :=
  inferInstanceAs (Decidable (_ = _))

/-- The opcode is a condition that fails, or `ELSE`. -/
def skipsBlock (script : Script) (w : Inputs) (task : RMFT2) (operand : Int16)
    (op : Option Opcode) (s : Exrail) : Bool :=
  op.any fun op => skips script w task operand op s

/-- The step of a task kills this task. -/
def stepKills (script : Script) (w : Inputs) (this : Addr) (s : Exrail) (a : Addr) : Prop :=
  let task := s.tasks.mem this
  let operand := (arg script task 0).toInt16
  let op := Opcode.ofByte (script.getOpcode task.progCounter)
  ¬ (task.delayTime ≠ 0 ∧ w.millis - task.delayStart < task.delayTime) ∧
    ¬ (script.has Script.featureBlink ∧ task.isBlink) ∧
    (opcodeKills script w this task operand op s.tasks a ∨
      a = this ∧ skipsBlock script w task operand op s ∧ missingEndif script task)

instance (script : Script) (w : Inputs) (this : Addr) (s : Exrail) (a : Addr) :
    Decidable (stepKills script w this s a) :=
  inferInstanceAs (Decidable (_ ∧ _ ∧ _))

/-- The call kills this task. -/
def Turn.kills (script : Script) (turn : Turn) (s : Exrail) (a : Addr) : Prop :=
  match turn with
  | .loop w =>
    match s.tasks.loopTask with
    | none => False
    | some l => serviced s.tasks (s.tasks.next l) ∧ stepKills script w (s.tasks.next l) s a
  | .command _ c => c.kills s.tasks a

instance (script : Script) (turn : Turn) (s : Exrail) (a : Addr) :
    Decidable (turn.kills script s a) := by
  unfold Turn.kills
  split
  · split <;> infer_instance
  · infer_instance

/-- The task that the call gives a step. -/
def Turn.serves (turn : Turn) (s : Exrail) : Option Addr :=
  match turn with
  | .loop _ =>
    match s.tasks.loopTask with
    | none => none
    | some l => if serviced s.tasks (s.tasks.next l) then some (s.tasks.next l) else none
  | .command _ _ => none

/-- `loop` gives a step to the task behind `loopTask`, if it is serviced. -/
theorem Turn.serves_eq_some (h : (Turn.loop w).serves s = some this) :
    ∃ l, s.tasks.loopTask = some l ∧ this = s.tasks.next l ∧ serviced s.tasks this := by
  simp only [Turn.serves] at h
  split at h
  · cases h
  · next l hl =>
    split at h
    · next hserviced =>
      obtain rfl := Option.some.inj h
      exact ⟨l, hl, rfl, hserviced⟩
    · cases h

theorem kills_of_serves (hserves : (Turn.loop w).serves s = some this)
    (h : stepKills script w this s a) : (Turn.loop w).kills script s a := by
  obtain ⟨l, hl, rfl, hserviced⟩ := Turn.serves_eq_some hserves
  rw [Turn.kills]
  simp only [hl]
  exact ⟨hserviced, h⟩

/-- The conditions look at neither the flag nor `loopTask`. -/
theorem skips_eq {op : Opcode} {s s' : Exrail}
    (h : s' = { s with skipIf := s'.skipIf, tasks.loopTask := s'.tasks.loopTask }) :
    skips script w task operand op s' = skips script w task operand op s := by
  rw [h]
  cases op <;> rfl

/-- Which tasks a step kills does not depend on the flag or on `loopTask`. -/
theorem stepKills.of_pointed {s s' : Exrail}
    (hs' : s' = { s with skipIf := s'.skipIf, tasks.loopTask := s'.tasks.loopTask })
    (h : stepKills script w this s' a) : stepKills script w this s a := by
  have hskips : ∀ task operand op,
      skipsBlock script w task operand op s' = skipsBlock script w task operand op s := by
    intro task operand op
    simp only [skipsBlock, skips_eq hs']
  simp only [stepKills, hskips] at h
  rw [hs'] at h
  exact h

section Calls

variable (hI : Lasting script M K I)

include hI

/-- The program counter is moved. -/
theorem Lasting.within_moveTo (hM : M this) (h : Within I s) (pc : Int) :
    Within I { s with tasks := s.tasks.write this fun task => { task with progCounter := pc } } :=
  hI.moved (f := fun task => { task with progCounter := pc }) hM h fun _ => rfl

theorem Lasting.wp_skipIfBlock (hM : M this) (h : Within I s) (hthis : this ∈ s.tasks.live)
    (hK : ∀ pc, skipFrom script (script.lastCell + 2) 1 (s.tasks.mem this).progCounter =
      some (pc, false) → K s.tasks.pausingTask this) :
    wp NotDangling (skipIfBlock script w this) (fun _ => Within I) s := by
  simp only [skipIfBlock, wp_bind, wp_get]
  split
  · exact Crash.noConfusion
  · next pc found hskip =>
    have hmoved := hI.within_moveTo hM h pc
    simp only [moveTo, onTasks, wp_bind, wp_zoom, wp_modify, wp_pure]
    refine wp_when (fun hfound => ?_) fun _ => hmoved
    rw [hfound] at hskip
    exact hI.wp_kill hmoved hthis (hK pc hskip)

/-- Behind the switch the task moves on, or over the block that it skips, and what lasts is kept. -/
theorem Lasting.wp_proceed {flow : Flow} (hM : M this) (h : Within I s) (hskip : s.skipIf = true →
    this ∈ s.tasks.live ∧ ∀ pc, skipFrom script (script.lastCell + 2) 1
      (s.tasks.mem this).progCounter = some (pc, false) → K s.tasks.pausingTask this) :
    wp NotDangling (proceed script w this flow) (fun _ => Within I) s := by
  cases flow with
  | returns => exact h
  | breaks =>
    have hmove : Retains I (do
        let s ← get
        moveTo this (progCounterOf s this + 3)) :=
      keeps_get_bind fun _ => fun _ h => hI.within_moveTo hM h _
    simp only [proceed, wp_bind, wp_get]
    refine wp_ite (fun htrue => ?_) fun _ => ?_
    · rw [wp_bind]
      refine wp_mono (hI.wp_skipIfBlock hM h (hskip htrue).1 (hskip htrue).2) fun found s' h' => ?_
      exact wp_when (fun _ => hmove s' h') fun _ => h'
    · rw [wp_bind, wp_pure]
      exact keeps_when (fun _ => hmove) s h

/-- A blinking task goes on blinking the same pin. -/
theorem Lasting.wp_blinkStep (h : Within I s) (hthis : this ∈ s.tasks.live)
    (hblink : (s.tasks.mem this).isBlink) :
    wp NotDangling (blinkStep script w this task) (fun _ => Within I) s := by
  have htoggle : ∀ (state : BlinkState) (delay : UInt32),
      wp NotDangling (do
        Exrail.writeTask this fun task => { task with blinkState := state }
        delayMe w this delay) (fun _ => Within I) s := by
    intro state delay
    rw [wp_bind]
    refine Exrail.wp_write hthis ?_
    have hstate : Within I { s with tasks := s.tasks.write this fun task =>
        { task with blinkState := state } } :=
      hI.write (f := fun task => { task with blinkState := state }) h hthis
        ⟨rfl, rfl, rfl, rfl, rfl, fun _ _ => ⟨hblink, rfl⟩⟩
    refine Exrail.wp_write hthis ?_
    exact hI.write (f := fun task => { task with delayTime := delay, delayStart := w.millis })
      hstate hthis ⟨rfl, rfl, rfl, rfl, rfl, fun _ h => ⟨h, rfl⟩⟩
  unfold blinkStep
  split
  · exact htoggle _ _
  · exact htoggle _ _

/-- A call of `loop2` keeps what lasts, if the tasks that it kills are ones that may be killed. -/
theorem Lasting.wp_loop2 (hM : M this) (hskip : ∀ {t skip skip'}, I t skip → I t skip')
    (h : Within I s)
    (hloop : s.tasks.loopTask = some this)
    (hK : ∀ a ∈ s.tasks.live, stepKills script w this s a → K s.tasks.pausingTask a) :
    wp NotDangling (loop2 script w this) (fun _ => Within I) s := by
  have hthis : this ∈ s.tasks.live := (hI.well h).ring.loopTask_mem hloop
  simp only [loop2, wp_bind]
  refine wp_read hthis ?_
  refine wp_ite (fun _ => h) fun hready => ?_
  refine wp_ite (fun hblink => ?_) fun hcalm => ?_
  · exact hI.wp_blinkStep h hthis hblink.2
  · simp only [wp_bind, wp_modify]
    have hcalm' : script.has Script.featureBlink → (s.tasks.mem this).isBlink = false :=
      fun hfeature => by simpa using fun hblink => hcalm ⟨hfeature, hblink⟩
    refine wp_mono (hI.wp_execute (s := { s with skipIf := false }) hM hskip (hskip h) rfl hloop hcalm'
      fun a ha hkills => hK a ha ⟨hready, hcalm, .inl hkills⟩) fun flow s' hs' => ?_
    refine hI.wp_proceed hM hs'.within fun htrue => ?_
    obtain ⟨htasks, op, hop, hskips⟩ := hs'.skipIf htrue
    rw [htasks]
    refine ⟨hthis, fun pc hpc => hK this hthis ⟨hready, hcalm, .inr ⟨rfl, ?_, ?_⟩⟩⟩
    · rw [skipsBlock, hop, Option.any_some, ← hskips]
      exact (skips_eq rfl).symm
    · rw [missingEndif, hpc]
      rfl

/-- A call of `loop` keeps what lasts, if the tasks that it kills are ones that may be killed. -/
theorem Lasting.wp_loop (hM : ∀ a, (Turn.loop w).serves s = some a → M a)
    (hskip : ∀ {t skip skip'}, I t skip → I t skip') (h : Within I s)
    (hK : ∀ a ∈ s.tasks.live, (Turn.loop w).kills script s a → K s.tasks.pausingTask a) :
    wp NotDangling (loop script w) (fun _ => Within I) s := by
  simp only [loop, wp_bind, wp_get]
  split
  · exact h
  · next l hl =>
    have hring := (hI.well h).ring
    have hlive := hring.loopTask_mem hl
    simp only [wp_bind]
    refine wp_read hlive ?_
    simp only [onTasks, wp_zoom, wp_modify]
    have hpointed : Within I { s with tasks.loopTask := some (s.tasks.mem l).next } :=
      hI.pointed h (hring.next_mem hlive)
    refine wp_when (fun hserviced => ?_) fun _ => hpointed
    refine hI.wp_loop2 (hM _ (by simp only [Turn.serves, hl]; exact if_pos hserviced)) hskip hpointed
      rfl fun a ha hkills => hK a ha ?_
    rw [Turn.kills, hl]
    exact ⟨hserviced, hkills.of_pointed rfl⟩

/-- **One call.** -/
theorem Lasting.wp_turn {turn : Turn} (hM : ∀ a, turn.serves s = some a → M a)
    (hskip : ∀ {t skip skip'}, I t skip → I t skip') (h : Within I s)
    (hK : ∀ a ∈ s.tasks.live, turn.kills script s a → K s.tasks.pausingTask a) :
    wp NotDangling (turn.exec script) (fun _ => Within I) s := by
  cases turn with
  | loop w => exact hI.wp_loop hM hskip h hK
  | command w c => exact hI.wp_command h hK

theorem Lasting.retains_begin : Retains I (begin script w) := by
  refine keeps_bind (keeps_when fun _ => keeps_runProg fun _ _ => hI.retains_doSignal rfl) fun _ => ?_
  exact keeps_runProg fun _ _ => hI.retains_newTask

/-- **Runs.** -/
theorem Lasting.wp_run {turns : List Turn} (hM : ∀ a, M a)
    (hskip : ∀ {t skip skip'}, I t skip → I t skip') (h : Within I s)
    (hK : AlongProg (Turn.exec script) (fun s turn => ∀ a ∈ s.tasks.live,
      turn.kills script s a → K s.tasks.pausingTask a) turns s) :
    wp NotDangling (runProg (Turn.exec script) turns) (fun _ => Within I) s :=
  wp_runProg (Within I) (fun _ _ hK h => hI.wp_turn (fun a _ => hM a) hskip h hK) h hK

end Calls

/-- **Runs from the start-up.** A property that holds at start-up and that every call keeps holds in
every state that is reached. -/
theorem Kept.wp_begin {J : Tasks → Prop} (hJ : Kept script K J) {rails : JoinStation}
    {turnouts : List Turnout} {mem : Addr → RMFT2} (h : J (Tasks.init mem)) :
    wp NotDangling (begin script w) (fun _ s => s.tasks.Well script ∧ J s.tasks)
      (init rails turnouts mem) :=
  (hJ.lasting (M := fun _ => True)).retains_begin _ ⟨⟨ring_init mem, fun _ a ha => by cases ha⟩, h⟩

theorem Kept.wp_run {J : Tasks → Prop} (hJ : Kept script K J) {turns : List Turn}
    (h : s.tasks.Well script ∧ J s.tasks)
    (hK : AlongProg (Turn.exec script) (fun s turn => ∀ a ∈ s.tasks.live,
      turn.kills script s a → K s.tasks.pausingTask a) turns s) :
    wp NotDangling (runProg (Turn.exec script) turns) (fun _ s => s.tasks.Well script ∧ J s.tasks)
      s :=
  (hJ.lasting (M := fun _ => True)).wp_run (fun _ => trivial) (fun h => h) h hK

/-- The same for a property that does not depend on which tasks are killed. -/
theorem Kept.wp_begin_run {J : Tasks → Prop} (hJ : Kept script (fun _ _ => True) J)
    {rails : JoinStation} {turnouts : List Turnout} {mem : Addr → RMFT2} {turns : List Turn}
    (h : J (Tasks.init mem)) :
    wp NotDangling (history script w turns)
      (fun _ s => s.tasks.Well script ∧ J s.tasks) (init rails turnouts mem) := by
  rw [history, wp_bind]
  refine wp_mono (hJ.wp_begin h) fun _ s hs => hJ.wp_run hs ?_
  exact alongProg_of_forall (fun _ _ _ _ _ _ => trivial) s

end Exrail

end CommandStation
