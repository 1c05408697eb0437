import CommandStation.EXRAIL2.Effects

/-!
# Opcodes that keep to themselves

Most opcodes leave the flow of control, the sections, the pausing task and the blinking tasks alone.
Whatever such an opcode does, the task that carries it out still exists afterwards and is where it
was, and every steady property is kept.
-/

namespace CommandStation

open CommandStation.Lib CommandStation.Tasks

/-- The opcode leaves the flow of control, sections, the pausing task and blinking tasks alone. -/
def Opcode.isPlain (op : Opcode) : Bool :=
  !opensIf op.toByte &&
    match op with
    | .else_ | .reserve | .free | .freeall | .pause | .resume | .blink | .neopixel | .follow
    | .randomFollow | .call | .randomCall | .return_ | .endtask | .endexrail | .killall | .print
    | .onrailsyncon | .onrailsyncoff | .signal | .roster | .onclocktime | .onvpSensor
    | .ifTypeOpcodes => false
    | _ => true

namespace Exrail

variable {script : Script} {w : Inputs} {I : Tasks → Bool → Prop} {s : Exrail} {this : Addr}
  {task : RMFT2} {operand : Int16}

/-- The property, while a task takes its step. -/
def During (script : Script) (this : Addr) (I : Tasks → Bool → Prop) (t : Tasks) (skip : Bool) :
    Prop :=
  I t skip ∧ this ∈ t.live ∧ (script.has Script.featureBlink → (t.mem this).isBlink = false)

/-- While a task takes its step, what is steady stays so. -/
theorem Steady.during (hI : Steady script I) : Steady script (During script this I) where
  well h := hI.well h.1
  flag id on off hmasks h :=
    ⟨hI.flag id on off hmasks h.1, by rw [setFlag_live]; exact h.2.1, by rw [setFlag_mem]; exact h.2.2⟩
  write {t skip a f} h ha hf := by
    refine ⟨hI.write h.1 ha hf, h.2.1, fun hfeature => ?_⟩
    by_cases heq : this = a
    · subst heq
      rw [write_mem_self]
      by_contra hblink
      have := hf.blink hfeature (by simpa using hblink)
      rw [h.2.2 hfeature] at this
      exact Bool.noConfusion this.1
    · rw [write_mem, if_neg heq]
      exact h.2.2 hfeature
  create {t t' skip a} h hc hwell := by
    have hne : this ≠ a := fun heq => hc.fresh (heq ▸ h.2.1)
    refine ⟨hI.create h.1 hc hwell, ?_, fun hfeature => ?_⟩
    · rw [hc.live]
      exact List.mem_cons_of_mem a h.2.1
    · rw [(hc.others this hne).isBlink]
      exact h.2.2 hfeature
  killBlink {t t' skip a} hfeature h hblink hk := by
    have hne : this ≠ a := by
      rintro rfl
      rw [h.2.2 hfeature] at hblink
      cases hblink
    refine ⟨hI.killBlink hfeature h.1 hblink hk, ?_, fun _ => ?_⟩
    · rw [hk.live]
      exact (List.mem_erase_of_ne hne).mpr h.2.1
    · rw [(hk.others this).isBlink]
      exact h.2.2 hfeature

theorem retains_thenBreak {α : Type} {m : Exr α} (h : Retains I m) : Retains I (thenBreak m) :=
  keeps_bind h fun _ => keeps_pure _

theorem retains_thenReturn {α : Type} {m : Exr α} (h : Retains I m) : Retains I (thenReturn m) :=
  keeps_bind h fun _ => keeps_pure _

theorem retains_ifLoco {α : Type} {m : Exr α} (h : Retains I m) : Retains I (ifLoco task m) :=
  retains_thenBreak (keeps_when fun _ => keeps_bind h fun _ => keeps_pure _)

theorem retains_station {α : Type} {m : Dcc α} : Retains I (thenBreak (onStation m)) :=
  retains_thenBreak retains_onStation

theorem retains_changeSpeed {least : UInt8} {f : Platform → UInt8 → UInt8} :
    Retains I (changeSpeed w task least f) := by
  refine retains_ifLoco (keeps_get_bind fun _ => keeps_bind retains_onStation fun _ => ?_)
  exact keeps_when fun _ => retains_setSpeed

section Own

variable (hI : Steady script I)

include hI

/-- The task that takes the step writes to itself. -/
theorem Steady.retains_own {f : RMFT2 → RMFT2} (hf : ∀ task : RMFT2,
    (script.has Script.featureBlink → task.isBlink = false) → Minor script task (f task)) :
    Retains (During script this I) (Exrail.writeTask this f) :=
  fun _ h => hI.during.wp_minor h h.2.1 (hf _ h.2.2)

theorem Steady.retains_delayMe {delay : UInt32} :
    Retains (During script this I) (delayMe w this delay) :=
  hI.retains_own fun _ _ => ⟨rfl, rfl, rfl, rfl, rfl, fun _ h => ⟨h, rfl⟩⟩

/-- The timer shares its memory with the pin of a blinking task. -/
theorem Steady.retains_timer {f : RMFT2 → RMFT2} (hf : ∀ task : RMFT2, f task =
    { task with timer := (f task).timer, blinkState := (f task).blinkState })
    (hblink : ∀ task : RMFT2, (f task).isBlink → task.isBlink) :
    Retains (During script this I) (Exrail.writeTask this f) := by
  refine hI.retains_own fun task htask => ?_
  refine ⟨?_, ?_, ?_, ?_, ?_, fun hfeature h => ?_⟩
  · rw [hf]
  · rw [hf]
  · rw [hf]
  · rw [hf]
  · rw [hf]
  · have := hblink task h
    rw [htask hfeature] at this
    cases this

theorem Steady.retains_waitUntil {c : Exrail → Bool} {delay : UInt32} :
    Retains (During script this I) (waitUntil w this c delay) :=
  keeps_get_bind fun _ => keeps_ite (fun _ => keeps_pure _) fun _ =>
    retains_thenReturn hI.retains_delayMe

theorem Steady.retains_waitAfter {c : Exrail → Bool} {time : UInt32} :
    Retains (During script this I) (waitAfter w this task c time) := by
  refine keeps_get_bind fun _ => keeps_ite (fun _ => ?_) fun _ =>
    keeps_ite (fun _ => keeps_pure _) fun _ => keeps_pure _
  refine keeps_bind (hI.retains_timer (fun _ => rfl) fun _ h => h) fun _ => ?_
  exact retains_thenReturn hI.retains_delayMe

theorem Steady.retains_at {c : Exrail → Bool} : Retains (During script this I) (at_ w this c) :=
  keeps_bind (hI.retains_timer (fun _ => rfl) nofun) fun _ => hI.retains_waitUntil

theorem Steady.retains_atTimeout2 :
    Retains (During script this I) (atTimeout2 script w this task operand) := by
  refine keeps_get_bind fun _ => keeps_ite (fun _ => keeps_pure _) fun _ => ?_
  refine keeps_ite (fun _ => ?_) fun _ => retains_thenReturn hI.retains_delayMe
  exact retains_thenBreak (hI.retains_timer (fun _ => rfl) nofun)

theorem Steady.retains_afterOverload :
    Retains (During script this I) (afterOverload w this task operand) := by
  refine keeps_get_bind fun s => keeps_bind ?_ fun on => hI.retains_waitAfter
  unfold isPowerOn
  split
  · exact fun _ _ => Crash.noConfusion
  · exact keeps_pure _

theorem Steady.retains_startRoute {route : Int16} {loco : UInt16} {invert : Bool} {also : Exr Unit}
    (halso : Retains I also) : Retains I (startRoute script w route loco invert also) :=
  retains_thenBreak (keeps_when fun _ => keeps_bind hI.retains_newTask fun _ => halso)

theorem Steady.retains_setPins : Retains I (setPins script w task operand) :=
  retains_thenBreak (keeps_runProg fun _ _ => hI.retains_killBlinkOnVpin)

end Own

theorem retains_setPower : Retains I (setPower script task operand) :=
  keeps_ite (fun _ => retains_station) fun _ =>
    keeps_ite (fun _ => retains_station) fun _ => keeps_pure _

theorem retains_consist : Retains I (consist task operand) :=
  retains_thenBreak (keeps_ite (fun _ => retains_onStation) fun _ =>
    keeps_bind retains_onStation fun _ => keeps_pure _)

theorem retains_manageRouteState {id : Int16} {state : UInt8} :
    Retains I (manageRouteState script id state) := by
  unfold manageRouteState
  split
  · exact keeps_pure ()
  · exact keeps_when fun _ => retains_modify (fun _ => rfl) fun _ => rfl

/-- **Plain opcodes** keep what is steady, and the task is still there. -/
theorem Steady.execute_plain (hI : Steady script I) {op : Opcode} (hop : op.isPlain) :
    Retains (During script this I) (execute script w this task operand (some op)) := by
  have hD : Steady script (During script this I) := hI.during
  have hloco : ∀ {f : RMFT2 → RMFT2}, (∀ task : RMFT2, f task =
      { task with loco := (f task).loco, invert := (f task).invert }) →
      Retains (During script this I) (Exrail.writeTask this f) := fun hf =>
    hI.retains_own fun task _ => by
      refine ⟨?_, ?_, ?_, ?_, ?_, fun _ h => ?_⟩
      all_goals rw [hf]
      rw [hf] at h
      exact ⟨h, rfl⟩
  have hstate : ∀ {f : Exrail → Exrail}, (∀ s, (f s).tasks = s.tasks) →
      (∀ s, (f s).skipIf = s.skipIf) →
      Retains (During script this I) (thenBreak (modify f : Exr PUnit)) := fun hf hskip =>
    retains_thenBreak (retains_modify hf hskip)
  unfold execute
  cases op with
  -- speeds and functions of locos
  | rev | fwd => exact retains_ifLoco retains_setThrottle
  | speed => exact retains_ifLoco retains_setSpeed
  | speedup | speedRel | slowdown => exact retains_changeSpeed
  | xfwd | xrev => exact retains_thenBreak retains_setThrottle
  | saveSpeed | restoreSpeed => exact retains_ifLoco retains_onStation
  | xsaveSpeed | xrestoreSpeed | xpom | xfon | xfoff | xftoggle => exact retains_station
  | momentum | setfreq => exact keeps_get_bind fun _ => retains_station
  | pom | fon | foff | ftoggle => exact keeps_get_bind fun _ => retains_ifLoco retains_onStation
  | estopall => exact keeps_ite (fun _ => retains_station) fun _ => retains_station
  | consist => exact retains_consist
  | forget => exact retains_ifLoco (keeps_bind retains_onStation fun _ => hloco fun _ => rfl)
  -- the loco of the task
  | invertDirection | setloco => exact retains_thenBreak (hloco fun _ => rfl)
  | pickupStash =>
    refine keeps_get_bind fun s => retains_thenBreak (hloco fun task => ?_)
    split <;> rfl
  | readLoco2 =>
    refine keeps_get_bind fun s => keeps_ite (fun _ => ?_) fun _ => ?_
    · exact retains_thenReturn hI.retains_delayMe
    · exact retains_thenBreak (hloco fun _ => rfl)
  -- turnouts, accessories and signals
  | throw | close => exact retains_thenBreak hD.retains_setClosed
  | toggleTurnout => exact keeps_get_bind fun _ => retains_thenBreak hD.retains_setClosed
  | rotate => exact retains_thenBreak hD.retains_setPosition
  | dccactivate => exact retains_thenBreak hD.retains_setAccessory
  | aspect =>
    refine keeps_bind hD.retains_signalAspectEvent fun _ => retains_thenBreak (keeps_when fun _ => ?_)
    exact keeps_bind retains_onStation fun _ => keeps_pure _
  | red | amber | green => exact retains_thenBreak (hD.retains_doSignal rfl)
  | latch | unlatch => exact retains_thenBreak (hD.retains_setFlag rfl)
  | set | reset => exact hD.retains_setPins
  -- waiting
  | at_ | atgte | atlt => exact hI.retains_at
  | after => exact hI.retains_waitAfter
  | afteroverload => exact hI.retains_afterOverload
  | attimeout1 => exact retains_thenBreak (hI.retains_timer (fun _ => rfl) nofun)
  | attimeout2 => exact hI.retains_atTimeout2
  | delay | delayms | delaymins | randwait => exact retains_thenBreak hI.retains_delayMe
  | waitfor | waitfortt => exact hI.retains_waitUntil
  | waitWhileRed =>
    refine keeps_get_bind fun s => keeps_ite (fun _ => ?_) fun _ => keeps_pure _
    refine keeps_bind (keeps_when fun _ => ?_) fun _ => retains_thenReturn hI.retains_delayMe
    exact keeps_bind retains_onStation fun _ => keeps_when fun _ => retains_setSpeed
  -- new tasks
  | start | startShared | sendloco => exact hD.retains_startRoute (keeps_pure ())
  | startSend => exact hD.retains_startRoute (hloco fun _ => rfl)
  -- tracks
  | poweroff =>
    exact keeps_bind retains_onStation fun _ => keeps_bind retains_onStation fun _ =>
      retains_thenBreak retains_onRails
  | poweron => exact keeps_bind retains_onStation fun _ => retains_thenBreak retains_onRails
  | join =>
    exact keeps_bind retains_onRails fun _ => keeps_bind retains_onStation fun _ => retains_station
  | unjoin => exact retains_thenBreak retains_onRails
  | setPower => exact retains_setPower
  | setTrack => exact retains_thenBreak retains_onRails
  | readLoco1 =>
    exact keeps_bind (retains_modify (fun _ => rfl) fun _ => rfl) fun _ =>
      retains_thenBreak retains_onRails
  -- routes and the stash
  | routeHidden | routeInactive | routeActive | routeDisabled =>
    exact retains_thenBreak retains_manageRouteState
  | stash | clearStash | clearAllStash => exact hstate (fun _ => rfl) fun _ => rfl
  | clearAnyStash => exact retains_ifLoco (retains_modify (fun _ => rfl) fun _ => rfl)
  -- nothing, or nothing that comes back
  | route | automation | sequence | drive | autostart | pad | turnout | servoturnout | pinturnout
  | onclose | onlcc | onacon | onacof | onthrow | onactivate | ondeactivate | onred | onamber
  | ongreen | onchange | ontime | onbutton | onsensor | onbitmap | dccturntable | exttturntable
  | ttaddposition | onrotate | onoverload | onblockenter | onblockexit | lcc | acon | acof | lccx
  | servo | bitmapInc | bitmapDec | bitmapAnd | bitmapOr | bitmapXor | endif => exact keeps_pure _
  | _ => exact absurd hop (by decide)

end Exrail

end CommandStation
