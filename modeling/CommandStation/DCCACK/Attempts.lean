import CommandStation.DCCACK.Registers
import CommandStation.DCCACK.Tracks

/-!
# From `Setup` to the callback

Between `Setup` and the callback the interpreter is somewhere in the program (`Running`) and after the
callback it has stopped (`Finished`). Both say what has been sent in each attempt, and how the tracks
have been changed. The power is switched off only in the state `WAITING_30`.
-/

namespace CommandStation

open CommandStation.Lib

namespace DCCACK

variable {κ : Type}

/-- The power is on again after it was off. -/
theorem setPower_on_off {s : DCCACK κ} (h : s.getPower = some .on) :
    (s.progDriver.elim (s.progDriver.elim s.tracks fun t => s.tracks.setPower t .off) fun t =>
      (s.progDriver.elim s.tracks fun t => s.tracks.setPower t .off).setPower t .on) = s.tracks := by
  rw [getPower] at h
  cases hdriver : s.progDriver with
  | none => rfl
  | some t =>
    rw [hdriver] at h
    change (s.tracks.setPower t .off).setPower t .on = _
    rw [ProgTracks.setPower_setPower, ProgTracks.setPower_of_power h]

/-- The attempt is over: it has sent what the program sends, for these answers. -/
def Attempted (program : List AckOp) (r : AckRegisters) (a : Attempt) (value : Int16) : Prop :=
  ∀ acks, perform oracle program r (a.acks ++ acks) = ⟨a.packets, some value, acks⟩

/-- What is the same in all of a run from `s₁` on. -/
structure Continues (s₁ s : DCCACK κ) : Prop where
  start : s.ackManagerProgStart = s₁.ackManagerProgStart
  rejoin : s.ackManagerRejoin = s₁.ackManagerRejoin
  autoPowerOff : s.autoPowerOff = s₁.autoPowerOff
  driver : s.progDriver = s₁.progDriver
  callback : s.ackManagerCallback = s₁.ackManagerCallback
  count : s.past.length + s.ackManagerRetry.toNat = s₁.ackManagerRetry.toNat
  past : ∀ a ∈ s.past, Attempted s₁.ackManagerProgStart s₁.registers a (-1)

/-- Where the interpreter is between two turns: at the start of the program, between two opcodes, or
at an opcode that has called back already. -/
inductive Phase (s₁ s : DCCACK κ) (program : List AckOp) : Prop
  | begin (h : program = s₁.ackManagerProgStart) (htracks : s.tracks = s₁.tracks)
  | work (h : s.callbackState = .afterRead ∨ s.callbackState = .afterWrite)
      (htracks : s.tracks = s₁.tracks)
  | stable (h : s.callbackState = .waiting100 ∨ s.callbackState = .ready) {op : AckOp}
      {rest : List AckOp} {value : Int16} (hprogram : program = op :: rest)
      (hcall : op.action s.registers = .call value s.registers)
      (hfinal : ¬ (value = -1 ∧ 0 < s.ackManagerRetry))
      (htracks : s₁.getPower = some .on → s.tracks = s₁.tracks)
  | gap (h : s.callbackState = .waiting30) {op : AckOp} {rest : List AckOp} {value : Int16}
      (hprogram : program = op :: rest) (hcall : op.action s.registers = .call value s.registers)
      (hfinal : ¬ (value = -1 ∧ 0 < s.ackManagerRetry))
      (htracks : s₁.getPower = some .on → s.tracks = (s₁.setPower .off).tracks)

/-- The interpreter is at `program`, the rest of what it was started with. -/
structure Running (s₁ s : DCCACK κ) (program : List AckOp) : Prop extends Continues s₁ s where
  prog : s.ackManagerProg = some program
  suffix : program <:+ s₁.ackManagerProgStart
  registers : ∀ x ∉ s₁.ackManagerProgStart.flatMap AckOp.defs, x.Same s₁.registers s.registers
  calls : s.calls = s₁.calls
  now : ∀ acks, perform oracle s₁.ackManagerProgStart s₁.registers (s.attempt.acks ++ acks) =
    (perform oracle program s.registers acks).after s.attempt.packets
  phase : Phase s₁ s program

/-- The interpreter has called back. -/
structure Finished (s₁ s : DCCACK κ) (value : Int16) : Prop extends Continues s₁ s where
  prog : s.ackManagerProg = none
  calls : s.calls = s₁.calls ++ [(s₁.ackManagerCallback, value)]
  last : Attempted s₁.ackManagerProgStart s₁.registers s.attempt value
  tracks : s₁.getPower = some .on → s.tracks = s₁.restored

/-! ## One turn -/

section

variable {s₁ s : DCCACK κ} {op : AckOp} {rest program : List AckOp}

/-- Between two opcodes, if this one neither starts the program nor calls back. -/
theorem Phase.working (h : Phase s₁ s (op :: rest))
    (hrep : AckOp.Repeatable s₁.ackManagerProgStart)
    (hstart : op.action s.registers ≠ .start)
    (hcall : ∀ value, op.action s.registers ≠ .call value s.registers) :
    (s.callbackState = .afterRead ∨ s.callbackState = .afterWrite) ∧ s.tracks = s₁.tracks := by
  cases h with
  | begin hprogram htracks =>
    have hhead := hrep.1
    rw [← hprogram] at hhead
    obtain rfl : op = .baseline := by simpa using hhead
    exact absurd rfl hstart
  | work hstate htracks => exact ⟨hstate, htracks⟩
  | stable _ hprogram haction _ _ =>
    cases hprogram
    exact absurd haction (hcall _)
  | gap _ hprogram haction _ _ =>
    cases hprogram
    exact absurd haction (hcall _)

theorem Phase.tracks_of_start (h : Phase s₁ s (op :: rest))
    (hstart : op.action s.registers = .start) : s.tracks = s₁.tracks := by
  cases h with
  | begin _ htracks => exact htracks
  | work _ htracks => exact htracks
  | stable _ hprogram haction _ _ =>
    cases hprogram
    rw [hstart] at haction
    cases haction
  | gap _ hprogram haction _ _ =>
    cases hprogram
    rw [hstart] at haction
    cases haction

/-- What the program does not write, this opcode does not write. -/
theorem Running.not_defs (h : Running s₁ s (op :: rest)) {x : Register}
    (hx : x ∉ s₁.ackManagerProgStart.flatMap AckOp.defs) : x ∉ op.defs := by
  intro hdefs
  exact hx (List.mem_flatMap.mpr ⟨op, h.suffix.subset List.mem_cons_self, hdefs⟩)

theorem Performed.after_after {δ : Type} (p : Performed δ) (l l' : List (List UInt8)) :
    (p.after l').after l = p.after (l ++ l') := by
  simp [Performed.after]

/-- At its start an attempt waits for the power and for resets. -/
theorem Running.start_turn (h : Running s₁ s (op :: rest)) (ha : op.action s.registers = .start)
    (i : AckInput) : ∃ program, Running s₁ (s.turn i) program := by
  rw [turn_start h.prog ha]
  by_cases hover : s.getPower = some .overload
  · rw [if_pos hover]
    exact ⟨op :: rest, h⟩
  rw [if_neg hover]
  by_cases hreset : i.resets < (if s.autoPowerOff || s.ackManagerRejoin then 20 else 3)
  · rw [if_pos hreset]
    exact ⟨op :: rest, h⟩
  rw [if_neg hreset]
  refine ⟨rest, { h with
    prog := rfl
    suffix := (List.suffix_cons op rest).trans h.suffix
    now := ?_
    phase := .work (.inl rfl) (h.phase.tracks_of_start ha) }⟩
  intro acks
  rw [h.now, perform_start ha]

variable (hrep : AckOp.Repeatable s₁.ackManagerProgStart)

include hrep

/-- When an attempt sends a packet, the packet is the next of its program. -/
theorem Running.send_turn (h : Running s₁ s (op :: rest)) {packet : List UInt8} {write : Bool}
    (ha : op.action s.registers = .send packet write) (i : AckInput) :
    ∃ program, Running s₁ (s.turn i) program := by
  obtain ⟨hstate, htracks⟩ := h.phase.working hrep (by rw [ha]; exact nofun) (by rw [ha]; exact nofun)
  rw [turn_send h.prog ha]
  split
  · exact ⟨op :: rest, h⟩
  · refine ⟨rest, { h with
      prog := rfl
      suffix := (List.suffix_cons op rest).trans h.suffix
      now := ?_
      phase := .work ?_ htracks }⟩
    · intro acks
      rw [sent, h.now, perform_send ha, Performed.after_after]
      rfl
    · cases write with
      | true => exact .inr rfl
      | false => exact hstate

/-- While it waits for the answer, an attempt is still the same attempt. -/
theorem Running.wait_turn (h : Running s₁ s (op :: rest)) (ha : op.action s.registers = .wait)
    (i : AckInput) : ∃ program, Running s₁ (s.turn i) program := by
  obtain ⟨hstate, htracks⟩ := h.phase.working hrep (by rw [ha]; exact nofun) (by rw [ha]; exact nofun)
  rw [turn_wait h.prog ha]
  cases i.ack with
  | none => exact ⟨op :: rest, h⟩
  | some ack =>
    refine ⟨rest, { h with
      prog := rfl
      suffix := (List.suffix_cons op rest).trans h.suffix
      registers := ?_
      now := ?_
      phase := .work hstate htracks }⟩
    · intro x hx
      have hsame := h.registers x hx
      have hdefs := h.not_defs hx
      cases x with
      | received =>
        rw [AckOp.defs_of_wait ha] at hdefs
        exact absurd List.mem_cons_self hdefs
      | _ => exact hsame
    · intro acks
      have hnow := h.now (ack :: acks)
      rw [perform_wait ha rfl] at hnow
      simpa [answered] using hnow

/-- An opcode that only sets registers sets them as the program says. -/
theorem Running.next_turn (h : Running s₁ s (op :: rest)) {r : AckRegisters}
    (ha : op.action s.registers = .next r) (i : AckInput) :
    ∃ program, Running s₁ (s.turn i) program := by
  obtain ⟨hstate, htracks⟩ := h.phase.working hrep (by rw [ha]; exact nofun) (by rw [ha]; exact nofun)
  rw [turn_next h.prog ha]
  refine ⟨rest, { h with
    prog := rfl
    suffix := (List.suffix_cons op rest).trans h.suffix
    registers := ?_
    now := ?_
    phase := .work hstate htracks }⟩
  · intro x hx
    exact (h.registers x hx).trans (AckOp.same_of_next ha (h.not_defs hx))
  · intro acks
    rw [h.now, perform_next ha]

theorem Running.skip_turn (h : Running s₁ s (op :: rest)) (ha : op.action s.registers = .skip)
    (i : AckInput) : ∃ program, Running s₁ (s.turn i) program := by
  obtain ⟨hstate, htracks⟩ := h.phase.working hrep (by rw [ha]; exact nofun) (by rw [ha]; exact nofun)
  rw [turn_skip h.prog ha]
  have hskipped : skipped rest <:+ rest :=
    (List.drop_suffix 1 _).trans (List.dropWhile_suffix _)
  refine ⟨skipped rest, { h with
    prog := rfl
    suffix := hskipped.trans ((List.suffix_cons op rest).trans h.suffix)
    now := ?_
    phase := .work hstate htracks }⟩
  intro acks
  rw [h.now, perform_skip ha]

omit hrep in
/-- The attempt that this opcode ends. -/
theorem Running.attempted (h : Running s₁ s (op :: rest)) {value : Int16} {r : AckRegisters}
    (ha : op.action s.registers = .call value r) :
    Attempted s₁.ackManagerProgStart s₁.registers s.attempt value := by
  intro acks
  rw [h.now, perform_call ha, Performed.after, List.append_nil]

omit hrep in
/-- The opcode stays the current one, with the registers as it leaves them. -/
theorem Running.at_call (h : Running s₁ s (op :: rest)) {value : Int16} {r : AckRegisters}
    (ha : op.action s.registers = .call value r) {tracks : ProgTracks} {state : CallbackState}
    {start : UInt32}
    (hphase : Phase s₁
      { s with registers := r, tracks := tracks, callbackState := state, callbackStart := start }
      (op :: rest)) :
    Running s₁
      { s with registers := r, tracks := tracks, callbackState := state, callbackStart := start }
      (op :: rest) := by
  refine { h with registers := ?_, now := ?_, phase := hphase }
  · intro x hx
    exact (h.registers x hx).trans (AckOp.same_of_call ha (h.not_defs hx))
  · intro acks
    rw [h.now, perform_call ha, perform_call (AckOp.action_of_call ha)]

/-- The phase in which an opcode calls back. -/
theorem Phase.calling (h : Phase s₁ s (op :: rest)) {value : Int16} {r : AckRegisters}
    (ha : op.action s.registers = .call value r) :
    (s.callbackState = .afterRead ∨ s.callbackState = .afterWrite) ∧ s.tracks = s₁.tracks ∨
    r = s.registers ∧ ¬ (value = -1 ∧ 0 < s.ackManagerRetry) ∧
      ((s.callbackState = .waiting100 ∨ s.callbackState = .ready) ∧
          (s₁.getPower = some .on → s.tracks = s₁.tracks) ∨
        s.callbackState = .waiting30 ∧
          (s₁.getPower = some .on → s.tracks = (s₁.setPower .off).tracks)) := by
  cases h with
  | begin hprogram htracks =>
    have hhead := hrep.1
    rw [← hprogram] at hhead
    obtain rfl : op = .baseline := by simpa using hhead
    cases ha
  | work hstate htracks => exact .inl ⟨hstate, htracks⟩
  | stable hstate hprogram haction hfinal htracks =>
    cases hprogram
    rw [ha] at haction
    cases haction
    exact .inr ⟨rfl, hfinal, .inl ⟨hstate, htracks⟩⟩
  | gap hstate hprogram haction hfinal htracks =>
    cases hprogram
    rw [ha] at haction
    cases haction
    exact .inr ⟨rfl, hfinal, .inr ⟨hstate, htracks⟩⟩

/-- A retry. -/
theorem Running.retry_turn (h : Running s₁ s (op :: rest)) {value : Int16} {r : AckRegisters}
    (ha : op.action s.registers = .call value r) (hretry : value = -1 ∧ 0 < s.ackManagerRetry)
    (i : AckInput) : ∃ program, Running s₁ (s.turn i) program := by
  have htracks : s.tracks = s₁.tracks := by
    rcases h.phase.calling hrep ha with ⟨-, htracks⟩ | ⟨-, hfinal, -⟩
    · exact htracks
    · exact absurd hretry hfinal
  have hregisters : ∀ x ∉ s₁.ackManagerProgStart.flatMap AckOp.defs, x.Same s₁.registers r :=
    fun x hx => (h.registers x hx).trans (AckOp.same_of_call ha (h.not_defs hx))
  rw [turn_call h.prog ha, callback, if_pos hretry]
  refine ⟨s.ackManagerProgStart, { h with
    count := ?_
    past := ?_
    prog := rfl
    suffix := h.start ▸ List.suffix_refl _
    registers := hregisters
    now := ?_
    phase := .begin h.start htracks }⟩
  · have hcount := h.count
    have hpos := UInt8.lt_iff_toNat_lt.mp hretry.2
    have hsub : (s.ackManagerRetry - 1).toNat = s.ackManagerRetry.toNat - 1 :=
      UInt8.toNat_sub_of_le _ _ (UInt8.le_iff_toNat_le.mpr hpos)
    rw [List.length_append, List.length_singleton]
    change s.past.length + 1 + (s.ackManagerRetry - 1).toNat = _
    change 0 < _ at hpos
    omega
  · intro a ha'
    rcases List.mem_append.mp ha' with hpast | hlast
    · exact h.past a hpast
    · rw [List.mem_singleton.mp hlast, ← hretry.1]
      exact h.attempted ha
  · intro acks
    rw [List.nil_append, h.start]
    exact AckOp.perform_congr (fun x hx => hregisters x (hrep.2 x hx).1) acks

/-- The way to the callback. -/
theorem Running.leave_turn (h : Running s₁ s (op :: rest)) {value : Int16} {r : AckRegisters}
    (ha : op.action s.registers = .call value r)
    (hfinal : ¬ (value = -1 ∧ 0 < s.ackManagerRetry)) (i : AckInput) :
    (∃ program, Running s₁ (s.turn i) program) ∨ ∃ value, Finished s₁ (s.turn i) value := by
  have ha' := AckOp.action_of_call ha
  have hready : (s₁.getPower = some .on → s.tracks = s₁.tracks) → ∃ program,
      Running s₁ { s with registers := r, callbackState := .ready } program :=
    fun htracks => ⟨_, h.at_call ha (.stable (.inr rfl) rfl ha' hfinal htracks)⟩
  have hgap : (s₁.getPower = some .on → s.tracks = s₁.tracks) → ∀ millis, ∃ program,
      Running s₁ (({ s with registers := r } : DCCACK κ).off30ms millis) program := by
    intro htracks millis
    refine ⟨_, h.at_call ha (.gap rfl rfl ha' hfinal fun hpower => ?_)⟩
    simp only [setPower, h.driver, htracks hpower]
  rw [turn_call h.prog ha, callback, if_neg hfinal]
  rcases h.phase.calling hrep ha with ⟨hstate | hstate, htracks⟩ |
    ⟨rfl, -, ⟨hstate | hstate, htracks⟩ | ⟨hstate, htracks⟩⟩
  · -- after a read
    rw [leave_afterRead (s := { s with registers := r }) hstate]
    split
    · exact .inl (hgap (fun _ => htracks) _)
    · exact .inl (hready fun _ => htracks)
  · -- after a write
    rw [leave_afterWrite (s := { s with registers := r }) hstate]
    split
    · exact .inl (hready fun _ => htracks)
    · exact .inl ⟨_, h.at_call ha (.stable (.inl rfl) rfl ha' hfinal fun _ => htracks)⟩
  · -- the power is kept on
    rw [leave_waiting100 (s := { s with registers := s.registers }) hstate]
    split
    · exact .inl ⟨_, h⟩
    · split
      · exact .inl (hready htracks)
      · exact .inl (hgap htracks _)
  · -- the callback
    rw [leave_ready (s := { s with registers := s.registers }) hstate]
    refine .inr ⟨value, { h with
      prog := rfl
      calls := ?_
      last := h.attempted ha
      tracks := fun hpower => ?_ }⟩
    · rw [← h.calls, ← h.callback]
      rfl
    · change s.restored = _
      simp only [restored, setPower, h.autoPowerOff, h.rejoin, h.driver, htracks hpower]
  · -- the power is off
    rw [leave_waiting30 (s := { s with registers := s.registers }) hstate]
    split
    · exact .inl ⟨_, h⟩
    · refine .inl ⟨_, h.at_call ha (.stable (.inr rfl) rfl ha' hfinal fun hpower => ?_)⟩
      simp only [setPower, h.driver, htracks hpower]
      exact setPower_on_off hpower

/-- **What a turn does to a run.** -/
theorem Running.turn (h : Running s₁ s program) (i : AckInput) :
    (∃ program, Running s₁ (s.turn i) program) ∨ ∃ value, Finished s₁ (s.turn i) value := by
  cases program with
  | nil =>
    refine .inl ⟨[], ?_⟩
    rw [DCCACK.turn, h.prog]
    exact h
  | cons op rest =>
    cases ha : op.action s.registers with
    | start => exact .inl (h.start_turn ha i)
    | send packet write => exact .inl (h.send_turn hrep ha i)
    | wait => exact .inl (h.wait_turn hrep ha i)
    | next r => exact .inl (h.next_turn hrep ha i)
    | skip => exact .inl (h.skip_turn hrep ha i)
    | call value r =>
      by_cases hretry : value = -1 ∧ 0 < s.ackManagerRetry
      · exact .inl (h.retry_turn hrep ha hretry i)
      · exact h.leave_turn hrep ha hretry i

/-- **What a run does**: it is still going on, or has called back. -/
theorem running_or_finished (h : Running s₁ s₁ s₁.ackManagerProgStart) (is : List AckInput) :
    (∃ program, Running s₁ (run DCCACK.turn s₁ is) program) ∨
      ∃ value, Finished s₁ (run DCCACK.turn s₁ is) value := by
  apply inv_run_of_step
    (fun s => (∃ program, Running s₁ s program) ∨ ∃ value, Finished s₁ s value) _ (.inl ⟨_, h⟩)
  intro s i hs
  rcases hs with ⟨program, hrunning⟩ | ⟨value, hfinished⟩
  · exact hrunning.turn hrep i
  · have hturn : s.turn i = s := by rw [DCCACK.turn, hfinished.prog]
    rw [hturn]
    exact .inr ⟨value, hfinished⟩

end

/-- A callback of someone else makes no difference. -/
theorem Running.appendCalls {s₁ s : DCCACK κ} {program : List AckOp} (h : Running s₁ s program)
    (l : List (κ × Int16)) :
    Running { s₁ with calls := s₁.calls ++ l } { s with calls := s.calls ++ l } program := by
  refine ⟨⟨h.start, h.rejoin, h.autoPowerOff, h.driver, h.callback, h.count, h.past⟩, h.prog, h.suffix,
    h.registers, congrArg (· ++ l) h.calls, h.now, ?_⟩
  cases h.phase with
  | begin hprogram htracks => exact .begin hprogram htracks
  | work hstate htracks => exact .work hstate htracks
  | stable hstate hprogram hcall hfinal htracks =>
    exact .stable hstate hprogram hcall hfinal htracks
  | gap hstate hprogram hcall hfinal htracks => exact .gap hstate hprogram hcall hfinal htracks

/-! ## `Setup` -/

variable {s : DCCACK κ} {t : Nat} {cv : UInt16} {b : UInt8} {program : List AckOp} {cb : κ}

theorem autoPowerOn_eq (s : DCCACK κ) : s.autoPowerOn = { s with
    autoPowerOff := decide (s.getPower = some .off)
    tracks := if s.getPower = some .off then (s.setPower .on).tracks else s.tracks } := by
  rw [autoPowerOn]
  by_cases h : s.getPower = some .off
  · simp only [h, if_true, decide_true]
    rfl
  · simp only [h, if_false, decide_false]

/-- The state in which `Setup` leaves the interpreter. -/
theorem setup_eq (h : s.tracks.CanStart t) :
    s.setup cv b program cb = ({ s with
      ackManagerRejoin := s.tracks.isJoined
      progDriver := some t
      autoPowerOff := decide (s.tracks.unjoined.power t = some .off)
      tracks := if s.tracks.unjoined.power t = some .off then s.tracks.unjoined.setPower t .on
        else s.tracks.unjoined } : DCCACK κ).load cv b program cb := by
  rw [setup]
  simp only [h.driver, h.measure, if_true]
  rw [autoPowerOn_eq]
  rfl

theorem progStart_setup (h : s.tracks.CanStart t) :
    (s.setup cv b program cb).ackManagerProgStart = program := by
  rw [setup_eq h]
  rfl

theorem running_setup (h : s.tracks.CanStart t) :
    Running (s.setup cv b program cb) (s.setup cv b program cb)
      (s.setup cv b program cb).ackManagerProgStart := by
  rw [setup_eq h]
  refine ⟨⟨rfl, rfl, rfl, rfl, rfl, Nat.zero_add _, fun a ha => absurd ha List.not_mem_nil⟩, rfl,
    List.suffix_refl _, ?_, rfl, fun acks => rfl, .begin rfl rfl⟩
  intro x _
  cases x <;> rfl

/-- The power while a program is running. -/
theorem power_setup (h : s.tracks.CanStart t) :
    (s.setup cv b program cb).getPower =
      if s.tracks.power t = some .off then some .on else s.tracks.power t := by
  rw [setup_eq h, ← ProgTracks.power_unjoined h.driver]
  change ProgTracks.power (ite _ _ _) t = _
  by_cases hoff : s.tracks.unjoined.power t = some .off
  · rw [if_pos hoff, if_pos hoff]
    exact ProgTracks.power_setPower (by rw [hoff]; exact nofun) .on
  · rw [if_neg hoff, if_neg hoff]

theorem power_on_setup (h : s.tracks.CanProgram t) :
    (s.setup cv b program cb).getPower = some .on := by
  rw [power_setup h.toCanStart]
  have hpower := h.power
  rw [ProgTracks.power_unjoined h.driver] at hpower
  rcases hpower with hon | hoff
  · rw [hon]
    rfl
  · rw [if_pos hoff]

/-- The tracks as they were, but for a join on the ESP32. -/
theorem restored_setup (h : s.tracks.CanStart t) :
    (s.setup cv b program cb).restored = s.tracks.rejoined := by
  rw [setup_eq h]
  have htracks : (if s.tracks.unjoined.power t = some .off then
      (if s.tracks.unjoined.power t = some .off then s.tracks.unjoined.setPower t .on
        else s.tracks.unjoined).setPower t .off
      else if s.tracks.unjoined.power t = some .off then s.tracks.unjoined.setPower t .on
        else s.tracks.unjoined) = s.tracks.unjoined := by
    by_cases hoff : s.tracks.unjoined.power t = some .off
    · simp only [if_pos hoff]
      rw [ProgTracks.setPower_setPower, ProgTracks.setPower_of_power hoff]
    · simp only [if_neg hoff]
  simp only [restored, load, setPower, Option.elim, decide_eq_true_eq]
  rw [htracks, ProgTracks.rejoined]

theorem Finished.tracks_rejoined {s' : DCCACK κ} {value : Int16}
    (hfinished : Finished (s.setup cv b program cb) s' value) (h : s.tracks.CanProgram t) :
    s'.tracks = s.tracks.rejoined := by
  rw [hfinished.tracks (power_on_setup h), restored_setup h.toCanStart]

/-! ## All attempts -/

/-- The attempts that are over. -/
def ended (s : DCCACK κ) : List Attempt := s.past ++ if s.isActive then [] else [s.attempt]

/-- The registers after two calls of `Setup` with the same arguments. -/
theorem perform_setup_congr {s s₀ : DCCACK κ} {t t₀ : Nat} (h : s.tracks.CanStart t)
    (h₀ : s₀.tracks.CanStart t₀)
    (hword : s₀.registers.ackManagerWord = s.registers.ackManagerWord)
    (hrep : AckOp.Repeatable program) {cb₀ : κ} (acks : List Bool) :
    perform oracle program (s₀.setup cv b program cb₀).registers acks =
      perform oracle program (s.setup cv b program cb).registers acks := by
  apply AckOp.perform_congr
  intro x hx
  obtain ⟨-, hstash, hreceived⟩ := hrep.2 x hx
  rw [setup_eq h, setup_eq h₀]
  cases x with
  | word => exact hword
  | stash => exact absurd rfl hstash
  | received => exact absurd rfl hreceived
  | _ => rfl

/-- What is known of a run after `Setup`. -/
theorem setup_run (h : s.tracks.CanStart t) (hrep : AckOp.Repeatable program)
    (is : List AckInput) :
    (∃ p, Running (s.setup cv b program cb) (run turn (s.setup cv b program cb) is) p) ∨
      ∃ value, Finished (s.setup cv b program cb) (run turn (s.setup cv b program cb) is) value := by
  apply running_or_finished _ (running_setup h) is
  rw [progStart_setup h]
  exact hrep

theorem Continues.setup_past {s' : DCCACK κ} (h : s.tracks.CanStart t)
    (hs' : Continues (s.setup cv b program cb) s') :
    s'.past.length ≤ s.ackRetry.toNat ∧
      ∀ a ∈ s'.past, Attempted program (s.setup cv b program cb).registers a (-1) := by
  have hretry : (s.setup cv b program cb).ackManagerRetry = s.ackRetry := by
    rw [setup_eq h]
    rfl
  have hcount := hs'.count
  rw [hretry] at hcount
  have hpast := hs'.past
  rw [progStart_setup h] at hpast
  exact ⟨by omega, hpast⟩

/-- Every attempt that is over has sent what the program sends. -/
theorem attempted_of_ended (h : s.tracks.CanStart t) (hrep : AckOp.Repeatable program)
    (is : List AckInput) :
    ∀ a ∈ (run turn (s.setup cv b program cb) is).ended,
      ∃ value, Attempted program (s.setup cv b program cb).registers a value := by
  intro a ha
  rcases setup_run h hrep is with ⟨p, hrunning⟩ | ⟨value, hfinished⟩
  · rw [ended, isActive, hrunning.prog] at ha
    simp only [Option.isSome_some, if_true, List.append_nil] at ha
    exact ⟨-1, (hrunning.toContinues.setup_past h).2 a ha⟩
  · rw [ended, isActive, hfinished.prog] at ha
    rcases List.mem_append.mp ha with hpast | hlast
    · exact ⟨-1, (hfinished.toContinues.setup_past h).2 a hpast⟩
    · have hlast' := hfinished.last
      rw [progStart_setup h] at hlast'
      rw [List.mem_singleton.mp hlast]
      exact ⟨value, hlast'⟩

/-- **From `Setup` to the callback.** The callback is made once at most, after no more than
`ackRetry + 1` attempts, with the power and the join as `Setup` has found them; and a retry sends what
the first attempt of any other `Setup` with the same arguments sends for the same answers. -/
theorem setup_calls_once (s₀ : DCCACK κ) {t₀ : Nat} (h : s.tracks.CanProgram t)
    (h₀ : s₀.tracks.CanProgram t₀)
    (hword : s₀.registers.ackManagerWord = s.registers.ackManagerWord)
    (hprogram : program ∈ AckProgram.all) (cv : UInt16) (b : UInt8) (cb cb₀ : κ)
    (is js : List AckInput) :
    let s' := run turn (s.setup cv b program cb) is
    let fresh := run turn (s₀.setup cv b program cb₀) js
    (s'.calls = s.calls ∨
      ∃ value, s'.calls = s.calls ++ [(cb, value)] ∧ s'.tracks.power t = s.tracks.power t ∧
        s'.tracks.isJoined = s.tracks.isJoined) ∧
    s'.past.length + 1 ≤ s.ackRetry.toNat + 1 ∧
    ∀ first ∈ fresh.ended.head?,
      (∀ a ∈ s'.ended, a.acks = first.acks → a.packets = first.packets) ∧
      (s'.attempt.acks <+: first.acks → s'.attempt.packets <+: first.packets) := by
  intro s' fresh
  have hstart := h.toCanStart
  have hrep := AckOp.repeatable_all program hprogram
  have hrun := @setup_run κ s t cv b program cb hstart hrep is
  have hcalls : (s.setup cv b program cb).calls = s.calls := by rw [setup_eq hstart]; rfl
  have hcallback : (s.setup cv b program cb).ackManagerCallback = cb := by
    rw [setup_eq hstart]
    rfl
  refine ⟨?_, ?_, ?_⟩
  · rcases hrun with ⟨p, hrunning⟩ | ⟨value, hfinished⟩
    · exact .inl (hrunning.calls.trans hcalls)
    · have htracks := hfinished.tracks_rejoined h
      refine .inr ⟨value, ?_, ?_, ?_⟩
      · rw [hfinished.calls, hcalls, hcallback]
      · rw [htracks, ProgTracks.power_rejoined hstart]
      · rw [htracks, ProgTracks.isJoined_rejoined hstart]
  · rcases hrun with ⟨p, hrunning⟩ | ⟨value, hfinished⟩
    · exact Nat.succ_le_succ (hrunning.toContinues.setup_past hstart).1
    · exact Nat.succ_le_succ (hfinished.toContinues.setup_past hstart).1
  · -- both runs perform the same program on the same registers, so the answers decide the packets
    intro first hfirst
    obtain ⟨value₀, hattempted⟩ :=
      attempted_of_ended h₀.toCanStart hrep js first (List.mem_of_head? hfirst)
    have hfirst' : perform oracle program (s.setup cv b program cb).registers first.acks =
        ⟨first.packets, some value₀, []⟩ := by
      rw [← hattempted [], List.append_nil, ← perform_setup_congr hstart h₀.toCanStart hword hrep]
    constructor
    · intro a ha hacks
      obtain ⟨value, hended⟩ := attempted_of_ended hstart hrep is a ha
      have heq := hended []
      rw [List.append_nil, hacks, hfirst'] at heq
      exact (congrArg Performed.packets heq).symm
    · intro hle
      obtain ⟨acks, hacks⟩ := hle
      rcases hrun with ⟨p, hrunning⟩ | ⟨value, hfinished⟩
      · have hnow := hrunning.now acks
        rw [progStart_setup hstart, hacks, hfirst'] at hnow
        exact ⟨_, (congrArg Performed.packets hnow).symm⟩
      · have hlast := hfinished.last acks
        rw [progStart_setup hstart, hacks, hfirst'] at hlast
        exact ⟨[], by rw [List.append_nil]; exact (congrArg Performed.packets hlast).symm⟩

/-- Nothing is running, and there are two retries. -/
def idle (tracks : ProgTracks) (cb : κ) : DCCACK κ where
  tracks := tracks
  progDriver := none
  ackManagerProg := none
  ackManagerProgStart := []
  registers := ⟨0, 0, 0, 0, 0, 0, false⟩
  ackManagerRetry := 0
  ackRetry := 2
  ackManagerRejoin := false
  autoPowerOff := false
  callbackState := .ready
  callbackStart := 0
  ackManagerCallback := cb
  attempt := ⟨[], []⟩
  past := []
  calls := []

/-- A decoder that never answers: both retries are made, and the callback gets -1. -/
theorem setup_calls_once_silent :
    let s : DCCACK Unit := idle .shield ()
    let s' := run turn (s.setup 1 0 AckProgram.readCv ()) (List.replicate 40 ⟨20, some false, 0⟩)
    s'.past.length = 2 ∧ s'.calls = [((), -1)] ∧ s'.tracks.power 1 = some .off ∧
      s'.tracks.isJoined = true ∧
      ∀ a ∈ s'.ended, ∀ first ∈ s'.ended.head?, a.acks = first.acks → a.packets = first.packets := by
  intro s s'
  have hlength : s'.past.length = 2 := by decide +kernel
  have hcalls : s'.calls = [((), -1)] := by decide +kernel
  have hmem : AckProgram.readCv ∈ AckProgram.all := by decide
  obtain ⟨hcall, -, hsame⟩ := setup_calls_once s ProgTracks.canProgram_shield
    ProgTracks.canProgram_shield rfl hmem 1 0 () ()
    (List.replicate 40 ⟨20, some false, 0⟩) (List.replicate 40 ⟨20, some false, 0⟩)
  rcases hcall with hnone | ⟨value, -, hpower, hjoined⟩
  · rw [show (run turn (s.setup 1 0 AckProgram.readCv ()) _).calls = _ from hcalls] at hnone
    cases hnone
  · refine ⟨hlength, hcalls, hpower, hjoined, ?_⟩
    intro a ha first hfirst
    exact (hsame first hfirst).1 a ha

end DCCACK

end CommandStation
