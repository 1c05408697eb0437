import CommandStation.Lib.Framing
import CommandStation.DCCACK.Programs

/-!
# What a program does

The interpreter waits a lot, but apart from that an opcode does one of six things, its `Action`: all
proofs about the interpreter are by cases on these and not on the opcodes.

`perform` runs a program without any waiting against a device at the other end of the track. It gives
the packets the program sends, the value it calls back, and what becomes of the device. The device may
be a decoder, or `oracle`, a list of answers given in advance.
-/

namespace CommandStation

open CommandStation.Lib

/-- What an opcode does. -/
inductive Action where
  | start                                         -- wait for resets and power
  | send (packet : List UInt8) (write : Bool)     -- wait for resets, then send
  | wait                                          -- wait for the answer
  | next (r : AckRegisters)
  | skip
  | call (value : Int16) (r : AckRegisters)
  deriving DecidableEq, Repr

/-- Call back if the condition holds. -/
def Action.callIf (r : AckRegisters) (condition : Bool) (value : Int16) : Action :=
  if condition then .call value r else .next r

def AckOp.action (op : AckOp) (r : AckRegisters) : Action :=
  match op with
  | .baseline => .start
  | .w0 => .send (r.writeBit false) true
  | .w1 => .send (r.writeBit true) true
  | .wb => .send r.writeByte true
  | .vb => .send r.verifyByte false
  | .v0 => .send (r.verifyBit false) false
  | .v1 => .send (r.verifyBit true) false
  | .wack => .wait
  | .itc0 => .callIf r r.ackReceived 0
  | .itc1 => .callIf r r.ackReceived 1
  | .itcb => .callIf r r.ackReceived r.ackManagerByte.toUInt16.toInt16
  | .itcbv => .callIf r r.ackReceived r.ackManagerByte.toUInt16.toInt16
  | .itcb7 => .callIf r r.ackReceived (r.ackManagerByte &&& 0x7F).toUInt16.toInt16
  | .nakfail => .callIf r (!r.ackReceived) (-1)
  | .callfail => .call (-1) r
  | .biv => .next { r with ackManagerByte := r.ackManagerByteVerify }
  | .startmerge => .next { r with ackManagerBitNum := 7, ackManagerByte := 0 }
  | .merge => .next { r with
      ackManagerByte := (r.ackManagerByte <<< 1) ||| (if !r.ackReceived then 1 else 0)
      ackManagerBitNum := r.ackManagerBitNum - 1 }
  | .setbit bit => .next { r with ackManagerBitNum := bit }
  | .setcv cv => .next { r with ackManagerCv := cv.toUInt16 }
  | .setbyte byte => .next { r with ackManagerByte := byte }
  | .setbyteh => .next { r with ackManagerByte := (r.ackManagerWord >>> 8).toUInt8 }
  | .setbytel => .next { r with ackManagerByte := r.ackManagerWord.toUInt8 }
  | .stashlocoid => .next { r with ackManagerStash := r.ackManagerByte }
  | .combinelocoid => .call r.combineLocoId r
  | .combine1920 =>
    let r := { r with ackManagerByte := (r.ackManagerByte &&& 0x7F) % 100 }
    .call r.combine1920 r
  | .itskip => if r.ackReceived then .skip else .next r
  | .nakskip => if r.ackReceived then .next r else .skip
  | .bad20skip => if 120 < r.ackManagerByte then .skip else .next r
  | .failIfNonzeroNak => if r.ackManagerByte = 0 then .next r else .call (-4) r
  | .skiptarget => .next r

/-- An opcode that calls back does so again, with the same value. -/
theorem AckOp.action_of_call {op : AckOp} {r r' : AckRegisters} {value : Int16}
    (h : op.action r = .call value r') : op.action r' = .call value r' := by
  have hdigits : ∀ b : UInt8, ((b &&& 0x7F) % 100 &&& 0x7F) % 100 = (b &&& 0x7F) % 100 := by
    apply byte_forall
    decide +kernel
  cases op
  case combine1920 =>
    simp only [action, Action.call.injEq] at h ⊢
    obtain ⟨rfl, rfl⟩ := h
    simp only [hdigits, and_self]
  all_goals
    simp only [action, Action.callIf] at h ⊢
    try split at h
    all_goals first | (cases h; simp_all) | cases h

namespace DCCACK

variable {κ : Type}

/-- **What a turn does**: the action of the opcode. -/
theorem execute_eq (s : DCCACK κ) (i : AckInput) (op : AckOp) (rest : List AckOp) :
    s.execute i op rest = match op.action s.registers with
      | .start =>
        if s.getPower = some .overload then s
        else if i.resets < (if s.autoPowerOff || s.ackManagerRejoin then 20 else 3) then s
        else { s with callbackState := .afterRead }.goTo rest
      | .send packet false => s.send i packet rest
      | .send packet true => s.sendWrite i packet rest
      | .wait => match i.ack with
        | none => s
        | some ack => { s with
            registers := { s.registers with ackReceived := ack }
            attempt := { s.attempt with acks := s.attempt.acks ++ [ack] } }.goTo rest
      | .next r => { s with registers := r }.goTo rest
      | .skip => s.goTo (skipped rest)
      | .call value r => { s with registers := r }.callback value i.millis := by
  cases op <;> simp only [execute, AckOp.action, callbackIf, Action.callIf]
  all_goals first
    | rfl
    | (split <;> first | rfl | simp_all)

/-! ## One turn -/

/-- What the current opcode does. -/
def action (s : DCCACK κ) : Option Action :=
  s.ackManagerProg.bind fun program => program.head?.map fun op => op.action s.registers

variable {s : DCCACK κ} {op : AckOp} {rest : List AckOp}

theorem turn_eq (h : s.ackManagerProg = some (op :: rest)) (i : AckInput) :
    s.turn i = s.execute i op rest := by
  rw [turn, h]

theorem action_eq (h : s.ackManagerProg = some (op :: rest)) :
    s.action = some (op.action s.registers) := by
  rw [action, h]
  rfl

/-- The state after a packet was sent. -/
def sent (s : DCCACK κ) (packet : List UInt8) (write : Bool) (rest : List AckOp) : DCCACK κ :=
  { s with
    attempt := { s.attempt with packets := s.attempt.packets ++ [packet] }
    callbackState := if write then .afterWrite else s.callbackState
    ackManagerProg := some rest }

/-- The state after an answer. -/
def answered (s : DCCACK κ) (ack : Bool) (rest : List AckOp) : DCCACK κ :=
  { s with
    registers := { s.registers with ackReceived := ack }
    attempt := { s.attempt with acks := s.attempt.acks ++ [ack] }
    ackManagerProg := some rest }

theorem turn_start (h : s.ackManagerProg = some (op :: rest)) (ha : op.action s.registers = .start)
    (i : AckInput) :
    s.turn i =
      if s.getPower = some .overload then s
      else if i.resets < (if s.autoPowerOff || s.ackManagerRejoin then 20 else 3) then s
      else { s with callbackState := .afterRead, ackManagerProg := some rest } := by
  rw [turn_eq h, execute_eq, ha]
  rfl

theorem turn_send (h : s.ackManagerProg = some (op :: rest)) {packet : List UInt8} {write : Bool}
    (ha : op.action s.registers = .send packet write) (i : AckInput) :
    s.turn i = if i.resets < resetMin then s else s.sent packet write rest := by
  rw [turn_eq h, execute_eq, ha]
  cases write <;> rfl

theorem turn_wait (h : s.ackManagerProg = some (op :: rest)) (ha : op.action s.registers = .wait)
    (i : AckInput) : s.turn i = i.ack.elim s fun ack => s.answered ack rest := by
  rw [turn_eq h, execute_eq, ha]
  cases i.ack <;> rfl

theorem turn_next (h : s.ackManagerProg = some (op :: rest)) {r : AckRegisters}
    (ha : op.action s.registers = .next r) (i : AckInput) :
    s.turn i = { s with registers := r, ackManagerProg := some rest } := by
  rw [turn_eq h, execute_eq, ha]
  rfl

theorem turn_skip (h : s.ackManagerProg = some (op :: rest)) (ha : op.action s.registers = .skip)
    (i : AckInput) : s.turn i = { s with ackManagerProg := some (skipped rest) } := by
  rw [turn_eq h, execute_eq, ha]
  rfl

theorem turn_call (h : s.ackManagerProg = some (op :: rest)) {value : Int16} {r : AckRegisters}
    (ha : op.action s.registers = .call value r) (i : AckInput) :
    s.turn i = { s with registers := r }.callback value i.millis := by
  rw [turn_eq h, execute_eq, ha]

/-! ## The states of `callback` -/

theorem leave_afterRead (h : s.callbackState = .afterRead) (value : Int16) (millis : UInt32) :
    s.leave value millis =
      if s.ackManagerRejoin && !s.autoPowerOff then s.off30ms millis
      else { s with callbackState := .ready } := by
  rw [leave, h]

theorem leave_afterWrite (h : s.callbackState = .afterWrite) (value : Int16) (millis : UInt32) :
    s.leave value millis =
      if !s.ackManagerRejoin && !s.autoPowerOff then { s with callbackState := .ready }
      else { s with callbackStart := millis, callbackState := .waiting100 } := by
  rw [leave, h]

theorem leave_waiting100 (h : s.callbackState = .waiting100) (value : Int16) (millis : UInt32) :
    s.leave value millis =
      if millis - s.callbackStart < 100 then s
      else if s.autoPowerOff then { s with callbackState := .ready }
      else s.off30ms millis := by
  rw [leave, h]

theorem leave_waiting30 (h : s.callbackState = .waiting30) (value : Int16) (millis : UInt32) :
    s.leave value millis =
      if millis - s.callbackStart < 30 then s
      else { s.setPower .on with callbackState := .ready } := by
  rw [leave, h]

theorem leave_ready (h : s.callbackState = .ready) (value : Int16) (millis : UInt32) :
    s.leave value millis = s.complete value := by
  rw [leave, h]

/-! ## Calls -/

/-- No callback is made. -/
structure Quiet (s s' : DCCACK κ) : Prop where
  active : s'.isActive = s.isActive
  callback : s'.ackManagerCallback = s.ackManagerCallback
  calls : s'.calls = s.calls

/-- The callback is made if no more is to be waited for. -/
theorem leave_quiet_or_calls (s : DCCACK κ) (value : Int16) (millis : UInt32) :
    Quiet s (s.leave value millis) ∨
      (s.leave value millis).isActive = false ∧
      (s.leave value millis).ackManagerCallback = s.ackManagerCallback ∧
      (s.leave value millis).calls = s.calls ++ [(s.ackManagerCallback, value)] := by
  have hquiet : ∀ s' : DCCACK κ, s'.ackManagerProg = s.ackManagerProg →
      s'.ackManagerCallback = s.ackManagerCallback → s'.calls = s.calls → Quiet s s' :=
    fun s' hprog hcallback hcalls => ⟨congrArg Option.isSome hprog, hcallback, hcalls⟩
  rw [leave]
  split
  · split <;> exact .inl (hquiet _ rfl rfl rfl)
  · split <;> exact .inl (hquiet _ rfl rfl rfl)
  · split
    · exact .inl (hquiet _ rfl rfl rfl)
    · split <;> exact .inl (hquiet _ rfl rfl rfl)
  · split <;> exact .inl (hquiet _ rfl rfl rfl)
  · exact .inr ⟨rfl, rfl, rfl⟩

/-- **What a turn does to the callbacks.** -/
theorem turn_quiet_or_calls (s : DCCACK κ) (i : AckInput) :
    Quiet s (s.turn i) ∨
      s.isActive = true ∧ (s.turn i).isActive = false ∧
      (s.turn i).ackManagerCallback = s.ackManagerCallback ∧
      ∃ value, (s.turn i).calls = s.calls ++ [(s.ackManagerCallback, value)] := by
  have hself : Quiet s s := ⟨rfl, rfl, rfl⟩
  cases hprog : s.ackManagerProg with
  | none =>
    rw [turn, hprog]
    exact .inl hself
  | some program =>
    have hactive : s.isActive = true := by rw [isActive, hprog]; rfl
    cases program with
    | nil =>
      rw [turn, hprog]
      exact .inl hself
    | cons op rest =>
      -- only an opcode that calls back can be other than quiet
      cases ha : op.action s.registers with
      | start =>
        rw [turn_start hprog ha]
        refine .inl ?_
        by_cases hover : s.getPower = some .overload
        · rw [if_pos hover]
          exact hself
        rw [if_neg hover]
        by_cases hreset : i.resets < (if s.autoPowerOff || s.ackManagerRejoin then 20 else 3)
        · rw [if_pos hreset]
          exact hself
        · rw [if_neg hreset]
          exact ⟨hactive.symm, rfl, rfl⟩
      | send packet write =>
        rw [turn_send hprog ha]
        split
        · exact .inl hself
        · exact .inl ⟨hactive.symm, rfl, rfl⟩
      | wait =>
        rw [turn_wait hprog ha]
        cases i.ack with
        | none => exact .inl hself
        | some ack => exact .inl ⟨hactive.symm, rfl, rfl⟩
      | next r =>
        rw [turn_next hprog ha]
        exact .inl ⟨hactive.symm, rfl, rfl⟩
      | skip =>
        rw [turn_skip hprog ha]
        exact .inl ⟨hactive.symm, rfl, rfl⟩
      | call value r =>
        rw [turn_call hprog ha, callback]
        split
        · exact .inl ⟨hactive.symm, rfl, rfl⟩
        · rcases leave_quiet_or_calls { s with registers := r } value i.millis with
            hquiet | ⟨hstopped, hcallback, hcalls⟩
          · exact .inl ⟨hquiet.active, hquiet.callback, hquiet.calls⟩
          · exact .inr ⟨hactive, hstopped, hcallback, value, hcalls⟩

theorem length_skipped (rest : List AckOp) : (skipped rest).length ≤ rest.length := by
  have hle := (List.dropWhile_suffix (l := rest) fun op => op != AckOp.skiptarget).length_le
  rw [skipped, List.length_drop]
  omega

end DCCACK

/-! ## Without waiting -/

/-- The other end of the track: packets are sent to it, and it is asked for an answer. -/
structure Device (δ : Type) where
  send : δ → List UInt8 → δ
  ack : δ → Option (Bool × δ)

/-- The answers are these, whatever is sent. -/
def oracle : Device (List Bool) where
  send acks _ := acks
  ack
    | [] => none
    | ack :: acks => some (ack, acks)

/-- What a program has done. There is no result where an answer is missing. -/
structure Performed (δ : Type) where
  packets : List (List UInt8)
  result : Option Int16
  device : δ

/-- With packets sent before. -/
def Performed.after {δ : Type} (packets : List (List UInt8)) (p : Performed δ) : Performed δ :=
  { p with packets := packets ++ p.packets }

variable {δ : Type}

def perform (dev : Device δ) : List AckOp → AckRegisters → δ → Performed δ
  | [], _, d => ⟨[], none, d⟩
  | op :: rest, r, d =>
    match op.action r with
    | .start => perform dev rest r d
    | .send packet _ => (perform dev rest r (dev.send d packet)).after [packet]
    | .wait =>
      match dev.ack d with
      | none => ⟨[], none, d⟩
      | some (ack, d) => perform dev rest { r with ackReceived := ack } d
    | .next r => perform dev rest r d
    | .skip => perform dev (DCCACK.skipped rest) r d
    | .call value _ => ⟨[], some value, d⟩
  termination_by program => program.length
  decreasing_by
    all_goals
      have := DCCACK.length_skipped rest
      simp only [List.length_cons]
      omega


section

variable {dev : Device δ} {op : AckOp} {rest : List AckOp} {r : AckRegisters} {d : δ}

theorem perform_start (h : op.action r = .start) :
    perform dev (op :: rest) r d = perform dev rest r d := by
  rw [perform, h]

theorem perform_send {packet : List UInt8} {write : Bool} (h : op.action r = .send packet write) :
    perform dev (op :: rest) r d = (perform dev rest r (dev.send d packet)).after [packet] := by
  rw [perform, h]

theorem perform_wait {ack : Bool} {d' : δ} (h : op.action r = .wait)
    (hack : dev.ack d = some (ack, d')) :
    perform dev (op :: rest) r d = perform dev rest { r with ackReceived := ack } d' := by
  rw [perform, h]
  simp only [hack]

theorem perform_wait_none (h : op.action r = .wait) (hack : dev.ack d = none) :
    perform dev (op :: rest) r d = ⟨[], none, d⟩ := by
  rw [perform, h]
  simp only [hack]

theorem perform_next {r' : AckRegisters} (h : op.action r = .next r') :
    perform dev (op :: rest) r d = perform dev rest r' d := by
  rw [perform, h]

theorem perform_skip (h : op.action r = .skip) :
    perform dev (op :: rest) r d = perform dev (DCCACK.skipped rest) r d := by
  rw [perform, h]

theorem perform_call {value : Int16} {r' : AckRegisters} (h : op.action r = .call value r') :
    perform dev (op :: rest) r d = ⟨[], some value, d⟩ := by
  rw [perform, h]

end

end CommandStation
