import CommandStation.Lib.Stream
import CommandStation.DCCACK.Perform

/-!
# The interpreter and a device

The interpreter is run against a device, with all its waiting: for resets of the waveform, for the end
of the time in which the device may answer, and for the clock. `bench_calls` says that it does what
`perform` says, and that it calls back in the end.
-/

namespace CommandStation

open CommandStation.Lib

/-- The surroundings in a turn: the resets since the last packet, whether the time for an answer is
over, and the clock. -/
structure Tick where
  resets : UInt8
  expired : Bool
  millis : UInt32
  deriving DecidableEq, Repr

/-- Resets are sent again and again, the time for an answer expires again and again, and the clock
goes on. -/
structure Fair (ticks : Nat → Tick) : Prop where
  resets : ∀ n, ∃ m, n ≤ m ∧ 20 ≤ (ticks m).resets
  expired : ∀ n, ∃ m, n ≤ m ∧ (ticks m).expired = true
  clock : ∀ n, ∃ m, n ≤ m ∧ 100 ≤ (ticks m).millis - (ticks n).millis

/-- 100mS are over after some turns, whenever they began: a clock that has not come that far and is
set back has come less far than before. -/
theorem Fair.elapsed {ticks : Nat → Tick} (h : Fair ticks) (start : UInt32) (n : Nat) :
    ∃ m, n ≤ m ∧ 100 ≤ (ticks m).millis - start := by
  induction hlt : ((ticks n).millis - start).toNat using Nat.strongRecOn generalizing n with
  | _ elapsed ih =>
  by_cases hdone : 100 ≤ (ticks n).millis - start
  · exact ⟨n, Nat.le_refl n, hdone⟩
  obtain ⟨m, hm, hclock⟩ := h.clock n
  have hsum : (ticks m).millis - start =
      ((ticks m).millis - (ticks n).millis) + ((ticks n).millis - start) := by
    rw [UInt32.sub_eq_add_neg, UInt32.sub_eq_add_neg, UInt32.sub_eq_add_neg, UInt32.add_assoc,
      ← UInt32.add_assoc (-(ticks n).millis), UInt32.add_left_neg, UInt32.zero_add]
  have hnat := congrArg UInt32.toNat hsum
  rw [UInt32.toNat_add] at hnat
  rw [UInt32.le_iff_toNat_le] at hdone hclock
  have hbound := ((ticks m).millis - (ticks n).millis).toNat_lt
  change ¬ 100 ≤ _ at hdone
  change 100 ≤ _ at hclock
  by_cases hwrap : ((ticks m).millis - (ticks n).millis).toNat + ((ticks n).millis - start).toNat < 2 ^ 32
  · rw [Nat.mod_eq_of_lt hwrap] at hnat
    refine ⟨m, hm, ?_⟩
    rw [UInt32.le_iff_toNat_le, hnat]
    change 100 ≤ _
    omega
  · obtain ⟨m', hm', hclock'⟩ := ih ((ticks m).millis - start).toNat (by omega) m rfl
    exact ⟨m', Nat.le_trans hm hm', hclock'⟩

/-- Up to 100mS are over after some turns. -/
theorem Fair.passed {ticks : Nat → Tick} (h : Fair ticks) (start : UInt32) (n : Nat) (wait : UInt32)
    (hwait : wait ≤ 100) : ∃ m, n ≤ m ∧ ¬ (ticks m).millis - start < wait := by
  obtain ⟨m, hm, hclock⟩ := h.elapsed start n
  exact ⟨m, hm, UInt32.not_lt.mpr (UInt32.le_trans hwait hclock)⟩

/-- Up to 20 resets have been sent after some turns. -/
theorem Fair.reset {ticks : Nat → Tick} (h : Fair ticks) (n : Nat) (resets : UInt8)
    (hle : resets ≤ 20) : ∃ m, n ≤ m ∧ ¬ (ticks m).resets < resets := by
  obtain ⟨m, hm, hresets⟩ := h.resets n
  exact ⟨m, hm, UInt8.not_lt.mpr (UInt8.le_trans hle hresets)⟩

/-- Nothing has to be waited for but the clock. -/
def steady (n : Nat) : Tick := ⟨20, true, .ofNat (100 * n)⟩

theorem fair_steady : Fair steady := by
  refine ⟨fun n => ⟨n, Nat.le_refl n, UInt8.le_refl 20⟩, fun n => ⟨n, Nat.le_refl n, rfl⟩, fun n => ?_⟩
  refine ⟨n + 1, Nat.le_succ n, ?_⟩
  have hclock : (steady (n + 1)).millis - (steady n).millis = 100 := by
    change UInt32.ofNat (100 * (n + 1)) - UInt32.ofNat (100 * n) = 100
    rw [Nat.mul_succ, UInt32.ofNat_add, UInt32.add_comm]
    exact UInt32.add_sub_cancel _ _
  rw [hclock]
  decide

namespace DCCACK

variable {κ δ : Type}

/-- A turn of the interpreter, and what the device gets of it. -/
def bench (dev : Device δ) (x : DCCACK κ × δ) (t : Tick) : DCCACK κ × δ :=
  (x.1.turn ⟨t.resets, if t.expired then (dev.ack x.2).map Prod.fst else none, t.millis⟩,
    match x.1.action with
    | some (.send packet _) => if t.resets < resetMin then x.2 else dev.send x.2 packet
    | some .wait => if t.expired then ((dev.ack x.2).map Prod.snd).getD x.2 else x.2
    | _ => x.2)

variable {dev : Device δ} {s : DCCACK κ} {d : δ} {op : AckOp} {rest : List AckOp}

/-- The program has called back. -/
structure Called (s s' : DCCACK κ) (value : Int16) : Prop where
  prog : s'.ackManagerProg = none
  calls : s'.calls = s.calls ++ [(s.ackManagerCallback, value)]
  past : s'.past = s.past

/-! ## Calling back -/

/-- The opcode calls back `value`, and there is no retry. -/
structure Calling (s : DCCACK κ) (op : AckOp) (rest : List AckOp) (value : Int16) : Prop where
  prog : s.ackManagerProg = some (op :: rest)
  action : op.action s.registers = .call value s.registers
  final : ¬ (value = -1 ∧ 0 < s.ackManagerRetry)

variable {value : Int16} {ticks : Nat → Tick} {x : DCCACK κ × δ} {n : Nat}

theorem Calling.bench (h : s.Calling op rest value) (t : Tick) :
    bench dev (s, d) t = (s.leave value t.millis, d) := by
  rw [DCCACK.bench]
  simp only [turn_call h.prog h.action, action_eq h.prog, h.action]
  rw [callback, if_neg h.final]

/-- Nothing that matters for calling back is different, but for the power and the state. -/
structure SameCall (s s' : DCCACK κ) : Prop where
  prog : s'.ackManagerProg = s.ackManagerProg
  registers : s'.registers = s.registers
  retry : s'.ackManagerRetry = s.ackManagerRetry
  callback : s'.ackManagerCallback = s.ackManagerCallback
  calls : s'.calls = s.calls
  past : s'.past = s.past

theorem SameCall.calling {s' : DCCACK κ} (h : SameCall s s') (hc : s.Calling op rest value) :
    s'.Calling op rest value := by
  refine ⟨h.prog ▸ hc.prog, ?_, h.retry ▸ hc.final⟩
  rw [h.registers]
  exact hc.action

theorem SameCall.called {s' s'' : DCCACK κ} (h : SameCall s s') (hc : Called s' s'' value) :
    Called s s'' value :=
  ⟨hc.prog, by rw [hc.calls, h.calls, h.callback], by rw [hc.past, h.past]⟩

/-- In the state `READY`. -/
theorem Calling.bench_ready (h : s.Calling op rest value) (hstate : s.callbackState = .ready)
    (hx : states (DCCACK.bench dev) x ticks n = (s, d)) :
    ∃ m, n ≤ m ∧ ∃ s', states (DCCACK.bench dev) x ticks m = (s', d) ∧ Called s s' value := by
  refine ⟨n + 1, Nat.le_succ n, s.leave value (ticks n).millis, ?_, ?_⟩
  · rw [states_succ hx, h.bench]
  · rw [leave_ready hstate]
    exact ⟨rfl, rfl, rfl⟩

/-- In the state `WAITING_30`. -/
theorem Calling.bench_waiting30 (hfair : Fair ticks) (h : s.Calling op rest value)
    (hstate : s.callbackState = .waiting30) (hx : states (DCCACK.bench dev) x ticks n = (s, d)) :
    ∃ m, n ≤ m ∧ ∃ s', states (DCCACK.bench dev) x ticks m = (s', d) ∧ Called s s' value := by
  have hleave : ∀ t : Tick, DCCACK.bench dev (s, d) t =
      (if t.millis - s.callbackStart < 30 then s
        else { s.setPower .on with callbackState := .ready }, d) := by
    intro t
    rw [h.bench, leave_waiting30 hstate]
  obtain ⟨m, hm, hover, hx'⟩ := exists_leaves
    (fun t => t.millis - s.callbackStart < 30)
    (fun t ht => by rw [hleave, if_pos ht]) (hfair.passed s.callbackStart n 30 (by decide)) hx
  have hnext := states_succ hx'
  rw [hleave, if_neg hover] at hnext
  have hsame : SameCall s { s.setPower .on with callbackState := .ready } :=
    ⟨rfl, rfl, rfl, rfl, rfl, rfl⟩
  obtain ⟨m', hm', s', hs', hcalled⟩ := (hsame.calling h).bench_ready rfl hnext
  exact ⟨m', by omega, s', hs', hsame.called hcalled⟩

/-- In the state `WAITING_100`. -/
theorem Calling.bench_waiting100 (hfair : Fair ticks) (h : s.Calling op rest value)
    (hstate : s.callbackState = .waiting100) (hx : states (DCCACK.bench dev) x ticks n = (s, d)) :
    ∃ m, n ≤ m ∧ ∃ s', states (DCCACK.bench dev) x ticks m = (s', d) ∧ Called s s' value := by
  have hleave : ∀ t : Tick, DCCACK.bench dev (s, d) t =
      (if t.millis - s.callbackStart < 100 then s
        else if s.autoPowerOff then { s with callbackState := .ready }
        else s.off30ms t.millis, d) := by
    intro t
    rw [h.bench, leave_waiting100 hstate]
  obtain ⟨m, hm, hover, hx'⟩ := exists_leaves
    (fun t => t.millis - s.callbackStart < 100)
    (fun t ht => by rw [hleave, if_pos ht]) (hfair.passed s.callbackStart n 100 (by decide)) hx
  have hnext := states_succ hx'
  rw [hleave, if_neg hover] at hnext
  by_cases hauto : s.autoPowerOff = true
  · rw [if_pos hauto] at hnext
    have hsame : SameCall s { s with callbackState := .ready } := ⟨rfl, rfl, rfl, rfl, rfl, rfl⟩
    obtain ⟨m', hm', s', hs', hcalled⟩ := (hsame.calling h).bench_ready rfl hnext
    exact ⟨m', by omega, s', hs', hsame.called hcalled⟩
  · rw [if_neg hauto] at hnext
    have hsame : SameCall s (s.off30ms (ticks m).millis) := ⟨rfl, rfl, rfl, rfl, rfl, rfl⟩
    obtain ⟨m', hm', s', hs', hcalled⟩ := (hsame.calling h).bench_waiting30 hfair rfl hnext
    exact ⟨m', by omega, s', hs', hsame.called hcalled⟩

/-- **The callback is made**, in whatever state the interpreter is. -/
theorem Calling.bench_called (hfair : Fair ticks) (h : s.Calling op rest value)
    (hnext : states (DCCACK.bench dev) x ticks (n + 1) = (s.leave value (ticks n).millis, d)) :
    ∃ m, n ≤ m ∧ ∃ s', states (DCCACK.bench dev) x ticks m = (s', d) ∧ Called s s' value := by
  have hready : SameCall s { s with callbackState := .ready } := ⟨rfl, rfl, rfl, rfl, rfl, rfl⟩
  have hgap : SameCall s (s.off30ms (ticks n).millis) := ⟨rfl, rfl, rfl, rfl, rfl, rfl⟩
  have hstable : SameCall s
      { s with callbackStart := (ticks n).millis, callbackState := .waiting100 } :=
    ⟨rfl, rfl, rfl, rfl, rfl, rfl⟩
  have hon : SameCall s { s.setPower .on with callbackState := .ready } :=
    ⟨rfl, rfl, rfl, rfl, rfl, rfl⟩
  -- the states come in this order, and each leads to a later one or waits
  cases hstate : s.callbackState with
  | afterRead =>
    rw [leave_afterRead hstate] at hnext
    by_cases hoff : (s.ackManagerRejoin && !s.autoPowerOff) = true
    · rw [if_pos hoff] at hnext
      obtain ⟨m, hm, s', hs', hcalled⟩ := (hgap.calling h).bench_waiting30 hfair rfl hnext
      exact ⟨m, by omega, s', hs', hgap.called hcalled⟩
    · rw [if_neg hoff] at hnext
      obtain ⟨m, hm, s', hs', hcalled⟩ := (hready.calling h).bench_ready rfl hnext
      exact ⟨m, by omega, s', hs', hready.called hcalled⟩
  | afterWrite =>
    rw [leave_afterWrite hstate] at hnext
    by_cases hnow : (!s.ackManagerRejoin && !s.autoPowerOff) = true
    · rw [if_pos hnow] at hnext
      obtain ⟨m, hm, s', hs', hcalled⟩ := (hready.calling h).bench_ready rfl hnext
      exact ⟨m, by omega, s', hs', hready.called hcalled⟩
    · rw [if_neg hnow] at hnext
      obtain ⟨m, hm, s', hs', hcalled⟩ := (hstable.calling h).bench_waiting100 hfair rfl hnext
      exact ⟨m, by omega, s', hs', hstable.called hcalled⟩
  | waiting100 =>
    rw [leave_waiting100 hstate] at hnext
    by_cases hwait : (ticks n).millis - s.callbackStart < 100
    · rw [if_pos hwait] at hnext
      obtain ⟨m, hm, s', hs', hcalled⟩ := h.bench_waiting100 hfair hstate hnext
      exact ⟨m, by omega, s', hs', hcalled⟩
    rw [if_neg hwait] at hnext
    by_cases hauto : s.autoPowerOff = true
    · rw [if_pos hauto] at hnext
      obtain ⟨m, hm, s', hs', hcalled⟩ := (hready.calling h).bench_ready rfl hnext
      exact ⟨m, by omega, s', hs', hready.called hcalled⟩
    · rw [if_neg hauto] at hnext
      obtain ⟨m, hm, s', hs', hcalled⟩ := (hgap.calling h).bench_waiting30 hfair rfl hnext
      exact ⟨m, by omega, s', hs', hgap.called hcalled⟩
  | waiting30 =>
    rw [leave_waiting30 hstate] at hnext
    by_cases hwait : (ticks n).millis - s.callbackStart < 30
    · rw [if_pos hwait] at hnext
      obtain ⟨m, hm, s', hs', hcalled⟩ := h.bench_waiting30 hfair hstate hnext
      exact ⟨m, by omega, s', hs', hcalled⟩
    · rw [if_neg hwait] at hnext
      obtain ⟨m, hm, s', hs', hcalled⟩ := (hon.calling h).bench_ready rfl hnext
      exact ⟨m, by omega, s', hs', hon.called hcalled⟩
  | ready =>
    rw [leave_ready hstate] at hnext
    exact ⟨n + 1, Nat.le_succ n, _, hnext, rfl, rfl, rfl⟩

/-! ## A program -/

/-- The program starts when there is power and there have been enough resets. -/
theorem bench_started (hfair : Fair ticks) (hprog : s.ackManagerProg = some (op :: rest))
    (ha : op.action s.registers = .start) (hpower : s.getPower ≠ some .overload)
    (hx : states (bench dev) x ticks n = (s, d)) :
    ∃ m, n ≤ m ∧ states (bench dev) x ticks m =
      ({ s with callbackState := .afterRead, ackManagerProg := some rest }, d) := by
  have hstep : ∀ t : Tick, bench dev (s, d) t =
      (if t.resets < (if s.autoPowerOff || s.ackManagerRejoin then 20 else 3) then s
        else { s with callbackState := .afterRead, ackManagerProg := some rest }, d) := by
    intro t
    simp only [bench, turn_start hprog ha, action_eq hprog, ha, if_neg hpower]
  obtain ⟨m, hm, hover, hx'⟩ := exists_leaves
    (fun t => t.resets < (if s.autoPowerOff || s.ackManagerRejoin then 20 else 3))
    (fun t ht => by rw [hstep, if_pos ht]) (hfair.reset n _ (by split <;> decide)) hx
  have hnext := states_succ hx'
  rw [hstep, if_neg hover] at hnext
  exact ⟨m + 1, by omega, hnext⟩

/-- Nothing that a callback or a retry needs is different. -/
structure SameRun (s s' : DCCACK κ) : Prop where
  start : s'.ackManagerProgStart = s.ackManagerProgStart
  power : s'.getPower = s.getPower
  retry : s'.ackManagerRetry = s.ackManagerRetry
  callback : s'.ackManagerCallback = s.ackManagerCallback
  calls : s'.calls = s.calls
  past : s'.past = s.past

/-- The rest of a program, up to the opcode that calls back. -/
theorem bench_reaches (hfair : Fair ticks) {program : List AckOp}
    (hprog : s.ackManagerProg = some program) (hpower : s.getPower ≠ some .overload)
    (hresult : (perform dev program s.registers d).result = some value)
    (hx : states (bench dev) x ticks n = (s, d)) :
    ∃ m, n ≤ m ∧ ∃ s' op rest r, states (bench dev) x ticks m =
      (s', (perform dev program s.registers d).device) ∧ SameRun s s' ∧
      s'.ackManagerProg = some (op :: rest) ∧ op.action s'.registers = .call value r := by
  -- by the length of the program that is left: `ITSKIP` drops more than one opcode
  induction hlength : program.length using Nat.strongRecOn generalizing program s d n with
  | _ length ih =>
  cases program with
  | nil =>
    rw [perform] at hresult
    cases hresult
  | cons op rest =>
    rw [List.length_cons] at hlength
    have hskipped := length_skipped rest
    cases ha : op.action s.registers with
    | start =>
      rw [perform_start ha] at hresult ⊢
      obtain ⟨m, hm, hnext⟩ := bench_started hfair hprog ha hpower hx
      obtain ⟨m', hm', s', op', rest', r, hs', hsame, hcall⟩ := ih rest.length (by omega)
        (s := { s with callbackState := .afterRead, ackManagerProg := some rest }) rfl
        hpower hresult hnext rfl
      exact ⟨m', by omega, s', op', rest', r, hs', ⟨hsame.start, hsame.power, hsame.retry,
        hsame.callback, hsame.calls, hsame.past⟩, hcall⟩
    | send packet write =>
      rw [perform_send ha] at hresult ⊢
      have hstep : ∀ t : Tick, bench dev (s, d) t =
          if t.resets < resetMin then (s, d) else (s.sent packet write rest, dev.send d packet) := by
        intro t
        simp only [bench, turn_send hprog ha, action_eq hprog, ha]
        split <;> rfl
      -- the bench stays here until enough resets have been sent
      obtain ⟨m, hm, hover, hx'⟩ := exists_leaves (fun t => t.resets < resetMin)
        (fun t ht => by rw [hstep, if_pos ht]) (hfair.reset n _ (by decide)) hx
      have hnext := states_succ hx'
      rw [hstep, if_neg hover] at hnext
      obtain ⟨m', hm', s', op', rest', r, hs', hsame, hcall⟩ := ih rest.length (by omega)
        (s := s.sent packet write rest) rfl hpower hresult hnext rfl
      exact ⟨m', by omega, s', op', rest', r, hs', ⟨hsame.start, hsame.power, hsame.retry,
        hsame.callback, hsame.calls, hsame.past⟩, hcall⟩
    | wait =>
      cases hack : dev.ack d with
      -- the device never answers, and the program has no result
      | none =>
        rw [perform_wait_none ha hack] at hresult
        cases hresult
      | some answer =>
        obtain ⟨ack, d'⟩ := answer
        rw [perform_wait ha hack] at hresult ⊢
        have hstep : ∀ t : Tick, bench dev (s, d) t =
            if t.expired then (s.answered ack rest, d') else (s, d) := by
          intro t
          simp only [bench, turn_wait hprog ha, action_eq hprog, ha, hack]
          split <;> rfl
        -- here it stays until the window for the answer is over
        obtain ⟨m, hm, hover, hx'⟩ := exists_leaves (fun t => ¬ t.expired = true)
          (fun t ht => by rw [hstep, if_neg ht])
          (by simpa using hfair.expired n) hx
        have hnext := states_succ hx'
        rw [hstep, if_pos (not_not.mp hover)] at hnext
        obtain ⟨m', hm', s', op', rest', r, hs', hsame, hcall⟩ := ih rest.length (by omega)
          (s := s.answered ack rest) rfl hpower hresult hnext rfl
        exact ⟨m', by omega, s', op', rest', r, hs', ⟨hsame.start, hsame.power, hsame.retry,
          hsame.callback, hsame.calls, hsame.past⟩, hcall⟩
    | next r =>
      rw [perform_next ha] at hresult ⊢
      have hnext := states_succ hx
      simp only [bench, turn_next hprog ha, action_eq hprog, ha] at hnext
      obtain ⟨m, hm, s', op', rest', r', hs', hsame, hcall⟩ := ih rest.length (by omega)
        (s := { s with registers := r, ackManagerProg := some rest }) rfl hpower hresult hnext rfl
      exact ⟨m, by omega, s', op', rest', r', hs', ⟨hsame.start, hsame.power, hsame.retry,
        hsame.callback, hsame.calls, hsame.past⟩, hcall⟩
    | skip =>
      rw [perform_skip ha] at hresult ⊢
      have hnext := states_succ hx
      simp only [bench, turn_skip hprog ha, action_eq hprog, ha] at hnext
      obtain ⟨m, hm, s', op', rest', r, hs', hsame, hcall⟩ := ih (skipped rest).length (by omega)
        (s := { s with ackManagerProg := some (skipped rest) }) rfl hpower hresult hnext rfl
      exact ⟨m, by omega, s', op', rest', r, hs', ⟨hsame.start, hsame.power, hsame.retry,
        hsame.callback, hsame.calls, hsame.past⟩, hcall⟩
    -- the opcode that calls back: nothing is left to run
    | call v r =>
      rw [perform_call ha] at hresult ⊢
      obtain rfl : v = value := by simpa using hresult
      exact ⟨n, Nat.le_refl n, s, op, rest, r, hx, ⟨rfl, rfl, rfl, rfl, rfl, rfl⟩, hprog, ha⟩

/-- A callback that is not followed by a retry. -/
theorem bench_calls_at (hfair : Fair ticks) (hprog : s.ackManagerProg = some (op :: rest))
    {r : AckRegisters} (ha : op.action s.registers = .call value r)
    (hfinal : ¬ (value = -1 ∧ 0 < s.ackManagerRetry))
    (hx : states (bench dev) x ticks n = (s, d)) :
    ∃ m, n ≤ m ∧ ∃ s', states (bench dev) x ticks m = (s', d) ∧ Called s s' value := by
  have hcalling : ({ s with registers := r } : DCCACK κ).Calling op rest value :=
    ⟨hprog, AckOp.action_of_call ha, hfinal⟩
  have hnext := states_succ hx
  simp only [bench, turn_call hprog ha, action_eq hprog, ha] at hnext
  rw [callback, if_neg hfinal] at hnext
  obtain ⟨m, hm, s', hs', hcalled⟩ := hcalling.bench_called hfair hnext
  exact ⟨m, hm, s', hs', ⟨hcalled.prog, hcalled.calls, hcalled.past⟩⟩

/-- **The interpreter does what the program says**, and calls back. -/
theorem bench_calls (hfair : Fair ticks) (hprog : s.ackManagerProg = some (.baseline :: rest))
    (hpower : s.getPower ≠ some .overload)
    (hresult : (perform dev rest s.registers d).result = some value) (hvalue : value ≠ -1) :
    ∃ n s', states (bench dev) (s, d) ticks n =
      (s', (perform dev rest s.registers d).device) ∧ Called s s' value := by
  have hx : states (bench dev) (s, d) ticks 0 = (s, d) := rfl
  have hresult' : (perform dev (.baseline :: rest) s.registers d).result = some value := by
    rw [perform_start rfl]
    exact hresult
  obtain ⟨m, -, s', op, rest', r, hs', hsame, hprog', ha⟩ :=
    bench_reaches hfair hprog hpower hresult' hx
  rw [perform_start rfl] at hs'
  obtain ⟨n, -, s'', hs'', hcalled⟩ := bench_calls_at hfair hprog' ha (fun h => hvalue h.1) hs'
  refine ⟨n, s'', hs'', hcalled.prog, ?_, ?_⟩
  · rw [hcalled.calls, hsame.calls, hsame.callback]
  · rw [hcalled.past, hsame.past]

end DCCACK

end CommandStation
