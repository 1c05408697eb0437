import Mathlib.Data.List.Infix
import CommandStation.DCCACK.Bench
import CommandStation.DCCACK.Attempts

/-!
# A program comes to its end

Whatever the answers are, no program of `DCC.cpp` runs off its end: it ends with `CALLFAIL`, and every
skip has a target. With the retries counted down, the callback is made in the end, from wherever the
interpreter is.
-/

namespace CommandStation

open CommandStation.Lib

namespace AckOp

/-- The last opcode calls back in any case, and a skip does not lead past it. -/
def closed (program : List AckOp) : Bool :=
  program.getLast? == some .callfail && program.tails.all fun p =>
    !p.head?.any AckOp.skips || !(DCCACK.skipped p.tail).isEmpty

theorem closed_all : ∀ program ∈ AckProgram.all, closed program = true := by
  decide +kernel

theorem skips_of_action {op : AckOp} {r : AckRegisters} (h : op.action r = .skip) :
    op.skips = true := by
  cases op <;> simp only [action, Action.callIf] at h <;> first | rfl | cases h | (split at h <;> cases h)

variable {program rest : List AckOp} {op : AckOp} {r : AckRegisters}

theorem rest_ne_nil (hclosed : closed program = true) (hsuffix : op :: rest <:+ program)
    (hcall : ∀ value r', op.action r ≠ .call value r') : rest ≠ [] := by
  rintro rfl
  obtain ⟨front, rfl⟩ := hsuffix
  rw [closed, Bool.and_eq_true, List.getLast?_concat, beq_iff_eq, Option.some_inj] at hclosed
  rw [hclosed.1] at hcall
  exact hcall (-1) r rfl

theorem skipped_ne_nil (hclosed : closed program = true) (hsuffix : op :: rest <:+ program)
    (hskip : op.action r = .skip) : DCCACK.skipped rest ≠ [] := by
  rw [closed, Bool.and_eq_true, List.all_eq_true] at hclosed
  have htail := hclosed.2 (op :: rest) ((List.mem_tails _ _).mpr hsuffix)
  rw [List.head?_cons, Option.any_some, skips_of_action hskip] at htail
  simpa using htail

theorem suffix_of_cons (hsuffix : op :: rest <:+ program) : rest <:+ program :=
  (List.suffix_cons op rest).trans hsuffix

theorem suffix_of_skipped (hsuffix : op :: rest <:+ program) : DCCACK.skipped rest <:+ program :=
  ((List.drop_suffix 1 _).trans (List.dropWhile_suffix _)).trans (suffix_of_cons hsuffix)

end AckOp

variable {δ : Type} {dev : Device δ}

/-- `Ready k d`: the device answers `k` times at least, by an ack or its absence. -/
structure Answering (dev : Device δ) (Ready : Nat → δ → Prop) : Prop where
  le : ∀ {k k' d}, k ≤ k' → Ready k' d → Ready k d
  send : ∀ {k d} packet, Ready k d → Ready k (dev.send d packet)
  ack : ∀ {k d}, Ready (k + 1) d → ∃ ack d', dev.ack d = some (ack, d') ∧ Ready k d'

theorem answering_oracle : Answering oracle fun k acks => k ≤ acks.length := by
  refine ⟨fun hle h => Nat.le_trans hle h, fun _ h => h, ?_⟩
  intro k acks h
  cases acks with
  | nil => exact absurd h (Nat.not_succ_le_zero k)
  | cons ack acks => exact ⟨ack, acks, rfl, Nat.le_of_succ_le_succ h⟩

/-- **Every program has a result**, if there are enough answers. -/
theorem perform_ends {Ready : Nat → δ → Prop} (hdev : Answering dev Ready) {program : List AckOp}
    (hclosed : AckOp.closed program = true) {p : List AckOp} (hsuffix : p <:+ program) (hne : p ≠ [])
    (r : AckRegisters) {d : δ} (hready : Ready p.length d) :
    ∃ value, (perform dev p r d).result = some value := by
  induction hlength : p.length using Nat.strongRecOn generalizing p r d with
  | _ length ih =>
  cases p with
  | nil => exact absurd rfl hne
  | cons op rest =>
    rw [List.length_cons] at hlength hready
    have hskipped := DCCACK.length_skipped rest
    have hrest := AckOp.suffix_of_cons hsuffix
    have hready' := hdev.le (Nat.le_succ rest.length) hready
    cases ha : op.action r with
    | start =>
      rw [perform_start ha]
      exact ih rest.length (by omega) hrest
        (AckOp.rest_ne_nil hclosed hsuffix (by rw [ha]; exact nofun)) r hready' rfl
    | send packet write =>
      rw [perform_send ha]
      exact ih rest.length (by omega) hrest
        (AckOp.rest_ne_nil hclosed hsuffix (by rw [ha]; exact nofun)) r (hdev.send packet hready') rfl
    | wait =>
      obtain ⟨ack, d', hack, hd'⟩ := hdev.ack hready
      rw [perform_wait ha hack]
      exact ih rest.length (by omega) hrest
        (AckOp.rest_ne_nil hclosed hsuffix (by rw [ha]; exact nofun)) _ hd' rfl
    | next r' =>
      rw [perform_next ha]
      exact ih rest.length (by omega) hrest
        (AckOp.rest_ne_nil hclosed hsuffix (by rw [ha]; exact nofun)) r' hready' rfl
    | skip =>
      rw [perform_skip ha]
      exact ih (DCCACK.skipped rest).length (by omega) (AckOp.suffix_of_skipped hsuffix)
        (AckOp.skipped_ne_nil hclosed hsuffix ha) r (hdev.le hskipped hready') rfl
    | call value r' =>
      rw [perform_call ha]
      exact ⟨value, rfl⟩

/-- A device that always answers, with any answers. -/
def endless : Device (Nat → Bool) where
  send answers _ := answers
  ack answers := some (answers 0, fun n => answers (n + 1))

theorem answering_endless : Answering endless fun _ _ => True :=
  ⟨fun _ h => h, fun _ h => h, fun _ => ⟨_, _, rfl, trivial⟩⟩

namespace DCCACK

variable {κ : Type} {s : DCCACK κ} {d : Nat → Bool} {x : DCCACK κ × (Nat → Bool)}
  {ticks : Nat → Tick} {n : Nat}

/-- The rest of a program, with the retries that are left. -/
theorem bench_stops_from (hfair : Fair ticks)
    (hclosed : AckOp.closed s.ackManagerProgStart = true)
    (hne : s.ackManagerProgStart ≠ [])
    {p : List AckOp} (hprog : s.ackManagerProg = some p) (hsuffix : p <:+ s.ackManagerProgStart)
    (hp : p ≠ []) (hpower : s.getPower ≠ some .overload)
    (hx : states (bench endless) x ticks n = (s, d)) :
    ∃ m s' d', states (bench endless) x ticks m = (s', d') ∧ s'.isActive = false := by
  -- over the retries that are left
  induction hretry : s.ackManagerRetry.toNat generalizing s d n p with
  | zero =>
    obtain ⟨value, hresult⟩ := perform_ends answering_endless hclosed hsuffix hp s.registers (d := d) trivial
    obtain ⟨m, -, s', op, rest', r, hs', hsame, hprog', ha⟩ :=
      bench_reaches hfair hprog hpower hresult hx
    have hfinal : ¬ (value = -1 ∧ 0 < s'.ackManagerRetry) := by
      rintro ⟨-, hpos⟩
      rw [hsame.retry, UInt8.lt_iff_toNat_lt, hretry] at hpos
      exact absurd hpos (Nat.lt_irrefl 0)
    obtain ⟨m', -, s'', hs'', hcalled⟩ := bench_calls_at hfair hprog' ha hfinal hs'
    exact ⟨m', s'', _, hs'', by rw [isActive, hcalled.prog]; rfl⟩
  | succ retries ih =>
    obtain ⟨value, hresult⟩ := perform_ends answering_endless hclosed hsuffix hp s.registers (d := d) trivial
    obtain ⟨m, -, s', op, rest', r, hs', hsame, hprog', ha⟩ :=
      bench_reaches hfair hprog hpower hresult hx
    -- the program has failed and is started again, or its result is final
    by_cases hfinal : value = -1 ∧ 0 < s'.ackManagerRetry
    · have hnext := states_succ hs'
      simp only [bench, turn_call hprog' ha, action_eq hprog', ha] at hnext
      rw [callback, if_pos hfinal] at hnext
      have hleft : (s'.ackManagerRetry - 1).toNat = retries := by
        have hone : (1 : UInt8) ≤ s'.ackManagerRetry := by
          rw [UInt8.le_iff_toNat_le, hsame.retry, hretry]
          exact Nat.succ_le_succ (Nat.zero_le _)
        rw [UInt8.toNat_sub_of_le _ _ hone, hsame.retry, hretry]
        rfl
      have hstart := hsame.start
      refine ih (s := { s' with
        registers := r
        ackManagerRetry := s'.ackManagerRetry - 1
        ackManagerProg := some s'.ackManagerProgStart
        attempt := ⟨[], []⟩
        past := s'.past ++ [s'.attempt] }) ?_ ?_ rfl (List.suffix_refl _) ?_ ?_ hnext hleft
      · rw [← hstart] at hclosed
        exact hclosed
      · rw [← hstart] at hne
        exact hne
      · rw [← hstart] at hne
        exact hne
      · rw [← hsame.power] at hpower
        exact hpower
    · obtain ⟨m', -, s'', hs'', hcalled⟩ := bench_calls_at hfair hprog' ha hfinal hs'
      exact ⟨m', s'', _, hs'', by rw [isActive, hcalled.prog]; rfl⟩

variable {s₁ : DCCACK κ} {program : List AckOp}

/-- The interpreter is not at the end of a program. -/
theorem Running.ne_nil (hclosed : AckOp.closed s₁.ackManagerProgStart = true)
    (hne : s₁.ackManagerProgStart ≠ []) (h : Running s₁ s program) : program ≠ [] := by
  rintro rfl
  have hnow := h.now (List.replicate s₁.ackManagerProgStart.length true)
  obtain ⟨value, hvalue⟩ := perform_ends answering_oracle hclosed (List.suffix_refl _) hne s₁.registers
    (d := s.attempt.acks ++ List.replicate s₁.ackManagerProgStart.length true)
    (by rw [List.length_append, List.length_replicate]; exact Nat.le_add_left _ _)
  rw [hnow, perform] at hvalue
  cases hvalue

/-- **The callback is made in the end**, from any state of a run. -/
theorem Running.bench_stops (hfair : Fair ticks)
    (hclosed : AckOp.closed s₁.ackManagerProgStart = true) (hne : s₁.ackManagerProgStart ≠ [])
    (h : Running s₁ s program) (hpower : s.getPower ≠ some .overload) (answers : Nat → Bool) :
    ∃ n s' d', states (bench endless) (s, answers) ticks n = (s', d') ∧ s'.isActive = false := by
  have hx : states (bench endless) (s, answers) ticks 0 = (s, answers) := rfl
  have hwork :
      ∃ n s' d', states (bench endless) (s, answers) ticks n = (s', d') ∧ s'.isActive = false := by
    apply bench_stops_from hfair _ _ h.prog _ (h.ne_nil hclosed hne) hpower hx
    · rw [h.start]
      exact hclosed
    · rw [h.start]
      exact hne
    · rw [h.start]
      exact h.suffix
  cases h.phase with
  | begin hprogram htracks => exact hwork
  | work hstate htracks => exact hwork
  | stable hstate hprogram hcall hfinal htracks =>
    have hprog := h.prog
    rw [hprogram] at hprog
    obtain ⟨m, -, s', hs', hcalled⟩ := bench_calls_at hfair hprog hcall hfinal hx
    exact ⟨m, s', _, hs', by rw [isActive, hcalled.prog]; rfl⟩
  | gap hstate hprogram hcall hfinal htracks =>
    have hprog := h.prog
    rw [hprogram] at hprog
    obtain ⟨m, -, s', hs', hcalled⟩ := bench_calls_at hfair hprog hcall hfinal hx
    exact ⟨m, s', _, hs', by rw [isActive, hcalled.prog]; rfl⟩

end DCCACK

end CommandStation
