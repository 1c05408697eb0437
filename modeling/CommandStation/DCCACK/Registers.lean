import CommandStation.DCCACK.Perform

/-!
# Which registers a program depends on

A retry starts with the registers as the failed attempt has left them. It sends the same packets
nevertheless: a register whose value at the start matters is none that the program writes. What
matters is found by the usual analysis for live variables. It goes through a program from its end, and
as a skip leads to the next target only, it has to carry no more than what is live there.
-/

namespace CommandStation

inductive Register where
  | cv | word | byte | byteVerify | stash | bitNum | received
  deriving DecidableEq, Repr

/-- The two have the same value in a register. -/
def Register.Same (r r' : AckRegisters) : Register → Prop
  | .cv => r.ackManagerCv = r'.ackManagerCv
  | .word => r.ackManagerWord = r'.ackManagerWord
  | .byte => r.ackManagerByte = r'.ackManagerByte
  | .byteVerify => r.ackManagerByteVerify = r'.ackManagerByteVerify
  | .stash => r.ackManagerStash = r'.ackManagerStash
  | .bitNum => r.ackManagerBitNum = r'.ackManagerBitNum
  | .received => r.ackReceived = r'.ackReceived

theorem Register.Same.trans {r r' r'' : AckRegisters} {x : Register} (h : x.Same r r')
    (h' : x.Same r' r'') : x.Same r r'' := by
  cases x <;> exact Eq.trans h h'

theorem Register.Same.symm {r r' : AckRegisters} {x : Register} (h : x.Same r r') :
    x.Same r' r := by
  cases x <;> exact Eq.symm h

namespace AckOp

/-- The registers an opcode reads. -/
def uses : AckOp → List Register
  | .w0 | .w1 | .v0 | .v1 => [.cv, .bitNum]
  | .wb | .vb => [.cv, .byte]
  | .itc0 | .itc1 | .nakfail | .itskip | .nakskip => [.received]
  | .itcb | .itcbv | .itcb7 => [.received, .byte]
  | .biv => [.byteVerify]
  | .merge => [.byte, .bitNum, .received]
  | .setbyteh | .setbytel => [.word]
  | .stashlocoid | .bad20skip | .failIfNonzeroNak => [.byte]
  | .combinelocoid | .combine1920 => [.byte, .stash]
  | .baseline | .wack | .callfail | .startmerge | .setbit _ | .setcv _ | .setbyte _
  | .skiptarget => []

/-- The registers an opcode writes. -/
def defs : AckOp → List Register
  | .wack => [.received]
  | .biv | .setbyte _ | .setbyteh | .setbytel | .combine1920 => [.byte]
  | .startmerge | .merge => [.byte, .bitNum]
  | .setbit _ => [.bitNum]
  | .setcv _ => [.cv]
  | .stashlocoid => [.stash]
  | .baseline | .w0 | .w1 | .v0 | .v1 | .wb | .vb | .itc0 | .itc1 | .itcb | .itcbv | .itcb7
  | .nakfail | .callfail | .itskip | .nakskip | .bad20skip | .failIfNonzeroNak | .combinelocoid
  | .skiptarget => []

def skips : AckOp → Bool
  | .itskip | .nakskip | .bad20skip => true
  | _ => false

/-- The registers that are read before they are written, and those of which this is true at the next
target. -/
def live : List AckOp → List Register × List Register
  | [] => ([], [])
  | op :: rest =>
    let (here, target) := live rest
    (op.uses ++ here.filter (fun x => x ∉ op.defs) ++ (if op.skips then target else []),
      if op = .skiptarget then here else target)

/-! ## One opcode -/

/-- The actions of an opcode with two sets of registers. -/
inductive SameAction (op : AckOp) (r r' : AckRegisters) : Action → Action → Prop
  | start (h : op.defs = []) : SameAction op r r' .start .start
  | send (h : op.defs = []) (packet : List UInt8) (write : Bool) :
      SameAction op r r' (.send packet write) (.send packet write)
  | wait (h : op.defs = [.received]) : SameAction op r r' .wait .wait
  | next {a a' : AckRegisters} (h : ∀ x, x ∈ op.defs ∨ x.Same r r' → x.Same a a') :
      SameAction op r r' (.next a) (.next a')
  | skip (h : op.skips = true) : SameAction op r r' .skip .skip
  | call (value : Int16) (a a' : AckRegisters) :
      SameAction op r r' (.call value a) (.call value a')

section

variable {op : AckOp} {r r' : AckRegisters}

theorem SameAction.send_of_eq (hdefs : op.defs = []) {packet packet' : List UInt8}
    (h : packet = packet') (write : Bool) :
    op.SameAction r r' (.send packet write) (.send packet' write) :=
  h ▸ .send hdefs packet write

theorem SameAction.call_of_eq {value value' : Int16} (h : value = value') (a a' : AckRegisters) :
    op.SameAction r r' (.call value a) (.call value' a') :=
  h ▸ .call value a a'

/-- An opcode that writes no register goes on. -/
theorem SameAction.pass (hdefs : op.defs = []) : op.SameAction r r' (.next r) (.next r') := by
  apply SameAction.next
  intro x hx
  rw [hdefs] at hx
  exact hx.resolve_left List.not_mem_nil

theorem SameAction.callIf (hdefs : op.defs = []) {c c' : Bool} (hc : c = c') {value value' : Int16}
    (hvalue : value = value') :
    op.SameAction r r' (Action.callIf r c value) (Action.callIf r' c' value') := by
  subst hc hvalue
  cases c with
  | true => exact .call value r r'
  | false => exact .pass hdefs

theorem SameAction.skipIf (hdefs : op.defs = []) (hskips : op.skips = true) {c c' : Prop}
    [Decidable c] [Decidable c'] (hc : c ↔ c') :
    op.SameAction r r' (if c then .skip else .next r) (if c' then .skip else .next r') := by
  by_cases h : c
  · rw [if_pos h, if_pos (hc.mp h)]
    exact .skip hskips
  · rw [if_neg h, if_neg (fun h' => h (hc.mpr h'))]
    exact .pass hdefs

/-- **An opcode depends on the registers it uses.** -/
theorem sameAction (h : ∀ x ∈ op.uses, x.Same r r') :
    op.SameAction r r' (op.action r) (op.action r') := by
  cases op
  all_goals
    simp only [uses, List.mem_cons, List.not_mem_nil, or_false, forall_eq_or_imp, forall_eq,
      Register.Same] at h
  case baseline => exact .start rfl
  case w0 | w1 =>
    exact .send_of_eq rfl (by rw [AckRegisters.writeBit, h.1, h.2, ← AckRegisters.writeBit]) _
  case v0 | v1 =>
    exact .send_of_eq rfl (by rw [AckRegisters.verifyBit, h.1, h.2, ← AckRegisters.verifyBit]) _
  case wb => exact .send_of_eq rfl (by rw [AckRegisters.writeByte, h.1, h.2, ← AckRegisters.writeByte]) _
  case vb =>
    exact .send_of_eq rfl (by rw [AckRegisters.verifyByte, h.1, h.2, ← AckRegisters.verifyByte]) _
  case wack => exact .wait rfl
  case itc0 | itc1 => exact .callIf rfl h rfl
  case itcb | itcbv | itcb7 => exact .callIf rfl h.1 (by rw [h.2])
  case nakfail => exact .callIf rfl (by rw [h]) rfl
  case callfail => exact .call _ _ _
  case combinelocoid =>
    exact .call_of_eq (by rw [AckRegisters.combineLocoId, h.1, h.2, ← AckRegisters.combineLocoId]) _ _
  case combine1920 => exact .call_of_eq (by simp only [AckRegisters.combine1920, h.1, h.2]) _ _
  case itskip => exact .skipIf rfl rfl (by rw [h])
  case nakskip =>
    rw [action, action, h]
    split
    · exact .pass rfl
    · exact .skip rfl
  case bad20skip => exact .skipIf rfl rfl (by rw [h])
  case failIfNonzeroNak =>
    rw [action, action, h]
    split
    · exact .pass rfl
    · exact .call _ _ _
  case skiptarget => exact .pass rfl
  all_goals
    apply SameAction.next
    intro x hx
    cases x <;> simp_all [defs, Register.Same]

theorem defs_of_wait (h : op.action r = .wait) : op.defs = [.received] := by
  cases op
  all_goals
    simp only [action, Action.callIf] at h
    try split at h
  all_goals cases h <;> rfl

/-- An opcode leaves the other registers alone. -/
theorem same_of_next {a : AckRegisters} (h : op.action r = .next a) {x : Register}
    (hx : x ∉ op.defs) : x.Same r a := by
  cases op
  all_goals
    simp only [action, Action.callIf] at h
    try split at h
  all_goals cases h <;> cases x <;> simp_all [defs, Register.Same]

theorem same_of_call {value : Int16} {a : AckRegisters} (h : op.action r = .call value a)
    {x : Register} (hx : x ∉ op.defs) : x.Same r a := by
  cases op
  all_goals
    simp only [action, Action.callIf] at h
    try split at h
  all_goals cases h <;> cases x <;> simp_all [defs, Register.Same]

end

/-! ## A program -/

theorem live_skipped (program : List AckOp) :
    ∀ x ∈ (live (DCCACK.skipped program)).1, x ∈ (live program).2 := by
  induction program with
  | nil => exact fun x hx => hx
  | cons op rest ih =>
    intro x hx
    rw [live]
    by_cases h : op = .skiptarget
    · subst h
      exact hx
    · have hskipped : DCCACK.skipped (op :: rest) = DCCACK.skipped rest := by
        simp [DCCACK.skipped, h]
      rw [hskipped] at hx
      simpa [h] using ih x hx

/-- **A program depends on its live registers.** -/
theorem perform_congr {δ : Type} {dev : Device δ} {program : List AckOp} {r r' : AckRegisters}
    (h : ∀ x ∈ (live program).1, x.Same r r') (d : δ) :
    perform dev program r d = perform dev program r' d := by
  induction hlength : program.length using Nat.strongRecOn generalizing program r r' d with
  | _ length ih =>
  cases program with
  | nil => rw [perform, perform]
  | cons op rest =>
    rw [List.length_cons] at hlength
    simp only [live, List.mem_append, List.mem_filter, decide_eq_true_eq] at h
    -- the opcode does the same with both, and the registers that it does not set agree as before
    have huses : ∀ x ∈ op.uses, x.Same r r' := fun x hx => h x (.inl (.inl hx))
    have hrest : ∀ x ∈ (live rest).1, x ∉ op.defs → x.Same r r' :=
      fun x hx hdefs => h x (.inl (.inr ⟨hx, hdefs⟩))
    have haction := sameAction huses
    generalize ha : op.action r = a, ha' : op.action r' = a' at haction
    cases haction with
    | start hdefs =>
      rw [perform_start ha, perform_start ha']
      rw [hdefs] at hrest
      exact ih rest.length (by omega) (fun x hx => hrest x hx List.not_mem_nil) d rfl
    | send hdefs packet write =>
      rw [perform_send ha, perform_send ha']
      rw [hdefs] at hrest
      rw [ih rest.length (by omega) (fun x hx => hrest x hx List.not_mem_nil) _ rfl]
    | wait hdefs =>
      cases hack : dev.ack d with
      | none => rw [perform_wait_none ha hack, perform_wait_none ha' hack]
      | some answer =>
        rw [perform_wait ha hack, perform_wait ha' hack]
        apply ih rest.length (by omega) _ _ rfl
        intro x hx
        cases x with
        | received => rfl
        | _ =>
          apply hrest _ hx
          rw [hdefs]
          simp
    | next hnext =>
      rw [perform_next ha, perform_next ha']
      apply ih rest.length (by omega) _ d rfl
      intro x hx
      apply hnext
      by_cases hdefs : x ∈ op.defs
      · exact .inl hdefs
      · exact .inr (hrest x hx hdefs)
    | skip hskips =>
      rw [perform_skip ha, perform_skip ha']
      apply ih (DCCACK.skipped rest).length _ _ d rfl
      · have := DCCACK.length_skipped rest
        omega
      · intro x hx
        apply h x
        rw [if_pos hskips]
        exact .inr (live_skipped rest x hx)
    | call value => rw [perform_call ha, perform_call ha']

/-- The program starts with `BASELINE`, and depends on no register that it writes or that `Setup` does
not load. -/
def Repeatable (program : List AckOp) : Prop :=
  program.head? = some .baseline ∧
    ∀ x ∈ (live program).1, x ∉ program.flatMap defs ∧ x ≠ .stash ∧ x ≠ .received

instance (program : List AckOp) : Decidable (Repeatable program) :=
  inferInstanceAs (Decidable (_ ∧ ∀ x ∈ (live program).1,
    x ∉ program.flatMap defs ∧ x ≠ .stash ∧ x ≠ .received))

theorem repeatable_all : ∀ program ∈ AckProgram.all, Repeatable program := by
  decide +kernel

end AckOp

end CommandStation
