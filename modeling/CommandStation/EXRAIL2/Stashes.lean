import CommandStation.EXRAIL2.Pausing
import CommandStation.Stash.Spec

/-!
# Stashing a loco

`STASH` puts the loco of a task into the stash, with a minus sign if the task is inverted, and
`PICKUP_STASH` gives it to a task. `IFSTASH` asks whether there is a loco. `IFSTASHED_HERE` asks for
the loco of the task, but the mask with which it takes off the sign leaves the complement of a
negative number.
-/

namespace CommandStation.Exrail

open CommandStation.Lib Exrail.Stash

variable {script : Script} {w : Inputs} {this : Addr} {task : RMFT2} {id : Int16} {loco : UInt16}
  {invert : Bool} {s : Exrail}

/-- The value that stands for a loco and its direction. -/
def stashed (loco : UInt16) (invert : Bool) : Int16 := if invert then -loco.toInt16 else loco.toInt16

/-- The loco and the direction that a value stands for. -/
def pickedUp (x : Int16) : UInt16 × Bool := if 0 ≤ x then (x.toUInt16, false) else ((-x).toUInt16, true)

/-- The numbers of locos -/
def IsLoco (loco : UInt16) : Prop := 1 ≤ loco ∧ loco ≤ 10239

instance : DecidablePred IsLoco := fun _ => inferInstanceAs (Decidable (_ ∧ _))

/-! ## Values -/

theorem IsLoco.toNat (h : IsLoco loco) : 1 ≤ loco.toNat ∧ loco.toNat ≤ 10239 := by
  have hlow := UInt16.le_iff_toNat_le.mp h.1
  have hhigh := UInt16.le_iff_toNat_le.mp h.2
  exact ⟨by simpa using hlow, by simpa using hhigh⟩

theorem toInt16_nonneg (u : UInt16) : 0 ≤ u.toInt16 ↔ u.toNat < 32768 := by
  have hu := u.toNat_lt
  rw [Int16.le_iff_toInt_le, Int16.toInt_zero]
  show 0 ≤ u.toBitVec.toInt ↔ _
  rw [BitVec.toInt_eq_toNat_cond, UInt16.toNat_toBitVec]
  split <;> omega

theorem toUInt16_injective {x y : Int16} (h : x.toUInt16 = y.toUInt16) : x = y :=
  congrArg UInt16.toInt16 h

theorem toUInt16_neg (x : Int16) : (-x).toUInt16 = -x.toUInt16 := rfl

theorem toNat_neg_loco (h : IsLoco loco) : (-loco).toNat = 65536 - loco.toNat := by
  have hloco := h.toNat
  rw [UInt16.toNat_neg, UInt16.size]
  omega

theorem toUInt16_stashed : (stashed loco invert).toUInt16 = if invert then -loco else loco := by
  cases invert <;> rfl

theorem pickedUp_injective : Function.Injective pickedUp := by
  intro x y h
  unfold pickedUp at h
  split at h
  · split at h
    · exact toUInt16_injective (congrArg Prod.fst h)
    · exact absurd (congrArg Prod.snd h) Bool.false_ne_true
  · split at h
    · exact absurd (congrArg Prod.snd h).symm Bool.false_ne_true
    · have hneg : -x = -y := toUInt16_injective (congrArg Prod.fst h)
      calc x = - -x := Int16.neg_neg.symm
        _ = y := by rw [hneg, Int16.neg_neg]

theorem pickedUp_stashed (h : IsLoco loco) : pickedUp (stashed loco invert) = (loco, invert) := by
  have hloco := h.toNat
  cases invert with
  | false =>
    have hnonneg : 0 ≤ loco.toInt16 := (toInt16_nonneg loco).mpr (by omega)
    exact if_pos hnonneg
  | true =>
    have hneg : ¬ 0 ≤ (-loco).toInt16 := by
      rw [toInt16_nonneg, toNat_neg_loco h]
      omega
    refine (if_neg hneg).trans ?_
    rw [toUInt16_neg]
    exact congrArg (·, true) UInt16.neg_neg

theorem stashed_ne_zero (h : IsLoco loco) : stashed loco invert ≠ 0 := by
  intro hzero
  have hpicked : pickedUp (stashed loco invert) = (loco, invert) := pickedUp_stashed h
  rw [hzero] at hpicked
  have hfst : (pickedUp 0).1 = loco := congrArg Prod.fst hpicked
  have hloco := h.toNat
  rw [← hfst] at hloco
  exact absurd hloco.1 (by decide)

/-- The mask takes off the sign of no number but a positive one. -/
theorem stashed_masked (h : IsLoco loco) :
    ((stashed loco invert) &&& 0x7FFF).toUInt16 = if invert then 32768 - loco else loco := by
  have hloco := h.toNat
  have hand : ∀ x : Int16, (x &&& 0x7FFF).toUInt16.toNat = x.toUInt16.toNat % 2 ^ 15 := by
    intro x
    rw [← Nat.and_two_pow_sub_one_eq_mod]
    show (x.toUInt16 &&& 0x7FFF).toNat = _
    rw [UInt16.toNat_and]
    rfl
  rw [← UInt16.toNat_inj, hand, toUInt16_stashed]
  cases invert with
  | false =>
    simp only [Bool.false_eq_true, if_false]
    omega
  | true =>
    simp only [if_true]
    rw [toNat_neg_loco h, UInt16.toNat_sub]
    simp only [UInt16.reduceToNat]
    omega

/-! ## Opcodes -/

/-- What a task that is given a value does next. -/
def takes (x : Int16) (task : RMFT2) : RMFT2 :=
  { task with loco := (pickedUp x).1, invert := (pickedUp x).2 }

theorem execute_stash : execute script w this task id (some .stash) s = .ok (.breaks, { s with
    stash := Stash.set s.stash id (stashed task.loco task.invert) }) := rfl

/-- `PICKUP_STASH` gives the task the loco of the stash, with its direction. -/
theorem execute_pickupStash (hthis : this ∈ s.tasks.live) :
    execute script w this task id (some .pickupStash) s = .ok (.breaks, { s with
      tasks := s.tasks.write this (takes (Stash.get s.stash id)) }) := by
  have htakes : takes (Stash.get s.stash id) = fun task =>
      if 0 ≤ Stash.get s.stash id then
        { task with loco := (Stash.get s.stash id).toUInt16, invert := false }
      else { task with loco := (-Stash.get s.stash id).toUInt16, invert := true } := by
    funext task
    unfold takes pickedUp
    split <;> rfl
  have hwp : wp (fun _ => False) (execute script w this task id (some .pickupStash)) (fun flow s' =>
      flow = .breaks ∧ s' = { s with tasks := s.tasks.write this (takes (Stash.get s.stash id)) }) s := by
    show wp _ (Exrail.pickupStash this id) _ s
    simp only [Exrail.pickupStash, thenBreak, wp_bind, wp_get, wp_pure, htakes]
    exact wp_write hthis ⟨trivial, rfl⟩
  obtain ⟨flow, s', hok, rfl, rfl⟩ := wp_iff_exists.mp hwp
  exact hok

/-- The condition holds: its block is not skipped. -/
def Passes (script : Script) (w : Inputs) (this : Addr) (task : RMFT2) (operand : Int16) (op : Opcode)
    (s : Exrail) : Prop :=
  ∃ s', execute script w this task operand (some op) s = .ok (.breaks, s') ∧ s'.skipIf = false

/-- An opcode that only tests. -/
theorem passes_skipWhen {op : Opcode} {c : Exrail → Bool}
    (h : execute script w this task id (some op) = skipWhen c) :
    Passes script w this task id op s ↔ c s = false := by
  unfold Passes
  rw [h]
  have hok : skipWhen c s = .ok (.breaks, { s with skipIf := c s }) := rfl
  rw [hok]
  constructor
  · rintro ⟨s', heq, hskip⟩
    cases heq
    exact hskip
  · exact fun hskip => ⟨_, rfl, hskip⟩

theorem passes_ifstash : Passes script w this task id .ifstash s ↔ Stash.get s.stash id ≠ 0 := by
  rw [passes_skipWhen rfl, skips]
  exact beq_eq_false_iff_ne

theorem passes_ifstashedHere : Passes script w this task id .ifstashedHere s ↔
    (Stash.get s.stash id &&& 0x7FFF).toUInt16 = task.loco := by
  rw [passes_skipWhen rfl, skips]
  exact bne_eq_false_iff_eq

/-- What the opcodes make of a stash that holds a loco. -/
structure Holds (script : Script) (id : Int16) (loco : UInt16) (invert : Bool) (s : Exrail) : Prop where
  ifstashedHere : ∀ (w : Inputs) (this : Addr) (task : RMFT2),
    Passes script w this task id .ifstashedHere s ↔ task.loco = loco
  ifstash : ∀ (w : Inputs) (this : Addr) (task : RMFT2), Passes script w this task id .ifstash s
  pickupStash : ∀ (w : Inputs) (this : Addr) (task : RMFT2), this ∈ s.tasks.live →
    ∃ s', execute script w this task id (some .pickupStash) s = .ok (.breaks, s') ∧
      (s'.tasks.mem this).loco = loco ∧ (s'.tasks.mem this).invert = invert

theorem holds_of_get (hloco : IsLoco loco) (hget : Stash.get s.stash id = stashed loco false) :
    Holds script id loco false s := by
  refine ⟨fun w this task => ?_, fun w this task => ?_, fun w this task hthis => ?_⟩
  · rw [passes_ifstashedHere, hget, stashed_masked hloco]
    exact eq_comm
  · rw [passes_ifstash, hget]
    exact stashed_ne_zero hloco
  · refine ⟨_, execute_pickupStash hthis, ?_⟩
    rw [Tasks.write_mem_self, hget, takes, pickedUp_stashed hloco]
    exact ⟨rfl, rfl⟩

/-- A loco is only found in the stash if it is there the right way round. -/
theorem Holds.get (h : Holds script id loco invert s) (hloco : IsLoco loco) (hthis : this ∈ s.tasks.live) :
    invert = false ∧ Stash.get s.stash id = stashed loco invert := by
  obtain ⟨s', hok, hs⟩ := h.pickupStash .idle this .zero hthis
  rw [execute_pickupStash hthis] at hok
  cases hok
  rw [Tasks.write_mem_self] at hs
  have hget : Stash.get s.stash id = stashed loco invert := by
    apply pickedUp_injective
    rw [pickedUp_stashed hloco]
    exact Prod.ext hs.1 hs.2
  refine ⟨?_, hget⟩
  cases hinvert : invert with
  | false => rfl
  | true =>
    have hhere := (h.ifstashedHere .idle this { RMFT2.zero with loco := loco }).mpr rfl
    rw [passes_ifstashedHere, hget, stashed_masked hloco, if_pos hinvert] at hhere
    have hnat := congrArg UInt16.toNat hhere
    have hrange := hloco.toNat
    rw [UInt16.toNat_sub] at hnat
    simp only [UInt16.reduceToNat] at hnat
    omega

/-! ## Between `STASH` and `PICKUP_STASH` -/

/-- The operation leaves the loco under this id in the map. -/
def Leaves (id x : Int16) (op : StashOp) : Prop := ∀ m : Int16 → Int16, m id = x → op.onMap m id = x

variable {stash : List Stash} {x : Int16} {ops : List StashOp}

/-- A stash is left as it is by operations that leave it, and stash 0 as long as nothing hides it. -/
theorem get_leaves (h : Stash.Sound stash) (hget : Stash.get stash id = x) (hops : ∀ op ∈ ops, Leaves id x op)
    (hzero : id = 0 → ∀ pre op, pre ++ [op] <+: ops → ¬ Hides op (after pre stash)) :
    Stash.get (after ops stash) id = x := by
  induction ops using List.reverseRecOn with
  | nil => exact hget
  | append_singleton ops op ih =>
    have hop : Leaves id x op := hops op (List.mem_append_right _ (List.mem_singleton_self op))
    have hrest := ih (fun op' hop' => hops op' (List.mem_append_left _ hop'))
      fun hid pre op' hpre => hzero hid pre op' (hpre.trans (List.prefix_append ops [op]))
    have hsound := h.after ops
    have hstep : Stash.get (op.exec (after ops stash)) id = op.onMap (Stash.get (after ops stash)) id := by
      by_cases hid : id = 0
      · rw [hid]
        exact (hsound.get_exec_zero op).mpr (hzero hid ops op (List.prefix_refl _))
      · exact hsound.get_exec op hid
    rw [after_concat, hstep]
    exact hop _ hrest

/-- **What is stashed is found again**, as long as operations leave it, exactly if it is the right way
round, and for the id 0 if no operation hides it. -/
theorem stash_found_again (script : Script) (w : Inputs) (this : Addr) (task : RMFT2) (id : Int16)
    (before ops : List StashOp) (s : Exrail) (hloco : IsLoco task.loco) (hs : s.stash = after before [])
    (hops : ∀ op ∈ ops, Leaves id (stashed task.loco task.invert) op) :
    ∃ s', execute script w this task id (some .stash) s = .ok (.breaks, s') ∧
      ((∀ pre, pre <+: ops → ∀ s'', s''.stash = after pre s'.stash →
          Holds script id task.loco task.invert s'') ↔
        task.invert = false ∧
          (id = 0 → ∀ pre op, pre ++ [op] <+: ops → ¬ Hides op (after pre s'.stash))) := by
  refine ⟨_, execute_stash, ?_⟩
  have hsound : Stash.Sound s.stash := by
    rw [hs]
    exact sound_after before
  generalize hx : stashed task.loco task.invert = x at hops ⊢
  have hset : Stash.get (Stash.set s.stash id x) id = x := by
    by_cases hid : id = 0
    · rw [hid]
      exact hsound.get_set_zero
    · rw [hsound.get_set hid, if_pos rfl]
  have hsound' : Stash.Sound (Stash.set s.stash id x) := hsound.set id x
  show (∀ pre, pre <+: ops → ∀ s'' : Exrail, s''.stash = after pre (Stash.set s.stash id x) → _) ↔
    _ ∧ (_ → ∀ pre op, _ → ¬ Hides op (after pre (Stash.set s.stash id x)))
  constructor
  · intro hholds
    -- some task is there
    have hget : ∀ pre, pre <+: ops → task.invert = false ∧
        Stash.get (after pre (Stash.set s.stash id x)) id = stashed task.loco task.invert := by
      intro pre hpre
      have hthis : 0 ∈ [0] := List.mem_singleton_self (0 : Addr)
      exact (hholds pre hpre { s with
        stash := after pre (Stash.set s.stash id x)
        tasks := { s.tasks with live := [0] } } rfl).get hloco hthis
    refine ⟨(hget [] List.nil_prefix).1, fun hid pre op hpre => ?_⟩
    subst hid
    have hop : Leaves 0 x op :=
      hops op (hpre.subset (List.mem_append_right _ (List.mem_singleton_self op)))
    have hbefore := (hget pre ((List.prefix_append pre [op]).trans hpre)).2
    have hafter := (hget (pre ++ [op]) hpre).2
    rw [hx] at hbefore hafter
    rw [after_concat] at hafter
    rw [← (hsound'.after pre).get_exec_zero op, hafter]
    exact (hop _ hbefore).symm
  · rintro ⟨hinvert, hzero⟩ pre hpre s'' hs''
    rw [hinvert] at hx ⊢
    refine holds_of_get hloco ?_
    rw [hs'', hx]
    refine get_leaves hsound' hset (fun op hop => hops op (hpre.subset hop)) ?_
    exact fun hid pre' op hpre' => hzero hid pre' op (hpre'.trans hpre)

/-- Loco 3, inverted -/
def inverted : RMFT2 := { RMFT2.zero with loco := 3, invert := true }

/-- Other locos come and go meanwhile: 7 and 9 were there before, 9 is taken out and 8 is stashed. -/
def others : List StashOp := [.set 200 8, .clear 101]

theorem stash_found_again_picked_up :
    ∃ s', execute pauseAndEnd .idle 0 { inverted with invert := false } 100 (some .stash)
        { init bareRails [] fun _ => .zero with stash := after [.set 0 7, .set 101 9] [] } =
          .ok (.breaks, s') ∧
      Holds pauseAndEnd 100 3 false { s' with stash := after others s'.stash } := by
  have hloco : IsLoco 3 := by decide
  have hothers : ∀ op ∈ others, Leaves 100 (stashed 3 false) op := by
    intro op hop m hm
    rcases List.mem_pair.mp hop with rfl | rfl
    · exact (Function.update_of_ne (by decide) ..).trans hm
    · exact (Function.update_of_ne (by decide) ..).trans hm
  obtain ⟨s', hstash, hfound⟩ := stash_found_again pauseAndEnd .idle 0 { inverted with invert := false } 100
    [.set 0 7, .set 101 9] others
    { init bareRails [] fun _ => .zero with stash := after [.set 0 7, .set 101 9] [] } hloco rfl hothers
  exact ⟨s', hstash, hfound.mpr ⟨rfl, fun h => absurd h (by decide)⟩ others (List.prefix_refl _) _ rfl⟩

/-- Not if it is inverted: `IFSTASHED_HERE` is then false for its own task. -/
theorem stash_inverted_not_here : ¬ ∀ (script : Script) (w : Inputs) (this : Addr) (task : RMFT2) (id : Int16)
    (s s' : Exrail), IsLoco task.loco → s.stash = [] →
    execute script w this task id (some .stash) s = .ok (.breaks, s') →
    Holds script id task.loco task.invert s' := by
  intro h
  have hholds := h pauseAndEnd .idle 0 inverted 100 (init bareRails [] fun _ => .zero) _ (by decide) rfl
    execute_stash
  have hhere := (hholds.ifstashedHere .idle 0 inverted).mpr rfl
  rw [passes_ifstashedHere] at hhere
  exact absurd hhere (by decide)

end CommandStation.Exrail
