import CommandStation.EXRAIL2.Reading
import CommandStation.EXRAIL2.Pausing
import CommandStation.EXRAIL2.TaskIds

/-!
# Nested conditions

A script whose conditions are well nested is read as it is nested, in every state that is reached, as
long as no more than 32767 conditions are nested: `skipIfBlock` counts them with a `short`.
-/

namespace CommandStation

open CommandStation.Lib CommandStation.Tasks

namespace Exrail

variable {script : Script} {w : Inputs} {s s' : Exrail} {this : Addr} {bound k : Nat}
  {todo : Block Statement Condition}

/-- The state is reached from a start-up. -/
def Reached (script : Script) (s : Exrail) : Prop :=
  ∃ rails turnouts mem w turns, history script w turns (init rails turnouts mem) = .ok ((), s)

theorem Reached.well (h : Reached script s) : s.tasks.Well script := by
  obtain ⟨_, _, _, _, _, hexec⟩ := h
  exact (wp_of_ok hexec (kept_ids.wp_begin_run fun _ => ids_init _)).1

/-- In a state that is reached, the task is at a cell. A task that blinks a pin executes nothing. -/
structure Executes (script : Script) (this : Addr) (k : Nat) (s : Exrail) : Prop where
  reached : Reached script s
  live : this ∈ s.tasks.live
  calm : script.has Script.featureBlink → (s.tasks.mem this).isBlink = false
  at_ : (s.tasks.mem this).progCounter = 3 * k

theorem Executes.isAt (h : Executes script this k s) (hremains : Remains script bound todo k) :
    IsAt script bound this k todo s :=
  ⟨⟨h.reached.well, h.live, h.calm, h.at_⟩, hremains⟩

/-- The script is read as the block. -/
structure ReadsAs (script : Script) (b : Block Statement Condition) : Prop where
  /-- From the first cell on all of it is left to do, from the last one nothing, and from each cell
  a definite part. -/
  whole : Remains script b.depth b 0
  nothing : ∀ todo, Remains script b.depth todo script.lastCell → todo = .done
  everywhere : ∀ k ≤ script.lastCell, ∃ todo, Remains script b.depth todo k
  /-- As long as a task is neither killed nor sent elsewhere, it is seen to do what the part of the
  block that is left to do says, and comes to where the rest of it is left to do. -/
  reads : ∀ s this k todo es s', Executes script this k s → Remains script b.depth todo k →
    Stretch script this s es s' → Advances script b.depth this todo es s'
  /-- What it does in the next call is what comes next, whether it survives this call or not. -/
  next : ∀ s this k todo (turn : Turn), Executes script this k s → Remains script b.depth todo k →
    ∃ todo', Reads todo (turn.seen script s this) todo'
  /-- Between statements it always goes on. -/
  goesOn : ∀ s this k todo w, Executes script this k s → Remains script b.depth todo k →
    (Turn.loop w).steps script s this → k ≠ script.lastCell →
    (∀ op, Event.visit op ∉ (Turn.loop w).seen script s this) →
    ∃ s', (Turn.loop w).exec script s = .ok ((), s') ∧
      Advances script b.depth this todo ((Turn.loop w).seen script s this) s'

/-- What is seen at a cell is what comes next. -/
theorem IsAt.next (h : IsAt script bound this k todo s) :
    ∃ todo', Reads todo (seen script w this s) todo' := by
  have hmark : ∀ {op : Opcode}, script.cellAt k = op.toByte → Opcode.opensIf op.toByte = false →
      op.isStatement = false → ∃ todo', Reads todo (seen script w this s) todo' := by
    intro op hop hopens hstatement
    rw [seen_mark (h.stays.opcodeAt hop) hopens hstatement]
    exact ⟨todo, .nil todo⟩
  have hbranch : ∀ {c : Condition} {held failed : Block Statement Condition},
      script.cellAt k = c.op.toByte → todo.Step (.branch c true) held →
      todo.Step (.branch c false) failed → ∃ todo', Reads todo (seen script w this s) todo' := by
    intro c held failed hop hheld hfailed
    rw [seen_condition (h.stays.opcodeAt hop)]
    cases skips script w (s.tasks.mem this) (arg script (s.tasks.mem this) 0).toInt16 c.op s with
    | false => exact ⟨held, .one hheld⟩
    | true => exact ⟨failed, .one hfailed⟩
  cases h.remains.2 with
  | done hk => exact hmark (hk ▸ script.ends) rfl rfl
  | pad hop => exact hmark hop rfl rfl
  | endif hop => exact hmark hop rfl rfl
  | else_ hop => exact hmark hop rfl rfl
  | stmt hs =>
    rw [seen_statement (h.stays.opcodeAt hs.2.2.1)]
    exact ⟨_, .one (.stmt _ _)⟩
  | ifThen hc => exact hbranch hc.2.2.1 (.ifThen_held _ _ _) (.ifThen_failed _ _ _)
  | ifElse hc => exact hbranch hc.2.2.1 (.ifElse_held _ _ _ _) (.ifElse_failed _ _ _ _)

/-- **Structured scripts are read as they are nested**, if no more than 32767 conditions are. -/
theorem reads_as_nested (script : Script) (b : Block Statement Condition)
    (hplaced : Placed script.layout b (· = script.lastCell) 0) (hdepth : b.depth ≤ 32767) :
    ReadsAs script b := by
  have hfinish : ∀ q, q = script.lastCell →
      Rest script.layout (· = script.lastCell) b.depth .done q := fun q hq => .done hq
  have hwhole := hplaced.rest (Nat.le_refl _) hfinish
  rw [Block.append_done] at hwhole
  refine ⟨⟨Nat.zero_le _, hwhole⟩, fun todo h => h.done, fun k hk => ?_, ?_, ?_, ?_⟩
  · have hbehind : ∀ q, q = script.lastCell → ∀ j, q ≤ j → j ≤ script.lastCell →
        ∃ todo, Rest script.layout (· = script.lastCell) b.depth todo j :=
      fun q hq j hj hlast => ⟨.done, .done (Nat.le_antisymm hlast (hq ▸ hj))⟩
    obtain ⟨todo, htodo⟩ :=
      hplaced.rest_everywhere (Nat.le_refl _) hfinish hbehind k (Nat.zero_le k) hk
    exact ⟨todo, hk, htodo⟩
  · intro s this k todo es s' hthis hremains hrun
    exact (hthis.isAt hremains).stretch hdepth hrun
  · intro s this k todo turn hthis hremains
    by_cases hsteps : turn.steps script s this
    · cases turn with
      | command w c => cases hsteps
      | loop w =>
        rw [seen_loop hsteps]
        exact (hthis.isAt hremains).next
    · rw [seen_of_not_steps hsteps]
      exact ⟨todo, .nil todo⟩
  · intro s this k todo w hthis hremains hsteps hlast hvisit
    rw [seen_loop hsteps] at hvisit ⊢
    have hloop : wp (fun _ => False) (loop script w)
        (fun _ => Advances script b.depth this todo (seen script w this s)) s := by
      refine (hthis.isAt hremains).wp_loop_steps hsteps.1 fun s' hs' h' => ?_
      have hready : ready script w (s'.tasks.mem this) := by
        rw [hs']
        exact hsteps.2
      rw [← seen_of_steps hs'] at hvisit ⊢
      exact h'.wp_silent hdepth hready hlast hvisit
    obtain ⟨_, s', hexec, hadvances⟩ := wp_iff_exists.mp hloop
    exact ⟨s', hexec, hadvances⟩

/-! ## A script that is read -/

theorem padded_succ : script.padded k (k + 1) := ⟨Nat.lt_succ_self k, fun j hj hlt => by omega⟩

theorem placed_stmt {stmt : Statement} {rest : Block Statement Condition} {K : Nat → Prop}
    (hpads : stmt.pads = 0) (hop : script.cellAt k = stmt.op.toByte) (hprint : stmt.op ≠ .print)
    (hrest : Placed script.layout rest K (k + 1)) : Placed script.layout (.stmt stmt rest) K k :=
  ⟨k + 1, ⟨by rw [hpads], padded_succ, hop, fun heq => absurd heq hprint⟩, hrest⟩

/-- `AUTOSTART IFGTE(1,100) LATCH(5) ELSE UNLATCH(5) ENDIF` -/
@[irreducible] def latchIfHigh : Script := Script.ofCells 0 (fun _ => .text)
  [(.autostart, 0), (.ifgte, 1), (.pad, 100), (.latch, 5), (.else_, 0), (.unlatch, 5), (.endif, 0)]

theorem reads_as_nested_of_ifgte : ReadsAs latchIfHigh
    (.stmt ⟨.autostart, 0, rfl⟩ (.ifElse ⟨.ifgte, 1, rfl⟩ (.stmt ⟨.latch, 0, rfl⟩ .done)
      (.stmt ⟨.unlatch, 0, rfl⟩ .done) .done)) := by
  refine reads_as_nested _ _ ?_ (by decide)
  refine placed_stmt rfl (by decide +kernel) (by decide) ?_
  refine ⟨3, ⟨rfl, ⟨by decide, fun j hj hlt => ?_⟩, by decide +kernel, fun heq => by cases heq⟩, ?_⟩
  · obtain rfl : j = 2 := by omega
    decide +kernel
  · have helse : latchIfHigh.cellAt 4 = Opcode.else_.toByte := by decide +kernel
    have hendif : latchIfHigh.cellAt 6 = Opcode.endif.toByte := by decide +kernel
    have hlast : 7 = latchIfHigh.lastCell := by decide +kernel
    refine placed_stmt rfl (by decide +kernel) (by decide) ⟨helse, ?_⟩
    exact placed_stmt rfl (by decide +kernel) (by decide) ⟨hendif, hlast⟩

/-! ## Conditions that are nested too deep -/

/-- `LATCH(5)` in `n` conditions. -/
def nestedIf : Nat → Block Statement Condition
  | 0 => .stmt ⟨.latch, 0, rfl⟩ .done
  | n + 1 => .ifThen ⟨.if_, 0, rfl⟩ (nestedIf n) .done

/-- `n` times `IF`, `LATCH` and `n` times `ENDIF` are a block in the script. -/
theorem placed_nestedIf {n : Nat} {K : Nat → Prop}
    (hif : ∀ j, j < n → script.cellAt (k + j) = Opcode.if_.toByte)
    (hlatch : script.cellAt (k + n) = Opcode.latch.toByte)
    (hendif : ∀ j, j < n → script.cellAt (k + n + 1 + j) = Opcode.endif.toByte)
    (hK : K (k + 2 * n + 1)) : Placed script.layout (nestedIf n) K k := by
  induction n generalizing k K with
  | zero => exact placed_stmt rfl hlatch (by decide) hK
  | succ n ih =>
    refine ⟨k + 1, ⟨rfl, padded_succ, hif 0 (Nat.succ_pos n), fun heq => by cases heq⟩, ?_⟩
    refine ih (fun j hj => ?_) ?_ (fun j hj => ?_) ⟨?_, ?_⟩
    · have hcell := hif (j + 1) (by omega)
      rwa [show k + (j + 1) = k + 1 + j by omega] at hcell
    · rwa [show k + (n + 1) = k + 1 + n by omega] at hlatch
    · have hcell := hendif j (by omega)
      rwa [show k + (n + 1) + 1 + j = k + 1 + n + 1 + j by omega] at hcell
    · have hcell := hendif n (Nat.lt_succ_self n)
      rwa [show k + (n + 1) + 1 + n = k + 1 + 2 * n + 1 by omega] at hcell
    · rwa [show k + 2 * (n + 1) + 1 = k + 1 + 2 * n + 1 + 1 by omega] at hK

/-- `AUTOSTART`, `n` times `IF(1)`, `LATCH(5)`, `n` times `ENDIF` -/
@[irreducible] def deep (n : Nat) : Script := Script.ofCells 0 (fun _ => .text)
  ((.autostart, 0) :: (List.replicate n (.if_, 1) ++ (.latch, 5) :: List.replicate n (.endif, 0)))

theorem cellAt_ofCells {features : UInt8} {messages : UInt16 → Message}
    {cells : List (Opcode × UInt16)} : (Script.ofCells features messages cells).cellAt k =
      (cells.getD k (.endexrail, 0)).1.toByte := by
  have hcell : (3 * (k : Int)).toNat = 3 * k := by omega
  simp [Script.cellAt, Script.getOpcode, Script.ofCells, hcell]

section Deep

variable {n j : Nat}

theorem lastCell_deep : (deep n).lastCell = 2 * n + 2 := by
  unfold deep
  simp [Script.ofCells]
  omega

theorem cellAt_deep_if (hj : j < n) : (deep n).cellAt (1 + j) = Opcode.if_.toByte := by
  unfold deep
  rw [cellAt_ofCells, Nat.add_comm]
  simp [List.getElem?_append_left, hj]

theorem cellAt_deep_latch : (deep n).cellAt (1 + n) = Opcode.latch.toByte := by
  unfold deep
  rw [cellAt_ofCells, Nat.add_comm]
  simp

theorem cellAt_deep_endif (hj : j < n) : (deep n).cellAt (1 + n + 1 + j) = Opcode.endif.toByte := by
  unfold deep
  rw [cellAt_ofCells, show 1 + n + 1 + j = n + (1 + j) + 1 by omega]
  simp [hj, Nat.add_comm 1 j]

theorem placed_deep : Placed (deep n).layout (nestedIf n) (· = (deep n).lastCell) 1 := by
  refine placed_nestedIf (fun j hj => cellAt_deep_if hj) cellAt_deep_latch
    (fun j hj => cellAt_deep_endif hj) ?_
  rw [lastCell_deep]
  omega

theorem cellAt_deep_zero : (deep n).cellAt 0 = Opcode.autostart.toByte := by
  unfold deep
  rw [cellAt_ofCells]
  rfl

/-- Only the first cell is an `AUTOSTART`. -/
theorem autostart_deep : ((deep n).cells.filter fun progCounter =>
    (deep n).getOpcode progCounter == Opcode.autostart.toByte) = [0] := by
  have hzero : (deep n).getOpcode 0 = Opcode.autostart.toByte := cellAt_deep_zero
  have hcells : (deep n).cells = 0 :: ((List.range (2 * n + 1)).map fun (k : Nat) =>
      (3 * (k + 1 : Nat) : Int)).takeWhile fun progCounter =>
        (deep n).getOpcode progCounter != Opcode.endexrail.toByte := by
    rw [Script.cells, lastCell_deep, List.range_succ_eq_map, List.map_cons, List.map_map]
    exact List.takeWhile_cons_of_pos (by simp [hzero]; decide)
  have hother : ∀ j, j < 2 * n + 1 → (deep n).cellAt (j + 1) ≠ Opcode.autostart.toByte := by
    intro j hj
    rcases Nat.lt_trichotomy j n with hlt | rfl | hgt
    · rw [Nat.add_comm, cellAt_deep_if hlt]
      decide
    · rw [Nat.add_comm, cellAt_deep_latch]
      decide
    · rw [show j + 1 = 1 + n + 1 + (j - n - 1) by omega, cellAt_deep_endif (by omega)]
      decide
  rw [hcells, List.filter_cons_of_pos (by simp [hzero]), List.filter_eq_nil_iff.mpr]
  intro progCounter hmem
  obtain ⟨j, hj, rfl⟩ := List.mem_map.mp ((List.takeWhile_prefix _).subset hmem)
  have hne : (deep n).getOpcode (3 * (j + 1 : Nat)) ≠ Opcode.autostart.toByte :=
    hother j (List.mem_range.mp hj)
  simpa using hne

/-- The count overflows in the innermost of 32768 conditions, and the scan stops there. -/
theorem skipFrom_deep : skipFrom (deep 32768) ((deep 32768).lastCell + 2) 1 (3 * (1 : Nat)) =
    some (3 * ((32768 : Nat) : Int), true) := by
  have hscan : ∀ i, i ≤ 32767 → Scans (deep 32768) 1 1 (1 + i) (1 + i) := by
    intro i hi
    induction i with
    | zero => exact .refl
    | succ i ih =>
      have hif : (deep 32768).cellAt (1 + i + 1) = Opcode.if_.toByte :=
        cellAt_deep_if (j := i + 1) (by omega)
      have hcell : Scans (deep 32768) (1 + i) (1 + i) (countAfter .if_ (1 + i)) (1 + i + 1) :=
        Scans.cell (by omega) (by omega) hif (by decide)
      exact (ih (by omega)).trans hcell
  have heq := (hscan 32767 (Nat.le_refl _)).eq 32773
  rw [lastCell_deep]
  refine heq.trans ?_
  rw [skipFrom, if_pos (by decide)]

/-- After `AUTOSTART` the task is at the outermost condition, which fails. -/
theorem history_deep : ∃ s, history (deep 32768) .idle [.loop .idle]
      (init bareRails [] fun _ => .zero) = .ok ((), s) ∧
    1 ∈ s.tasks.live ∧ (s.tasks.mem 1).progCounter = 3 ∧
    (Turn.loop .idle).steps (deep 32768) s 1 ∧ (deep 32768).has Script.featureBlink = false ∧
    skips (deep 32768) .idle (s.tasks.mem 1) (arg (deep 32768) (s.tasks.mem 1) 0).toInt16 .if_ s =
      true := by
  have hbegin : begin (deep 32768) .idle = (do
      when ((deep 32768).has Script.featureSignal) (runProg (fun entry : Int16 × Int16 =>
        doSignal (deep 32768) .idle entry.1 signalRed) (deep 32768).signalLookup)
      runProg (fun progCounter => newTask .idle progCounter 0 false) [0]) := by
    rw [begin, autostart_deep]
  have hrun : wp (fun _ => False) (history (deep 32768) .idle [.loop .idle]) (fun _ s =>
      1 ∈ s.tasks.live ∧ (s.tasks.mem 1).progCounter = 3 ∧
      (Turn.loop .idle).steps (deep 32768) s 1 ∧ (deep 32768).has Script.featureBlink = false ∧
      skips (deep 32768) .idle (s.tasks.mem 1) (arg (deep 32768) (s.tasks.mem 1) 0).toInt16 .if_ s =
        true) (init bareRails [] fun _ => .zero) := by
    rw [history, hbegin]
    decide +kernel
  obtain ⟨_, s, hexec, hs⟩ := wp_iff_exists.mp hrun
  exact ⟨s, hexec, hs⟩

end Deep

theorem reads_failed {c : Condition} {thens rest todo' : Block Statement Condition}
    (h : Reads (.ifThen c thens rest) [.branch c.op false] todo') : todo' = rest := by
  generalize hes : [Event.branch c.op false] = es at h
  cases h with
  | nil => cases hes
  | step hstep hrest =>
    obtain ⟨hseen, rfl⟩ := List.cons.inj hes
    cases hrest
    cases hstep with
    | ifThen_held => cases hseen
    | ifThen_failed => rfl

/-- Where nothing is left to do, there is no statement. -/
theorem Remains.not_statement {stmt : Statement} (h : Remains script bound .done k)
    (hop : script.cellAt k = stmt.op.toByte) : False := by
  have hmark : ∀ {op : Opcode}, script.cellAt k = op.toByte → op.isStatement = false → False := by
    intro op hcell hstatement
    have hstmt := stmt.isStatement
    rw [← Opcode.toByte_injective (hcell.symm.trans hop), hstatement] at hstmt
    cases hstmt
  cases h.2 with
  | done hk => exact hmark (hk ▸ script.ends) rfl
  | pad hcell => exact hmark hcell rfl
  | endif hcell => exact hmark hcell rfl
  | else_ hcell => exact hmark hcell rfl

/-- The outermost of 32768 conditions fails, and the task goes to the `LATCH` in the innermost one. -/
theorem nested_too_deep : ¬ ∀ (script : Script) (b : Block Statement Condition),
    Placed script.layout b (· = script.lastCell) 0 → ReadsAs script b := by
  intro hall
  have hplaced : Placed (deep 32768).layout (.stmt ⟨.autostart, 0, rfl⟩ (nestedIf 32768))
      (· = (deep 32768).lastCell) 0 := placed_stmt rfl cellAt_deep_zero (by decide) placed_deep
  have hreads := hall _ _ hplaced
  obtain ⟨s, hexec, hlive, hpc, hsteps, hfeature, hskips⟩ := history_deep
  have hthis : Executes (deep 32768) 1 1 s := by
    refine ⟨⟨_, _, _, _, _, hexec⟩, hlive, fun h => ?_, hpc⟩
    rw [hfeature] at h
    cases h
  -- the script is read as nested, from the condition on
  have hremains : Remains (deep 32768) (Block.depth (.stmt ⟨.autostart, 0, rfl⟩ (nestedIf 32768)))
      (nestedIf 32768) 1 := by
    refine ⟨by rw [lastCell_deep]; omega, ?_⟩
    have hrest := placed_deep.rest (Nat.le_refl _) fun q hq => Rest.done (L := (deep 32768).layout) hq
    rwa [Block.append_done] at hrest
  have hat := hthis.isAt hremains
  have hif : (deep 32768).cellAt 1 = Opcode.if_.toByte := cellAt_deep_if (j := 0) (by decide)
  have hseen : (Turn.loop .idle).seen (deep 32768) s 1 = [.branch .if_ false] := by
    rw [seen_loop hsteps, seen_condition (c := ⟨.if_, 0, rfl⟩) (hat.stays.opcodeAt hif), hskips]
    rfl
  obtain ⟨s', hturn, k', todo', hat', hread⟩ := hreads.goesOn s 1 1 _ .idle hthis hremains hsteps
    (by rw [lastCell_deep]; decide) (by rw [hseen]; simp)
  rw [hseen] at hread
  have hdone : todo' = .done := reads_failed (c := ⟨.if_, 0, rfl⟩) hread
  -- but it goes on inside
  have hinside : wp (fun _ => False) (loop (deep 32768) .idle)
      (fun _ s' => StaysAt (deep 32768) 1 (3 * (32769 : Nat)) s'.tasks) s := by
    refine hat.wp_loop_steps hsteps.1 fun s₁ hs₁ h₁ => ?_
    rw [hs₁] at h₁ ⊢
    refine wp_loop2_condition h₁.stays hsteps.2 hif (.inl rfl) (fun heq => by cases heq)
      (fun hheld => ?_) fun _ => ⟨32768, skipFrom_deep, fun s' hs' => hs'⟩
    rw [skips_eq (s := s) rfl] at hheld
    exact absurd (hheld.symm.trans hskips) (by decide)
  have hk' : k' = 32769 := by
    have hpc' := hat'.stays.at_
    rw [(wp_of_ok hturn hinside).at_] at hpc'
    omega
  subst hk' hdone
  have hlatch : (deep 32768).cellAt 32769 = (⟨.latch, 0, rfl⟩ : Statement).op.toByte :=
    cellAt_deep_latch
  exact hat'.remains.not_statement hlatch

end Exrail

end CommandStation
