import CommandStation.ADCee.Samples
import CommandStation.Lib.RoundRobin
import Mathlib.Data.List.Rotate

/-!
# The round of the pins

The scans give the converter to the pins that are in use, one after the other. No pin that is in use has
to wait for another one twice.
-/

namespace CommandStation.ADCee.Scanner

open CommandStation.Lib

variable {a0 : UInt8} {inputs : Nat} {s : Scanner}

/-- The pins in the order in which the next search looks at them. -/
def order (s : Scanner) : List Nat :=
  (List.range (s.highestPin + 1)).rotate (if s.waiting then s.id + 1 else s.id)

/-- The pin whose conversion an event starts. -/
def Event.starts (s : Scanner) : Event → Option Nat
  | .scan =>
    if s.waiting = true ∧ s.adc.converting.isSome = true ∨ s.usedpins = 0 then none else s.scan.map Scanner.id
  | _ => none

/-- The pins that a run converts, in order. -/
def started (a0 : UInt8) (inputs : Nat) : Option Scanner → List Event → List Nat
  | some s, e :: es => (e.starts s).toList ++ started a0 inputs (s.act a0 inputs e) es
  | _, _ => []

/-- Only the interrupt and the converter. -/
def Event.IsScan : Event → Prop
  | .finish _ | .scan => True
  | _ => False

instance : DecidablePred Event.IsScan
  | .finish _ | .scan => isTrue trivial
  | .initSelect _ | .initStart | .initStore => isFalse not_false

/-- The seek for the next pin in use is one turn of a round robin. -/
theorem turn_seek {used : BitVec 16} {highestPin i k : Nat} (hk : k ≤ highestPin)
    (hfound : used.getLsbD ((i + k) % (highestPin + 1)) = true)
    (hskip : ∀ j < k, used.getLsbD ((i + j) % (highestPin + 1)) = false) :
    RoundRobin.turn used.getLsbD ((List.range (highestPin + 1)).rotate i) =
      (some ((i + k) % (highestPin + 1)), (List.range (highestPin + 1)).rotate (i + k + 1)) := by
  have hlen : ((List.range (highestPin + 1)).rotate i).length = highestPin + 1 := by simp
  have hget : ∀ j (hj : j < ((List.range (highestPin + 1)).rotate i).length),
      ((List.range (highestPin + 1)).rotate i)[j] = (i + j) % (highestPin + 1) := by
    intro j hj
    rw [List.getElem_rotate, List.getElem_range, List.length_range, Nat.add_comm]
  have hrotate : (List.range (highestPin + 1)).rotate (i + k + 1) =
      ((List.range (highestPin + 1)).rotate i).rotate (k + 1) := by
    rw [List.rotate_rotate, Nat.add_assoc]
  rw [hrotate]
  generalize (List.range (highestPin + 1)).rotate i = queue at hlen hget
  have hlt : k < queue.length := by omega
  have hsplit : queue = queue.take k ++ queue[k] :: queue.drop (k + 1) := by simp
  have hskipped : ∀ x ∈ queue.take k, used.getLsbD x = false := by
    intro x hx
    obtain ⟨j, hj, rfl⟩ := List.mem_take_iff_getElem.1 hx
    rw [hget]
    exact hskip j (by omega)
  have hturn : RoundRobin.turn used.getLsbD (queue.take k ++ queue[k] :: queue.drop (k + 1)) = _ :=
    RoundRobin.turn_some hskipped (hget k hlt ▸ hfound)
  rw [← hsplit, hget k hlt] at hturn
  rw [hturn, List.rotate_eq_drop_append_take (by omega), List.take_succ_eq_append_getElem hlt, hget k hlt]

/-- A search is a turn of a round robin. -/
theorem Good.startNext_turn (h : Good inputs s) (hwaiting : s.waiting = false) (hused : s.usedpins ≠ 0)
    {s' : Scanner} (hstart : s.startNext = some s') :
    (some s'.id, s'.order) = RoundRobin.turn s.usedpins.getLsbD s.order ∧ s'.usedpins = s.usedpins ∧
      s'.init = s.init := by
  obtain ⟨u, hu⟩ := exists_used hused
  obtain ⟨k, hk, hseek, hfound, hskip⟩ := seek_eq h.id hu (h.used u hu)
  have hplace : (s.id, s.mask) = place s.id := by rw [h.mask]; rfl
  rw [Scanner.startNext, if_neg hused, hplace, hseek] at hstart
  obtain rfl := Option.some_inj.1 hstart
  refine ⟨?_, rfl, rfl⟩
  have hturn := turn_seek hk hfound hskip
  simp only [order, hwaiting, Bool.false_eq_true, if_false, if_true]
  rw [hturn]
  congr 1
  rw [← List.rotate_mod, ← List.rotate_mod _ (s.id + k + 1), List.length_range, Nat.mod_add_mod]

theorem starts_scan (hfree : ¬(s.waiting = true ∧ s.adc.converting.isSome = true)) (hused : s.usedpins ≠ 0)
    {s' : Scanner} (hscan : s.scan = some s') : Event.starts s .scan = some s'.id := by
  rw [Event.starts, if_neg (not_or.2 ⟨hfree, hused⟩), hscan, Option.map_some]

/-- A scan is a turn, or it waits or has no pins and changes nothing. -/
theorem Good.scan_turn (h : Good inputs s) (hinputs : inputs ≤ 16) (hidle : s.init = .idle) :
    ∃ s', s.scan = some s' ∧ Good inputs s' ∧ s'.init = .idle ∧ s'.usedpins = s.usedpins ∧
      (Event.starts s .scan = none ∧ s'.order = s.order ∨
        Event.starts s .scan = (RoundRobin.turn s.usedpins.getLsbD s.order).1 ∧
          s'.order = (RoundRobin.turn s.usedpins.getLsbD s.order).2) := by
  obtain ⟨s', hscan, h'⟩ := h.scan hinputs (.inl hidle)
  refine ⟨s', hscan, h', ?_⟩
  cases hwaiting : s.waiting with
  | false =>
    have hstart : s.startNext = some s' := by rwa [Scanner.scan, hwaiting] at hscan
    by_cases hused : s.usedpins = 0
    · rw [Scanner.startNext, if_pos hused] at hstart
      obtain rfl := Option.some_inj.1 hstart
      exact ⟨hidle, rfl, .inl ⟨if_pos (.inr hused), rfl⟩⟩
    · obtain ⟨hturn, hpins, hinit⟩ := h.startNext_turn hwaiting hused hstart
      refine ⟨hinit.trans hidle, hpins, .inr ?_⟩
      rw [← hturn]
      exact ⟨starts_scan (by simp [hwaiting]) hused hscan, rfl⟩
  | true =>
    have hused := h.usedpins_ne_zero hwaiting
    cases hdone : s.adc.converting with
    | some channel =>
      have hsame : s.scan = some s := by simp [Scanner.scan, hwaiting, hdone]
      obtain rfl := Option.some_inj.1 (hsame.symm.trans hscan)
      exact ⟨hidle, rfl, .inl ⟨if_pos (.inl ⟨hwaiting, by rw [hdone]; rfl⟩), rfl⟩⟩
    | none =>
      obtain ⟨c, hcollect, hc, hcwaiting, hcidle, hcpins, hchighest, hcid⟩ := h.collect hwaiting hdone
      have hstart : c.startNext = some s' := hcollect.symm.trans hscan
      obtain ⟨hturn, hpins, hinit⟩ := hc.startNext_turn hcwaiting (by rwa [hcpins]) hstart
      have horder : c.order = s.order := by
        rw [order, order, hwaiting, hcwaiting, hchighest, hcid, if_pos rfl, if_neg Bool.false_ne_true,
          ← List.rotate_mod _ (s.id + 1), List.length_range]
      rw [hcpins, horder] at hturn
      refine ⟨hinit.trans hcidle, hpins.trans hcpins, .inr ?_⟩
      rw [← hturn]
      exact ⟨starts_scan (by simp [hdone]) hused hscan, rfl⟩

theorem nodup_order (s : Scanner) : s.order.Nodup := List.nodup_rotate.2 List.nodup_range

theorem Good.mem_order (h : Good inputs s) {i : Nat} (hi : s.usedpins.getLsbD i = true) : i ∈ s.order :=
  List.mem_rotate.2 (List.mem_range.2 (Nat.lt_succ_of_le (h.used i hi)))

/-- **The run lemma.** The conversions of a run are the turns of a round robin among the pins in use. -/
theorem Good.run_turns (h : Good inputs s) (a0 : UInt8) (hinputs : inputs ≤ 16) (hidle : s.init = .idle)
    {es : List Event}
    (hes : ∀ e ∈ es, e.IsScan) :
    ∃ turns : List (RoundRobin.Event Nat),
      RoundRobin.served s.order turns = started a0 inputs (some s) es ∧
      ∀ t ∈ turns, t = .pause ∨ t = .turn s.usedpins.getLsbD := by
  induction es generalizing s with
  | nil => exact ⟨[], rfl, fun _ ht => nomatch ht⟩
  | cons e es ih =>
    have hrest : ∀ e ∈ es, e.IsScan := fun e he => hes e (List.mem_cons_of_mem _ he)
    cases e with
    | initSelect pin => exact (hes _ List.mem_cons_self).elim
    | initStart => exact (hes _ List.mem_cons_self).elim
    | initStore => exact (hes _ List.mem_cons_self).elim
    | finish value => exact ih (h.finish value) hidle hrest
    | scan =>
      obtain ⟨s', hscan, h', hidle', hpins, hwhat⟩ := h.scan_turn hinputs hidle
      obtain ⟨turns, hserved, hturns⟩ := ih h' hidle' hrest
      rw [hpins] at hturns
      have hact : s.act a0 inputs .scan = some s' := hscan
      obtain ⟨hstarts, horder⟩ | ⟨hstarts, horder⟩ := hwhat
      · refine ⟨turns, ?_, hturns⟩
        rw [started, hstarts, hact, ← hserved, horder]
        rfl
      · refine ⟨.turn s.usedpins.getLsbD :: turns, ?_, ?_⟩
        · rw [started, hstarts, hact, ← hserved, horder]
          rfl
        · rintro t (_ | ⟨_, ht⟩)
          · exact .inr rfl
          · exact hturns t ht

/-- The pins that are in use. -/
def pinsInUse (s : Scanner) : List Nat := (List.range 16).filter s.usedpins.getLsbD

/-- **Every pin gets its turn.** As long as a pin in use is not converted, no other pin is converted twice,
so fewer conversions are started than there are pins in use. -/
theorem scans_go_round (hpos : 0 < inputs) (hinputs : inputs ≤ 16) (before after : List Event)
    (hbefore : Along (step a0 inputs) InTurn (some fresh) before) (s : Scanner)
    (hrun : run (step a0 inputs) (some fresh) before = some s) (hidle : s.init = .idle)
    (hafter : ∀ e ∈ after, e.IsScan) (i : Nat) (hi : i ∈ s.pinsInUse)
    (hwaits : i ∉ started a0 inputs (some s) after) :
    (started a0 inputs (some s) after).Nodup ∧
      (started a0 inputs (some s) after).length < s.pinsInUse.length := by
  obtain ⟨_, hrun', h⟩ := (good_fresh hpos).run hinputs hbefore
  obtain rfl := Option.some_inj.1 (hrun.symm.trans hrun')
  obtain ⟨turns, hserved, hturns⟩ := h.run_turns a0 hinputs hidle hafter
  have hused : s.usedpins.getLsbD i = true := (List.mem_filter.1 hi).2
  rw [← hserved] at hwaits ⊢
  have hkinds : ∀ t ∈ turns, t = .pause ∨ ∃ ready, t = .turn ready ∧ ready i = true :=
    fun t ht => (hturns t ht).imp_right fun heq => ⟨_, heq, hused⟩
  have hnodup := RoundRobin.served_nodup (nodup_order s) (h.mem_order hused)
    (RoundRobin.along_of_not_mem_served hkinds hwaits)
  have hsub : i :: RoundRobin.served s.order turns ⊆ s.pinsInUse := by
    refine List.cons_subset.2 ⟨hi, fun d hd => ?_⟩
    have hd' : s.usedpins.getLsbD d = true := by
      refine RoundRobin.ready_of_mem_served (P := fun d => s.usedpins.getLsbD d = true) ?_ hd
      rintro t ht ready rfl x hx
      obtain heq | heq := hturns _ ht
      · cases heq
      · cases heq
        exact hx
    exact List.mem_filter.2 ⟨List.mem_range.2 (BitVec.lt_of_getLsbD hd'), hd'⟩
  exact ⟨hnodup, (List.Nodup.subperm (List.nodup_cons.2 ⟨hwaits, hnodup⟩) hsub).length_le⟩

/-- Two pins are in use, and the first one is being converted. -/
def twoInUse : Scanner where
  adc := ⟨0, false, some 0, ⟨1, 510⟩⟩
  usedpins := 3
  highestPin := 1
  analogvals := some (⟨0, 500⟩ :: ⟨1, 510⟩ :: List.replicate 14 ⟨0, 0⟩)
  usesHighPort := false
  id := 0
  mask := 1
  waiting := true
  init := .idle

theorem scans_go_round_two :
    (started 54 16 (some twoInUse) [.finish 501, .scan, .scan]).Nodup ∧
      (started 54 16 (some twoInUse) [.finish 501, .scan, .scan]).length < twoInUse.pinsInUse.length :=
  scans_go_round (by decide) (by decide)
    [.initSelect 54, .initStart, .finish 500, .initStore, .initSelect 55, .initStart, .finish 510,
      .initStore, .scan]
    [.finish 501, .scan, .scan] (by decide) twoInUse (by decide) rfl (by decide) 0 (by decide) (by decide)

end CommandStation.ADCee.Scanner
