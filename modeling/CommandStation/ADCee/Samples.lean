import CommandStation.ADCee.Basic
import Mathlib.Data.BitVec
import Mathlib.Data.Nat.Find

/-!
# What the readings are readings of

As long as pins are initialised where the header says, the reading of a pin is a result that was taken
from that pin, nothing is written out of bounds and the search for the next pin ends.

A pin that is initialised while the scan waits for a result brings another pin's reading in the place of
the one that the scan waited for. The scan always waits once it has seen a pin in use.
-/

namespace CommandStation.ADCee.Scanner

open CommandStation.Lib

variable {a0 : UInt8} {inputs : Nat} {s : Scanner}

/-! ## Bits -/

theorem shifted_and_eq_zero (used : BitVec 16) (i : Nat) :
    (1#16 <<< i) &&& used = 0#16 ↔ used.getLsbD i = false := by
  change BitVec.twoPow 16 i &&& used = 0#16 ↔ used.getLsbD i = false
  rw [BitVec.and_comm, BitVec.and_twoPow]
  cases hbit : used.getLsbD i with
  | false => simp
  | true =>
    have hlt : i < 16 := BitVec.lt_of_getLsbD hbit
    rw [if_pos rfl]
    refine ⟨fun h => ?_, fun h => nomatch h⟩
    have hzero := congrArg (fun x : BitVec 16 => x.getLsbD i) h
    simp [hlt] at hzero

theorem getLsbD_or_shifted (used : BitVec 16) {i : Nat} (hi : i < 16) (j : Nat) :
    (used ||| 1#16 <<< i).getLsbD j = (used.getLsbD j || decide (i = j)) := by
  change (used ||| BitVec.twoPow 16 i).getLsbD j = _
  rw [BitVec.getLsbD_or, BitVec.getLsbD_twoPow, decide_eq_true hi, Bool.true_and]

theorem exists_used {used : BitVec 16} (h : used ≠ 0) : ∃ i, used.getLsbD i = true := by
  by_contra hnone
  apply h
  apply BitVec.eq_of_getLsbD_eq
  intro i _
  simpa using fun hi => hnone ⟨i, hi⟩

/-! ## The search -/

/-- A pin and its mask. -/
def place (i : Nat) : Nat × BitVec 16 := (i, 1#16 <<< i)

theorem advance_place {highestPin i : Nat} (hi : i ≤ highestPin) :
    advance highestPin (place i) = place ((i + 1) % (highestPin + 1)) := by
  unfold advance place
  by_cases hlast : highestPin < i + 1
  · obtain rfl : highestPin = i := by omega
    rw [if_pos hlast, Nat.mod_self]
    rfl
  · rw [if_neg hlast, Nat.mod_eq_of_lt (by omega), BitVec.shiftLeft_add]

theorem place_unused {used : BitVec 16} {i : Nat} : (place i).2 &&& used ≠ 0 ↔ used.getLsbD i = true := by
  rw [Ne, ← Bool.not_eq_false, ← shifted_and_eq_zero]
  rfl

/-- The pins that are not in use are passed over. -/
theorem seek_skip {used : BitVec 16} {highestPin i : Nat} (hi : i ≤ highestPin) (fuel k : Nat)
    (hskip : ∀ j < k, used.getLsbD ((i + j) % (highestPin + 1)) = false) :
    seek used highestPin (fuel + k) (place i) =
      seek used highestPin fuel (place ((i + k) % (highestPin + 1))) := by
  induction k generalizing fuel with
  | zero => rw [Nat.add_zero, Nat.add_zero, Nat.mod_eq_of_lt (Nat.lt_succ_of_le hi)]
  | succ k ih =>
    have hunused := hskip k (Nat.lt_succ_self k)
    have hle : (i + k) % (highestPin + 1) ≤ highestPin := Nat.le_of_lt_succ (Nat.mod_lt _ (Nat.succ_pos _))
    rw [show fuel + (k + 1) = fuel + 1 + k by omega, ih _ fun j hj => hskip j (by omega), seek,
      if_neg (by rw [place_unused, hunused]; exact Bool.false_ne_true), advance_place hle, Nat.mod_add_mod]
    rfl

/-- **The search ends** at the next pin that is in use. -/
theorem seek_eq {used : BitVec 16} {highestPin i u : Nat} (hi : i ≤ highestPin) (hu : used.getLsbD u = true)
    (hle : u ≤ highestPin) :
    ∃ k ≤ highestPin, seek used highestPin (highestPin + 2) (place i) =
        some (place ((i + k) % (highestPin + 1))) ∧
      used.getLsbD ((i + k) % (highestPin + 1)) = true ∧
      ∀ j < k, used.getLsbD ((i + j) % (highestPin + 1)) = false := by
  have hexists : ∃ k, used.getLsbD ((i + k) % (highestPin + 1)) = true := by
    refine ⟨highestPin + 1 - i + u, ?_⟩
    rw [show i + (highestPin + 1 - i + u) = u + (highestPin + 1) by omega, Nat.add_mod_right,
      Nat.mod_eq_of_lt (by omega)]
    exact hu
  have hfound := Nat.find_spec hexists
  have hbefore : ∀ j < Nat.find hexists, used.getLsbD ((i + j) % (highestPin + 1)) = false :=
    fun j hj => Bool.not_eq_true _ ▸ Nat.find_min hexists hj
  have hround : Nat.find hexists ≤ highestPin := by
    obtain hiu | hui := Nat.le_total i u
    · refine (Nat.find_le (n := u - i) ?_).trans (by omega)
      rw [show i + (u - i) = u by omega, Nat.mod_eq_of_lt (by omega)]
      exact hu
    · by_cases heq : i = u
      · refine (Nat.find_le (n := 0) ?_).trans (by omega)
        rw [Nat.add_zero, heq, Nat.mod_eq_of_lt (by omega)]
        exact hu
      · refine (Nat.find_le (n := highestPin + 1 - i + u) ?_).trans (by omega)
        rw [show i + (highestPin + 1 - i + u) = u + (highestPin + 1) by omega, Nat.add_mod_right,
          Nat.mod_eq_of_lt (by omega)]
        exact hu
  refine ⟨Nat.find hexists, hround, ?_, hfound, hbefore⟩
  obtain ⟨more, hmore⟩ : ∃ more, highestPin + 2 = more + 1 + Nat.find hexists :=
    ⟨highestPin + 1 - Nat.find hexists, by omega⟩
  rw [hmore, seek_skip hi _ _ hbefore, seek, if_pos (place_unused.2 hfound)]

/-! ## The invariant -/

/-- The result that is there, or that will be there when the conversion ends, is one of channel `id`. -/
def Yields (adc : Adc) (id : Nat) : Prop :=
  adc.converting = some id ∨ adc.converting = none ∧ adc.data.channel = id

/-- A pin that `init` is at. -/
structure Entering (inputs : Nat) (s : Scanner) (id : Nat) : Prop where
  lt : id < inputs
  waiting : s.waiting = false
  port : s.usesHighPort = false → id ≤ 7

/-- Where a call of `init` is, and what the converter does for it. -/
def Fits (inputs : Nat) (s : Scanner) : Init → Prop
  | .idle => s.waiting = false → s.adc.converting = none
  | .selected id => Entering inputs s id ∧ s.adc.converting = none ∧ s.adc.channel = id
  | .started id => Entering inputs s id ∧ Yields s.adc id

structure Good (inputs : Nat) (s : Scanner) : Prop where
  used : ∀ i, s.usedpins.getLsbD i = true → i ≤ s.highestPin
  highest : s.highestPin < inputs
  id : s.id ≤ s.highestPin
  mask : s.mask = 1#16 <<< s.id
  array : s.usedpins ≠ 0 → ∃ values, s.analogvals = some values
  length : ∀ values, s.analogvals = some values → values.length = inputs
  samples : ∀ values, s.analogvals = some values → ∀ i, s.usedpins.getLsbD i = true →
    ∃ sample, values[i]? = some sample ∧ sample.channel = i
  port : s.usesHighPort = false → s.adc.mux5 = false ∧ ∀ i, s.usedpins.getLsbD i = true → i ≤ 7
  waits : s.waiting = true → s.usedpins.getLsbD s.id = true ∧ s.init = .idle ∧ Yields s.adc s.id
  fits : Fits inputs s s.init

theorem channel_mk {id : Nat} (hid : id < 16) (mux5 : Bool) (hmux5 : mux5 = decide (7 < id))
    (converting : Option Nat) (data : Sample) : Adc.channel ⟨id % 8, mux5, converting, data⟩ = id := by
  subst hmux5
  unfold Adc.channel
  by_cases h : 7 < id
  · simp only [h, decide_true, if_true]
    omega
  · simp only [h, decide_false, Bool.false_eq_true, if_false]
    omega

theorem Yields.finish {adc : Adc} {id : Nat} (h : Yields adc id) (value : Nat) :
    Yields (adc.finish value) id := by
  obtain hbusy | ⟨hdone, hchannel⟩ := h
  · exact .inr (by simp [Adc.finish, hbusy])
  · exact .inr (by simp [Adc.finish, hdone, hchannel])

theorem finish_mux5 (adc : Adc) (value : Nat) : (adc.finish value).mux5 = adc.mux5 := by
  unfold Adc.finish
  cases adc.converting <;> rfl

theorem finish_of_none {adc : Adc} (h : adc.converting = none) (value : Nat) : adc.finish value = adc := by
  simp [Adc.finish, h]

/-- The converter may finish at any moment, with any value. -/
theorem Good.finish (h : Good inputs s) (value : Nat) :
    Good inputs { s with adc := s.adc.finish value } := by
  refine ⟨h.used, h.highest, h.id, h.mask, h.array, h.length, h.samples, ?_, ?_, ?_⟩
  · intro hport
    exact ⟨(finish_mux5 ..).trans (h.port hport).1, (h.port hport).2⟩
  · intro hwaiting
    obtain ⟨hused, hidle, hyields⟩ := h.waits hwaiting
    exact ⟨hused, hidle, hyields.finish value⟩
  · have hfits := h.fits
    cases hinit : s.init with
    | idle =>
      rw [hinit] at hfits
      intro hwaiting
      rw [finish_of_none (hfits hwaiting)]
      exact hfits hwaiting
    | selected id =>
      rw [hinit] at hfits
      obtain ⟨⟨hlt, hwaiting, hport⟩, hnone, hchannel⟩ := hfits
      rw [finish_of_none hnone]
      exact ⟨⟨hlt, hwaiting, hport⟩, hnone, hchannel⟩
    | started id =>
      rw [hinit] at hfits
      obtain ⟨⟨hlt, hwaiting, hport⟩, hyields⟩ := hfits
      exact ⟨⟨hlt, hwaiting, hport⟩, hyields.finish value⟩

/-- A scan that does not wait starts the conversion of a pin that is in use. -/
theorem Good.startNext (h : Good inputs s) (hinputs : inputs ≤ 16) (hidle : s.usedpins ≠ 0 → s.init = .idle)
    (hwaiting : s.waiting = false) : ∃ s', s.startNext = some s' ∧ Good inputs s' := by
  unfold Scanner.startNext
  by_cases hzero : s.usedpins = 0
  · exact ⟨s, if_pos hzero, h⟩
  obtain ⟨u, hu⟩ := exists_used hzero
  obtain ⟨k, -, hseek, hfound, -⟩ := seek_eq h.id hu (h.used u hu)
  have hplace : (s.id, s.mask) = place s.id := by rw [h.mask]; rfl
  have hnone : s.adc.converting = none := by
    have hfits := h.fits
    rw [hidle hzero] at hfits
    exact hfits hwaiting
  rw [if_neg hzero, hplace, hseek]
  refine ⟨_, rfl, ?_⟩
  generalize (s.id + k) % (s.highestPin + 1) = i at hfound
  have hi : i ≤ s.highestPin := h.used i hfound
  have hi16 : i < 16 := by have := h.highest; omega
  have hmux5 : (if s.usesHighPort then decide (7 < i) else s.adc.mux5) = decide (7 < i) := by
    cases hport : s.usesHighPort with
    | true => rfl
    | false =>
      obtain ⟨hclear, hlow⟩ := h.port hport
      have := hlow i hfound
      simp only [hclear, Bool.false_eq_true, if_false]
      symm
      exact decide_eq_false (by omega)
  refine ⟨h.used, h.highest, hi, rfl, h.array, h.length, h.samples, ?_, ?_, ?_⟩
  · intro hport
    obtain ⟨hclear, hlow⟩ := h.port hport
    refine ⟨?_, hlow⟩
    change (if s.usesHighPort then decide (7 < i) else s.adc.mux5) = false
    rw [hport]
    exact hclear
  · intro _
    refine ⟨hfound, hidle hzero, .inl ?_⟩
    change s.adc.converting.or (some (Adc.channel _)) = some i
    rw [hnone, Option.none_or, channel_mk hi16 _ hmux5]
  · change Fits inputs _ s.init
    rw [hidle hzero]
    exact fun hnot => nomatch hnot

theorem file_some {values : List Sample} {id : Nat} (hid : id < values.length) (value : Sample) :
    file (some values) id value = some (values.set id value) := by
  simp [file, hid]

/-- The array after a result of channel `id` has been filed under `id`. -/
theorem samples_set {values : List Sample} {id : Nat} (hid : id < values.length) {value : Sample}
    (hchannel : value.channel = id) {used : Nat → Prop}
    (h : ∀ i, used i → i = id ∨ ∃ sample, values[i]? = some sample ∧ sample.channel = i)
    (i : Nat) (hi : used i) :
    ∃ sample, (values.set id value)[i]? = some sample ∧ sample.channel = i := by
  by_cases heq : i = id
  · subst heq
    exact ⟨value, by rw [List.getElem?_set_self hid], hchannel⟩
  · obtain ⟨sample, hsample, hof⟩ := (h i hi).resolve_left heq
    exact ⟨sample, by rw [List.getElem?_set_ne (Ne.symm heq), hsample], hof⟩

theorem Good.usedpins_ne_zero (h : Good inputs s) (hwaiting : s.waiting = true) : s.usedpins ≠ 0 := by
  obtain ⟨hused, -⟩ := h.waits hwaiting
  intro hzero
  rw [hzero] at hused
  simp at hused

/-- A scan that finds the result it waits for files it and goes on one pin further. -/
theorem Good.collect (h : Good inputs s) (hwaiting : s.waiting = true) (hdone : s.adc.converting = none) :
    ∃ c, s.scan = c.startNext ∧ Good inputs c ∧ c.waiting = false ∧ c.init = .idle ∧
      c.usedpins = s.usedpins ∧ c.highestPin = s.highestPin ∧ c.id = (s.id + 1) % (s.highestPin + 1) := by
  obtain ⟨-, hidle, hbusy | ⟨-, hchannel⟩⟩ := h.waits hwaiting
  · rw [hdone] at hbusy
    cases hbusy
  obtain ⟨values, hvalues⟩ := h.array (h.usedpins_ne_zero hwaiting)
  have hlength := h.length values hvalues
  have hid : s.id < values.length := by have := h.id; have := h.highest; omega
  -- the scan advances the number and the mask of the pin together
  have hplace : advance s.highestPin (s.id, s.mask) = place ((s.id + 1) % (s.highestPin + 1)) := by
    rw [h.mask]
    exact advance_place h.id
  refine ⟨{ s with
    analogvals := some (values.set s.id s.adc.data), waiting := false
    id := (s.id + 1) % (s.highestPin + 1), mask := 1#16 <<< ((s.id + 1) % (s.highestPin + 1)) },
    ?_, ⟨h.used, h.highest, ?_, rfl, fun _ => ⟨_, rfl⟩, ?_, ?_, h.port, ?_, ?_⟩, rfl, hidle, rfl, rfl, rfl⟩
  · unfold Scanner.scan
    rw [hwaiting, if_pos rfl, hdone, hvalues, file_some hid, hplace]
    rfl
  · exact Nat.le_of_lt_succ (Nat.mod_lt _ (Nat.succ_pos _))
  · rintro _ ⟨⟩
    rw [List.length_set]
    exact hlength
  · rintro _ ⟨⟩
    exact samples_set hid hchannel fun i hi => .inr (h.samples values hvalues i hi)
  · exact fun hnot => nomatch hnot
  · change Fits inputs _ s.init
    rw [hidle]
    exact fun _ => hdone

theorem Good.scan (h : Good inputs s) (hinputs : inputs ≤ 16) (hturn : s.init = .idle ∨ s.usedpins = 0) :
    ∃ s', s.scan = some s' ∧ Good inputs s' := by
  cases hwaiting : s.waiting with
  | false =>
    unfold Scanner.scan
    rw [hwaiting]
    exact h.startNext hinputs (fun hused => hturn.resolve_right hused) hwaiting
  | true =>
    cases hdone : s.adc.converting with
    | some channel => exact ⟨s, by simp [Scanner.scan, hwaiting, hdone], h⟩
    | none =>
      obtain ⟨c, hscan, hc, hcwaiting, hcidle, -⟩ := h.collect hwaiting hdone
      rw [hscan]
      exact hc.startNext hinputs (fun _ => hcidle) hcwaiting

/-- A new pin may be selected while no conversion is waited for. -/
theorem Good.initSelect (h : Good inputs s) (hinputs : inputs ≤ 16) (hwaiting : s.waiting = false)
    (pin : UInt8) :
    Good inputs (s.initSelect a0 inputs pin) := by
  unfold Scanner.initSelect
  generalize (pin - a0).toNat = id
  by_cases hid : inputs ≤ id
  · simp only [hid, if_true]
    exact h
  simp only [hid, if_false]
  cases hinit : s.init with
  | selected _ => exact h
  | started _ => exact h
  | idle =>
    have hnone : s.adc.converting = none := by
      have hfits := h.fits
      rw [hinit] at hfits
      exact hfits hwaiting
    have hport : (s.usesHighPort || decide (7 < id)) = false → s.usesHighPort = false ∧ id ≤ 7 := by
      simp
    refine ⟨h.used, h.highest, h.id, h.mask, h.array, h.length, h.samples, ?_, ?_, ?_⟩
    · intro hclear
      obtain ⟨hlow, hle⟩ := hport hclear
      exact ⟨decide_eq_false (by omega), (h.port hlow).2⟩
    · intro hyes
      exact absurd hwaiting (by rw [hyes]; exact Bool.noConfusion)
    · exact ⟨⟨by omega, hwaiting, fun hclear => (hport hclear).2⟩, hnone, channel_mk (by omega) _ rfl ..⟩

/-- The first conversion of a pin may be started. -/
theorem Good.initStart (h : Good inputs s) : Good inputs s.initStart := by
  unfold Scanner.initStart
  cases hinit : s.init with
  | idle => exact h
  | started _ => exact h
  | selected id =>
    have hfits := h.fits
    rw [hinit] at hfits
    obtain ⟨hentering, hnone, hchannel⟩ := hfits
    refine ⟨h.used, h.highest, h.id, h.mask, h.array, h.length, h.samples, h.port, ?_, ?_⟩
    · intro hyes
      exact absurd hentering.waiting (by rw [hyes]; exact Bool.noConfusion)
    · refine ⟨⟨hentering.lt, hentering.waiting, hentering.port⟩, .inl ?_⟩
      change s.adc.converting.or (some s.adc.channel) = some id
      rw [hnone, hchannel]
      rfl

/-- The array that `init` stores into: the one there is, or a new one while no pin is used. -/
theorem Good.exists_values (h : Good inputs s) :
    ∃ values, s.analogvals.or (some (List.replicate inputs ⟨0, 0⟩)) = some values ∧
      values.length = inputs ∧
      ∀ i, s.usedpins.getLsbD i = true → ∃ sample, values[i]? = some sample ∧ sample.channel = i := by
  cases harray : s.analogvals with
  | some values => exact ⟨values, rfl, h.length values harray, h.samples values harray⟩
  | none =>
    refine ⟨_, rfl, List.length_replicate .., fun i hi => ?_⟩
    have hpins : s.usedpins ≠ 0 := by
      intro hzero
      rw [hzero] at hi
      simp at hi
    obtain ⟨values, hsome⟩ := h.array hpins
    rw [harray] at hsome
    cases hsome

/-- The first sample of a pin is stored, and the pin is in use from then on. -/
theorem Good.initStore (h : Good inputs s) (hinputs : inputs ≤ 16) :
    ∃ s', s.initStore inputs = some s' ∧ Good inputs s' := by
  unfold Scanner.initStore
  cases hinit : s.init with
  | idle => exact ⟨s, rfl, h⟩
  | selected _ => exact ⟨s, rfl, h⟩
  | started id =>
    have hfits := h.fits
    rw [hinit] at hfits
    obtain ⟨hentering, hbusy | ⟨hdone, hchannel⟩⟩ := hfits
    · exact ⟨s, by rw [hbusy]; rfl, h⟩
    obtain ⟨values, hvalues, hlength, hsamples⟩ := h.exists_values
    have hid : id < values.length := by rw [hlength]; exact hentering.lt
    have hlt := hentering.lt
    simp only [hdone, hvalues, file_some hid]
    refine ⟨_, rfl, ?_⟩
    -- the pin of the conversion is in use from here on, and nothing else is new
    have hbit : ∀ i, (s.usedpins ||| 1#16 <<< id).getLsbD i = true → s.usedpins.getLsbD i = true ∨ id = i := by
      intro i hi
      rw [getLsbD_or_shifted _ (by omega)] at hi
      simpa using hi
    refine ⟨?_, ?_, ?_, h.mask, fun _ => ⟨_, rfl⟩, ?_, ?_, ?_, ?_, ?_⟩
    · intro i hi
      have hold : s.usedpins.getLsbD i = true → i ≤ s.highestPin := h.used i
      obtain hi | rfl := hbit i hi
      · change i ≤ if s.highestPin < id then id else s.highestPin
        have := hold hi
        split <;> omega
      · change id ≤ if s.highestPin < id then id else s.highestPin
        split <;> omega
    · change (if s.highestPin < id then id else s.highestPin) < inputs
      have := h.highest
      split <;> omega
    · change s.id ≤ if s.highestPin < id then id else s.highestPin
      have := h.id
      split <;> omega
    · rintro _ ⟨⟩
      rw [List.length_set]
      exact hlength
    · rintro _ ⟨⟩
      refine samples_set hid hchannel ?_
      intro i hnew
      obtain hi | rfl := hbit i hnew
      · exact .inr (hsamples i hi)
      · exact .inl rfl
    · intro hclear
      obtain ⟨hmux5, hlow⟩ := h.port hclear
      refine ⟨hmux5, fun i hi => ?_⟩
      obtain hi | rfl := hbit i hi
      · exact hlow i hi
      · exact hentering.port hclear
    · intro hyes
      exact absurd hentering.waiting (by rw [hyes]; exact Bool.noConfusion)
    · exact fun _ => hdone

/-! ## Runs -/

/-- **The step lemma.** -/
theorem Good.act (h : Good inputs s) (hinputs : inputs ≤ 16) {e : Event} (he : e.InTurn s) :
    ∃ s', s.act a0 inputs e = some s' ∧ Good inputs s' := by
  cases e with
  | finish value => exact ⟨_, rfl, h.finish value⟩
  | scan => exact h.scan hinputs he
  | initSelect pin => exact ⟨_, rfl, h.initSelect hinputs he pin⟩
  | initStart => exact ⟨_, rfl, h.initStart⟩
  | initStore => exact h.initStore hinputs

theorem good_fresh (hpos : 0 < inputs) : Good inputs fresh where
  used := fun i hi => absurd hi (by simp [fresh])
  highest := hpos
  id := Nat.le_refl _
  mask := rfl
  array := fun hused => absurd rfl hused
  length := fun _ hvalues => nomatch hvalues
  samples := fun _ hvalues => nomatch hvalues
  port := fun _ => ⟨rfl, fun i hi => absurd hi (by simp [fresh])⟩
  waits := fun hwaiting => nomatch hwaiting
  fits := fun _ => rfl

/-- Every event comes when it may. -/
abbrev InTurn (o : Option Scanner) (e : Event) : Prop := ∀ s ∈ o, e.InTurn s

/-- **The run lemma.** -/
theorem Good.run (h : Good inputs s) (hinputs : inputs ≤ 16) {es : List Event}
    (hes : Along (step a0 inputs) InTurn (some s) es) :
    ∃ s', Lib.run (step a0 inputs) (some s) es = some s' ∧ Good inputs s' := by
  have hinv := inv_run (fun o : Option Scanner => ∃ s', o = some s' ∧ Good inputs s') ?_ ⟨s, rfl, h⟩ hes
  · exact hinv
  · rintro _ e hturn ⟨s', rfl, h'⟩
    exact h'.act hinputs (hturn s' rfl)

theorem Good.read (h : Good inputs s) {pin : UInt8} {sample : Sample} (hread : s.read a0 pin = some sample) :
    sample.channel = (pin - a0).toNat := by
  unfold Scanner.read at hread
  by_cases hbit : s.usedpins &&& 1#16 <<< (pin - a0).toNat = 0
  · simp [hbit] at hread
  · simp only [hbit, if_false] at hread
    have hused : s.usedpins.getLsbD (pin - a0).toNat = true := by
      rw [← Bool.not_eq_false, ← shifted_and_eq_zero, BitVec.and_comm]
      exact hbit
    obtain ⟨values, hvalues, hget⟩ := Option.bind_eq_some_iff.1 hread
    obtain ⟨sample', hsample, hchannel⟩ := h.samples values hvalues _ hused
    rw [hsample] at hget
    obtain rfl := Option.some_inj.1 hget
    exact hchannel

/-- **Every reading is one of its own pin**, after any interrupts and any calls that come in their turn.
Nothing has been written where the program owns no memory, and every scan has ended. -/
theorem readings_of_their_pins (hpos : 0 < inputs) (hinputs : inputs ≤ 16) (es : List Event)
    (hes : Along (step a0 inputs) InTurn (some fresh) es) :
    ∃ s, run (step a0 inputs) (some fresh) es = some s ∧
      ∀ pin sample, s.read a0 pin = some sample → sample.channel = (pin - a0).toNat := by
  obtain ⟨s, hrun, h⟩ := (good_fresh hpos).run hinputs hes
  exact ⟨s, hrun, fun _ _ hread => h.read hread⟩

theorem readings_of_their_pins_two :
    ∃ s, run (step 54 16) (some fresh)
        [.initSelect 54, .initStart, .finish 500, .initStore, .initSelect 63, .initStart, .finish 510,
          .initStore, .scan, .finish 501, .scan, .scan, .finish 511, .scan] = some s ∧
      ∀ pin sample, s.read 54 pin = some sample → sample.channel = (pin - 54).toNat :=
  readings_of_their_pins (by decide) (by decide) _ (by decide)

/-! ## A pin that is initialised too late -/

/-- A scan files what the converter has got, wherever that came from. -/
theorem scan_files {values : List Sample} {u : Nat} (hwaiting : s.waiting = true)
    (hdone : s.adc.converting = none) (hvalues : s.analogvals = some values) (hid : s.id < values.length)
    (hmask : s.mask = 1#16 <<< s.id) (hle : s.id ≤ s.highestPin) (hu : s.usedpins.getLsbD u = true)
    (hulast : u ≤ s.highestPin) :
    ∃ s', s.scan = some s' ∧ s'.usedpins = s.usedpins ∧
      s'.analogvals = some (values.set s.id s.adc.data) := by
  have hpins : s.usedpins ≠ 0 := by
    intro hzero
    rw [hzero] at hu
    simp at hu
  have hlt : (s.id + 1) % (s.highestPin + 1) ≤ s.highestPin :=
    Nat.le_of_lt_succ (Nat.mod_lt _ (Nat.succ_pos _))
  obtain ⟨k, -, hseek, -, -⟩ := seek_eq hlt hu hulast
  have hplace : advance s.highestPin (s.id, s.mask) = place ((s.id + 1) % (s.highestPin + 1)) := by
    rw [hmask]
    exact advance_place hle
  unfold Scanner.scan
  rw [hwaiting, if_pos rfl, hdone, hvalues, file_some hid, hplace]
  simp only [Option.isSome_none, Bool.false_eq_true, if_false, Scanner.startNext, hpins, Prod.mk.eta, hseek]
  exact ⟨_, rfl, rfl, rfl⟩

/-- The converter after `init` has selected channel `id` and got a result. -/
theorem start_finish {adc : Adc} (hnone : adc.converting = none) (value : Nat) :
    adc.start.finish value = { adc with data := ⟨adc.channel, value⟩ } := by
  simp [Adc.start, Adc.finish, hnone]

theorem read_set (values : List Sample) {pin : UInt8} {sample : Sample}
    (hused : s.usedpins.getLsbD (pin - a0).toNat = true) (hlt : (pin - a0).toNat < values.length)
    (hvalues : s.analogvals = some (values.set (pin - a0).toNat sample)) : s.read a0 pin = some sample := by
  have hbit : s.usedpins &&& 1#16 <<< (pin - a0).toNat ≠ 0 := by
    rw [Ne, BitVec.and_comm]
    intro hzero
    rw [show (0 : BitVec 16) = 0#16 from rfl, shifted_and_eq_zero, hused] at hzero
    cases hzero
  unfold Scanner.read
  simp only [hbit, if_false, hvalues, Option.bind_some]
  exact List.getElem?_set_self hlt

/-- **A pin that is initialised while the scan waits** gets its own reading filed under the pin that the
scan waits for, when the conversion of that one has just ended. -/
theorem init_while_waiting (hpos : 0 < inputs) (hinputs : inputs ≤ 16) (es : List Event)
    (hes : Along (step a0 inputs) InTurn (some fresh) es) (s : Scanner)
    (hrun : run (step a0 inputs) (some fresh) es = some s) (hwaiting : s.waiting = true) (pin victim : UInt8)
    (hpin : (pin - a0).toNat < inputs) (hvictim : (victim - a0).toNat = s.id) (value : Nat) :
    ∃ s', run (step a0 inputs) (some s)
        [.finish 0, .initSelect pin, .initStart, .finish value, .scan] = some s' ∧
      s'.read a0 victim = some ⟨(pin - a0).toNat, value⟩ := by
  obtain ⟨_, hrun', h⟩ := (good_fresh hpos).run hinputs hes
  obtain rfl := Option.some_inj.1 (hrun.symm.trans hrun')
  obtain ⟨hused, hidle, hyields⟩ := h.waits hwaiting
  obtain ⟨values, hvalues⟩ := h.array (h.usedpins_ne_zero hwaiting)
  have hlength : s.id < values.length := by
    rw [h.length values hvalues]
    exact Nat.lt_of_le_of_lt h.id h.highest
  -- the scan's own conversion has ended, and the interrupt is still to come
  have hnone : (s.adc.finish 0).converting = none := by
    obtain hbusy | ⟨hdone, -⟩ := hyields
    · simp [Adc.finish, hbusy]
    · rw [finish_of_none hdone, hdone]
  generalize hadc : s.adc.finish 0 = adc at hnone
  let selected : Adc := ⟨(pin - a0).toNat % 8, decide (7 < (pin - a0).toNat), none, adc.data⟩
  have hchannel : selected.channel = (pin - a0).toNat := channel_mk (by omega) _ rfl ..
  have hselect :
      { adc with mux := (pin - a0).toNat % 8, mux5 := decide (7 < (pin - a0).toNat) } = selected := by
    cases adc
    subst hnone
    rfl
  obtain ⟨s', hscan, hpins', hvalues'⟩ := scan_files
    (s := { s with
      adc := { selected with data := ⟨(pin - a0).toNat, value⟩ }
      usesHighPort := s.usesHighPort || decide (7 < (pin - a0).toNat)
      init := .started (pin - a0).toNat })
    hwaiting rfl hvalues hlength h.mask h.id hused h.id
  refine ⟨s', ?_, ?_⟩
  · have hfinish : selected.start.finish value = _ := start_finish rfl value
    rw [hchannel] at hfinish
    simp only [run_cons, run_nil, step, Option.bind_some, act, hadc, Scanner.initSelect, Nat.not_le.2 hpin,
      if_false, hidle, hselect, Scanner.initStart, hfinish]
    exact hscan
  · apply read_set values
    · rw [hpins', hvictim]
      exact hused
    · rw [hvictim]
      exact hlength
    · rw [hvictim]
      exact hvalues'

theorem init_while_waiting_second :
    ∃ s', run (step 54 16)
        (some { fresh with
          adc := ⟨0, false, some 0, ⟨0, 500⟩⟩, usedpins := 1, mask := 1, waiting := true
          analogvals := some (⟨0, 500⟩ :: List.replicate 15 ⟨0, 0⟩) })
        [.finish 0, .initSelect 63, .initStart, .finish 900, .scan] = some s' ∧
      s'.read 54 54 = some ⟨9, 900⟩ :=
  init_while_waiting (by decide) (by decide) [.initSelect 54, .initStart, .finish 500, .initStore, .scan]
    (by decide) _ (by decide) rfl 63 54 (by decide) (by decide) 900

end CommandStation.ADCee.Scanner
