import CommandStation.DCC.Basic
import Mathlib.Data.Finset.Card
import Mathlib.Data.Finset.Dedup
import Mathlib.Data.List.TakeWhile

/-!
# Target speeds

What the loco table is for, as far as target speeds go: each loco that has a slot has a target speed,
and the followers of a consist take that of their lead. `Targets` is this view of the table, with the
three operations that stop and restart trains. A list of speeds that is set again after a stop gives
a loco its old target back under a condition that can be told before the stop, `Restorable`.
-/

namespace CommandStation

open CommandStation.DCC

/-- The target speeds of the locos that have a slot, the followers of consists with their lead and
whether they run reversed, and the number of slots that can still be created. -/
@[ext] structure Targets where
  slot : UInt16 → Option UInt8
  lead : UInt16 → Option (UInt16 × Bool)
  free : Nat
  follower : ∀ {l root reverse}, lead l = some (root, reverse) →
    (slot l).isSome ∧ (slot root).isSome ∧ lead root = none

namespace Targets

variable {T : Targets} {l k root : UInt16} {p v : UInt8} {reverse : Bool}
  {saved : List (UInt16 × UInt8)}

/-- `getThrottleSpeedByte` -/
def speedByte (T : Targets) (l : UInt16) : UInt8 := (T.slot l).getD 128

/-- The speed of a follower that runs reversed in the consist. -/
def turned (reverse : Bool) (speedCode : UInt8) : UInt8 :=
  speedCode ^^^ (if reverse then 0x80 else 0)

/-- `estopAll` -/
def stop (T : Targets) : Targets where
  slot l := (T.slot l).map estopCode
  lead := T.lead
  free := T.free
  follower h := by simpa using T.follower h

/-- The loco gets a target speed, and its followers with it. -/
def withTarget (T : Targets) (l : UInt16) (p : UInt8) (k : UInt16) : Option UInt8 :=
  if k = l then some p
  else
    match T.lead k with
    | some (root, reverse) => if root = l then some (turned reverse p) else T.slot k
    | none => T.slot k

/-- The speed is set: there is a slot for the loco or room for one, it is not a follower, and the
speed is new. -/
def Accepts (T : Targets) (l : UInt16) (p : UInt8) : Prop :=
  (T.slot l = none → T.free ≠ 0) ∧ T.lead l = none ∧ T.slot l ≠ some p

instance : Decidable (T.Accepts l p) := inferInstanceAs (Decidable (_ ∧ _ ∧ _))

theorem isSome_withTarget (h : (T.slot k).isSome) : (T.withTarget l p k).isSome := by
  unfold withTarget
  split
  · rfl
  · split
    · split
      · rfl
      · exact h
    · exact h

/-- `setThrottle` -/
def setThrottle (T : Targets) (l : UInt16) (p : UInt8) : Targets :=
  if T.Accepts l p then
    { slot := T.withTarget l p
      lead := T.lead
      free := if T.slot l = none then T.free - 1 else T.free
      follower := fun h =>
        let ⟨hl, hroot, hlead⟩ := T.follower h
        ⟨isSome_withTarget hl, isSome_withTarget hroot, hlead⟩ }
  else T

/-- Speeds that were saved are set again. -/
def restore (T : Targets) (saved : List (UInt16 × UInt8)) : Targets :=
  saved.foldl (fun T entry => T.setThrottle entry.1 entry.2) T

theorem restore_concat {entry : UInt16 × UInt8} :
    T.restore (saved ++ [entry]) = (T.restore saved).setThrottle entry.1 entry.2 := by
  simp [restore]

/-! ## One speed -/

@[simp] theorem lead_setThrottle : (T.setThrottle l p).lead = T.lead := by
  unfold setThrottle
  split <;> rfl

theorem setThrottle_of_not_accepts (h : ¬ T.Accepts l p) : T.setThrottle l p = T := if_neg h

theorem slot_setThrottle (h : T.Accepts l p) : (T.setThrottle l p).slot = T.withTarget l p := by
  rw [setThrottle, if_pos h]

theorem withTarget_self : T.withTarget l p l = some p := if_pos rfl

theorem withTarget_root (hk : T.lead k = none) (hne : k ≠ l) : T.withTarget l p k = T.slot k := by
  simp [withTarget, hne, hk]

theorem withTarget_follower (hk : T.lead k = some (root, reverse)) (hne : k ≠ l) :
    T.withTarget l p k = if root = l then some (turned reverse p) else T.slot k := by
  simp [withTarget, hne, hk]

/-- A loco that is no follower gets the target speed. -/
theorem slot_setThrottle_self (hlead : T.lead l = none) (hslot : T.slot l = none → T.free ≠ 0) :
    (T.setThrottle l p).slot l = some p := by
  by_cases h : T.Accepts l p
  · rw [slot_setThrottle h, withTarget_self]
  · rw [setThrottle_of_not_accepts h]
    by_contra hne
    exact h ⟨hslot, hlead, hne⟩

/-- The other locos that are no followers keep theirs. -/
theorem slot_setThrottle_root (hk : T.lead k = none) (hne : k ≠ l) :
    (T.setThrottle l p).slot k = T.slot k := by
  by_cases h : T.Accepts l p
  · rw [slot_setThrottle h, withTarget_root hk hne]
  · rw [setThrottle_of_not_accepts h]

/-- A follower gets the speed of its lead when that changes. -/
theorem slot_setThrottle_follower (hk : T.lead k = some (root, reverse)) :
    (T.setThrottle l p).slot k =
      if root = l ∧ T.slot root ≠ some p then some (turned reverse p) else T.slot k := by
  obtain ⟨-, hslot, hlead⟩ := T.follower hk
  by_cases h : T.Accepts l p
  · have hne : k ≠ l := by
      rintro rfl
      rw [h.2.1] at hk
      cases hk
    rw [slot_setThrottle h, withTarget_follower hk hne]
    by_cases hroot : root = l
    · rw [if_pos hroot, if_pos ⟨hroot, hroot ▸ h.2.2⟩]
    · rw [if_neg hroot, if_neg fun hand => hroot hand.1]
  · rw [setThrottle_of_not_accepts h, if_neg]
    rintro ⟨rfl, hnew⟩
    refine h ⟨fun hnone => ?_, hlead, hnew⟩
    rw [hnone] at hslot
    cases hslot

theorem isSome_setThrottle (h : (T.slot k).isSome) : ((T.setThrottle l p).slot k).isSome := by
  unfold setThrottle
  split
  · exact isSome_withTarget h
  · exact h

/-! ## Many speeds -/

/-- The speed that was saved last for a loco. -/
def lastSaved (saved : List (UInt16 × UInt8)) (l : UInt16) : Option UInt8 :=
  (saved.reverse.find? fun entry => entry.1 == l).map Prod.snd

@[simp] theorem lastSaved_nil : lastSaved [] l = none := rfl

theorem lastSaved_concat {entry : UInt16 × UInt8} :
    lastSaved (saved ++ [entry]) l = if entry.1 = l then some entry.2 else lastSaved saved l := by
  by_cases h : entry.1 = l <;> simp [lastSaved, h]

theorem lastSaved_mem (h : lastSaved saved l = some v) : (l, v) ∈ saved := by
  obtain ⟨⟨i, p⟩, hfind, rfl⟩ := Option.map_eq_some_iff.mp h
  have hi : i = l := by simpa using List.find?_some hfind
  have hmem := List.mem_of_find?_eq_some hfind
  rw [hi] at hmem
  simpa using hmem

theorem exists_lastSaved (h : (l, v) ∈ saved) : ∃ p, lastSaved saved l = some p := by
  cases hfind : saved.reverse.find? fun entry => entry.1 == l with
  | none =>
    rw [List.find?_eq_none] at hfind
    exact absurd (beq_self_eq_true l) (hfind (l, v) (by simpa using h))
  | some entry => exact ⟨entry.2, by rw [lastSaved, hfind, Option.map_some]⟩

@[simp] theorem lead_restore : (T.restore saved).lead = T.lead := by
  induction saved using List.reverseRecOn with
  | nil => rfl
  | append_singleton saved entry ih => rw [restore_concat, lead_setThrottle, ih]

theorem isSome_restore (h : (T.slot k).isSome) : ((T.restore saved).slot k).isSome := by
  induction saved using List.reverseRecOn with
  | nil => exact h
  | append_singleton saved entry ih =>
    rw [restore_concat]
    exact isSome_setThrottle ih

/-- **Roots and locos of their own** end up with what was saved last. -/
theorem slot_restore_root (hslot : (T.slot l).isSome) (hlead : T.lead l = none) :
    (T.restore saved).slot l = (lastSaved saved l).or (T.slot l) := by
  induction saved using List.reverseRecOn with
  | nil => rfl
  | append_singleton saved entry ih =>
    have hlead' : (T.restore saved).lead l = none := by rw [lead_restore, hlead]
    rw [restore_concat, lastSaved_concat]
    by_cases hentry : entry.1 = l
    · rw [if_pos hentry, hentry]
      refine slot_setThrottle_self hlead' fun hnone => ?_
      rw [ih, Option.or_eq_none_iff] at hnone
      rw [hnone.2] at hslot
      cases hslot
    · rw [if_neg hentry, slot_setThrottle_root hlead' fun heq => hentry heq.symm, ih]

/-- **Followers** end up with the speed of their lead, if any speed was new to it. -/
theorem slot_restore_follower (hlead : T.lead l = some (root, reverse)) :
    (T.restore saved).slot l =
      if ∃ entry ∈ saved, entry.1 = root ∧ T.slot root ≠ some entry.2 then
        (lastSaved saved root).map (turned reverse)
      else T.slot l := by
  obtain ⟨-, hslot, hroot⟩ := T.follower hlead
  induction saved using List.reverseRecOn with
  | nil => simp [restore]
  | append_singleton saved entry ih =>
    have hlead' : (T.restore saved).lead l = some (root, reverse) := by rw [lead_restore, hlead]
    rw [restore_concat, slot_setThrottle_follower hlead', slot_restore_root hslot hroot, ih,
      lastSaved_concat]
    obtain ⟨i, p⟩ := entry
    by_cases hi : i = root
    · subst hi
      by_cases hany : ∃ entry ∈ saved, entry.1 = i ∧ T.slot i ≠ some entry.2
      · -- the lead has been given a new speed before
        have hany' : ∃ entry ∈ saved ++ [(i, p)], entry.1 = i ∧ T.slot i ≠ some entry.2 := by
          obtain ⟨entry, hmem, hentry⟩ := hany
          exact ⟨entry, List.mem_append_left _ hmem, hentry⟩
        obtain ⟨last, hlast⟩ : ∃ last, lastSaved saved i = some last := by
          obtain ⟨⟨j, v⟩, hmem, rfl, -⟩ := hany
          exact exists_lastSaved hmem
        rw [if_pos hany', if_pos hany, hlast]
        by_cases hp : last = p <;> simp [hp]
      · -- it still has the speed that it had at first
        have hcurrent : (lastSaved saved i).or (T.slot i) = T.slot i := by
          cases hlast : lastSaved saved i with
          | none => rfl
          | some v =>
            by_contra hne
            exact hany ⟨_, lastSaved_mem hlast, rfl, fun heq => hne heq.symm⟩
        rw [hcurrent, if_neg hany]
        by_cases hp : T.slot i = some p
        · rw [if_neg fun hand => hand.2 hp, if_neg]
          rintro ⟨entry, hmem, hentry, hnew⟩
          rcases List.mem_append.mp hmem with hmem | hmem
          · exact hany ⟨entry, hmem, hentry, hnew⟩
          · obtain rfl := List.mem_singleton.mp hmem
            exact hnew hp
        · rw [if_pos ⟨rfl, hp⟩, if_pos ⟨_, List.mem_append_right _ (List.mem_singleton_self _),
            rfl, hp⟩]
          simp
    · have hany : (∃ entry ∈ saved ++ [(i, p)], entry.1 = root ∧ T.slot root ≠ some entry.2) ↔
          ∃ entry ∈ saved, entry.1 = root ∧ T.slot root ≠ some entry.2 := by
        simp [or_and_right, exists_or, hi]
      simp only [hany, hi, if_false]
      rw [if_neg fun hand => hi hand.1.symm]

/-! ## Locos that get a slot -/

theorem lead_of_no_slot (h : T.slot l = none) : T.lead l = none := by
  cases hlead : T.lead l with
  | none => rfl
  | some entry =>
    have hslot := (T.follower hlead).1
    rw [h] at hslot
    cases hslot

theorem free_setThrottle_of_slot (h : (T.slot l).isSome) : (T.setThrottle l p).free = T.free := by
  unfold setThrottle
  split
  · exact if_neg fun hnone => by rw [hnone] at h; cases h
  · rfl

/-- A loco without a slot gets one if there is room. -/
theorem setThrottle_of_no_slot (h : T.slot l = none) :
    (T.setThrottle l p).free = T.free - 1 ∧
      (T.setThrottle l p).slot l = if T.free = 0 then none else some p := by
  by_cases hfree : T.free = 0
  · have hnot : ¬ T.Accepts l p := fun haccepts => haccepts.1 h hfree
    rw [setThrottle_of_not_accepts hnot, if_pos hfree, hfree]
    exact ⟨rfl, h⟩
  · have haccepts : T.Accepts l p := ⟨fun _ => hfree, lead_of_no_slot h, by simp [h]⟩
    rw [if_neg hfree, setThrottle, if_pos haccepts]
    exact ⟨if_pos h, withTarget_self⟩

/-- No loco follows one that has no slot. -/
theorem root_ne_of_no_slot (h : T.slot l = none) (hlead : T.lead k = some (root, reverse)) :
    root ≠ l := by
  rintro rfl
  have hroot := (T.follower hlead).2.1
  rw [h] at hroot
  cases hroot

theorem slot_setThrottle_other (h : T.slot l = none) (hne : k ≠ l) :
    (T.setThrottle l p).slot k = T.slot k := by
  cases hlead : T.lead k with
  | none => exact slot_setThrottle_root hlead hne
  | some entry =>
    rw [slot_setThrottle_follower hlead, if_neg fun hand => root_ne_of_no_slot h hlead hand.1]

/-- A slot that has just been created is as good as none. -/
theorem setThrottle_setThrottle {q : UInt8} (h : T.slot l = none) (hfree : T.free ≠ 0) :
    (T.setThrottle l q).setThrottle l p = T.setThrottle l p := by
  have haccepts : ∀ p, T.Accepts l p := fun p => ⟨fun _ => hfree, lead_of_no_slot h, by simp [h]⟩
  have hslot : (T.setThrottle l q).slot l = some q := slot_setThrottle_self (lead_of_no_slot h)
    fun _ => hfree
  by_cases hpq : q = p
  · subst hpq
    exact setThrottle_of_not_accepts fun haccepts => haccepts.2.2 hslot
  · have haccepts' : (T.setThrottle l q).Accepts l p := by
      refine ⟨fun hnone => ?_, ?_, by simp [hslot, hpq]⟩
      · rw [hslot] at hnone
        cases hnone
      · rw [lead_setThrottle]
        exact lead_of_no_slot h
    refine Targets.ext (funext fun k => ?_) (by simp) ?_
    · by_cases hk : k = l
      · rw [hk, slot_setThrottle haccepts', slot_setThrottle (haccepts p), withTarget_self,
          withTarget_self]
      · rw [slot_setThrottle_other h hk]
        cases hlead : T.lead k with
        | none =>
          rw [slot_setThrottle_root (by rw [lead_setThrottle, hlead]) hk,
            slot_setThrottle_other h hk]
        | some entry =>
          rw [slot_setThrottle_follower (by rw [lead_setThrottle, hlead]),
            slot_setThrottle_other h hk, if_neg fun hand => root_ne_of_no_slot h hlead hand.1]
    · rw [free_setThrottle_of_slot (by rw [hslot]; rfl), (setThrottle_of_no_slot h).1,
        (setThrottle_of_no_slot h).1]

/-- The locos of the list that have no slot. -/
def newcomers (T : Targets) (ids : List UInt16) : Finset UInt16 :=
  ids.toFinset.filter fun l => T.slot l = none

/-- There is room for the loco when its turn comes. -/
def Admits (T : Targets) (ids : List UInt16) (l : UInt16) : Prop :=
  (T.newcomers (ids.takeWhile (· ≠ l))).card < T.free

instance {ids : List UInt16} : Decidable (T.Admits ids l) := inferInstanceAs (Decidable (_ < _))

variable {ids : List UInt16}

theorem newcomers_concat_of_slot (h : T.slot k ≠ none ∨ k ∈ ids) :
    T.newcomers (ids ++ [k]) = T.newcomers ids := by
  ext l
  simp only [newcomers, Finset.mem_filter, List.mem_toFinset, List.mem_append, List.mem_singleton]
  constructor
  · rintro ⟨hl | rfl, hslot⟩
    · exact ⟨hl, hslot⟩
    · exact ⟨h.resolve_left fun hne => hne hslot, hslot⟩
  · exact fun ⟨hl, hslot⟩ => ⟨.inl hl, hslot⟩

/-- A loco that has no slot, and is not in the list yet, is one newcomer more. -/
theorem card_newcomers_concat (hslot : T.slot k = none) (hk : k ∉ ids) :
    (T.newcomers (ids ++ [k])).card = (T.newcomers ids).card + 1 := by
  have hinsert : T.newcomers (ids ++ [k]) = insert k (T.newcomers ids) := by
    ext l
    simp only [newcomers, Finset.mem_filter, List.mem_toFinset, List.mem_append,
      List.mem_singleton, Finset.mem_insert]
    constructor
    · rintro ⟨hl | rfl, hnone⟩
      · exact .inr ⟨hl, hnone⟩
      · exact .inl rfl
    · rintro (rfl | ⟨hl, hnone⟩)
      · exact ⟨.inr rfl, hslot⟩
      · exact ⟨.inl hl, hnone⟩
  rw [hinsert, Finset.card_insert_of_notMem]
  simp [newcomers, hk]

theorem admits_concat_of_mem (hl : l ∈ ids) : T.Admits (ids ++ [k]) l ↔ T.Admits ids l := by
  have hwhile : (ids ++ [k]).takeWhile (· ≠ l) = ids.takeWhile (· ≠ l) := by
    rw [List.takeWhile_append, if_neg]
    intro hlength
    have hall : ids.takeWhile (· ≠ l) = ids := (List.takeWhile_prefix _).eq_of_length hlength
    have hne := List.takeWhile_eq_self_iff.mp hall l hl
    simp at hne
  rw [Admits, hwhile, Admits]

theorem admits_concat_self (hl : l ∉ ids) :
    T.Admits (ids ++ [l]) l ↔ (T.newcomers ids).card < T.free := by
  have hne : ∀ k ∈ ids, decide (k ≠ l) := by
    intro k hk
    rw [decide_eq_true_eq]
    rintro rfl
    exact hl hk
  have hwhile : (ids ++ [l]).takeWhile (· ≠ l) = ids := by
    rw [List.takeWhile_append_of_pos hne]
    simp
  rw [Admits, hwhile]

/-- Those that are ahead are among all. -/
theorem card_newcomers_takeWhile : (T.newcomers (ids.takeWhile (· ≠ l))).card ≤
    (T.newcomers ids).card := by
  refine Finset.card_le_card (Finset.filter_subset_filter _ fun k hk => ?_)
  exact List.mem_toFinset.mpr ((List.takeWhile_prefix _).subset (List.mem_toFinset.mp hk))

/-- **Locos without a slot** get one in turn, as long as there is room. -/
theorem restore_no_slot :
    (T.restore saved).free = T.free - (T.newcomers (saved.map Prod.fst)).card ∧
    ∀ l, T.slot l = none → (T.restore saved).slot l =
      if T.Admits (saved.map Prod.fst) l then lastSaved saved l else none := by
  induction saved using List.reverseRecOn with
  | nil => exact ⟨by simp [restore, newcomers], fun l hl => by simp [restore, hl]⟩
  | append_singleton saved entry ih =>
    obtain ⟨k, p⟩ := entry
    obtain ⟨hfree, hslots⟩ := ih
    rw [restore_concat, List.map_append, List.map_singleton]
    have hlead : ∀ l, T.slot l = none → (T.restore saved).lead l = none := fun l hl => by
      rw [lead_restore]
      exact lead_of_no_slot hl
    -- the other locos are not concerned
    have hother : ∀ l, T.slot l = none → l ≠ k → ((T.restore saved).setThrottle k p).slot l =
        if T.Admits (saved.map Prod.fst ++ [k]) l then lastSaved (saved ++ [(k, p)]) l
        else none := by
      intro l hl hne
      have hlast : lastSaved (saved ++ [(k, p)]) l = lastSaved saved l := by
        rw [lastSaved_concat, if_neg hne.symm]
      rw [slot_setThrottle_root (hlead l hl) hne, hslots l hl, hlast]
      by_cases hmem : l ∈ saved.map Prod.fst
      · simp only [admits_concat_of_mem hmem]
      · have hnever : lastSaved saved l = none := by
          cases hlast : lastSaved saved l with
          | none => rfl
          | some v => exact absurd (List.mem_map_of_mem (lastSaved_mem hlast)) hmem
        simp [hnever]
    have hlast : lastSaved (saved ++ [(k, p)]) k = some p := by
      rw [lastSaved_concat, if_pos rfl]
    have hslotted : ((T.restore saved).slot k).isSome →
        ((T.restore saved).setThrottle k p).free = (T.restore saved).free :=
      fun hslot => free_setThrottle_of_slot hslot
    by_cases hk : T.slot k = none
    · have hself := hslots k hk
      by_cases hmem : k ∈ saved.map Prod.fst
      · -- it has had its turn
        rw [newcomers_concat_of_slot (.inr hmem)]
        obtain ⟨⟨j, v⟩, hentry, rfl⟩ := List.mem_map.mp hmem
        obtain ⟨last, hold⟩ := exists_lastSaved hentry
        rw [hold] at hself
        by_cases hadmits : T.Admits (saved.map Prod.fst) j
        · rw [if_pos hadmits] at hself
          refine ⟨by rw [hslotted (by rw [hself]; rfl), hfree], fun l hl => ?_⟩
          by_cases hl' : l = j
          · rw [hl', if_pos ((admits_concat_of_mem hmem).mpr hadmits), hlast]
            exact slot_setThrottle_self (hlead j hk) fun hnone => by rw [hself] at hnone; cases hnone
          · exact hother l hl hl'
        · rw [if_neg hadmits] at hself
          have hfull : (T.restore saved).free = 0 := by
            have hahead : T.free ≤ (T.newcomers ((saved.map Prod.fst).takeWhile (· ≠ j))).card :=
              Nat.not_lt.mp hadmits
            rw [hfree, Nat.sub_eq_zero_of_le (hahead.trans card_newcomers_takeWhile)]
          obtain ⟨hfree', hslot'⟩ := setThrottle_of_no_slot (p := p) hself
          refine ⟨by rw [hfree', ← hfree, hfull], fun l hl => ?_⟩
          by_cases hl' : l = j
          · rw [hl', if_neg fun h => hadmits ((admits_concat_of_mem hmem).mp h), hslot',
              if_pos hfull]
          · exact hother l hl hl'
      · -- it is its turn now
        have hnever : (T.restore saved).slot k = none := by
          rw [hself]
          split
          · cases hold : lastSaved saved k with
            | none => rfl
            | some v => exact absurd (List.mem_map_of_mem (lastSaved_mem hold)) hmem
          · rfl
        obtain ⟨hfree', hslot'⟩ := setThrottle_of_no_slot (p := p) hnever
        rw [card_newcomers_concat hk hmem]
        refine ⟨hfree'.trans (by omega), fun l hl => ?_⟩
        by_cases hl' : l = k
        · rw [hl', hlast, hslot', hfree]
          by_cases hroom : (T.newcomers (saved.map Prod.fst)).card < T.free
          · rw [if_neg (by omega), if_pos ((admits_concat_self hmem).mpr hroom)]
          · rw [if_pos (by omega), if_neg fun h => hroom ((admits_concat_self hmem).mp h)]
        · exact hother l hl hl'
    · rw [newcomers_concat_of_slot (.inl hk)]
      have hslot : ((T.restore saved).slot k).isSome :=
        isSome_restore (Option.isSome_iff_ne_none.mpr hk)
      refine ⟨by rw [hslotted hslot, hfree], fun l hl => hother l hl ?_⟩
      rintro rfl
      exact hk hl

/-! ## Stopping and restoring -/

/-- The target speed of the loco will be what it was, when all locos have been stopped and the saved
speeds are set again. -/
def Restorable (T : Targets) (saved : List (UInt16 × UInt8)) (l : UInt16) : Prop :=
  match T.slot l with
  -- a slot that is created starts at speed 0, forwards
  | none => T.Admits (saved.map Prod.fst) l → lastSaved saved l = some 128
  | some target =>
    match T.lead l with
    | none => lastSaved saved l = some target
    | some (root, reverse) =>
      -- a follower goes with its lead, if that gets moving again at all
      if ∃ entry ∈ saved, entry.1 = root ∧ (T.slot root).map estopCode ≠ some entry.2 then
        (lastSaved saved root).map (turned reverse) = some target
      else estopCode target = target

/-- **What comes back.** -/
theorem restored_iff (hl : l ∈ saved.map Prod.fst) :
    (T.stop.restore saved).speedByte l = T.speedByte l ↔ T.Restorable saved l := by
  obtain ⟨⟨k, v⟩, hentry, rfl⟩ := List.mem_map.mp hl
  obtain ⟨last, hlast⟩ := exists_lastSaved hentry
  unfold Restorable speedByte
  cases hslot : T.slot k with
  | none =>
    have hstop : T.stop.slot k = none := by simp [stop, hslot]
    have hadmits : T.stop.Admits (saved.map Prod.fst) k ↔ T.Admits (saved.map Prod.fst) k := by
      simp [Admits, newcomers, stop]
    simp only [restore_no_slot.2 k hstop, hadmits, hlast]
    by_cases hroom : T.Admits (saved.map Prod.fst) k <;> simp [hroom]
  | some target =>
    have hstop : T.stop.slot k = some (estopCode target) := by simp [stop, hslot]
    cases hlead : T.lead k with
    | none =>
      have hlead' : T.stop.lead k = none := hlead
      simp [slot_restore_root (by rw [hstop]; rfl) hlead', hlast]
    | some entry =>
      obtain ⟨root, reverse⟩ := entry
      have hlead' : T.stop.lead k = some (root, reverse) := hlead
      simp only [slot_restore_follower hlead', hstop]
      have hroot : T.stop.slot root = (T.slot root).map estopCode := rfl
      simp only [hroot]
      by_cases hany : ∃ entry ∈ saved, entry.1 = root ∧
          (T.slot root).map estopCode ≠ some entry.2
      · obtain ⟨lead, hlead⟩ : ∃ v, lastSaved saved root = some v := by
          obtain ⟨⟨j, v⟩, hmem, rfl, -⟩ := hany
          exact exists_lastSaved hmem
        rw [if_pos hany, if_pos hany]
        simp [hlead]
      · rw [if_neg hany, if_neg hany]
        simp

/-- The loco is no follower, or goes with its lead: the lead is among the locos and moves, and the
follower has its speed; or else the follower stands in an emergency stop already. -/
def Follows (T : Targets) (ids : List UInt16) (l : UInt16) : Prop :=
  match T.lead l with
  | none => True
  | some (root, reverse) =>
    if root ∈ ids ∧ (T.slot root).map estopCode ≠ T.slot root then
      (T.slot root).map (turned reverse) = T.slot l
    else (T.slot l).map estopCode = T.slot l

theorem follows_congr {ids' : List UInt16} (h : ∀ k, k ∈ ids ↔ k ∈ ids') :
    T.Follows ids l ↔ T.Follows ids' l := by
  unfold Follows
  simp only [h]

/-- **Speeds that were saved at the stop** are right for all but followers. -/
theorem restorable_iff_follows (hsaved : ∀ entry ∈ saved, entry.2 = T.speedByte entry.1)
    (hl : l ∈ saved.map Prod.fst) : T.Restorable saved l ↔ T.Follows (saved.map Prod.fst) l := by
  have hlast : ∀ k ∈ saved.map Prod.fst, lastSaved saved k = some (T.speedByte k) := by
    intro k hk
    obtain ⟨⟨j, v⟩, hmem, rfl⟩ := List.mem_map.mp hk
    obtain ⟨last, hlast⟩ := exists_lastSaved hmem
    have hspeed : last = T.speedByte j := hsaved _ (lastSaved_mem hlast)
    rw [hlast, hspeed]
  unfold Restorable Follows
  cases hslot : T.slot l with
  | none => simp [lead_of_no_slot hslot, hlast l hl, speedByte, hslot]
  | some target =>
    cases hlead : T.lead l with
    | none => simp [hlast l hl, speedByte, hslot]
    | some entry =>
      obtain ⟨root, reverse⟩ := entry
      obtain ⟨speed, hroot⟩ := Option.isSome_iff_exists.mp (T.follower hlead).2.1
      have hspeed : T.speedByte root = speed := by simp [speedByte, hroot]
      have hany : (∃ entry ∈ saved, entry.1 = root ∧ (T.slot root).map estopCode ≠ some entry.2) ↔
          root ∈ saved.map Prod.fst ∧ (T.slot root).map estopCode ≠ T.slot root := by
        rw [hroot]
        constructor
        · rintro ⟨entry, hmem, rfl, hne⟩
          rw [hsaved entry hmem, hspeed] at hne
          exact ⟨List.mem_map_of_mem hmem, hne⟩
        · rintro ⟨hmem, hne⟩
          obtain ⟨entry, hentry, rfl⟩ := List.mem_map.mp hmem
          refine ⟨entry, hentry, rfl, ?_⟩
          rwa [hsaved entry hentry, hspeed]
      simp only [hany]
      by_cases hmoves : root ∈ saved.map Prod.fst ∧ (T.slot root).map estopCode ≠ T.slot root
      · rw [if_pos hmoves, if_pos hmoves, hlast root hmoves.1, hspeed, hroot]
      · rw [if_neg hmoves, if_neg hmoves]
        simp

end Targets

end CommandStation
