import CommandStation.EXRAIL2.Ring

/-!
# The flags

One array of bytes holds the marks of task ids, sections, latches and signals. A write concerns the
bits of its masks only.
-/

namespace CommandStation.Tasks

open CommandStation.Lib

variable {t t' : Tasks} {id id' : UInt16} {on off mask : UInt8}

/-! ## Bytes -/

/-- Flags outside the mask do not change what is under it. -/
theorem masked_of_disjoint (x : UInt8) (h : (on ||| off) &&& mask = 0) :
    ((x &&& ~~~off) ||| on) &&& mask = x &&& mask := by
  have hbits := congrArg UInt8.toBitVec h
  apply UInt8.eq_of_toBitVec_eq
  simp only [UInt8.toBitVec_and, UInt8.toBitVec_or, UInt8.toBitVec_not, UInt8.toBitVec_zero] at *
  ext i hi
  have hbit := congrArg (fun b => b[i]) hbits
  simp only [BitVec.getElem_and, BitVec.getElem_or, BitVec.getElem_not, BitVec.getElem_zero] at *
  revert hbit
  generalize on.toBitVec[i] = p
  generalize off.toBitVec[i] = q
  generalize mask.toBitVec[i] = r
  generalize x.toBitVec[i] = y
  revert p q r y
  decide

theorem disjoint_of_or {x p q : UInt8} (h : x &&& (p ||| q) = 0) : x &&& p = 0 ∧ x &&& q = 0 := by
  have hdistrib : x &&& (p ||| q) = (x &&& p) ||| (x &&& q) :=
    UInt8.eq_of_toBitVec_eq BitVec.and_or_distrib_left
  rw [hdistrib] at h
  exact UInt8.or_eq_zero_iff.mp h

theorem masked_set (x : UInt8) : ((x &&& ~~~0) ||| mask) &&& mask = mask := by
  apply UInt8.eq_of_toBitVec_eq
  ext i hi
  simp +contextual

theorem masked_clear (x : UInt8) : ((x &&& ~~~mask) ||| 0) &&& mask = 0 := by
  apply UInt8.eq_of_toBitVec_eq
  ext i hi
  simp

/-! ## Flags -/

theorem setFlag_flags : (t.setFlag id on off).flags id' =
    if id' = id ∧ id.toNat < maxFlags then (t.flags id &&& ~~~off) ||| on else t.flags id' := by
  unfold setFlag
  split
  · next hout => rw [if_neg (by omega)]
  · next hin =>
    by_cases hid : id' = id
    · rw [if_pos ⟨hid, by omega⟩, hid]
      exact Function.update_self ..
    · rw [if_neg (by tauto)]
      exact Function.update_of_ne hid ..

/-- Only the flags matter. -/
theorem getFlag_congr (h : t'.flags = t.flags) : t'.getFlag id mask = t.getFlag id mask := by
  unfold getFlag
  rw [h]

@[simp] theorem getFlag_note {event : SectionEvent} :
    (t.note event).getFlag id mask = t.getFlag id mask := rfl

/-- A write that concerns other bits. -/
theorem getFlag_setFlag_of_disjoint (h : (on ||| off) &&& mask = 0) :
    (t.setFlag id on off).getFlag id' mask = t.getFlag id' mask := by
  unfold getFlag
  rw [setFlag_flags]
  by_cases hid : id' = id ∧ id.toNat < maxFlags
  · rw [if_pos hid, masked_of_disjoint _ h, hid.1]
  · rw [if_neg hid]

theorem getFlag_setFlag_set (hmask : mask ≠ 0) :
    (t.setFlag id mask 0).getFlag id' mask =
      (t.getFlag id' mask || decide (id' = id ∧ id.toNat < maxFlags)) := by
  unfold getFlag
  rw [setFlag_flags]
  by_cases hid : id' = id ∧ id.toNat < maxFlags
  · have hin : ¬ maxFlags ≤ id.toNat := by omega
    rw [if_pos hid, hid.1, masked_set, if_neg hin]
    simp [hmask, hid.2]
  · simp [hid]

theorem getFlag_setFlag_clear :
    (t.setFlag id 0 mask).getFlag id' mask = (t.getFlag id' mask && !decide (id' = id)) := by
  unfold getFlag
  rw [setFlag_flags]
  by_cases hid : id' = id
  · subst hid
    by_cases hin : id'.toNat < maxFlags
    · rw [if_pos (And.intro rfl hin), masked_clear]
      simp
    · simp [show maxFlags ≤ id'.toNat by omega]
  · simp [hid]

/-! ## Freeing all sections -/

theorem getFlag_freeAllSections_of_disjoint (h : sectionFlag &&& mask = 0) :
    t.freeAllSections.getFlag id mask = t.getFlag id mask := by
  unfold freeAllSections
  generalize maxFlags = n
  induction n with
  | zero => rfl
  | succ n ih =>
    rw [List.range_succ, List.foldl_append]
    simp only [List.foldl_cons, List.foldl_nil]
    rw [getFlag_setFlag_of_disjoint (by simpa using h), ih]

end CommandStation.Tasks
