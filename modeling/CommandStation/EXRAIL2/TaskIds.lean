import CommandStation.EXRAIL2.Flags
import CommandStation.EXRAIL2.Steps
import Mathlib.Data.List.Perm.Subperm

/-!
# The ring and the task ids

In every state the program can reach, the tasks that exist form one ring that `loopTask` points into,
and as long as there have never been more than 256 of them, their ids are different and exactly these
ids are marked as used.
-/

namespace CommandStation

open CommandStation.Lib CommandStation.Tasks

namespace Tasks

variable {script : Script} {t t' : Tasks} {a : Addr}

/-- Different tasks have different ids, and exactly the ids of tasks are marked as used. -/
structure Ids (t : Tasks) : Prop where
  distinct : ∀ a ∈ t.live, ∀ b ∈ t.live, (t.mem a).taskId = (t.mem b).taskId → a = b
  used : ∀ id, t.getFlag id taskFlag = true ↔ ∃ a ∈ t.live, (t.mem a).taskId.toUInt16 = id

theorem ids_init (mem : Addr → RMFT2) : (init mem).Ids where
  distinct a ha := by cases ha
  used id := by
    constructor
    · intro h
      simp [getFlag, init] at h
    · rintro ⟨a, ha, -⟩
      cases ha

/-- Only the tasks, their ids and the marks matter. -/
theorem Ids.congr (h : t.Ids) (hlive : t'.live = t.live)
    (hid : ∀ a ∈ t.live, (t'.mem a).taskId = (t.mem a).taskId)
    (hused : ∀ id, t'.getFlag id taskFlag = t.getFlag id taskFlag) : t'.Ids where
  distinct a ha b hb heq := by
    rw [hlive] at ha hb
    rw [hid a ha, hid b hb] at heq
    exact h.distinct a ha b hb heq
  used id := by
    rw [hused, h.used, hlive]
    refine exists_congr fun a => and_congr_right fun ha => ?_
    rw [hid a ha]

theorem Ids.write (h : t.Ids) {f : RMFT2 → RMFT2} (hf : (f (t.mem a)).taskId = (t.mem a).taskId) :
    (t.write a f).Ids := by
  refine h.congr rfl (fun b _ => ?_) fun id => getFlag_congr rfl
  by_cases hb : b = a
  · rw [hb, write_mem_self, hf]
  · rw [write_mem, if_neg hb]

theorem Ids.setFlag (h : t.Ids) {id : UInt16} {on off : UInt8} (hmasks : (on ||| off) &&& taskFlag = 0) :
    (t.setFlag id on off).Ids :=
  h.congr setFlag_live (fun _ _ => by rw [setFlag_mem]) fun _ => getFlag_setFlag_of_disjoint hmasks

/-! ## Creating -/

/-- The first id that is not marked as used, if there is one. -/
def firstUnused (t : Tasks) : Option Nat :=
  (List.range maxFlags).find? fun f => !t.getFlag (UInt16.ofNat f) taskFlag

/-- With less than 256 tasks there is an id that is not used. -/
theorem Ids.exists_unused (h : t.Ids) (hlen : t.live.length < maxFlags) :
    ∃ f < maxFlags, t.firstUnused = some f ∧ t.getFlag (UInt16.ofNat f) taskFlag = false := by
  cases hfind : t.firstUnused with
  | some f =>
    have hmem := List.mem_of_find?_eq_some hfind
    have hsome := List.find?_some hfind
    exact ⟨f, List.mem_range.mp hmem, rfl, by simpa using hsome⟩
  | none =>
    -- all 256 ids would belong to tasks
    exfalso
    have hall : ∀ f < maxFlags, t.getFlag (UInt16.ofNat f) taskFlag = true := by
      have hnone := List.find?_eq_none.mp hfind
      intro f hf
      simpa using hnone f (List.mem_range.mpr hf)
    have hsub : List.range maxFlags ⊆ t.live.map fun a => (t.mem a).taskId.toNat := by
      intro f hf
      have hlt := List.mem_range.mp hf
      obtain ⟨a, ha, hid⟩ := (h.used _).mp (hall f hlt)
      refine List.mem_map.mpr ⟨a, ha, ?_⟩
      have := congrArg UInt16.toNat hid
      simpa [maxFlags, Nat.mod_eq_of_lt (show f < 65536 by simp [maxFlags] at hlt; omega)] using this
    have hle := (List.subperm_of_subset List.nodup_range hsub).length_le
    rw [List.length_range, List.length_map] at hle
    omega

/-- A new task gets an id that no other has, while there are ids left. -/
theorem Created.ids (hc : Created a t t') (h : t.Ids) (hlen : t.live.length < maxFlags) : t'.Ids := by
  obtain ⟨f, hf, hfind, hfree⟩ := h.exists_unused hlen
  -- the id is the first that is not in use
  have hid : (t'.mem a).taskId.toUInt16 = UInt16.ofNat f := by
    rw [hc.taskId, show t.unusedId = UInt8.ofNat f by unfold unusedId; rw [← firstUnused, hfind]]
    apply UInt16.toNat_inj.mp
    simp only [maxFlags] at hf
    simp
    omega
  have hused : ∀ id, t'.getFlag id taskFlag =
      (t.getFlag id taskFlag || decide (id = UInt16.ofNat f)) := by
    intro id
    have hflags : t.useId = t.setFlag (UInt16.ofNat f) taskFlag 0 := by
      unfold useId
      rw [← firstUnused, hfind]
    have hin : (UInt16.ofNat f).toNat < maxFlags := by
      simp only [maxFlags] at hf ⊢
      simp
      omega
    rw [getFlag_congr (hc.flags.trans (congrArg Tasks.flags hflags)), getFlag_setFlag_set (by decide)]
    simp only [hin, and_true]
  -- the other tasks keep theirs, and none of them has that one
  have hold : ∀ b ∈ t.live, (t'.mem b).taskId = (t.mem b).taskId ∧
      (t.mem b).taskId.toUInt16 ≠ UInt16.ofNat f := by
    intro b hb
    refine ⟨?_, fun heq => ?_⟩
    · rw [hc.others b fun heq => hc.fresh (heq ▸ hb)]
    · rw [(h.used _).mpr ⟨b, hb, heq⟩] at hfree
      cases hfree
  refine ⟨fun b hb d hd heq => ?_, fun id => ?_⟩
  · rw [hc.live] at hb hd
    rcases List.mem_cons.mp hb with rfl | hb'
    · rcases List.mem_cons.mp hd with rfl | hd'
      · rfl
      · exact absurd (by rw [← (hold d hd').1, ← heq, hid]) (hold d hd').2
    · rcases List.mem_cons.mp hd with rfl | hd'
      · exact absurd (by rw [← (hold b hb').1, heq, hid]) (hold b hb').2
      · rw [(hold b hb').1, (hold d hd').1] at heq
        exact h.distinct b hb' d hd' heq
  · rw [hused, hc.live, Bool.or_eq_true, h.used, decide_eq_true_iff]
    constructor
    · rintro (⟨b, hb, hbid⟩ | heq)
      · exact ⟨b, List.mem_cons_of_mem a hb, by rw [(hold b hb).1, hbid]⟩
      · exact ⟨a, List.mem_cons_self, by rw [hid, heq]⟩
    · rintro ⟨b, hb, hbid⟩
      rcases List.mem_cons.mp hb with rfl | hb'
      · exact .inr (by rw [← hbid, hid])
      · exact .inl ⟨b, hb', by rw [← (hold b hb').1, hbid]⟩

/-! ## Killing -/

/-- The id of a task that is deleted is free, and the others keep theirs. -/
theorem Killed.ids (hk : Killed a t t') (h : t.Ids) (hnodup : t.live.Nodup) : t'.Ids := by
  have hold : ∀ b, (t'.mem b).taskId = (t.mem b).taskId := fun b => by rw [hk.others b]
  have hlive : ∀ b, b ∈ t'.live ↔ b ∈ t.live ∧ b ≠ a := fun b => by
    rw [hk.live, hnodup.mem_erase_iff, and_comm]
  refine ⟨fun b hb d hd heq => ?_, fun id => ?_⟩
  · rw [hold, hold] at heq
    exact h.distinct b ((hlive b).mp hb).1 d ((hlive d).mp hd).1 heq
  · rw [getFlag_congr hk.flags, getFlag_setFlag_clear, Bool.and_eq_true, h.used]
    simp only [Bool.not_eq_true', decide_eq_false_iff_not]
    constructor
    · rintro ⟨⟨b, hb, rfl⟩, hne⟩
      exact ⟨b, (hlive b).mpr ⟨hb, fun heq => hne (by rw [heq])⟩, by rw [hold]⟩
    · rintro ⟨b, hb, rfl⟩
      obtain ⟨hb, hba⟩ := (hlive b).mp hb
      rw [hold]
      refine ⟨⟨b, hb, rfl⟩, fun heq => hba (h.distinct b hb a hk.mem ?_)⟩
      exact UInt8.toUInt16_inj.mp heq

end Tasks

namespace Exrail

variable {script : Script} {w : Inputs}

/-- As long as there were never more tasks than ids, the ids stay apart. -/
theorem kept_ids : Kept script (fun _ _ => True) (fun t => t.peak ≤ maxFlags → t.Ids) where
  flag {t} id on off hmasks h hpeak := by
    rw [setFlag_peak] at hpeak
    exact (h hpeak).setFlag (disjoint_of_or hmasks).2
  write h hid _ hpeak := (h hpeak).write hid
  create {t t' a} h hc hpeak := by
    rw [hc.peak] at hpeak
    exact hc.ids (h (by omega)) (by omega)
  killed h hwell _ hk hpeak := hk.ids (h (hk.peak ▸ hpeak)) hwell.ring.nodup
  paused h _ hpeak := (h hpeak).congr rfl (fun _ _ => rfl) fun _ => rfl
  pointed h hpeak := (h hpeak).congr rfl (fun _ _ => rfl) fun _ => rfl
  forced id h hpeak := by
    rw [setFlag_peak] at hpeak
    exact (h hpeak).setFlag rfl
  acquired {t} a id h _ hpeak := by
    replace hpeak : (t.setFlag id sectionFlag 0).peak ≤ maxFlags := hpeak
    rw [setFlag_peak] at hpeak
    exact ((h hpeak).setFlag rfl).congr rfl (fun _ _ => rfl) fun _ => rfl
  freed {t} id h hpeak := by
    rw [setFlag_peak] at hpeak
    have hnote : (t.note (.freed id)).Ids := (h hpeak).congr rfl (fun _ _ => rfl) fun _ => rfl
    exact hnote.setFlag rfl
  freedAll {t} h hpeak := by
    have hused : ∀ id, t.freeAllSections.getFlag id taskFlag = t.getFlag id taskFlag := fun id =>
      getFlag_freeAllSections_of_disjoint rfl
    obtain ⟨flags, hflags⟩ := t.freeAllSections_eq
    rw [hflags] at hused hpeak ⊢
    exact (h hpeak).congr rfl (fun _ _ => rfl) hused

/-- **The ring and the ids, in every run.** No pointer to a task that does not exist is followed, the
tasks are one ring which `loopTask` points into unless there are none, and as long as there have
never been more than 256 of them, their ids are different and exactly these are marked. -/
theorem ring_and_ids (script : Script) (w : Inputs) (rails : JoinStation) (turnouts : List Turnout)
    (mem : Addr → RMFT2) (turns : List Turn) :
    wp NotDangling (history script w turns)
      (fun _ s => s.tasks.Ring ∧
        (s.tasks.loopTask = none ↔ s.tasks.live = []) ∧
        (∀ a, s.tasks.loopTask = some a → a ∈ s.tasks.live) ∧
        (s.tasks.peak ≤ maxFlags → s.tasks.Ids)) (init rails turnouts mem) := by
  refine wp_mono (kept_ids.wp_begin_run fun _ => ids_init mem) fun _ s h => ?_
  exact ⟨h.1.ring, h.1.ring.loopTask_eq_none, fun _ => h.1.ring.loopTask_mem, h.2⟩

end Exrail

end CommandStation
