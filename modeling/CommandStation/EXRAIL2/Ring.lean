import CommandStation.EXRAIL2.Tasks
import CommandStation.Lib.Circle

/-!
# Creating and deleting tasks

What the constructor and the destructor do to the ring, the flags and the other tasks: `Created` and
`Killed`. The ring is a circle through the tasks that exist, with `loopTask` at one of them.
-/

namespace CommandStation.Tasks

open CommandStation.Lib

variable {t t' : Tasks} {a b : Addr}

def next (t : Tasks) (a : Addr) : Addr := (t.mem a).next

/-- The tasks that exist form one ring, and `loopTask` points into it. -/
def Ring (t : Tasks) : Prop :=
  ∃ xs, Circle t.next xs ∧ xs.Perm t.live ∧ t.loopTask = xs.head?

namespace Ring

theorem loopTask_eq_none (h : t.Ring) : t.loopTask = none ↔ t.live = [] := by
  obtain ⟨xs, -, hperm, hhead⟩ := h
  rw [hhead, List.head?_eq_none_iff]
  constructor
  · rintro rfl
    exact hperm.symm.eq_nil
  · intro hlive
    rw [hlive] at hperm
    exact hperm.eq_nil

theorem loopTask_mem (h : t.Ring) (ha : t.loopTask = some a) : a ∈ t.live := by
  obtain ⟨xs, -, hperm, hhead⟩ := h
  exact hperm.subset (List.mem_of_head? (hhead ▸ ha))

/-- The ring, seen from one of its tasks. -/
theorem from_mem (h : t.Ring) (ha : a ∈ t.live) :
    ∃ ys, Circle t.next (a :: ys) ∧ (a :: ys).Perm t.live := by
  obtain ⟨xs, hc, hperm, -⟩ := h
  obtain ⟨ys, hys, hxs⟩ := hc.from_mem (hperm.mem_iff.mpr ha)
  exact ⟨ys, hys, hxs.trans hperm⟩

theorem next_mem (h : t.Ring) (ha : a ∈ t.live) : t.next a ∈ t.live := by
  obtain ⟨ys, hc, hperm⟩ := h.from_mem ha
  exact hperm.subset (hc.next_mem (by simp))

theorem nodup (h : t.Ring) : t.live.Nodup := by
  obtain ⟨xs, hc, hperm, -⟩ := h
  exact hperm.nodup_iff.mp hc.nodup

/-- `loopTask` may point to any task. -/
theorem point (h : t.Ring) (ha : a ∈ t.live) : ({ t with loopTask := some a } : Tasks).Ring := by
  obtain ⟨ys, hc, hperm⟩ := h.from_mem ha
  exact ⟨a :: ys, hc, hperm, rfl⟩

/-- The ring depends on the pointers only. -/
theorem congr (h : t.Ring) (hnext : ∀ a ∈ t.live, t'.next a = t.next a) (hlive : t'.live = t.live)
    (hloop : t'.loopTask = t.loopTask) : t'.Ring := by
  obtain ⟨xs, hc, hperm, hhead⟩ := h
  refine ⟨xs, hc.congr fun a ha => hnext a (hperm.subset ha), ?_, ?_⟩
  · rw [hlive]
    exact hperm
  · rw [hloop, hhead]

end Ring

theorem ring_init (mem : Addr → RMFT2) : (init mem).Ring := ⟨[], .nil, .refl _, rfl⟩

/-! ## Writing -/

@[simp] theorem write_live (f : RMFT2 → RMFT2) : (t.write a f).live = t.live := rfl
@[simp] theorem write_loopTask (f : RMFT2 → RMFT2) : (t.write a f).loopTask = t.loopTask := rfl
@[simp] theorem write_flags (f : RMFT2 → RMFT2) : (t.write a f).flags = t.flags := rfl
@[simp] theorem write_pausingTask (f : RMFT2 → RMFT2) :
    (t.write a f).pausingTask = t.pausingTask := rfl
@[simp] theorem write_peak (f : RMFT2 → RMFT2) : (t.write a f).peak = t.peak := rfl
@[simp] theorem write_sections (f : RMFT2 → RMFT2) : (t.write a f).sections = t.sections := rfl

theorem write_mem (f : RMFT2 → RMFT2) :
    (t.write a f).mem b = if b = a then f (t.mem a) else t.mem b := by
  unfold write
  by_cases h : b = a <;> simp [h]

@[simp] theorem write_mem_self (f : RMFT2 → RMFT2) : (t.write a f).mem a = f (t.mem a) := by
  simp [write_mem]

/-- Only what is written matters. -/
theorem write_congr {f g : RMFT2 → RMFT2} (h : f (t.mem a) = g (t.mem a)) :
    t.write a f = t.write a g := by
  unfold write
  rw [h]

theorem write_self {f : RMFT2 → RMFT2} (h : f (t.mem a) = t.mem a) : t.write a f = t := by
  unfold write
  rw [h, Function.update_eq_self]

@[simp] theorem setFlag_mem {id : UInt16} {on off : UInt8} : (t.setFlag id on off).mem = t.mem := by
  unfold setFlag
  split <;> rfl

@[simp] theorem setFlag_live {id : UInt16} {on off : UInt8} :
    (t.setFlag id on off).live = t.live := by
  unfold setFlag
  split <;> rfl

@[simp] theorem setFlag_loopTask {id : UInt16} {on off : UInt8} :
    (t.setFlag id on off).loopTask = t.loopTask := by
  unfold setFlag
  split <;> rfl

@[simp] theorem setFlag_pausingTask {id : UInt16} {on off : UInt8} :
    (t.setFlag id on off).pausingTask = t.pausingTask := by
  unfold setFlag
  split <;> rfl

@[simp] theorem setFlag_peak {id : UInt16} {on off : UInt8} :
    (t.setFlag id on off).peak = t.peak := by
  unfold setFlag
  split <;> rfl

@[simp] theorem setFlag_sections {id : UInt16} {on off : UInt8} :
    (t.setFlag id on off).sections = t.sections := by
  unfold setFlag
  split <;> rfl

/-- A task has an id marked as used; apart from that, marking changes flags only. -/
theorem useId_eq : ∃ flags, t.useId = { t with flags := flags } := by
  unfold useId
  split
  · unfold setFlag
    split
    · exact ⟨_, rfl⟩
    · exact ⟨_, rfl⟩
  · exact ⟨_, rfl⟩

/-- The sections are freed one after the other, up to `n`. -/
theorem freeSections_eq (n : Nat) : ∃ flags, (List.range n).foldl
    (fun t i => t.setFlag (UInt16.ofNat i) 0 sectionFlag) t = { t with flags := flags } := by
  induction n with
  | zero => exact ⟨_, rfl⟩
  | succ n ih =>
    obtain ⟨flags, ih⟩ := ih
    rw [List.range_succ, List.foldl_append, ih]
    simp only [List.foldl_cons, List.foldl_nil]
    unfold setFlag
    split
    · exact ⟨_, rfl⟩
    · exact ⟨_, rfl⟩

/-- Apart from flags, freeing all sections changes nothing. -/
theorem freeAllSections_eq : ∃ flags, t.freeAllSections = { t with flags := flags } :=
  freeSections_eq maxFlags

section Writing

variable {F : Crash → Prop}

theorem wp_readTask {Q : RMFT2 → Tasks → Prop} (ha : a ∈ t.live) (h : Q (t.mem a) t) :
    wp F (readTask a) Q t := by
  simp only [readTask, wp_bind, wp_get]
  rwa [if_pos ha]

theorem wp_writeTask {f : RMFT2 → RMFT2} {Q : Unit → Tasks → Prop} (ha : a ∈ t.live)
    (h : Q () (t.write a f)) : wp F (writeTask a f) Q t := by
  simp only [writeTask, wp_bind, wp_get]
  rwa [if_pos ha]

end Writing

/-! ## The constructor -/

/-- The object is the same but for its place in the ring. -/
def SameObject (task old : RMFT2) : Prop := task = { old with next := task.next }

/-- A task has been created at `a`. Its members, apart from the id, may have been set since. -/
structure Created (a : Addr) (t t' : Tasks) : Prop where
  ring : t'.Ring
  fresh : a ∉ t.live
  live : t'.live = a :: t.live
  taskId : (t'.mem a).taskId = t.unusedId
  others : ∀ b, b ≠ a → SameObject (t'.mem b) (t.mem b)
  flags : t'.flags = t.useId.flags
  pausingTask : t'.pausingTask = t.pausingTask
  peak : t'.peak = max t.peak (t.live.length + 1)
  sections : t'.sections = t.sections

theorem setUp_others {progCtr : Int} {loco : UInt16} {invert : Bool} (hb : b ≠ a) :
    (t.setUp a progCtr loco invert).mem b = t.mem b := by
  obtain ⟨flags, hflags⟩ := t.useId_eq
  simp [setUp, hflags, write_mem, hb]

/-- The object that is set up, chained in. -/
theorem created_of_setUp (progCtr : Int) (loco : UInt16) (invert : Bool) (hring : t'.Ring)
    (hfresh : a ∉ t.live) (hself : SameObject (t'.mem a) ((t.setUp a progCtr loco invert).mem a))
    (hothers : ∀ b, b ≠ a → SameObject (t'.mem b) (t.mem b))
    (hrest : t' = { t.setUp a progCtr loco invert with mem := t'.mem, loopTask := t'.loopTask }) :
    Created a t t' := by
  obtain ⟨flags, hflags⟩ := t.useId_eq
  have htask : (t'.mem a).taskId = t.unusedId := by
    rw [hself]
    simp [setUp]
  refine ⟨hring, hfresh, ?_, htask, hothers, ?_, ?_, ?_, ?_⟩
  all_goals rw [hrest]; simp [setUp, hflags]

/-- The new task is the object that has been set up. -/
theorem wp_construct_setUp {F : Crash → Prop} {alloc : Allocator} {progCtr : Int} {loco : UInt16}
    {invert : Bool} {Q : Addr → Tasks → Prop} (hring : t.Ring)
    (h : ∀ a t', Created a t t' →
      SameObject (t'.mem a) ((t.setUp a progCtr loco invert).mem a) → Q a t') :
    wp F (construct alloc progCtr loco invert) Q t := by
  have hfresh : alloc.pick t.live ∉ t.live := alloc.fresh t.live
  simp only [construct, wp_bind, wp_get, wp_set]
  generalize alloc.pick t.live = a at hfresh ⊢
  have hcreated : ∀ t' : Tasks, t'.Ring →
      SameObject (t'.mem a) ((t.setUp a progCtr loco invert).mem a) →
      (∀ b, b ≠ a → SameObject (t'.mem b) (t.mem b)) →
      t' = { t.setUp a progCtr loco invert with mem := t'.mem, loopTask := t'.loopTask } → Q a t' :=
    fun t' hring' hself hothers hrest =>
      h a t' (created_of_setUp progCtr loco invert hring' hfresh hself hothers hrest) hself
  have hlive : (t.setUp a progCtr loco invert).live = a :: t.live := rfl
  have hloop : (t.setUp a progCtr loco invert).loopTask = t.loopTask := by
    obtain ⟨flags, hflags⟩ := t.useId_eq
    simp [setUp, hflags]
  cases hl : t.loopTask with
  | none =>
    -- the first task is a ring of its own
    have hempty : t.live = [] := hring.loopTask_eq_none.mp hl
    simp only [wp_bind, wp_modify]
    refine wp_writeTask (by simp [hlive]) ?_
    refine hcreated _ ?_ ?_ ?_ rfl
    · exact ⟨[a], circle_singleton.mpr (by simp [next]), by simp [hlive, hempty], rfl⟩
    · simp [SameObject]
    · intro b hb
      simp [SameObject, write_mem, hb, setUp_others]
  | some l =>
    -- the new task goes between `l` and the task behind it
    have hmem : l ∈ t.live := hring.loopTask_mem hl
    have hne : l ≠ a := fun heq => hfresh (heq ▸ hmem)
    simp only [wp_bind]
    refine wp_readTask (by simp [hlive, hmem]) ?_
    refine wp_writeTask (by simp [hlive]) ?_
    refine wp_writeTask (by simp [hlive, hmem]) ?_
    refine hcreated _ ?_ ?_ ?_ rfl
    · obtain ⟨ys, hc, hperm⟩ := hring.from_mem hmem
      have hnew : a ∉ l :: ys := fun ha => hfresh (hperm.subset ha)
      refine ⟨l :: a :: ys, hc.insert hnew ?_ ?_ ?_, ?_, ?_⟩
      · simp [next, write_mem, hne.symm, setUp_others hne]
      · simp [next]
      · intro c hcmem
        have hca : c ≠ a := fun heq => hnew (heq ▸ List.mem_cons_of_mem l hcmem)
        have hcl : c ≠ l := fun heq => (List.nodup_cons.mp hc.nodup).1 (heq ▸ hcmem)
        simp [next, write_mem, hca, hcl, setUp_others hca]
      · exact (List.Perm.swap a l ys).trans (hperm.cons a)
      · simp [hloop, hl]
    · simp [SameObject, write_mem, hne.symm]
    · intro b hb
      by_cases hbl : b = l <;> simp [SameObject, write_mem, hb, hbl, hne, setUp_others]

theorem wp_construct {F : Crash → Prop} {alloc : Allocator} {progCtr : Int} {loco : UInt16}
    {invert : Bool} {Q : Addr → Tasks → Prop} (hring : t.Ring)
    (h : ∀ a t', Created a t t' → (t'.mem a).blinkState = .notBlinkTask → Q a t') :
    wp F (construct alloc progCtr loco invert) Q t :=
  wp_construct_setUp hring fun a t' hc hself => h a t' hc (by rw [hself]; simp [setUp])

/-! ## The destructor -/

/-- The task at `a` has been deleted. Its memory still holds what it held. -/
structure Killed (a : Addr) (t t' : Tasks) : Prop where
  ring : t'.Ring
  mem : a ∈ t.live
  live : t'.live = t.live.erase a
  others : ∀ b, SameObject (t'.mem b) (t.mem b)
  next : ∀ b ∈ t'.live, t'.next b = if t.next b = a then t.next a else t.next b
  flags : t'.flags = (t.setFlag (t.mem a).taskId.toUInt16 0 taskFlag).flags
  pausingTask : t'.pausingTask = t.pausingTask
  peak : t'.peak = t.peak
  sections : t'.sections = t.sections

/-- The other tasks stay in their order. -/
theorem Killed.circle {front back : List Addr} (hk : Killed a t t')
    (hc : Circle t.next (front ++ a :: back)) (hperm : (front ++ a :: back).Perm t.live) :
    Circle t'.next (front ++ back) := by
  have hrot : Circle t.next (a :: (back ++ front)) := hc.rotate
  have hlive : ∀ b ∈ back ++ front, b ∈ t'.live := by
    intro b hb
    have hne : b ≠ a := fun heq => (List.nodup_cons.mp hrot.nodup).1 (heq ▸ hb)
    rw [hk.live]
    refine (List.mem_erase_of_ne hne).mpr (hperm.subset ?_)
    have := List.mem_append.mp hb
    simp [this.symm, hne]
  rcases List.eq_nil_or_concat' (back ++ front) with hnil | ⟨zs, b, hconcat⟩
  · obtain ⟨rfl, rfl⟩ := List.append_eq_nil_iff.mp hnil
    exact .nil
  · rw [hconcat] at hrot hlive
    refine (show Circle t'.next (back ++ front) from ?_).rotate
    rw [hconcat]
    refine hrot.remove ?_ fun c hcz => ?_
    · rw [hk.next b (hlive b (by simp)), if_pos (hrot.next_eq_iff.mpr rfl)]
    · rw [hk.next c (hlive c (by simp [hcz])), if_neg]
      intro heq
      obtain ⟨zs₁, zs₂, rfl⟩ := List.append_of_mem hcz
      rw [List.append_assoc, List.cons_append] at hrot
      simpa using hrot.next_eq_iff.mp heq

/-- The ring without its last member, which the loop finds. -/
theorem wp_unchain {F : Crash → Prop} {ys : List Addr} {Q : Unit → Tasks → Prop}
    (hc : Circle t.next (a :: ys)) (hperm : (a :: ys).Perm t.live) (hys : ys ≠ [])
    (h : ∀ zs b, ys = zs ++ [b] → Q () { t.write b (fun task => { task with next := t.next a }) with
      loopTask := some (t.next a) }) : wp F (unchain a (t.next a)) Q t := by
  simp only [unchain, wp_bind, wp_get]
  refine wp_loop (fun rest p _ s => p.elim (Q () s) fun c =>
    s = t ∧ ∃ front back, rest = c :: back ∧ ys = front ++ c :: back) ?_ ?_
    (show ys.length ≤ _ from ?_) ?_
  · rintro rest c _ s ⟨rfl, front, back, rfl, rfl⟩
    refine ⟨back, rfl, ?_⟩
    have hmem : c ∈ s.live := hperm.subset (by simp)
    simp only [wp_bind]
    refine wp_readTask hmem ?_
    split
    · next hlast =>
      -- `c` leads back to `a`
      have hback : back = [] := hc.next_eq_iff.mp hlast
      simp only [wp_bind, wp_modify, wp_pure]
      exact wp_writeTask hmem (h front c (by rw [hback]))
    · next hne =>
      cases back with
      | nil => exact absurd (hc.next_eq_iff.mpr rfl) hne
      | cons d back =>
        have hnext : s.next c = d := by
          have hrot : Circle s.next (c :: d :: (back ++ a :: front)) :=
            (show Circle s.next ((a :: front) ++ c :: d :: back) from hc).rotate
          exact hrot.next_head
        exact ⟨rfl, front ++ [c], back, by rw [← hnext]; rfl, by simp [← hnext, next]⟩
  · intro _ _ _ hdone
    exact hdone
  · rw [← hperm.length_eq]
    simp
  · cases ys with
    | nil => exact absurd rfl hys
    | cons c ys => exact ⟨rfl, [], ys, by rw [hc.next_head], by rw [hc.next_head]; rfl⟩

/-- The destructor takes its task out of the ring, and leaves the others as they were. -/
theorem wp_destruct {F : Crash → Prop} {Q : Unit → Tasks → Prop} (hring : t.Ring)
    (ha : a ∈ t.live) (h : ∀ t', Killed a t t' → Q () t') : wp F (destruct a) Q t := by
  simp only [destruct, wp_bind]
  refine wp_readTask ha ?_
  simp only [wp_modify]
  -- clearing the flag leaves the ring alone
  generalize hu : setFlag (t.mem a).taskId.toUInt16 0 taskFlag t = u
  have hmem : u.mem = t.mem := by rw [← hu, setFlag_mem]
  have hlive : u.live = t.live := by rw [← hu, setFlag_live]
  have hnext : u.next = t.next := by unfold next; rw [hmem]
  obtain ⟨ys, hc, hperm⟩ := hring.from_mem ha
  have hkilled : ∀ t' : Tasks, t'.Ring → t'.live = t.live.erase a →
      (∀ b, SameObject (t'.mem b) (t.mem b)) →
      (∀ b ∈ t.live.erase a, t'.next b = if t.next b = a then t.next a else t.next b) →
      t' = { u with mem := t'.mem, live := t'.live, loopTask := t'.loopTask } → Killed a t t' := by
    intro t' hring' hlive' hothers hnexts hrest
    refine ⟨hring', ha, hlive', hothers, hlive'.symm ▸ hnexts, ?_, ?_, ?_, ?_⟩
    all_goals rw [hrest, ← hu]
    all_goals simp
  have herase : ys.Perm (t.live.erase a) := by simpa using hperm.erase a
  rw [show (t.mem a).next = u.next a by rw [hnext]; rfl]
  refine wp_ite (fun halone => ?_) fun hmore => ?_
  · have hys : ys = [] := hc.next_self_iff.mp (by rwa [hnext] at halone)
    subst hys
    refine h _ (hkilled _ ⟨[], .nil, ?_, rfl⟩ ?_ ?_ ?_ rfl)
    · show [].Perm (u.live.erase a)
      rwa [hlive]
    · show u.live.erase a = t.live.erase a
      rw [hlive]
    · intro b
      simp [SameObject, hmem]
    · intro b hb
      rw [herase.symm.eq_nil] at hb
      cases hb
  · have hys : ys ≠ [] := fun heq => hmore (by rw [hnext]; exact hc.next_self_iff.mpr heq)
    rw [wp_bind]
    refine wp_unchain (hnext ▸ hc) (hlive ▸ hperm) hys ?_
    rintro zs b rfl
    have hlast : t.next b = a := hc.next_eq_iff.mpr rfl
    have hrest : ∀ c ∈ zs, c ≠ b ∧ t.next c ≠ a := by
      intro c hcmem
      have hdisjoint := List.disjoint_of_nodup_append (List.nodup_cons.mp hc.nodup).2
      refine ⟨fun heq => hdisjoint (heq ▸ hcmem) (by simp), fun heq => ?_⟩
      obtain ⟨front, back, rfl⟩ := List.append_of_mem hcmem
      rw [List.append_assoc, List.cons_append] at hc
      simpa using hc.next_eq_iff.mp heq
    refine h _ (hkilled _ ⟨zs ++ [b], ?_, ?_, ?_⟩ ?_ ?_ ?_ rfl)
    · refine hc.remove ?_ fun c hcmem => ?_
      · simp [next, hmem]
      · simp [next, write_mem, hrest c hcmem, hmem]
    · simp only [write_live, hlive]
      exact herase
    · show some (u.next a) = _
      rw [hnext, hc.head?_eq hys]
    · simp [hlive]
    · intro c
      by_cases hcb : c = b <;> simp [SameObject, write_mem, hcb, hmem]
    · intro c hcmem
      rcases List.mem_append.mp (herase.mem_iff.mpr hcmem) with hczs | hcb
      · simp [next, write_mem, hmem, hrest c hczs, show (t.mem c).next ≠ a from (hrest c hczs).2]
      · obtain rfl := List.mem_singleton.mp hcb
        simp [next, hmem, show (t.mem c).next = a from hlast]

end CommandStation.Tasks
