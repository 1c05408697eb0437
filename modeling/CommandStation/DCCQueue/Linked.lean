import Mathlib.Data.List.Nodup
import CommandStation.DCCQueue.Slots
import CommandStation.Lib.Links

/-!
# The lists in the memory

Two queues and the recycle list share one `next` field. `Linked` says which lists the pointers stand
for: each is linked and ends with null, a tail points at the last slot, and a slot that was created is
in one of them, once. A slot that is taken from a list is loose until it is put into another.

The operations of the queues are then those of lists: append, prepend, delete and push.
-/

namespace CommandStation.DCCQueue.Memory

open CommandStation.Lib

variable {m m' : Memory} {q : Priority → List Nat} {re loose : List Nat} {pr : Priority} {p : Nat}

/-- The lists of the memory: the slots of each queue, those to be recycled, and the loose ones. -/
structure Linked (m : Memory) (q : Priority → List Nat) (re loose : List Nat) : Prop where
  links : ∀ pr, Links m.next (m.queue pr).head (q pr)
  tail : ∀ pr, (m.queue pr).tail = (q pr).getLast?
  recycled : Links m.next m.recycleList re
  once : ∀ p, (q .high).count p + (q .low).count p + re.count p + loose.count p =
    if p < m.created then 1 else 0

theorem linked_init : init.Linked (fun _ => []) [] [] where
  links _ := rfl
  tail _ := rfl
  recycled := rfl
  once p := by simp [init]

/-! ## No slot is in two lists -/

/-- A slot of a queue is neither free nor in the other queue. -/
theorem Linked.of_queue (h : m.Linked q re loose) (hp : p ∈ q pr) :
    p < m.created ∧ p ∉ re ∧ ∀ pr', pr' ≠ pr → p ∉ q pr' := by
  have honce := h.once p
  have hpos := List.count_pos_iff.mpr hp
  have hlt : p < m.created := by
    by_contra hge
    rw [if_neg hge] at honce
    cases pr <;> omega
  rw [if_pos hlt] at honce
  refine ⟨hlt, ?_, ?_⟩
  · rw [← List.count_eq_zero]
    cases pr <;> omega
  · intro pr' hne
    rw [← List.count_eq_zero]
    cases pr <;> cases pr' <;> first | exact absurd rfl hne | omega

theorem Linked.of_recycled (h : m.Linked q re loose) (hp : p ∈ re) :
    p < m.created ∧ ∀ pr, p ∉ q pr := by
  refine ⟨?_, fun pr hq => (h.of_queue hq).2.1 hp⟩
  have honce := h.once p
  have hpos := List.count_pos_iff.mpr hp
  by_contra hge
  rw [if_neg hge] at honce
  omega

theorem Linked.of_loose (h : m.Linked q re loose) (hp : p ∈ loose) :
    p < m.created ∧ p ∉ re ∧ ∀ pr, p ∉ q pr := by
  have honce := h.once p
  have hpos := List.count_pos_iff.mpr hp
  have hlt : p < m.created := by
    by_contra hge
    rw [if_neg hge] at honce
    omega
  rw [if_pos hlt] at honce
  refine ⟨hlt, ?_, fun pr => ?_⟩
  · rw [← List.count_eq_zero]
    omega
  · rw [← List.count_eq_zero]
    cases pr <;> omega

theorem Linked.nodup (h : m.Linked q re loose) (pr : Priority) : (q pr).Nodup := by
  rw [List.nodup_iff_count]
  intro p
  have honce := h.once p
  have hle : (if p < m.created then 1 else 0) ≤ 1 := by split <;> omega
  cases pr <;> omega

theorem Linked.nodup_recycled (h : m.Linked q re loose) : re.Nodup := by
  rw [List.nodup_iff_count]
  intro p
  have honce := h.once p
  have hle : (if p < m.created then 1 else 0) ≤ 1 := by split <;> omega
  omega

/-- A slot is in its queue only once. -/
theorem Linked.notMem {before after : List Nat} (h : m.Linked q re loose)
    (hq : q pr = before ++ p :: after) : p ∉ before ∧ p ∉ after := by
  have hnodup := h.nodup pr
  rw [hq, List.nodup_append] at hnodup
  exact ⟨fun hin => hnodup.2.2 p hin p List.mem_cons_self rfl, (List.nodup_cons.mp hnodup.2.1).1⟩

/-- There is fuel for every list. -/
theorem Linked.length_le (h : m.Linked q re loose) (pr : Priority) : (q pr).length ≤ m.created :=
  length_le_of_nodup_of_lt (h.nodup pr) fun _ hp => (h.of_queue hp).1

/-- Each slot that was created is in a list, and in one only. -/
theorem Linked.perm (h : m.Linked q re []) :
    (q .high ++ q .low ++ re).Perm (List.range m.created) := by
  rw [List.perm_iff_count]
  intro p
  have honce := h.once p
  rw [List.count_nil, Nat.add_zero] at honce
  rw [List.count_append, List.count_append, honce]
  split
  · next hlt => exact (List.count_eq_one_of_mem List.nodup_range (List.mem_range.mpr hlt)).symm
  · next hge => exact (List.count_eq_zero_of_not_mem (by simpa using hge)).symm

/-- The two pointers of a queue agree. -/
theorem Linked.head_eq_none (h : m.Linked q re loose) (pr : Priority) :
    (m.queue pr).head = none ↔ (m.queue pr).tail = none := by
  rw [(h.links pr).head, h.tail pr, List.head?_eq_none_iff, List.getLast?_eq_none_iff]

/-- Nothing follows the tail. -/
theorem Linked.next_tail (h : m.Linked q re loose) (htail : (m.queue pr).tail = some p) :
    (q pr).getLast? = some p ∧ m.next p = none := by
  have hlast : (q pr).getLast? = some p := (h.tail pr).symm.trans htail
  refine ⟨hlast, ?_⟩
  obtain ⟨before, hbefore⟩ := List.getLast?_eq_some_iff.mp hlast
  have hlinks := h.links pr
  rw [hbefore] at hlinks
  exact hlinks.of_append.2

/-- Another memory, in which one queue and the recycle list have changed. -/
theorem Linked.change {l re' loose' : List Nat} (h : m.Linked q re loose)
    (hothers : ∀ pr', pr' ≠ pr →
      m'.queue pr' = m.queue pr' ∧ Links m'.next (m.queue pr').head (q pr'))
    (hlinks : Links m'.next (m'.queue pr).head l) (htail : (m'.queue pr).tail = l.getLast?)
    (hrecycled : Links m'.next m'.recycleList re') (hcreated : m'.created = m.created)
    (honce : ∀ a, l.count a + re'.count a + loose'.count a =
      (q pr).count a + re.count a + loose.count a) :
    m'.Linked (Function.update q pr l) re' loose' := by
  refine ⟨fun pr' => ?_, fun pr' => ?_, hrecycled, fun a => ?_⟩
  · by_cases heq : pr' = pr
    · subst heq
      rw [Function.update_self]
      exact hlinks
    · rw [Function.update_of_ne heq, (hothers pr' heq).1]
      exact (hothers pr' heq).2
  · by_cases heq : pr' = pr
    · subst heq
      rw [Function.update_self]
      exact htail
    · rw [Function.update_of_ne heq, (hothers pr' heq).1]
      exact h.tail pr'
  · have hcount := honce a
    rw [hcreated, ← h.once a]
    cases pr <;> simp <;> omega

/-! ## Append, prepend and push -/

/-- `addQueue` appends. -/
theorem Linked.addQueue (h : m.Linked q re (p :: loose)) (pr : Priority) :
    (m.addQueue pr p).Linked (Function.update q pr (q pr ++ [p])) re loose := by
  obtain ⟨-, hre, hq⟩ := h.of_loose List.mem_cons_self
  have honce : ∀ a, (q pr ++ [p]).count a + re.count a + loose.count a =
      (q pr).count a + re.count a + (p :: loose).count a := by
    intro a
    rw [List.count_append, List.count_cons, List.count_cons, List.count_nil]
    omega
  unfold Memory.addQueue
  rcases List.eq_nil_or_concat' (q pr) with hnil | ⟨l, t, hl⟩
  · have htail : (m.queue pr).tail = none := by rw [h.tail, hnil]; rfl
    simp only [htail]
    refine h.change ?_ ?_ ?_ ?_ rfl honce
    · intro pr' hne
      exact ⟨by simp [hne], (h.links pr').update (hq pr')⟩
    · simp [hnil]
    · simp [hnil]
    · exact h.recycled.update hre
  · have htail : (m.queue pr).tail = some t := by rw [h.tail, hl]; simp
    have ht : t ∈ q pr := by simp [hl]
    have htl : t ∉ l := (h.notMem hl).1
    obtain ⟨-, htre, htq⟩ := h.of_queue ht
    have htp : t ≠ p := fun heq => hq pr (heq ▸ ht)
    simp only [htail]
    refine h.change ?_ ?_ ?_ ?_ rfl honce
    · intro pr' hne
      exact ⟨by simp [hne], ((h.links pr').update (htq pr' hne)).update (hq pr')⟩
    · have hlinks := h.links pr
      rw [hl] at hlinks ⊢
      simp only [setNext_next, setTail_next, setNext_queue, setTail_head]
      refine hlinks.snoc ?_ ?_ ?_
      · simp [htp]
      · simp
      · intro a ha
        have hap : a ≠ p := fun heq => hq pr (by rw [hl, ← heq]; simp [ha])
        have hat : a ≠ t := fun heq => htl (heq ▸ ha)
        simp [hap, hat]
    · simp
    · exact (h.recycled.update htre).update hre

/-- `jumpQueue` prepends. -/
theorem Linked.jumpQueue (h : m.Linked q re (p :: loose)) (pr : Priority) :
    (m.jumpQueue pr p).Linked (Function.update q pr (p :: q pr)) re loose := by
  obtain ⟨-, hre, hq⟩ := h.of_loose List.mem_cons_self
  have hlinks : Links (Function.update m.next p (m.queue pr).head) (some p) (p :: q pr) := by
    refine ⟨rfl, ?_⟩
    rw [Function.update_self]
    exact (h.links pr).update (hq pr)
  have honce : ∀ a, (p :: q pr).count a + re.count a + loose.count a =
      (q pr).count a + re.count a + (p :: loose).count a := by
    intro a
    rw [List.count_cons, List.count_cons]
    omega
  unfold Memory.jumpQueue
  dsimp only
  rw [setHead_tail, setNext_queue, h.tail]
  split
  · next htail =>
    have hnil : q pr = [] := List.getLast?_eq_none_iff.mp htail
    refine h.change ?_ ?_ ?_ (h.recycled.update hre) rfl honce
    · exact fun pr' hne => ⟨by simp [hne], (h.links pr').update (hq pr')⟩
    · simpa only [setTail_next, setHead_next, setNext_next, setTail_head, setHead_head] using hlinks
    · simp [hnil]
  · next htail =>
    refine h.change ?_ ?_ ?_ (h.recycled.update hre) rfl honce
    · exact fun pr' hne => ⟨by simp [hne], (h.links pr').update (hq pr')⟩
    · simpa only [setHead_next, setNext_next, setHead_head] using hlinks
    · cases hl : q pr with
      | nil => exact absurd (by rw [hl]; rfl) htail
      | cons a l => simp [h.tail, hl]

/-- `recycle` pushes. -/
theorem Linked.recycle (h : m.Linked q re (p :: loose)) : (m.recycle p).Linked q (p :: re) loose := by
  obtain ⟨-, hre, hq⟩ := h.of_loose List.mem_cons_self
  refine ⟨fun pr => (h.links pr).update (hq pr), h.tail, ⟨rfl, ?_⟩, fun a => ?_⟩
  · show Links (Function.update m.next p m.recycleList)
      (Function.update m.next p m.recycleList p) re
    rw [Function.update_self]
    exact h.recycled.update hre
  · have honce := h.once a
    rw [List.count_cons] at honce ⊢
    show _ = if a < m.created then 1 else 0
    omega

/-! ## Delete -/

/-- The links when a slot of a queue is skipped. -/
theorem Linked.skip {before after : List Nat} (h : m.Linked q re loose)
    (hq : q pr = before ++ p :: after) :
    let m' := m.skip pr before.getLast? p
    Links m'.next (m'.queue pr).head (before ++ after) ∧ Links m'.next m.recycleList re ∧
      ∀ pr', pr' ≠ pr → m'.queue pr' = m.queue pr' ∧ Links m'.next (m.queue pr').head (q pr') := by
  have hlinks := h.links pr
  rw [hq] at hlinks
  intro m'
  rcases List.eq_nil_or_concat' before with rfl | ⟨l, b, rfl⟩
  · have hm : m' = m.setHead pr (m.next p) := rfl
    rw [hm, setHead_head]
    exact ⟨hlinks.2, h.recycled, fun pr' hne => ⟨setHead_queue _ _ hne, h.links pr'⟩⟩
  · have hm : m' = m.setNext b (m.next p) := by simp [m', Memory.skip]
    have hb : b ∈ q pr := by simp [hq]
    obtain ⟨-, hre, hothers⟩ := h.of_queue hb
    rw [hm, setNext_queue]
    refine ⟨?_, h.recycled.update hre, fun pr' hne => ⟨rfl, (h.links pr').update (hothers pr' hne)⟩⟩
    rw [List.append_assoc] at hlinks hq ⊢
    refine hlinks.remove (Function.update_self ..) ?_
    intro c hc
    apply Function.update_of_ne
    rintro rfl
    obtain ⟨hl, hafter⟩ := h.notMem hq
    rcases List.mem_append.mp hc with hin | hin
    · exact hl hin
    · exact hafter (List.mem_cons_of_mem p hin)

/-- The slot is the tail if nothing follows it. -/
theorem Linked.eq_tail {before after : List Nat} (h : m.Linked q re loose)
    (hq : q pr = before ++ p :: after) : some p = (m.queue pr).tail ↔ after = [] := by
  have hnot := (h.notMem hq).2
  rw [h.tail, hq]
  rcases List.eq_nil_or_concat' after with rfl | ⟨l, t, rfl⟩
  · simp
  · have hpt : p ≠ t := by
      rintro rfl
      simp at hnot
    simp [List.getLast?_append, List.getLast?_cons, hpt]

/-- What the body of the loop of `remove` does when it has arrived at the slot. -/
theorem Linked.unlink {before after : List Nat} (h : m.Linked q re loose)
    (hq : q pr = before ++ p :: after) :
    (m.unlink pr before.getLast? p).Linked (Function.update q pr (before ++ after)) re
      (p :: loose) := by
  have honce : ∀ a, (before ++ after).count a + re.count a + (p :: loose).count a =
      (q pr).count a + re.count a + loose.count a := by
    intro a
    rw [hq, List.count_append, List.count_append, List.count_cons, List.count_cons]
    omega
  obtain ⟨hlinks, hrecycled, hothers⟩ := h.skip hq
  unfold Memory.unlink
  dsimp only
  simp only [skip_tail, h.eq_tail hq]
  split
  · next hafter =>
    refine h.change ?_ ?_ ?_ ?_ (skip_created ..) honce
    · intro pr' hne
      rw [setTail_queue _ _ hne]
      exact hothers pr' hne
    · rw [setTail_head]
      exact hlinks
    · rw [setTail_tail, hafter, List.append_nil]
    · rw [setTail_recycleList, skip_recycleList]
      exact hrecycled
  · next hafter =>
    refine h.change hothers hlinks ?_ ?_ (skip_created ..) honce
    · rw [skip_tail, h.tail, hq]
      cases after with
      | nil => exact absurd rfl hafter
      | cons a after => simp [List.getLast?_append, List.getLast?_cons]
    · rw [skip_recycleList]
      exact hrecycled

/-- The loop of `remove` arrives at a slot that is linked from where it starts. -/
theorem removeFrom_eq {mid after : List Nat} {start previous : Option Nat} {fuel : Nat}
    (hlinks : Links m.next start (mid ++ p :: after)) (hnot : p ∉ mid) (hfuel : mid.length < fuel) :
    m.removeFrom pr p fuel previous start =
      some (m.unlink pr (mid.getLast?.or previous) p) := by
  induction mid generalizing start previous fuel with
  | nil =>
    obtain ⟨rfl, -⟩ := hlinks
    obtain ⟨fuel, rfl⟩ := Nat.exists_eq_add_one_of_ne_zero (Nat.ne_zero_of_lt hfuel)
    rw [Memory.removeFrom, if_pos rfl]
    rfl
  | cons a mid ih =>
    obtain ⟨rfl, hlinks⟩ := hlinks
    obtain ⟨fuel, rfl⟩ := Nat.exists_eq_add_one_of_ne_zero (Nat.ne_zero_of_lt hfuel)
    have hap : a ≠ p := fun heq => hnot (heq ▸ List.mem_cons_self)
    have hlast : (a :: mid).getLast?.or previous = mid.getLast?.or (some a) := by
      rw [List.getLast?_cons]
      cases mid.getLast? <;> rfl
    rw [Memory.removeFrom, if_neg hap, hlast]
    exact ih hlinks (fun hin => hnot (List.mem_cons_of_mem a hin)) (Nat.lt_of_succ_lt_succ hfuel)

/-- `remove` deletes. -/
theorem Linked.remove {before after : List Nat} (h : m.Linked q re loose)
    (hq : q pr = before ++ p :: after) :
    m.remove pr p = some (m.unlink pr before.getLast? p) := by
  have hlinks := h.links pr
  have hlength := h.length_le pr
  rw [hq] at hlinks hlength
  have hfuel : before.length < m.created + 1 := by
    rw [List.length_append] at hlength
    omega
  rw [Memory.remove, removeFrom_eq hlinks (h.notMem hq).1 hfuel, Option.or_none]

/-- The loop of `remove` does not find the slot. -/
theorem removeFrom_of_notMem {xs : List Nat} {start previous : Option Nat} {fuel : Nat}
    (hlinks : Links m.next start xs) (hnot : p ∉ xs) (hfuel : xs.length < fuel) :
    m.removeFrom pr p fuel previous start = some m := by
  induction xs generalizing start previous fuel with
  | nil =>
    obtain rfl := links_nil.mp hlinks
    obtain ⟨fuel, rfl⟩ := Nat.exists_eq_add_one_of_ne_zero (Nat.ne_zero_of_lt hfuel)
    rfl
  | cons a xs ih =>
    obtain ⟨rfl, hlinks⟩ := hlinks
    obtain ⟨fuel, rfl⟩ := Nat.exists_eq_add_one_of_ne_zero (Nat.ne_zero_of_lt hfuel)
    have hap : a ≠ p := fun heq => hnot (heq ▸ List.mem_cons_self)
    rw [Memory.removeFrom, if_neg hap]
    exact ih hlinks (fun hin => hnot (List.mem_cons_of_mem a hin)) (Nat.lt_of_succ_lt_succ hfuel)

theorem Linked.remove_of_notMem (h : m.Linked q re loose) (hp : p ∉ q pr) :
    m.remove pr p = some m :=
  removeFrom_of_notMem (h.links pr) hp (Nat.lt_succ_of_le (h.length_le pr))

/-! ## Looking for a slot, and obtaining one -/

/-- The loop over the list finds what is found in the queue. -/
theorem findFrom_eq {test : PendingSlot → Bool} {start : Option Nat} {xs : List Nat} {fuel : Nat}
    (hlinks : Links m.next start xs) (hfuel : xs.length < fuel) :
    m.findFrom test fuel start = some (xs.find? fun a => test (m.slot a)) := by
  induction xs generalizing start fuel with
  | nil =>
    obtain rfl := links_nil.mp hlinks
    obtain ⟨fuel, rfl⟩ := Nat.exists_eq_add_one_of_ne_zero (Nat.ne_zero_of_lt hfuel)
    rfl
  | cons a xs ih =>
    obtain ⟨rfl, hlinks⟩ := hlinks
    obtain ⟨fuel, rfl⟩ := Nat.exists_eq_add_one_of_ne_zero (Nat.ne_zero_of_lt hfuel)
    rw [Memory.findFrom, List.find?_cons]
    cases htest : test (m.slot a) with
    | true => rw [if_pos rfl]
    | false => rw [if_neg Bool.false_ne_true, ih hlinks (Nat.lt_of_succ_lt_succ hfuel)]

/-- The loops find the first slot that meets the test. -/
theorem Linked.find (h : m.Linked q re loose) (pr : Priority) (test : PendingSlot → Bool) :
    m.find pr test = some ((q pr).find? fun a => test (m.slot a)) :=
  findFrom_eq (h.links pr) (Nat.lt_succ_of_le (h.length_le pr))

theorem Linked.setSlot (h : m.Linked q re loose) (p : Nat) (slot : PendingSlot) :
    (m.setSlot p slot).Linked q re loose :=
  ⟨h.links, h.tail, h.recycled, h.once⟩

/-- `getSlot` takes the first slot of the recycle list, or creates one. -/
theorem Linked.getSlot (h : m.Linked q re loose) (type : PendingType) (packet : List UInt8)
    (repeats : Nat) (loco : UInt16) (origin : Origin) :
    (m.getSlot type packet repeats loco origin).2.Linked q re.tail
      ((m.getSlot type packet repeats loco origin).1 :: loose) := by
  unfold Memory.getSlot
  cases re with
  | nil =>
    have hnone : m.recycleList = none := h.recycled
    simp only [hnone]
    apply Linked.setSlot
    have hfresh : ∀ pr, m.created ∉ q pr := by
      intro pr hin
      exact Nat.lt_irrefl _ (h.of_queue hin).1
    refine ⟨fun pr => (h.links pr).update (hfresh pr), h.tail, hnone, fun a => ?_⟩
    have honce := h.once a
    rw [List.count_cons]
    show _ = if a < m.created + 1 then 1 else 0
    rw [List.tail_nil]
    rw [List.count_nil] at honce ⊢
    grind
  | cons a rest =>
    obtain ⟨hsome, hrest⟩ := links_cons.mp h.recycled
    simp only [hsome]
    apply Linked.setSlot
    have hnodup := List.nodup_cons.mp h.nodup_recycled
    have hq := (h.of_recycled (p := a) List.mem_cons_self).2
    refine ⟨fun pr => (h.links pr).update (hq pr), h.tail, hrest.update hnodup.1, fun b => ?_⟩
    have honce := h.once b
    rw [List.count_cons] at honce ⊢
    show _ = if b < m.created then 1 else 0
    rw [List.tail_cons]
    omega

/-! ## Nothing but pointers -/

/-- Only links, heads and tails have changed. -/
def Relinked (m m' : Memory) : Prop :=
  ∃ next queue recycleList,
    m' = { m with next := next, queue := queue, recycleList := recycleList }

theorem Relinked.trans {m'' : Memory} (h : Relinked m m') (h' : Relinked m' m'') :
    Relinked m m'' := by
  obtain ⟨next, queue, recycleList, rfl⟩ := h
  obtain ⟨next', queue', recycleList', rfl⟩ := h'
  exact ⟨next', queue', recycleList', rfl⟩

theorem Relinked.slot (h : Relinked m m') : m'.slot = m.slot := by
  obtain ⟨next, queue, recycleList, rfl⟩ := h
  rfl

theorem relinked_addQueue : Relinked m (m.addQueue pr p) := by
  unfold Memory.addQueue
  cases (m.queue pr).tail <;> exact ⟨_, _, _, rfl⟩

theorem relinked_jumpQueue : Relinked m (m.jumpQueue pr p) := by
  unfold Memory.jumpQueue
  dsimp only
  split <;> exact ⟨_, _, _, rfl⟩

theorem relinked_recycle : Relinked m (m.recycle p) := ⟨_, _, _, rfl⟩

theorem relinked_unlink {previous : Option Nat} : Relinked m (m.unlink pr previous p) := by
  unfold Memory.unlink Memory.skip
  dsimp only
  cases previous <;> dsimp only <;> split <;> exact ⟨_, _, _, rfl⟩

/-! ## Slots that leave a queue -/

/-- The queue without one of its slots. -/
theorem Linked.erase {before after : List Nat} (h : m.Linked q re loose)
    (hq : q pr = before ++ p :: after) : (q pr).erase p = before ++ after := by
  rw [hq, List.erase_append_right _ (h.notMem hq).1, List.erase_cons_head]

/-- A slot has gone from its queue: to the start of the high priority queue with its delayed packet, or
to the recycle list. -/
def Gone (m : Memory) (q : Priority → List Nat) (re : List Nat) (pr : Priority) (p : Nat)
    (type : PendingType) : Prop :=
  let rest := Function.update q pr ((q pr).erase p)
  if type = .accOnPacket then m.Linked (Function.update rest .high (p :: rest .high)) re []
  else m.Linked rest (p :: re) []

/-- The end of `scheduleNextInternal`. -/
theorem Linked.finish (h : m.Linked q re []) (hp : p ∈ q pr) (now : UInt32) :
    ∃ m', m.finish pr p now = some m' ∧ m'.Gone q re pr p (m.slot p).type := by
  obtain ⟨before, after, hq⟩ := List.append_of_mem hp
  have hunlink := h.unlink hq
  have hslot : (m.unlink pr before.getLast? p).slot = m.slot := relinked_unlink.slot
  unfold Memory.finish
  rw [h.remove hq, Option.map_some, hslot]
  refine ⟨_, rfl, ?_⟩
  unfold Gone
  rw [h.erase hq]
  split
  · exact (hunlink.setSlot p _).jumpQueue .high
  · exact hunlink.recycle

/-- A packet is handed over, and its slot leaves the queue. -/
theorem Linked.scheduleNextInternal {now : UInt32} (h : m.Linked q re [])
    (hfind : (q pr).find? (fun a => eligible m.lastSentPacketLocoId now (m.slot a)) = some p)
    (hleaves : (m.slot p).locoId = 0 ∨ (m.slot p).packetRepeat = 0) :
    ∃ m', m.scheduleNextInternal pr now = some (m', true) ∧ m'.Gone q re pr p (m.slot p).type := by
  have hp : p ∈ q pr := List.mem_of_find?_eq_some hfind
  have hover : ∀ packet loco, ({ m with
      handedOver := packet :: m.handedOver, lastSentPacketLocoId := loco } : Memory).Linked q re [] :=
    fun _ _ => ⟨h.links, h.tail, h.recycled, h.once⟩
  unfold Memory.scheduleNextInternal
  rw [h.find, hfind, Option.bind_some]
  dsimp only
  split
  · next hloco =>
    rw [if_neg (not_not.mpr (hleaves.resolve_left hloco))]
    obtain ⟨m', heq, hfinish⟩ := (hover (.slot (m.slot p) 0 now) (m.slot p).locoId).finish hp now
    exact ⟨m', by rw [heq]; rfl, hfinish⟩
  · obtain ⟨m', heq, hfinish⟩ :=
      (hover (.slot (m.slot p) (m.slot p).packetRepeat now) 0).finish hp now
    exact ⟨m', by rw [heq]; rfl, hfinish⟩

/-- The loop of `scheduleEstopPacket`: the slots it has passed stay where they are. -/
theorem Linked.estopFrom {kept rest : List Nat} {fuel : Nat} (loco : UInt16)
    (h : m.Linked q re loose) (hq : q .high = kept ++ rest) (hfuel : rest.length < fuel) :
    ∃ m', estopFrom loco fuel rest.head? m = some m' ∧ Relinked m m' ∧
      m'.Linked
        (Function.update q .high (kept ++ rest.filter fun a => !estopKills loco (m.slot a)))
        ((rest.filter fun a => estopKills loco (m.slot a)).reverse ++ re) loose := by
  induction rest generalizing m q re kept fuel with
  | nil =>
    obtain ⟨fuel, rfl⟩ := Nat.exists_eq_add_one_of_ne_zero (Nat.ne_zero_of_lt hfuel)
    refine ⟨m, rfl, ⟨m.next, m.queue, m.recycleList, rfl⟩, ?_⟩
    rw [List.filter_nil, ← hq, Function.update_eq_self]
    exact h
  | cons a rest ih =>
    obtain ⟨fuel, rfl⟩ := Nat.exists_eq_add_one_of_ne_zero (Nat.ne_zero_of_lt hfuel)
    have hfuel' : rest.length < fuel := Nat.lt_of_succ_lt_succ hfuel
    have hnext : m.next a = rest.head? := by
      have hlinks := h.links .high
      rw [hq] at hlinks
      exact hlinks.of_append.2.head
    rw [List.head?_cons, Memory.estopFrom, hnext]
    cases hkills : estopKills loco (m.slot a) with
    | true =>
      rw [if_pos rfl, h.remove hq, Option.bind_some]
      have hrelinked : Relinked m ((m.unlink .high kept.getLast? a).recycle a) :=
        relinked_unlink.trans relinked_recycle
      obtain ⟨m', heq, hrelinked', hlinked⟩ :=
        ih (h.unlink hq).recycle (Function.update_self ..) hfuel'
      refine ⟨m', heq, hrelinked.trans hrelinked', ?_⟩
      rw [hrelinked.slot, Function.update_idem] at hlinked
      simpa [List.filter_cons, hkills] using hlinked
    | false =>
      rw [if_neg Bool.false_ne_true]
      have hq' : q .high = (kept ++ [a]) ++ rest := by rw [hq, List.append_assoc]; rfl
      obtain ⟨m', heq, hrelinked, hlinked⟩ := ih h hq' hfuel'
      refine ⟨m', heq, hrelinked, ?_⟩
      simpa [List.filter_cons, hkills] using hlinked

/-- The slot that `getSlot` obtains. -/
theorem Linked.getSlot_fst (h : m.Linked q re loose) (type : PendingType) (packet : List UInt8)
    (repeats : Nat) (loco : UInt16) (origin : Origin) :
    (m.getSlot type packet repeats loco origin).1 = re.headD m.created := by
  have hhead := h.recycled.head
  unfold Memory.getSlot
  cases re <;> rw [hhead] <;> rfl

/-- The outstanding packets go to the recycle list, and a slot from there starts the queue. -/
theorem Linked.scheduleEstopPacket (h : m.Linked q re []) (packet : List UInt8) (repeats : Nat)
    (loco : UInt16) :
    ∃ m', m.scheduleEstopPacket packet repeats loco = some m' ∧
      let recycled := ((q .high).filter fun a => estopKills loco (m.slot a)).reverse ++ re
      m'.Linked
        (Function.update q .high
          (recycled.headD m.created :: (q .high).filter fun a => !estopKills loco (m.slot a)))
        recycled.tail [] := by
  have hfuel : (q .high).length < m.created + 1 := Nat.lt_succ_of_le (h.length_le .high)
  obtain ⟨m', heq, hrelinked, hlinked⟩ := h.estopFrom loco (List.nil_append _).symm hfuel
  have hcreated : m'.created = m.created := by
    obtain ⟨next, queue, recycleList, rfl⟩ := hrelinked
    rfl
  have hnew := hlinked.getSlot .speedPacket packet repeats 0 ⟨m'.calls, .estop, loco⟩
  have hfst := hlinked.getSlot_fst .speedPacket packet repeats 0 ⟨m'.calls, .estop, loco⟩
  have hjump := hnew.jumpQueue .high
  rw [hfst, hcreated, Function.update_idem, Function.update_self, List.nil_append] at hjump
  unfold Memory.scheduleEstopPacket
  rw [(h.links .high).head, heq, Option.map_some]
  refine ⟨_, rfl, ?_⟩
  dsimp only
  rw [hfst, hcreated]
  exact hjump

end CommandStation.DCCQueue.Memory
