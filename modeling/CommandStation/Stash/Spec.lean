import CommandStation.Stash.Basic
import Mathlib.Data.List.Induction
import Mathlib.Data.List.Nodup
import Mathlib.Logic.Function.Basic

/-!
# What the stash holds

The stash stands for a map from ids to locos, in which 0 is no loco. An entry is free if its loco is 0,
and its id is then 0 as well. Entries of other ids are found by their id, at most one for each. The id 0
may be given to a loco too: then its entry is taken for a free one when it is searched for, and a free
one for it.
-/

namespace CommandStation.Exrail

namespace Stash

variable {stash stash' pre post : List Stash} {id id' loco : Int16} {s s' : Stash}

/-! ## Operations -/

inductive StashOp where
  | set (id loco : Int16)
  | clear (id : Int16)
  | clearAny (loco : Int16)
  | clearAll
  deriving DecidableEq, Repr

namespace StashOp

def exec : StashOp → List Stash → List Stash
  | set id loco, stash => Stash.set stash id loco
  | clear id, stash => Stash.clear stash id
  | clearAny loco, stash => Stash.clearAny stash loco
  | clearAll, stash => Stash.clearAll stash

/-- What the operation does to the map. -/
def onMap : StashOp → (Int16 → Int16) → Int16 → Int16
  | set id loco, m => Function.update m id loco
  | clear id, m => Function.update m id 0
  | clearAny loco, m => fun id => if m id = loco ∨ m id = -loco then 0 else m id
  | clearAll, _ => fun _ => 0

/-- Entries that the operation frees. -/
def Frees : StashOp → Stash → Prop
  | set id loco, s => s.stashId = id ∧ loco = 0
  | clear id, s => s.stashId = id
  | clearAny loco, s => abs s.locoId = abs loco
  | clearAll, _ => True

instance (op : StashOp) : DecidablePred op.Frees := fun s =>
  match op with
  | set id loco => inferInstanceAs (Decidable (s.stashId = id ∧ loco = 0))
  | clear id => inferInstanceAs (Decidable (s.stashId = id))
  | clearAny loco => inferInstanceAs (Decidable (abs s.locoId = abs loco))
  | clearAll => isTrue trivial

/-- The id that the operation is on. -/
def onId : StashOp → Option Int16
  | set id _ | clear id => some id
  | clearAny _ | clearAll => none

end StashOp

/-- An operation that changes which entry the id 0 is read from. Either it frees an entry in front of the
one that holds the loco of the id 0, or it gives a free entry that was taken for it an id, and the next one
holds a loco. -/
inductive Hides : StashOp → List Stash → Prop where
  | frees {op : StashOp} {pre post : List Stash} {s : Stash} :
      (∀ x ∈ pre, x.stashId ≠ 0) → s.stashId = 0 → s.locoId ≠ 0 → (∃ x ∈ pre, op.Frees x) → ¬ op.Frees s →
      Hides op (pre ++ s :: post)
  | reuses {id loco : Int16} {pre mid post : List Stash} {s s' : Stash} :
      (∀ x ∈ pre, x.stashId ≠ 0) → s = free → (∀ x ∈ mid, x.stashId ≠ 0) → s'.stashId = 0 → s'.locoId ≠ 0 →
      (∀ x ∈ pre ++ s :: (mid ++ s' :: post), x.stashId ≠ id) → loco ≠ 0 →
      Hides (.set id loco) (pre ++ s :: (mid ++ s' :: post))

/-- The entries after these operations. -/
def after (ops : List StashOp) (stash : List Stash) : List Stash :=
  ops.foldl (fun stash op => op.exec stash) stash

/-- The map after these operations. -/
def mapAfter (ops : List StashOp) (m : Int16 → Int16) : Int16 → Int16 :=
  ops.foldl (fun m op => op.onMap m) m

/-! ## Finding entries -/

@[simp] theorem get_nil : get [] id = 0 := rfl

theorem get_cons : get (s :: stash) id = if s.stashId = id then s.locoId else get stash id := by
  unfold get
  by_cases h : s.stashId = id
  · rw [List.find?_cons_of_pos (by simpa using h), if_pos h]
    rfl
  · rw [List.find?_cons_of_neg (by simpa using h), if_neg h]

theorem get_append (h : ∀ s ∈ pre, s.stashId ≠ id) : get (pre ++ post) id = get post id := by
  induction pre with
  | nil => rfl
  | cons s pre ih =>
    rw [List.cons_append, get_cons, if_neg (h s List.mem_cons_self),
      ih fun s' hs' => h s' (List.mem_cons_of_mem s hs')]

theorem get_of_forall_ne (h : ∀ s ∈ stash, s.stashId ≠ id) : get stash id = 0 := by
  have happend := @get_append stash [] id h
  rwa [List.append_nil] at happend

/-- One entry is exchanged for another, neither of this id. -/
theorem get_exchange (hs : s.stashId ≠ id) (hs' : s'.stashId ≠ id) :
    get (pre ++ s' :: post) id = get (pre ++ s :: post) id := by
  induction pre with
  | nil => rw [List.nil_append, List.nil_append, get_cons, get_cons, if_neg hs, if_neg hs']
  | cons x pre ih => rw [List.cons_append, List.cons_append, get_cons, get_cons, ih]

theorem replaceFirst_cases (p : Stash → Bool) (f : Stash → Stash) (stash : List Stash) :
    (replaceFirst p f stash = none ∧ ∀ s ∈ stash, p s = false) ∨
    ∃ pre s post, stash = pre ++ s :: post ∧ (∀ x ∈ pre, p x = false) ∧ p s = true ∧
      replaceFirst p f stash = some (pre ++ f s :: post) := by
  induction stash with
  | nil => exact .inl ⟨rfl, List.forall_mem_nil _⟩
  | cons s rest ih =>
    rw [replaceFirst]
    cases hs : p s with
    | true => exact .inr ⟨[], s, rest, rfl, List.forall_mem_nil _, hs, by simp⟩
    | false =>
      rcases ih with ⟨hnone, hall⟩ | ⟨pre, s', post, rfl, hpre, hs', hsome⟩
      · exact .inl ⟨by simp [hnone], List.forall_mem_cons.mpr ⟨hs, hall⟩⟩
      · exact .inr ⟨s :: pre, s', post, rfl, List.forall_mem_cons.mpr ⟨hs, hpre⟩, hs', by simp [hsome]⟩

/-- The ways that `set` can take. -/
inductive SetTo (id loco : Int16) : List Stash → List Stash → Prop where
  | replaced {pre post : List Stash} {s : Stash} : (∀ x ∈ pre, x.stashId ≠ id) → s.stashId = id →
      SetTo id loco (pre ++ s :: post) (pre ++ ⟨if loco = 0 then 0 else id, loco⟩ :: post)
  | nothing {stash : List Stash} : (∀ x ∈ stash, x.stashId ≠ id) → loco = 0 → SetTo id loco stash stash
  | reused {pre post : List Stash} {s : Stash} : (∀ x ∈ pre ++ s :: post, x.stashId ≠ id) → loco ≠ 0 →
      (∀ x ∈ pre, x.locoId ≠ 0) → s.locoId = 0 →
      SetTo id loco (pre ++ s :: post) (pre ++ ⟨id, loco⟩ :: post)
  | created {stash : List Stash} : (∀ x ∈ stash, x.stashId ≠ id) → loco ≠ 0 → (∀ x ∈ stash, x.locoId ≠ 0) →
      SetTo id loco stash (⟨id, loco⟩ :: stash)

/-- A set writes the entry with the id, the first free one, a new one, or none. -/
theorem set_spec (stash : List Stash) (id loco : Int16) : SetTo id loco stash (set stash id loco) := by
  rw [set]
  rcases replaceFirst_cases (fun s => s.stashId == id)
      (fun s => ⟨if loco = 0 then 0 else s.stashId, loco⟩) stash with
    ⟨hnone, hall⟩ | ⟨pre, s, post, rfl, hpre, hs, hsome⟩
  · have hid : ∀ x ∈ stash, x.stashId ≠ id := fun x hx => by simpa using hall x hx
    simp only [hnone]
    by_cases hzero : loco = 0
    · rw [if_pos hzero]
      exact .nothing hid hzero
    rw [if_neg hzero]
    rcases replaceFirst_cases (fun s => s.locoId == 0) (fun _ => ⟨id, loco⟩) stash with
      ⟨hfull, hbusy⟩ | ⟨pre, s, post, rfl, hpre, hs, hsome⟩
    · simp only [hfull]
      exact .created hid hzero fun x hx => by simpa using hbusy x hx
    · simp only [hsome]
      exact .reused hid hzero (fun x hx => by simpa using hpre x hx) (by simpa using hs)
  · have hid : s.stashId = id := by simpa using hs
    simp only [hsome, hid]
    exact .replaced (fun x hx => by simpa using hpre x hx) hid

/-! ## The invariant -/

/-- The ids in use. -/
def ids (stash : List Stash) : List Int16 := (stash.map stashId).filter (· ≠ 0)

/-- A free entry has no id, and no two entries have the same. -/
structure Sound (stash : List Stash) : Prop where
  free : ∀ s ∈ stash, s.locoId = 0 → s.stashId = 0
  nodup : (ids stash).Nodup

theorem ids_append : ids (pre ++ post) = ids pre ++ ids post := by simp [ids]

theorem ids_cons : ids (s :: stash) = (if s.stashId = 0 then [] else [s.stashId]) ++ ids stash := by
  by_cases h : s.stashId = 0 <;> simp [ids, h]

theorem mem_ids : id ∈ ids stash ↔ id ≠ 0 ∧ ∃ s ∈ stash, s.stashId = id := by
  simp only [ids, List.mem_filter, List.mem_map, decide_eq_true_eq]
  exact and_comm

theorem sound_nil : Sound [] := ⟨List.forall_mem_nil _, List.nodup_nil⟩

/-- An entry is exchanged for one that is free, or has an id that is not in use. -/
theorem Sound.exchange (h : Sound (pre ++ s :: post)) (hfree : s'.locoId = 0 → s'.stashId = 0)
    (hid : s'.stashId = 0 ∨ s'.stashId ∉ ids (pre ++ post)) : Sound (pre ++ s' :: post) := by
  have hnodup := h.nodup
  rw [ids_append, ids_cons] at hnodup
  have hrest : (ids (pre ++ post)).Nodup := by
    rw [ids_append]
    refine hnodup.sublist ?_
    exact List.Sublist.append_left (List.sublist_append_right _ _) _
  refine ⟨fun x hx => ?_, ?_⟩
  · rcases List.mem_append.mp hx with hx | hx
    · exact h.free x (List.mem_append_left _ hx)
    rcases List.mem_cons.mp hx with rfl | hx
    · exact hfree
    · exact h.free x (List.mem_append_right _ (List.mem_cons_of_mem s hx))
  · rw [ids_append, ids_cons]
    by_cases hzero : s'.stashId = 0
    · rw [if_pos hzero, List.nil_append, ← ids_append]
      exact hrest
    · rw [if_neg hzero, List.singleton_append, List.nodup_middle, List.nodup_cons, ← ids_append]
      exact ⟨hid.resolve_left hzero, hrest⟩

/-- There is no other entry of this id. -/
theorem Sound.not_mem (h : Sound (pre ++ s :: post)) (hs : s.stashId ≠ 0) :
    s.stashId ∉ ids (pre ++ post) := by
  have hnodup := h.nodup
  rw [ids_append, ids_cons, if_neg hs, List.singleton_append, List.nodup_middle, List.nodup_cons,
    ← ids_append] at hnodup
  exact hnodup.1

theorem Sound.tail (h : Sound (s :: stash)) : Sound stash := by
  have hnodup := h.nodup
  rw [ids_cons] at hnodup
  exact ⟨fun x hx => h.free x (List.mem_cons_of_mem s hx), (List.nodup_append.mp hnodup).2.1⟩

/-- A set keeps the stash sound. -/
theorem Sound.set (h : Sound stash) (id loco : Int16) : Sound (set stash id loco) := by
  have hspec := set_spec stash id loco
  generalize Stash.set stash id loco = stash' at hspec
  -- an entry is exchanged, or a new one is put in front
  cases hspec with
  | @replaced pre post s hpre hs =>
    refine h.exchange (fun hzero => if_pos hzero) ?_
    by_cases hzero : loco = 0
    · exact .inl (if_pos hzero)
    by_cases hid : s.stashId = 0
    · exact .inl ((if_neg hzero).trans (hs.symm.trans hid))
    · right
      rw [if_neg hzero, ← hs]
      exact h.not_mem hid
  | nothing => exact h
  | @reused pre post s hid hloco =>
    refine h.exchange (fun hzero => absurd hzero hloco) (.inr fun hmem => ?_)
    obtain ⟨-, x, hx, heq⟩ := mem_ids.mp hmem
    refine hid x ?_ heq
    rcases List.mem_append.mp hx with hx | hx
    · exact List.mem_append_left _ hx
    · exact List.mem_append_right _ (List.mem_cons_of_mem s hx)
  | created hid hloco =>
    refine ⟨List.forall_mem_cons.mpr ⟨fun hzero => absurd hzero hloco, h.free⟩, ?_⟩
    rw [ids_cons]
    split
    · exact h.nodup
    · refine List.nodup_cons.mpr ⟨fun hmem => ?_, h.nodup⟩
      obtain ⟨-, x, hx, heq⟩ := mem_ids.mp hmem
      exact hid x hx heq

theorem ids_clearAny : (ids (clearAny stash loco)).Sublist (ids stash) := by
  induction stash with
  | nil => exact List.Sublist.refl _
  | cons s stash ih =>
    rw [clearAny, List.map_cons, ids_cons, ids_cons]
    split
    · exact ih.trans (List.sublist_append_right _ _)
    · exact List.Sublist.append_left ih _

theorem Sound.clearAny (h : Sound stash) (loco : Int16) : Sound (clearAny stash loco) := by
  refine ⟨fun s hs => ?_, h.nodup.sublist ids_clearAny⟩
  obtain ⟨x, hx, rfl⟩ := List.mem_map.mp hs
  split
  · exact fun _ => rfl
  · exact h.free x hx

theorem sound_clearAll : Sound (clearAll stash) := by
  have hids : ids (clearAll stash) = [] := by
    rw [ids, clearAll, List.map_map, List.filter_eq_nil_iff]
    simp [free]
  refine ⟨fun s hs _ => ?_, hids ▸ List.nodup_nil⟩
  obtain ⟨x, -, rfl⟩ := List.mem_map.mp hs
  rfl

theorem Sound.exec (h : Sound stash) (op : StashOp) : Sound (op.exec stash) := by
  cases op with
  | set id loco => exact h.set id loco
  | clear id => exact h.set id 0
  | clearAny loco => exact h.clearAny loco
  | clearAll => exact sound_clearAll

/-! ## Ids that are not 0 -/

/-- **`set`**, for an id that is not 0. -/
theorem Sound.get_set (h : Sound stash) (hid' : id' ≠ 0) :
    get (Stash.set stash id loco) id' = if id' = id then loco else get stash id' := by
  have hspec := set_spec stash id loco
  generalize Stash.set stash id loco = stash' at hspec
  cases hspec with
  | @replaced pre post s hpre hs =>
    by_cases heq : id' = id
    · subst heq
      rw [if_pos rfl, get_append hpre, get_cons]
      by_cases hzero : loco = 0
      · -- the entry is free now, and there is no other
        have hnone : get post id' = 0 := by
          refine get_of_forall_ne fun x hx hxid => h.not_mem (hs ▸ hid') ?_
          rw [hs]
          exact mem_ids.mpr ⟨hid', x, List.mem_append_right _ hx, hxid⟩
        rw [if_pos hzero, if_neg hid'.symm, hnone, hzero]
      · rw [if_neg hzero, if_pos rfl]
    · have hne : (if loco = 0 then 0 else id) ≠ id' := by
        split
        · exact hid'.symm
        · exact Ne.symm heq
      rw [if_neg heq]
      exact get_exchange (fun hsid => heq (hsid.symm.trans hs)) hne
  | nothing hall hzero =>
    by_cases heq : id' = id
    · rw [if_pos heq, heq, hzero]
      exact get_of_forall_ne hall
    · rw [if_neg heq]
  | @reused pre post s hall hloco _ hs =>
    have hfree : s.stashId = 0 :=
      h.free s (List.mem_append_right _ List.mem_cons_self) hs
    by_cases heq : id' = id
    · rw [if_pos heq, heq, get_append fun x hx => hall x (List.mem_append_left _ hx), get_cons, if_pos rfl]
    · rw [if_neg heq]
      exact get_exchange (fun hsid => hid' (hsid.symm.trans hfree)) (Ne.symm heq)
  | created =>
    rw [get_cons]
    by_cases heq : id' = id
    · rw [if_pos heq.symm, if_pos heq]
    · rw [if_neg (Ne.symm heq), if_neg heq]

theorem abs_eq_iff {x y : Int16} : abs x = abs y ↔ x = y ∨ x = -y := by
  have hx := x.le_toInt
  have hx' := x.toInt_lt
  have hy := y.le_toInt
  have hy' := y.toInt_lt
  rw [abs, abs, ← Int16.toInt_inj, ← Int16.toInt_inj, Int16.toInt_neg, Int.bmod_def]
  omega

/-- To clear a loco empties the entries that have it, in either direction, and no others. -/
theorem Sound.get_clearAny (h : Sound stash) (hid : id ≠ 0) :
    get (Stash.clearAny stash loco) id =
      if get stash id = loco ∨ get stash id = -loco then 0 else get stash id := by
  simp only [← abs_eq_iff]
  induction stash with
  | nil =>
    rw [Stash.clearAny, List.map_nil, get_nil]
    exact (ite_self _).symm
  | cons s stash ih =>
    have hrest : s.stashId = id → ∀ x ∈ stash, x.stashId ≠ id := by
      intro hs x hx hxid
      have hnot := @Sound.not_mem [] stash s h (hs ▸ hid)
      exact hnot (mem_ids.mpr ⟨hs ▸ hid, x, hx, hxid.trans hs.symm⟩)
    have hnone : s.stashId = id → get (Stash.clearAny stash loco) id = 0 := by
      intro hs
      rw [ih h.tail, get_of_forall_ne (hrest hs)]
      split <;> rfl
    have hmap : Stash.clearAny (s :: stash) loco =
        (if abs s.locoId = abs loco then Stash.free else s) :: Stash.clearAny stash loco := rfl
    rw [hmap, get_cons, get_cons]
    by_cases hs : s.stashId = id
    · rw [if_pos hs]
      by_cases hloco : abs s.locoId = abs loco
      · rw [if_pos hloco, if_pos hloco, hnone hs]
        exact if_neg hid.symm
      · rw [if_neg hloco, if_neg hloco, if_pos hs]
    · rw [if_neg hs, ← ih h.tail]
      refine if_neg ?_
      split
      · exact hid.symm
      · exact hs

theorem get_clearAll : get (Stash.clearAll stash) id = 0 := by
  induction stash with
  | nil => rfl
  | cons s stash ih =>
    have hmap : Stash.clearAll (s :: stash) = free :: Stash.clearAll stash := rfl
    rw [hmap, get_cons, ih]
    exact ite_self _

/-- Each operation does to what is read what it does to the map. -/
theorem Sound.get_exec (h : Sound stash) (op : StashOp) (hid : id ≠ 0) :
    get (op.exec stash) id = op.onMap (get stash) id := by
  cases op with
  | set id' loco =>
    simp only [StashOp.exec, StashOp.onMap, Function.update_apply]
    exact h.get_set hid
  | clear id' =>
    simp only [StashOp.exec, StashOp.onMap, Function.update_apply]
    exact h.get_set hid
  | clearAny loco => exact h.get_clearAny hid
  | clearAll => exact get_clearAll

/-- On an id, the map is changed by what it holds there. -/
theorem onMap_congr {m m' : Int16 → Int16} (op : StashOp) (h : m id = m' id) :
    op.onMap m id = op.onMap m' id := by
  cases op with
  | set id' loco => simp [StashOp.onMap, Function.update_apply, h]
  | clear id' => simp [StashOp.onMap, Function.update_apply, h]
  | clearAny loco => simp [StashOp.onMap, h]
  | clearAll => rfl

/-! ## The id 0 -/

/-- The entry that the id 0 is read from. -/
theorem zero_cases (stash : List Stash) :
    (∀ x ∈ stash, x.stashId ≠ 0) ∨
    ∃ pre s post, stash = pre ++ s :: post ∧ (∀ x ∈ pre, x.stashId ≠ 0) ∧ s.stashId = 0 := by
  rcases replaceFirst_cases (fun s => s.stashId == 0) id stash with
    ⟨-, hall⟩ | ⟨pre, s, post, rfl, hpre, hs, -⟩
  · exact .inl fun x hx => by simpa using hall x hx
  · exact .inr ⟨pre, s, post, rfl, fun x hx => by simpa using hpre x hx, by simpa using hs⟩

theorem get_zero_split (hpre : ∀ x ∈ pre, x.stashId ≠ 0) (hs : s.stashId = 0) :
    get (pre ++ s :: post) 0 = s.locoId := by
  rw [get_append hpre, get_cons, if_pos hs]

/-- Some entries are freed. -/
def freed (p : Stash → Prop) [DecidablePred p] (stash : List Stash) : List Stash :=
  stash.map fun s => if p s then free else s

section Freed

variable {p : Stash → Prop} [DecidablePred p]

theorem get_freed (hpre : ∀ x ∈ pre, x.stashId ≠ 0) :
    get (freed p (pre ++ stash)) 0 = if ∃ x ∈ pre, p x then 0 else get (freed p stash) 0 := by
  induction pre with
  | nil => simp
  | cons x pre ih =>
    obtain ⟨hx, hrest⟩ := List.forall_mem_cons.mp hpre
    have hcons : freed p (x :: pre ++ stash) = (if p x then free else x) :: freed p (pre ++ stash) := rfl
    rw [hcons, get_cons, ih hrest]
    by_cases hp : p x
    · simp [hp, free]
    · simp [hp, hx]

theorem get_freed_none (hall : ∀ x ∈ stash, x.stashId ≠ 0) : get (freed p stash) 0 = 0 := by
  have h := @get_freed [] stash p _ hall
  rw [List.append_nil] at h
  rw [h]
  exact ite_self _

/-- The loco of the id 0 is lost if an entry in front of its own is freed. -/
theorem get_freed_split (hpre : ∀ x ∈ pre, x.stashId ≠ 0) (hs : s.stashId = 0) :
    get (freed p (pre ++ s :: post)) 0 = if (∃ x ∈ pre, p x) ∨ p s then 0 else s.locoId := by
  have hcons : freed p (s :: post) = (if p s then free else s) :: freed p post := rfl
  rw [get_freed hpre, hcons, get_cons]
  by_cases hp : p s
  · simp [hp, free]
  · simp [hp, hs]

theorem freed_congr {q : Stash → Prop} [DecidablePred q] (h : ∀ s, p s ↔ q s) :
    freed p stash = freed q stash := by
  simp only [freed, h]

theorem freed_of_forall_not (hall : ∀ x ∈ stash, ¬ p x) : freed p stash = stash := by
  refine (List.map_congr_left fun x hx => ?_).trans (List.map_id stash)
  exact if_neg (hall x hx)

end Freed

/-- `set` with 0 frees the entry of the id. -/
theorem Sound.set_zero (h : Sound stash) (hid : id ≠ 0) :
    Stash.set stash id 0 = freed (fun s => s.stashId = id) stash := by
  have hspec := set_spec stash id 0
  generalize Stash.set stash id 0 = stash' at hspec
  cases hspec with
  | @replaced pre post s hpre hs =>
    have hpost : ∀ x ∈ post, x.stashId ≠ id := by
      intro x hx hxid
      refine h.not_mem (hs ▸ hid) ?_
      rw [hs]
      exact mem_ids.mpr ⟨hid, x, List.mem_append_right _ hx, hxid⟩
    have happend : freed (fun s => s.stashId = id) (pre ++ s :: post) =
        freed (fun s => s.stashId = id) pre ++
          (if s.stashId = id then Stash.free else s) :: freed (fun s => s.stashId = id) post := by
      simp [freed]
    rw [happend, freed_of_forall_not hpre, freed_of_forall_not hpost, if_pos hs]
    rfl
  | nothing hall => exact (freed_of_forall_not hall).symm
  | reused _ hloco => exact absurd rfl hloco
  | created _ hloco => exact absurd rfl hloco

/-- An operation that frees entries. -/
theorem get_freed_iff {op : StashOp} (hset : ∀ id loco, op = .set id loco → loco = 0)
    (hmap : ∀ pre s post, stash = pre ++ s :: post → (∀ x ∈ pre, x.stashId ≠ 0) → s.stashId = 0 →
      op.onMap (get stash) 0 = if op.Frees s then 0 else s.locoId)
    (hnone : get stash 0 = 0 → op.onMap (get stash) 0 = 0) :
    get (freed op.Frees stash) 0 = op.onMap (get stash) 0 ↔ ¬ Hides op stash := by
  constructor
  · intro heq hhides
    cases hhides with
    | @frees _ pre post s hpre hs hloco hfrees hnot =>
      rw [get_freed_split hpre hs, if_pos (.inl hfrees), hmap pre s post rfl hpre hs, if_neg hnot] at heq
      exact hloco heq.symm
    | reuses _ _ _ _ _ _ hloco => exact hloco (hset _ _ rfl)
  · intro hnot
    rcases zero_cases stash with hall | ⟨pre, s, post, rfl, hpre, hs⟩
    · rw [get_freed_none hall, hnone (get_of_forall_ne hall)]
    rw [get_freed_split hpre hs, hmap pre s post rfl hpre hs]
    by_cases hown : op.Frees s
    · rw [if_pos (.inr hown), if_pos hown]
    rw [if_neg hown]
    by_cases hfrees : ∃ x ∈ pre, op.Frees x
    · rw [if_pos (.inl hfrees)]
      by_contra hloco
      exact hnot (.frees hpre hs (Ne.symm hloco) hfrees hown)
    · exact if_neg (not_or.mpr ⟨hfrees, hown⟩)

theorem Sound.get_set_zero (h : Sound stash) : get (Stash.set stash 0 loco) 0 = loco := by
  have hspec := set_spec stash 0 loco
  generalize Stash.set stash 0 loco = stash' at hspec
  cases hspec with
  | replaced hpre => exact get_zero_split hpre (ite_self _)
  | nothing hall hloco => rw [get_of_forall_ne hall, hloco]
  | reused hall _ _ hs =>
    exact absurd (h.free _ (List.mem_append_right _ List.mem_cons_self) hs)
      (hall _ (List.mem_append_right _ List.mem_cons_self))
  | created => rw [get_cons, if_pos rfl]

/-- The first free entry is given the id. -/
theorem set_reuse (hall : ∀ x ∈ pre ++ s :: post, x.stashId ≠ id) (hloco : loco ≠ 0)
    (hpre : ∀ x ∈ pre, x.locoId ≠ 0) (hs : s.locoId = 0) :
    Stash.set (pre ++ s :: post) id loco = pre ++ ⟨id, loco⟩ :: post := by
  have hnone : replaceFirst (fun s => s.stashId == id) (fun s => ⟨if loco = 0 then 0 else s.stashId, loco⟩)
      (pre ++ s :: post) = none := by
    rcases replaceFirst_cases (fun s => s.stashId == id)
        (fun s => ⟨if loco = 0 then 0 else s.stashId, loco⟩) (pre ++ s :: post) with
      ⟨hnone, -⟩ | ⟨pre', s', post', heq, -, hid, -⟩
    · exact hnone
    · rw [heq] at hall
      exact absurd (eq_of_beq hid) (hall s' (List.mem_append_right _ List.mem_cons_self))
  have hfirst : replaceFirst (fun s => s.locoId == 0) (fun _ => ⟨id, loco⟩) (pre ++ s :: post) =
      some (pre ++ ⟨id, loco⟩ :: post) := by
    clear hnone hall
    induction pre with
    | nil => simp [replaceFirst, hs]
    | cons x pre ih =>
      obtain ⟨hx, hrest⟩ := List.forall_mem_cons.mp hpre
      simp [replaceFirst, hx, ih hrest]
  rw [Stash.set, hnone]
  simp [hfirst, hloco]

/-- A set leaves entry 0 of the stash as it was, unless it hides it. -/
theorem Sound.get_set_iff (h : Sound stash) (hid : id ≠ 0) (hloco : loco ≠ 0) :
    get (Stash.set stash id loco) 0 = get stash 0 ↔ ¬ Hides (.set id loco) stash := by
  constructor
  · intro heq hhides
    cases hhides with
    | frees _ _ _ hfrees =>
      obtain ⟨x, -, -, hzero⟩ := hfrees
      exact hloco hzero
    | @reuses _ _ pre mid post s s' hpre hs hmid hs' hnext hall =>
      have hbusy : ∀ x ∈ pre, x.locoId ≠ 0 := fun x hx hzero =>
        hpre x hx (h.free x (List.mem_append_left _ hx) hzero)
      subst hs
      have hold : get (pre ++ Stash.free :: (mid ++ s' :: post)) 0 = 0 := get_zero_split hpre rfl
      rw [set_reuse hall hloco hbusy rfl, hold, get_append hpre, get_cons, if_neg hid,
        get_zero_split hmid hs'] at heq
      exact hnext heq
  · intro hnot
    have hspec := set_spec stash id loco
    generalize Stash.set stash id loco = stash' at hspec
    cases hspec with
    | replaced hpre hs =>
      exact get_exchange (fun hzero => hid (hs.symm.trans hzero)) (by rwa [if_neg hloco])
    | nothing _ hzero => exact absurd hzero hloco
    | @reused pre post s hall _ _ hs =>
      have hzero : s.stashId = 0 := h.free s (List.mem_append_right _ List.mem_cons_self) hs
      rcases zero_cases pre with hpre | ⟨pre, x, mid, rfl, hpre, hx⟩
      · rw [get_zero_split hpre hzero, hs, get_append hpre, get_cons, if_neg hid]
        rcases zero_cases post with hpost | ⟨mid, s', post, rfl, hmid, hs'⟩
        · exact get_of_forall_ne hpost
        rw [get_zero_split hmid hs']
        by_contra hnext
        have hfree : s = Stash.free := by
          cases s
          simp_all [Stash.free]
        exact hnot (.reuses hpre hfree hmid hs' hnext hall hloco)
      · rw [List.append_assoc, List.append_assoc, List.cons_append, List.cons_append,
          get_zero_split hpre hx, get_zero_split hpre hx]
    | created => rw [get_cons, if_neg hid]

/-- To clear an id leaves entry 0 of the stash as it was, unless it hides it. -/
theorem Sound.get_clear_iff (h : Sound stash) {op : StashOp} (hid : id ≠ 0)
    (hop : op = .clear id ∨ op = .set id 0) :
    get (Stash.set stash id 0) 0 = get stash 0 ↔ ¬ Hides op stash := by
  have hfrees : ∀ s, s.stashId = id ↔ op.Frees s := by
    rcases hop with rfl | rfl <;> simp [StashOp.Frees]
  have hmap : op.onMap (get stash) 0 = get stash 0 := by
    rcases hop with rfl | rfl <;> exact Function.update_of_ne hid.symm _ _
  have hset : ∀ id' loco, op = .set id' loco → loco = 0 := by
    rintro id' loco rfl
    rcases hop with hop | hop
    · cases hop
    · exact (StashOp.set.inj hop).2
  rw [h.set_zero hid, freed_congr hfrees]
  have hiff := @get_freed_iff stash op hset
  rw [hmap] at hiff
  refine hiff (fun pre s post heq hpre hs => ?_) fun hzero => hzero
  rw [heq, get_zero_split hpre hs, if_neg]
  rw [← hfrees, hs]
  exact hid.symm

/-- **An operation does to the id 0 what it does to the map unless it hides its loco.** -/
theorem Sound.get_exec_zero (h : Sound stash) (op : StashOp) :
    get (op.exec stash) 0 = op.onMap (get stash) 0 ↔ ¬ Hides op stash := by
  -- an operation on id 0 itself hides nothing
  have hown : ∀ {op : StashOp} {loco}, (op = .clear 0 ∧ loco = 0 ∨ op = .set 0 loco) →
      (get (Stash.set stash 0 loco) 0 = loco ↔ ¬ Hides op stash) := by
    intro op loco hop
    refine iff_of_true h.get_set_zero fun hhides => ?_
    cases hhides with
    | frees hpre _ _ hfrees =>
      obtain ⟨x, hx, hzero⟩ := hfrees
      refine hpre x hx ?_
      rcases hop with ⟨rfl, -⟩ | rfl
      · exact hzero
      · exact hzero.1
    | @reuses id loco pre mid post s s' _ _ _ hs' _ hall =>
      rcases hop with ⟨hop, -⟩ | hop
      · cases hop
      · cases hop
        exact hall s' (by simp) hs'
  cases op with
  | set id loco =>
    rw [StashOp.exec, StashOp.onMap, Function.update_apply]
    by_cases hid : id = 0
    · rw [hid, if_pos rfl]
      exact hown (.inr rfl)
    rw [if_neg (Ne.symm hid)]
    by_cases hloco : loco = 0
    · rw [hloco]
      exact h.get_clear_iff hid (.inr rfl)
    · exact h.get_set_iff hid hloco
  | clear id =>
    rw [StashOp.exec, StashOp.onMap, Function.update_apply]
    by_cases hid : id = 0
    · rw [hid, if_pos rfl]
      exact hown (.inl ⟨rfl, rfl⟩)
    · rw [if_neg (Ne.symm hid)]
      exact h.get_clear_iff hid (.inl rfl)
  | clearAny loco =>
    have hset : ∀ id loco', StashOp.clearAny loco = .set id loco' → loco' = 0 :=
      fun id loco' hop => by cases hop
    refine get_freed_iff hset (fun pre s post heq hpre hs => ?_) (fun hzero => ?_)
    · simp only [heq, StashOp.onMap, StashOp.Frees, abs_eq_iff, get_zero_split hpre hs]
    · simp only [StashOp.onMap, hzero]
      exact ite_self _
  | clearAll =>
    refine iff_of_true get_clearAll fun hhides => ?_
    cases hhides with
    | frees _ _ _ _ hkept => exact hkept trivial

/-! ## Runs -/

theorem after_concat (ops : List StashOp) (op : StashOp) :
    after (ops ++ [op]) stash = op.exec (after ops stash) := by
  simp [after]

theorem mapAfter_concat (ops : List StashOp) (op : StashOp) (m : Int16 → Int16) :
    mapAfter (ops ++ [op]) m = op.onMap (mapAfter ops m) := by
  simp [mapAfter]

theorem Sound.after (h : Sound stash) (ops : List StashOp) : Sound (after ops stash) := by
  induction ops using List.reverseRecOn with
  | nil => exact h
  | append_singleton ops op ih =>
    rw [after_concat]
    exact ih.exec op

theorem sound_after (ops : List StashOp) : Sound (Stash.after ops []) := sound_nil.after ops

/-- What is stashed under an id that is not 0. -/
theorem get_after (ops : List StashOp) (hid : id ≠ 0) :
    get (after ops []) id = mapAfter ops (fun _ => 0) id := by
  induction ops using List.reverseRecOn with
  | nil => rfl
  | append_singleton ops op ih =>
    rw [after_concat, mapAfter_concat, (sound_after ops).get_exec op hid]
    exact onMap_congr op ih

theorem onMap_of_onId {op : StashOp} {m : Int16 → Int16} (hop : op.onId = some id) (hid : id' ≠ id) :
    op.onMap m id' = m id' := by
  cases op with
  | set id loco =>
    cases hop
    exact Function.update_of_ne hid _ _
  | clear id =>
    cases hop
    exact Function.update_of_ne hid _ _
  | clearAny loco => cases hop
  | clearAll => cases hop

theorem get_zero_after {ops : List StashOp} (h : ∀ pre op, pre ++ [op] <+: ops → ¬ Hides op (after pre [])) :
    get (after ops []) 0 = mapAfter ops (fun _ => 0) 0 := by
  induction ops using List.reverseRecOn with
  | nil => rfl
  | append_singleton ops op ih =>
    have hrest := ih fun pre op' hpre => h pre op' (hpre.trans (List.prefix_append ops [op]))
    rw [after_concat, mapAfter_concat,
      ((sound_after ops).get_exec_zero op).mpr (h ops op (List.prefix_refl _))]
    exact onMap_congr op hrest

/-- **The stash is the map after each operation, and no operation on one id changes another, exactly if
none of them hides the loco of the id 0.** -/
theorem stash_refines (ops : List StashOp) :
    ((∀ pre, pre <+: ops → ∀ id, get (after pre []) id = mapAfter pre (fun _ => 0) id) ∧
      ∀ pre op, pre ++ [op] <+: ops → ∀ id, op.onId = some id → ∀ id', id' ≠ id →
        get (op.exec (after pre [])) id' = get (after pre []) id') ↔
    ∀ pre op, pre ++ [op] <+: ops → ¬ Hides op (after pre []) := by
  constructor
  · rintro ⟨hmap, -⟩ pre op hpre
    have hbefore := hmap pre ((List.prefix_append pre [op]).trans hpre) 0
    have hafter := hmap (pre ++ [op]) hpre 0
    rw [after_concat, mapAfter_concat] at hafter
    rw [← (sound_after pre).get_exec_zero op, hafter]
    exact onMap_congr op hbefore.symm
  · intro h
    have hmap : ∀ pre, pre <+: ops → ∀ id, get (after pre []) id = mapAfter pre (fun _ => 0) id := by
      intro pre hpre id
      by_cases hid : id = 0
      · rw [hid]
        exact get_zero_after fun pre' op hpre' => h pre' op (hpre'.trans hpre)
      · exact get_after pre hid
    refine ⟨hmap, fun pre op hpre id hop id' hid => ?_⟩
    have hafter := hmap (pre ++ [op]) hpre id'
    rw [after_concat, mapAfter_concat, onMap_of_onId hop hid] at hafter
    exact hafter.trans (hmap pre ((List.prefix_append pre [op]).trans hpre) id').symm

/-- The loco of the id 0 is lost with that of another id. -/
theorem stash_zero_hidden :
    ¬ ∀ (ops : List StashOp) (id : Int16), get (after ops []) id = mapAfter ops (fun _ => 0) id := by
  intro h
  exact absurd (h [.set 0 5, .set 3 4, .clear 3] 0) (by decide)

end Stash

end CommandStation.Exrail
