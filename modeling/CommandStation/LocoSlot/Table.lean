import CommandStation.LocoSlot.Basic
import Mathlib.Data.List.Nodup

/-!
# The two lists of the loco table

`Lists t xs ys` is the invariant: the slots in use are `xs`, the recycled ones `ys`, and together
they are all slots that were allocated. Each operation of `LocoSlot` has one specification in terms
of these lists; the other modules use the specifications and never look into the operations.
-/

namespace CommandStation

open CommandStation.Lib

namespace LocoTable

/-- The `next` fields of the heap. -/
def nextOf (t : LocoTable) (a : Addr) : Option Addr := (t.mem a).next

/-- The table has the slots `xs` in use and the slots `ys` on its recycler list. -/
structure Lists (t : LocoTable) (xs ys : List Addr) : Prop where
  inUse : Links t.nextOf t.firstSlot xs
  recycled : Links t.nextOf t.recycler ys
  nodup : (xs ++ ys).Nodup
  live : ∀ a ∈ xs ++ ys, t.live a = true
  fresh : ∀ a ∈ xs ++ ys, a < t.fresh
  count : (xs ++ ys).length = t.slotCount
  bound : t.slotCount ≤ t.maxLocos
  ids : (xs.map fun a => (t.mem a).loco).Nodup
  nonzero : ∀ a ∈ xs, (t.mem a).loco ≠ 0

end LocoTable

/-- All members of a slot but the link of the list it is on. -/
def LocoSlot.data (slot : LocoSlot) : LocoSlot := { slot with next := none }

open LocoTable

variable {F : Fault → Prop} {t : LocoTable} {xs ys : List Addr} {a b : Addr}

/-! ## Pointers -/

theorem wp_readSlot (ha : t.live a = true) {Q : LocoSlot → LocoTable → Prop} :
    wp F (readSlot a) Q t ↔ Q (t.mem a) t := by
  simp [readSlot, ha]

theorem wp_writeSlot (ha : t.live a = true) {f : LocoSlot → LocoSlot}
    {Q : Unit → LocoTable → Prop} :
    wp F (writeSlot a f) Q t ↔ Q () (t.write a (f (t.mem a))) := by
  simp [writeSlot, ha]

@[simp] theorem LocoTable.mem_write_self (slot : LocoSlot) : (t.write a slot).mem a = slot := by
  simp [LocoTable.write]

theorem LocoTable.mem_write_of_ne (hb : b ≠ a) (slot : LocoSlot) :
    (t.write a slot).mem b = t.mem b := by
  simp [LocoTable.write, hb]

@[simp] theorem LocoTable.write_write (slot slot' : LocoSlot) :
    (t.write a slot).write a slot' = t.write a slot' := by
  simp [LocoTable.write]

namespace LocoTable

theorem Lists.live_inUse (h : Lists t xs ys) (ha : a ∈ xs) : t.live a = true :=
  h.live a (List.mem_append_left _ ha)

theorem Lists.nodup_inUse (h : Lists t xs ys) : xs.Nodup := h.nodup.of_append_left

theorem Lists.length_inUse (h : Lists t xs ys) : xs.length ≤ t.fresh :=
  length_le_of_nodup_of_lt h.nodup_inUse fun a ha => h.fresh a (List.mem_append_left _ ha)

/-- Members other than `next` and `loco` may be written to any slot. -/
theorem Lists.write (h : Lists t xs ys) {slot : LocoSlot} (hnext : slot.next = (t.mem a).next)
    (hloco : slot.loco = (t.mem a).loco) : Lists (t.write a slot) xs ys := by
  have hnext' : ∀ b, (t.write a slot).nextOf b = t.nextOf b := by
    intro b
    by_cases hb : b = a
    · rw [hb, nextOf, mem_write_self, hnext, nextOf]
    · rw [nextOf, mem_write_of_ne hb, nextOf]
  have hloco' : ∀ b, ((t.write a slot).mem b).loco = (t.mem b).loco := by
    intro b
    by_cases hb : b = a
    · rw [hb, mem_write_self, hloco]
    · rw [mem_write_of_ne hb]
  refine ⟨h.inUse.congr fun b _ => hnext' b, h.recycled.congr fun b _ => hnext' b, h.nodup, h.live,
    h.fresh, h.count, h.bound, ?_, ?_⟩
  · simp only [hloco']
    exact h.ids
  · intro b hb
    rw [hloco']
    exact h.nonzero b hb

/-- Slots in use have different loco ids. -/
theorem Lists.loco_inj (h : Lists t xs ys) (ha : a ∈ xs) (hb : b ∈ xs)
    (hid : (t.mem a).loco = (t.mem b).loco) : a = b :=
  List.inj_on_of_nodup_map h.ids ha hb hid

end LocoTable

/-! ## The slots in use -/

namespace LocoTable

/-- The slots along the `next` pointers, `n` at most. -/
def walk (t : LocoTable) : Nat → Option Addr → List Addr
  | n + 1, some a => a :: walk t n (t.nextOf a)
  | _, _ => []

/-- The slots on the list in use. -/
def slots (t : LocoTable) : List Addr := t.walk t.fresh t.firstSlot

theorem walk_eq {n : Nat} {p : Option Addr} (h : Links t.nextOf p xs) (hn : xs.length ≤ n) :
    t.walk n p = xs := by
  induction xs generalizing n p with
  | nil =>
    rw [show p = none from h]
    cases n <;> rfl
  | cons c xs ih =>
    obtain ⟨rfl, hlinks⟩ := h
    cases n with
    | zero => simp at hn
    | succ n => rw [walk, ih hlinks (by simpa using hn)]

theorem Lists.slots_eq (h : Lists t xs ys) : t.slots = xs := walk_eq h.inUse h.length_inUse

end LocoTable

/-! ## Searching -/

/-- The search loop finds the first slot of the list that meets the test. -/
theorem wp_search (h : Lists t xs ys) (test : LocoSlot → Bool)
    {Q : Option Addr → LocoTable → Prop} (hQ : Q (xs.find? fun a => test (t.mem a)) t) :
    wp F (LocoSlot.search test) Q t := by
  simp only [LocoSlot.search, follow, wp_bind, wp_get]
  -- `rest` is what the loop has not looked at yet
  refine wp_loop (fun rest p b s => s = t ∧ ((Links t.nextOf p rest ∧ (∀ c ∈ rest, c ∈ xs) ∧
      b = none ∧ xs.find? (fun a => test (t.mem a)) = rest.find? fun a => test (t.mem a)) ∨
      (p = none ∧ b = xs.find? fun a => test (t.mem a)))) ?_ ?_ h.length_inUse
      ⟨rfl, .inl ⟨h.inUse, fun c hc => hc, rfl, rfl⟩⟩
  · rintro rest a b s ⟨rfl, ⟨hlinks, hsub, rfl, hfind⟩ | ⟨hp, -⟩⟩
    · cases rest with
      | nil => cases hlinks
      | cons c rest =>
        obtain ⟨hp, hlinks⟩ := hlinks
        cases hp
        have hlive := h.live_inUse (hsub a List.mem_cons_self)
        refine ⟨rest, rfl, ?_⟩
        rw [wp_bind, wp_readSlot hlive]
        by_cases htest : test (s.mem a)
        · rw [if_pos htest]
          refine ⟨rfl, .inr ⟨rfl, ?_⟩⟩
          simp [hfind, htest]
        · rw [if_neg htest]
          refine ⟨rfl, .inl ⟨hlinks, fun c hc => hsub c (List.mem_cons_of_mem _ hc), rfl, ?_⟩⟩
          simp [hfind, htest]
    · cases hp
  · rintro rest b s ⟨rfl, ⟨hlinks, -, rfl, hfind⟩ | ⟨-, rfl⟩⟩
    · cases rest with
      | nil => rw [hfind] at hQ; exact hQ
      | cons c rest => cases hlinks.1
    · exact hQ

/-! ## `getSlot` -/

/-- `t'` is `t` with slot `a`, new or recycled, prepared for `locoId` and put to the front. -/
structure Created (t : LocoTable) (xs : List Addr) (locoId : UInt16) (a : Addr)
    (t' : LocoTable) : Prop where
  lists : ∃ ys, Lists t' (a :: xs) ys
  slot : ∃ old, t'.mem a = LocoSlot.prepared old locoId t.firstSlot
  other : ∀ b, b ≠ a → t'.mem b = t.mem b
  maxLocos : t'.maxLocos = t.maxLocos

namespace Created

variable {locoId : UInt16} {t' : LocoTable}

theorem loco (h : Created t xs locoId a t') : (t'.mem a).loco = locoId := by
  obtain ⟨old, hslot⟩ := h.slot
  rw [hslot]
  rfl

theorem not_mem (h : Created t xs locoId a t') : a ∉ xs := by
  obtain ⟨ys, hlists⟩ := h.lists
  exact (List.nodup_cons.mp hlists.nodup_inUse).1

theorem mem_inUse (h : Created t xs locoId a t') : ∀ b ∈ xs, t'.mem b = t.mem b :=
  fun b hb => h.other b fun heq => h.not_mem (heq ▸ hb)

end Created

/-- The possible results of `getSlot` on a table with the slots `xs` in use. -/
inductive GotSlot (t : LocoTable) (xs : List Addr) (locoId : UInt16) (autoCreate : Bool) :
    Option Addr → LocoTable → Prop
  | zero (h : locoId = 0) : GotSlot t xs locoId autoCreate none t
  | found {a : Addr} (h : locoId ≠ 0) (ha : a ∈ xs) (hid : (t.mem a).loco = locoId) :
      GotSlot t xs locoId autoCreate (some a) t
  | unknown (h : locoId ≠ 0) (hno : ∀ b ∈ xs, (t.mem b).loco ≠ locoId) (hc : autoCreate = false) :
      GotSlot t xs locoId autoCreate none t
  | full (h : locoId ≠ 0) (hno : ∀ b ∈ xs, (t.mem b).loco ≠ locoId) (hc : autoCreate = true)
      (hfull : xs.length = t.maxLocos) : GotSlot t xs locoId autoCreate none t
  | created {a : Addr} {t' : LocoTable} (h : locoId ≠ 0) (hno : ∀ b ∈ xs, (t.mem b).loco ≠ locoId)
      (hc : autoCreate = true) (hroom : xs.length < t.maxLocos) (ht' : Created t xs locoId a t') :
      GotSlot t xs locoId autoCreate (some a) t'

/-- A slot that is on neither list is prepared and put to the front of the list in use. -/
theorem wp_prepare (h : Lists t xs ys) {locoId : UInt16} (hid : locoId ≠ 0)
    (hno : ∀ b ∈ xs, (t.mem b).loco ≠ locoId) (ha : a ∉ xs ++ ys) (hlive : t.live a = true)
    (hfresh : a < t.fresh) {slotCount : Nat} (hcount : t.slotCount + 1 = slotCount)
    (hbound : slotCount ≤ t.maxLocos) :
    wp F (LocoSlot.prepare a locoId)
      (fun _ t' => Lists t' (a :: xs) ys ∧
        t'.mem a = LocoSlot.prepared (t.mem a) locoId t.firstSlot ∧
        (∀ b, b ≠ a → t'.mem b = t.mem b) ∧ t'.maxLocos = t.maxLocos)
      { t with slotCount := slotCount } := by
  simp only [LocoSlot.prepare, wp_bind, wp_get]
  rw [wp_writeSlot (by exact hlive), wp_modify]
  have hne : ∀ b ∈ xs ++ ys, b ≠ a := fun b hb heq => ha (heq ▸ hb)
  -- the write is in a slot of neither list, so both lists are read as before
  have hmem : ∀ b ∈ xs ++ ys,
      (LocoTable.write { t with slotCount := slotCount } a
        ((t.mem a).prepared locoId t.firstSlot)).mem b = t.mem b :=
    fun b hb => LocoTable.mem_write_of_ne (hne b hb) _
  refine ⟨?_, by simp, fun b hb => LocoTable.mem_write_of_ne hb _, rfl⟩
  constructor
  · refine ⟨rfl, ?_⟩
    rw [LocoTable.nextOf]
    simp only [LocoTable.mem_write_self, LocoSlot.prepared]
    refine h.inUse.congr fun b hb => ?_
    exact congrArg LocoSlot.next (hmem b (List.mem_append_left _ hb))
  · refine h.recycled.congr fun b hb => ?_
    exact congrArg LocoSlot.next (hmem b (List.mem_append_right _ hb))
  · exact List.nodup_cons.mpr ⟨ha, h.nodup⟩
  · intro b hb
    rcases List.mem_cons.mp hb with rfl | hb
    · exact hlive
    · exact h.live b hb
  · intro b hb
    rcases List.mem_cons.mp hb with rfl | hb
    · exact hfresh
    · exact h.fresh b hb
  · have hlen := h.count
    simp only [List.cons_append, List.length_cons, LocoTable.write] at hlen ⊢
    omega
  · exact hbound
  · rw [List.map_cons, LocoTable.mem_write_self, List.nodup_cons]
    have hids : (xs.map fun b => (LocoTable.write { t with slotCount := slotCount } a
        ((t.mem a).prepared locoId t.firstSlot)).mem b |>.loco) =
        xs.map fun b => (t.mem b).loco :=
      List.map_congr_left fun b hb =>
        congrArg LocoSlot.loco (hmem b (List.mem_append_left _ hb))
    refine ⟨?_, hids ▸ h.ids⟩
    intro hin
    obtain ⟨b, hb, hloco⟩ := List.mem_map.mp (hids ▸ hin)
    exact hno b hb hloco
  · intro b hb
    rcases List.mem_cons.mp hb with rfl | hb
    · rw [LocoTable.mem_write_self]; exact hid
    · rw [congrArg LocoSlot.loco (hmem b (List.mem_append_left _ hb))]; exact h.nonzero b hb

/-- A slot is taken from the recycler list. -/
theorem LocoTable.Lists.unrecycle (h : Lists t xs (a :: ys)) :
    Lists { t with recycler := t.nextOf a, slotCount := t.slotCount - 1 } xs ys := by
  have hperm : (xs ++ a :: ys).Perm (a :: (xs ++ ys)) := List.perm_middle
  have hmem : ∀ b ∈ xs ++ ys, b ∈ xs ++ a :: ys :=
    fun b hb => hperm.mem_iff.mpr (List.mem_cons_of_mem a hb)
  have hcount := h.count
  have hbound := h.bound
  rw [hperm.length_eq, List.length_cons] at hcount
  refine ⟨h.inUse, h.recycled.2, ?_, fun b hb => h.live b (hmem b hb),
    fun b hb => h.fresh b (hmem b hb), ?_, ?_, h.ids, h.nonzero⟩
  · exact (List.nodup_cons.mp (hperm.nodup_iff.mp h.nodup)).2
  · show (xs ++ ys).length = t.slotCount - 1
    omega
  · show t.slotCount - 1 ≤ t.maxLocos
    omega

/-- A slot that was never used is allocated. -/
theorem LocoTable.Lists.new (h : Lists t xs ys) :
    Lists { t with
      mem := Function.update t.mem t.fresh newLocoSlot
      live := Function.update t.live t.fresh true
      fresh := t.fresh + 1 } xs ys := by
  have hne : ∀ b ∈ xs ++ ys, b ≠ t.fresh := fun b hb => Nat.ne_of_lt (h.fresh b hb)
  have hmem : ∀ b ∈ xs ++ ys, Function.update t.mem t.fresh newLocoSlot b = t.mem b :=
    fun b hb => Function.update_of_ne (hne b hb) _ _
  have hids : (xs.map fun b => (Function.update t.mem t.fresh newLocoSlot b).loco) =
      xs.map fun b => (t.mem b).loco :=
    List.map_congr_left fun b hb => congrArg LocoSlot.loco (hmem b (List.mem_append_left _ hb))
  refine ⟨?_, ?_, h.nodup, ?_, fun b hb => Nat.lt_succ_of_lt (h.fresh b hb), h.count, h.bound,
    hids ▸ h.ids, ?_⟩
  · exact h.inUse.congr fun b hb =>
      congrArg LocoSlot.next (hmem b (List.mem_append_left _ hb))
  · exact h.recycled.congr fun b hb =>
      congrArg LocoSlot.next (hmem b (List.mem_append_right _ hb))
  · intro b hb
    simp only [Function.update_of_ne (hne b hb)]
    exact h.live b hb
  · intro b hb
    simp only [hmem b (List.mem_append_left _ hb)]
    exact h.nonzero b hb

/-- **`getSlot` finds the slot, creates it, or says why not.** -/
theorem getSlot_spec (h : Lists t xs ys) (locoId : UInt16) (autoCreate : Bool) :
    wp F (LocoSlot.getSlot locoId autoCreate) (GotSlot t xs locoId autoCreate) t := by
  unfold LocoSlot.getSlot
  by_cases hid : locoId = 0
  · rw [if_pos hid]
    exact .zero hid
  rw [if_neg hid, wp_bind]
  refine wp_search h _ ?_
  cases hfind : xs.find? fun a => (t.mem a).loco == locoId with
  | some a =>
    have hloco := List.find?_some hfind
    exact .found hid (List.mem_of_find?_eq_some hfind) (by simpa using hloco)
  | none =>
    have hno : ∀ b ∈ xs, (t.mem b).loco ≠ locoId := by
      intro b hb
      simpa using List.find?_eq_none.mp hfind b hb
    cases autoCreate with
    | false => exact .unknown hid hno rfl
    | true =>
      simp only [Option.isSome_none, Bool.not_true, Bool.false_eq_true, if_false, wp_bind, wp_get]
      have hcount := h.count
      have hbound := h.bound
      -- a slot is created, or taken from the list of recycled ones
      cases hys : ys with
      | nil =>
        subst hys
        rw [List.append_nil] at hcount
        rw [show t.recycler = none from h.recycled]
        simp only
        split
        · exact .full hid hno rfl (by omega)
        · next hroom =>
          simp only [LocoSlot.new, wp_bind, wp_get, wp_set, wp_pure, wp_modify]
          have hnot : t.fresh ∉ xs ++ [] := fun hin => Nat.lt_irrefl _ (h.fresh _ hin)
          have hno' : ∀ b ∈ xs, (Function.update t.mem t.fresh newLocoSlot b).loco ≠ locoId := by
            intro b hb
            rw [Function.update_of_ne (fun heq => hnot (by simpa [heq] using hb))]
            exact hno b hb
          refine wp_mono (wp_prepare h.new hid hno' hnot (by simp) (Nat.lt_succ_self _) rfl
            (by show t.slotCount + 1 ≤ t.maxLocos; omega)) ?_
          rintro - t' ⟨hlists, hslot, hother, hmax⟩
          refine .created hid hno rfl (by omega) ⟨⟨[], hlists⟩, ⟨_, hslot⟩, ?_, hmax⟩
          intro b hb
          rw [hother b hb]
          exact Function.update_of_ne hb _ _
      | cons a rest =>
        subst hys
        rw [show t.recycler = some a from h.recycled.1]
        simp only [wp_bind]
        rw [wp_readSlot (h.live a (by simp))]
        simp only [wp_modify]
        have hperm : (xs ++ a :: rest).Perm (a :: (xs ++ rest)) := List.perm_middle
        have hnot : a ∉ xs ++ rest := (List.nodup_cons.mp (hperm.nodup_iff.mp h.nodup)).1
        rw [hperm.length_eq, List.length_cons, List.length_append] at hcount
        have hback : t.slotCount - 1 + 1 = t.slotCount := by omega
        refine wp_mono (wp_prepare h.unrecycle hid hno hnot (h.live a (by simp))
          (h.fresh a (by simp)) hback hbound) ?_
        rintro - t' ⟨hlists, hslot, hother, hmax⟩
        exact .created hid hno rfl (by omega) ⟨⟨rest, hlists⟩, ⟨_, hslot⟩, hother, hmax⟩

/-- `getSlot` without `autoCreate` finds the slot and changes nothing. -/
theorem wp_findSlot (h : Lists t xs ys) {locoId : UInt16} {Q : Option Addr → LocoTable → Prop}
    (hnone : (∀ a ∈ xs, (t.mem a).loco ≠ locoId) → Q none t)
    (hfound : ∀ a ∈ xs, (t.mem a).loco = locoId → Q (some a) t) :
    wp F (LocoSlot.getSlot locoId false) Q t := by
  refine wp_mono (getSlot_spec h locoId false) ?_
  intro r t' hr
  cases hr with
  | zero hid => exact hnone fun a ha hloco => h.nonzero a ha (hloco.trans hid)
  | found _ ha hloco => exact hfound _ ha hloco
  | unknown _ hno _ => exact hnone hno
  | full _ _ hcreate _ => cases hcreate
  | created _ _ hcreate _ _ => cases hcreate

/-! ## `forget` and `forgetAll` -/

theorem loco_of_data {slot slot' : LocoSlot} (h : slot'.data = slot.data) :
    slot'.loco = slot.loco := by
  have hloco := congrArg LocoSlot.loco h
  exact hloco

/-- A slot changes lists: only `next` fields are written. -/
theorem LocoTable.Lists.move {t' : LocoTable} {xs' ys' : List Addr} (h : Lists t xs ys)
    (hperm : (xs' ++ ys').Perm (xs ++ ys)) (hsub : ∀ b ∈ xs', b ∈ xs)
    (hdata : ∀ b, (t'.mem b).data = (t.mem b).data) (hlive : t'.live = t.live)
    (hfresh : t'.fresh = t.fresh) (hcount : t'.slotCount = t.slotCount)
    (hmax : t'.maxLocos = t.maxLocos) (hinUse : Links t'.nextOf t'.firstSlot xs')
    (hrecycled : Links t'.nextOf t'.recycler ys') : Lists t' xs' ys' := by
  have hnodup : (xs' ++ ys').Nodup := hperm.nodup_iff.mpr h.nodup
  have hloco : ∀ b, (t'.mem b).loco = (t.mem b).loco := fun b => loco_of_data (hdata b)
  refine ⟨hinUse, hrecycled, hnodup, ?_, ?_, ?_, ?_, ?_, ?_⟩
  · intro b hb
    rw [hlive]
    exact h.live b (hperm.mem_iff.mp hb)
  · intro b hb
    rw [hfresh]
    exact h.fresh b (hperm.mem_iff.mp hb)
  · rw [hcount, ← h.count, hperm.length_eq]
  · rw [hcount, hmax]
    exact h.bound
  · refine hnodup.of_append_left.map_on ?_
    intro b hb c hc heq
    rw [hloco, hloco] at heq
    exact h.loco_inj (hsub b hb) (hsub c hc) heq
  · intro b hb
    rw [hloco]
    exact h.nonzero b (hsub b hb)

/-- The table with one `next` field rewritten. -/
def LocoTable.setNext (t : LocoTable) (a : Addr) (p : Option Addr) : LocoTable :=
  t.write a { t.mem a with next := p }

theorem LocoTable.nextOf_setNext_self (p : Option Addr) : (t.setNext a p).nextOf a = p := by
  rw [nextOf, setNext, mem_write_self]

theorem LocoTable.nextOf_setNext_of_ne (hb : b ≠ a) (p : Option Addr) :
    (t.setNext a p).nextOf b = t.nextOf b := by
  rw [nextOf, setNext, mem_write_of_ne hb, nextOf]

theorem LocoTable.data_setNext (p : Option Addr) (b : Addr) :
    ((t.setNext a p).mem b).data = (t.mem b).data := by
  by_cases hb : b = a
  · rw [hb, setNext, mem_write_self]; rfl
  · rw [setNext, mem_write_of_ne hb]

/-- What `unlink` leaves: the slot is skipped, its own `next` field unchanged. -/
structure Unlinked (t : LocoTable) (xs : List Addr) (a : Addr) (t' : LocoTable) : Prop where
  inUse : Links t'.nextOf t'.firstSlot (xs.erase a)
  data : ∀ b, (t'.mem b).data = (t.mem b).data
  other : ∀ b, b ∉ xs.erase a → t'.nextOf b = t.nextOf b
  rest : t'.live = t.live ∧ t'.fresh = t.fresh ∧ t'.recycler = t.recycler ∧
    t'.slotCount = t.slotCount ∧ t'.maxLocos = t.maxLocos

/-- `unlink` takes the slot out of the list in use, from its front or from behind another slot. -/
theorem unlink_spec (h : Lists t xs ys) (ha : a ∈ xs) :
    wp F (LocoSlot.unlink a) (fun _ t' => Unlinked t xs a t') t := by
  simp only [LocoSlot.unlink, wp_bind, wp_readSlot (h.live_inUse ha), wp_get]
  by_cases hfirst : t.firstSlot = some a
  · rw [if_pos hfirst, wp_modify]
    cases xs with
    | nil => cases ha
    | cons c after =>
      obtain ⟨hc, hafter⟩ := h.inUse
      rw [hfirst, Option.some.injEq] at hc
      subst hc
      have herase : (a :: after).erase a = after := by simp
      refine ⟨?_, fun b => rfl, fun b _ => rfl, rfl, rfl, rfl, rfl, rfl⟩
      rw [herase]
      exact hafter
  · rw [if_neg hfirst, wp_bind]
    refine wp_search h _ ?_
    obtain ⟨b, hb, hnext⟩ := h.inUse.exists_prev ha hfirst
    cases hfind : xs.find? fun c => (t.mem c).next == some a with
    | none =>
      have hno := List.find?_eq_none.mp hfind b hb
      exact absurd (beq_iff_eq.mpr hnext) hno
    | some c =>
      -- `c` is the predecessor: the list behind it starts with `a`
      have htest := List.find?_some hfind
      have hc : t.nextOf c = some a := beq_iff_eq.mp htest
      have hcmem := List.mem_of_find?_eq_some hfind
      obtain ⟨before, rest, rfl⟩ := List.append_of_mem hcmem
      obtain ⟨-, hrest⟩ := h.inUse.of_append
      rw [hc] at hrest
      cases rest with
      | nil => cases hrest
      | cons d after =>
        cases hrest.1
        have hnd := h.nodup_inUse
        rw [List.nodup_append, List.nodup_cons, List.nodup_cons] at hnd
        obtain ⟨-, ⟨hca, haafter, -⟩, hbefore⟩ := hnd
        have hab : a ∉ before := fun hin => hbefore a hin a (by simp) rfl
        have hcb : ∀ x ∈ before ++ after, x ≠ c := by
          rintro x hx rfl
          rcases List.mem_append.mp hx with hx | hx
          · exact hbefore x hx x (by simp) rfl
          · exact hca (List.mem_cons_of_mem _ hx)
        have herase : (before ++ c :: a :: after).erase a = before ++ c :: after := by
          have hne : ¬ (c == a) = true := fun heq => hca (by simp [beq_iff_eq.mp heq])
          rw [List.erase_append_right _ hab, List.erase_cons_tail hne, List.erase_cons_head]
        show wp F (setNext c (t.mem a).next) _ t
        rw [setNext, wp_writeSlot (h.live_inUse hcmem)]
        refine ⟨?_, data_setNext _, ?_, rfl, rfl, rfl, rfl, rfl⟩
        · rw [herase]
          exact h.inUse.remove (nextOf_setNext_self _) fun x hx => nextOf_setNext_of_ne (hcb x hx) _
        · rw [herase]
          intro x hx
          exact nextOf_setNext_of_ne (fun heq => hx (by simp [heq])) _

/-- What `forget` leaves: the slot has moved from one list to the other. -/
structure Forgotten (t : LocoTable) (xs ys : List Addr) (a : Addr) (t' : LocoTable) : Prop where
  lists : Lists t' (xs.erase a) (a :: ys)
  data : ∀ b, (t'.mem b).data = (t.mem b).data
  maxLocos : t'.maxLocos = t.maxLocos

/-- **`forget` takes a slot out of use.** -/
theorem forget_spec (h : Lists t xs ys) (ha : a ∈ xs) :
    wp F (LocoSlot.forget a) (fun _ t' => Forgotten t xs ys a t') t := by
  rw [LocoSlot.forget, wp_bind]
  refine wp_mono (unlink_spec h ha) ?_
  rintro - u ⟨hinUse, hdata, hother, hlive, hfresh, hrecycler, hcount, hmax⟩
  have hua : u.live a = true := by rw [hlive]; exact h.live_inUse ha
  simp only [LocoSlot.recycle, CommandStation.setNext, wp_bind, wp_get, wp_modify, wp_writeSlot hua]
  have hperm : (xs.erase a ++ a :: ys).Perm (xs ++ ys) :=
    List.perm_middle.trans ((List.perm_cons_erase ha).symm.append_right ys)
  have hnot : a ∉ xs.erase a := fun hin => (List.Nodup.mem_erase_iff h.nodup_inUse).mp hin |>.1 rfl
  have hys : ∀ b ∈ ys, b ∉ xs.erase a ∧ b ≠ a := by
    intro b hb
    have hdisj := (List.nodup_append.mp h.nodup).2.2
    exact ⟨fun hin => hdisj b (List.mem_of_mem_erase hin) b hb rfl,
      fun heq => hdisj a ha b hb heq.symm⟩
  have hdata' : ∀ b, ((u.setNext a u.recycler).mem b).data = (t.mem b).data :=
    fun b => (data_setNext _ b).trans (hdata b)
  refine ⟨h.move hperm (fun b hb => List.mem_of_mem_erase hb) hdata' hlive hfresh hcount hmax
    ?_ ?_, hdata', hmax⟩
  · refine hinUse.congr fun b hb => ?_
    have hne : b ≠ a := fun heq => hnot (heq ▸ hb)
    exact nextOf_setNext_of_ne hne _
  · have hnext : (u.setNext a u.recycler).nextOf a = t.recycler :=
      (nextOf_setNext_self _).trans hrecycler
    refine ⟨rfl, ?_⟩
    show Links (u.setNext a u.recycler).nextOf ((u.setNext a u.recycler).nextOf a) ys
    rw [hnext]
    refine h.recycled.congr fun b hb => ?_
    rw [nextOf_setNext_of_ne (hys b hb).2]
    exact hother b (hys b hb).1

/-- One loop of `forgetAll`: the slots of the list are deleted, nothing else is written. -/
theorem wp_deleteAll {p : Option Addr} (h : Links t.nextOf p xs) (hnd : xs.Nodup)
    (hlive : ∀ a ∈ xs, t.live a = true) (hlen : xs.length ≤ t.fresh)
    {Q : Unit → LocoTable → Prop}
    (hQ : ∀ live, (∀ b, b ∉ xs → live b = t.live b) → Q () { t with live := live }) :
    wp F (LocoSlot.deleteAll p) Q t := by
  simp only [LocoSlot.deleteAll, follow, wp_bind, wp_get]
  -- `rest` are the slots still to be deleted
  refine wp_loop (fun rest p _ s => Links t.nextOf p rest ∧ rest.Nodup ∧ (∀ b ∈ rest, b ∈ xs) ∧
      ∃ live, s = { t with live := live } ∧ (∀ b ∈ rest, live b = true) ∧
      ∀ b, b ∉ xs → live b = t.live b) ?_ ?_ hlen
      ⟨h, hnd, fun b hb => hb, t.live, rfl, hlive, fun b _ => rfl⟩
  · rintro rest a _ s ⟨hlinks, hnd, hsub, live, rfl, hall, hout⟩
    cases rest with
    | nil => cases hlinks
    | cons c rest =>
      obtain ⟨hp, hlinks⟩ := hlinks
      cases hp
      have ha : live a = true := hall a List.mem_cons_self
      refine ⟨rest, rfl, ?_⟩
      rw [wp_bind, wp_readSlot ha]
      simp only [LocoSlot.delete, wp_bind, wp_get, ha, if_true, wp_set, wp_pure]
      refine ⟨hlinks, (List.nodup_cons.mp hnd).2, fun b hb => hsub b (List.mem_cons_of_mem _ hb),
        Function.update live a false, rfl, ?_, ?_⟩
      · intro b hb
        have hne : b ≠ a := fun heq => (List.nodup_cons.mp hnd).1 (heq ▸ hb)
        rw [Function.update_of_ne hne]
        exact hall b (List.mem_cons_of_mem _ hb)
      · intro b hb
        have hne : b ≠ a := fun heq => hb (heq ▸ hsub a List.mem_cons_self)
        rw [Function.update_of_ne hne]
        exact hout b hb
  · rintro rest _ s ⟨-, -, -, live, rfl, -, hout⟩
    exact hQ live hout

/-- **`forgetAll` leaves an empty table.** -/
theorem forgetAll_spec (h : Lists t xs ys) :
    wp F LocoSlot.forgetAll
      (fun _ t' => Lists t' [] [] ∧ t'.firstSlot = none ∧ t'.maxLocos = t.maxLocos) t := by
  have hlen : (xs ++ ys).length ≤ t.fresh := length_le_of_nodup_of_lt h.nodup h.fresh
  rw [List.length_append] at hlen
  have hdisj := (List.nodup_append.mp h.nodup).2.2
  simp only [LocoSlot.forgetAll, wp_bind, wp_get, wp_modify]
  refine wp_deleteAll h.inUse h.nodup_inUse (fun a => h.live_inUse) (by omega) ?_
  intro live hlive
  have hrecycled : Links { t with live := live, firstSlot := none }.nextOf t.recycler ys :=
    h.recycled
  refine wp_deleteAll hrecycled (List.nodup_append.mp h.nodup).2.1 ?_
    (by show ys.length ≤ t.fresh; omega) ?_
  · intro a ha
    show live a = true
    rw [hlive a fun hin => hdisj a hin a ha rfl]
    exact h.live a (List.mem_append_right _ ha)
  · intro live' _
    refine ⟨?_, rfl, rfl⟩
    constructor <;> simp [Links, Seg]

/-! ## Runs of the table -/

/-- The operations on the table. -/
inductive TableOp where
  | getSlot (locoId : UInt16) (autoCreate : Bool)
  | forget (slot : Addr)
  | forgetAll

namespace TableOp

def exec : TableOp → Slots (Option Addr)
  | getSlot locoId autoCreate => LocoSlot.getSlot locoId autoCreate
  | forget slot => do
    LocoSlot.forget slot
    pure none
  | forgetAll => do
    LocoSlot.forgetAll
    pure none

end TableOp

/-- The slot is on the list in use. -/
def InUse (t : LocoTable) (a : Addr) : Prop := ∃ xs, Links t.nextOf t.firstSlot xs ∧ a ∈ xs

/-- `forget` is called on a slot in the table. -/
def TableOp.Valid (t : LocoTable) : TableOp → Prop
  | forget slot => InUse t slot
  | _ => True

/-- The operation is on another loco than that of slot `b`. -/
def TableOp.Spares (t : LocoTable) (b : Addr) : TableOp → Prop
  | getSlot locoId _ => (t.mem b).loco ≠ locoId
  | forget slot => b ≠ slot
  | forgetAll => False

theorem lists_init (maxLocos : Nat) : Lists (LocoTable.init maxLocos) [] [] := by
  constructor <;> simp [LocoTable.init, Links, Seg]

theorem inUse_iff (h : Lists t xs ys) : InUse t a ↔ a ∈ xs := by
  constructor
  · rintro ⟨zs, hlinks, ha⟩
    rwa [hlinks.unique h.inUse] at ha
  · exact fun ha => ⟨xs, h.inUse, ha⟩

/-- **What one operation does to a well-formed table.** -/
theorem tableOp_spec (h : Lists t xs ys) (op : TableOp) (hop : op.Valid t) :
    wp F op.exec (fun _ t' => (∃ xs' ys', Lists t' xs' ys') ∧ t'.maxLocos = t.maxLocos ∧
      ∀ b ∈ xs, op.Spares t b → InUse t' b ∧ (t'.mem b).data = (t.mem b).data) t := by
  cases op with
  | getSlot locoId autoCreate =>
    have hkeep : ∀ b ∈ xs, InUse t b := fun b hb => (inUse_iff h).mpr hb
    refine wp_mono (getSlot_spec h locoId autoCreate) ?_
    intro r t' hr
    cases hr with
    | created _ _ _ _ ht' =>
      obtain ⟨ys', hlists⟩ := ht'.lists
      refine ⟨⟨_, ys', hlists⟩, ht'.maxLocos, ?_⟩
      intro b hb _
      refine ⟨(inUse_iff hlists).mpr (List.mem_cons_of_mem _ hb), ?_⟩
      rw [ht'.mem_inUse b hb]
    | _ => exact ⟨⟨xs, ys, h⟩, rfl, fun b hb _ => ⟨hkeep b hb, rfl⟩⟩
  | forget slot =>
    have hslot : slot ∈ xs := (inUse_iff h).mp hop
    simp only [TableOp.exec, wp_bind, wp_pure]
    refine wp_mono (forget_spec h hslot) ?_
    rintro - t' ⟨hlists, hdata, hmax⟩
    refine ⟨⟨_, _, hlists⟩, hmax, ?_⟩
    intro b hb hne
    exact ⟨(inUse_iff hlists).mpr ((List.mem_erase_of_ne hne).mpr hb), hdata b⟩
  | forgetAll =>
    simp only [TableOp.exec, wp_bind, wp_pure]
    refine wp_mono (forgetAll_spec h) ?_
    rintro - t' ⟨hlists, -, hmax⟩
    exact ⟨⟨_, _, hlists⟩, hmax, fun b _ hno => hno.elim⟩

/-- **The loco table is sound**: every run of the operations ends, and the lists it leaves are
finite, disjoint, of the counted length and within `MAX_LOCOS`, with different nonzero ids in use.
In such a table `getSlot` gives every loco its slot unless the id is 0 or the table is full, and an
operation on one loco leaves the data of all others alone. -/
theorem locoTable_sound (maxLocos : Nat) (ops : List TableOp)
    (hops : AlongProg TableOp.exec TableOp.Valid ops (LocoTable.init maxLocos)) :
    ∃ t xs ys, runProg TableOp.exec ops (LocoTable.init maxLocos) = .ok ((), t) ∧
      t.maxLocos = maxLocos ∧ Lists t xs ys ∧
      (∀ locoId, ∃ r t', LocoSlot.getSlot locoId true t = .ok (r, t') ∧
        (∀ a, r = some a → InUse t' a ∧ (t'.mem a).loco = locoId) ∧
        (r = none → locoId = 0 ∨ xs.length = maxLocos)) ∧
      ∀ op : TableOp, op.Valid t → ∃ r t', op.exec t = .ok (r, t') ∧
        ∀ b ∈ xs, op.Spares t b → InUse t' b ∧ (t'.mem b).data = (t.mem b).data := by
  have hinv : wp (fun _ => False) (runProg TableOp.exec ops)
      (fun _ t => (∃ xs ys, Lists t xs ys) ∧ t.maxLocos = maxLocos) (LocoTable.init maxLocos) := by
    refine wp_runProg _ ?_ ⟨⟨[], [], lists_init maxLocos⟩, rfl⟩ hops
    rintro s op hop ⟨⟨xs, ys, h⟩, hmax⟩
    refine wp_mono (tableOp_spec h op hop) ?_
    rintro - s' ⟨hlists, hmax', -⟩
    exact ⟨hlists, hmax'.trans hmax⟩
  obtain ⟨⟨⟩, t, hrun, ⟨xs, ys, h⟩, hmax⟩ := wp_iff_exists.mp hinv
  refine ⟨t, xs, ys, hrun, hmax, h, ?_, ?_⟩
  · intro locoId
    obtain ⟨r, t', hget, hr⟩ := wp_iff_exists.mp (getSlot_spec h locoId true)
    refine ⟨r, t', hget, ?_, ?_⟩
    · rintro a rfl
      cases hr with
      | found _ ha hid => exact ⟨(inUse_iff h).mpr ha, hid⟩
      | created _ _ _ _ ht' =>
        obtain ⟨ys', hlists⟩ := ht'.lists
        exact ⟨(inUse_iff hlists).mpr List.mem_cons_self, ht'.loco⟩
    · rintro rfl
      cases hr with
      | zero h0 => exact .inl h0
      | unknown _ _ hc => cases hc
      | full _ _ _ hfull => exact .inr (hfull.trans hmax)
  · intro op hop
    obtain ⟨r, t', hexec, -, -, hspared⟩ := wp_iff_exists.mp (tableOp_spec h op hop)
    exact ⟨r, t', hexec, hspared⟩

/-- Two locos, the second one forgotten and its slot used again. -/
theorem locoTable_sound_reuse :
    ∃ t xs ys, runProg TableOp.exec
        [.getSlot 3 true, .getSlot 5 true, .forget 1, .getSlot 7 true] (LocoTable.init 2) =
          .ok ((), t) ∧
      t.maxLocos = 2 ∧ Lists t xs ys ∧ t.slotCount = 2 := by
  have hops : AlongProg TableOp.exec TableOp.Valid
      [.getSlot 3 true, .getSlot 5 true, .forget 1, .getSlot 7 true] (LocoTable.init 2) :=
    ⟨trivial, trivial, ⟨[1, 0], ⟨rfl, rfl, rfl⟩, by decide⟩, trivial, trivial⟩
  obtain ⟨t, xs, ys, hrun, hmax, hlists, -⟩ := locoTable_sound 2 _ hops
  refine ⟨t, xs, ys, hrun, hmax, hlists, ?_⟩
  cases hrun
  rfl

end CommandStation
