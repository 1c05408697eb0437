import CommandStation.DCCConsist.Basic
import CommandStation.LocoSlot.Table
import CommandStation.Lib.Forest

/-!
# The consists are a forest of depth one

`Consists t xs busy` is the invariant of the consist links between the slots `xs` in use. While
`parse` builds a consist, its lead may be marked reversed before it has a follower: `busy` is that
one slot, and `none` between the operations.
-/

namespace CommandStation

open CommandStation.Lib LocoTable DCCConsist

namespace LocoTable

def leadOf (t : LocoTable) (a : Addr) : Option Addr := (t.mem a).consistLead

def consistNextOf (t : LocoTable) (a : Addr) : Option Addr := (t.mem a).consistNext

/-- The slot has no links to a consist. -/
def Loose (t : LocoTable) (a : Addr) : Prop := t.leadOf a = none ∧ t.consistNextOf a = none

/-- The root of the tree a slot is in: its lead, or the slot itself. -/
def rootOf (t : LocoTable) (a : Addr) : Addr := (t.leadOf a).getD a

structure Consists (t : LocoTable) (xs : List Addr) (busy : Option Addr) : Prop where
  forest : Forest xs t.leadOf t.consistNextOf
  reverse : ∀ a ∈ xs, some a ≠ busy → t.Loose a → (t.mem a).consistReverse = false
  ids : ∀ a ∈ xs, ¬ t.Loose a → (t.mem a).loco ≤ highestLocoId

end LocoTable

/-- A slot without its links to a consist. -/
def LocoSlot.unchained (slot : LocoSlot) : LocoSlot :=
  { slot with consistLead := none, consistNext := none, consistReverse := false }

variable {F : Fault → Prop} {t : LocoTable} {xs ys zs : List Addr} {a b l : Addr}
  {busy : Option Addr}

theorem not_consisted_iff {slot : LocoSlot} :
    (slot.isConsistLead || slot.isConsistFollower) = false ↔
      slot.consistLead = none ∧ slot.consistNext = none := by
  unfold LocoSlot.isConsistLead LocoSlot.isConsistFollower
  cases slot.consistLead <;> cases slot.consistNext <;> simp

namespace LocoTable

theorem consists_nil : Consists t [] busy := ⟨forest_nil, by simp, by simp⟩

/-- A slot that `getSlot` creates has no links. -/
theorem Consists.created (h : Consists t xs busy) {locoId : UInt16} {t' : LocoTable}
    (ht' : Created t xs locoId a t') : Consists t' (a :: xs) busy ∧ t'.Loose a := by
  obtain ⟨old, hslot⟩ := ht'.slot
  have hmem := ht'.mem_inUse
  have hlead : ∀ b ∈ xs, t'.leadOf b = t.leadOf b :=
    fun b hb => congrArg LocoSlot.consistLead (hmem b hb)
  have hnext : ∀ b ∈ xs, t'.consistNextOf b = t.consistNextOf b :=
    fun b hb => congrArg LocoSlot.consistNext (hmem b hb)
  have hloose : t'.Loose a := by
    rw [Loose, leadOf, consistNextOf, hslot]
    exact ⟨rfl, rfl⟩
  refine ⟨⟨h.forest.create ht'.not_mem hloose.1 hloose.2 hlead hnext, ?_, ?_⟩, hloose⟩
  · intro b hb hbusy hl
    rcases List.mem_cons.mp hb with rfl | hb
    · rw [hslot]; rfl
    · rw [Loose, hlead b hb, hnext b hb] at hl
      rw [hmem b hb]
      exact h.reverse b hb hbusy hl
  · intro b hb hl
    rcases List.mem_cons.mp hb with rfl | hb
    · exact absurd hloose hl
    · rw [Loose, hlead b hb, hnext b hb] at hl
      rw [hmem b hb]
      exact h.ids b hb hl

/-- A slot without links is forgotten. -/
theorem Consists.forgotten (h : Consists t xs busy) (hnd : xs.Nodup) (ha : a ∈ xs)
    (hloose : t.Loose a) {t' : LocoTable} (hdata : ∀ b, (t'.mem b).data = (t.mem b).data) :
    Consists t' (xs.erase a) busy := by
  have hlead : ∀ b, t'.leadOf b = t.leadOf b := by
    intro b
    have hb := congrArg LocoSlot.consistLead (hdata b)
    exact hb
  have hnext : ∀ b, t'.consistNextOf b = t.consistNextOf b := by
    intro b
    have hb := congrArg LocoSlot.consistNext (hdata b)
    exact hb
  have hreverse : ∀ b, (t'.mem b).consistReverse = (t.mem b).consistReverse := by
    intro b
    have hb := congrArg LocoSlot.consistReverse (hdata b)
    exact hb
  refine ⟨h.forest.remove ha hloose.1 hloose.2 ?_ (fun b _ => hlead b) (fun b _ => hnext b), ?_, ?_⟩
  · intro b
    rw [hnd.mem_erase_iff]
    exact and_comm
  · intro b hb hbusy hl
    rw [Loose, hlead, hnext] at hl
    rw [hreverse]
    exact h.reverse b (List.mem_of_mem_erase hb) hbusy hl
  · intro b hb hl
    rw [Loose, hlead, hnext] at hl
    rw [loco_of_data (hdata b)]
    exact h.ids b (List.mem_of_mem_erase hb) hl

/-- A chain is not longer than the list of slots in use. -/
theorem chain_length (h : Lists t xs ys)
    (hzs : Forest.Chain xs t.leadOf t.consistNextOf l zs) : (l :: zs).length ≤ t.fresh :=
  length_le_of_nodup_of_lt hzs.nodup_cons fun b hb =>
    h.fresh b (List.mem_append_left _ (hzs.subset b hb))

end LocoTable

/-! ## Deleting -/

/-- What `unchain` does to the slots `cs` of a chain; all other slots and statics stay. -/
structure Unchained (t : LocoTable) (cs : List Addr) (t' : LocoTable) : Prop where
  chain : ∀ b ∈ cs, t'.mem b = (t.mem b).unchained
  other : ∀ b, b ∉ cs → t'.mem b = t.mem b
  statics : t' = { t with mem := t'.mem }

/-- The walk along a consist takes each of its locos out of it. -/
theorem wp_unchain {p : Option Addr} {cs : List Addr} (h : Links t.consistNextOf p cs)
    (hnd : cs.Nodup) (hlive : ∀ b ∈ cs, t.live b = true) (hlen : cs.length ≤ t.fresh) :
    wp F (unchain p) (fun _ t' => Unchained t cs t') t := by
  simp only [unchain, follow, wp_bind, wp_get]
  -- `rest` are the slots of the chain that still have their links
  refine wp_loop (fun rest p _ s => Links t.consistNextOf p rest ∧ rest.Nodup ∧
      (∀ b ∈ rest, b ∈ cs ∧ s.mem b = t.mem b) ∧
      (∀ b ∈ cs, b ∉ rest → s.mem b = (t.mem b).unchained) ∧
      (∀ b, b ∉ cs → s.mem b = t.mem b) ∧ s = { t with mem := s.mem }) ?_ ?_ hlen
      ⟨h, hnd, fun b hb => ⟨hb, rfl⟩, fun b hb hno => absurd hb hno, fun b _ => rfl, rfl⟩
  · rintro rest c _ s ⟨hlinks, hnd, hrest, hdone, hother, hs⟩
    cases rest with
    | nil => cases hlinks
    | cons d rest =>
      obtain ⟨hp, hlinks⟩ := hlinks
      cases hp
      obtain ⟨hc, hmem⟩ := hrest c List.mem_cons_self
      have hcl : s.live c = true := by rw [hs]; exact hlive c hc
      have hne : ∀ b ∈ rest, b ≠ c := fun b hb heq => (List.nodup_cons.mp hnd).1 (heq ▸ hb)
      refine ⟨rest, rfl, ?_⟩
      simp only [setConsistLead, setConsistNext, setConsistReverse, wp_bind, wp_readSlot hcl,
        wp_writeSlot hcl, wp_pure]
      rw [wp_writeSlot (by exact hcl), wp_writeSlot (by exact hcl)]
      simp only [mem_write_self, write_write]
      refine ⟨?_, (List.nodup_cons.mp hnd).2, ?_, ?_, ?_, ?_⟩
      · rw [hmem]; exact hlinks
      · intro b hb
        rw [mem_write_of_ne (hne b hb)]
        exact hrest b (List.mem_cons_of_mem c hb)
      · intro b hb hno
        by_cases hbc : b = c
        · rw [hbc, mem_write_self, hmem]; rfl
        · rw [mem_write_of_ne hbc]
          exact hdone b hb fun hin => (List.mem_cons.mp hin).elim hbc hno
      · intro b hb
        have hbc : b ≠ c := fun heq => hb (heq ▸ hc)
        rw [mem_write_of_ne hbc]
        exact hother b hb
      · rw [hs]; rfl
  · rintro rest _ s ⟨hlinks, -, -, hdone, hother, hs⟩
    cases rest with
    | nil => exact ⟨fun b hb => hdone b hb (by simp), hother, hs⟩
    | cons d rest => cases hlinks.1

/-- Links of all other kinds survive when a consist is deleted. -/
theorem LocoTable.Lists.unchained {cs : List Addr} {t' : LocoTable} (h : Lists t xs ys)
    (ht' : Unchained t cs t') : Lists t' xs ys := by
  obtain ⟨hchain, hother, hs⟩ := ht'
  have hnext : ∀ b, t'.nextOf b = t.nextOf b := by
    intro b
    by_cases hb : b ∈ cs
    · rw [nextOf, hchain b hb]; rfl
    · rw [nextOf, hother b hb]; rfl
  have hloco : ∀ b, (t'.mem b).loco = (t.mem b).loco := by
    intro b
    by_cases hb : b ∈ cs
    · rw [hchain b hb]; rfl
    · rw [hother b hb]
  rw [hs]
  refine ⟨h.inUse.congr fun b _ => hnext b, h.recycled.congr fun b _ => hnext b, h.nodup, h.live,
    h.fresh, h.count, h.bound, ?_, ?_⟩
  · simp only [hloco]
    exact h.ids
  · intro b hb
    show (t'.mem b).loco ≠ 0
    rw [hloco]
    exact h.nonzero b hb

/-- The consists that are left when one is deleted. -/
theorem LocoTable.Consists.unchained {t' : LocoTable} (h : Consists t xs none)
    (hzs : Forest.Chain xs t.leadOf t.consistNextOf l zs) (ht' : Unchained t (l :: zs) t') :
    Consists t' xs none := by
  obtain ⟨hchain, hother, -⟩ := ht'
  have hlead : ∀ b ∈ l :: zs, t'.leadOf b = none := fun b hb => by rw [leadOf, hchain b hb]; rfl
  have hnext : ∀ b ∈ l :: zs, t'.consistNextOf b = none := fun b hb => by
    rw [consistNextOf, hchain b hb]; rfl
  have hlead' : ∀ b, b ∉ l :: zs → t'.leadOf b = t.leadOf b := fun b hb => by
    rw [leadOf, hother b hb]; rfl
  have hnext' : ∀ b, b ∉ l :: zs → t'.consistNextOf b = t.consistNextOf b := fun b hb => by
    rw [consistNextOf, hother b hb]; rfl
  refine ⟨h.forest.dissolve hzs hlead hnext hlead' hnext', ?_, ?_⟩
  · intro b hb hbusy hl
    by_cases hbz : b ∈ l :: zs
    · rw [hchain b hbz]; rfl
    · rw [Loose, hlead' b hbz, hnext' b hbz] at hl
      rw [hother b hbz]
      exact h.reverse b hb hbusy hl
  · intro b hb hl
    by_cases hbz : b ∈ l :: zs
    · exact absurd ⟨hlead b hbz, hnext b hbz⟩ hl
    · rw [Loose, hlead' b hbz, hnext' b hbz] at hl
      rw [hother b hbz]
      exact h.ids b hb hl

/-- The members that have nothing to do with consists. -/
theorem Unchained.unchained_eq {cs : List Addr} {t' : LocoTable} (h : Unchained t cs t')
    (b : Addr) : (t'.mem b).unchained = (t.mem b).unchained := by
  by_cases hb : b ∈ cs
  · rw [h.chain b hb]; rfl
  · rw [h.other b hb]

/-- The slots of a consist are those with the same root. -/
theorem rootOf_eq_iff (hzs : Forest.Chain xs t.leadOf t.consistNextOf l zs) (hb : b ∈ xs) :
    t.rootOf b = l ↔ b ∈ l :: zs := by
  rw [List.mem_cons, hzs.visits b, rootOf]
  cases hlead : t.leadOf b with
  | none => simp
  | some k =>
    simp only [Option.getD_some, Option.some.injEq]
    constructor
    · exact fun hk => .inr ⟨hb, hk⟩
    · rintro (rfl | ⟨-, hk⟩)
      · rw [hzs.root] at hlead
        cases hlead
      · exact hk

/-- What `deleteAnyConsist` leaves: the consist of the loco is dissolved, all others are kept. -/
structure ConsistDeleted (t : LocoTable) (xs ys : List Addr) (locoId : UInt16) (t' : LocoTable) :
    Prop where
  lists : Lists t' xs ys
  consists : Consists t' xs none
  loose : ∀ b ∈ xs, t'.Loose b ↔
    t.Loose b ∨ ∃ a ∈ xs, (t.mem a).loco = locoId ∧ t.rootOf a = t.rootOf b
  members : ∀ b, (t'.mem b).unchained = (t.mem b).unchained
  statics : t' = { t with mem := t'.mem }

/-- The chain of root `l` is deleted because loco slot `a` is on it. -/
theorem consistDeleted_of_unchained (h : Lists t xs ys) (hc : Consists t xs none)
    (hzs : Forest.Chain xs t.leadOf t.consistNextOf l zs) (ha : a ∈ l :: zs) {t' : LocoTable}
    (ht' : Unchained t (l :: zs) t') : ConsistDeleted t xs ys (t.mem a).loco t' := by
  refine ⟨h.unchained ht', hc.unchained hzs ht', ?_, ht'.unchained_eq, ht'.statics⟩
  have hroot : t.rootOf a = l := (rootOf_eq_iff hzs (hzs.subset a ha)).mpr ha
  intro b hb
  by_cases hbz : b ∈ l :: zs
  · have hloose : t'.Loose b := by
      rw [Loose, leadOf, consistNextOf, ht'.chain b hbz]
      exact ⟨rfl, rfl⟩
    simp only [hloose, true_iff]
    exact .inr ⟨a, hzs.subset a ha, rfl, hroot.trans ((rootOf_eq_iff hzs hb).mpr hbz).symm⟩
  · rw [Loose, leadOf, consistNextOf, ht'.other b hbz]
    refine ⟨.inl, ?_⟩
    rintro (hloose | ⟨c, hcx, hid, hcb⟩)
    · exact hloose
    · rw [h.loco_inj hcx (hzs.subset a ha) hid, hroot] at hcb
      exact absurd ((rootOf_eq_iff hzs hb).mp hcb.symm) hbz

/-- There is nothing to delete. -/
theorem consistDeleted_refl (h : Lists t xs ys) (hc : Consists t xs none) {locoId : UInt16}
    (hloose : ∀ a ∈ xs, (t.mem a).loco = locoId → t.Loose a) :
    ConsistDeleted t xs ys locoId t := by
  refine ⟨h, hc, fun b hb => ⟨.inl, ?_⟩, fun b => rfl, rfl⟩
  rintro (hb' | ⟨a, ha, hid, hroot⟩)
  · exact hb'
  · have hla := hloose a ha hid
    have hno := hc.forest.no_follower ha hla.1 hla.2 b hb
    rw [rootOf, hla.1, Option.getD_none, rootOf] at hroot
    cases hlead : t.leadOf b with
    | none =>
      rw [hlead, Option.getD_none] at hroot
      exact hroot ▸ hla
    | some k =>
      rw [hlead, Option.getD_some] at hroot
      exact absurd (hroot ▸ hlead) hno

/-- The slots of the consist that a loco is in; none if it is in no consist. -/
def ConsistOf (t : LocoTable) (xs : List Addr) (locoId : UInt16) (cs : List Addr) : Prop :=
  (cs = [] ∧ ∀ a ∈ xs, (t.mem a).loco = locoId → t.Loose a) ∨
  ∃ l zs, Forest.Chain xs t.leadOf t.consistNextOf l zs ∧ cs = l :: zs ∧
    ∃ a ∈ cs, (t.mem a).loco = locoId

theorem unchained_nil {t' : LocoTable} : Unchained t [] t' ↔ t' = t := by
  constructor
  · rintro ⟨-, hother, hstatics⟩
    rw [hstatics, funext fun b => hother b (by simp)]
  · rintro rfl
    exact ⟨by simp, fun _ _ => rfl, rfl⟩

/-- `deleteAnyConsist` takes the links of the slots in the consist of the loco. -/
theorem deleteAnyConsist_unchained (h : Lists t xs ys) (hc : Consists t xs none) (locoid : Int16) :
    wp F (deleteAnyConsist locoid)
      (fun _ t' => ∃ cs, ConsistOf t xs (locoIdOf locoid) cs ∧ Unchained t cs t') t := by
  -- the chain of root `l`, one of whose slots is that of the loco
  have hdelete : ∀ {l zs a}, Forest.Chain xs t.leadOf t.consistNextOf l zs → a ∈ l :: zs →
      (t.mem a).loco = locoIdOf locoid → wp F (unchain (some l))
        (fun _ t' => ∃ cs, ConsistOf t xs (locoIdOf locoid) cs ∧ Unchained t cs t') t := by
    intro l zs a hzs ha hid
    refine wp_mono (wp_unchain hzs.links_cons hzs.nodup_cons
      (fun b hb => h.live_inUse (hzs.subset b hb)) (chain_length h hzs)) ?_
    intro _ t' ht'
    exact ⟨l :: zs, .inr ⟨l, zs, hzs, rfl, a, ha, hid⟩, ht'⟩
  have hnone : (∀ a ∈ xs, (t.mem a).loco = locoIdOf locoid → t.Loose a) →
      ∃ cs, ConsistOf t xs (locoIdOf locoid) cs ∧ Unchained t cs t :=
    fun hloose => ⟨[], .inl ⟨rfl, hloose⟩, unchained_nil.mpr rfl⟩
  simp only [deleteAnyConsist, wp_bind]
  refine wp_findSlot h (fun hno => hnone fun a ha hid => absurd hid (hno a ha)) fun a ha hloco => ?_
  simp only [wp_bind]
  rw [wp_readSlot (h.live_inUse ha)]
  by_cases hlead : (t.mem a).isConsistLead = true
  · rw [if_pos hlead]
    have hroot : t.leadOf a = none := by
      simp only [LocoSlot.isConsistLead, Bool.and_eq_true, Option.isNone_iff_eq_none] at hlead
      exact hlead.2
    obtain ⟨zs, hzs⟩ := hc.forest.exists_chain ha hroot
    exact hdelete hzs List.mem_cons_self hloco
  · rw [if_neg hlead]
    cases hl : (t.mem a).consistLead with
    | some l =>
      obtain ⟨hmem, hroot⟩ := hc.forest.root a ha l hl
      obtain ⟨zs, hzs⟩ := hc.forest.exists_chain hmem hroot
      exact hdelete hzs (List.mem_cons_of_mem l ((hzs.visits a).mpr ⟨ha, hl⟩)) hloco
    | none =>
      -- not in a consist, nothing to do
      have hnext : (t.mem a).consistNext = none := by
        simpa [LocoSlot.isConsistLead, hl] using hlead
      simp only [unchain, follow, wp_bind, wp_get, wp_loop_none]
      refine hnone fun b hb hbid => ?_
      rw [h.loco_inj hb ha (hbid.trans hloco.symm)]
      exact ⟨hl, hnext⟩

/-- **`deleteAnyConsist` dissolves the whole consist of a loco**, be it lead or follower. -/
theorem deleteAnyConsist_spec (h : Lists t xs ys) (hc : Consists t xs none) (locoid : Int16) :
    wp F (deleteAnyConsist locoid)
      (fun _ t' => ConsistDeleted t xs ys (locoIdOf locoid) t') t := by
  refine wp_mono (deleteAnyConsist_unchained h hc locoid) ?_
  rintro _ t' ⟨cs, ⟨rfl, hloose⟩ | ⟨l, zs, hzs, rfl, a, ha, hid⟩, ht'⟩
  · rw [unchained_nil.mp ht']
    exact consistDeleted_refl h hc hloose
  · exact hid ▸ consistDeleted_of_unchained h hc hzs ha ht'

/-! ## Chaining in -/

/-- Slot `a` is chained in behind `tail` as a follower of `l`. -/
def LocoTable.chained (t : LocoTable) (l tail a : Addr) (reversed : Bool) : LocoTable :=
  (t.write a { t.mem a with consistLead := some l, consistReverse := reversed }).write tail
    { t.mem tail with consistNext := some a }

section Chained

variable {tail : Addr} {ws : List Addr} {reversed : Bool}

theorem LocoTable.mem_chained_self (h : a ≠ tail) :
    (t.chained l tail a reversed).mem a =
      { t.mem a with consistLead := some l, consistReverse := reversed } := by
  rw [chained, mem_write_of_ne h, mem_write_self]

theorem LocoTable.mem_chained_tail :
    (t.chained l tail a reversed).mem tail = { t.mem tail with consistNext := some a } := by
  rw [chained, mem_write_self]

theorem LocoTable.mem_chained_of_ne (ha : b ≠ a) (htail : b ≠ tail) :
    (t.chained l tail a reversed).mem b = t.mem b := by
  rw [chained, mem_write_of_ne htail, mem_write_of_ne ha]

/-- Chaining in keeps the loco id of every slot. -/
theorem LocoTable.loco_chained (h : a ≠ tail) (b : Addr) :
    ((t.chained l tail a reversed).mem b).loco = (t.mem b).loco := by
  by_cases hb : b = tail
  · rw [hb, mem_chained_tail]
  · by_cases hba : b = a
    · rw [hba, mem_chained_self h]
    · rw [mem_chained_of_ne hba hb]

theorem LocoTable.Lists.chained (h : Lists t xs ys) (hne : a ≠ tail) :
    Lists (t.chained l tail a reversed) xs ys := by
  have hfirst : Lists (t.write a { t.mem a with consistLead := some l, consistReverse := reversed })
      xs ys := h.write rfl rfl
  have htail : _ = t.mem tail := mem_write_of_ne hne.symm
    { t.mem a with consistLead := some l, consistReverse := reversed }
  exact hfirst.write (by rw [htail]) (by rw [htail])

/-- **A slot without links joins the consist of root `l`.** -/
theorem LocoTable.Consists.chained (h : Consists t xs busy) (reversed : Bool)
    (hbusy : busy = none ∨ busy = some l)
    (hzs : Forest.Chain xs t.leadOf t.consistNextOf l zs) (htail : l :: zs = ws ++ [tail])
    (ha : a ∈ xs) (hloose : t.Loose a) (hal : a ≠ l) (hida : (t.mem a).loco ≤ highestLocoId)
    (hidl : (t.mem l).loco ≤ highestLocoId) :
    a ≠ tail ∧ Consists (t.chained l tail a reversed) xs none ∧
    Forest.Chain xs (t.chained l tail a reversed).leadOf
      (t.chained l tail a reversed).consistNextOf l (zs ++ [a]) := by
  have htailMem : tail ∈ l :: zs := by rw [htail]; simp
  have hne : a ≠ tail := by
    rintro rfl
    rcases List.mem_cons.mp htailMem with heq | hin
    · exact hal heq
    · have hlead := ((hzs.visits a).mp hin).2
      rw [hloose.1] at hlead
      cases hlead
  have hleadA : (t.chained l tail a reversed).leadOf a = some l := by
    rw [leadOf, mem_chained_self hne]
  have hlead : ∀ b, b ≠ a → (t.chained l tail a reversed).leadOf b = t.leadOf b := by
    intro b hb
    by_cases hbt : b = tail
    · rw [hbt, leadOf, mem_chained_tail]; rfl
    · rw [leadOf, mem_chained_of_ne hb hbt]; rfl
  have hnextT : (t.chained l tail a reversed).consistNextOf tail = some a := by
    rw [consistNextOf, mem_chained_tail]
  have hnext : ∀ b, b ≠ tail →
      (t.chained l tail a reversed).consistNextOf b = t.consistNextOf b := by
    intro b hb
    by_cases hba : b = a
    · rw [hba, consistNextOf, mem_chained_self hne]; rfl
    · rw [consistNextOf, mem_chained_of_ne hba hb]; rfl
  obtain ⟨hforest, hchain⟩ := h.forest.append hzs htail ha hloose.1 hloose.2 hal hleadA hlead
    hnextT hnext
  -- a slot that is loose now was loose before, and is neither `a` nor the tail
  have hold : ∀ b, (t.chained l tail a reversed).Loose b → b ≠ a ∧ b ≠ tail ∧ t.Loose b := by
    rintro b ⟨hbl, hbn⟩
    have hba : b ≠ a := by rintro rfl; rw [hleadA] at hbl; cases hbl
    have hbt : b ≠ tail := by rintro rfl; rw [hnextT] at hbn; cases hbn
    exact ⟨hba, hbt, (hlead b hba).symm.trans hbl, (hnext b hbt).symm.trans hbn⟩
  refine ⟨hne, ⟨hforest, ?_, ?_⟩, hchain⟩
  · intro b hb _ hbl
    obtain ⟨hba, hbt, hbloose⟩ := hold b hbl
    rw [mem_chained_of_ne hba hbt]
    refine h.reverse b hb ?_ hbloose
    -- the root is not loose any more
    rcases hbusy with rfl | rfl
    · exact fun hno => by cases hno
    · intro heq
      cases heq
      have hnil := hchain.nil_iff.mpr hbl.2
      simp at hnil
  · intro b hb hbl
    rw [loco_chained hne]
    by_cases hba : b = a
    · rw [hba]; exact hida
    · by_cases hbt : b = tail
      · rcases List.mem_cons.mp htailMem with htl | htz
        · rw [hbt, htl]; exact hidl
        · refine h.ids b hb fun hbloose => ?_
          rw [hbt, Loose, ((hzs.visits tail).mp htz).2] at hbloose
          cases hbloose.1
      · refine h.ids b hb fun hbloose => hbl ?_
        exact ⟨(hlead b hba).trans hbloose.1, (hnext b hbt).trans hbloose.2⟩

end Chained

end CommandStation
