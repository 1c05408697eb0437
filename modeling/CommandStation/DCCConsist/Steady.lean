import CommandStation.DCCConsist.Basic
import CommandStation.LocoSlot.Table
import CommandStation.Lib.Preserves

/-!
# Changes of the list are marked

The reminder loop keeps a pointer into the list of slots from one call to the next. It may do so as
long as `chainModified` is not set: all programs on the loco table are `Steady`, they leave the list
alone or set the mark.

The consist operations ask for slots and write to members that the lists do not use, and do nothing
else to the table. So they keep every relation that these two keep, which is what `SlotFrame` says.
-/

namespace CommandStation

open CommandStation.Lib LocoTable DCCConsist

/-- A relation between tables that requests for slots keep, and writes to members other than `next`
and `loco`. -/
class SlotFrame (R : LocoTable → LocoTable → Prop) : Prop extends
    Std.Refl R, IsTrans LocoTable R where
  write : ∀ (t : LocoTable) (a : Addr) (slot : LocoSlot), slot.next = (t.mem a).next →
    slot.loco = (t.mem a).loco → R t (t.write a slot)
  getSlot : ∀ locoId autoCreate, Preserves R (LocoSlot.getSlot locoId autoCreate)

/-- If the mark is not set, it was not set before and the list is the same. -/
def Steady (t t' : LocoTable) : Prop :=
  t'.chainModified = false → t.chainModified = false ∧ t'.firstSlot = t.firstSlot ∧
    t'.fresh = t.fresh ∧ t'.nextOf = t.nextOf

instance : Std.Refl Steady := ⟨fun _ h => ⟨h, rfl, rfl, rfl⟩⟩

instance : IsTrans LocoTable Steady := by
  refine ⟨fun t t' t'' h h' hm => ?_⟩
  obtain ⟨hm', hfirst', hfresh', hnext'⟩ := h' hm
  obtain ⟨hm, hfirst, hfresh, hnext⟩ := h hm'
  exact ⟨hm, hfirst'.trans hfirst, hfresh'.trans hfresh, hnext'.trans hnext⟩

theorem Steady.of_marked {t t' : LocoTable} (h : t'.chainModified = true) : Steady t t' := by
  intro hno
  rw [h] at hno
  cases hno

/-- The mark is not set: the slots in use are those from before. -/
theorem Steady.slots {t t' : LocoTable} (h : Steady t t') (hm : t'.chainModified = false) :
    t'.slots = t.slots := by
  obtain ⟨-, hfirst, hfresh, hnext⟩ := h hm
  have hwalk : ∀ n p, t'.walk n p = t.walk n p := by
    intro n p
    induction n generalizing p with
    | zero => rfl
    | succ n ih =>
      cases p with
      | none => rfl
      | some a => rw [walk, walk, hnext, ih]
  rw [LocoTable.slots, LocoTable.slots, hfirst, hfresh, hwalk]

/-! ## The loco table -/

section Reads

variable {R : LocoTable → LocoTable → Prop} [Std.Refl R] [IsTrans LocoTable R]

omit [IsTrans LocoTable R] in
theorem preserves_nonNull (p : Option Addr) : Preserves R (nonNull p) := by
  cases p with
  | none => exact preserves_throw _
  | some a => exact preserves_pure a

theorem preserves_readSlot (a : Addr) : Preserves R (readSlot a) :=
  preserves_bind preserves_get fun _ => preserves_ite (fun _ => preserves_pure _)
    fun _ => preserves_throw _

theorem preserves_follow {β : Type} {body : Addr → β → Slots (Option Addr × β)}
    (h : ∀ a b, Preserves R (body a b)) (p : Option Addr) (b : β) :
    Preserves R (follow body p b) :=
  preserves_bind preserves_get fun t => preserves_loop h t.fresh p b

theorem preserves_search (test : LocoSlot → Bool) : Preserves R (LocoSlot.search test) := by
  refine preserves_bind preserves_get fun t => preserves_follow (fun a _ => ?_) _ _
  exact preserves_bind (preserves_readSlot a) fun slot =>
    preserves_ite (fun _ => preserves_pure _) fun _ => preserves_pure _

end Reads

/-- A program that ends by setting the mark is steady whatever it does before. -/
theorem steady_of_marking {α : Type} {m : Slots α}
    (h : ∀ t, wp (fun _ => True) m (fun _ t' => t'.chainModified = true) t) : Preserves Steady m :=
  fun t => wp_mono (h t) fun _ _ => Steady.of_marked

theorem marks_prepare (a : Addr) (locoId : UInt16) (t : LocoTable) :
    wp (fun _ => True) (LocoSlot.prepare a locoId) (fun _ t' => t'.chainModified = true) t := by
  simp only [LocoSlot.prepare, writeSlot, wp_bind, wp_get]
  split
  · rfl
  · trivial

theorem steady_getSlot (locoId : UInt16) (autoCreate : Bool) :
    Preserves Steady (LocoSlot.getSlot locoId autoCreate) := by
  refine preserves_ite (fun _ => preserves_pure _) fun _ => ?_
  refine preserves_bind (preserves_search _) fun found => ?_
  refine preserves_ite (fun _ => preserves_pure _) fun _ => ?_
  refine preserves_ite (fun _ => preserves_pure _) fun _ => ?_
  refine preserves_bind preserves_get fun t => ?_
  cases t.recycler with
  | some a =>
    refine preserves_bind (preserves_readSlot a) fun slot => ?_
    refine steady_of_marking fun t => ?_
    simp only [wp_bind, wp_modify, wp_pure]
    exact marks_prepare a locoId _
  | none =>
    refine preserves_ite (fun _ => preserves_pure _) fun _ => ?_
    refine steady_of_marking fun t => ?_
    simp only [LocoSlot.new, wp_bind, wp_get, wp_set, wp_modify, wp_pure]
    exact marks_prepare _ locoId _

instance : SlotFrame Steady where
  write t a slot hnext _ := by
    intro hm
    refine ⟨hm, rfl, rfl, ?_⟩
    funext b
    by_cases hb : b = a
    · rw [hb, nextOf, mem_write_self, hnext, nextOf]
    · rw [nextOf, mem_write_of_ne hb, nextOf]
  getSlot := steady_getSlot

/-! ## Consists -/

section Consists

variable {R : LocoTable → LocoTable → Prop} [SlotFrame R]

/-- Members other than `next` and `loco` may be written. -/
theorem frame_writeSlot (a : Addr) {f : LocoSlot → LocoSlot}
    (hnext : ∀ slot, (f slot).next = slot.next) (hloco : ∀ slot, (f slot).loco = slot.loco) :
    Preserves R (writeSlot a f) := by
  refine preserves_get_bind fun t => ?_
  split
  · exact SlotFrame.write t a _ (hnext _) (hloco _)
  · trivial

theorem frame_unchain (p : Option Addr) : Preserves R (unchain p) := by
  refine preserves_follow (fun a _ => ?_) _ _
  refine preserves_bind (preserves_readSlot a) fun slot => ?_
  refine preserves_bind (frame_writeSlot a (fun _ => rfl) fun _ => rfl) fun _ => ?_
  refine preserves_bind (frame_writeSlot a (fun _ => rfl) fun _ => rfl) fun _ => ?_
  refine preserves_bind (frame_writeSlot a (fun _ => rfl) fun _ => rfl) fun _ => ?_
  exact preserves_pure _

theorem frame_deleteAnyConsist (locoid : Int16) :
    Preserves R (deleteAnyConsist locoid) := by
  refine preserves_bind (SlotFrame.getSlot _ _) fun slot => ?_
  cases slot with
  | none => exact preserves_pure _
  | some a => exact preserves_bind (preserves_readSlot a) fun slot => frame_unchain _

theorem frame_listConsists : Preserves R listConsists := by
  have hchain : ∀ p, Preserves R (listChain p) := fun p =>
    preserves_follow (fun a out => preserves_bind (preserves_readSlot a) fun _ => preserves_pure _)
      _ _
  refine preserves_bind preserves_get fun t => preserves_follow (fun a out => ?_) _ _
  refine preserves_bind (preserves_readSlot a) fun slot => preserves_ite (fun _ => ?_) fun _ => ?_
  · exact preserves_bind (hchain _) fun locos => preserves_pure _
  · exact preserves_pure _

theorem frame_findConsisted (ps : List Int16) : Preserves R (findConsisted ps) := by
  induction ps with
  | nil => exact preserves_pure _
  | cons p rest ih =>
    refine preserves_bind (SlotFrame.getSlot _ _) fun slot => ?_
    cases slot with
    | none => exact ih
    | some a =>
      exact preserves_bind (preserves_readSlot a) fun slot =>
        preserves_ite (fun _ => preserves_pure _) fun _ => ih

theorem frame_chainFollowers (lead prev : Addr) (ps : List Int16) :
    Preserves R (chainFollowers lead prev ps) := by
  induction ps generalizing prev with
  | nil => exact preserves_pure _
  | cons p rest ih =>
    refine preserves_bind (SlotFrame.getSlot _ _) fun slot => ?_
    refine preserves_bind (preserves_nonNull slot) fun slot => ?_
    refine preserves_bind (frame_writeSlot slot (fun _ => rfl) fun _ => rfl) fun _ => ?_
    refine preserves_bind (frame_writeSlot slot (fun _ => rfl) fun _ => rfl) fun _ => ?_
    exact preserves_bind (frame_writeSlot prev (fun _ => rfl) fun _ => rfl) fun _ => ih slot

/-- The command for a consist keeps what all the operations on slots keep. -/
theorem frame_parse (ps : List Int16) : Preserves R (parse ps) := by
  cases ps with
  | nil => exact preserves_bind frame_listConsists fun out => preserves_pure _
  | cons p rest =>
    rw [parse]
    cases checkLocoIds (p :: rest) with
    | some complaint => exact preserves_pure _
    | none =>
      have hkill : Preserves R (killConsistOf p) := by
        refine preserves_bind (SlotFrame.getSlot _ _) fun slot => ?_
        cases slot with
        | none => exact preserves_pure _
        | some a =>
          exact preserves_bind (preserves_readSlot a) fun slot =>
            preserves_when fun _ => frame_deleteAnyConsist p
      have hbuild : Preserves R (build p rest) := by
        refine preserves_bind (SlotFrame.getSlot _ _) fun slot => ?_
        refine preserves_bind (preserves_nonNull slot) fun slot => ?_
        exact preserves_bind (frame_writeSlot slot (fun _ => rfl) fun _ => rfl) fun _ =>
          frame_chainFollowers slot slot rest
      refine preserves_bind hkill fun _ => preserves_ite (fun _ => preserves_pure _) fun _ => ?_
      refine preserves_bind (frame_findConsisted _) fun consisted => ?_
      cases consisted with
      | some q => exact preserves_pure _
      | none => exact preserves_bind hbuild fun _ => preserves_pure _

/-- So does adding one loco to a consist. -/
theorem frame_addLocoToConsist (consistId locoId : UInt16) (reversed : Bool) :
    Preserves R (addLocoToConsist consistId locoId reversed) := by
  have hwalk : ∀ (field : LocoSlot → Option Addr) (a : Addr),
      Preserves R (follow (fun b _ => do
        let slot ← readSlot b
        pure (field slot, b)) (some a) a) := fun field a =>
    preserves_follow (fun b _ => preserves_bind (preserves_readSlot b) fun _ => preserves_pure _)
      _ _
  refine preserves_ite (fun _ => preserves_pure _) fun _ => ?_
  refine preserves_ite (fun _ => preserves_pure _) fun _ => ?_
  refine preserves_ite (fun _ => preserves_pure _) fun _ => ?_
  refine preserves_bind (SlotFrame.getSlot _ _) fun consistSlot => ?_
  cases consistSlot with
  | none => exact preserves_pure _
  | some a =>
    refine preserves_bind (hwalk LocoSlot.consistLead a) fun leadSlot => ?_
    refine preserves_bind (hwalk LocoSlot.consistNext leadSlot) fun tailSlot => ?_
    refine preserves_bind (SlotFrame.getSlot _ _) fun addSlot => ?_
    cases addSlot with
    | none => exact preserves_pure _
    | some b =>
      refine preserves_bind (preserves_readSlot b) fun slot => ?_
      refine preserves_ite (fun _ => preserves_pure _) fun _ => ?_
      refine preserves_bind (frame_writeSlot b (fun _ => rfl) fun _ => rfl) fun _ => ?_
      refine preserves_bind (preserves_when fun _ =>
        frame_writeSlot b (fun _ => rfl) fun _ => rfl) fun _ => ?_
      refine preserves_bind (preserves_when fun _ =>
        frame_writeSlot tailSlot (fun _ => rfl) fun _ => rfl) fun _ => ?_
      exact preserves_pure _

end Consists

end CommandStation
