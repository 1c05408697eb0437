import CommandStation.DCC.Run

/-!
# The momentum settings

A momentum is set in milliseconds and kept in a byte, in units of `MOMENTUM_FACTOR` milliseconds;
the byte 255 in a slot says that the loco uses the default. For a loco the range is checked before
the byte is written, for the default it is not.
-/

namespace CommandStation

open CommandStation.Lib LocoTable DCCConsist

variable {F : Fault → Prop} {s s' : Station} {xs ys : List Addr} {a : Addr}
  {accelerating decelerating millis : Int16} {locoId : Int}

namespace DCC

/-- The acceleration momentum of a loco, before it is reduced according to the gap. -/
def momentumA (s : Station) (slot : LocoSlot) : UInt8 :=
  if slot.momentumA = momentumUseDefault then s.defaultMomentumA else slot.momentumA

/-- The deceleration momentum of a loco. -/
def momentumD (s : Station) (slot : LocoSlot) : UInt8 :=
  if slot.momentumD = momentumUseDefault then s.defaultMomentumD else slot.momentumD

/-- `getMomentum` works with these two. -/
theorem getMomentum_eq (s : Station) (slot : LocoSlot) : getMomentum s slot =
    if slot.speedCode &&& 0x7F < slot.targetSpeed &&& 0x7F then
      if momentumA s slot = 0 ∨ s.linearAcceleration then momentumA s slot
      else if momentumA s slot < ((slot.targetSpeed &&& 0x7F) - (slot.speedCode &&& 0x7F)) / 8 then 0
      else momentumA s slot - ((slot.targetSpeed &&& 0x7F) - (slot.speedCode &&& 0x7F)) / 8
    else momentumD s slot := rfl

/-- The momentum is the requested one but for rounding down to a multiple of the factor. -/
def Rounds (momentum : UInt8) (millis : Int16) : Prop :=
  momentumFactor * momentum.toNat ≤ millis.toInt ∧
    millis.toInt ≤ momentumFactor * momentum.toNat + (momentumFactor - 1)

instance (momentum : UInt8) : Decidable (Rounds momentum millis) :=
  inferInstanceAs (Decidable (_ ∧ _))

/-- The momentum is what was asked for; -1 asks for the default. -/
def Obeys (momentum default : UInt8) (millis : Int16) : Prop :=
  if millis = -1 then momentum = default else Rounds momentum millis

/-- What a call of `setMomentum` should leave: a rejected call changes nothing, and an accepted one
sets the momentum of the loco, or the default for the id 0. -/
structure MomentumSet (s : Station) (locoId : Int) (accelerating decelerating : Int16) (r : Bool)
    (s' : Station) : Prop where
  rejected : r = false → s' = s
  default : r = true → locoId = 0 →
    Rounds s'.defaultMomentumA accelerating ∧ Rounds s'.defaultMomentumD decelerating
  known : r = true → locoId ≠ 0 →
    ∃ a ∈ s'.locos.slots, (s'.locos.mem a).loco = UInt16.ofInt locoId
  loco : r = true → locoId ≠ 0 → ∀ a ∈ s'.locos.slots,
    (s'.locos.mem a).loco = UInt16.ofInt locoId →
      Obeys (momentumA s' (s'.locos.mem a)) s'.defaultMomentumA accelerating ∧
      Obeys (momentumD s' (s'.locos.mem a)) s'.defaultMomentumD decelerating

/-! ## One value -/

theorem tdiv_momentumFactor (h : 0 ≤ millis.toInt) :
    millis.toInt.tdiv momentumFactor = millis.toInt / momentumFactor :=
  Int.tdiv_eq_ediv_of_nonneg h

theorem toInt_nonneg (h : ¬ millis < 0) : 0 ≤ millis.toInt := by
  rw [Int16.lt_iff_toInt_lt] at h
  simpa using h

/-- A byte keeps a momentum below 1792 ms, and no other. -/
theorem rounds_ofInt_iff (h : 0 ≤ millis.toInt) :
    Rounds (UInt8.ofInt (millis.toInt.tdiv momentumFactor)) millis ↔ millis.toInt < 1792 := by
  rw [tdiv_momentumFactor h]
  have hbyte : ((UInt8.ofInt (millis.toInt / momentumFactor)).toNat : Int) =
      millis.toInt / momentumFactor % 256 := by
    simp [UInt8.ofInt, UInt8.toNat_ofNat']
    omega
  have hrounds : Rounds (UInt8.ofInt (millis.toInt / momentumFactor)) millis ↔
      7 * (millis.toInt / 7 % 256) ≤ millis.toInt ∧
        millis.toInt ≤ 7 * (millis.toInt / 7 % 256) + 6 := by
    rw [Rounds, hbyte]
    exact Iff.rfl
  rw [hrounds]
  have hlt : millis.toInt < 32768 := millis.toInt_lt
  omega

/-- What is stored in a slot is the momentum that was asked for. -/
theorem obeys_momentumByte {default : UInt8} (hmin : ¬ millis < -1)
    (hmax : ¬ momentumTooLong millis) :
    Obeys (if momentumByte millis = momentumUseDefault then default else momentumByte millis)
      default millis := by
  unfold Obeys
  by_cases hneg : millis = -1
  · subst hneg
    simp [momentumByte]
  · have hnonneg : ¬ millis < 0 := by
      intro hlt
      apply hneg
      rw [Int16.lt_iff_toInt_lt] at hmin hlt
      apply Int16.toInt_inj.mp
      simp at hmin hlt ⊢
      omega
    have hpos := toInt_nonneg hnonneg
    rw [momentumTooLong, tdiv_momentumFactor hpos] at hmax
    have hmax' : ¬ (255 : Int) ≤ millis.toInt / 7 := hmax
    have hrounds := (rounds_ofInt_iff hpos).mpr (by omega)
    have hbyte : momentumByte millis = UInt8.ofInt (millis.toInt.tdiv momentumFactor) :=
      if_neg hnonneg
    have hother : momentumByte millis ≠ momentumUseDefault := by
      intro heq
      rw [← hbyte, heq] at hrounds
      have hlow : 7 * ((255 : UInt8).toNat : Int) ≤ millis.toInt := hrounds.1
      simp at hlow
      omega
    rw [if_neg hneg, if_neg hother, hbyte]
    exact hrounds

/-! ## The call -/

/-- An accepted call for a loco. -/
theorem momentumSet_granted {xs' ys' : List Addr}
    (hg : Granted s xs (UInt16.ofInt locoId) a s' xs' ys') (hid : locoId ≠ 0)
    (hmin : ¬ (accelerating < -1 ∨ decelerating < -1))
    (hmax : ¬ (momentumTooLong accelerating ∨ momentumTooLong decelerating)) :
    MomentumSet s locoId accelerating decelerating true { s' with
      locos := s'.locos.write a (withMomentum accelerating decelerating (s'.locos.mem a)) } := by
  have hret : Retuned s'.locos (s'.locos.write a
      (withMomentum accelerating decelerating (s'.locos.mem a))) := Retuned.write _ a _ rfl
  have hlists := hret.lists hg.lists
  rw [not_or] at hmin hmax
  refine ⟨nofun, fun _ h0 => absurd h0 hid, fun _ _ => ⟨a, ?_, ?_⟩, ?_⟩
  · rw [hlists.slots_eq]
    exact hg.mem
  · rw [hret.loco]
    exact hg.loco
  · intro _ _ b hb hloco
    rw [hlists.slots_eq] at hb
    have hba : b = a := by
      rw [hret.loco] at hloco
      exact hg.lists.loco_inj hb hg.mem (hloco.trans hg.loco.symm)
    subst hba
    rw [momentumA, momentumD, mem_write_self]
    exact ⟨obeys_momentumByte hmin.1 hmax.1, obeys_momentumByte hmin.2 hmax.2⟩

/-- **The momentum is set as requested** but for a default that is too long for a byte: when it is
the default that is set, both values have to be below 1792 ms. -/
theorem momentumSet_iff (hs : Reachable s) :
    wp (fun _ => False) (setMomentum locoId accelerating decelerating)
        (MomentumSet s locoId accelerating decelerating) s ↔
      (locoId = 0 → ¬ (accelerating < 0 ∨ decelerating < 0) →
        accelerating < 1792 ∧ decelerating < 1792) := by
  have hrejected : MomentumSet s locoId accelerating decelerating false s :=
    ⟨fun _ => rfl, nofun, nofun, nofun⟩
  unfold setMomentum
  by_cases hneg : locoId < 0
  · rw [if_pos hneg, wp_pure]
    exact ⟨fun _ h0 => by omega, fun _ => hrejected⟩
  rw [if_neg hneg]
  by_cases hzero : locoId = 0
  · rw [if_pos hzero]
    by_cases hbad : accelerating < 0 ∨ decelerating < 0
    · rw [if_pos hbad, wp_pure]
      exact ⟨fun _ _ hgood => absurd hbad hgood, fun _ => hrejected⟩
    -- the defaults are written
    rw [if_neg hbad]
    simp only [wp_bind, wp_modify, wp_pure]
    have hA := rounds_ofInt_iff (toInt_nonneg fun h => hbad (.inl h))
    have hD := rounds_ofInt_iff (toInt_nonneg fun h => hbad (.inr h))
    have hltA : accelerating < 1792 ↔ accelerating.toInt < 1792 := Int16.lt_iff_toInt_lt
    have hltD : decelerating < 1792 ↔ decelerating.toInt < 1792 := Int16.lt_iff_toInt_lt
    rw [hltA, hltD]
    constructor
    · intro h _ _
      obtain ⟨hroundsA, hroundsD⟩ := h.default rfl hzero
      exact ⟨hA.mp hroundsA, hD.mp hroundsD⟩
    · intro h
      obtain ⟨hshortA, hshortD⟩ := h hzero hbad
      exact ⟨nofun, fun _ _ => ⟨hA.mpr hshortA, hD.mpr hshortD⟩,
        fun _ h0 => absurd hzero h0, fun _ h0 => absurd hzero h0⟩
  · rw [if_neg hzero]
    refine ⟨fun _ h0 => absurd h0 hzero, fun _ => ?_⟩
    split
    · exact hrejected
    · next hmin =>
      split
      · exact hrejected
      · next hmax =>
        obtain ⟨xs, ys, h, hc⟩ := hs.sound.table
        rw [wp_bind]
        refine wp_askSlot h hc (UInt16.ofInt locoId) (fun _ => hrejected) ?_
        intro a s' xs' ys' hg
        simp only [wp_bind, wp_pure]
        rw [wp_write (hg.lists.live_inUse hg.mem)]
        exact momentumSet_granted hg hzero hmin hmax

/-- Loco 3 gets 100 ms to accelerate and the default to brake. -/
theorem momentumSet_iff_loco :
    wp (fun _ => False) (setMomentum 3 100 (-1))
      (MomentumSet (Station.init .avr 50 []) 3 100 (-1)) (Station.init .avr 50 []) :=
  (momentumSet_iff ⟨.avr, 50, [], [], rfl⟩).mpr fun h0 => by cases h0

/-- A default of 2000 ms is accepted and becomes 203 ms. -/
theorem momentum_default_wraps :
    ¬ wp (fun _ => False) (setMomentum 0 2000 2000)
      (MomentumSet (Station.init .avr 50 []) 0 2000 2000) (Station.init .avr 50 []) := by
  intro h
  have hrounds : Rounds 29 2000 := (MomentumSet.default h rfl rfl).1
  revert hrounds
  decide

end DCC

end CommandStation
