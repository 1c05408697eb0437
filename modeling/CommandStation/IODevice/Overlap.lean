import CommandStation.IODevice.Basic
import CommandStation.Lib.Run

/-!
# Devices that do not overlap

`checkNoOverlap` compares ranges of vpins, each given by its first and its last vpin. The range of the new
device is that of the low byte of its number of pins, and both ends are VPINs, which wrap around. So the
check is right as long as all the vpins that a device owns lie in the range that stands for it: when it is
created, and when it is compared to later ones.
-/

namespace CommandStation

open CommandStation.Lib

namespace IODevice

variable {platform : Platform} {chain : List IODevice} {dev dev' : IODevice} {q r : Request}
variable {vpin : UInt16}

/-- No vpin is owned by both. -/
def Apart (platform : Platform) (dev dev' : IODevice) : Prop :=
  ∀ vpin, ¬ (dev.owns platform vpin ∧ dev'.owns platform vpin)

/-- The vpins of a device lie in the range to which later devices are compared. -/
def Covered (platform : Platform) (dev : IODevice) : Prop :=
  ∀ vpin, dev.owns platform vpin → 0 < dev.nPins ∧ vpin ≤ lastPin dev.firstVpin dev.nPins

/-- They lie in the range that is checked when the device is created, too. -/
structure Request.Fits (platform : Platform) (q : Request) : Prop where
  checked : ∀ vpin, (q.device platform).owns platform vpin →
    0 < q.checkedPins ∧ vpin ≤ lastPin q.firstVpin q.checkedPins.toNat
  covered : Covered platform (q.device platform)

/-- A device of a chain and the devices that were added to it. -/
structure AllApart (platform : Platform) (chain new : List IODevice) : Prop where
  fromChain : ∀ dev ∈ new, ∀ dev' ∈ chain, Apart platform dev dev'
  pairwise : new.Pairwise (Apart platform)

theorem Apart.symm (h : Apart platform dev dev') : Apart platform dev' dev :=
  fun vpin hboth => h vpin ⟨hboth.2, hboth.1⟩

theorem owns_iff : dev.owns platform vpin ↔
    dev.firstVpin ≤ vpin ∧ vpin.toNat < platform.addVpin dev.firstVpin dev.nPins := by
  simp [owns]

/-! ## The check -/

/-- A device that passes the check owns none of the vpins of a device in the chain. -/
theorem apart_of_check (hq : q.Fits platform) (hdev : Covered platform dev) (hmem : dev ∈ chain)
    (hcheck : checkNoOverlap chain q.firstVpin q.checkedPins q.i2cAddress) :
    Apart platform (q.device platform) dev := by
  rintro vpin ⟨hnew, hold⟩
  obtain ⟨hpins, hlast⟩ := hq.checked vpin hnew
  obtain ⟨hpins', hlast'⟩ := hdev vpin hold
  have hfirst : q.firstVpin ≤ vpin := (owns_iff.mp hnew).1
  have hfirst' : dev.firstVpin ≤ vpin := (owns_iff.mp hold).1
  have hone := List.all_eq_true.mp hcheck dev hmem
  rw [noOverlap, if_pos ⟨hpins, hpins'⟩, Bool.and_eq_true] at hone
  have hranges := of_decide_eq_true hone.1
  rcases hranges with hbelow | habove
  · exact UInt16.lt_irrefl _ (UInt16.lt_of_lt_of_le hbelow (UInt16.le_trans hfirst hlast'))
  · exact UInt16.lt_irrefl _ (UInt16.lt_of_lt_of_le habove (UInt16.le_trans hfirst' hlast))

/-- One call of `create` adds at most one device, which owns no vpin of another. -/
theorem create_cases (hq : q.Fits platform) (hchain : ∀ dev ∈ chain, Covered platform dev) :
    q.create platform chain = chain ∨
    (q.create platform chain = chain ++ [q.device platform] ∧
      ∀ dev ∈ chain, Apart platform (q.device platform) dev) := by
  unfold Request.create
  by_cases hcheck : checkNoOverlap chain q.firstVpin q.checkedPins q.i2cAddress
  · right
    rw [if_pos hcheck]
    exact ⟨rfl, fun dev hmem => apart_of_check hq (hchain dev hmem) hmem hcheck⟩
  · left
    rw [if_neg hcheck]

/-- The devices of a list of requests are apart from each other and from those that were there. -/
theorem run_create (hchain : ∀ dev ∈ chain, Covered platform dev) {requests : List Request}
    (hfits : ∀ q ∈ requests, q.Fits platform) :
    ∃ new, run (fun chain q => q.create platform chain) chain requests = chain ++ new ∧
      AllApart platform chain new := by
  induction requests generalizing chain with
  | nil => exact ⟨[], by simp, fun dev hdev => absurd hdev List.not_mem_nil, List.Pairwise.nil⟩
  | cons q requests ih =>
    have hq := hfits q List.mem_cons_self
    have htail : ∀ q ∈ requests, q.Fits platform := fun r hr => hfits r (List.mem_cons_of_mem _ hr)
    rw [run_cons]
    rcases create_cases hq hchain with hsame | ⟨hadd, hapart⟩
    · rw [hsame]
      exact ih hchain htail
    · rw [hadd]
      have hchain' : ∀ dev ∈ chain ++ [q.device platform], Covered platform dev := by
        intro dev hdev
        rw [List.mem_append, List.mem_singleton] at hdev
        exact hdev.elim (hchain dev) (fun heq => heq ▸ hq.covered)
      obtain ⟨new, hnew, hall⟩ := ih hchain' htail
      refine ⟨q.device platform :: new, by rw [hnew, List.append_assoc]; rfl, fun dev hdev dev' hdev' => ?_,
        List.pairwise_cons.mpr ⟨fun dev hdev => ?_, hall.pairwise⟩⟩
      · rcases List.mem_cons.mp hdev with rfl | hdev
        · exact hapart dev' hdev'
        · exact hall.fromChain dev hdev dev' (List.mem_append_left _ hdev')
      · exact (hall.fromChain dev hdev _ (List.mem_append_right _ (List.mem_singleton_self _))).symm

/-! ## Requests that do not fit -/

/-- A device with a single vpin. -/
def single (vpin : UInt16) : Request := ⟨.exioExpander, vpin, 1, ⟨I2C.muxNone, I2C.subBusNone, 0⟩⟩

theorem single_device : (single vpin).device platform = ⟨vpin, 1, ⟨I2C.muxNone, I2C.subBusNone, 0⟩⟩ := by
  cases platform <;> rfl

theorem lastPin_one (vpin : UInt16) : lastPin vpin 1 = vpin := by
  have hlt := vpin.toNat_lt
  apply UInt16.toNat_inj.mp
  rw [lastPin, toVpin, UInt16.toNat_ofNat']
  omega

/-- It owns its vpin if any device can. -/
theorem single_owns (h : dev.owns platform vpin) : ((single vpin).device platform).owns platform vpin := by
  have hlt := vpin.toNat_lt
  have hlimit := (owns_iff.mp h).2
  rw [single_device, owns_iff]
  refine ⟨UInt16.le_refl _, ?_⟩
  cases platform <;> simp only [Platform.addVpin] at hlimit ⊢ <;> omega

theorem single_owns_eq {v : UInt16} (h : ((single vpin).device platform).owns platform v) :
    v = vpin := by
  have hlt := vpin.toNat_lt
  have hlt' := v.toNat_lt
  rw [single_device, owns_iff, UInt16.le_iff_toNat_le] at h
  obtain ⟨hfirst, hlimit⟩ := h
  apply UInt16.toNat_inj.mp
  cases platform <;> simp only [Platform.addVpin] at hlimit hfirst <;> omega

theorem single_covered (vpin : UInt16) : Covered platform ((single vpin).device platform) := by
  intro v hv
  have heq : v = vpin := single_owns_eq hv
  rw [single_device, lastPin_one, heq]
  exact ⟨Int.zero_lt_one, UInt16.le_refl _⟩

theorem single_fits (vpin : UInt16) : (single vpin).Fits platform := by
  refine ⟨fun v hv => ?_, single_covered vpin⟩
  have hlast := (single_covered vpin v hv).2
  rw [single_device] at hlast
  exact ⟨(by decide : (0 : UInt8) < 1), hlast⟩

/-- It has no I2C address, so only the vpins matter. -/
theorem noOverlap_single (first : UInt16) (nPins : UInt8) (address : I2C.I2CAddress)
    (h : ¬ (0 < nPins ∧ vpin ≤ lastPin first nPins.toNat)) :
    noOverlap first nPins address ((single vpin).device platform) := by
  rw [single_device, noOverlap, Bool.and_eq_true]
  constructor
  · by_cases hpins : 0 < nPins
    · have hbelow : lastPin first nPins.toNat < vpin := by
        rw [← UInt16.not_le]
        exact fun hle => h ⟨hpins, hle⟩
      rw [if_pos ⟨hpins, Int.zero_lt_one⟩]
      exact decide_eq_true (.inr hbelow)
    · rw [if_neg (fun hboth => hpins hboth.1)]
  · by_cases hzero : address.deviceAddress = 0
    · simp [hzero]
    · simp [I2C.I2CAddress.same, Ne.symm hzero]

theorem checkNoOverlap_single (h : ¬ (0 < dev.nPins ∧ vpin ≤ lastPin dev.firstVpin dev.nPins)) :
    checkNoOverlap [dev] vpin 1 ⟨I2C.muxNone, I2C.subBusNone, 0⟩ := by
  rw [checkNoOverlap, List.all_cons, List.all_nil, Bool.and_true, noOverlap, Bool.and_eq_true]
  constructor
  · by_cases hpins : 0 < dev.nPins
    · have hbelow : lastPin dev.firstVpin dev.nPins < vpin := by
        rw [← UInt16.not_le]
        exact fun hle => h ⟨hpins, hle⟩
      rw [if_pos ⟨by decide, hpins⟩]
      exact decide_eq_true (.inl hbelow)
    · rw [if_neg (fun hboth => hpins hboth.2)]
  · simp

/-- A vpin that was not checked may belong to a device already. -/
theorem overlap_of_not_checked (howns : (q.device platform).owns platform vpin)
    (h : ¬ (0 < q.checkedPins ∧ vpin ≤ lastPin q.firstVpin q.checkedPins.toNat)) :
    let chain := [(single vpin).device platform]
    q.create platform chain = chain ++ [q.device platform] ∧
      ¬ Apart platform (q.device platform) ((single vpin).device platform) := by
  intro chain
  constructor
  · have hcheck : checkNoOverlap chain q.firstVpin q.checkedPins q.i2cAddress := by
      rw [checkNoOverlap, List.all_cons, List.all_nil, Bool.and_true]
      exact noOverlap_single _ _ _ h
    rw [Request.create, if_pos hcheck]
    rfl
  · exact fun hapart => hapart vpin ⟨howns, single_owns howns⟩

/-- A vpin outside the range of its device may be given to another one. -/
theorem overlap_of_not_covered (howns : (q.device platform).owns platform vpin)
    (h : ¬ (0 < (q.device platform).nPins ∧
      vpin ≤ lastPin (q.device platform).firstVpin (q.device platform).nPins)) :
    (single vpin).create platform (q.create platform []) =
        [q.device platform, (single vpin).device platform] ∧
      ¬ Apart platform (q.device platform) ((single vpin).device platform) := by
  constructor
  · have hfirst : q.create platform [] = [q.device platform] := by
      have hcheck : checkNoOverlap [] q.firstVpin q.checkedPins q.i2cAddress := rfl
      rw [Request.create, if_pos hcheck]
      rfl
    rw [hfirst, Request.create]
    exact if_pos (checkNoOverlap_single h)
  · exact fun hapart => hapart vpin ⟨howns, single_owns howns⟩

/-! ## Ranges -/

theorem checkedPins_toNat (q : Request) : (q.checkedPins.toNat : Int) = q.nPins % 256 := by
  rw [Request.checkedPins, UInt8.toNat_ofNat']
  omega

theorem toNat_toVpin (n : Int) : ((toVpin n).toNat : Int) = n % 65536 := by
  rw [toVpin, UInt16.toNat_ofNat']
  omega

/-- The last vpin of a range that does not go beyond the last vpin of all. -/
theorem toNat_lastPin {first : UInt16} {n : Int} (hpos : 0 < n) (hend : first.toNat + n ≤ 65536) :
    ((lastPin first n).toNat : Int) = first.toNat + n - 1 := by
  rw [lastPin, toNat_toVpin]
  omega

/-- Enough for a request to fit: the pins that are kept are no more than the low byte, and with as many as
that the range ends with the last vpin of all or before. -/
theorem fits_of_le (hkept : 0 ≤ q.driver.keptPins platform q.nPins)
    (hlow : q.driver.keptPins platform q.nPins ≤ q.nPins % 256)
    (hend : q.firstVpin.toNat + q.nPins % 256 ≤ 65536) : q.Fits platform := by
  have hbyte := checkedPins_toNat q
  have hrange : ∀ (n : Int), 0 < n → q.firstVpin.toNat + n ≤ 65536 →
      ∀ vpin : UInt16, (vpin.toNat : Int) < q.firstVpin.toNat + n → vpin ≤ lastPin q.firstVpin n := by
    intro n hpos hle vpin hlt
    have hlast := toNat_lastPin hpos hle
    rw [UInt16.le_iff_toNat_le]
    omega
  have howned : ∀ vpin, (q.device platform).owns platform vpin →
      0 < q.driver.keptPins platform q.nPins ∧
      (vpin.toNat : Int) < q.firstVpin.toNat + q.driver.keptPins platform q.nPins := by
    intro vpin howns
    have hfirst := q.firstVpin.toNat_lt
    obtain ⟨hle, hlt⟩ := owns_iff.mp howns
    rw [UInt16.le_iff_toNat_le] at hle
    change q.firstVpin.toNat ≤ vpin.toNat at hle
    change _ < platform.addVpin q.firstVpin (q.driver.keptPins platform q.nPins) at hlt
    cases platform <;> simp only [Platform.addVpin] at hlt <;> omega
  constructor
  · intro vpin howns
    obtain ⟨hpos, hlt⟩ := howned vpin howns
    refine ⟨?_, hrange _ (by omega) (by omega) vpin (by omega)⟩
    rw [UInt8.lt_iff_toNat_lt]
    show 0 < q.checkedPins.toNat
    omega
  · intro vpin howns
    obtain ⟨hpos, hlt⟩ := howned vpin howns
    exact ⟨hpos, hrange _ hpos (by omega) vpin hlt⟩

/-- Where an `int` has 32 bits, this is what it takes. -/
theorem fits_iff_le (hplatform : platform = .arm ∨ platform = .esp32)
    (hpos : 0 < q.driver.keptPins platform q.nPins) (hlt : q.driver.keptPins platform q.nPins < 65536) :
    q.Fits platform ↔
      q.driver.keptPins platform q.nPins ≤ q.nPins % 256 ∧ q.firstVpin.toNat + q.nPins % 256 ≤ 65536 := by
  constructor
  · intro hfits
    have hbyte := checkedPins_toNat q
    have hfirst := q.firstVpin.toNat_lt
    have hadd : platform.addVpin q.firstVpin (q.driver.keptPins platform q.nPins) =
        q.firstVpin.toNat + q.driver.keptPins platform q.nPins := by
      rcases hplatform with rfl | rfl <;> rfl
    -- the last vpin that the device owns
    let final := toVpin (min (q.firstVpin.toNat + q.driver.keptPins platform q.nPins - 1) 65535)
    have hfinal : (final.toNat : Int) =
        min (q.firstVpin.toNat + q.driver.keptPins platform q.nPins - 1) 65535 := by
      rw [toNat_toVpin]
      omega
    have howns : (q.device platform).owns platform final := by
      rw [owns_iff, UInt16.le_iff_toNat_le]
      show q.firstVpin.toNat ≤ final.toNat ∧
        (final.toNat : Int) < platform.addVpin q.firstVpin (q.driver.keptPins platform q.nPins)
      rw [hadd]
      omega
    obtain ⟨hsome, hlast⟩ := hfits.checked final howns
    obtain ⟨-, hcover⟩ := hfits.covered final howns
    change final ≤ lastPin q.firstVpin (q.driver.keptPins platform q.nPins) at hcover
    rw [UInt8.lt_iff_toNat_lt, UInt8.toNat_zero] at hsome
    rw [UInt16.le_iff_toNat_le] at hlast hcover
    have hchecked := toNat_toVpin (q.firstVpin.toNat + q.checkedPins.toNat - 1)
    have hkept := toNat_toVpin (q.firstVpin.toNat + q.driver.keptPins platform q.nPins - 1)
    rw [lastPin] at hlast hcover
    omega
  · rintro ⟨hlow, hend⟩
    exact fits_of_le (by omega) hlow hend

/-- **Devices do not overlap** as long as each request fits, and only then. Whatever devices there are and
whatever is created before and after, those that are created own no vpin of the others. A request that
does not fit may create a device that does. -/
theorem fits_iff_apart (platform : Platform) (q : Request) :
    q.Fits platform ↔
      ∀ (chain : List IODevice) (before after : List Request),
        (∀ dev ∈ chain, Covered platform dev) → (∀ r ∈ before ++ after, r.Fits platform) →
        ∃ new, run (fun chain r => r.create platform chain) chain (before ++ q :: after) = chain ++ new ∧
          AllApart platform chain new := by
  constructor
  · intro hq chain before after hchain hothers
    refine run_create hchain fun r hr => ?_
    rw [List.mem_append, List.mem_cons] at hr
    rcases hr with hr | rfl | hr
    · exact hothers r (List.mem_append_left _ hr)
    · exact hq
    · exact hothers r (List.mem_append_right _ hr)
  · intro h
    constructor
    · intro vpin howns
      by_contra hcheck
      obtain ⟨hadd, hoverlap⟩ := overlap_of_not_checked howns hcheck
      obtain ⟨new, hnew, hall⟩ := h [(single vpin).device platform] [] []
        (fun dev hdev => List.mem_singleton.mp hdev ▸ single_covered vpin) (fun r hr => by cases hr)
      rw [List.nil_append, run_cons, run_nil, hadd] at hnew
      obtain rfl := List.append_cancel_left hnew
      exact hoverlap (hall.fromChain _ (List.mem_singleton_self _) _ (List.mem_singleton_self _))
    · intro vpin howns
      by_contra hcover
      obtain ⟨hadd, hoverlap⟩ := overlap_of_not_covered howns hcover
      obtain ⟨new, hnew, hall⟩ := h [] [] [single vpin] (fun dev hdev => by cases hdev)
        (fun r hr => by rw [List.nil_append, List.mem_singleton] at hr; exact hr ▸ single_fits vpin)
      rw [List.nil_append, run_cons, run_cons, run_nil, hadd, List.nil_append] at hnew
      obtain rfl := hnew
      exact hoverlap (List.pairwise_cons.mp hall.pairwise |>.1 _ (List.mem_singleton_self _))

/-- 256 pins are 0 in a byte, and nothing is checked: both devices own vpin 800. -/
theorem exioExpander_overlap :
    let first : Request := ⟨.exioExpander, 800, 16, ⟨I2C.muxNone, I2C.subBusNone, 0x65⟩⟩
    let second : Request := ⟨.exioExpander, 800, 256, ⟨I2C.muxNone, I2C.subBusNone, 0x66⟩⟩
    let chain := second.create .avr (first.create .avr [])
    chain = [first.device .avr, second.device .avr] ∧
      (first.device .avr).owns .avr 800 ∧ (second.device .avr).owns .avr 800 ∧
      ¬ chain.Pairwise (Apart .avr) := by
  intro first second chain
  have hchain : chain = [first.device .avr, second.device .avr] := by decide +kernel
  have hboth : (first.device .avr).owns .avr 800 ∧ (second.device .avr).owns .avr 800 := by decide +kernel
  refine ⟨hchain, hboth.1, hboth.2, fun hpairwise => ?_⟩
  rw [hchain] at hpairwise
  exact (List.pairwise_cons.mp hpairwise).1 _ (List.mem_singleton_self _) 800 hboth

end IODevice

end CommandStation
