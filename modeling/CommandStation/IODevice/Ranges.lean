import CommandStation.IODevice.Basic

/-!
# Ranges of vpins

`writeRange` and `writeAnalogueRange` write a value to some vpins. They ask the device that owns the first
one to write as many as it can, and go on at the vpin that the driver returns; a vpin without a device is
skipped. The loop ends when the count has come to zero.

By default a driver writes one vpin. The NeoPixel driver writes as many as it has pins, whichever of them
is the first. What is written is seen as a list of writes; both methods are one loop, for values of any
type.
-/

namespace CommandStation

namespace IODevice

/-- `count -= vpin - vpinBefore`: on the AVR boards the difference of two VPINs is an `unsigned int`. -/
def subVpins (platform : Platform) (count : Int) (vpin vpinBefore : UInt16) : Int :=
  match platform with
  | .uno | .avr => (count - (vpin - vpinBefore).toNat).bmod 65536
  | .arm | .esp32 => count - (vpin.toNat - vpinBefore.toNat)

/-- A device with its `_writeRange` or `_writeAnalogueRange`: the vpin that it returns for a vpin and a
count, and the vpins that it has written. -/
structure RangeDevice where
  device : IODevice
  writeRange : UInt16 → Int → UInt16 × List UInt16

/-- Some vpins from the first one on. -/
def pinsFrom : UInt16 → Nat → List UInt16
  | _, 0 => []
  | vpin, n + 1 => vpin :: pinsFrom (vpin + 1) n

/-- `IODevice::_writeRange`: just write to one vpin. -/
def defaultRange (device : IODevice) : RangeDevice := ⟨device, fun vpin _ => (vpin + 1, [vpin])⟩

/-- `NeoPixel::_writeRange` of a device that has not failed. -/
def neoPixelRange (device : IODevice) : RangeDevice where
  device := device
  writeRange vpin count :=
    let nextVpin := toVpin (vpin.toNat + if device.nPins < count then device.nPins else count)
    (nextVpin, pinsFrom vpin (nextVpin.toNat - vpin.toNat))

/-- A vpin that was written through a device. -/
structure RangeWrite (α : Type) where
  device : IODevice
  vpin : UInt16
  value : α
  deriving DecidableEq, Repr

variable {α : Type} (platform : Platform) (chain : List RangeDevice)

/-- `findDevice` -/
def findRange (vpin : UInt16) : Option RangeDevice := chain.find? fun d => d.device.owns platform vpin

/-- The loop of `IODevice::writeRange` and `IODevice::writeAnalogueRange`, and what was written when it has
ended. -/
def writeRange (value : α) : Nat → UInt16 → Int → Option (List (RangeWrite α))
  | 0, _, _ => none
  | fuel + 1, vpin, count =>
    if count = 0 then some []
    else
      match findRange platform chain vpin with
      | some dev =>
        -- driver will return next vpin it cant handle
        let (next, pins) := dev.writeRange vpin count
        (writeRange value fuel next (subVpins platform count next vpin)).map fun rest =>
          (pins.map fun pin => ⟨dev.device, pin, value⟩) ++ rest
      | none =>
        -- skip a vpin if no device handler
        writeRange value fuel (vpin + 1) (count - 1)

/-! ## What is asked for -/

/-- A driver returns a vpin behind the first one, and no later than the end of the range if that lies
behind it; it has written the vpins before. For a count that is not negative, no others are asked for. -/
def Contract (count : Int) (dev : RangeDevice) : Prop :=
  ∀ vpin r, dev.device.owns platform vpin → (0 < r ∨ r < 0 ∧ count < 0) →
    vpin < (dev.writeRange vpin r).1 ∧
    (0 < r → ((dev.writeRange vpin r).1.toNat : Int) ≤ vpin.toNat + r) ∧
    (dev.writeRange vpin r).2 = pinsFrom vpin ((dev.writeRange vpin r).1.toNat - vpin.toNat)

/-- Some device owns the vpin. -/
def Owned (vpin : UInt16) : Prop := ∃ dev ∈ chain, dev.device.owns platform vpin

instance (vpin : UInt16) : Decidable (Owned platform chain vpin) :=
  inferInstanceAs (Decidable (∃ dev ∈ chain, _))

/-- The loop ends, and has written the value to exactly the vpins of the range that some device owns, each
once and through a device that owns it. -/
def WritesRange (vpin : UInt16) (count : Int) (value : α) : Prop :=
  ∃ fuel log, writeRange platform chain value fuel vpin count = some log ∧
    log.map RangeWrite.vpin = (pinsFrom vpin count.toNat).filter (fun pin => Owned platform chain pin) ∧
    ∀ w ∈ log, w.device.owns platform w.vpin ∧ w.value = value

/-- The range is a sequence of vpins without a device and of pieces, each of which belongs to the device
that it is left to. -/
inductive Handled : UInt16 → Nat → Prop where
  | nil (vpin : UInt16) : Handled vpin 0
  | gap {vpin : UInt16} {m n : Nat} (hm : m = n + 1) (hnone : findRange platform chain vpin = none)
      (rest : Handled (vpin + 1) n) : Handled vpin m
  | piece {vpin : UInt16} {m n k : Nat} {dev : RangeDevice} (hm : m = k + n) (hsome : 0 < k)
      (hdev : findRange platform chain vpin = some dev)
      (hnext : (dev.writeRange vpin m).1 = vpin + UInt16.ofNat k)
      (howns : ∀ pin ∈ pinsFrom vpin k, dev.device.owns platform pin)
      (rest : Handled (vpin + UInt16.ofNat k) n) : Handled vpin m

variable {platform chain} {vpin next : UInt16} {value : α} {count : Int} {n k : Nat} {dev : RangeDevice}

theorem pinsFrom_add (vpin : UInt16) (m n : Nat) :
    pinsFrom vpin (m + n) = pinsFrom vpin m ++ pinsFrom (vpin + UInt16.ofNat m) n := by
  induction m generalizing vpin with
  | zero => simp [pinsFrom]
  | succ m ih =>
    rw [Nat.add_right_comm, pinsFrom, pinsFrom, ih, List.cons_append]
    rw [show vpin + 1 + UInt16.ofNat m = vpin + UInt16.ofNat (m + 1) by
      rw [UInt16.ofNat_add, UInt16.add_assoc, UInt16.add_comm (UInt16.ofNat m)]
      rfl]

theorem findRange_owns (h : findRange platform chain vpin = some dev) :
    dev ∈ chain ∧ dev.device.owns platform vpin := by
  unfold findRange at h
  exact ⟨List.mem_of_find?_eq_some h, by simpa using List.find?_some h⟩

theorem not_owned_of_none (h : findRange platform chain vpin = none) : ¬ Owned platform chain vpin := by
  rintro ⟨dev, hmem, howns⟩
  exact List.find?_eq_none.mp h dev hmem howns

theorem toNat_addNat (h : vpin.toNat + k < 65536) : (vpin + UInt16.ofNat k).toNat = vpin.toNat + k := by
  rw [UInt16.toNat_add, UInt16.toNat_ofNat']
  omega

/-- The count goes down by the vpins that were passed. -/
theorem subVpins_eq (platform : Platform) (hnext : next.toNat = vpin.toNat + k) (hn : n < 32768) :
    subVpins platform ((k + n : Nat) : Int) next vpin = n := by
  have hlt := next.toNat_lt
  have hdiff : (next - vpin).toNat = k := by
    rw [UInt16.toNat_sub_of_le _ _ (UInt16.le_iff_toNat_le.mpr (by omega))]
    omega
  have hsmall : (n : Int).bmod 65536 = n := Int.bmod_eq_of_le (by omega) (by omega)
  have hcount : ((k + n : Nat) : Int) - k = n := by omega
  cases platform <;> simp only [subVpins, hdiff, hcount, hsmall] <;> omega

/-! ## A range that is not empty -/

/-- A call of a driver takes some vpins from the front of the range. -/
theorem piece_of_contract (hcontract : Contract platform count dev)
    (howns : dev.device.owns platform vpin) {m : Nat} (hm : 0 < m) :
    ∃ k n, m = k + n ∧ 0 < k ∧ vpin.toNat + k < 65536 ∧
      dev.writeRange vpin m = (vpin + UInt16.ofNat k, pinsFrom vpin k) := by
  obtain ⟨hlt, hle, hpins⟩ := hcontract vpin m howns (.inl (by omega))
  have hle := hle (by omega)
  have hbound := (dev.writeRange vpin m).1.toNat_lt
  rw [UInt16.lt_iff_toNat_lt] at hlt
  let k := (dev.writeRange vpin m).1.toNat - vpin.toNat
  have hnext : (dev.writeRange vpin m).1 = vpin + UInt16.ofNat k := by
    apply UInt16.toNat_inj.mp
    rw [toNat_addNat (by omega)]
    omega
  exact ⟨k, m - k, by omega, by omega, by omega, Prod.ext hnext hpins⟩

theorem handled_gap_iff (hnone : findRange platform chain vpin = none) :
    Handled platform chain vpin (n + 1) ↔ Handled platform chain (vpin + 1) n := by
  constructor
  · intro h
    cases h with
    | gap hm _ rest => exact (Nat.succ.inj hm) ▸ rest
    | piece _ _ hdev => rw [hnone] at hdev; cases hdev
  · exact .gap rfl hnone

/-- A range is handled if and only if its first piece belongs to the device found for it and the rest is
handled. -/
theorem handled_piece_iff (hdev : findRange platform chain vpin = some dev) (hk : 0 < k)
    (hbound : vpin.toNat + (k + n) < 65536)
    (hcall : (dev.writeRange vpin (k + n : Nat)).1 = vpin + UInt16.ofNat k) :
    Handled platform chain vpin (k + n) ↔
      (∀ pin ∈ pinsFrom vpin k, dev.device.owns platform pin) ∧
        Handled platform chain (vpin + UInt16.ofNat k) n := by
  constructor
  · intro h
    generalize hm : k + n = m at h hcall
    cases h with
    | nil => omega
    | gap _ hnone => rw [hnone] at hdev; cases hdev
    | @piece _ _ n' k' dev' hm' hk' hdev' hnext howns rest =>
      obtain rfl : dev = dev' := Option.some.inj (hdev.symm.trans hdev')
      have hsame := congrArg UInt16.toNat (hcall.symm.trans hnext)
      rw [toNat_addNat (by omega), toNat_addNat (by omega)] at hsame
      obtain rfl : k = k' := by omega
      obtain rfl : n = n' := by omega
      exact ⟨howns, rest⟩
  · rintro ⟨howns, rest⟩
    exact .piece rfl hk hdev hcall howns rest

/-- What was written to a piece of a range and to the rest is what the range asks for if and only if it is
for both. -/
theorem exact_piece_iff {pins rest : List UInt16} {device : IODevice} {log : List (RangeWrite α)}
    (hdevice : ∀ pin, device.owns platform pin → Owned platform chain pin) :
    let all := pins.map (fun pin => (⟨device, pin, value⟩ : RangeWrite α)) ++ log
    (all.map RangeWrite.vpin = (pins ++ rest).filter (fun pin => Owned platform chain pin) ∧
      ∀ w ∈ all, w.device.owns platform w.vpin ∧ w.value = value) ↔
    (∀ pin ∈ pins, device.owns platform pin) ∧
      log.map RangeWrite.vpin = rest.filter (fun pin => Owned platform chain pin) ∧
      ∀ w ∈ log, w.device.owns platform w.vpin ∧ w.value = value := by
  intro all
  have hmap : all.map RangeWrite.vpin = pins ++ log.map RangeWrite.vpin := by
    rw [List.map_append, List.map_map]
    congr 1
    exact List.map_id _
  have hfilter : (∀ pin ∈ pins, device.owns platform pin) →
      pins.filter (fun pin => Owned platform chain pin) = pins := by
    intro howns
    exact List.filter_eq_self.mpr fun pin hpin => decide_eq_true (hdevice pin (howns pin hpin))
  rw [hmap, List.filter_append]
  constructor
  · rintro ⟨hpins, hall⟩
    have howns : ∀ pin ∈ pins, device.owns platform pin := by
      intro pin hpin
      exact (hall ⟨device, pin, value⟩ (List.mem_append_left _ (List.mem_map_of_mem hpin))).1
    rw [hfilter howns] at hpins
    exact ⟨howns, List.append_cancel_left hpins, fun w hw => hall w (List.mem_append_right _ hw)⟩
  · rintro ⟨howns, hpins, hlog⟩
    refine ⟨by rw [hfilter howns, hpins], fun w hw => ?_⟩
    rcases List.mem_append.mp hw with hw | hw
    · obtain ⟨pin, hpin, rfl⟩ := List.mem_map.mp hw
      exact ⟨howns pin hpin, rfl⟩
    · exact hlog w hw

/-- More fuel changes nothing. -/
theorem writeRange_fuel {fuel fuel' : Nat} (hle : fuel ≤ fuel') {log : List (RangeWrite α)}
    (h : writeRange platform chain value fuel vpin count = some log) :
    writeRange platform chain value fuel' vpin count = some log := by
  induction fuel generalizing vpin count fuel' log with
  | zero => cases h
  | succ fuel ih =>
    obtain ⟨fuel', rfl⟩ : ∃ f, fuel' = f + 1 := ⟨fuel' - 1, by omega⟩
    rw [writeRange] at h ⊢
    by_cases hzero : count = 0
    · rwa [if_pos hzero] at h ⊢
    · rw [if_neg hzero] at h ⊢
      cases hfind : findRange platform chain vpin with
      | none =>
        rw [hfind] at h
        exact ih (by omega) h
      | some dev =>
        rw [hfind] at h
        obtain ⟨rest, hrest, hlog⟩ := Option.map_eq_some_iff.mp h
        dsimp only
        rw [ih (by omega) hrest]
        exact congrArg some hlog

/-- The loop ends, and has written what was asked for if and only if the range is handled. -/
theorem writeRange_spec (hcontract : ∀ dev ∈ chain, Contract platform count dev) (value : α) (n : Nat)
    (vpin : UInt16) (hbound : vpin.toNat + n < 65536) (hn : n < 32768) :
    ∃ log, (∀ fuel, n < fuel → writeRange platform chain value fuel vpin n = some log) ∧
      ((log.map RangeWrite.vpin = (pinsFrom vpin n).filter (fun pin => Owned platform chain pin) ∧
        ∀ w ∈ log, w.device.owns platform w.vpin ∧ w.value = value) ↔ Handled platform chain vpin n) := by
  induction n using Nat.strongRecOn generalizing vpin with
  | ind m ih =>
    rcases Nat.eq_zero_or_pos m with rfl | hm
    · refine ⟨[], fun fuel hfuel => ?_, fun _ => .nil vpin, fun _ => ⟨rfl, by simp⟩⟩
      obtain ⟨fuel, rfl⟩ : ∃ f, fuel = f + 1 := ⟨fuel - 1, by omega⟩
      rfl
    · have hne : (m : Int) ≠ 0 := by omega
      cases hfind : findRange platform chain vpin with
      | none =>
        obtain ⟨n, rfl⟩ : ∃ n, m = n + 1 := ⟨m - 1, by omega⟩
        have hnext : (vpin + 1).toNat = vpin.toNat + 1 := toNat_addNat (k := 1) (by omega)
        obtain ⟨log, hlog, hiff⟩ := ih n (by omega) (vpin + 1) (by omega) (by omega)
        refine ⟨log, fun fuel hfuel => ?_, ?_⟩
        · obtain ⟨fuel, rfl⟩ : ∃ f, fuel = f + 1 := ⟨fuel - 1, by omega⟩
          rw [writeRange, if_neg hne, hfind, show ((n + 1 : Nat) : Int) - 1 = n by omega]
          exact hlog fuel (by omega)
        · rw [handled_gap_iff hfind, ← hiff, pinsFrom,
            List.filter_cons_of_neg (by simpa using not_owned_of_none hfind)]
      | some dev =>
        obtain ⟨hmem, howns⟩ := findRange_owns hfind
        obtain ⟨k, n, rfl, hk, hless, hcall⟩ := piece_of_contract (hcontract dev hmem) howns hm
        obtain ⟨log, hlog, hiff⟩ := ih n (by omega) (vpin + UInt16.ofNat k)
          (by rw [toNat_addNat hless]; omega) (by omega)
        refine ⟨(pinsFrom vpin k).map (fun pin => ⟨dev.device, pin, value⟩) ++ log, fun fuel hfuel => ?_, ?_⟩
        · obtain ⟨fuel, rfl⟩ : ∃ f, fuel = f + 1 := ⟨fuel - 1, by omega⟩
          have hrest := hlog fuel (by omega)
          rw [← subVpins_eq platform (toNat_addNat hless) (by omega)] at hrest
          simp only [writeRange, if_neg hne, hfind, hcall, hrest, Option.map_some]
        · rw [handled_piece_iff hfind hk (by omega) (by rw [hcall]), ← hiff, pinsFrom_add]
          exact exact_piece_iff fun pin hpin => ⟨dev, hmem, hpin⟩

/-! ## A negative count -/

/-- With a negative count the loop does not end before it has written something. -/
theorem writeRange_negative (hcontract : ∀ dev ∈ chain, Contract platform count dev) (hcount : count < 0)
    (value : α) {fuel : Nat} {r : Int} (hr : r < 0) {log : List (RangeWrite α)}
    (h : writeRange platform chain value fuel vpin r = some log) : log ≠ [] := by
  induction fuel generalizing vpin r with
  | zero => cases h
  | succ fuel ih =>
    rw [writeRange, if_neg (by omega)] at h
    cases hfind : findRange platform chain vpin with
    | none =>
      rw [hfind] at h
      exact ih (by omega) h
    | some dev =>
      rw [hfind] at h
      obtain ⟨hmem, howns⟩ := findRange_owns hfind
      obtain ⟨hlt, -, hpins⟩ := hcontract dev hmem vpin r howns (.inr ⟨hr, hcount⟩)
      obtain ⟨rest, -, rfl⟩ := Option.map_eq_some_iff.mp h
      rw [UInt16.lt_iff_toNat_lt] at hlt
      obtain ⟨k, hk⟩ : ∃ k, (dev.writeRange vpin r).1.toNat - vpin.toNat = k + 1 :=
        ⟨(dev.writeRange vpin r).1.toNat - vpin.toNat - 1, by omega⟩
      rw [hpins, hk]
      exact List.cons_ne_nil _ _

/-- The loop does what it is asked for if and only if the count is not negative and the range is
handled. -/
theorem writesRange_iff (hcontract : ∀ dev ∈ chain, Contract platform count dev) (value : α)
    (hbound : vpin.toNat + count < 65536) (hle : count ≤ 32767) :
    WritesRange platform chain vpin count value ↔ 0 ≤ count ∧ Handled platform chain vpin count.toNat := by
  by_cases hcount : 0 ≤ count
  · have hnat : ((count.toNat : Nat) : Int) = count := by omega
    obtain ⟨log, hlog, hiff⟩ := writeRange_spec hcontract value count.toNat vpin (by omega) (by omega)
    rw [hnat] at hlog
    constructor
    · rintro ⟨fuel, log', hrun, hexact⟩
      have hmore := writeRange_fuel (Nat.le_add_right fuel (count.toNat + 1)) hrun
      obtain rfl : log' = log := Option.some.inj (hmore.symm.trans (hlog _ (by omega)))
      exact ⟨hcount, hiff.mp hexact⟩
    · rintro ⟨-, hhandled⟩
      exact ⟨count.toNat + 1, log, hlog _ (Nat.lt_succ_self _), hiff.mpr hhandled⟩
  · constructor
    · rintro ⟨fuel, log, hrun, hpins, -⟩
      have hzero : count.toNat = 0 := by omega
      rw [hzero] at hpins
      exact absurd (List.map_eq_nil_iff.mp hpins) (writeRange_negative hcontract (by omega) value (by omega) hrun)
    · exact fun h => absurd h.1 hcount

end IODevice

end CommandStation
