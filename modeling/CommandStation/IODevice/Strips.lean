import CommandStation.IODevice.Ranges

/-!
# Strips of NeoPixels

The drivers of the source write one vpin, or those of a strip of NeoPixels. A strip that is entered behind
its first pin is thought to have all its pins before it still, so a range that goes on behind it is left to
it for too long.
-/

namespace CommandStation

namespace IODevice

variable {platform : Platform} {chain : List RangeDevice} {vpin : UInt16} {count : Int} {n k : Nat}
variable {device : IODevice}

/-- The device does not reach the last vpins. -/
structure Proper (device : IODevice) : Prop where
  nonneg : 0 ≤ device.nPins
  fits : device.firstVpin.toNat + device.nPins < 65536

theorem Proper.owns_iff (h : Proper device) {pin : UInt16} :
    device.owns platform pin ↔
      device.firstVpin.toNat ≤ pin.toNat ∧ (pin.toNat : Int) < device.firstVpin.toNat + device.nPins := by
  have hfits := h.fits
  have hnonneg := h.nonneg
  have hadd : platform.addVpin device.firstVpin device.nPins = device.firstVpin.toNat + device.nPins := by
    cases platform <;> simp only [Platform.addVpin] <;> omega
  rw [owns, hadd, decide_eq_true_iff, UInt16.le_iff_toNat_le]

theorem mem_pinsFrom {pin : UInt16} (hbound : vpin.toNat + k < 65536) :
    pin ∈ pinsFrom vpin k ↔ vpin.toNat ≤ pin.toNat ∧ pin.toNat < vpin.toNat + k := by
  induction k generalizing vpin with
  | zero => simp [pinsFrom]
  | succ k ih =>
    have hnext : (vpin + 1).toNat = vpin.toNat + 1 := toNat_addNat (k := 1) (by omega)
    rw [pinsFrom, List.mem_cons, ih (by omega), hnext, ← UInt16.toNat_inj]
    omega

/-- The vpins of a piece belong to a device if and only if the piece ends within it. -/
theorem piece_owned_iff (h : Proper device) (hvpin : device.owns platform vpin)
    (hk : 0 < k) (hbound : vpin.toNat + k < 65536) :
    (∀ pin ∈ pinsFrom vpin k, device.owns platform pin) ↔
      (vpin.toNat + k : Int) ≤ device.firstVpin.toNat + device.nPins := by
  have hfirst := (h.owns_iff.mp hvpin).1
  constructor
  · intro hall
    have hlast : (vpin + UInt16.ofNat (k - 1)).toNat = vpin.toNat + (k - 1) := toNat_addNat (by omega)
    have hin := hall (vpin + UInt16.ofNat (k - 1)) ((mem_pinsFrom hbound).mpr (by omega))
    have := (h.owns_iff.mp hin).2
    omega
  · intro hend pin hpin
    have hpin' := (mem_pinsFrom hbound).mp hpin
    rw [h.owns_iff]
    omega

/-- The NeoPixel driver takes as many vpins as it has, or all that are asked for. -/
theorem neoPixelRange_eq (h : Proper device) {m : Nat}
    (hbound : vpin.toNat + m < 65536) :
    (neoPixelRange device).writeRange vpin m =
      (vpin + UInt16.ofNat (min device.nPins.toNat m), pinsFrom vpin (min device.nPins.toNat m)) := by
  have hnonneg := h.nonneg
  have hnext : toVpin (vpin.toNat + if device.nPins < m then device.nPins else m) =
      vpin + UInt16.ofNat (min device.nPins.toNat m) := by
    apply UInt16.toNat_inj.mp
    rw [toNat_addNat (by omega), toVpin, UInt16.toNat_ofNat']
    split <;> omega
  show (toVpin _, pinsFrom vpin ((toVpin _).toNat - vpin.toNat)) = _
  rw [hnext, toNat_addNat (by omega), Nat.add_sub_cancel_left]

theorem defaultRange_ne_neoPixelRange (h : 0 ≤ device.nPins) :
    defaultRange device ≠ neoPixelRange device := by
  intro heq
  have hcall : ((defaultRange device).writeRange 5 (-1)).1 = ((neoPixelRange device).writeRange 5 (-1)).1 :=
    congrArg (fun d => (d.writeRange 5 (-1)).1) heq
  have hbase : ((defaultRange device).writeRange 5 (-1)).1 = 6 := rfl
  have hneo : ((neoPixelRange device).writeRange 5 (-1)).1 = 4 := by
    show toVpin (_ + if device.nPins < -1 then device.nPins else -1) = 4
    rw [if_neg (by omega)]
    decide
  rw [hbase, hneo] at hcall
  exact absurd hcall (by decide)

/-- The drivers of a chain: the default or NeoPixels, and each vpin belongs to one of them. -/
structure Strips (platform : Platform) (chain : List RangeDevice) : Prop where
  kinds : ∀ dev ∈ chain, dev = defaultRange dev.device ∨ dev = neoPixelRange dev.device
  proper : ∀ dev ∈ chain, Proper dev.device
  unique : ∀ dev ∈ chain, ∀ dev' ∈ chain, ∀ pin, dev.device.owns platform pin →
    dev'.device.owns platform pin → dev = dev'

/-- The range does not begin behind the first pin of a strip of NeoPixels and go beyond its last one. -/
def EntersWhole (platform : Platform) (chain : List RangeDevice) (vpin : UInt16) (n : Nat) : Prop :=
  ∀ dev ∈ chain, dev = neoPixelRange dev.device → dev.device.owns platform vpin →
    dev.device.firstVpin < vpin → (vpin.toNat + n : Int) ≤ dev.device.firstVpin.toNat + dev.device.nPins

/-- A vpin behind one that is not in the middle of a strip is not either. -/
theorem entersWhole_next (h : Strips platform chain) (hbound : vpin.toNat + 1 < 65536)
    (hnot : ∀ dev ∈ chain, dev = neoPixelRange dev.device → dev.device.owns platform vpin →
      ¬ dev.device.owns platform (vpin + 1)) : EntersWhole platform chain (vpin + 1) n := by
  intro dev hmem hneo howns hfirst
  have hnext : (vpin + 1).toNat = vpin.toNat + 1 := toNat_addNat (k := 1) hbound
  have hproper := h.proper dev hmem
  rw [UInt16.lt_iff_toNat_lt, hnext] at hfirst
  have hin := hproper.owns_iff.mp howns
  refine absurd howns (hnot dev hmem hneo ?_)
  rw [hproper.owns_iff]
  omega

theorem entersWhole_zero (h : Strips platform chain) : EntersWhole platform chain vpin 0 := by
  intro dev hmem _ howns _
  have hin := ((h.proper dev hmem).owns_iff.mp howns).2
  omega

/-- The piece that a strip takes, and what is left behind it. -/
theorem entersWhole_piece (h : Strips platform chain) (hmem : dev ∈ chain)
    (hneo : dev = neoPixelRange dev.device) (howns : dev.device.owns platform vpin)
    (hk : k = min dev.device.nPins.toNat (k + n)) (hbound : vpin.toNat + (k + n) < 65536) :
    EntersWhole platform chain vpin (k + n) ↔
      (vpin.toNat + k : Int) ≤ dev.device.firstVpin.toNat + dev.device.nPins ∧
        EntersWhole platform chain (vpin + UInt16.ofNat k) n := by
  have hproper := h.proper dev hmem
  have hin := hproper.owns_iff.mp howns
  have hend : (vpin + UInt16.ofNat k).toNat = vpin.toNat + k := toNat_addNat (by omega)
  constructor
  · intro hwhole
    by_cases hfirst : dev.device.firstVpin < vpin
    · have hall := hwhole dev hmem hneo howns hfirst
      rw [UInt16.lt_iff_toNat_lt] at hfirst
      obtain rfl : n = 0 := by omega
      exact ⟨by omega, entersWhole_zero h⟩
    · rw [UInt16.lt_iff_toNat_lt] at hfirst
      refine ⟨by omega, fun dev' hmem' hneo' howns' hfirst' => ?_⟩
      rcases Nat.eq_zero_or_pos n with rfl | hn
      · exact entersWhole_zero h dev' hmem' hneo' howns' hfirst'
      · -- both would own the last pin of the strip
        have hlast : (vpin + UInt16.ofNat (k - 1)).toNat = vpin.toNat + (k - 1) :=
          toNat_addNat (by omega)
        have hin' := (h.proper dev' hmem').owns_iff.mp howns'
        rw [UInt16.lt_iff_toNat_lt] at hfirst'
        have heq : dev' = dev := h.unique dev' hmem' dev hmem (vpin + UInt16.ofNat (k - 1))
          ((h.proper dev' hmem').owns_iff.mpr (by omega)) (hproper.owns_iff.mpr (by omega))
        rw [heq] at hin'
        omega
  · rintro ⟨hwithin, -⟩ dev' hmem' - howns' hfirst
    rw [h.unique dev' hmem' dev hmem vpin howns' howns, UInt16.lt_iff_toNat_lt] at hfirst
    rw [h.unique dev' hmem' dev hmem vpin howns' howns]
    omega

/-- With these drivers a range is handled if and only if it does not leave a strip that it has not
entered at its first pin. -/
theorem handled_iff_strips (h : Strips platform chain) (hbound : vpin.toNat + n < 65536) :
    Handled platform chain vpin n ↔ EntersWhole platform chain vpin n := by
  induction n using Nat.strongRecOn generalizing vpin with
  | ind m ih =>
    rcases Nat.eq_zero_or_pos m with rfl | hm
    · exact ⟨fun _ => entersWhole_zero h, fun _ => .nil vpin⟩
    · have hone : (vpin + 1).toNat = vpin.toNat + 1 := toNat_addNat (k := 1) (by omega)
      cases hfind : findRange platform chain vpin with
      | none =>
        obtain ⟨n, rfl⟩ : ∃ n, m = n + 1 := ⟨m - 1, by omega⟩
        have hno : ∀ dev ∈ chain, ¬ dev.device.owns platform vpin :=
          fun dev hmem howns => not_owned_of_none hfind ⟨dev, hmem, howns⟩
        rw [handled_gap_iff hfind, ih n (by omega) (by omega)]
        constructor
        · exact fun _ dev hmem _ howns => absurd howns (hno dev hmem)
        · exact fun _ => entersWhole_next h (by omega) fun dev hmem _ howns => absurd howns (hno dev hmem)
      | some dev =>
        obtain ⟨hmem, howns⟩ := findRange_owns hfind
        have hproper := h.proper dev hmem
        have hin := hproper.owns_iff.mp howns
        rcases h.kinds dev hmem with hdefault | hneo
        · -- one vpin is written
          obtain ⟨n, rfl⟩ : ∃ n, m = 1 + n := ⟨m - 1, by omega⟩
          have hcall : (dev.writeRange vpin (1 + n : Nat)).1 = vpin + UInt16.ofNat 1 := by
            rw [hdefault]
            rfl
          have hno : ∀ dev' ∈ chain, dev' = neoPixelRange dev'.device → ¬ dev'.device.owns platform vpin := by
            intro dev' hmem' hneo' howns'
            rw [h.unique dev' hmem' dev hmem vpin howns' howns] at hneo'
            exact defaultRange_ne_neoPixelRange hproper.nonneg (hdefault.symm.trans hneo')
          rw [handled_piece_iff hfind (by decide) (by omega) hcall]
          constructor
          · exact fun _ dev' hmem' hneo' howns' => absurd howns' (hno dev' hmem' hneo')
          · refine fun _ => ⟨(piece_owned_iff hproper howns (by decide) (by omega)).mpr (by omega), ?_⟩
            exact (ih n (by omega) (by rw [toNat_addNat (by omega)]; omega)).mpr
              (entersWhole_next h (by omega) fun dev' hmem' hneo' howns' =>
                absurd howns' (hno dev' hmem' hneo'))
        · -- as many vpins as the strip has, or all of them
          have hcall := neoPixelRange_eq hproper hbound
          rw [← hneo] at hcall
          obtain ⟨k, hk⟩ : ∃ k, k = min dev.device.nPins.toNat m := ⟨_, rfl⟩
          obtain ⟨n, rfl⟩ : ∃ n, m = k + n := ⟨m - k, by omega⟩
          rw [← hk] at hcall
          have hend : (vpin + UInt16.ofNat k).toNat = vpin.toNat + k := toNat_addNat (by omega)
          rw [handled_piece_iff hfind (by omega) hbound (by rw [hcall]),
            piece_owned_iff hproper howns (by omega) (by omega), ih n (by omega) (by omega),
            entersWhole_piece h hmem hneo howns hk hbound]

/-! ## The contract -/

/-- The default of the base class writes its pins one by one, so it keeps the contract. -/
theorem contract_default (h : Proper device) (count : Int) :
    Contract platform count (defaultRange device) := by
  intro pin r howns hr
  have hin := h.owns_iff.mp howns
  have hfits := h.fits
  have hnext : (pin + 1).toNat = pin.toNat + 1 := toNat_addNat (k := 1) (by omega)
  refine ⟨?_, fun hpos => ?_, ?_⟩
  · rw [UInt16.lt_iff_toNat_lt]
    show pin.toNat < (pin + 1).toNat
    omega
  · show ((pin + 1).toNat : Int) ≤ _
    omega
  · show [pin] = pinsFrom pin ((pin + 1).toNat - pin.toNat)
    rw [hnext, Nat.add_sub_cancel_left]
    rfl

/-- The ranges of the command do not come near the last vpin, so the NeoPixel driver keeps to the contract
there. -/
theorem contract_neoPixel (h : Proper device) (hlast : device.firstVpin.toNat + 2 * device.nPins < 65536)
    (hcount : 0 ≤ count) : Contract platform count (neoPixelRange device) := by
  intro pin r howns hr
  have hpos : 0 < r := by omega
  have hin := h.owns_iff.mp howns
  have htake : 0 < (if device.nPins < r then device.nPins else r) ∧
      (if device.nPins < r then device.nPins else r) ≤ r ∧
      (if device.nPins < r then device.nPins else r) ≤ device.nPins := by
    split <;> omega
  have hcall : (neoPixelRange device).writeRange pin r =
      (toVpin (pin.toNat + if device.nPins < r then device.nPins else r),
        pinsFrom pin ((toVpin (pin.toNat + if device.nPins < r then device.nPins else r)).toNat - pin.toNat)) :=
    rfl
  rw [hcall]
  generalize (if device.nPins < r then device.nPins else r) = taken at htake
  have hnext : ((toVpin (pin.toNat + taken)).toNat : Int) = pin.toNat + taken := by
    rw [toVpin, UInt16.toNat_ofNat']
    omega
  dsimp only
  refine ⟨?_, fun _ => ?_, rfl⟩
  · rw [UInt16.lt_iff_toNat_lt]
    omega
  · omega

/-- With the drivers of the source the loop does what it is asked for if and only if the range does not
leave a strip that it has entered behind its first pin. -/
theorem writesRange_strips_iff {α : Type} (h : Strips platform chain)
    (hlast : ∀ dev ∈ chain, dev.device.firstVpin.toNat + 2 * dev.device.nPins < 65536) (hcount : 0 ≤ count)
    (value : α) (hbound : vpin.toNat + count < 65536) (hle : count ≤ 32767) :
    WritesRange platform chain vpin count value ↔ EntersWhole platform chain vpin count.toNat := by
  have hcontract : ∀ dev ∈ chain, Contract platform count dev := by
    intro dev hmem
    have hproper := h.proper dev hmem
    rcases h.kinds dev hmem with hdefault | hneo
    · rw [hdefault]
      exact contract_default hproper count
    · rw [hneo]
      exact contract_neoPixel hproper (hlast dev hmem) hcount
  rw [writesRange_iff hcontract value hbound hle, handled_iff_strips h (by omega)]
  exact and_iff_right hcount

end IODevice

end CommandStation
