import CommandStation.IODevice.Strips

/-!
# The command for ranges of vpins

`<o>` writes to the vpins from a first one on, as many as its last parameter says. The parameter is any
number of 16 bits.
-/

namespace CommandStation

namespace IODevice

/-- A value for `writeRange`, or the parameters of `writeAnalogueRange`. -/
inductive RangeValue where
  | digital (on : Bool)
  | analogue (colourRG : Int) (on : Bool) (colourB : UInt16)
  deriving DecidableEq, Repr

/-- What the `<o>` command calls. -/
inductive OCall where
  | write (vpin : UInt16) (on : Bool)
  | range (vpin : UInt16) (value : RangeValue) (count : Int)
  deriving DecidableEq, Repr

/-- `case 'o'` of `parseOne`. There is nothing to call for parameters that it does not take. -/
def oCommand (platform : Platform) (params : Nat) (p : Fin 10 → Int16) : Option OCall :=
  if p 0 = 0 then none
  else
    let vpin := toVpin (p 0).toInt.natAbs
    let setON := 0 < (p 0).toInt
    if params = 1 then some (.write vpin setON)  -- <o [-]vpin>
    else if params = 2 then some (.range vpin (.digital setON) (p 1).toInt)  -- <o [-]vpin count>
    else if params = 4 ∨ params = 5 then
      -- <o [-]vpin r g b [count]>
      let count := if p 4 ≠ 0 then (p 4).toInt else 1
      if (p 1).toInt < 0 ∨ 255 < (p 1).toInt then none
      else if (p 2).toInt < 0 ∨ 255 < (p 2).toInt then none
      else if (p 3).toInt < 0 ∨ 255 < (p 3).toInt then none
      else
        let colourRG := platform.toInt ((p 1).toInt * 256 + (p 2).toInt)
        some (.range vpin (.analogue colourRG setON (toVpin (p 3).toInt)) count)
    else none

variable {platform : Platform} {vpin : UInt16} {count : Int}

/-- No vpin of a range that the command passes on is beyond the last one. -/
theorem oCommand_range {params : Nat} {p : Fin 10 → Int16} {value : RangeValue}
    (h : oCommand platform params p = some (.range vpin value count)) :
    vpin.toNat ≤ 32768 ∧ count ≤ 32767 := by
  have hbounds : ∀ i, -32768 ≤ (p i).toInt ∧ (p i).toInt ≤ 32767 := fun i =>
    ⟨(p i).le_toInt, Int.le_of_lt_add_one (p i).toInt_lt⟩
  have h0 := hbounds 0
  have hvpin : (toVpin (p 0).toInt.natAbs).toNat ≤ 32768 := by
    rw [toVpin, UInt16.toNat_ofNat']
    omega
  unfold oCommand at h
  dsimp only at h
  split at h
  · cases h
  · split at h
    · cases h
    · split at h
      · cases h
        exact ⟨hvpin, (hbounds 1).2⟩
      · split at h
        · split at h
          · cases h
          · split at h
            · cases h
            · split at h
              · cases h
              · cases h
                refine ⟨hvpin, ?_⟩
                split
                · exact (hbounds 4).2
                · decide
        · cases h

theorem owns_of_all {platform : Platform} {dev : RangeDevice} {vpin : UInt16} {k : Nat}
    (h : (pinsFrom vpin k).all (fun pin => decide (dev.device.owns platform pin)) = true) :
    ∀ pin ∈ pinsFrom vpin k, dev.device.owns platform pin := by
  intro pin hpin
  exact of_decide_eq_true (List.all_eq_true.mp h pin hpin)

/-- **Ranges of the `<o>` command.** The loop ends with the value written to the vpins that some device
owns, each once, if and only if the count is not negative and each driver that is called keeps to the vpins
of its own device. -/
theorem oCommand_writes_iff (platform : Platform) (chain : List RangeDevice) (params : Nat)
    (p : Fin 10 → Int16) (vpin : UInt16) (value : RangeValue) (count : Int)
    (hcall : oCommand platform params p = some (.range vpin value count))
    (hcontract : ∀ dev ∈ chain, Contract platform count dev) :
    WritesRange platform chain vpin count value ↔ 0 ≤ count ∧ Handled platform chain vpin count.toNat := by
  obtain ⟨hvpin, hle⟩ := oCommand_range hcall
  exact writesRange_iff hcontract value (by omega) hle

/-- A strip of five NeoPixels at vpin 100, and four more pins at 106. -/
def twoDevices : List RangeDevice :=
  [neoPixelRange ⟨100, 5, ⟨I2C.muxNone, I2C.subBusNone, 0x60⟩⟩,
    defaultRange ⟨106, 4, ⟨I2C.muxNone, I2C.subBusNone, 0x20⟩⟩]

theorem contract_twoDevices (hcount : 0 ≤ count) : ∀ dev ∈ twoDevices, Contract platform count dev := by
  intro dev hmem
  simp only [twoDevices, List.mem_cons, List.not_mem_nil, or_false] at hmem
  rcases hmem with rfl | rfl
  · exact contract_neoPixel ⟨by decide, by decide⟩ (by decide) hcount
  · exact contract_default ⟨by decide, by decide⟩ count

/-- `<o 100 8>`: the strip, one vpin that nobody owns, and two of the others. -/
theorem oCommand_writes_iff_twoDevices :
    WritesRange .esp32 twoDevices 100 8 (RangeValue.digital true) := by
  refine (oCommand_writes_iff .esp32 twoDevices 2 (fun i => if i = 0 then 100 else if i = 1 then 8 else 0) 100
    (.digital true) 8 (by decide) (contract_twoDevices (by decide))).mpr ⟨by decide, ?_⟩
  show Handled .esp32 twoDevices 100 8
  refine .piece (k := 5) (n := 3) rfl (by decide) rfl (by decide) (owns_of_all (by decide)) ?_
  refine .gap (n := 2) rfl rfl ?_
  refine .piece (k := 1) (n := 1) rfl (by decide) rfl (by decide) (owns_of_all (by decide)) ?_
  exact .piece (k := 1) (n := 0) rfl (by decide) rfl (by decide) (owns_of_all (by decide)) (.nil _)

/-- What one run of the loop has written is what any other has written. -/
theorem not_writesRange {chain : List RangeDevice} {value : RangeValue} {fuel : Nat}
    {log : List (RangeWrite RangeValue)} (hrun : writeRange platform chain value fuel vpin count = some log)
    {w : RangeWrite RangeValue} (hmem : w ∈ log) (howns : ¬ w.device.owns platform w.vpin) :
    ¬ WritesRange platform chain vpin count value := by
  rintro ⟨fuel', log', hrun', -, hlog'⟩
  have hsame := (writeRange_fuel (Nat.le_add_right fuel fuel') hrun).symm.trans
    (writeRange_fuel (Nat.le_add_left fuel' fuel) hrun')
  obtain rfl : log = log' := Option.some.inj hsame
  exact howns (hlog' w hmem).1

/-- `<o 103 5>` is left to the strip as a whole, which has two pins from there on: it writes to the pins
105, 106 and 107 that it does not have. With `<o 106 -1>` the loop does not end with nothing written. -/
theorem oCommand_goes_wrong :
    oCommand .esp32 2 (fun i => if i = 0 then 103 else if i = 1 then 5 else 0) =
        some (.range 103 (.digital true) 5) ∧
      ¬ WritesRange .esp32 twoDevices 103 5 (RangeValue.digital true) ∧
    oCommand .esp32 2 (fun i => if i = 0 then 106 else if i = 1 then -1 else 0) =
        some (.range 106 (.digital true) (-1)) ∧
      ¬ WritesRange .esp32 [defaultRange ⟨106, 4, ⟨I2C.muxNone, I2C.subBusNone, 0x20⟩⟩] 106 (-1)
        (RangeValue.digital true) := by
  refine ⟨by decide, ?_, by decide, ?_⟩
  · have hrun : writeRange .esp32 twoDevices (RangeValue.digital true) 2 103 5 =
        some ((pinsFrom 103 5).map fun pin =>
          ⟨⟨100, 5, ⟨I2C.muxNone, I2C.subBusNone, 0x60⟩⟩, pin, .digital true⟩) := by decide +kernel
    refine not_writesRange hrun (List.mem_map_of_mem (a := 105) (by decide)) ?_
    decide
  · rintro ⟨fuel, log, hrun, hpins, -⟩
    have hcontract : ∀ dev ∈ [defaultRange ⟨106, 4, ⟨I2C.muxNone, I2C.subBusNone, 0x20⟩⟩],
        Contract .esp32 (-1) dev := by
      intro dev hmem
      obtain rfl := List.mem_singleton.mp hmem
      exact contract_default ⟨by decide, by decide⟩ (-1)
    exact writeRange_negative hcontract (by decide) _ (by decide) hrun (List.map_eq_nil_iff.mp hpins)

end IODevice

end CommandStation
