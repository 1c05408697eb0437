import CommandStation.EXRAIL2.Stashes
import CommandStation.EXRAIL2.Calls
import CommandStation.EXRAIL2.Resuming
import CommandStation.WiThrottle.Speeds

/-!
# What opcodes make of their operands

A cell of a script has an operand of 16 bits, and the macros of `myAutomation.h` say how it is made.
`ASPECT` packs the address and the aspect of a signal into one operand. `IF_ALL` and `IF_ANY` have a list
of pins in their message, where a minus sign asks for an inactive pin. `ATTIMEOUT` has its time in tenths of
a second, and `SPEED_REL` a percentage: both are multiplied with an `int`.
-/

namespace CommandStation.Exrail

open CommandStation.Lib

variable {script : Script} {w : Inputs} {this : Addr} {task : RMFT2} {s : Exrail}

/-! ## `ASPECT` -/

/-- The operand that `ASPECT(address,value)` compiles to, `V((address<<5) | (value & 0x1F))`: of the shifted
address, 16 bits are kept. -/
def aspectOperand (address value : Int16) : Int16 := (address <<< 5) ||| (value &&& 0x1F)

section Aspect

variable {address value : Int16}

theorem toNat_masked (x : Int16) : (x &&& 0x1F).toUInt16.toNat = x.toUInt16.toNat % 32 := by
  show (x.toUInt16 &&& 0x1F).toNat = _
  rw [UInt16.toNat_and]
  exact Nat.and_two_pow_sub_one_eq_mod _ 5

theorem toNat_aspectOperand (address value : Int16) : (aspectOperand address value).toUInt16.toNat =
    address.toUInt16.toNat % 2048 * 32 + value.toUInt16.toNat % 32 := by
  have hlow : value.toUInt16.toNat % 32 < 2 ^ 5 := Nat.mod_lt _ (by decide)
  have hhigh : (address <<< 5).toUInt16.toNat = (address.toUInt16.toNat % 2048) <<< 5 := by
    show (address.toUInt16 <<< 5).toNat = _
    rw [UInt16.toNat_shiftLeft, Nat.shiftLeft_eq, Nat.shiftLeft_eq]
    show address.toUInt16.toNat * 32 % 65536 = address.toUInt16.toNat % 2048 * 32
    omega
  have hor : (aspectOperand address value).toUInt16.toNat =
      (address <<< 5).toUInt16.toNat ||| (value &&& 0x1F).toUInt16.toNat := by
    show ((address <<< 5).toUInt16 ||| (value &&& 0x1F).toUInt16).toNat = _
    exact UInt16.toNat_or ..
  rw [hor, hhigh, toNat_masked, ← Nat.shiftLeft_add_eq_or_of_lt hlow, Nat.shiftLeft_eq]

theorem toInt_eq_toNat (x : Int16) :
    x.toInt = if x.toUInt16.toNat < 32768 then (x.toUInt16.toNat : Int) else x.toUInt16.toNat - 65536 := by
  show x.toBitVec.toInt = _
  rw [BitVec.toInt_eq_toNat_cond]
  show (if 2 * x.toUInt16.toNat < 65536 then (x.toUInt16.toNat : Int) else x.toUInt16.toNat - 65536) = _
  congr 1
  exact propext (by omega)

/-- Eleven bits of the address come back, and the highest of them is taken for its sign. -/
theorem aspectOperand_address : (aspectOperand address value >>> 5).toInt =
    (address.toInt + 1024) % 2048 - 1024 := by
  have hoperand := toInt_eq_toNat (aspectOperand address value)
  have haddress := toInt_eq_toNat address
  have hlt := address.toUInt16.toNat_lt
  rw [toNat_aspectOperand] at hoperand
  show ((aspectOperand address value).toBitVec.sshiftRight 5).toInt = _
  rw [BitVec.toInt_sshiftRight, Int.shiftRight_eq_div_pow]
  show (aspectOperand address value).toInt / 32 = _
  rw [hoperand, haddress]
  split <;> split <;> omega

theorem masked_value (hvalue : 0 ≤ value ∧ value ≤ 31) : value &&& 0x1F = value := by
  have hlow := Int16.le_iff_toInt_le.mp hvalue.1
  have hhigh := Int16.le_iff_toInt_le.mp hvalue.2
  have hvalue' := toInt_eq_toNat value
  have hlt := value.toUInt16.toNat_lt
  simp only [Int16.reduceToInt] at hlow hhigh
  apply toUInt16_injective
  rw [← UInt16.toNat_inj, toNat_masked]
  split at hvalue' <;> omega

theorem aspectOperand_value (hvalue : 0 ≤ value ∧ value ≤ 31) :
    aspectOperand address value &&& 0x1F = value := by
  rw [← masked_value hvalue]
  apply toUInt16_injective
  rw [masked_value hvalue, ← UInt16.toNat_inj, toNat_masked, toNat_aspectOperand]
  conv_rhs => rw [← masked_value hvalue, toNat_masked]
  omega

theorem execute_aspect : execute script w this task (aspectOperand address value) (some .aspect) = thenBreak (do
    let handled ← signalAspectEvent script w (aspectOperand address value >>> 5)
      (operandU (aspectOperand address value) &&& 0x1f).toUInt8
    when (handled = false) do
      let _ ← onStation (DCC.setExtendedAccessory (aspectOperand address value >>> 5)
        (aspectOperand address value &&& 0x1f))) := by
  rw [thenBreak, bind_assoc]
  rfl

theorem address_eq (h : address ≤ 1023) (hlow : -3 ≤ address) : aspectOperand address value >>> 5 = address := by
  have hhigh := Int16.le_iff_toInt_le.mp h
  have hlow' := Int16.le_iff_toInt_le.mp hlow
  simp only [Int16.reduceToInt] at hhigh hlow'
  rw [← Int16.toInt_inj, aspectOperand_address]
  omega

section Packet

variable {F : Crash → Prop}

/-- The packets that wait for the track with low priority -/
def waiting (s : Exrail) : List DCCQueue.PendingSlot := s.rails.station.queue.lowPriorityQueue

theorem wp_setExtendedAccessory (haddress : -3 ≤ address ∧ address ≤ 2044) (hvalue : value &&& 0x1F = value) :
    wp F (onStation (DCC.setExtendedAccessory address value))
      (fun _ s' => (waiting s').length = (waiting s).length + 1) s := by
  have hrange : ¬ (2044 < address ∨ address < -3) :=
    not_or.mpr ⟨Int16.not_lt.mpr haddress.2, Int16.not_lt.mpr haddress.1⟩
  rw [DCC.setExtendedAccessory, if_neg hrange, if_neg (not_not.mpr hvalue.symm)]
  show (_ ++ [_]).length = _
  exact List.length_append

theorem wp_setExtendedAccessory_outside (haddress : address < -3) :
    wp F (onStation (DCC.setExtendedAccessory address value)) (fun _ s' => waiting s' = waiting s) s := by
  rw [DCC.setExtendedAccessory, if_pos (.inr haddress)]
  exact rfl

/-- Without signals, the packet of an accessory is all that `ASPECT` makes. -/
theorem wp_aspect_without_signals (hfeature : script.has Script.featureSignal = false) {aspect : UInt8}
    {Q : Exrail → Prop}
    (h : wp F (onStation (DCC.setExtendedAccessory address value)) (fun _ => Q) s) :
    wp F (thenBreak (do
      let handled ← signalAspectEvent script w address aspect
      when (handled = false) do
        let _ ← onStation (DCC.setExtendedAccessory address value))) (fun _ => Q) s := by
  have hevent : signalAspectEvent script w address aspect = pure false := by
    rw [signalAspectEvent, if_pos (by simp [hfeature])]
  rw [thenBreak, hevent, pure_bind, when, if_pos rfl, wp_bind, wp_bind]
  exact h

end Packet

/-- An address from 1024 on becomes negative, and no packet is sent. -/
theorem aspect_ignored (haddress : -3 ≤ address ∧ address ≤ 2044) (hvalue : 0 ≤ value ∧ value ≤ 31)
    (hlarge : ¬ address ≤ 1023) :
    execute pauseAndEnd .idle 0 .zero (aspectOperand address value) (some .aspect) ≠
      thenBreak (command pauseAndEnd .idle (.aspect address value)) := by
  intro heq
  have hnegative : aspectOperand address value >>> 5 < -3 := by
    have hlow := Int16.lt_iff_toInt_lt.mp (Int16.not_le.mp hlarge)
    have hhigh := Int16.le_iff_toInt_le.mp haddress.2
    simp only [Int16.reduceToInt] at hlow hhigh
    rw [Int16.lt_iff_toInt_lt, aspectOperand_address]
    simp only [Int16.reduceToInt]
    omega
  let s := init bareRails [] fun _ => .zero
  have hopcode : wp (fun _ => False) (execute pauseAndEnd .idle 0 .zero (aspectOperand address value)
      (some .aspect)) (fun _ s' => waiting s' = waiting s) s := by
    rw [execute_aspect]
    exact wp_aspect_without_signals rfl (wp_setExtendedAccessory_outside hnegative)
  have hcommand : wp (fun _ => False) (thenBreak (command pauseAndEnd .idle (.aspect address value)))
      (fun _ s' => (waiting s').length = (waiting s).length + 1) s :=
    wp_aspect_without_signals rfl (wp_setExtendedAccessory haddress (masked_value hvalue))
  rw [← heq] at hcommand
  obtain ⟨flow, s', hok, hone⟩ := wp_iff_exists.mp hcommand
  have hsame := wp_of_ok hok hopcode
  rw [hsame] at hone
  exact absurd hone (Nat.ne_of_lt (Nat.lt_succ_self _))

/-- **`ASPECT` does what `<A>` does** for the addresses up to 1023, and for no other one. -/
theorem aspect_as_command (address value : Int16) (haddress : -3 ≤ address ∧ address ≤ 2044)
    (hvalue : 0 ≤ value ∧ value ≤ 31) :
    (∀ (script : Script) (w : Inputs) (this : Addr) (task : RMFT2),
      execute script w this task (aspectOperand address value) (some .aspect) =
        thenBreak (command script w (.aspect address value))) ↔ address ≤ 1023 := by
  constructor
  · intro heq
    by_contra hlarge
    exact aspect_ignored haddress hvalue hlarge (heq pauseAndEnd .idle 0 .zero)
  · intro h script w this task
    have haspect : operandU (aspectOperand address value) &&& 0x1f = value.toUInt16 :=
      congrArg Int16.toUInt16 (aspectOperand_value hvalue)
    rw [execute_aspect, address_eq h haddress.1, haspect, aspectOperand_value hvalue]
    rfl

theorem aspect_as_command_1023 :
    execute pauseAndEnd .idle 0 .zero (aspectOperand 1023 31) (some .aspect) =
      thenBreak (command pauseAndEnd .idle (.aspect 1023 31)) :=
  (aspect_as_command 1023 31 (by decide) (by decide)).mpr (by decide) pauseAndEnd .idle 0 .zero

/-- The packet for the address 1024 is not sent. -/
theorem aspect_1024_ignored : ¬ ∀ address value : Int16, -3 ≤ address ∧ address ≤ 2044 →
    0 ≤ value ∧ value ≤ 31 → ∀ (script : Script) (w : Inputs) (this : Addr) (task : RMFT2),
      execute script w this task (aspectOperand address value) (some .aspect) =
        thenBreak (command script w (.aspect address value)) := fun h =>
  @aspect_ignored 1024 0 (by decide) (by decide) (by decide)
    (h 1024 0 (by decide) (by decide) pauseAndEnd .idle 0 .zero)

end Aspect

/-! ## `IF_ANY` and `IF_ALL` -/

section Lists

variable {v : Int16} {vpinList : List Int16} {message : Message} {id : Int16}

/-- The pin of an element -/
def pinOf (v : Int16) : UInt16 := UInt16.ofNat v.toInt.natAbs

/-- The pin of an element is active, or inactive if it is negative. -/
def pinHolds (w : Inputs) (v : Int16) : Bool := w.read (pinOf v) ^^ (v < 0)

/-- The pin of an element is latched. -/
def latched (s : Exrail) (v : Int16) : Bool := s.tasks.getFlag (pinOf v) Tasks.latchFlag

/-- No device has the pin with the number of a negative element that is read as unsigned. -/
def Unowned (w : Inputs) (vpinList : List Int16) : Prop := ∀ v ∈ vpinList, v < 0 → w.read v.toUInt16 = false

theorem pinOf_nonneg (h : ¬ v < 0) : v.toUInt16 = pinOf v := by
  have hv := toInt_eq_toNat v
  have hlt := v.toUInt16.toNat_lt
  rw [Int16.lt_iff_toInt_lt, Int16.toInt_zero] at h
  have habs : v.toInt.natAbs = v.toUInt16.toNat := by
    split at hv <;> omega
  rw [pinOf, habs, UInt16.ofNat_toNat]

theorem pinOf_neg (h : v < 0) : (-v).toUInt16 = pinOf v := by
  have hv := toInt_eq_toNat v
  have hlt := v.toUInt16.toNat_lt
  rw [Int16.lt_iff_toInt_lt, Int16.toInt_zero] at h
  have habs : v.toInt.natAbs = 65536 - v.toUInt16.toNat := by
    split at hv <;> omega
  rw [pinOf, habs, toUInt16_neg, ← UInt16.toNat_inj, UInt16.toNat_neg]
  rfl

/-- What `IF` tests -/
theorem passes_if : Passes script w this task v .if_ s ↔ latched s v = true ∨ pinHolds w v = true := by
  have hsensor : readSensor w s.tasks (operandU v) = if latched s v then true else pinHolds w v := rfl
  rw [passes_skipWhen rfl, skips, hsensor]
  cases latched s v <;> cases pinHolds w v <;> decide

theorem passes_message (hmessage : script.messages (operandU id) = message)
    (hlist : message = .ifAll vpinList ∨ message = .ifAny vpinList) :
    Passes script w this task id .ifloco s ↔ messageSkips w task message = false := by
  refine passes_skipWhen (c := fun _ => messageSkips w task message) ?_
  show printMessage script w task id = _
  rw [printMessage, hmessage]
  rcases hlist with rfl | rfl <;> rfl

/-- `IF_ANY` looks at the pins. -/
theorem passes_ifAny (hmessage : script.messages (operandU id) = .ifAny vpinList) (hread : Unowned w vpinList) :
    Passes script w this task id .ifloco s ↔ ∃ v ∈ vpinList, pinHolds w v = true := by
  rw [passes_message hmessage (.inr rfl), messageSkips, Bool.not_eq_false', List.any_eq_true]
  refine exists_congr fun v => and_congr_right fun hv => ?_
  by_cases hneg : v < 0
  · rw [hread v hv hneg, pinOf_neg hneg]
    simp [pinHolds, hneg]
  · rw [pinOf_nonneg hneg]
    simp [pinHolds, hneg]

/-- `IF_ALL` fails with a negative element: the pin with its number as unsigned is not active. -/
theorem passes_ifAll (hmessage : script.messages (operandU id) = .ifAll vpinList) (hread : Unowned w vpinList) :
    Passes script w this task id .ifloco s ↔ ∀ v ∈ vpinList, ¬ v < 0 ∧ pinHolds w v = true := by
  rw [passes_message hmessage (.inl rfl), messageSkips, Bool.not_eq_false', List.all_eq_true]
  refine forall₂_congr fun v hv => ?_
  by_cases hneg : v < 0
  · rw [hread v hv hneg]
    simp [hneg]
  · rw [pinOf_nonneg hneg]
    simp [pinHolds, hneg]

/-- **`IF_ALL` and `IF_ANY`** are true as the conditions of their elements say, unless `IF_ALL` has a
negative element or one that is only latched while all conditions hold, and unless `IF_ANY` has an element
that is latched while no pin is as it should be. -/
theorem lists_iff (script : Script) (w : Inputs) (this : Addr) (task : RMFT2) (id : Int16) (s : Exrail)
    (vpinList : List Int16) (hread : Unowned w vpinList) :
    (script.messages (operandU id) = .ifAll vpinList →
      ((Passes script w this task id .ifloco s ↔ ∀ v ∈ vpinList, Passes script w this task v .if_ s) ↔
        ¬ ((∀ v ∈ vpinList, latched s v = true ∨ pinHolds w v = true) ∧
          ∃ v ∈ vpinList, v < 0 ∨ pinHolds w v = false))) ∧
    (script.messages (operandU id) = .ifAny vpinList →
      ((Passes script w this task id .ifloco s ↔ ∃ v ∈ vpinList, Passes script w this task v .if_ s) ↔
        ¬ ((∀ v ∈ vpinList, pinHolds w v = false) ∧ ∃ v ∈ vpinList, latched s v = true))) := by
  refine ⟨fun hmessage => ?_, fun hmessage => ?_⟩
  · -- `IF_ALL` looks at the pins only, its elements at their latches too
    rw [passes_ifAll hmessage hread]
    simp only [passes_if]
    constructor
    · rintro hiff ⟨hall, v, hv, hwrong⟩
      obtain ⟨hsign, hpin⟩ := hiff.mpr hall v hv
      rcases hwrong with hneg | hoff
      · exact hsign hneg
      · exact Bool.false_ne_true (hoff.symm.trans hpin)
    · intro hright
      refine ⟨fun h v hv => .inr (h v hv).2, fun hall v hv => ?_⟩
      by_contra hwrong
      refine hright ⟨hall, v, hv, ?_⟩
      by_cases hneg : v < 0
      · exact .inl hneg
      · exact .inr (by simpa [hneg] using hwrong)
  · -- so does `IF_ANY`, where a latch makes the difference if no pin does
    rw [passes_ifAny hmessage hread]
    simp only [passes_if]
    constructor
    · rintro hiff ⟨hoff, v, hv, hlatched⟩
      obtain ⟨v', hv', hpin⟩ := hiff.mpr ⟨v, hv, .inl hlatched⟩
      exact Bool.false_ne_true ((hoff v' hv').symm.trans hpin)
    · intro hright
      constructor
      · rintro ⟨v, hv, hpin⟩
        exact ⟨v, hv, .inr hpin⟩
      · rintro ⟨v, hv, hholds⟩
        by_contra hnone
        have hoff : ∀ v ∈ vpinList, pinHolds w v = false := by simpa using hnone
        refine hright ⟨hoff, v, hv, hholds.resolve_right ?_⟩
        rw [hoff v hv]
        exact Bool.false_ne_true

/-- `IF_ALL(2,-1) ENDIF IF_ANY(2,-1) ENDIF` -/
def signedLists : Script :=
  Script.ofCells 0 (fun id => if id = 0 then .ifAll [2, -1] else .ifAny [2, -1])
    [(.ifloco, 0), (.endif, 0), (.ifloco, 1), (.endif, 0)]

/-- Pin 2 is active, and pin 1 is not: both conditions hold. -/
def pinTwo : Inputs := { Inputs.idle with read := fun vpin => vpin == 2 }

/-- `IF_ALL` is wrong about them, `IF_ANY` is right. -/
theorem lists_iff_off :
    ¬ (Passes signedLists pinTwo 0 .zero 0 .ifloco (init bareRails [] fun _ => .zero) ↔
      ∀ v ∈ ([2, -1] : List Int16), Passes signedLists pinTwo 0 .zero v .if_
        (init bareRails [] fun _ => .zero)) ∧
    (Passes signedLists pinTwo 0 .zero 1 .ifloco (init bareRails [] fun _ => .zero) ↔
      ∃ v ∈ ([2, -1] : List Int16), Passes signedLists pinTwo 0 .zero v .if_
        (init bareRails [] fun _ => .zero)) := by
  have hread : Unowned pinTwo [2, -1] :=
    List.forall_mem_cons.mpr ⟨fun hneg => absurd hneg (by decide), List.forall_mem_singleton.mpr fun _ => rfl⟩
  have htwo : pinHolds pinTwo 2 = true := by rfl
  have hone : pinHolds pinTwo (-1) = true := by rfl
  refine ⟨fun hiff => ?_, ?_⟩
  · -- all conditions hold, and one of them is of a negative element
    refine ((lists_iff signedLists pinTwo 0 .zero 0 (init bareRails [] fun _ => .zero) [2, -1]
      hread).1 rfl).mp hiff ⟨?_, -1, by simp, .inl (by decide)⟩
    simp [htwo, hone]
  · -- pin 2 is as it should be
    exact ((lists_iff signedLists pinTwo 0 .zero 1 (init bareRails [] fun _ => .zero) [2, -1]
      hread).2 rfl).mpr fun ⟨hnone, _⟩ => Bool.false_ne_true ((hnone 2 (by simp)).symm.trans htwo)

/-- `IF_ALL(-1) ENDIF` -/
def ifAllOff : Script := Script.ofCells 0 (fun _ => .ifAll [-1]) [(.ifloco, 0), (.endif, 0)]

/-- Pin 1 is inactive, so `IF(-1)` is true, and `IF_ALL(-1)` is false. -/
theorem ifAll_negative_fails : ¬ ∀ (script : Script) (w : Inputs) (this : Addr) (task : RMFT2) (id : Int16)
    (s : Exrail) (vpinList : List Int16), vpinList ≠ [] → Unowned w vpinList →
    script.messages (operandU id) = .ifAll vpinList →
    (Passes script w this task id .ifloco s ↔ ∀ v ∈ vpinList, Passes script w this task v .if_ s) := by
  intro h
  have hread : Unowned .idle [-1] := fun _ _ _ => rfl
  have hiff := h ifAllOff .idle 0 .zero 0 (init bareRails [] fun _ => .zero) [-1] (by decide) hread rfl
  rw [passes_ifAll rfl hread] at hiff
  have hall := hiff.mpr fun v hv => by
    rw [List.mem_singleton.mp hv, passes_if]
    decide
  exact (hall (-1) (List.mem_singleton_self _)).1 (by decide)

end Lists

/-! ## `ATTIMEOUT` -/

/-- The boards with an `int` of 16 bits -/
def narrow : Platform → Bool
  | .uno | .avr => true
  | .arm | .esp32 => false

/-- The operand of the `PAD` that `ATTIMEOUT(vpin,ms)` compiles to, `V(ms/100L)`. -/
def attimeoutOperand (ms : Nat) : UInt16 := UInt16.ofNat (ms / 100)

section AtTimeout

variable {platform : Platform} {ms : Nat}

/-- The time is exact in tenths of a second, in 16 bits where `int` is narrow. -/
theorem toNat_timeout (h : ms ≤ 3276700) : (timeout platform (attimeoutOperand ms)).toNat =
    if narrow platform then 100 * (ms / 100) % 65536 else 100 * (ms / 100) := by
  have hoperand : (attimeoutOperand ms).toNat = ms / 100 := by
    rw [attimeoutOperand, UInt16.toNat_ofNat']
    exact Nat.mod_eq_of_lt (by omega)
  have hnarrow : (100 * attimeoutOperand ms).toUInt32.toNat = 100 * (ms / 100) % 65536 := by
    rw [UInt16.toNat_toUInt32, UInt16.toNat_mul, hoperand]
    rfl
  have hwide : (100 * (attimeoutOperand ms).toUInt32).toNat = 100 * (ms / 100) := by
    rw [UInt32.toNat_mul, UInt16.toNat_toUInt32, hoperand]
    exact Nat.mod_eq_of_lt (by simp only [UInt32.reduceToNat]; omega)
  cases platform with
  | uno => exact hnarrow
  | avr => exact hnarrow
  | arm => exact hwide
  | esp32 => exact hwide

/-- `ATTIMEOUT2` reports a time-out only after more than its time. -/
theorem attimeout2_reports {operand : Int16} {flow : Flow} {s' : Exrail} (hthis : this ∈ s.tasks.live)
    (hbefore : (s.tasks.mem this).blinkState ≠ .atTimeout)
    (hok : execute script w this task operand (some .attimeout2) s = .ok (flow, s'))
    (hafter : (s'.tasks.mem this).blinkState = .atTimeout) :
    timeout s.platform (arg script task 1) < w.millis - task.timer := by
  by_contra hnot
  have hwp : wp (fun _ => True) (execute script w this task operand (some .attimeout2))
      (fun _ s' => (s'.tasks.mem this).blinkState ≠ .atTimeout) s := by
    show wp _ (atTimeout2 script w this task operand) _ s
    simp only [atTimeout2, wp_bind, wp_get]
    refine wp_ite (fun _ => hbefore) fun _ => ?_
    rw [if_neg hnot]
    simp only [thenReturn, delayMe, wp_bind]
    refine wp_write hthis ?_
    simp only [wp_pure, Tasks.write_mem_self]
    exact hbefore
  exact wp_of_ok hok hwp hafter

/-- The table `ATTIMEOUT2(0) PAD(tenths)` -/
def attimeoutScript (ms : Nat) : Script :=
  Script.ofCells 0 (fun _ => .text) [(.attimeout2, 0), (.pad, attimeoutOperand ms)]

theorem arg_attimeoutScript : arg (attimeoutScript ms) .zero 1 = attimeoutOperand ms :=
  getOperand_ofCells (k := 0)

/-- A board at start-up, with one task -/
def atStart (platform : Platform) : Exrail :=
  let s := init (JoinStation.init (Station.init platform 1 []) false) [] fun _ => .zero
  { s with tasks := { s.tasks with live := [0] } }

/-- It reports as soon as more than its time is over. -/
theorem attimeout2_early {t : UInt32} (h : timeout platform (attimeoutOperand ms) < t) :
    ∃ s', execute (attimeoutScript ms) { Inputs.idle with millis := t } 0 .zero 0 (some .attimeout2)
        (atStart platform) = .ok (.breaks, s') ∧ (s'.tasks.mem 0).blinkState = .atTimeout := by
  have hwp : wp (fun _ => False) (execute (attimeoutScript ms) { Inputs.idle with millis := t } 0 .zero 0
      (some .attimeout2)) (fun flow s' => flow = .breaks ∧ (s'.tasks.mem 0).blinkState = .atTimeout)
      (atStart platform) := by
    show wp _ (atTimeout2 (attimeoutScript ms) { Inputs.idle with millis := t } 0 .zero 0) _ _
    have hover : timeout (atStart platform).platform (arg (attimeoutScript ms) .zero 1) <
        t - RMFT2.zero.timer := by
      rw [arg_attimeoutScript]
      exact h.trans_eq (UInt32.sub_zero t).symm
    have hsensor : readSensor { Inputs.idle with millis := t } (atStart platform).tasks (operandU 0) = false := by
      simp [readSensor, atStart, init, Tasks.init, Tasks.getFlag, operandU, Inputs.idle]
    simp only [atTimeout2, wp_bind, wp_get, hsensor, Bool.false_eq_true, if_false]
    rw [if_pos hover]
    simp only [thenBreak, wp_bind, wp_pure]
    refine wp_write (List.mem_singleton_self _) ⟨trivial, ?_⟩
    rw [Tasks.write_mem_self]
  obtain ⟨flow, s', hok, rfl, hstate⟩ := wp_iff_exists.mp hwp
  exact ⟨s', hok, hstate⟩

/-- **`ATTIMEOUT`** never reports early, exactly if the timeout is a multiple of 100 ms, or one more, and
for an `int` of 16 bits below 65536 ms. -/
theorem attimeout_iff (hms : ms ≤ 3276700) :
    (∀ (script : Script) (w : Inputs) (this : Addr) (task : RMFT2) (operand : Int16) (s s' : Exrail) (flow : Flow),
      s.platform = platform → this ∈ s.tasks.live → (s.tasks.mem this).blinkState ≠ .atTimeout →
      arg script task 1 = attimeoutOperand ms →
      execute script w this task operand (some .attimeout2) s = .ok (flow, s') →
      (s'.tasks.mem this).blinkState = .atTimeout → ms ≤ (w.millis - task.timer).toNat) ↔
    ms % 100 ≤ 1 ∧ (narrow platform = true → 100 * (ms / 100) < 65536) := by
  have htime := @toNat_timeout platform ms hms
  have hexact : ms ≤ (timeout platform (attimeoutOperand ms)).toNat + 1 ↔
      ms % 100 ≤ 1 ∧ (narrow platform = true → 100 * (ms / 100) < 65536) := by
    rw [htime]
    cases narrow platform <;> simp <;> omega
  rw [← hexact]
  constructor
  · intro h
    -- the first clock at which it reports
    have hlt : timeout platform (attimeoutOperand ms) < timeout platform (attimeoutOperand ms) + 1 := by
      rw [UInt32.lt_iff_toNat_lt, UInt32.toNat_add, htime]
      simp only [UInt32.reduceToNat]
      split <;> omega
    obtain ⟨s', hok, hstate⟩ := attimeout2_early hlt
    have hle := h (attimeoutScript ms) _ 0 .zero 0 (atStart platform) s' .breaks rfl
      (List.mem_singleton_self _) (by simp [atStart, init, Tasks.init, RMFT2.zero]) arg_attimeoutScript hok
      hstate
    refine hle.trans ?_
    simp only [RMFT2.zero, UInt32.sub_zero, UInt32.toNat_add, UInt32.reduceToNat]
    exact Nat.mod_le _ _
  · intro h script w this task operand s s' flow hplatform hthis hbefore harg hok hafter
    have hreport := attimeout2_reports hthis hbefore hok hafter
    rw [harg, hplatform, UInt32.lt_iff_toNat_lt] at hreport
    omega

end AtTimeout

/-! ## `SPEED_REL` -/

section SpeedRel

open WiThrottle

variable {platform : Platform} {percent : Nat} {T : Targets} {l : UInt16}

/-- The percentage of a speed, cut at 127 and without the emergency stop. -/
def exactSpeed (speed percent : Nat) : Nat :=
  let newspeed := min 127 (speed * percent / 100)
  if newspeed = 1 then 0 else newspeed

/-- The product of speed and percentage with which `SPEED_REL` comes out right. An `int` of 16 bits wraps from
32768 on; there are two stretches where the seven bits that are left are all set by chance. -/
def productOk (platform : Platform) (product : Nat) : Prop :=
  narrow platform = false ∨ product < 32768 ∨ (39737 ≤ product ∧ product ≤ 39836) ∨
    (52537 ≤ product ∧ product ≤ 52636)

theorem toNat_masked_ofInt (n : Int) : (UInt8.ofInt n &&& 0x7f).toNat = (n % 128).toNat := by
  have hbyte : (UInt8.ofInt n).toNat = (n % 256).toNat := by
    show (UInt8.ofNat (n % 256).toNat).toNat = _
    rw [UInt8.toNat_ofNat']
    omega
  rw [UInt8.toNat_and, hbyte]
  show _ &&& (2 ^ 7 - 1) = _
  rw [Nat.and_two_pow_sub_one_eq_mod]
  omega

/-- The product of speed and percentage, in the `int` arithmetic of the board -/
def productOf (platform : Platform) (speed : UInt8) (operand : Int16) : Int :=
  if narrow platform then (Int16.ofNat speed.toNat * operand).toInt else speed.toNat * operand.toInt

/-- The speed is the product in hundredths, at most 127, and 0 for the estop. -/
theorem toNat_speedRel {speed : UInt8} {operand : Int16} :
    (speedRel platform speed operand &&& 0x7f).toNat =
      if 127 < (productOf platform speed operand).tdiv 100 then 127
      else if (productOf platform speed operand).tdiv 100 = 1 then 0
      else ((productOf platform speed operand).tdiv 100 % 128).toNat := by
  have hspeed : speedRel platform speed operand =
      if 127 < (productOf platform speed operand).tdiv 100 then 127
      else if (productOf platform speed operand).tdiv 100 = 1 then 0
      else UInt8.ofInt ((productOf platform speed operand).tdiv 100) := by
    cases platform <;> rfl
  rw [hspeed]
  split
  · rfl
  · split
    · rfl
    · exact toNat_masked_ofInt _

/-- The product is exact but where `int` is narrow: from 32768 on it is negative. -/
theorem product_eq {speed : UInt8} (hspeed : speed.toNat ≤ 127) (hpercent : percent ≤ 500) :
    productOf platform speed (Int16.ofNat percent) =
      if narrow platform = true ∧ 32768 ≤ speed.toNat * percent then
        ((speed.toNat * percent : Nat) : Int) - 65536
      else (speed.toNat * percent : Nat) := by
  have hle : speed.toNat * percent ≤ 63500 := Nat.mul_le_mul hspeed hpercent
  rw [productOf]
  cases narrow platform with
  | true =>
    rw [if_pos rfl, ← Int16.ofNat_mul, Int16.toInt_ofNat', Int.bmod_def]
    generalize speed.toNat * percent = p at hle ⊢
    norm_num
    split <;> split <;> omega
  | false =>
    have hoperand : (Int16.ofNat percent).toInt = percent := Int16.toInt_ofNat_of_lt (by omega)
    rw [if_neg Bool.false_ne_true, if_neg fun h => Bool.false_ne_true h.1, hoperand, Nat.cast_mul]

/-- The speed is the exact one if and only if the product of speed and percentage fits in an `int`. -/
theorem speedRel_iff {speed : UInt8} (hspeed : 2 ≤ speed.toNat ∧ speed.toNat ≤ 127)
    (hpercent : 1 ≤ percent ∧ percent ≤ 500) :
    (speedRel platform speed (Int16.ofNat percent) &&& 0x7f).toNat = exactSpeed speed.toNat percent ↔
      productOk platform (speed.toNat * percent) := by
  have hle : speed.toNat * percent ≤ 63500 := Nat.mul_le_mul hspeed.2 hpercent.2
  rw [toNat_speedRel, product_eq hspeed.2 hpercent.2, exactSpeed, productOk]
  generalize speed.toNat * percent = p at hle ⊢
  by_cases hwraps : narrow platform = true ∧ 32768 ≤ p
  · have hquotient : ((p : Int) - 65536).tdiv 100 = -((65536 - p : Nat) / 100 : Nat) := by
      have hneg : (p : Int) - 65536 = -((65536 - p : Nat) : Int) := by omega
      rw [hneg, Int.neg_tdiv, Int.tdiv_eq_ediv_of_nonneg (by omega)]
      omega
    have hfull : min 127 (p / 100) = 127 := by omega
    rw [if_pos hwraps, hquotient, hfull, if_neg (by omega), if_neg (by omega)]
    simp only [hwraps.1, Bool.true_eq_false, false_or, Nat.reduceEqDiff, if_false]
    omega
  · have hproduct : narrow platform = false ∨ p < 32768 := by
      cases hnarrow : narrow platform with
      | false => exact .inl rfl
      | true => exact .inr (by by_contra hlarge; exact hwraps ⟨hnarrow, by omega⟩)
    rw [if_neg hwraps, Int.tdiv_eq_ediv_of_nonneg (by omega)]
    refine iff_of_true ?_ (hproduct.imp_right .inl)
    split
    · rw [if_neg (by omega)]
      omega
    · split
      · rw [if_pos (by omega)]
      · rw [if_neg (by omega)]
        omega

/-- What `SPEED_REL` leaves. -/
def afterSpeedRel (platform : Platform) (T : Targets) (l : UInt16) (operand : Int16) : Targets :=
  if 2 ≤ T.speedByte l &&& 0x7f then
    driven T l (speedRel platform (T.speedByte l &&& 0x7f) operand &&& 0x7f)
  else T

variable {F : Crash → Prop}

theorem wp_setSpeed_driven (hT : s.Shows T) (hl : l ≠ 0) {tSpeed : UInt8} :
    wp F (Exrail.setSpeed w l tSpeed) (fun _ s' => s'.Shows (driven T l (tSpeed &&& 0x7f))) s := by
  simp only [Exrail.setSpeed, DCC.getThrottleDirection, setThrottle, wp_bind, wp_pure]
  refine wp_station ?_
  rw [wp_bind]
  refine DCC.wp_getThrottleSpeedByte hT ?_
  rw [wp_pure]
  exact wp_station (wp_mono (DCC.wp_setThrottle_code hT hl rfl) fun _ _ h => h)

/-- The opcode gives the loco the speed that `speedRel` computes. -/
theorem wp_speedRel {operand : Int16} (hT : s.Shows T) (hloco : task.loco ≠ 0) :
    wp F (execute script w this task operand (some .speedRel)) (fun flow s' => flow = .breaks ∧
      s'.Shows (afterSpeedRel s.platform T task.loco operand)) s := by
  show wp F (changeSpeed w task 2 fun platform speed => speedRel platform speed operand) _ s
  simp only [changeSpeed, ifLoco, thenBreak, wp_bind, wp_pure, when, if_pos hloco, wp_get]
  refine wp_station ?_
  rw [DCC.getThrottleSpeed, wp_bind]
  refine DCC.wp_getThrottleSpeedByte hT ?_
  rw [wp_pure, afterSpeedRel]
  by_cases hmoves : 2 ≤ T.speedByte task.loco &&& 0x7f
  · have hne : T.speedByte task.loco &&& 0x7f ≠ 1 := by
      intro hone
      rw [hone] at hmoves
      exact absurd hmoves (by decide)
    rw [if_pos hmoves, if_pos ⟨hmoves, hne⟩]
    exact wp_mono (wp_setSpeed_driven (s := { s with rails.station := s.rails.station }) hT hloco)
      fun _ _ h => ⟨trivial, h⟩
  · rw [if_neg hmoves, if_neg fun h => hmoves h.1]
    exact ⟨trivial, hT⟩

theorem exactSpeed_le (speed percent : Nat) : exactSpeed speed percent ≤ 127 ∧ exactSpeed speed percent ≠ 1 := by
  simp only [exactSpeed]
  split <;> omega

theorem masked_exactSpeed (speed percent : Nat) : UInt8.ofNat (exactSpeed speed percent) &&& 0x7f =
    UInt8.ofNat (exactSpeed speed percent) := by
  have hle := (exactSpeed_le speed percent).1
  have hnat : (UInt8.ofNat (exactSpeed speed percent)).toNat = exactSpeed speed percent := by
    rw [UInt8.toNat_ofNat']
    exact Nat.mod_eq_of_lt (by omega)
  rw [← UInt8.toNat_inj, UInt8.toNat_and, hnat]
  show _ &&& (2 ^ 7 - 1) = _
  rw [Nat.and_two_pow_sub_one_eq_mod]
  exact Nat.mod_eq_of_lt (by omega)

/-- A loco that stands still keeps standing. -/
theorem driven_zero (h : T.speedByte l &&& 0x7f = 0) (k : UInt16) :
    (driven T l 0).speedByte k = T.speedByte k := by
  have hsame : inDirection 0 (T.speedByte l) = T.speedByte l := by
    have hself := DCC.speedCode_eq (T.speedByte l)
    rwa [show T.speedByte l &&& 0x7f &&& 0x7F = 0 by rw [h]; rfl] at hself
  cases hslot : T.slot l with
  | some code =>
    have hbyte : T.speedByte l = code := by rw [Targets.speedByte, hslot, Option.getD_some]
    rw [driven_of_slot (by rw [hsame, hbyte, hslot])]
  | none =>
    have hbyte : T.speedByte l = 128 := by rw [Targets.speedByte, hslot, Option.getD_none]
    rw [driven, hsame]
    by_cases hk : k = l
    · rw [hk, Targets.speedByte, (Targets.setThrottle_of_no_slot hslot).2, hbyte]
      split <;> rfl
    · rw [Targets.speedByte, Targets.slot_setThrottle_other hslot hk, Targets.speedByte]

/-- **`SPEED_REL`** makes the exact speed of every loco that is no follower in a consist and not stopped in an
emergency, exactly if the product is all right. -/
theorem speedRel_exact_iff (hpercent : 1 ≤ percent ∧ percent ≤ 500) :
    (∀ k, (afterSpeedRel platform T l (Int16.ofNat percent)).speedByte k =
      (driven T l (UInt8.ofNat (exactSpeed (T.speedByte l &&& 0x7f).toNat percent))).speedByte k) ↔
    T.lead l ≠ none ∨ (T.speedByte l &&& 0x7f).toNat ≠ 1 ∧
      productOk platform ((T.speedByte l &&& 0x7f).toNat * percent) := by
  by_cases hlead : T.lead l = none
  swap
  · have hnot : ∀ code, driven T l code = T := fun code => driven_of_not_settable fun h => hlead h.1
    refine iff_of_true (fun k => ?_) (.inl hlead)
    rw [afterSpeedRel, hnot, hnot, ite_self]
  have hexact := exactSpeed_le (T.speedByte l &&& 0x7f).toNat percent
  have hmask := masked_exactSpeed (T.speedByte l &&& 0x7f).toNat percent
  have hrange : (T.speedByte l &&& 0x7f).toNat ≤ 127 := by
    rw [UInt8.toNat_and]
    exact Nat.and_le_right
  have hsettable : (T.speedByte l &&& 0x7f).toNat ≠ 0 → Settable T l := by
    refine fun hmoves => ⟨hlead, fun hnone => absurd ?_ hmoves⟩
    rw [Targets.speedByte, hnone]
    rfl
  rw [or_iff_right (not_not.mpr hlead)]
  generalize hcode : UInt8.ofNat (exactSpeed (T.speedByte l &&& 0x7f).toNat percent) = code at hmask ⊢
  have hcodeNat : code.toNat = exactSpeed (T.speedByte l &&& 0x7f).toNat percent := by
    rw [← hcode, UInt8.toNat_ofNat']
    exact Nat.mod_eq_of_lt (by omega)
  -- the speed that a loco in a slot has afterwards
  have hbyte : ∀ code, Settable T l → (driven T l code).speedByte l = inDirection code (T.speedByte l) := by
    intro code hset
    rw [Targets.speedByte, slot_driven hset, Option.getD_some]
  by_cases hmoves : 2 ≤ T.speedByte l &&& 0x7f
  · have htwo : 2 ≤ (T.speedByte l &&& 0x7f).toNat := UInt8.le_iff_toNat_le.mp hmoves
    have hset : Settable T l := hsettable (by omega)
    rw [afterSpeedRel, if_pos hmoves, and_iff_right (by omega : (T.speedByte l &&& 0x7f).toNat ≠ 1),
      ← speedRel_iff ⟨htwo, hrange⟩ hpercent, ← hcodeNat, UInt8.toNat_inj]
    constructor
    · intro h
      have hl := h l
      rwa [hbyte _ hset, hbyte _ hset, inDirection_inj] at hl
    · intro h k
      rw [h]
  · have hless : (T.speedByte l &&& 0x7f).toNat < 2 := by
      rw [UInt8.le_iff_toNat_le] at hmoves
      exact Nat.lt_of_not_le hmoves
    rw [afterSpeedRel, if_neg hmoves]
    by_cases hone : (T.speedByte l &&& 0x7f).toNat = 1
    · refine iff_of_false (fun h => ?_) fun h => h.1 hone
      have hl := h l
      rw [hbyte code (hsettable (by omega))] at hl
      have hlow : (T.speedByte l &&& 0x7f).toNat = (inDirection code (T.speedByte l) &&& 0x7f).toNat :=
        congrArg (fun speed => (speed &&& 0x7f).toNat) hl
      rw [← hmask, and_inDirection, hmask, hone, hcodeNat] at hlow
      exact hexact.2 hlow.symm
    · have hzero : (T.speedByte l &&& 0x7f).toNat = 0 := by omega
      have hcode0 : code = 0 := by
        rw [← hcode, hzero, exactSpeed, Nat.zero_mul]
        rfl
      refine iff_of_true (fun k => ?_) ⟨hone, ?_⟩
      · rw [hcode0, driven_zero (UInt8.toNat_inj.mp hzero)]
      · rw [hzero, Nat.zero_mul]
        exact .inr (.inl (by decide))

end SpeedRel

/-! ## The arithmetic of both -/

/-- **`ATTIMEOUT` and `SPEED_REL`** come out right, exactly for the timeouts and the products that fit. -/
theorem arithmetic_iff (platform : Platform) :
    (∀ ms, ms ≤ 3276700 →
      ((∀ (script : Script) (w : Inputs) (this : Addr) (task : RMFT2) (operand : Int16) (s s' : Exrail)
          (flow : Flow), s.platform = platform → this ∈ s.tasks.live →
          (s.tasks.mem this).blinkState ≠ .atTimeout → arg script task 1 = attimeoutOperand ms →
          execute script w this task operand (some .attimeout2) s = .ok (flow, s') →
          (s'.tasks.mem this).blinkState = .atTimeout → ms ≤ (w.millis - task.timer).toNat) ↔
        ms % 100 ≤ 1 ∧ (narrow platform = true → 100 * (ms / 100) < 65536))) ∧
    ∀ (script : Script) (w : Inputs) (this : Addr) (task : RMFT2) (s : Exrail) (T : Targets) (percent : Nat),
      s.platform = platform → s.Shows T → task.loco ≠ 0 → 1 ≤ percent ∧ percent ≤ 500 →
      ∃ T', wp (fun _ => False) (execute script w this task (Int16.ofNat percent) (some .speedRel))
          (fun flow s' => flow = .breaks ∧ s'.Shows T') s ∧
        ((∀ k, T'.speedByte k = (WiThrottle.driven T task.loco (UInt8.ofNat
            (exactSpeed (T.speedByte task.loco &&& 0x7f).toNat percent))).speedByte k) ↔
          T.lead task.loco ≠ none ∨ (T.speedByte task.loco &&& 0x7f).toNat ≠ 1 ∧
            productOk platform ((T.speedByte task.loco &&& 0x7f).toNat * percent)) := by
  refine ⟨fun ms hms => attimeout_iff hms, fun script w this task s T percent hplatform hT hloco hpercent => ?_⟩
  refine ⟨_, wp_speedRel hT hloco, ?_⟩
  rw [hplatform]
  exact speedRel_exact_iff hpercent

/-- `ATTIMEOUT(vpin,65600)` reports after 65 ms where an `int` has 16 bits. -/
theorem attimeout_wraps : ¬ ∀ (ms : Nat), ms ≤ 3276700 →
    ∀ (script : Script) (w : Inputs) (this : Addr) (task : RMFT2) (operand : Int16) (s s' : Exrail) (flow : Flow),
      this ∈ s.tasks.live → (s.tasks.mem this).blinkState ≠ .atTimeout →
      arg script task 1 = attimeoutOperand ms →
      execute script w this task operand (some .attimeout2) s = .ok (flow, s') →
      (s'.tasks.mem this).blinkState = .atTimeout → ms ≤ (w.millis - task.timer).toNat := by
  intro h
  obtain ⟨s', hok, hstate⟩ := @attimeout2_early .avr 65600 65 (by decide)
  have hle := h 65600 (by decide) _ _ 0 .zero 0 (atStart .avr) s' .breaks (List.mem_singleton_self _)
    (by simp [atStart, init, Tasks.init, RMFT2.zero]) arg_attimeoutScript hok hstate
  exact absurd hle (by decide)

end CommandStation.Exrail
