import CommandStation.DCC.Accessories
import CommandStation.DCCEXParser.KeywordHasher
import CommandStation.Turnouts.Create
import CommandStation.WiThrottle.Speeds

/-!
# Ways to operate an accessory

`DCC::setAccessory` gets the address and the port of an accessory from `<a>`, from the turnouts that `<T>`
and a WiThrottle client define, and from the scripts of EXRAIL. Each of these checks its arguments in its
own way, or not at all, and keeps them in integers of its own. A linear address counts the ports from
address 1 on.
-/

namespace CommandStation

/-! ## The command `<a>` -/

namespace DCCEXParser

/-- The end of `case 'a'` of `parseOne`. -/
def accessory (reverse : Bool) (address : Int) (subaddress : UInt8) (active : Int16) (onoff : UInt8) :
    AccessoryOutcome :=
  if address < 0 ∨ 511 < address            -- invalid address (limit 9 bits)
    ∨ 3 < subaddress                        -- invalid subaddress (limit 2 bits)
    ∨ 1 < active.toInt ∨ active.toInt < 0   -- invalid activate 0|1
  then .rejected
  else .accepted (some ⟨address, subaddress, if reverse then active == 0 else active == 1, onoff⟩)

/-- `case 'a'` of `parseOne`. `reverse` is `DCC_ACCESSORY_COMMAND_REVERSE`. -/
def aCommand (platform : Platform) (reverse : Bool) (params : Nat) (p : Nat → Int16) : AccessoryOutcome :=
  if params = 2 then  -- <a LINEARADDRESS ACTIVATE>
    let n := platform.wrap ((p 0).toInt - 1)
    accessory reverse (n.tdiv 4 + 1) (UInt8.ofInt (n.tmod 4)) (p 1) 2
  else if params = 3 then  -- <a ADDRESS SUBADDRESS ACTIVATE>
    accessory reverse (p 0).toInt (UInt8.ofInt (p 1).toInt) (p 2) 2
  else if params = 4 then  -- <a ADDRESS SUBADDRESS ACTIVATE ONOFF>
    if (p 3).toInt < 0 ∨ 1 < (p 3).toInt then .rejected
    else accessory reverse (p 0).toInt (UInt8.ofInt (p 1).toInt) (p 2) (UInt8.ofInt (p 3).toInt)
  else .rejected

end DCCEXParser

/-! ## Turnouts -/

/-- The call that `Turnout::setClosed` makes, if the turnout is one of DCC. `rcn213` is
`DCC_TURNOUTS_RCN_213`. -/
def Turnout.setClosedCall (turnouts : Turnouts) (rcn213 : Bool) (id : UInt16) (close : Bool) :
    Option AccessoryCall :=
  (Turnout.get turnouts.list id).bind fun tt =>
    match tt.kind with
    | .dcc address subAddress => some ⟨address.toNat, subAddress, if rcn213 then close else !close, 2⟩
    | _ => none

/-- What `<T>` creates. -/
inductive TurnoutCommand where
  | rejected
  | servo (vpin thrownPosition closedPosition : UInt16) (profile : UInt8)
  | vpin (vpin : UInt16)
  | dcc (add : UInt16) (subAdd : UInt8)
  deriving DecidableEq, Repr

/-- The default case of `parseT`: anything else is some kind of turnout create function. -/
def DCCEXParser.parseT (params : Nat) (p : Nat → Int16) : TurnoutCommand :=
  if params = 6 ∧ p 1 = hk "SERVO" then  -- <T id SERVO n n n n>
    .servo (p 2).toUInt16 (p 3).toUInt16 (p 4).toUInt16 (UInt8.ofInt (p 5).toInt)
  else if params = 3 ∧ p 1 = hk "VPIN" then .vpin (p 2).toUInt16  -- <T id VPIN n>
  else if 3 ≤ params ∧ p 1 = hk "DCC" then
    if params = 4 ∧ 0 ≤ (p 2).toInt ∧ (p 2).toInt < 512 ∧ 0 ≤ (p 3).toInt ∧ (p 3).toInt < 4 then
      .dcc (p 2).toUInt16 (UInt8.ofInt (p 3).toInt)  -- <T id DCC n m>
    else if params = 3 ∧ 0 < (p 2).toInt ∧ (p 2).toInt ≤ 512 * 4 then
      -- <T id DCC nn>, 1<=nn<=2048
      .dcc (UInt16.ofInt (((p 2).toInt - 1).tdiv 4 + 1)) (UInt8.ofInt (((p 2).toInt - 1).tmod 4))
    else .rejected
  else if params = 3 then  -- legacy <T id addr subadd> for DCC accessory
    if 0 ≤ (p 1).toInt ∧ (p 1).toInt < 512 ∧ 0 ≤ (p 2).toInt ∧ (p 2).toInt < 4 then
      .dcc (p 1).toUInt16 (UInt8.ofInt (p 2).toInt)
    else .rejected
  else if params = 4 then  -- legacy <T id n n n> for Servo
    .servo (p 1).toUInt16 (p 2).toUInt16 (p 3).toUInt16 1
  else .rejected

/-- A turnout is defined with `<T>`, and operated. -/
def DCCEXParser.tOutcome (turnouts : Turnouts) (rcn213 : Bool) (params : Nat) (p : Nat → Int16)
    (close : Bool) : AccessoryOutcome :=
  match parseT params p with
  | .rejected => .rejected
  | .dcc add subAdd => .accepted (Turnout.setClosedCall
      (DCCTurnout.create turnouts (p 0).toUInt16 add subAdd) rcn213 (p 0).toUInt16 close)
  | .servo .. | .vpin _ => .accepted none  -- nothing for a decoder

namespace WiThrottle

/-- The turnouts after `PTA`, which creates the one that it names if there is none. -/
def ptaTurnouts (platform : Platform) (turnouts : Turnouts) (id : Int) : Turnouts :=
  if Turnout.get turnouts.list (UInt16.ofInt id) = none then
    let n := platform.wrap (id - 1)
    DCCTurnout.create turnouts (UInt16.ofInt id) (UInt16.ofInt (n.tdiv 4 + 1)) (UInt8.ofInt (n.tmod 4))
  else turnouts

/-- `PTA` with a direction. -/
def ptaOutcome (platform : Platform) (turnouts : Turnouts) (rcn213 : Bool) (cmd : List UInt8)
    (close : Bool) : AccessoryOutcome :=
  let id := getInt platform cmd
  .accepted (Turnout.setClosedCall (ptaTurnouts platform turnouts id) rcn213 (UInt16.ofInt id) close)

end WiThrottle

/-! ## EXRAIL -/

namespace Exrail

/-- The operand of `ACTIVATE(addr,subaddr)` or `DEACTIVATE(addr,subaddr)`, of which 16 bits are kept. -/
def activate (addr subaddr : Int) (active : Bool) : UInt16 :=
  UInt16.ofInt addr <<< 3 ||| UInt16.ofInt subaddr <<< 1 ||| (if active then 1 else 0)

/-- The operand of `ACTIVATEL(addr)` or `DEACTIVATEL(addr)`. -/
def activateL (addr : Int) (active : Bool) : UInt16 :=
  UInt16.ofInt (addr + 3) <<< 1 ||| (if active then 1 else 0)

/-- `OPCODE_DCCACTIVATE`. The operand is address<<3 | subaddr<<1 | active. -/
def dccActivate (operand : UInt16) : AccessoryOutcome :=
  .accepted (some
    ⟨(operand.toInt16 >>> 3).toInt, (operand >>> 1 &&& 0x03).toUInt8, operand &&& 0x01 ≠ 0, 2⟩)

end Exrail

/-! ## Integers -/

theorem toNat_ofInt8_emod (i : Int) : ((UInt8.ofInt i).toNat : Int) = i % 256 := by
  rw [UInt8.ofInt, UInt8.toNat_ofNat']
  omega

theorem toNat_ofInt16_emod (i : Int) : ((UInt16.ofInt i).toNat : Int) = i % 65536 := by
  rw [UInt16.ofInt, UInt16.toNat_ofNat']
  omega

/-- Division by 4 in C, with the remainder. -/
theorem tdiv_four (n : Int) : n = 4 * n.tdiv 4 + n.tmod 4 ∧ (0 ≤ n → 0 ≤ n.tmod 4 ∧ n.tmod 4 < 4) ∧
    (n < 0 → -4 < n.tmod 4 ∧ n.tmod 4 ≤ 0) := by
  have hdivision := Int.mul_tdiv_add_tmod n 4
  grind

theorem int16_bounds (i : Int16) : -32768 ≤ i.toInt ∧ i.toInt < 32768 := ⟨i.le_toInt, i.toInt_lt⟩

/-- The difference from one, where it is not too large. -/
theorem Platform.wrap_pred (platform : Platform) (i : Int16) :
    platform.wrap (i.toInt - 1) = i.toInt - 1 ∨ i.toInt = -32768 ∧ platform.wrap (i.toInt - 1) = 32767 := by
  have hi := int16_bounds i
  by_cases hmin : i.toInt = -32768
  · rw [hmin]
    cases platform with
    | uno => exact .inr ⟨rfl, by decide⟩
    | avr => exact .inr ⟨rfl, by decide⟩
    | arm => exact .inl (by decide)
    | esp32 => exact .inl (by decide)
  · exact .inl (platform.wrap_of_short (by omega) (by omega))

variable {a : Accessory}

/-! ## `<a>` -/

namespace DCCEXParser

variable {platform : Platform} {reverse : Bool} {p : Nat → Int16} {address : Int} {subaddress onoff : UInt8}
  {active : Int16}

/-- `<a address subaddress active>` reaches the accessory that its parameters name, if they are in range. -/
theorem accessory_agrees_iff : (accessory reverse address subaddress active onoff).Agrees a ↔
    (0 ≤ address ∧ address ≤ 511 ∧ subaddress.toNat ≤ 3 ∧ 0 ≤ active.toInt ∧ active.toInt ≤ 1 →
      a = ⟨address, subaddress.toNat⟩) := by
  have hsub : 3 < subaddress ↔ 3 < subaddress.toNat := UInt8.lt_iff_toNat_lt
  have hsub' : subaddress ≤ 3 ↔ subaddress.toNat ≤ 3 := UInt8.le_iff_toNat_le
  unfold accessory
  split
  · next hout =>
    rw [hsub] at hout
    exact ⟨fun _ hin => by omega, fun _ => agrees_rejected⟩
  · next hin =>
    rw [hsub] at hin
    rw [agrees_accepted, reaches_iff]
    dsimp only
    rw [hsub']
    constructor
    · exact fun h _ => h.2
    · exact fun h => ⟨by omega, h (by omega)⟩

/-- `<a linear act>` -/
theorem aCommand_linear : (aCommand platform reverse 2 p).Agrees (.linear (p 0).toInt) := by
  rw [aCommand, if_pos rfl]
  dsimp only
  rw [accessory_agrees_iff]
  rintro ⟨hlow, hhigh, hsub, -⟩
  have hbyte := toNat_ofInt8_emod ((platform.wrap ((p 0).toInt - 1)).tmod 4)
  have hdivision := tdiv_four (platform.wrap ((p 0).toInt - 1))
  have hp := int16_bounds (p 0)
  rcases platform.wrap_pred (p 0) with hwrap | ⟨-, hwrap⟩
  · rw [hwrap] at hlow hhigh hsub hbyte hdivision ⊢
    have hrest : 0 ≤ ((p 0).toInt - 1).tmod 4 := by omega
    rw [Accessory.linear, Accessory.mk.injEq]
    omega
  · rw [hwrap] at hhigh
    exact absurd hhigh (by decide)

/-- `<a addr sub act>` and `<a addr sub act onoff>` -/
theorem aCommand_agrees_iff {params : Nat} (hparams : params = 3 ∨ params = 4) :
    (aCommand platform reverse params p).Agrees ⟨(p 0).toInt, (p 1).toInt⟩ ↔
      (0 ≤ (p 0).toInt ∧ (p 0).toInt ≤ 511 ∧ (p 1).toInt % 256 ≤ 3 ∧ 0 ≤ (p 2).toInt ∧ (p 2).toInt ≤ 1 ∧
        (params = 4 → 0 ≤ (p 3).toInt ∧ (p 3).toInt ≤ 1) → 0 ≤ (p 1).toInt ∧ (p 1).toInt ≤ 3) := by
  have hbyte := toNat_ofInt8_emod (p 1).toInt
  have hport : (p 1).toInt = ((UInt8.ofInt (p 1).toInt).toNat : Int) ↔
      0 ≤ (p 1).toInt ∧ (p 1).toInt ≤ 255 := by
    omega
  rcases hparams with rfl | rfl
  · rw [aCommand, if_neg (by decide), if_pos rfl, accessory_agrees_iff, Accessory.mk.injEq, hport]
    constructor
    · intro h hin
      have hbyte' := h ⟨hin.1, hin.2.1, by omega, hin.2.2.2.1, hin.2.2.2.2.1⟩
      omega
    · intro h hin
      have hsmall := h ⟨hin.1, hin.2.1, by omega, hin.2.2.2.1, hin.2.2.2.2, fun h => absurd h (by decide)⟩
      exact ⟨rfl, by omega⟩
  · rw [aCommand, if_neg (by decide), if_neg (by decide), if_pos rfl]
    split
    · next hout =>
      refine ⟨fun _ hin => ?_, fun _ => agrees_rejected⟩
      have honoff := hin.2.2.2.2.2 rfl
      omega
    · next honoff =>
      rw [accessory_agrees_iff, Accessory.mk.injEq, hport]
      constructor
      · intro h hin
        have hbyte' := h ⟨hin.1, hin.2.1, by omega, hin.2.2.2.1, hin.2.2.2.2.1⟩
        omega
      · intro h hin
        have hsmall := h ⟨hin.1, hin.2.1, by omega, hin.2.2.2.1, hin.2.2.2.2, fun _ => by omega⟩
        exact ⟨rfl, by omega⟩

end DCCEXParser

/-! ## `<T>` and `PTA` -/

variable {turnouts : Turnouts} {id add : UInt16} {subAdd : UInt8} {rcn213 close : Bool}

/-- A DCC turnout has fourteen bits for the address and two for the subaddress. -/
theorem setClosedCall_agrees_iff :
    (AccessoryOutcome.accepted (Turnout.setClosedCall (DCCTurnout.create turnouts id add subAdd) rcn213
      id close)).Agrees a ↔
      add.toNat % 16384 ≤ 511 ∧ a = ⟨(add.toNat % 16384 : Nat), (subAdd.toNat % 4 : Nat)⟩ := by
  obtain ⟨tt, hget, hkind⟩ := @DCCTurnout.get_create id add subAdd turnouts
  have hadd : (add &&& 0x3FFF).toNat = add.toNat % 16384 := by
    rw [UInt16.toNat_and]
    exact Nat.and_two_pow_sub_one_eq_mod _ 14
  have hsub : (subAdd &&& 3).toNat = subAdd.toNat % 4 := by
    rw [UInt8.toNat_and]
    exact Nat.and_two_pow_sub_one_eq_mod _ 2
  rw [Turnout.setClosedCall, hget, Option.bind_some, hkind]
  show (AccessoryOutcome.accepted (some _)).Agrees a ↔ _
  rw [agrees_accepted, reaches_iff]
  dsimp only
  rw [hadd, hsub, UInt8.le_iff_toNat_le, hsub]
  constructor
  · exact fun h => ⟨by omega, h.2⟩
  · exact fun h => ⟨⟨by omega, by omega, by show subAdd.toNat % 4 ≤ 3; omega⟩, h.2⟩

namespace DCCEXParser

variable {p : Nat → Int16}

theorem toNat_toUInt16_of_nonneg {i : Int16} (hi : 0 ≤ i.toInt) : (i.toUInt16.toNat : Int) = i.toInt := by
  have hcond := BitVec.toInt_eq_toNat_cond i.toBitVec
  have hlt := i.toUInt16.toNat_lt
  show (i.toBitVec.toNat : Int) = i.toBitVec.toInt
  rw [← Int16.toInt_toBitVec] at hi
  change i.toBitVec.toNat < 65536 at hlt
  rw [hcond] at hi ⊢
  split <;> omega

/-- `<T id DCC addr subadd>` -/
theorem tOutcome_dcc (hkeyword : p 1 = hk "DCC") :
    (tOutcome turnouts rcn213 4 p close).Agrees ⟨(p 2).toInt, (p 3).toInt⟩ := by
  have hbyte := toNat_ofInt8_emod (p 3).toInt
  unfold tOutcome parseT
  rw [if_neg (by simp), if_neg (by simp), if_pos ⟨by decide, hkeyword⟩]
  by_cases hin : 0 ≤ (p 2).toInt ∧ (p 2).toInt < 512 ∧ 0 ≤ (p 3).toInt ∧ (p 3).toInt < 4
  · have hword := toNat_toUInt16_of_nonneg hin.1
    rw [if_pos ⟨rfl, hin⟩]
    dsimp only
    rw [setClosedCall_agrees_iff, Accessory.mk.injEq]
    omega
  · rw [if_neg (fun h => hin h.2), if_neg (by simp)]
    exact agrees_rejected

/-- `<T id DCC nn>` -/
theorem tOutcome_linear_iff (hkeyword : p 1 = hk "DCC") :
    (tOutcome turnouts rcn213 3 p close).Agrees (.linear (p 2).toInt) ↔
      ¬ (2044 < (p 2).toInt ∧ (p 2).toInt ≤ 2048) := by
  have hvpin : p 1 ≠ hk "VPIN" := by
    rw [hkeyword]
    decide
  have hbyte := toNat_ofInt8_emod (((p 2).toInt - 1).tmod 4)
  have hword := toNat_ofInt16_emod (((p 2).toInt - 1).tdiv 4 + 1)
  have hdivision := tdiv_four ((p 2).toInt - 1)
  unfold tOutcome parseT
  rw [if_neg (by simp), if_neg (fun h => hvpin h.2), if_pos ⟨by decide, hkeyword⟩, if_neg (by simp)]
  by_cases hin : 0 < (p 2).toInt ∧ (p 2).toInt ≤ 512 * 4
  · rw [if_pos ⟨rfl, hin⟩]
    dsimp only
    rw [setClosedCall_agrees_iff, Accessory.linear, Accessory.mk.injEq]
    omega
  · rw [if_neg (fun h => hin h.2)]
    exact ⟨fun _ => by omega, fun _ => agrees_rejected⟩

/-- `<T id addr subadd>`, unless the address is the number of a keyword. -/
theorem tOutcome_legacy_iff :
    (tOutcome turnouts rcn213 3 p close).Agrees ⟨(p 1).toInt, (p 2).toInt⟩ ↔
      p 1 ≠ hk "VPIN" ∧ ¬ (p 1 = hk "DCC" ∧ 0 < (p 2).toInt ∧ (p 2).toInt ≤ 2048) := by
  have hkeywords : hk "DCC" ≠ hk "VPIN" ∧ 511 < (hk "DCC").toInt := by decide
  unfold tOutcome parseT
  rw [if_neg (by simp)]
  by_cases hvpin : p 1 = hk "VPIN"
  · rw [if_pos ⟨rfl, hvpin⟩]
    refine ⟨fun h => ?_, fun h => absurd hvpin h.1⟩
    obtain ⟨call, hcall, -⟩ := h none rfl
    cases hcall
  rw [if_neg (fun h => hvpin h.2)]
  by_cases hdcc : p 1 = hk "DCC"
  · rw [if_pos ⟨by decide, hdcc⟩, if_neg (by simp)]
    by_cases hin : 0 < (p 2).toInt ∧ (p 2).toInt ≤ 512 * 4
    · rw [if_pos ⟨rfl, hin⟩]
      dsimp only
      rw [setClosedCall_agrees_iff, Accessory.mk.injEq, hdcc]
      constructor
      · rintro ⟨hsmall, haddress, -⟩
        omega
      · exact fun h => absurd ⟨rfl, hin⟩ h.2
    · rw [if_neg (fun h => hin h.2)]
      exact ⟨fun _ => ⟨hvpin, fun h => hin h.2⟩, fun _ => agrees_rejected⟩
  · rw [if_neg (fun h => hdcc h.2), if_pos rfl]
    refine ⟨fun _ => ⟨hvpin, fun h => hdcc h.1⟩, fun _ => ?_⟩
    have hbyte := toNat_ofInt8_emod (p 2).toInt
    by_cases hin : 0 ≤ (p 1).toInt ∧ (p 1).toInt < 512 ∧ 0 ≤ (p 2).toInt ∧ (p 2).toInt < 4
    · have hword := toNat_toUInt16_of_nonneg hin.1
      rw [if_pos hin]
      dsimp only
      rw [setClosedCall_agrees_iff, Accessory.mk.injEq]
      omega
    · rw [if_neg hin]
      exact agrees_rejected

end DCCEXParser

/-- `PTA` for an id that no turnout has. -/
theorem WiThrottle.ptaOutcome_agrees_iff {platform : Platform} {cmd : List UInt8}
    (hnew : Turnout.get turnouts.list (UInt16.ofInt (getInt platform cmd)) = none) :
    (ptaOutcome platform turnouts rcn213 cmd close).Agrees (.linear (getInt platform cmd)) ↔
      getInt platform cmd = -3 ∨ 1 ≤ getInt platform cmd ∧ getInt platform cmd ≤ 2044 := by
  unfold ptaOutcome ptaTurnouts
  dsimp only
  rw [if_pos hnew, setClosedCall_agrees_iff, Accessory.linear, Accessory.mk.injEq]
  generalize getInt platform cmd = id
  by_cases hshort : -32767 ≤ id ∧ id ≤ 32767
  · rw [platform.wrap_of_short (by omega) (by omega)]
    have hbyte := toNat_ofInt8_emod ((id - 1).tmod 4)
    have hword := toNat_ofInt16_emod ((id - 1).tdiv 4 + 1)
    have hdivision := tdiv_four (id - 1)
    omega
  · omega

/-! ## `ACTIVATE` -/

/-- An accessory that is reached is in range. -/
theorem AccessoryOutcome.Agrees.range {call : AccessoryCall}
    (h : (AccessoryOutcome.accepted (some call)).Agrees a) :
    (0 ≤ a.address ∧ a.address ≤ 511) ∧ 0 ≤ a.port ∧ a.port ≤ 3 := by
  rw [agrees_accepted, reaches_iff, UInt8.le_iff_toNat_le] at h
  obtain ⟨⟨hlow, hhigh, hport⟩, rfl⟩ := h
  have hport' : call.port.toNat ≤ 3 := hport
  exact ⟨⟨hlow, hhigh⟩, Int.natCast_nonneg _, by dsimp only; omega⟩

theorem shifted_or {high middle low : Nat} (hmiddle : middle ≤ 3) (hlow : low ≤ 1) :
    high <<< 3 ||| middle <<< 1 ||| low = 8 * high + 2 * middle + low := by
  have hinner : middle <<< 1 ||| low = 2 * middle + low := by
    rw [← Nat.shiftLeft_add_eq_or_of_lt (by omega : low < 2 ^ 1), Nat.shiftLeft_eq]
    omega
  rw [Nat.or_assoc, hinner, ← Nat.shiftLeft_add_eq_or_of_lt (by omega : 2 * middle + low < 2 ^ 3),
    Nat.shiftLeft_eq]
  omega

namespace Exrail

theorem toInt_shiftRight_three (i : Int16) : (i >>> 3).toInt = i.toInt / 8 := by
  have hbits : (i >>> 3).toBitVec = i.toBitVec.sshiftRight 3 := by
    rw [Int16.toBitVec_shiftRight]
    rfl
  rw [← Int16.toInt_toBitVec, hbits, BitVec.toInt_sshiftRight, Int.shiftRight_eq_div_pow]
  rfl

/-- The operand of the opcode has the address above the three bits for port and gate. -/
theorem dccActivate_agrees_iff {operand : UInt16} (h : operand.toNat < 4096) :
    (dccActivate operand).Agrees a ↔ a = ⟨(operand.toNat / 8 : Nat), (operand.toNat / 2 % 4 : Nat)⟩ := by
  have hint : operand.toInt16.toInt = operand.toNat := by
    have hcond := BitVec.toInt_eq_toNat_cond operand.toBitVec
    show operand.toBitVec.toInt = operand.toBitVec.toNat
    change operand.toBitVec.toNat < 4096 at h
    rw [hcond, if_pos (by omega)]
  have hport : (operand >>> 1 &&& 0x03).toUInt8.toNat = operand.toNat / 2 % 4 := by
    rw [UInt16.toNat_toUInt8, UInt16.toNat_and, UInt16.toNat_shiftRight]
    have hmask : operand.toNat / 2 &&& 3 = operand.toNat / 2 % 4 := Nat.and_two_pow_sub_one_eq_mod _ 2
    show (operand.toNat >>> 1 &&& 3) % 256 = _
    rw [Nat.shiftRight_one, hmask]
    omega
  rw [dccActivate, agrees_accepted, reaches_iff]
  dsimp only
  rw [toInt_shiftRight_three, hint, UInt8.le_iff_toNat_le, hport]
  constructor
  · exact fun h => h.2
  · refine fun ha => ⟨⟨by omega, by omega, ?_⟩, ha⟩
    show operand.toNat / 2 % 4 ≤ 3
    omega

/-- `ACTIVATE(addr,subaddr)` -/
theorem activate_agrees_iff {addr subaddr : Int} {active : Bool} :
    (dccActivate (activate addr subaddr active)).Agrees ⟨addr, subaddr⟩ ↔
      (0 ≤ addr ∧ addr ≤ 511) ∧ 0 ≤ subaddr ∧ subaddr ≤ 3 := by
  constructor
  · exact fun h => h.range
  · rintro ⟨⟨hlow, hhigh⟩, hsub, hsub'⟩
    have haddr := toNat_ofInt16_emod addr
    have hsubaddr := toNat_ofInt16_emod subaddr
    have hactive : (if active then 1 else 0 : UInt16).toNat ≤ 1 := by cases active <;> decide
    have hoperand : (activate addr subaddr active).toNat =
        8 * (UInt16.ofInt addr).toNat + 2 * (UInt16.ofInt subaddr).toNat +
          (if active then 1 else 0 : UInt16).toNat := by
      rw [activate, UInt16.toNat_or, UInt16.toNat_or, UInt16.toNat_shiftLeft, UInt16.toNat_shiftLeft]
      show (_ <<< 3) % 65536 ||| (_ <<< 1) % 65536 ||| _ = _
      rw [Nat.mod_eq_of_lt (by rw [Nat.shiftLeft_eq]; omega), Nat.mod_eq_of_lt (by rw [Nat.shiftLeft_eq]; omega),
        shifted_or (by omega) hactive]
    rw [dccActivate_agrees_iff (by omega), Accessory.mk.injEq]
    omega

/-- `ACTIVATEL(addr)` -/
theorem activateL_agrees_iff {addr : Int} {active : Bool} :
    (dccActivate (activateL addr active)).Agrees (.linear addr) ↔ -3 ≤ addr ∧ addr ≤ 2044 := by
  constructor
  · intro h
    obtain ⟨⟨hlow, hhigh⟩, -⟩ := h.range
    simp only [Accessory.linear] at hlow hhigh
    omega
  · rintro ⟨hlow, hhigh⟩
    have haddr := toNat_ofInt16_emod (addr + 3)
    have hactive : (if active then 1 else 0 : UInt16).toNat ≤ 1 := by cases active <;> decide
    have hoperand : (activateL addr active).toNat =
        2 * (UInt16.ofInt (addr + 3)).toNat + (if active then 1 else 0 : UInt16).toNat := by
      rw [activateL, UInt16.toNat_or, UInt16.toNat_shiftLeft]
      show (_ <<< 1) % 65536 ||| _ = _
      rw [Nat.mod_eq_of_lt (by rw [Nat.shiftLeft_eq]; omega),
        ← Nat.shiftLeft_add_eq_or_of_lt (by omega : _ < 2 ^ 1), Nat.shiftLeft_eq]
      omega
    rw [dccActivate_agrees_iff (by omega), Accessory.linear, Accessory.mk.injEq]
    omega

end Exrail

/-! ## All of them -/

/-- **The ways to operate an accessory.** `DCC::setAccessory` queues a packet or does nothing, and each of
its callers rejects its arguments or reaches the accessory that they name, if and only if: a subaddress of
`<a>` that is accepted does not owe this to being cut down to a byte; a linear address of `<T id DCC nn>` is
not one of the last four; an address of the legacy `<T>` is not taken for a keyword; the id of `PTA` is a
linear address of a decoder; the arguments of `ACTIVATE` and `ACTIVATEL`, which check nothing, are in
range. -/
theorem accessories_agree_iff (platform : Platform) (reverse rcn213 close active : Bool) (turnouts : Turnouts)
    (p : Nat → Int16) (cmd : List UInt8) (addr subaddr : Int) :
    (∀ call : AccessoryCall, DCC.setAccessory call.address call.port call.gate call.onoff =
      call.queues.elim (pure ()) schedule) ∧
    (DCCEXParser.aCommand platform reverse 2 p).Agrees (.linear (p 0).toInt) ∧
    (∀ params, params = 3 ∨ params = 4 →
      ((DCCEXParser.aCommand platform reverse params p).Agrees ⟨(p 0).toInt, (p 1).toInt⟩ ↔
        (0 ≤ (p 0).toInt ∧ (p 0).toInt ≤ 511 ∧ (p 1).toInt % 256 ≤ 3 ∧ 0 ≤ (p 2).toInt ∧
          (p 2).toInt ≤ 1 ∧ (params = 4 → 0 ≤ (p 3).toInt ∧ (p 3).toInt ≤ 1) →
          0 ≤ (p 1).toInt ∧ (p 1).toInt ≤ 3))) ∧
    (p 1 = hk "DCC" →
      (DCCEXParser.tOutcome turnouts rcn213 4 p close).Agrees ⟨(p 2).toInt, (p 3).toInt⟩ ∧
      ((DCCEXParser.tOutcome turnouts rcn213 3 p close).Agrees (.linear (p 2).toInt) ↔
        ¬ (2044 < (p 2).toInt ∧ (p 2).toInt ≤ 2048))) ∧
    ((DCCEXParser.tOutcome turnouts rcn213 3 p close).Agrees ⟨(p 1).toInt, (p 2).toInt⟩ ↔
      p 1 ≠ hk "VPIN" ∧ ¬ (p 1 = hk "DCC" ∧ 0 < (p 2).toInt ∧ (p 2).toInt ≤ 2048)) ∧
    (Turnout.get turnouts.list (UInt16.ofInt (WiThrottle.getInt platform cmd)) = none →
      ((WiThrottle.ptaOutcome platform turnouts rcn213 cmd close).Agrees
          (.linear (WiThrottle.getInt platform cmd)) ↔
        WiThrottle.getInt platform cmd = -3 ∨
          1 ≤ WiThrottle.getInt platform cmd ∧ WiThrottle.getInt platform cmd ≤ 2044)) ∧
    ((Exrail.dccActivate (Exrail.activate addr subaddr active)).Agrees ⟨addr, subaddr⟩ ↔
      (0 ≤ addr ∧ addr ≤ 511) ∧ 0 ≤ subaddr ∧ subaddr ≤ 3) ∧
    ((Exrail.dccActivate (Exrail.activateL addr active)).Agrees (.linear addr) ↔
      -3 ≤ addr ∧ addr ≤ 2044) := by
  refine ⟨AccessoryCall.setAccessory_eq, DCCEXParser.aCommand_linear, fun params hparams => ?_, fun hdcc => ?_,
    DCCEXParser.tOutcome_legacy_iff, fun hnew => ?_, ?_, ?_⟩
  · exact DCCEXParser.aCommand_agrees_iff hparams
  · exact ⟨DCCEXParser.tOutcome_dcc hdcc, DCCEXParser.tOutcome_linear_iff hdcc⟩
  · exact WiThrottle.ptaOutcome_agrees_iff hnew
  · exact Exrail.activate_agrees_iff
  · exact Exrail.activateL_agrees_iff

/-- `<T 1 DCC 2048>` is accepted, and operating the turnout does nothing; `<a 1 256 1>` goes to port 0;
`PTA` for 0 goes to decoder 1 and port 3; `ACTIVATE(512,0)` does nothing. -/
theorem accessories_disagree :
    ¬ (DCCEXParser.tOutcome ⟨[], List.nodup_nil⟩ false 3
        (fun i => if i = 1 then hk "DCC" else if i = 2 then 2048 else 1) true).Agrees (.linear 2048) ∧
      ¬ (DCCEXParser.aCommand .esp32 false 3 (fun i => if i = 1 then 256 else 1)).Agrees ⟨1, 256⟩ ∧
      ¬ (WiThrottle.ptaOutcome .esp32 ⟨[], List.nodup_nil⟩ false [48] true).Agrees (.linear 0) ∧
      ¬ (Exrail.dccActivate (Exrail.activate 512 0 true)).Agrees ⟨512, 0⟩ := by
  refine ⟨fun h => ?_, fun h => ?_, fun h => ?_, fun h => ?_⟩
  · exact (DCCEXParser.tOutcome_linear_iff rfl).mp h ⟨by decide, by decide⟩
  · have hport := (DCCEXParser.aCommand_agrees_iff (.inl rfl)).mp h
      ⟨by decide, by decide, by decide, by decide, by decide, fun h => absurd h (by decide)⟩
    exact absurd hport (by decide)
  · exact absurd ((WiThrottle.ptaOutcome_agrees_iff rfl).mp h) (by decide)
  · exact absurd (Exrail.activate_agrees_iff.mp h) (by decide)

end CommandStation
