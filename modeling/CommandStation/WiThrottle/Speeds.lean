import CommandStation.DCC.Calls
import CommandStation.DCC.Run
import CommandStation.DCC.TargetsSpec
import CommandStation.DCCEXParser.Cabs
import CommandStation.DCCEXParser.Values
import CommandStation.WiThrottle.Basic

/-!
# Speeds in two protocols

A WiThrottle client sets a speed with `V`, the DCC-EX parser with `<t>`. Both count from the emergency
stop at -1 and end in `DCC::setThrottle`, which takes a byte and uses seven bits of it. `<t>` looks
whether the speed is one, `V` does not.
-/

namespace CommandStation

open CommandStation.Lib

/-- An `int` of the platform after an overflow. -/
def Platform.wrap (platform : Platform) (i : Int) : Int :=
  match platform with
  | .uno | .avr => (Int16.ofInt i).toInt
  | .arm | .esp32 => (Int32.ofInt i).toInt

theorem Platform.wrap_of_short (platform : Platform) {i : Int} (hlow : -32768 ≤ i) (hhigh : i < 32768) :
    platform.wrap i = i := by
  cases platform with
  | uno => exact Int16.toInt_ofInt_of_le hlow hhigh
  | avr => exact Int16.toInt_ofInt_of_le hlow hhigh
  | arm => exact Int32.toInt_ofInt_of_le (by omega) (by omega)
  | esp32 => exact Int32.toInt_ofInt_of_le (by omega) (by omega)

namespace WiThrottle

/-- `WiThrottle::DCCToWiTSpeed` -/
def dccToWiTSpeed (dccSpeed : Int) : Int :=
  if dccSpeed = 0 then 0          -- stop is stop
  else if dccSpeed = 1 then -1    -- eStop value
  else dccSpeed - 1               -- offset others by 1

/-- `WiThrottle::WiTToDCCSpeed` -/
def wiTToDCCSpeed (witSpeed : Int) : Int :=
  if witSpeed = 0 then 0          -- stop is stop
  else if witSpeed = -1 then 1    -- eStop value
  else witSpeed + 1               -- offset others by 1

/-- The loop of `getInt`. -/
def getDigits (platform : Platform) (cmd : List UInt8) : Int :=
  (cmd.takeWhile DCCEXParser.isDigit).foldl
    (fun i b => platform.wrap (i * 10 + (b - 48).toNat)) 0

/-- `WiThrottle::getInt`, of the bytes up to the NUL. -/
def getInt (platform : Platform) (cmd : List UInt8) : Int :=
  if cmd.head? = some 45 then platform.wrap (0 - getDigits platform cmd.tail)
  else getDigits platform cmd

/-- The entries of `LOOPLOCOS(throttleChar, cab)`. -/
def loopLocos (client : WiThrottle) (throttleChar : Char) (cab : Int) : List MyLoco :=
  client.myLocos.filter fun loco =>
    (loco.throttle == throttleChar || throttleChar == '*') && (cab < 0 || loco.cab == cab)

/-- The speed of one loco, in the direction that it has. -/
def setSpeed (tSpeed : Int) (now : UInt32) (cab : Int) : Dcc Unit := do
  let direction ← DCC.getThrottleDirection (UInt16.ofInt cab)
  let _ ← DCC.setThrottle (UInt16.ofInt cab) (UInt8.ofInt tSpeed) direction now
  pure ()

/-- The body of a loop over the locos. -/
def forLocos (act : Int → Dcc Unit) (client : WiThrottle) : List MyLoco → Dcc WiThrottle
  | [] => pure client
  | loco :: locos => do
    act loco.cab
    forLocos act { client with mostRecentCab := UInt16.ofInt loco.cab } locos

/-- `case 'V'` of `locoAction`. -/
def vspeed (client : WiThrottle) (platform : Platform) (aval : List UInt8) (throttleChar : Char)
    (cab : Int) (now : UInt32) : Dcc WiThrottle :=
  let witSpeed := getInt platform (aval.drop 1)
  forLocos (setSpeed (wiTToDCCSpeed witSpeed) now) client (client.loopLocos throttleChar cab)

/-- The speed that `checkHeartbeat` reports for a loco. -/
def reportedSpeed (cab : Int) : Dcc Int := do
  let speed ← DCC.getThrottleSpeed (UInt16.ofInt cab)
  pure (dccToWiTSpeed speed.toNat)

/-! ## Reading a speed -/

/-- A number as both protocols write it. -/
def speedText (v : Int) : List UInt8 :=
  (if v < 0 then [45] else []) ++ DCCEXParser.decimal v.natAbs

section Reading

variable {platform : Platform}

/-- Only the value up to multiples of the range of an `int` counts. -/
theorem wrap_step (a : Int) (d : Nat) :
    platform.wrap (platform.wrap a * 10 + d) = platform.wrap (a * 10 + d) := by
  cases platform with
  | uno => simp only [Platform.wrap, Int16.ofInt_add, Int16.ofInt_mul, Int16.ofInt_toInt]
  | avr => simp only [Platform.wrap, Int16.ofInt_add, Int16.ofInt_mul, Int16.ofInt_toInt]
  | arm => simp only [Platform.wrap, Int32.ofInt_add, Int32.ofInt_mul, Int32.ofInt_toInt]
  | esp32 => simp only [Platform.wrap, Int32.ofInt_add, Int32.ofInt_mul, Int32.ofInt_toInt]

theorem wrap_neg (a : Int) : platform.wrap (0 - platform.wrap a) = platform.wrap (-a) := by
  rw [Int.zero_sub]
  cases platform with
  | uno => simp only [Platform.wrap, Int16.ofInt_neg, Int16.ofInt_toInt]
  | avr => simp only [Platform.wrap, Int16.ofInt_neg, Int16.ofInt_toInt]
  | arm => simp only [Platform.wrap, Int32.ofInt_neg, Int32.ofInt_toInt]
  | esp32 => simp only [Platform.wrap, Int32.ofInt_neg, Int32.ofInt_toInt]

theorem foldl_digits (ds : List Nat) (hds : ∀ d ∈ ds, d < 10) (m : Nat) :
    (ds.map fun d => UInt8.ofNat (48 + d)).foldl
      (fun i b => platform.wrap (i * 10 + (b - 48).toNat)) (platform.wrap m) =
        platform.wrap (ds.foldl (fun m d => 10 * m + d) m : Nat) := by
  have hbyte : ∀ d < 10, (UInt8.ofNat (48 + d) - 48).toNat = d := by decide
  induction ds generalizing m with
  | nil => rfl
  | cons d ds ih =>
    rw [List.map_cons, List.foldl_cons, List.foldl_cons, hbyte d (hds d List.mem_cons_self), wrap_step,
      ← ih fun d hd => hds d (List.mem_cons_of_mem _ hd)]
    push_cast
    rw [Int.mul_comm]

/-- A number in decimal is read as this number. -/
theorem getDigits_decimal (n : Nat) {rest : List UInt8}
    (hrest : ∀ b ∈ rest.head?, DCCEXParser.isDigit b = false) :
    getDigits platform (DCCEXParser.decimal n ++ rest) = platform.wrap n := by
  obtain ⟨ds, -, hds, hdecimal, hvalue⟩ := DCCEXParser.decimal_eq n
  have hdigit : ∀ b ∈ DCCEXParser.decimal n, DCCEXParser.isDigit b = true := by
    intro b hb
    rw [hdecimal] at hb
    obtain ⟨d, hd, rfl⟩ := List.mem_map.mp hb
    exact (DCCEXParser.digit_byte d (hds d hd)).1
  have htake : (DCCEXParser.decimal n ++ rest).takeWhile DCCEXParser.isDigit =
      DCCEXParser.decimal n := by
    rw [List.takeWhile_append_of_pos hdigit]
    cases rest with
    | nil => simp
    | cons b rest => simp [hrest b rfl]
  have hzero : platform.wrap (0 : Nat) = 0 := by cases platform <;> rfl
  have hread := @foldl_digits platform ds hds 0
  rw [hzero, hvalue, ← hdecimal] at hread
  rw [getDigits, htake, hread]

/-- A number does not begin with a minus sign of its own. -/
theorem head_decimal (n : Nat) (rest : List UInt8) :
    (DCCEXParser.decimal n ++ rest).head? ≠ some 45 := by
  obtain ⟨ds, hne, hds, hdecimal, -⟩ := DCCEXParser.decimal_eq n
  have hbyte : ∀ d < 10, UInt8.ofNat (48 + d) ≠ 45 := by decide
  rw [hdecimal]
  cases ds with
  | nil => exact absurd rfl hne
  | cons d ds =>
    intro h
    exact hbyte d (hds d List.mem_cons_self) (Option.some.inj h)

/-- `getInt` reads a number, as far as it fits. -/
theorem getInt_speedText (v : Int) {rest : List UInt8}
    (hrest : ∀ b ∈ rest.head?, DCCEXParser.isDigit b = false) :
    getInt platform (speedText v ++ rest) = platform.wrap v := by
  unfold speedText getInt
  split
  · next hneg =>
    have habs : -(v.natAbs : Int) = v := by omega
    rw [List.append_assoc, List.singleton_append, List.head?_cons, if_pos rfl, List.tail_cons,
      getDigits_decimal _ hrest, wrap_neg, habs]
  · next hpos =>
    have habs : (v.natAbs : Int) = v := by omega
    rw [List.nil_append, if_neg (head_decimal _ _), getDigits_decimal _ hrest, habs]

end Reading

/-! ## Speed codes -/

/-- The speed that `V` asks for. -/
def witCode (platform : Platform) (v : Int) : UInt8 :=
  UInt8.ofInt (wiTToDCCSpeed (platform.wrap v)) &&& 0x7f

/-- The speed that `<t>` asks for, `none` if it is answered with `<X>`. Its parameters are words. -/
def commandCode (cab v : Int) : Option UInt8 :=
  let tspeed := (Int16.ofInt v).toInt
  if cab < 0 ∨ tspeed < -1 ∨ 126 < tspeed then none else some (UInt8.ofInt (wiTToDCCSpeed tspeed))

/-- A speed in the direction of another one. -/
def inDirection (code speed : UInt8) : UInt8 := code + if speed &&& 0x80 != 0 then 128 else 0

theorem inDirection_self (code speed : UInt8) :
    inDirection (code &&& 0x7f) (inDirection (code &&& 0x7f) speed) =
      inDirection (code &&& 0x7f) speed := by
  have hall : ∀ n < 256, ∀ forward : Bool,
      (UInt8.ofNat n &&& 0x7f) + (if ((UInt8.ofNat n &&& 0x7f) + (if forward then 128 else 0)) &&& 0x80
        != 0 then 128 else 0) = (UInt8.ofNat n &&& 0x7f) + (if forward then 128 else 0) := by
    decide +kernel
  have hcode := hall code.toNat code.toNat_lt (speed &&& 0x80 != 0)
  rwa [UInt8.ofNat_toNat] at hcode

theorem inDirection_inj {code code' speed : UInt8} :
    inDirection code speed = inDirection code' speed ↔ code = code' := by
  unfold inDirection
  exact UInt8.add_left_inj _

/-- The speed without its direction. -/
theorem and_inDirection (code speed : UInt8) :
    inDirection (code &&& 0x7f) speed &&& 0x7f = code &&& 0x7f := by
  have hall : ∀ n < 256, ∀ forward : Bool,
      ((UInt8.ofNat n &&& 0x7f) + (if forward then 128 else 0)) &&& 0x7f = UInt8.ofNat n &&& 0x7f := by
    decide +kernel
  have hcode := hall code.toNat code.toNat_lt (speed &&& 0x80 != 0)
  rwa [UInt8.ofNat_toNat] at hcode

/-- The conversions of both protocols fit together. -/
def SpeedsAgree (v : Int) : Prop :=
  UInt8.ofInt (wiTToDCCSpeed v) &&& 0x7f = UInt8.ofInt (wiTToDCCSpeed v) ∧
    dccToWiTSpeed (UInt8.ofInt (wiTToDCCSpeed v)).toNat = v ∧
    (if Int16.ofInt v < 0 then (1 : Int16) else if 0 < Int16.ofInt v then Int16.ofInt v + 1
      else Int16.ofInt v).toUInt16.toUInt8 = UInt8.ofInt (wiTToDCCSpeed v)

instance (v : Int) : Decidable (SpeedsAgree v) := inferInstanceAs (Decidable (_ ∧ _ ∧ _))

theorem speed_agree {v : Int} (h : -1 ≤ v ∧ v ≤ 126) : SpeedsAgree v := by
  have hall : ∀ n : Nat, n < 128 → SpeedsAgree ((n : Int) - 1) := by decide +kernel
  have hv : ((v + 1).toNat : Int) - 1 = v := by omega
  rw [← hv]
  exact hall _ (by omega)

theorem wrap_of_speed {platform : Platform} {v : Int} (h : -1 ≤ v ∧ v ≤ 126) :
    platform.wrap v = v ∧ (Int16.ofInt v).toInt = v := by
  have h16 : (Int16.ofInt v).toInt = v := Int16.toInt_ofInt_of_le (by omega) (by omega)
  have h32 : (Int32.ofInt v).toInt = v := Int32.toInt_ofInt_of_le (by omega) (by omega)
  cases platform with
  | uno => exact ⟨h16, h16⟩
  | avr => exact ⟨h16, h16⟩
  | arm => exact ⟨h32, h16⟩
  | esp32 => exact ⟨h32, h16⟩

/-- Both ask for the same, if it is a speed. -/
theorem commandCode_of_speed {platform : Platform} {cab v : Int} (hcab : 0 ≤ cab)
    (h : -1 ≤ v ∧ v ≤ 126) : commandCode cab v = some (witCode platform v) := by
  obtain ⟨hwrap, hword⟩ := @wrap_of_speed platform v h
  rw [commandCode, witCode, hwrap, hword, (speed_agree h).1, if_neg (by omega)]

/-- What is reported is a speed. -/
theorem dccToWiTSpeed_range (code : UInt8) :
    -1 ≤ dccToWiTSpeed (code &&& 0x7f).toNat ∧ dccToWiTSpeed (code &&& 0x7f).toNat ≤ 126 := by
  have hlt : (code &&& 0x7f).toNat < 128 := by
    rw [UInt8.toNat_and]
    exact Nat.lt_of_le_of_lt Nat.and_le_right (by decide)
  unfold dccToWiTSpeed
  omega

theorem reported_of_speed {platform : Platform} {v : Int} (h : -1 ≤ v ∧ v ≤ 126) :
    dccToWiTSpeed (witCode platform v).toNat = v := by
  rw [witCode, (@wrap_of_speed platform v h).1, (speed_agree h).1, (speed_agree h).2.1]

/-! ## Target speeds -/

section Targets

variable {T : Targets} {l : UInt16} {code : UInt8}

/-- The target speed of the loco can be set. -/
def Settable (T : Targets) (l : UInt16) : Prop := T.lead l = none ∧ (T.slot l = none → T.free ≠ 0)

/-- The loco gets the speed in the direction that it has. -/
def driven (T : Targets) (l : UInt16) (code : UInt8) : Targets :=
  T.setThrottle l (inDirection code (T.speedByte l))

theorem slot_driven (h : Settable T l) :
    (driven T l code).slot l = some (inDirection code (T.speedByte l)) :=
  Targets.slot_setThrottle_self h.1 h.2

theorem driven_of_not_settable (h : ¬ Settable T l) : driven T l code = T :=
  Targets.setThrottle_of_not_accepts fun haccepts => h ⟨haccepts.2.1, haccepts.1⟩

theorem driven_of_slot (h : T.slot l = some (inDirection code (T.speedByte l))) : driven T l code = T :=
  Targets.setThrottle_of_not_accepts fun haccepts => haccepts.2.2 h

/-- What `<t>` leaves. -/
def commanded (T : Targets) (cab v : Int) : Targets :=
  match commandCode cab v with
  | none => T
  | some code => driven T (UInt16.ofInt cab) code

/-- A second time nothing is left to do. -/
theorem driven_driven :
    driven (driven T l (code &&& 0x7f)) l (code &&& 0x7f) = driven T l (code &&& 0x7f) := by
  by_cases h : Settable T l
  · have hslot := @slot_driven T l (code &&& 0x7f) h
    apply driven_of_slot
    have hbyte : (driven T l (code &&& 0x7f)).speedByte l =
        inDirection (code &&& 0x7f) (T.speedByte l) := by
      rw [Targets.speedByte, hslot, Option.getD_some]
    rw [hbyte, inDirection_self, hslot]
  · rw [driven_of_not_settable h, driven_of_not_settable h]

end Targets

/-! ## What the commands do -/

section Commands

variable {F : Fault → Prop} {s : Station} {T : Targets} {platform : Platform} {cab v : Int}
  {now : UInt32} {client : WiThrottle}

/-- The locos that a client can have: 1 to 10239, and -1, as `addLoco` refuses only what is below. -/
def Acquirable (cab : Int) : Prop := cab = -1 ∨ (1 ≤ cab ∧ cab ≤ 10239)

theorem Acquirable.ofInt_ne_zero (h : Acquirable cab) : UInt16.ofInt cab ≠ 0 := by
  rcases h with rfl | hrange
  · decide
  · exact (DCC.inRange_ofInt hrange).1.1

theorem Acquirable.toInt_ofInt (h : Acquirable cab) : (Int16.ofInt cab).toInt = cab := by
  rcases h with rfl | ⟨hlow, hhigh⟩
  · rfl
  · exact Int16.toInt_ofInt_of_le (by omega) (by omega)

theorem wp_setSpeed (h : s.Shows T) (hcab : UInt16.ofInt cab ≠ 0) (tSpeed : Int) :
    wp F (setSpeed tSpeed now cab)
      (fun _ s' => s'.Shows (driven T (UInt16.ofInt cab) (UInt8.ofInt tSpeed &&& 0x7f))) s := by
  unfold setSpeed DCC.getThrottleDirection
  simp only [wp_bind, wp_pure]
  apply DCC.wp_getThrottleSpeedByte h
  exact DCC.wp_setThrottle_code h hcab rfl

/-- All entries for the same loco. -/
theorem wp_forLocos (hcab : UInt16.ofInt cab ≠ 0) (tSpeed : Int) {locos : List MyLoco}
    (hlocos : ∀ loco ∈ locos, loco.cab = cab) (h : s.Shows T)
    (hdriven : driven T (UInt16.ofInt cab) (UInt8.ofInt tSpeed &&& 0x7f) = T) :
    wp F (forLocos (setSpeed tSpeed now) client locos) (fun _ s' => s'.Shows T) s := by
  induction locos generalizing client s with
  | nil => exact h
  | cons loco locos ih =>
    rw [forLocos, wp_bind, hlocos loco List.mem_cons_self]
    refine wp_mono (wp_setSpeed h hcab tSpeed) fun _ s' hs' => ?_
    rw [hdriven] at hs'
    exact ih (fun loco' hloco' => hlocos loco' (List.mem_cons_of_mem _ hloco')) hs'

/-- **What `V` does** for a client that has the loco. -/
theorem wp_vspeed (hcab : UInt16.ofInt cab ≠ 0) {throttleChar : Char} {selected : Int}
    (hhas : client.loopLocos throttleChar selected ≠ [])
    (hlocos : ∀ loco ∈ client.loopLocos throttleChar selected, loco.cab = cab) {rest : List UInt8}
    (hrest : ∀ b ∈ rest.head?, DCCEXParser.isDigit b = false) (h : s.Shows T) :
    wp F (client.vspeed platform (86 :: (speedText v ++ rest)) throttleChar selected now)
      (fun _ s' => s'.Shows (driven T (UInt16.ofInt cab) (witCode platform v))) s := by
  rw [vspeed, List.drop_one, List.tail_cons, getInt_speedText v hrest]
  generalize hlist : client.loopLocos throttleChar selected = locos at hhas hlocos ⊢
  cases locos with
  | nil => exact absurd rfl hhas
  | cons loco locos =>
    rw [forLocos, wp_bind, hlocos loco List.mem_cons_self]
    refine wp_mono (wp_setSpeed h hcab _) fun _ s' hs' => ?_
    exact wp_forLocos hcab _ (fun loco' hloco' => hlocos loco' (List.mem_cons_of_mem _ hloco')) hs'
      driven_driven

/-- **What `<t>` does**, in the direction that the loco has. -/
theorem wp_command (hcab : Acquirable cab) (h : s.Shows T) :
    wp F (DCCEXParser.setThrottle (Int16.ofInt cab) (Int16.ofInt v)
      (if T.speedByte (UInt16.ofInt cab) &&& 0x80 != 0 then 1 else 0) now)
      (fun _ s' => s'.Shows (commanded T cab v)) s := by
  have htoInt := hcab.toInt_ofInt
  have hne : Int16.ofInt cab ≠ 0 := by
    intro hzero
    have hcab0 : cab = 0 := by
      rw [← htoInt, hzero]
      rfl
    rcases hcab with rfl | hrange
    · cases hcab0
    · omega
  have hword : (Int16.ofInt cab).toUInt16 = UInt16.ofInt cab := by
    rw [← DCCEXParser.ofInt_toInt, htoInt]
  have hspeeds : (126 < Int16.ofInt v ∨ Int16.ofInt v < -1) ↔
      ((Int16.ofInt v).toInt < -1 ∨ 126 < (Int16.ofInt v).toInt) := by
    rw [Int16.lt_iff_toInt_lt, Int16.lt_iff_toInt_lt]
    exact or_comm
  unfold DCCEXParser.setThrottle commanded commandCode
  dsimp only
  by_cases hspeed : 126 < Int16.ofInt v ∨ Int16.ofInt v < -1
  · rw [if_pos hspeed, if_pos (.inr (hspeeds.mp hspeed))]
    exact h
  have hrange : -1 ≤ (Int16.ofInt v).toInt ∧ (Int16.ofInt v).toInt ≤ 126 := by
    rw [hspeeds] at hspeed
    omega
  obtain ⟨hmask, -, hcode⟩ := speed_agree hrange
  rw [Int16.ofInt_toInt] at hcode
  rw [if_neg hspeed, if_neg fun hbroadcast => hne hbroadcast.1, hcode, hword]
  generalize hforward : (T.speedByte (UInt16.ofInt cab) &&& 0x80 != 0) = forward
  have hdirection : ¬ ((if forward = true then (1 : Int16) else 0) < 0 ∨
      1 < if forward = true then (1 : Int16) else 0) := by
    cases forward <;> decide
  have hforward' : ((if forward = true then (1 : Int16) else 0) != 0) = forward := by
    cases forward <;> rfl
  rw [if_neg hdirection, hforward']
  rcases hcab with rfl | ⟨hlow, hhigh⟩
  · exact h
  · have hknown : ¬ (10239 < Int16.ofInt cab ∨ Int16.ofInt cab < 0) := by
      rw [Int16.lt_iff_toInt_lt, Int16.lt_iff_toInt_lt, htoInt]
      show ¬ (10239 < cab ∨ cab < 0)
      omega
    rw [if_neg hknown, if_neg (by omega)]
    refine DCC.wp_setThrottle_code h ?_ ?_
    · exact (DCC.inRange_ofInt ⟨hlow, hhigh⟩).1.1
    · rw [hmask, inDirection, hforward]

theorem wp_reportedSpeed (h : s.Shows T) {Q : Int → Station → Prop}
    (hQ : Q (dccToWiTSpeed (T.speedByte (UInt16.ofInt cab) &&& 0x7f).toNat) s) :
    wp F (reportedSpeed cab) Q s := by
  unfold reportedSpeed DCC.getThrottleSpeed
  simp only [wp_bind, wp_pure]
  exact DCC.wp_getThrottleSpeedByte h hQ

end Commands

/-- Every loco of a client can be one. -/
def Holds (client : WiThrottle) : Prop :=
  ∀ loco ∈ client.myLocos, loco.throttle ≠ '\x00' → Acquirable loco.cab

/-- The request that adds a loco keeps this. -/
theorem holds_addLoco {s : Station} {client : WiThrottle} {locoid : Int}
    {throttleChar lengthChar : Char} (h : client.Holds) :
    wp (fun _ => True) (client.addLoco throttleChar lengthChar locoid) (fun r _ => r.1.Holds) s := by
  unfold addLoco
  refine wp_ite (fun _ => h) fun hrange => wp_ite (fun _ => h) fun _ => wp_ite (fun _ => h)
    fun hzero => wp_ite (fun _ => h) fun _ => ?_
  rw [wp_bind]
  refine wp_mono (wp_iff_forall.mpr fun _ _ _ => trivial) fun slot s' _ => ?_
  cases slot with
  | none => exact h
  | some a =>
    dsimp only
    split
    · exact h
    · next i hi =>
      rw [wp_bind]
      refine wp_mono (wp_iff_forall.mpr fun _ _ _ => trivial) fun functionMap s₁ _ => ?_
      rw [wp_bind]
      refine wp_mono (wp_iff_forall.mpr fun _ _ _ => trivial) fun functions s₂ _ => ?_
      intro loco hloco hthrottle
      rcases List.mem_or_eq_of_mem_set hloco with hold | rfl
      · exact h loco hold hthrottle
      · show Acquirable locoid
        unfold Acquirable
        omega

/-! ## Where the protocols agree -/

/-- The target speed of the loco cannot be set, or the speed is one and the loco has a number, or it is
the target speed that the loco has anyway. -/
def Agree (platform : Platform) (T : Targets) (cab v : Int) : Prop :=
  ¬ Settable T (UInt16.ofInt cab) ∨ (0 < cab ∧ -1 ≤ v ∧ v ≤ 126) ∨
    T.slot (UInt16.ofInt cab) =
      some (inDirection (witCode platform v) (T.speedByte (UInt16.ofInt cab))) ∧
    ∀ code ∈ commandCode cab v, code = witCode platform v

/-- The target speed is the commanded one, and is reported as it was sent, if and only if they agree. -/
theorem agree_iff {platform : Platform} {T : Targets} {cab v reported : Int} (hcab : Acquirable cab)
    (hreported : reported = dccToWiTSpeed
      ((driven T (UInt16.ofInt cab) (witCode platform v)).speedByte (UInt16.ofInt cab) &&& 0x7f).toNat) :
    ((driven T (UInt16.ofInt cab) (witCode platform v)).slot = (commanded T cab v).slot ∧
      ((driven T (UInt16.ofInt cab) (witCode platform v)).slot (UInt16.ofInt cab) ≠
        T.slot (UInt16.ofInt cab) → reported = v)) ↔ Agree platform T cab v := by
  generalize hl : UInt16.ofInt cab = l at hreported ⊢
  unfold Agree commanded
  rw [hl]
  -- a loco that cannot have a speed keeps none, whatever is sent
  by_cases hset : Settable T l
  swap
  · rw [driven_of_not_settable hset]
    refine iff_of_true ⟨?_, fun hne => absurd rfl hne⟩ (.inl hset)
    cases commandCode cab v with
    | none => rfl
    | some code => exact (congrArg Targets.slot (driven_of_not_settable hset)).symm
  have hslot := @slot_driven T l (witCode platform v) hset
  -- otherwise the slot has the code of the throttle, in the direction of before
  have hbyte : (driven T l (witCode platform v)).speedByte l =
      inDirection (witCode platform v) (T.speedByte l) := by
    rw [Targets.speedByte, hslot, Option.getD_some]
  rw [hbyte, witCode, and_inDirection, ← witCode] at hreported
  have hwit : -1 ≤ reported ∧ reported ≤ 126 := by
    rw [hreported, witCode]
    exact dccToWiTSpeed_range _
  constructor
  · rintro ⟨hsame, hreport⟩
    by_cases hspeed : 0 < cab ∧ -1 ≤ v ∧ v ≤ 126
    · exact .inr (.inl hspeed)
    refine .inr (.inr ?_)
    have hkept : (driven T l (witCode platform v)).slot l = T.slot l := by
      by_contra hne
      have hv := hreport hne
      rcases hcab with rfl | hrange
      · exact hne (congrFun hsame l)
      · exact hspeed (by omega)
    refine ⟨hkept.symm.trans hslot, fun code hcode => ?_⟩
    have hsame' := congrFun hsame l
    rw [Option.mem_def.mp hcode, hslot] at hsame'
    rw [show (driven T l code).slot l = _ from slot_driven hset, Option.some_inj, inDirection_inj] at hsame'
    exact hsame'.symm
  · rintro (hnot | ⟨hpos, hspeed⟩ | ⟨hkept, hcode⟩)
    · exact absurd hset hnot
    · rw [@commandCode_of_speed platform cab v (by omega) hspeed]
      refine ⟨rfl, fun _ => ?_⟩
      rw [hreported, reported_of_speed hspeed]
    · rw [driven_of_slot hkept]
      refine ⟨?_, fun hne => absurd rfl hne⟩
      cases hcommand : commandCode cab v with
      | none => rfl
      | some code =>
        rw [hcode code hcommand]
        exact (congrArg Targets.slot (driven_of_slot hkept)).symm

/-- **`V` and `<t>`** set the same target speeds, and what is reported for a speed that was set is that
speed, exactly if the two protocols agree on it. -/
theorem vspeed_agrees_iff {s : Station} {T : Targets} {client : WiThrottle} {cab selected : Int}
    {throttleChar : Char} (h : s.Shows T) (hcab : Acquirable cab)
    (hhas : client.loopLocos throttleChar selected ≠ [])
    (hlocos : ∀ loco ∈ client.loopLocos throttleChar selected, loco.cab = cab)
    {rest : List UInt8} (hrest : ∀ b ∈ rest.head?, DCCEXParser.isDigit b = false)
    (platform : Platform) (v : Int) (now : UInt32) :
    ∃ T₁ T₂ reported,
      wp (fun _ => False)
        (client.vspeed platform (86 :: (speedText v ++ rest)) throttleChar selected now)
        (fun _ s₁ => s₁.Shows T₁ ∧ wp (fun _ => False) (reportedSpeed cab) (fun r _ => r = reported) s₁) s ∧
      wp (fun _ => False) (DCCEXParser.setThrottle (Int16.ofInt cab) (Int16.ofInt v)
        (if T.speedByte (UInt16.ofInt cab) &&& 0x80 != 0 then 1 else 0) now)
        (fun _ s₂ => s₂.Shows T₂) s ∧
      ((T₁.slot = T₂.slot ∧
        (T₁.slot (UInt16.ofInt cab) ≠ T.slot (UInt16.ofInt cab) → reported = v)) ↔
          Agree platform T cab v) := by
  refine ⟨driven T (UInt16.ofInt cab) (witCode platform v), commanded T cab v, _, ?_, wp_command hcab h,
    agree_iff hcab rfl⟩
  refine wp_mono (wp_vspeed hcab.ofInt_ne_zero hhas hlocos hrest h) fun _ s₁ hs₁ => ?_
  exact ⟨hs₁, wp_reportedSpeed hs₁ rfl⟩

/-- A client with loco 3. -/
def withLoco : WiThrottle := { new with myLocos := new.myLocos.set 0 ⟨'0', 3, false, 0, 0⟩ }

/-- `M0+S3` of a new client. Irreducible, so that only the kernel runs it. -/
@[irreducible] def addLoco3 : Dcc (WiThrottle × Bool × String) := new.addLoco '0' 'S' 3

/-- `V40` and `<t 3 40 dir>`, on some station, with a client that has added loco 3. -/
theorem vspeed_agrees_forty : wp (fun _ => False) addLoco3 (fun r _ =>
    ∃ (s : Station) (T T₁ T₂ : Targets) (reported : Int), s.Shows T ∧
      wp (fun _ => False) (r.1.vspeed .avr (86 :: (speedText 40 ++ [])) '0' 3 0)
        (fun _ s₁ => s₁.Shows T₁ ∧ wp (fun _ => False) (reportedSpeed 3) (fun r _ => r = reported) s₁) s ∧
      wp (fun _ => False) (DCCEXParser.setThrottle (Int16.ofInt 3) (Int16.ofInt 40)
        (if T.speedByte (UInt16.ofInt 3) &&& 0x80 != 0 then 1 else 0) 0)
        (fun _ s₂ => s₂.Shows T₂) s ∧
      T₁.slot = T₂.slot ∧ (T₁.slot (UInt16.ofInt 3) ≠ T.slot (UInt16.ofInt 3) → reported = 40))
    (Station.init .avr 8 []) := by
  have hadded : wp (fun _ => False) addLoco3 (fun r _ => r.1.loopLocos '0' 3 ≠ [] ∧
      ∀ loco ∈ r.1.loopLocos '0' 3, loco.cab = 3 ∧ loco.throttle ≠ '\x00') (Station.init .avr 8 []) := by
    decide +kernel
  have hnew : new.Holds := fun loco hloco hused =>
    absurd ((by decide : ∀ loco ∈ new.myLocos, loco.throttle = '\x00') loco hloco) hused
  have hholds : ∀ s : Station, wp (fun _ => True) addLoco3 (fun r _ => r.1.Holds) s := fun s => by
    unfold addLoco3
    exact holds_addLoco hnew
  refine wp_mono_ok hadded ?_
  rintro r _ hrun ⟨hhas, hlocos⟩
  have hcab : Acquirable 3 := by
    obtain ⟨loco, rest, hcons⟩ := List.exists_cons_of_ne_nil hhas
    have hloco : loco ∈ r.1.loopLocos '0' 3 := hcons ▸ List.mem_cons_self
    have hacquirable := wp_of_ok hrun (hholds _) loco (List.mem_of_mem_filter hloco) (hlocos loco hloco).2
    rwa [(hlocos loco hloco).1] at hacquirable
  obtain ⟨s, T, hT⟩ : ∃ (s : Station) (T : Targets), s.Shows T :=
    ⟨Station.init .avr 8 [], (sound_init .avr 8 []).exists_shows⟩
  obtain ⟨T₁, T₂, reported, hv, ht, hiff⟩ := @vspeed_agrees_iff s T r.1 3 3 '0' hT hcab hhas
    (fun loco hloco => (hlocos loco hloco).1) [] (by simp) .avr 40 0
  have hagree : Agree .avr T 3 40 := .inr (.inl ⟨by decide, by decide, by decide⟩)
  exact ⟨s, T, T₁, T₂, reported, hT, hv, ht, hiff.mpr hagree⟩

/-- `V-2` lets a loco that stands still run at full speed, `<t 3 -2 1>` is answered with `<X>` and
leaves it. -/
theorem not_vspeed_agrees :
    wp (fun _ => False) (do
      let _ ← onSlots (LocoSlot.getSlot 3 true)
      let _ ← withLoco.vspeed .avr [86, 45, 50] '0' 3 0
      DCC.getThrottleSpeedByte 3) (fun speed _ => speed = 255) (Station.init .avr 8 []) ∧
    wp (fun _ => False) (do
      let _ ← onSlots (LocoSlot.getSlot 3 true)
      let done ← DCCEXParser.setThrottle 3 (-2) 1 0
      let speed ← DCC.getThrottleSpeedByte 3
      pure (done, speed)) (fun r _ => r = (false, 128)) (Station.init .avr 8 []) := by
  decide +kernel

end WiThrottle

end CommandStation
