import CommandStation.DCCDecoder.RoundTrip
import CommandStation.DCC.Run

/-!
# A station that listens to another one

`Sends` relates a call on one station to the packet it puts into its queue, `Carries` the packet to
what the sniffer of another station has read from the track: the same bytes and their checksum.
-/

namespace CommandStation

open CommandStation.Lib LocoTable Station

variable {F : Fault → Prop} {s s₀ : Station} {xs ys : List Addr} {a : Addr} {locoId : UInt16}

/-! ## Packets on the track -/

/-- The packet is made of these bytes and their checksum. What lies behind it in memory is left
open. -/
def Carries (p : DCCPacket) (bytes : List UInt8) : Prop :=
  p.len = bytes.length + 1 ∧
    (List.range p.len).map p.data = bytes ++ [bytes.foldl (· ^^^ ·) 0]

namespace Carries

variable {p : DCCPacket} {bytes : List UInt8}

theorem checksum (h : Carries p bytes) : DCCDecoder.checksum p = 0 := by
  have hfold : DCCDecoder.checksum p = ((List.range p.len).map p.data).foldl (· ^^^ ·) 0 := by
    rw [List.foldl_map]
    rfl
  rw [hfold, h.2, List.foldl_append, List.foldl_cons, List.foldl_nil, UInt8.xor_self]

theorem data (h : Carries p bytes) {i : Nat} (hi : i < bytes.length) :
    bytes[i]? = some (p.data i) := by
  have hget := congrArg (fun l => l[i]?) h.2
  simp only [h.1] at hget
  rw [List.getElem?_map, List.getElem?_range (by omega), List.getElem?_append_left hi] at hget
  exact hget.symm

theorem accepts (h : Carries p bytes) (hlow : 2 ≤ bytes.length) (hhigh : bytes.length ≤ 5)
    (h0 : bytes[0]? ≠ some 0xFF) : DCCDecoder.accepts p = true := by
  rw [h.data (by omega)] at h0
  have hff : p.data 0 ≠ 0xFF := fun heq => h0 (congrArg some heq)
  simp [DCCDecoder.accepts, h.checksum, h.1, hff]
  omega

end Carries

namespace DCCDecoder

/-- The two bytes of a long address are told from the other packets and put together again. -/
theorem longAddress {cab : UInt16} (hcab : cab ≤ 10239) :
    let d0 := (cab >>> 8).toUInt8 ||| 0xC0
    d0 ≠ 0xFF ∧ d0 &&& 0x80 ≠ 0 ∧ d0 &&& 0x40 ≠ 0 ∧
      256 * (d0 &&& 0x3F).toUInt16 + cab.toUInt8.toUInt16 = cab := by
  have hbyte : ∀ h : UInt8, h < 0x28 → h ||| 0xC0 ≠ 0xFF ∧ (h ||| 0xC0) &&& 0x80 ≠ 0 ∧
      (h ||| 0xC0) &&& 0x40 ≠ 0 ∧ (h ||| 0xC0) &&& 0x3F = h :=
    byte_forall (by decide +kernel)
  have hcab' : cab.toNat ≤ 10239 := hcab
  have hhigh := toNat_highByte cab
  have hlt : (cab >>> 8).toUInt8 < 0x28 := by
    rw [UInt8.lt_iff_toNat_lt, hhigh]
    show cab.toNat / 256 < 40
    omega
  obtain ⟨hff, h80, h40, h3f⟩ := hbyte _ hlt
  refine ⟨hff, h80, h40, ?_⟩
  rw [h3f]
  apply UInt16.toNat_inj.mp
  rw [UInt16.toNat_add, UInt16.toNat_mul, UInt8.toNat_toUInt16, hhigh, UInt8.toNat_toUInt16,
    UInt16.toNat_toUInt8]
  show (256 * (cab.toNat / 256) % 2 ^ 16 + cab.toNat % 2 ^ 8) % 2 ^ 16 = cab.toNat
  omega

/-- A short address is one byte, and neither that of all locos nor of an accessory. -/
theorem shortAddress {cab : UInt16} (hzero : cab ≠ 0) (hcab : cab.toNat ≤ 127) :
    cab.toUInt8 ≠ 0xFF ∧ cab.toUInt8 &&& 0x80 = 0 ∧ cab.toUInt8 ≠ 0 ∧
      cab.toUInt8.toUInt16 = cab := by
  have hbyte : ∀ h : UInt8, h < 0x80 → h ≠ 0xFF ∧ h &&& 0x80 = 0 :=
    byte_forall (by decide +kernel)
  have hlow : cab.toUInt8.toNat = cab.toNat := by
    rw [UInt16.toNat_toUInt8]
    omega
  have hlt : cab.toUInt8 < 0x80 := by
    rw [UInt8.lt_iff_toNat_lt, hlow]
    show cab.toNat < 128
    omega
  have hback : cab.toUInt8.toUInt16 = cab := by
    apply UInt16.toNat_inj.mp
    rw [UInt8.toNat_toUInt16, hlow]
  refine ⟨(hbyte _ hlt).1, (hbyte _ hlt).2, ?_, hback⟩
  intro h0
  rw [h0] at hback
  exact hzero hback.symm

/-- What `parse` does with a packet that gets past its first tests. -/
def interpret (p : DCCPacket) (now : UInt32) : Dcc Bool :=
  let d0 := p.data 0
  if d0 &&& 0x80 = 0 then
    if d0 = 0 then pure false else mobile d0.toUInt16 (p.data 1) (p.data 2) now
  else if d0 &&& 0x40 ≠ 0 then
    let addr := 256 * (d0 &&& 0x3F).toUInt16 + (p.data 1).toUInt16
    if addr = 0 then pure false else mobile addr (p.data 2) (p.data 3) now
  else accessory p (d0 &&& 0x3F) (p.data 1)

theorem parse_eq_interpret (hactive : s.decoderActive = true) {p : DCCPacket}
    (hp : accepts p = true) (now : UInt32) : parse p now s = interpret p now s := by
  have hparse : parse p now s = (if !s.decoderActive then pure false
    else if !accepts p then pure false else interpret p now : Dcc Bool) s := rfl
  rw [hparse, hactive, hp]
  rfl

/-- **The address of a packet** for a loco is found again, and with it the instruction. -/
theorem parse_mobile {cab : UInt16} (hactive : s.decoderActive = true) (hzero : cab ≠ 0)
    (hcab : cab ≤ 10239) {instr0 : UInt8} {rest : List UInt8} (hrest : rest.length ≤ 1)
    {p : DCCPacket} (hp : Carries p
      (DCC.addressBytes cab (DCC.highestShortAddr < cab.toNat) ++ instr0 :: rest)) (now : UInt32) :
    ∃ instr1, (∀ b, rest[0]? = some b → instr1 = b) ∧
      parse p now s = mobile cab instr0 instr1 now s := by
  by_cases hlong : DCC.highestShortAddr < cab.toNat
  · obtain ⟨hff, h80, h40, haddr⟩ := longAddress hcab
    simp only [DCC.addressBytes, hlong, decide_true, if_true, List.cons_append,
      List.nil_append] at hp
    have h0 := Option.some.inj (hp.data (i := 0) (by simp))
    have h1 := Option.some.inj (hp.data (i := 1) (by simp))
    have h2 := Option.some.inj (hp.data (i := 2) (by simp))
    refine ⟨p.data 3, ?_, ?_⟩
    · intro b hb
      have hlt := (List.getElem?_eq_some_iff.mp hb).1
      have h3 := hp.data (i := 3) (by simpa using hlt)
      exact Option.some.inj (h3.symm.trans hb)
    · have haccepts : accepts p = true := by
        apply hp.accepts (by simp) (by simp; omega)
        simpa using hff
      rw [parse_eq_interpret hactive haccepts, interpret, ← h0, ← h1, ← h2, if_neg h80,
        if_pos h40, haddr, if_neg hzero]
  · obtain ⟨hff, h80, h0', haddr⟩ := shortAddress hzero (Nat.not_lt.mp hlong)
    simp only [DCC.addressBytes, hlong, decide_false, Bool.false_eq_true, if_false,
      List.cons_append, List.nil_append] at hp
    have h0 := Option.some.inj (hp.data (i := 0) (by simp))
    have h1 := Option.some.inj (hp.data (i := 1) (by simp))
    refine ⟨p.data 2, ?_, ?_⟩
    · intro b hb
      have hlt := (List.getElem?_eq_some_iff.mp hb).1
      have h2 := hp.data (i := 2) (by simpa using hlt)
      exact Option.some.inj (h2.symm.trans hb)
    · have haccepts : accepts p = true := by
        apply hp.accepts (by simp) (by simp; omega)
        simpa using hff
      rw [parse_eq_interpret hactive haccepts, interpret, ← h0, ← h1, if_pos h80,
        if_neg h0', haddr]

end DCCDecoder

/-! ## Senders -/

/-- The bytes a schedule call is given. -/
def DCCQueue.Call.bytes : DCCQueue.Call → List UInt8
  | .scheduleDCCPacket packet _ _ => packet
  | .scheduleDCCSpeedPacket packet _ _ => packet.bytes
  | .scheduleDCCFunctionPacket packet _ _ => packet.bytes
  | .scheduleEstopPacket packet _ _ => packet
  | .scheduleAccOnOffPacket packet _ _ => packet
  | .scheduleNext _ _ => []

/-- All that the program does is to schedule a packet of these bytes. -/
def Sends {α : Type} (m : Dcc α) (s : Station) (bytes : List UInt8) : Prop :=
  ∃ c r, DCCQueue.Call.bytes c = bytes ∧
    m s = .ok (r, { s with queue := DCCQueue.step s.queue c })

theorem sends_of_wp {α : Type} {m : Dcc α} {bytes : List UInt8} {c : DCCQueue.Call}
    (hc : c.bytes = bytes) (h : wp (fun _ => False) m
      (fun _ s' => s' = { s with queue := DCCQueue.step s.queue c }) s) : Sends m s bytes := by
  obtain ⟨r, _, hm, rfl⟩ := wp_iff_exists.mp h
  exact ⟨c, r, hc, hm⟩

namespace DCC

/-- **A speed** is sent as it is by a loco that is in no consist. -/
theorem setThrottleDCC_sends (hs : Sound s) (ha : a ∈ s.locos.slots) (hloose : s.locos.Loose a)
    (hlock : s.estopIsLocked = false) (speedCode : UInt8) :
    Sends (setThrottleDCC (some a) speedCode) s
      (speedPacket (s.locos.mem a).loco s.globalSpeedsteps speedCode).bytes := by
  obtain ⟨xs, ys, h, hc⟩ := hs.table
  rw [h.slots_eq] at ha
  have hforward := hc.reverse a ha (fun hno => by cases hno) hloose
  have hcall : (speedCall (s.locos.mem a).loco s.globalSpeedsteps
      (blocked s (directed (s.locos.mem a) speedCode))).bytes =
        (speedPacket (s.locos.mem a).loco s.globalSpeedsteps speedCode).bytes := by
    simp only [blocked, hlock, directed, hforward, Bool.false_eq_true, if_false, speedCall]
    split <;> rfl
  apply sends_of_wp hcall
  rw [wp_setThrottleDCC (h.live_inUse ha)]

/-- **A function group** is sent if it has been touched. -/
theorem issueReminder_sends (hs : Sound s) (ha : a ∈ s.locos.slots) {group : Nat}
    (hgroup : groupOfLoopStatus s.loopStatus = some group)
    (hflag : (s.locos.mem a).groupFlags &&& groupFlag group ≠ 0) (now : UInt32) :
    Sends (issueReminder a now) s (functionPacket (s.platform.int (s.locos.mem a).loco)
      (functionInstruction group) (functionByte (s.locos.mem a).functions group)).bytes := by
  obtain ⟨xs, ys, h, hc⟩ := hs.table
  rw [h.slots_eq] at ha
  have hspeed : ¬ speedStatus s.loopStatus = true := by
    unfold groupOfLoopStatus at hgroup
    rw [speedStatus]
    grind
  refine sends_of_wp (c := .scheduleDCCFunctionPacket _ (UInt16.ofInt
    (s.platform.int (s.locos.mem a).loco)) group) rfl ?_
  rw [issueReminder, wp_bind, wp_read (h.live_inUse ha)]
  simp only [wp_bind, wp_get, if_neg hspeed, hgroup, if_pos hflag, setFunctionInternal,
    wp_schedule, wp_pure]

/-- The bytes of an accessory packet that switches the output on or off. -/
def accessoryBytes (address : Nat) (port : UInt8) (gate on : Bool) : List UInt8 :=
  let b1 := ((UInt8.ofNat (address / 64 % 8) <<< 4) + ((port % 4) <<< 1) +
    (if gate then 1 else 0)) ^^^ 0xF8
  [UInt8.ofNat (address % 64 + 128), if on then b1 else b1 &&& 0xF7]

theorem setAccessory_sends {address : Nat} (haddress : address ≤ 511) {port : UInt8}
    (hport : port ≤ 3) (gate on : Bool) (s : Station) :
    Sends (setAccessory address port gate (if on then 1 else 0)) s
      (accessoryBytes address port gate on) := by
  have hvalid : ¬ ((address : Int) < 0 ∨ 511 < (address : Int) ∨ 3 < port) := by
    have hport' : ¬ 3 < port := UInt8.not_lt.mpr hport
    rintro (hneg | hhigh | hno)
    · omega
    · omega
    · exact hport' hno
  refine sends_of_wp (c := .scheduleDCCPacket (accessoryBytes address port gate on) 3 0) rfl ?_
  rw [setAccessory, if_neg hvalid, Int.toNat_natCast]
  cases on <;> rfl

end DCC

namespace DCCDecoder

/-- **An accessory packet** is decoded to the call that sent it. -/
theorem parse_accessory (hactive : s.decoderActive = true) {address : Nat}
    (haddress : address ≤ 511) {port : UInt8} (hport : port ≤ 3) (gate on : Bool) {p : DCCPacket}
    (hp : Carries p (DCC.accessoryBytes address port gate on)) (now : UInt32) :
    parse p now s =
      (do DCC.setAccessory address port gate (if on then 1 else 0); pure true : Dcc Bool) s := by
  have hlow : ∀ low : Fin 64, UInt8.ofNat (low + 128) ≠ 0xFF ∧
      UInt8.ofNat (low + 128) &&& 0x80 ≠ 0 ∧ UInt8.ofNat (low + 128) &&& 0x40 = 0 ∧
      (UInt8.ofNat (low + 128) &&& 0x3F).toNat = low := by
    decide +kernel
  have hhigh : ∀ high : Fin 8, ∀ port : Fin 4, ∀ gate on : Bool,
      let b1 := ((UInt8.ofNat high <<< 4) + ((UInt8.ofNat port % 4) <<< 1) +
        (if gate then 1 else 0)) ^^^ 0xF8
      let instr0 := if on then b1 else b1 &&& 0xF7
      instr0 &&& 0x80 ≠ 0 ∧ (~~~instr0 &&& 0x70).toNat = 16 * high ∧
        (instr0 &&& 0x06) >>> 1 = UInt8.ofNat port ∧ (instr0 &&& 0x01 != 0) = gate ∧
        (instr0 &&& 0x08) >>> 3 = if on then 1 else 0 := by
    decide +kernel
  have hport' : port.toNat ≤ 3 := hport
  obtain ⟨hff, h80, h40, h3f⟩ := hlow ⟨address % 64, by omega⟩
  obtain ⟨hacc, haddr, hp3, hgate, hon⟩ :=
    hhigh ⟨address / 64 % 8, by omega⟩ ⟨port.toNat, by omega⟩ gate on
  simp only [UInt8.ofNat_toNat] at hacc haddr hp3 hgate hon
  have hlength : (DCC.accessoryBytes address port gate on).length = 2 := rfl
  have h0 := Option.some.inj (hp.data (i := 0) (by omega))
  have h1 := Option.some.inj (hp.data (i := 1) (by omega))
  have haccepts : accepts p = true := by
    apply hp.accepts (by omega) (by omega)
    intro heq
    exact hff (Option.some.inj heq)
  have hlen : p.len = 3 := hp.1
  have hback : ((16 * (address / 64 % 8) : Nat) : Int) * 4 + (address % 64 : Nat) = address := by
    omega
  rw [parse_eq_interpret hactive haccepts, interpret, ← h0, ← h1, if_neg h80,
    if_neg (fun hno => hno h40), accessory, if_pos ⟨hacc, hlen⟩, haddr, hp3, hgate, hon,
    h3f, hback]

/-! ## The receiver -/

/-- The slot that `getSlot` gives for the loco is as `prepare` leaves it. -/
def FreshFor (s : Station) (locoId : UInt16) : Prop :=
  ∃ a s' old next, Gets s locoId a s' ∧ s'.locos.mem a = LocoSlot.prepared old locoId next

/-- The slot of the loco has the property. -/
def LocoHas (s : Station) (locoId : UInt16) (P : LocoSlot → Prop) : Prop :=
  ∃ a ∈ s.locos.slots, (s.locos.mem a).loco = locoId ∧ P (s.locos.mem a)

/-- A slot that was got is a slot that was granted. -/
theorem granted_of_gets (hs : Sound s) {s' : Station} (hgets : Gets s locoId a s') :
    ∃ xs xs' ys', Granted s xs locoId a s' xs' ys' := by
  obtain ⟨xs, ys, h, hc⟩ := hs.table
  have hask : wp (fun _ => False) (onSlots (LocoSlot.getSlot locoId true))
      (fun r s' => ∀ a, r = some a → ∃ xs' ys', Granted s xs locoId a s' xs' ys') s := by
    apply wp_askSlot h hc locoId
    · intro _ a ha
      cases ha
    · intro a s' xs' ys' hgranted b hb
      cases hb
      exact ⟨xs', ys', hgranted⟩
  obtain ⟨r, s₁, hget, hgranted⟩ := wp_iff_exists.mp hask
  rw [Gets, hget] at hgets
  cases hgets
  exact ⟨xs, hgranted a rfl⟩

theorem ne_zero_of_one_le {cab : UInt16} (h : 1 ≤ cab) : cab ≠ 0 := by
  intro h0
  rw [h0] at h
  exact absurd h (by decide)

/-- A speed packet for a loco with a fresh slot. -/
theorem parse_speedPacket {cab : UInt16} (hs : Sound s) (hactive : s.decoderActive = true)
    (hcab : 1 ≤ cab ∧ cab ≤ 10239) (hfresh : FreshFor s cab) (speedCode : UInt8)
    {p : DCCPacket} (hp : Carries p (DCC.speedPacket cab 128 speedCode).bytes) (now : UInt32) :
    wp F (parse p now)
      (fun _ s' => LocoHas s' cab fun slot => slot.targetSpeed = speedCode) s := by
  have hzero := ne_zero_of_one_le hcab.1
  have hlength : [speedCode].length ≤ 1 := Nat.le_refl 1
  obtain ⟨instr1, hinstr1, hparse⟩ := parse_mobile hactive hzero hcab.2 hlength hp now
  obtain rfl := hinstr1 speedCode rfl
  obtain ⟨a, s₁, old, next, hgets, hslot⟩ := hfresh
  obtain ⟨xs, xs', ys', hgranted⟩ := granted_of_gets hs hgets
  have hroot : s₁.locos.leadOf a = none := by
    rw [leadOf, hslot]
    rfl
  have hsame : (s₁.locos.mem a).snifferSpeedCode = (s₁.locos.mem a).targetSpeed := by
    rw [hslot]
    rfl
  apply wp_of_eq hparse
  refine wp_mono (wp_mobile_speed hgranted.lists hgranted.consists hgranted.mem hgranted.loco
    hgets hroot hsame instr1 now) ?_
  rintro _ s' ⟨hkept, htarget⟩
  have hmem : a ∈ s'.locos.slots := by
    rw [(hkept.locos.lists hgranted.lists).slots_eq]
    exact hgranted.mem
  exact ⟨a, hmem, (hkept.locos.loco a).trans hgranted.loco, htarget⟩

/-- The bytes of the packet for a function group. -/
def groupBytes (cab : UInt16) (group : Nat) (f : UInt32) : List UInt8 :=
  (DCC.functionPacket cab.toNat (DCC.functionInstruction group) (DCC.functionByte f group)).bytes

theorem groupBytes_eq (cab : UInt16) {group : Nat} (hgroup : 1 ≤ group ∧ group ≤ 5) (f : UInt32) :
    groupBytes cab group f = DCC.addressBytes cab (DCC.highestShortAddr < cab.toNat) ++
      instruction group f :: if 4 ≤ group then [DCC.functionByte f group] else [] := by
  have hcab : UInt16.ofInt (cab.toNat : Int) = cab := by
    rw [UInt16.ofInt, Int.toNat_emod (Int.natCast_nonneg _) (by decide)]
    exact UInt16.toNat_inj.mp (by simp)
  have hhigh : decide ((DCC.highestShortAddr : Int) < (cab.toNat : Int)) =
      decide (DCC.highestShortAddr < cab.toNat) := by
    simp
  simp only [groupBytes, DCC.functionPacket, hcab, hhigh]
  obtain rfl | rfl | rfl | rfl | rfl : group = 1 ∨ group = 2 ∨ group = 3 ∨ group = 4 ∨ group = 5 := by
    omega
  all_goals rfl

/-- The sniffed functions and those of the loco in slot `a` are the same. -/
structure InStep (s : Station) (xs ys : List Addr) (cab : UInt16) (a : Addr) : Prop where
  active : s.decoderActive = true
  lists : Lists s.locos xs ys
  mem : a ∈ xs
  loco : (s.locos.mem a).loco = cab
  same : (s.locos.mem a).snifferFunctions = (s.locos.mem a).functions

/-- **A function packet** is taken over. -/
theorem parse_groupPacket {cab : UInt16} (h : InStep s xs ys cab a) (hgets : Gets s₀ cab a s)
    (hcab : 1 ≤ cab ∧ cab ≤ 10239) {group : Nat} (hgroup : 1 ≤ group ∧ group ≤ 5) (f : UInt32)
    {p : DCCPacket} (hp : Carries p (groupBytes cab group f)) (now : UInt32) :
    wp F (parse p now) (fun _ s' => InStep s' xs ys cab a ∧
      Merged group f (s.locos.mem a).functions (s'.locos.mem a).functions) s₀ := by
  rw [groupBytes_eq cab hgroup f] at hp
  have hzero := ne_zero_of_one_le hcab.1
  have hactive : s₀.decoderActive = true := by
    rw [← h.active, hgets.locos.2]
  have hlength : (if 4 ≤ group then [DCC.functionByte f group] else []).length ≤ 1 := by
    split <;> simp
  obtain ⟨instr1, hinstr1, hparse⟩ := parse_mobile hactive hzero hcab.2 hlength hp now
  apply wp_of_eq hparse
  have hlow : cab.toNat < 32768 := Nat.lt_of_le_of_lt hcab.2 (by decide)
  refine wp_mobile_functions h.lists h.mem hlow h.loco hgets h.same hgroup f ?_ now ?_
  · intro h4
    apply hinstr1
    rw [if_pos h4]
    rfl
  · intro _ functions slot hmerged hslot
    refine ⟨⟨h.active, lists_put h.lists ?_, h.mem, ?_, ?_⟩, ?_⟩
    · rw [hslot]
      rfl
    · rw [mem_put, hslot]
      exact h.loco
    · rw [mem_put, hslot]
    · rw [mem_put, hslot]
      exact hmerged

/-- Packets for function groups one after the other: a group that was sent is taken over, the others
stay. -/
theorem parse_groupPackets {cab : UInt16} (h : InStep s xs ys cab a)
    (hcab : 1 ≤ cab ∧ cab ≤ 10239) (f : UInt32) (ps : List (Nat × DCCPacket × UInt32))
    (hps : ∀ x ∈ ps, (1 ≤ x.1 ∧ x.1 ≤ 5) ∧ Carries x.2.1 (groupBytes cab x.1 f)) :
    wp F (runProg (fun x => parse x.2.1 x.2.2) ps) (fun _ s' => InStep s' xs ys cab a ∧
      ∀ j ≤ 28, (s'.locos.mem a).functions.toBitVec.getLsbD j =
        if groupOf j ∈ ps.map (·.1) then f.toBitVec.getLsbD j
        else (s.locos.mem a).functions.toBitVec.getLsbD j) s := by
  induction ps generalizing s with
  | nil =>
    refine ⟨h, ?_⟩
    intro j _
    rw [if_neg (by simp)]
  | cons x ps ih =>
    obtain ⟨hgroup, hp⟩ := hps x List.mem_cons_self
    rw [runProg, wp_bind]
    refine wp_mono (parse_groupPacket h (gets_own h.lists h.mem h.loco) hcab hgroup f hp _) ?_
    rintro _ s' ⟨h', hmerged⟩
    refine wp_mono (ih h' fun y hy => hps y (List.mem_cons_of_mem x hy)) ?_
    rintro _ s'' ⟨h'', hbits⟩
    refine ⟨h'', ?_⟩
    intro j hj
    rw [hbits j hj, hmerged j (by omega)]
    simp only [List.map_cons, List.mem_cons]
    grind

/-- The same from the first packet on, for a loco whose slot is fresh. -/
theorem parse_groupPackets_fresh {cab : UInt16} (hs : Sound s) (hactive : s.decoderActive = true)
    (hcab : 1 ≤ cab ∧ cab ≤ 10239) (hfresh : FreshFor s cab) (f : UInt32)
    {ps : List (Nat × DCCPacket × UInt32)} (hne : ps ≠ [])
    (hps : ∀ x ∈ ps, (1 ≤ x.1 ∧ x.1 ≤ 5) ∧ Carries x.2.1 (groupBytes cab x.1 f)) :
    wp F (runProg (fun x => parse x.2.1 x.2.2) ps) (fun _ s' => LocoHas s' cab fun slot =>
      ∀ j ≤ 28, slot.functions.toBitVec.getLsbD j =
        (decide (groupOf j ∈ ps.map (·.1)) && f.toBitVec.getLsbD j)) s := by
  obtain ⟨a, s₁, old, next, hgets, hslot⟩ := hfresh
  obtain ⟨xs, xs', ys', hgranted⟩ := granted_of_gets hs hgets
  have hactive₁ : s₁.decoderActive = true := by
    rw [← hactive, hgets.locos.2]
  have hsame : (s₁.locos.mem a).snifferFunctions = (s₁.locos.mem a).functions := by
    rw [hslot]
    rfl
  have hin : InStep s₁ xs' ys' cab a :=
    ⟨hactive₁, hgranted.lists, hgranted.mem, hgranted.loco, hsame⟩
  have hoff : ∀ j, (s₁.locos.mem a).functions.toBitVec.getLsbD j = false := by
    intro j
    rw [hslot]
    exact BitVec.getLsbD_zero
  cases ps with
  | nil => exact absurd rfl hne
  | cons x ps =>
    obtain ⟨hgroup, hp⟩ := hps x List.mem_cons_self
    rw [runProg, wp_bind]
    -- the first packet may have to create the slot
    refine wp_mono (parse_groupPacket hin hgets hcab hgroup f hp _) ?_
    rintro _ s' ⟨h', hmerged⟩
    refine wp_mono (parse_groupPackets h' hcab f ps fun y hy =>
      hps y (List.mem_cons_of_mem x hy)) ?_
    rintro _ s'' ⟨h'', hbits⟩
    refine ⟨a, ?_, h''.loco, ?_⟩
    · rw [h''.lists.slots_eq]
      exact h''.mem
    · intro j hj
      rw [hbits j hj, hmerged j (by omega), hoff]
      simp only [List.map_cons, List.mem_cons]
      grind

/-- **What a station sends, a station that listens follows.** `tx` are stations that send, `rx`
listens and has a fresh slot for the loco: it takes over every speed, the functions of all groups
that it hears of, and gives its own call for every accessory output that is switched. -/
theorem decoder_follows_sender {cab : UInt16} (hcab : 1 ≤ cab ∧ cab ≤ 10239) {rx : Station}
    (hrx : Reachable rx) (hactive : rx.decoderActive = true) (hfresh : FreshFor rx cab)
    (now : UInt32) :
    (∀ tx a speedCode, Reachable tx → a ∈ tx.locos.slots → (tx.locos.mem a).loco = cab →
      tx.locos.Loose a → tx.globalSpeedsteps = 128 → tx.estopIsLocked = false →
      ∃ bytes, Sends (DCC.setThrottleDCC (some a) speedCode) tx bytes ∧
        ∀ p, Carries p bytes → wp (fun _ => False) (parse p now)
          (fun _ s' => LocoHas s' cab fun slot => slot.targetSpeed = speedCode) rx) ∧
    (∀ f : UInt32, ∃ bytes : Nat → List UInt8,
      (∀ tx a group remindAt, Reachable tx → a ∈ tx.locos.slots → (tx.locos.mem a).loco = cab →
        (tx.locos.mem a).functions = f → DCC.groupOfLoopStatus tx.loopStatus = some group →
        (tx.locos.mem a).groupFlags &&& DCC.groupFlag group ≠ 0 →
        Sends (DCC.issueReminder a remindAt) tx (bytes group)) ∧
      ∀ ps : List (Nat × DCCPacket × UInt32), ps ≠ [] →
        (∀ x ∈ ps, (1 ≤ x.1 ∧ x.1 ≤ 5) ∧ Carries x.2.1 (bytes x.1)) →
        wp (fun _ => False) (runProg (fun x => parse x.2.1 x.2.2) ps)
          (fun _ s' => LocoHas s' cab fun slot => ∀ j ≤ 28, slot.functions.toBitVec.getLsbD j =
            (decide (groupOf j ∈ ps.map (·.1)) && f.toBitVec.getLsbD j)) rx) ∧
    ∀ (tx : Station) (address : Nat) (port : UInt8) (gate on : Bool), address ≤ 511 → port ≤ 3 →
      ∃ bytes, Sends (DCC.setAccessory address port gate (if on then 1 else 0)) tx bytes ∧
        ∀ p, Carries p bytes → parse p now rx =
          (do DCC.setAccessory address port gate (if on then 1 else 0); pure true : Dcc Bool) rx := by
  refine ⟨?_, ?_, ?_⟩
  · intro tx a speedCode htx ha hid hloose hsteps hlock
    refine ⟨(DCC.speedPacket cab 128 speedCode).bytes, ?_, fun p hp =>
      parse_speedPacket hrx.sound hactive hcab hfresh speedCode hp now⟩
    rw [← hid, ← hsteps]
    exact DCC.setThrottleDCC_sends htx.sound ha hloose hlock speedCode
  · intro f
    refine ⟨fun group => groupBytes cab group f, ?_, fun ps hne hps =>
      parse_groupPackets_fresh hrx.sound hactive hcab hfresh f hne hps⟩
    intro tx a group remindAt htx ha hid hf hgroup hflag
    have hlow : cab.toNat < 32768 := Nat.lt_of_le_of_lt hcab.2 (by decide)
    -- the `int` of the address is the same on all platforms
    have hint : tx.platform.int cab = cab.toNat := by
      cases tx.platform with
      | uno => exact toInt_toInt16 hlow
      | avr => exact toInt_toInt16 hlow
      | arm => rfl
      | esp32 => rfl
    have hsends := DCC.issueReminder_sends htx.sound ha hgroup hflag remindAt
    rw [hid, hf, hint] at hsends
    exact hsends
  · intro tx address port gate on haddress hport
    exact ⟨DCC.accessoryBytes address port gate on,
      DCC.setAccessory_sends haddress hport gate on tx,
      fun p hp => parse_accessory hactive haddress hport gate on hp now⟩

theorem exists_carries (bytes : List UInt8) : ∃ p, Carries p bytes := by
  refine ⟨⟨bytes.length + 1, fun i => (bytes ++ [bytes.foldl (· ^^^ ·) 0]).getD i 0⟩, rfl, ?_⟩
  apply List.ext_getElem
  · simp
  · intro i hi _
    simp only [List.length_map, List.length_range] at hi
    simp [List.getElem?_append, List.getElem_append]
    grind

/-- Loco 5000 is sent and follows speed 5 forwards. -/
theorem decoder_follows_sender_loco5000 : ∃ (s : Station) (p : DCCPacket) (bytes : List UInt8),
    Reachable s ∧ Sends (DCC.setThrottleDCC (some 0) 0x85) s bytes ∧ Carries p bytes ∧
      wp (fun _ => False) (parse p 0)
        (fun _ s' => LocoHas s' 5000 fun slot => slot.targetSpeed = 0x85) s := by
  obtain ⟨_, s, hrun, hactive, hslots, hid, hloose, hsteps, hlock, hslot⟩ := (wp_iff_exists
    (m := runProg Op.exec [.setThrottle 5000 0 true 0, .decoderOnOff true])
    (s := Station.init .esp32 2 [])
    (Q := fun _ s => s.decoderActive = true ∧ s.locos.slots = [0] ∧
      (s.locos.mem 0).loco = 5000 ∧ (s.locos.leadOf 0 = none ∧ s.locos.consistNextOf 0 = none) ∧
      s.globalSpeedsteps = 128 ∧ s.estopIsLocked = false ∧
      s.locos.mem 0 = LocoSlot.prepared (s.locos.mem 0) 5000 none)).mp (by decide +kernel)
  have hreach : Reachable s := ⟨.esp32, 2, [], _, hrun⟩
  obtain ⟨xs, ys, h, -⟩ := hreach.sound.table
  have hmem : 0 ∈ s.locos.slots := hslots ▸ List.mem_cons_self
  have hgets : Gets s 5000 0 s := gets_own h (h.slots_eq ▸ hmem) hid
  have hcab : (1 : UInt16) ≤ 5000 ∧ (5000 : UInt16) ≤ 10239 := by decide
  obtain ⟨bytes, hsends, hfollows⟩ := (decoder_follows_sender hcab hreach hactive
    ⟨0, s, _, none, hgets, hslot⟩ 0).1 s 0 0x85 hreach hmem hid hloose hsteps hlock
  obtain ⟨p, hp⟩ := exists_carries bytes
  exact ⟨s, p, bytes, hreach, hsends, hp, hfollows p hp⟩

end DCCDecoder

end CommandStation
