import CommandStation.DCCDecoder.Echo

/-!
# Which bytes of a packet are interpreted

`parse` tests the length of a packet once, at the top: 3 to 6 bytes. Where the instruction starts
depends on the address, and how long it is on its first byte. A packet that is too short for its
instruction gets past the tests, and its checksum, or the memory behind it, is taken for the rest of
the instruction.
-/

namespace CommandStation.DCCDecoder

open CommandStation.Lib LocoTable

variable {s : Station} {cab : UInt16} {p q : DCCPacket}

/-- The packets have the same bytes before the checksum. -/
def SamePayload (p q : DCCPacket) : Prop :=
  q.len = p.len ∧ ∀ i, i + 1 < p.len → q.data i = p.data i

/-- What the decoder does with the packet, once it is past the tests, depends only on the bytes
before the checksum. -/
def PayloadOnly (p : DCCPacket) : Prop :=
  ∀ q, SamePayload p q → ∀ s, Reachable s → s.decoderActive = true →
    ∀ now, interpret q now s = interpret p now s

/-- The number of bytes that the decoder reads of an instruction. -/
def instructionLength (instr0 : UInt8) : Nat :=
  if instr0 = 0x3F ∨ instr0 = 0xDE ∨ instr0 = 0xDF then 2 else 1

/-- The packet is for a loco, whose address takes so many bytes. -/
def locoAddress (p : DCCPacket) : Option Nat :=
  let d0 := p.data 0
  if d0 &&& 0x80 = 0 then if d0 = 0 then none else some 1
  else if d0 &&& 0x40 ≠ 0 then
    if 256 * (d0 &&& 0x3F).toUInt16 + (p.data 1).toUInt16 = 0 then none else some 2
  else none

/-- The instruction for a loco lies before the checksum. -/
def Complete (p : DCCPacket) : Prop :=
  ∀ n, locoAddress p = some n → n + instructionLength (p.data n) < p.len

/-- The second byte is read only of an instruction of two bytes. -/
theorem mobile_congr {instr0 : UInt8} (h : instructionLength instr0 = 1) (instr1 instr1' : UInt8)
    (now : UInt32) : mobile cab instr0 instr1' now = mobile cab instr0 instr1 now := by
  have hno : ¬ (instr0 = 0x3F ∨ instr0 = 0xDE ∨ instr0 = 0xDF) := by
    intro hyes
    rw [instructionLength, if_pos hyes] at h
    cases h
  obtain ⟨h3f, hde, hdf⟩ : instr0 ≠ 0x3F ∧ instr0 ≠ 0xDE ∧ instr0 ≠ 0xDF := by
    simpa [not_or] using hno
  unfold mobile
  simp only [if_neg h3f, if_neg hde, if_neg hdf]

/-- What the decoder does with a packet for a loco. -/
theorem interpret_loco {n : Nat} (h : locoAddress p = some n) :
    (n = 1 ∨ n = 2) ∧ ∃ cab, cab ≠ 0 ∧ cab.toNat < 32768 ∧
      ∀ q, (∀ i < n, q.data i = p.data i) → ∀ now,
        interpret q now = mobile cab (q.data n) (q.data (n + 1)) now := by
  unfold locoAddress at h
  extract_lets d0 at h
  split at h
  · next hshort =>
    split at h
    · cases h
    · next h0 =>
      cases h
      have hlow := d0.toNat_lt
      have hzero : d0.toUInt16 ≠ 0 := by
        intro heq
        have hnat := congrArg UInt16.toNat heq
        rw [UInt8.toNat_toUInt16] at hnat
        exact h0 (UInt8.toNat_inj.mp hnat)
      refine ⟨.inl rfl, d0.toUInt16, hzero, ?_, ?_⟩
      · rw [UInt8.toNat_toUInt16]
        omega
      · intro q hq now
        rw [interpret, hq 0 (by omega), if_pos hshort, if_neg h0]
  · next hshort =>
    split at h
    · next hlong =>
      split at h
      · cases h
      · next h0 =>
        cases h
        have hbyte : ∀ b : UInt8, (b &&& 0x3F).toNat ≤ 63 := byte_forall (by decide +kernel)
        have hhigh := hbyte d0
        have hlow := (p.data 1).toNat_lt
        refine ⟨.inr rfl, _, h0, ?_, ?_⟩
        · rw [UInt16.toNat_add, UInt16.toNat_mul, UInt8.toNat_toUInt16, UInt8.toNat_toUInt16]
          show (256 * (d0 &&& 0x3F).toNat % 2 ^ 16 + (p.data 1).toNat) % 2 ^ 16 < 32768
          omega
        · intro q hq now
          rw [interpret, hq 0 (by omega), hq 1 (by omega), if_neg hshort, if_pos hlong, if_neg h0]
    · cases h

/-- A packet that is not for a loco is an accessory packet or not interpreted at all. -/
theorem interpret_other (h : locoAddress p = none) (hlen : q.len = p.len)
    (h0 : q.data 0 = p.data 0) (h1 : q.data 1 = p.data 1) (now : UInt32) :
    interpret q now = interpret p now := by
  unfold locoAddress at h
  extract_lets d0 at h
  unfold interpret accessory
  rw [h0, h1, hlen]
  grind

/-! ## Two packets that differ behind the payload -/

/-- A station without locos that listens. -/
theorem exists_listening : ∃ s : Station, Reachable s ∧ s.decoderActive = true ∧
    s.locos.slots = [] ∧ 0 < s.locos.maxLocos := by
  obtain ⟨_, s, hrun, hs⟩ := (wp_iff_exists (m := runProg Op.exec [.decoderOnOff true])
    (s := Station.init .esp32 1 [])
    (Q := fun _ s => s.decoderActive = true ∧ s.locos.slots = [] ∧ 0 < s.locos.maxLocos)).mp
      (by decide +kernel)
  exact ⟨s, ⟨.esp32, 1, [], _, hrun⟩, hs⟩

/-- In an empty table any loco is new. -/
theorem freshFor_of_empty (hs : Sound s) (hslots : s.locos.slots = [])
    (hroom : 0 < s.locos.maxLocos) (hcab : cab ≠ 0) : FreshFor s cab := by
  obtain ⟨xs, ys, h, -⟩ := hs.table
  obtain rfl : xs = [] := h.slots_eq.symm.trans hslots
  have hget : wp (fun _ => False) (onSlots (LocoSlot.getSlot cab true))
      (fun r s' => ∃ a old next, r = some a ∧
        s'.locos.mem a = LocoSlot.prepared old cab next) s := by
    rw [wp_onSlots]
    refine wp_mono (getSlot_spec h cab true) ?_
    intro r t' hr
    cases hr with
    | zero h0 => exact absurd h0 hcab
    | found _ ha _ => cases ha
    | unknown _ _ hcreate => cases hcreate
    | full _ _ _ hfull =>
      rw [← hfull] at hroom
      exact absurd hroom (Nat.lt_irrefl 0)
    | @created a t' _ _ _ _ ht' =>
      obtain ⟨old, hslot⟩ := ht'.slot
      exact ⟨a, old, _, rfl, hslot⟩
  obtain ⟨_, s', hget, a, old, next, rfl, hslot⟩ := wp_iff_exists.mp hget
  exact ⟨a, s', old, next, hget, hslot⟩

/-- The second byte of an instruction makes a difference. -/
theorem mobile_ne (hs : Sound s) (hslots : s.locos.slots = []) (hroom : 0 < s.locos.maxLocos)
    (hcab : cab ≠ 0) (hlow : cab.toNat < 32768) {instr0 : UInt8}
    (hinstr0 : instructionLength instr0 = 2) (now : UInt32) :
    mobile cab instr0 5 now s ≠ mobile cab instr0 6 now s := by
  intro heq
  obtain ⟨a, s₁, old, next, hgets, hslot⟩ := freshFor_of_empty hs hslots hroom hcab
  obtain ⟨xs, xs', ys', hgranted⟩ := granted_of_gets hs hgets
  have hroot : s₁.locos.leadOf a = none := by
    rw [leadOf, hslot]
    rfl
  have hspeed : (s₁.locos.mem a).snifferSpeedCode = (s₁.locos.mem a).targetSpeed := by
    rw [hslot]
    rfl
  have hfunctions : (s₁.locos.mem a).snifferFunctions = (s₁.locos.mem a).functions := by
    rw [hslot]
    rfl
  -- both results would have both properties
  have hboth : ∀ {Q Q' : Station → Prop},
      (∀ {F : Fault → Prop}, wp F (mobile cab instr0 5 now) (fun _ s' => Q s') s) →
      (∀ {F : Fault → Prop}, wp F (mobile cab instr0 6 now) (fun _ s' => Q' s') s) →
      ∃ s', Q s' ∧ Q' s' := by
    intro Q Q' h5 h6
    obtain ⟨_, s', -, hs'⟩ := wp_iff_exists.mp (wp_and h5 (wp_of_eq heq h6))
    exact ⟨s', hs'⟩
  have hgroup : ∀ (group : Nat) (f f' : UInt32) (j : Nat), 4 ≤ group ∧ group ≤ 5 →
      instr0 = DCC.functionInstruction group → DCC.functionByte f group = 5 →
      DCC.functionByte f' group = 6 → j ≤ 28 → groupOf j = group →
      f.toBitVec.getLsbD j = true → f'.toBitVec.getLsbD j = true := by
    intro group f f' j hgroup hinstr h5 h6 hj hgroupOf hbit
    have hinstruction : ∀ f, instruction group f = instr0 := by
      intro f
      rw [instruction, if_neg (by omega), hinstr]
    have hmerged : ∀ (f : UInt32) (instr1 : UInt8), instr1 = DCC.functionByte f group →
        ∀ {F : Fault → Prop}, wp F (mobile cab instr0 instr1 now)
          (fun _ s' => (s'.locos.mem a).functions.toBitVec.getLsbD j = f.toBitVec.getLsbD j) s := by
      intro f instr1 hinstr1 F
      rw [← hinstruction f]
      apply wp_mobile_functions hgranted.lists hgranted.mem hlow hgranted.loco hgets hfunctions
        (by omega) f fun _ => hinstr1
      intro _ functions slot hmerged hslot
      rw [Station.mem_put, hslot, hmerged j (by omega), if_pos ⟨hj, hgroupOf⟩]
    obtain ⟨s', h5', h6'⟩ := hboth (hmerged f 5 h5.symm) (hmerged f' 6 h6.symm)
    rw [← h6', h5', hbit]
  have hcases : instr0 = 0x3F ∨ instr0 = 0xDE ∨ instr0 = 0xDF := by
    by_contra hno
    rw [instructionLength, if_neg hno] at hinstr0
    cases hinstr0
  rcases hcases with rfl | rfl | rfl
  · have htarget : ∀ (speedCode : UInt8) {F : Fault → Prop}, wp F (mobile cab 0x3F speedCode now)
        (fun _ s' => Kept s₁ s' ∧ (s'.locos.mem a).targetSpeed = speedCode) s := by
      intro speedCode F
      exact wp_mobile_speed hgranted.lists hgranted.consists hgranted.mem hgranted.loco hgets hroot
        hspeed speedCode now
    obtain ⟨s', ⟨-, h5⟩, -, h6⟩ := hboth (htarget 5) (htarget 6)
    rw [h5] at h6
    exact absurd h6 (by decide)
  · have hbit := hgroup 4 0xA000 0xC000 13 (by decide) rfl rfl rfl (by decide) rfl rfl
    exact absurd hbit (by decide)
  · have hbit := hgroup 5 0xA00000 0xC00000 21 (by decide) rfl rfl rfl (by decide) rfl rfl
    exact absurd hbit (by decide)

/-- A packet with other bytes from index `n` on. -/
def behind (p : DCCPacket) (n : Nat) (instr0 instr1 : UInt8) : DCCPacket where
  len := p.len
  data i := if i < n then p.data i else if i = n then instr0 else instr1

/-- If only the payload of a packet is read, its instruction lies before the checksum. -/
theorem complete_of_payloadOnly (hpayload : PayloadOnly p) : Complete p := by
  intro n hn
  obtain ⟨h12, cab, hcab, hlow, hinterpret⟩ := interpret_loco hn
  by_contra hshort
  obtain ⟨s, hs, hactive, hslots, hroom⟩ := exists_listening
  -- the instruction, or only its second byte, lies behind the payload
  obtain ⟨instr0, htwo, hsame⟩ : ∃ instr0, instructionLength instr0 = 2 ∧
      ∀ instr1, SamePayload p (behind p n instr0 instr1) := by
    by_cases hin : n + 1 < p.len
    · refine ⟨p.data n, ?_, fun instr1 => ⟨rfl, ?_⟩⟩
      · unfold instructionLength at hshort ⊢
        split at hshort
        · next htwo => exact if_pos htwo
        · omega
      · have : instructionLength (p.data n) ≤ 2 := by
          unfold instructionLength
          split <;> decide
        intro i hi
        by_cases hlt : i < n
        · exact if_pos hlt
        · obtain rfl : i = n := by omega
          simp [behind]
    · refine ⟨0x3F, rfl, fun instr1 => ⟨rfl, ?_⟩⟩
      intro i hi
      exact if_pos (by omega)
  have hact : ∀ instr1, interpret p 0 s = mobile cab instr0 instr1 0 s := by
    intro instr1
    rw [← hpayload _ (hsame instr1) s hs hactive 0, hinterpret _ fun i hi => if_pos hi]
    simp [behind]
  exact mobile_ne hs.sound hslots hroom hcab hlow htwo 0 ((hact 5).symm.trans (hact 6))

/-- If the instruction lies before the checksum, only the payload is read. -/
theorem payloadOnly_of_complete (hlen : 3 ≤ p.len) (hcomplete : Complete p) : PayloadOnly p := by
  intro q hq s _ _ now
  cases hn : locoAddress p with
  | none =>
    rw [interpret_other hn hq.1 (hq.2 0 (by omega)) (hq.2 1 (by omega))]
  | some n =>
    obtain ⟨h12, cab, hcab, hlow, hinterpret⟩ := interpret_loco hn
    have hfits := hcomplete n hn
    have hpos : 1 ≤ instructionLength (p.data n) := by
      unfold instructionLength
      split <;> decide
    rw [hinterpret q (fun i hi => hq.2 i (by omega)), hinterpret p fun _ _ => rfl,
      hq.2 n (by omega)]
    by_cases hone : instructionLength (p.data n) = 1
    · rw [mobile_congr hone]
    · rw [hq.2 (n + 1) (by omega)]

/-- **The checksum and what lies behind it are not interpreted** exactly if the packet is long enough
for its instruction. -/
theorem payloadOnly_iff (hp : accepts p = true) : PayloadOnly p ↔ Complete p := by
  have hlen : 3 ≤ p.len := by
    simp only [accepts, Bool.and_eq_true, decide_eq_true_eq] at hp
    exact hp.1.1.2
  exact ⟨complete_of_payloadOnly, payloadOnly_of_complete hlen⟩

/-- A speed packet for loco 3 with its speed is long enough. -/
theorem payloadOnly_iff_speed :
    accepts ⟨4, fun i => [3, 0x3F, 0x85, 0xB9].getD i 0⟩ = true ∧
      PayloadOnly ⟨4, fun i => [3, 0x3F, 0x85, 0xB9].getD i 0⟩ := by
  have hp : accepts ⟨4, fun i => [3, 0x3F, 0x85, 0xB9].getD i 0⟩ = true := by decide
  refine ⟨hp, (payloadOnly_iff hp).mpr fun n hn => ?_⟩
  obtain rfl : n = 1 := (Option.some.inj hn).symm
  decide

/-- A speed instruction for loco 3 without a speed: the checksum 0x3C is taken for it. -/
theorem not_payloadOnly :
    accepts ⟨3, fun i => [3, 0x3F, 0x3C].getD i 0⟩ = true ∧
      ¬ PayloadOnly ⟨3, fun i => [3, 0x3F, 0x3C].getD i 0⟩ := by
  refine ⟨by decide, fun hpayload => ?_⟩
  exact absurd (complete_of_payloadOnly hpayload 1 rfl) (by decide)

end CommandStation.DCCDecoder
