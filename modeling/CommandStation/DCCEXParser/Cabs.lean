import CommandStation.DCC.Recipients
import CommandStation.DCCEXParser.KeywordHasher
import CommandStation.EXRAIL2.Resuming

/-!
# Commands for a loco

The cases of `parseOne` that put packets for a loco on the queue. Only `<t>` looks whether there can
be a loco of that number. So what is said here about the receivers of packets is about the numbers
from 1 to 10239.
-/

namespace CommandStation

open CommandStation.Lib

namespace DCCEXParser

/-- The rest of case `t`, for the cab, speed and direction of both formats: -1 is the emergency stop,
0 to 126 are speeds. -/
def setThrottle (cab tspeed direction : Int16) (now : UInt32) : Dcc Bool :=
  if 126 < tspeed ∨ tspeed < -1 then pure false  -- invalid JMRI speed code
  else
    -- to DCC 0=stop, 1= emergency stop, 2-127 speeds
    let tspeed := if tspeed < 0 then 1 else if 0 < tspeed then tspeed + 1 else tspeed
    if cab = 0 ∧ 1 < tspeed then pure false  -- ignore broadcasts of speed>1
    else if direction < 0 ∨ 1 < direction then pure false  -- invalid direction code
    else if 10239 < cab ∨ cab < 0 then pure false  -- beyond DCC range
    else DCC.setThrottle cab.toUInt16 tspeed.toUInt16.toUInt8 (direction != 0) now

/-- `DCCEXParser::parsef` -/
def parsef : List Int16 → Dcc Bool
  | [cab, byte1] =>
    let instructionField := byte1.toUInt16.toUInt8 &&& 0xE0
    if instructionField = 0x80 then  -- Function group 1
      -- Shuffle bits from order F0 F4 F3 F2 F1 to F4 F3 F2 F1 F0
      let normalized : Int16 :=
        (byte1 <<< (1 : Int16)) &&& (0x1E : Int16) ||| (byte1 >>> (4 : Int16)) &&& (0x01 : Int16)
      funcmap cab normalized.toUInt16.toUInt8 0 4
    else if instructionField = 0xA0 then  -- Function group 2
      if byte1 &&& 0x10 ≠ 0 then funcmap cab byte1.toUInt16.toUInt8 5 8
      else funcmap cab byte1.toUInt16.toUInt8 9 12
    else pure false
  | [cab, byte1, byte2] =>
    if byte1 = 222 then funcmap cab byte2.toUInt16.toUInt8 13 20
    else if byte1 = 223 then funcmap cab byte2.toUInt16.toUInt8 21 28
    else pure false
  | _ => pure false

/-- The cases of `switch (opcode)` in `parseOne` that are about a loco on the main track: false where
the answer is `<X>`. `railcom` is `DCCWaveform::isRailcom()`, and `stashed` what `stashCallback`
returns. -/
def parseCab (opcode : Char) (p : List Int16) (railcom stashed : Bool) (now : UInt32) : Dcc Bool :=
  match opcode, p with
  | 't', [cab] =>  -- display state
    if cab < 0 ∨ 10239 < cab then pure false  -- beyond DCC range
    else do
      let _ ← onSlots (LocoSlot.getSlot cab.toUInt16 false)
      pure true
  | 't', [_register, cab, tspeed, direction] => setThrottle cab tspeed direction now
  | 't', [cab, tspeed, direction] => setThrottle cab tspeed direction now
  | 'f', p => parsef p
  | 'F', [cab, func, value] =>
    if func = hk "DCFREQ" then
      if value < 0 ∨ 3 < value then pure false
      else do
        DCC.setDCFreq cab.toInt value.toUInt16.toUInt8
        pure true
    else DCC.setFn cab.toInt func (value = 1)
  | 'w', [cab, cv, value] => do  -- WRITE CV on MAIN
    DCC.writeCVByteMain cab.toInt cv.toUInt16 value.toUInt16.toUInt8
    pure true
  | 'r', [cab, cv] =>  -- READ CV on MAIN
    if !railcom then pure false
    else if !stashed then pure false
    else do
      DCC.readCVByteMain cab.toInt cv.toUInt16
      pure true
  | 'b', [cab, cv, bNum, bValue] => do  -- WRITE CV BIT ON MAIN
    DCC.writeCVBitMain cab.toInt cv.toUInt16 bNum.toUInt16.toUInt8 (bValue != 0)
    pure true
  | _, _ => pure false

/-- The loco that a command is for. -/
def cabOf : Char → List Int16 → Option Int16
  | 't', [_register, cab, _tspeed, _direction] => some cab
  | _, p => p.head?

end DCCEXParser

/-! ## Who is sent something -/

namespace DCCEXParser

variable {s s' : Station} {cab : Int16} {p : List Int16} {now : UInt32}

theorem sent_funcmap {cab : Int16} (h : 1 ≤ cab.toInt ∧ cab.toInt ≤ 10239)
    (value fstart fstop : UInt8) :
    Preserves (Sent (DCCQueue.Call.IsFor cab.toInt.toNat)) (funcmap cab value fstart fstop) := by
  have hfrom : ∀ (n : Nat) (i : Int16) (value : UInt8),
      Preserves (Sent (DCCQueue.Call.IsFor cab.toInt.toNat)) (funcmapFrom cab i n value) := by
    intro n
    induction n with
    | zero => exact fun _ _ => preserves_pure true
    | succ n ih =>
      intro i value
      refine preserves_bind (DCC.sent_setFn h i _) fun done => preserves_ite (fun _ => ih _ _)
        fun _ => preserves_pure false
  exact hfrom _ _ _

theorem funcmap_of_not_pos (h : cab.toInt ≤ 0) {value fstart fstop : UInt8} (hlt : fstart ≤ fstop) :
    funcmap cab value fstart fstop = pure false := by
  have hle : fstart.toNat ≤ fstop.toNat := hlt
  unfold funcmap
  obtain ⟨n, hn⟩ : ∃ n, fstop.toNat + 1 - fstart.toNat = n + 1 := ⟨fstop.toNat - fstart.toNat, by omega⟩
  rw [hn, funcmapFrom, DCC.setFn_of_not_pos h]
  rfl

theorem sent_parsef (hcab : p.head? = some cab) (h : 1 ≤ cab.toInt ∧ cab.toInt ≤ 10239) :
    Preserves (Sent (DCCQueue.Call.IsFor cab.toInt.toNat)) (parsef p) := by
  unfold parsef
  split
  · cases hcab
    refine preserves_ite (fun _ => sent_funcmap h _ _ _) fun _ => preserves_ite (fun _ => ?_)
      fun _ => preserves_pure false
    exact preserves_ite (fun _ => sent_funcmap h _ _ _) fun _ => sent_funcmap h _ _ _
  · cases hcab
    exact preserves_ite (fun _ => sent_funcmap h _ _ _) fun _ =>
      preserves_ite (fun _ => sent_funcmap h _ _ _) fun _ => preserves_pure false
  · exact preserves_pure false

theorem parsef_of_not_pos (hcab : p.head? = some cab) (h : cab.toInt ≤ 0) :
    parsef p = pure false := by
  unfold parsef
  split
  · cases hcab
    rw [funcmap_of_not_pos h (by decide), funcmap_of_not_pos h (by decide),
      funcmap_of_not_pos h (by decide)]
    simp
  · cases hcab
    rw [funcmap_of_not_pos h (by decide), funcmap_of_not_pos h (by decide)]
    simp
  · rfl

/-- What a throttle command accepts, and what it sends. -/
structure ThrottleSpec (cab : Int16) (s s' : Station) : Prop where
  inRange : 0 ≤ cab.toInt ∧ cab.toInt ≤ 10239
  broadcast : cab = 0 → Sent DCC.IsEstopAll s s'
  speeds : cab ≠ 0 → DCC.SpeedsFor cab.toInt.toNat s s'

/-- A speed that is not ignored in a broadcast is a stop or an emergency stop. -/
theorem broadcast_code {tspeed : Int16} (h : ¬ (126 < tspeed ∨ tspeed < -1))
    (hcode : ¬ 1 < (if tspeed < 0 then (1 : Int16) else if 0 < tspeed then tspeed + 1 else tspeed)) :
    (if tspeed < 0 then (1 : Int16) else if 0 < tspeed then tspeed + 1 else tspeed) = 1 ∨
      (if tspeed < 0 then (1 : Int16) else if 0 < tspeed then tspeed + 1 else tspeed) = 0 := by
  split at hcode
  · next hneg => exact .inl (if_pos hneg)
  · next hneg =>
    split at hcode
    · next hpos =>
      refine absurd ?_ hcode
      have hhigh : ¬ (126 : Int) < tspeed.toInt := fun hlt => h (.inl (Int16.lt_iff_toInt_lt.mpr hlt))
      have hlow : (0 : Int) < tspeed.toInt := Int16.lt_iff_toInt_lt.mp hpos
      rw [Int16.lt_iff_toInt_lt, Int16.toInt_add]
      show (1 : Int) < (tspeed.toInt + 1).bmod (2 ^ 16)
      rw [Int.bmod_eq_of_le (by omega) (by omega)]
      omega
    · next hpos =>
      rw [if_neg hneg, if_neg hpos]
      refine .inr (Int16.toInt_inj.mp ?_)
      have hlow : ¬ tspeed.toInt < 0 := fun hlt => hneg (Int16.lt_iff_toInt_lt.mpr hlt)
      have hhigh : ¬ (0 : Int) < tspeed.toInt := fun hlt => hpos (Int16.lt_iff_toInt_lt.mpr hlt)
      show tspeed.toInt = 0
      omega

theorem ofInt_toInt (cab : Int16) : UInt16.ofInt cab.toInt = cab.toUInt16 := by
  apply UInt16.toNat_inj.mp
  rw [UInt16.ofInt, UInt16.toNat_ofNat']
  show (cab.toBitVec.toInt % 2 ^ 16).toNat % 2 ^ 16 = cab.toBitVec.toNat
  have hlt : cab.toBitVec.toNat < 2 ^ 16 := cab.toBitVec.isLt
  rw [BitVec.toInt_eq_toNat_cond]
  split <;> omega

/-- `<t>` is accepted only with a cab in range, and sends speeds to no loco but those of its consist. -/
theorem setThrottle_spec {tspeed direction : Int16} :
    wp (fun _ => True) (setThrottle cab tspeed direction now)
      (fun r s' => r = true → ThrottleSpec cab s s') s := by
  have hrefused : wp (fun _ => True) (pure false : Dcc Bool)
      (fun r s' => r = true → ThrottleSpec cab s s') s := fun hno => nomatch hno
  unfold setThrottle
  dsimp only
  refine wp_ite (fun _ => hrefused) fun hspeed => ?_
  have hcode := broadcast_code hspeed
  generalize (if tspeed < 0 then (1 : Int16) else if 0 < tspeed then tspeed + 1 else tspeed) =
    code at hcode ⊢
  refine wp_ite (fun _ => hrefused) fun hbroadcast => wp_ite (fun _ => hrefused) fun _ =>
    wp_ite (fun _ => hrefused) fun hrange => ?_
  have hlow : ¬ cab.toInt < 0 := fun hlt => hrange (.inr (Int16.lt_iff_toInt_lt.mpr hlt))
  have hhigh : ¬ (10239 : Int) < cab.toInt := fun hlt => hrange (.inl (Int16.lt_iff_toInt_lt.mpr hlt))
  by_cases hcab : cab = 0
  · subst hcab
    rcases hcode fun hlt => hbroadcast ⟨rfl, hlt⟩ with rfl | rfl
    · -- the emergency stop
      unfold DCC.setThrottle
      rw [if_pos ⟨rfl, rfl⟩, wp_bind]
      refine wp_mono (DCC.sent_estopAll s) ?_
      exact fun _ s' hsent _ => ⟨by decide, fun _ => hsent, fun hne => absurd rfl hne⟩
    · -- there is no slot for loco 0
      exact hrefused
  · have hne : ¬ (code.toUInt16.toUInt8 = 1 ∧ cab.toUInt16 = 0) := by
      intro h
      have hzero := congrArg UInt16.toInt16 h.2
      exact hcab (by simpa using hzero)
    refine wp_mono (DCC.setThrottle_sent hne (direction != 0) now) ?_
    intro _ s' hsent _
    refine ⟨by omega, fun h0 => absurd h0 hcab, fun hne => ?_⟩
    have hpos : cab.toInt ≠ 0 := fun h0 => hne (Int16.toInt_inj.mp h0)
    have hrange : 1 ≤ cab.toInt ∧ cab.toInt ≤ 10239 := by omega
    have hnat := (DCC.inRange_ofInt hrange).2
    rw [ofInt_toInt] at hnat
    rw [← hnat]
    exact hsent

theorem sent_setDCFreq {P : DCCQueue.Call → Prop} (cab : Int) (freq : UInt8) :
    Preserves (Sent P) (DCC.setDCFreq cab freq) := by
  apply preserves_ite
  · exact fun _ => preserves_pure ()
  · intro _
    refine preserves_bind (Sent.onSlots _) fun slot => ?_
    cases slot with
    | none => exact preserves_pure ()
    | some a => exact Sent.onSlots _

/-- What holds of a command that has been accepted. -/
structure Accepted (opcode : Char) (cab : Int16) (s s' : Station) : Prop where
  packets : opcode ≠ 't' → 1 ≤ cab.toInt ∧ cab.toInt ≤ 10239 →
    Sent (DCCQueue.Call.IsFor cab.toInt.toNat) s s'
  speeds : opcode = 't' → 1 ≤ cab.toInt ∧ cab.toInt ≤ 10239 → DCC.SpeedsFor cab.toInt.toNat s s'
  throttle : opcode = 't' → 0 ≤ cab.toInt ∧ cab.toInt ≤ 10239 ∧ (cab = 0 → Sent DCC.IsEstopAll s s')
  functions : opcode = 'f' ∨ opcode = 'F' → cab.toInt ≤ 0 → s'.queue = s.queue

theorem ThrottleSpec.accepted (h : ThrottleSpec cab s s') : Accepted 't' cab s s' where
  packets hno := absurd rfl hno
  speeds _ hrange := h.speeds (by rintro rfl; exact absurd hrange.1 (by decide))
  throttle _ := ⟨h.inRange.1, h.inRange.2, h.broadcast⟩
  functions hno := absurd hno (by decide)

theorem accepted_of_sent {opcode : Char} (hopcode : opcode ≠ 't')
    (hsent : 1 ≤ cab.toInt ∧ cab.toInt ≤ 10239 → Sent (DCCQueue.Call.IsFor cab.toInt.toNat) s s')
    (hnone : opcode = 'f' ∨ opcode = 'F' → cab.toInt ≤ 0 → s'.queue = s.queue) :
    Accepted opcode cab s s' :=
  ⟨fun _ => hsent, fun ht => absurd ht hopcode, fun ht => absurd ht hopcode, hnone⟩

/-- What a command for a cab sends is for this cab, if it is accepted. -/
theorem parseCab_spec {opcode : Char} (railcom stashed : Bool) (hcab : cabOf opcode p = some cab) :
    wp (fun _ => True) (parseCab opcode p railcom stashed now)
      (fun r s' => r = true → Accepted opcode cab s s') s := by
  have hrefused : wp (fun _ => True) (pure false : Dcc Bool)
      (fun r s' => r = true → Accepted opcode cab s s') s := fun hno => nomatch hno
  have hthrottle : ∀ tspeed direction, wp (fun _ => True) (setThrottle cab tspeed direction now)
      (fun r s' => r = true → Accepted 't' cab s s') s := fun tspeed direction =>
    wp_mono setThrottle_spec fun _ _ h hr => (h hr).accepted
  have haccepted : ∀ {m : Dcc Bool}, opcode ≠ 't' →
      (1 ≤ cab.toInt ∧ cab.toInt ≤ 10239 → Preserves (Sent (DCCQueue.Call.IsFor cab.toInt.toNat)) m) →
      (opcode = 'f' ∨ opcode = 'F' → ¬ cab.toInt ≤ 0) →
      wp (fun _ => True) m (fun r s' => r = true → Accepted opcode cab s s') s := by
    intro m hopcode hsent hpos
    rw [wp_iff_forall]
    intro r s' hrun hr
    refine accepted_of_sent hopcode (fun hrange => ?_) fun hf h => absurd h (hpos hf)
    exact wp_iff_forall.mp (hsent hrange s) r s' hrun
  unfold parseCab
  split
  · next c =>
    -- the state of a loco is displayed
    obtain rfl := Option.some.inj hcab
    refine wp_ite (fun _ => hrefused) fun hrange => ?_
    simp only [wp_bind, wp_onSlots]
    refine wp_mono (getSlot_lookup _) ?_
    rintro _ _ rfl _
    have hlow : ¬ c.toInt < 0 := fun hlt => hrange (.inl (Int16.lt_iff_toInt_lt.mpr hlt))
    have hhigh : ¬ (10239 : Int) < c.toInt :=
      fun hlt => hrange (.inr (Int16.lt_iff_toInt_lt.mpr hlt))
    refine ⟨fun _ _ => Sent.of_queue_eq rfl, fun _ _ => .inl rfl, fun _ => ⟨?_, ?_, ?_⟩, nofun⟩
    · exact Int.not_lt.mp hlow
    · exact Int.not_lt.mp hhigh
    · exact fun _ => Sent.of_queue_eq rfl
  · -- `<t register cab speed direction>`
    obtain rfl := Option.some.inj hcab
    exact hthrottle _ _
  · -- `<t cab speed direction>`
    obtain rfl := Option.some.inj hcab
    exact hthrottle _ _
  · -- `<f cab byte1 [byte2]>`
    have hhead : p.head? = some cab := by simpa [cabOf] using hcab
    by_cases hpos : cab.toInt ≤ 0
    · rw [parsef_of_not_pos hhead hpos]
      exact hrefused
    · exact haccepted (by decide) (fun hrange => sent_parsef hhead hrange) fun _ => hpos
  · -- `<F cab function value>`, and DCFREQ
    next c func value =>
    obtain rfl := Option.some.inj hcab
    apply wp_ite
    · intro _
      refine wp_ite (fun _ => hrefused) fun _ => ?_
      rw [wp_bind]
      refine wp_mono (sent_setDCFreq (P := fun _ => False) _ _ s) ?_
      rintro _ s' hsent _
      refine accepted_of_sent (by decide) (fun _ => hsent.mono fun _ h => h.elim) fun _ _ => ?_
      exact hsent.queue_eq
    · intro _
      by_cases hpos : c.toInt ≤ 0
      · rw [DCC.setFn_of_not_pos hpos]
        exact hrefused
      · exact haccepted (by decide) (fun hrange => DCC.sent_setFn hrange _ _) fun _ => hpos
  · -- `<w cab cv value>`
    obtain rfl := Option.some.inj hcab
    refine haccepted (by decide) (fun hrange => ?_) (by simp)
    exact preserves_bind (DCC.sent_addressed hrange _ _) fun _ => preserves_pure true
  · -- `<r cab cv>`
    obtain rfl := Option.some.inj hcab
    refine wp_ite (fun _ => hrefused) fun _ => wp_ite (fun _ => hrefused) fun _ => ?_
    refine haccepted (by decide) (fun hrange => ?_) (by simp)
    exact preserves_bind (DCC.sent_addressed hrange _ _) fun _ => preserves_pure true
  · -- `<b cab cv bit value>`
    obtain rfl := Option.some.inj hcab
    refine haccepted (by decide) (fun hrange => ?_) (by simp)
    exact preserves_bind (DCC.sent_addressed hrange _ _) fun _ => preserves_pure true
  · exact hrefused

end DCCEXParser

namespace Exrail

variable {script : Script} {w : Inputs} {this : Addr} {task : RMFT2} {operand : Int16}
  {s : Exrail} {op : Opcode} {cab : Int}

/-- The loco that an opcode is for: one that it names, or for `POM` that of the task. -/
def cabOf (op : Opcode) (task : RMFT2) (operand : Int16) : Option Int :=
  match op with
  | .xfon | .xfoff | .xfwd | .xrev | .xpom => some operand.toInt
  | .pom => some task.loco.toNat
  | _ => none

theorem wp_setThrottle_sent {cab : Int16} (h : 1 ≤ cab.toInt ∧ cab.toInt ≤ 10239) (tSpeed : UInt8)
    (tDirection : Bool) : wp (fun _ => True) (thenBreak (setThrottle w cab.toUInt16 tSpeed tDirection))
      (fun _ s' => DCC.SpeedsFor cab.toInt.toNat s.rails.station s'.rails.station) s := by
  obtain ⟨hrange, hnat⟩ := DCC.inRange_ofInt h
  rw [DCCEXParser.ofInt_toInt] at hrange hnat
  rw [← hnat]
  unfold thenBreak setThrottle
  simp only [wp_bind]
  apply wp_station
  exact DCC.setThrottle_sent (fun hno => hrange.1 hno.2) tDirection w.millis

/-- What an opcode sends to the loco that it is for: the one that drives it speeds, the others
packets for this loco only. -/
def SentBy (op : Opcode) (cab : Nat) (s s' : Station) : Prop :=
  if op = .xfwd ∨ op = .xrev then DCC.SpeedsFor cab s s' else Sent (DCCQueue.Call.IsFor cab) s s'

/-- The opcodes that send something to a loco. -/
theorem execute_sent (hcab : cabOf op task operand = some cab) (h : 1 ≤ cab ∧ cab ≤ 10239) :
    wp (fun _ => True) (execute script w this task operand (some op))
      (fun _ s' => SentBy op cab.toNat s.rails.station s'.rails.station) s := by
  have hstation : ∀ {α : Type} {m : Dcc α}, Preserves (Sent (DCCQueue.Call.IsFor cab.toNat)) m →
      wp (fun _ => True) (thenBreak (onStation m))
        (fun _ s' => Sent (DCCQueue.Call.IsFor cab.toNat) s.rails.station s'.rails.station) s := by
    intro α m hsent
    unfold thenBreak
    rw [wp_bind]
    apply wp_station
    exact hsent s.rails.station
  unfold cabOf at hcab
  split at hcab
  · -- XFON
    cases hcab
    exact hstation (DCC.sent_setFn h _ true)
  · -- XFOFF
    cases hcab
    exact hstation (DCC.sent_setFn h _ false)
  · -- XFWD
    cases hcab
    exact wp_setThrottle_sent h _ true
  · -- XREV
    cases hcab
    exact wp_setThrottle_sent h _ false
  · -- XPOM
    cases hcab
    exact hstation (DCC.sent_addressed h _ _)
  · -- POM, for the loco of the task
    cases hcab
    have hrange : DCC.InRange task.loco := by
      refine ⟨?_, ?_⟩
      · intro hzero
        rw [hzero] at h
        exact absurd h.1 (by decide)
      · rw [UInt16.le_iff_toNat_le]
        show task.loco.toNat ≤ 10239
        omega
    obtain ⟨hlow, hhigh, hnat⟩ := DCC.int_of_inRange hrange s.rails.station.platform
    have hsent := DCC.sent_addressed ⟨hlow, hhigh⟩
    rw [hnat] at hsent
    unfold execute
    rw [wp_bind, wp_get]
    beta_reduce
    unfold ifLoco thenBreak
    rw [wp_bind]
    refine wp_when (fun _ => ?_) fun hzero => absurd hrange.1 hzero
    rw [wp_bind]
    apply wp_station
    exact hsent _ _ s.rails.station
  · cases hcab

end Exrail

/-- **Every packet reaches its loco.** The packets of a command that has been accepted are for the
loco it names, if that is one from 1 to 10239. Only a speed goes to other locos as well, those behind
this one in its consist. `<t>` accepts no other number but 0, and that with an emergency stop for all
only, and `<f>` and `<F>` send nothing to numbers below 1. So it is with the opcodes of EXRAIL, and
with the reminders. -/
theorem packets_reach_loco :
    (∀ (opcode : Char) (p : List Int16) (railcom stashed : Bool) (now : UInt32) (s s' : Station)
      (cab : Int16), DCCEXParser.cabOf opcode p = some cab →
      DCCEXParser.parseCab opcode p railcom stashed now s = .ok (true, s') →
      DCCEXParser.Accepted opcode cab s s') ∧
    (∀ (script : Script) (w : Inputs) (this : Addr) (task : RMFT2) (operand : Int16) (op : Opcode)
      (cab : Int) (s s' : Exrail) (flow : Exrail.Flow), Exrail.cabOf op task operand = some cab →
      1 ≤ cab ∧ cab ≤ 10239 →
      Exrail.execute script w this task operand (some op) s = .ok (flow, s') →
      Exrail.SentBy op cab.toNat s.rails.station s'.rails.station) ∧
    ∀ (a : Addr) (now : UInt32) (s s' : Station) (sent : Bool),
      DCC.issueReminder a now s = .ok (sent, s') →
      if DCC.speedStatus s.loopStatus then DCC.SpeedsFor (s.locos.mem a).loco.toNat s s'
      else DCC.InRange (s.locos.mem a).loco →
        Sent (DCCQueue.Call.IsFor (s.locos.mem a).loco.toNat) s s' := by
  refine ⟨?_, ?_, ?_⟩
  · intro opcode p railcom stashed now s s' cab hcab hrun
    exact wp_iff_forall.mp (DCCEXParser.parseCab_spec railcom stashed hcab) _ _ hrun rfl
  · intro script w this task operand op cab s s' flow hcab hrange hrun
    exact wp_iff_forall.mp (Exrail.execute_sent hcab hrange) _ _ hrun
  · intro a now s s' sent hrun
    have hsent := wp_iff_forall.mp (DCC.issueReminder_sent a now) _ _ hrun
    by_cases hspeed : DCC.speedStatus s.loopStatus = true
    · rw [if_pos hspeed] at hsent ⊢
      exact DCC.speedsFor_of_speedsSent hsent
    · rw [if_neg hspeed] at hsent ⊢
      exact hsent

/-- Whom the packets that wait in the queues are for. -/
def Station.recipients (s : Station) : List (Option Recipient) :=
  (s.queue.highPriorityQueue ++ s.queue.lowPriorityQueue).map fun slot => Recipient.ofBytes slot.payload

/-- Loco 1100 is sent a speed, and functions of loco 3 are set. -/
theorem packets_reach_loco_1100 : ∃ s s' : Station,
    s.recipients = [some (.long 1100)] ∧ s'.recipients = [some (.short 3)] ∧
      DCC.SpeedsFor 1100 (Station.init .avr 8 []) s ∧
      Sent (DCCQueue.Call.IsFor 3) (Station.init .avr 8 []) s' := by
  obtain ⟨r, s, hrun, hr, hs⟩ := (wp_iff_exists
    (m := DCCEXParser.parseCab 't' [1100, 50, 1] false false 0) (s := Station.init .avr 8 [])
    (Q := fun r s => r = true ∧ s.recipients = [some (.long 1100)])).mp (by decide +kernel)
  obtain ⟨r', s', hrun', hr', hs'⟩ := (wp_iff_exists
    (m := DCCEXParser.parseCab 'F' [3, 29, 1] false false 0) (s := Station.init .avr 8 [])
    (Q := fun r s => r = true ∧ s.recipients = [some (.short 3)])).mp (by decide +kernel)
  subst hr hr'
  exact ⟨s, s', hs, hs',
    (packets_reach_loco.1 _ _ _ _ _ _ _ 1100 (by decide) hrun).speeds rfl (by decide),
    (packets_reach_loco.1 _ _ _ _ _ _ _ 3 (by decide) hrun').packets (by decide) (by decide)⟩

/-- `<t 0 -1 1>` is sent to all locos, and `<t 3 50 1>` to loco 4 as well, which is behind loco 3 in
a consist. -/
theorem packets_reach_others :
    (¬ ∀ (opcode : Char) (p : List Int16) (railcom stashed : Bool) (now : UInt32) (s s' : Station)
      (cab : Int16), Reachable s → s.recipients = [] → DCCEXParser.cabOf opcode p = some cab →
      DCCEXParser.parseCab opcode p railcom stashed now s = .ok (true, s') →
      ∀ recipient ∈ s'.recipients,
        1 ≤ cab.toInt ∧ cab.toInt ≤ 10239 ∧ recipient = some (.ofLoco cab.toInt.toNat)) ∧
    wp (fun _ => False) (do
      let _ ← runProg Op.exec [.parseConsist [3, 4]]
      DCCEXParser.parseCab 't' [3, 50, 1] false false 0)
      (fun r s' => r = true ∧ s'.recipients = [some (.short 3), some (.short 4)])
      (Station.init .avr 8 []) := by
  refine ⟨fun h => ?_, by decide +kernel⟩
  obtain ⟨r, s', hrun, hr, hs'⟩ := (wp_iff_exists
    (m := DCCEXParser.parseCab 't' [0, -1, 1] false false 0) (s := Station.init .avr 8 [])
    (Q := fun r s => r = true ∧ s.recipients = [some .broadcast])).mp (by decide +kernel)
  subst hr
  have hreach : Reachable (Station.init .avr 8 []) := ⟨.avr, 8, [], [], rfl⟩
  have hall := h 't' [0, -1, 1] false false 0 _ s' 0 hreach rfl rfl hrun (some .broadcast)
    (by rw [hs']; exact List.mem_singleton_self _)
  exact absurd hall.1 (by decide)

end CommandStation
