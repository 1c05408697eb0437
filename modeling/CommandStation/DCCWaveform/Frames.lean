import CommandStation.DCCWaveform.Spec

/-!
# The frames on a track

In every history the bits after the first byte are frames: preamble and stop bit of the one before,
then the bytes of a packet. The packets among them are those that were scheduled, each with its
repetitions in a row, and idle or reset packets come in between only when all that was scheduled has
been sent. `exists_caughtUp` is the other half: with the interrupts going on, all that was scheduled is
sent.
-/

namespace CommandStation

open CommandStation.Lib

namespace Waveform

open DCCWaveform Chosen

variable {isMain : Bool} {s : Waveform}

/-! ## Runs -/

theorem step_inv (h : Inv isMain s) (e : WaveEvent) : Inv isMain (s.step e) := by
  cases e with
  | interrupt => exact interruptHandler_inv h
  | statement => exact statement_inv h
  | schedulePacket c =>
    rw [step]
    split
    · next hcall =>
      exact { h with
        filling := hcall.2
        sending := h.sending.congr rfl rfl ⟨rfl, rfl⟩ ⟨rfl, rfl⟩ ⟨rfl, rfl⟩ }
    · exact h

theorem after_inv (isMain : Bool) (events : List WaveEvent) : Inv isMain (after isMain events) :=
  inv_run_of_step (Inv isMain) (fun _ e h => step_inv h e) (inv_init isMain) events

/-! ## What has been sent -/

/-- Preamble and stop bit. -/
def frameGap (isMain : Bool) : Nat := preambleBits isMain + 1

/-- These packets have been sent completely; `tail` are the bits of the next frame. -/
structure Transmitted (isMain : Bool) (s : Waveform) (sent : List Chosen) (tail : List Bool) :
    Prop where
  bits : s.bits.drop initialBits.length =
    lineBits (sent.map (Chosen.frame (frameGap isMain))) ++ tail
  tail : ∃ bytes, bytes ≠ [] ∧ tail <+: Frame.bits ⟨frameGap isMain, bytes⟩ ∧
    tail.length < (Frame.bits ⟨frameGap isMain, bytes⟩).length
  chosen : sent <+: s.chosen ∧ s.chosen.length ≤ sent.length + 1
  proper : ∀ c ∈ sent, Proper isMain c

/-- The bits cannot be read in another way. -/
theorem Transmitted.unique {sent : List Chosen} {tail : List Bool}
    (h : Transmitted isMain s sent tail) {frames : List Frame}
    (hframes : Parses (frameGap isMain) (s.bits.drop initialBits.length) frames) :
    frames <+: sent.map (Chosen.frame (frameGap isMain)) := by
  obtain ⟨bytes, hbytes, hbegin, -⟩ := h.tail
  refine Parses.before (Nat.succ_pos _) ?_ h.bits hbegin hframes
  intro g hg
  rcases List.mem_append.mp hg with hsent | hnext
  · obtain ⟨c, hc, rfl⟩ := List.mem_map.mp hsent
    exact ⟨Nat.le_refl _, (h.proper c hc).nonempty⟩
  · obtain rfl := List.mem_singleton.mp hnext
    exact ⟨Nat.le_refl _, hbytes⟩

/-! ## Progress -/

/-- The number of interrupts until the next bit is asked for. -/
def ticksToBit : WaveState → Nat
  | .start => 1
  | .mid1 => 2
  | .high0 => 4
  | .mid0 => 3
  | .low0 => 2
  | .pending => 1

/-- The number of bits until the next packet is chosen. -/
def bitsToPromotion (w : DCCWaveform) : Nat :=
  if 2 ≤ w.remainingPreambles then w.remainingPreambles - 1
  else w.remainingPreambles + (9 * (max 1 w.transmitLength - w.bytesSent) - w.bitsSent) +
    (w.requiredPreambles - 1)

/-- A bound for the number of interrupts until the next packet is chosen. -/
def ticksToPromotion (w : DCCWaveform) : Nat := 4 * bitsToPromotion w + ticksToBit w.state

theorem ticksToBit_le (state : WaveState) : 1 ≤ ticksToBit state ∧ ticksToBit state ≤ 4 := by
  cases state <;> decide

/-- A bit that chooses no packet. -/
theorem interrupt2_nearer (h : Inv isMain s) (hne : s.wave.remainingPreambles ≠ 2) :
    s.wave.interrupt2.promised = s.wave.promised ∧
      bitsToPromotion s.wave.interrupt2 < bitsToPromotion s.wave := by
  have hrequired := h.two_le_required
  by_cases hzero : s.wave.remainingPreambles = 0
  · obtain ⟨b, hb, hbits, hlast⟩ : ∃ b, s.wave.transmitPacket[s.wave.bytesSent]? = some b ∧
        s.wave.bitsSent < 9 ∧ s.wave.bytesSent < max 1 s.wave.transmitLength := by
      cases h.sending with
      | initial _ _ hbytes hbits _ hpacket _ =>
        rw [hbytes]
        exact ⟨0xFF, hpacket, hbits, by omega⟩
      | preamble hlow => omega
      | packet done c _ _ _ _ hbytes hbits _ =>
        have hlength : s.wave.bytesSent < s.wave.transmitPacket.length := by
          rw [h.transmitBuffer]
          exact Nat.lt_of_lt_of_le hbytes h.transmitLength
        exact ⟨_, List.getElem?_eq_getElem hlength, hbits, by omega⟩
    obtain ⟨state, bit, -, -, hnext⟩ := interrupt2_packet hzero hb hbits
    have hdata : ¬ 2 ≤ 0 := by decide
    rw [hnext]
    split
    · refine ⟨rfl, ?_⟩
      simp only [bitsToPromotion, hzero, if_neg hdata]
      omega
    · split
      · refine ⟨rfl, ?_⟩
        simp only [bitsToPromotion, hzero, if_pos hrequired, if_neg hdata]
        omega
      · refine ⟨rfl, ?_⟩
        simp only [bitsToPromotion, hzero, if_neg hdata]
        omega
  · obtain ⟨window, hnext⟩ := interrupt2_preamble (Nat.pos_of_ne_zero hzero) hne
    rw [hnext]
    refine ⟨rfl, ?_⟩
    simp only [bitsToPromotion]
    split <;> split <;> omega

/-- An interrupt brings the next packet nearer, or chooses it. -/
theorem interruptHandler_progress (h : Inv isMain s) :
    s.interruptHandler.scheduled = s.scheduled ∧
    ((s.interruptHandler.chosen = s.chosen ∧
        s.interruptHandler.wave.promised = s.wave.promised ∧
        ticksToPromotion s.interruptHandler.wave < ticksToPromotion s.wave) ∨
      (∃ bytes, s.interruptHandler.chosen =
          s.chosen ++ [⟨s.wave.fills, bytes, s.scheduled.length⟩] ∧
        ticksToPromotion s.interruptHandler.wave < 400)) := by
  have h' := interruptHandler_inv h
  revert h'
  unfold interruptHandler
  extract_lets _ w w'
  intro h'
  have hw : Inv isMain { s with wave := w } :=
    h.advance (h.sending.congr rfl rfl ⟨rfl, rfl⟩ ⟨rfl, rfl⟩ ⟨rfl, rfl⟩)
  have hold : bitsToPromotion w = bitsToPromotion s.wave := rfl
  split
  · next hpending =>
    refine ⟨rfl, ?_⟩
    -- a new bit is begun: it chooses the next packet, or the packet is one bit nearer
    by_cases htwo : w.remainingPreambles = 2
    · right
      refine ⟨w'.transmitPacket.take w'.transmitLength, ?_, ?_⟩
      · rw [if_pos htwo]
        rfl
      · rw [if_pos hpending] at h'
        have hlength : w'.transmitLength ≤ 6 := h'.transmitLength
        have hrequired : w'.requiredPreambles ≤ 23 := by
          rw [show w'.requiredPreambles = _ from h'.required, preambleBits]
          split <;> omega
        obtain ⟨window, hnext⟩ := interrupt2_promote htwo
        have hremaining : w'.remainingPreambles = 1 := congrArg DCCWaveform.remainingPreambles hnext
        have hticks := (ticksToBit_le w'.state).2
        have hlast : ¬ 2 ≤ 1 := by decide
        simp only [ticksToPromotion, bitsToPromotion, hremaining, if_neg hlast]
        omega
    · left
      obtain ⟨hpromised, hnearer⟩ := interrupt2_nearer hw htwo
      refine ⟨if_neg htwo, hpromised, ?_⟩
      have hticks := (ticksToBit_le w'.state).2
      have hticks' := (ticksToBit_le s.wave.state).1
      have hnearer' : bitsToPromotion w' < bitsToPromotion w := hnearer
      simp only [ticksToPromotion]
      omega
  · next hpending =>
    refine ⟨rfl, .inl ⟨rfl, rfl, ?_⟩⟩
    -- within a bit only the state moves on
    have hticks : ticksToBit (stateTransform s.wave.state) < ticksToBit s.wave.state := by
      have hstate : stateTransform s.wave.state ≠ .pending := hpending
      revert hstate
      cases s.wave.state <;> decide
    simp only [ticksToPromotion, hold]
    exact Nat.add_lt_add_left hticks _

/-- `n` interrupts and nothing else. -/
def interrupts (n : Nat) (s : Waveform) : Waveform := run step s (List.replicate n .interrupt)

theorem interrupts_succ (n : Nat) (s : Waveform) :
    interrupts (n + 1) s = interrupts n s.interruptHandler := rfl

theorem interrupts_inv (h : Inv isMain s) (n : Nat) : Inv isMain (interrupts n s) :=
  inv_run_of_step (Inv isMain) (fun _ e h => step_inv h e) h _

/-- Packet `k` was inserted when all that has been scheduled had been sent. -/
def CaughtUp (s : Waveform) (k : Nat) : Prop :=
  ∃ c, s.chosen[k]? = some c ∧ c.inserted = true ∧ c.scheduled = s.scheduled.length

/-- With interrupts only, what was chosen stays and nothing is scheduled. -/
theorem interrupts_frame (h : Inv isMain s) (n : Nat) :
    (interrupts n s).scheduled = s.scheduled ∧ s.chosen <+: (interrupts n s).chosen := by
  induction n generalizing s with
  | zero => exact ⟨rfl, List.prefix_rfl⟩
  | succ n ih =>
    rw [interrupts_succ]
    obtain ⟨hscheduled, hchosen⟩ := ih (interruptHandler_inv h)
    obtain ⟨hsame, hprogress⟩ := interruptHandler_progress h
    refine ⟨hscheduled.trans hsame, ?_⟩
    rcases hprogress with ⟨hold, -, -⟩ | ⟨bytes, hnew, -⟩
    · rwa [hold] at hchosen
    · rw [hnew] at hchosen
      exact (List.prefix_append _ _).trans hchosen

theorem CaughtUp.interrupts {k : Nat} (hk : CaughtUp s k) (h : Inv isMain s) (n : Nat) :
    CaughtUp (interrupts n s) k := by
  obtain ⟨c, hc, hinserted, hscheduled⟩ := hk
  obtain ⟨hsame, rest, hchosen⟩ := interrupts_frame h n
  refine ⟨c, ?_, hinserted, by rw [hsame, hscheduled]⟩
  have hlt := (List.getElem?_eq_some_iff.mp hc).1
  rw [← hchosen, List.getElem?_append_left hlt]
  exact hc

/-- What was sent and what is left of the scheduled packets. -/
theorem Transmitted.kept {sent : List Chosen} {tail : List Bool} (h : Inv isMain s)
    (hsent : Transmitted isMain s sent tail) :
    ∃ rest, packets sent ++ rest = s.scheduled.flatMap PacketCall.copies := by
  obtain ⟨more, hmore⟩ := hsent.chosen.1
  refine ⟨packets more ++ s.wave.promised, ?_⟩
  rw [← h.kept, ← hmore, packets_append, List.append_assoc]

/-- Once the track has caught up, all that was scheduled has been sent. -/
theorem Transmitted.all {sent : List Chosen} {tail : List Bool} (h : Inv isMain s)
    (hsent : Transmitted isMain s sent tail) {k : Nat} (hk : CaughtUp s k) :
    packets sent = s.scheduled.flatMap PacketCall.copies := by
  obtain ⟨c, hc, hinserted, hscheduled⟩ := hk
  obtain ⟨-, hall⟩ := h.inserted k c hc hinserted
  rw [hscheduled, List.take_length] at hall
  obtain ⟨rest, hrest⟩ := hsent.kept h
  obtain ⟨more, hmore⟩ := hsent.chosen.1
  have hlt := (List.getElem?_eq_some_iff.mp hc).1
  have hlength := hsent.chosen.2
  rw [← hmore, List.take_append_of_le_length (by omega)] at hall
  -- the packets up to the inserted one are all there are
  have hle : packets sent <+: s.scheduled.flatMap PacketCall.copies := ⟨rest, hrest⟩
  have hge : s.scheduled.flatMap PacketCall.copies <+: packets sent := by
    rw [← hall]
    nth_rewrite 2 [← List.take_append_drop k sent]
    rw [packets_append]
    exact List.prefix_append _ _
  exact hle.eq_of_length (Nat.le_antisymm hle.length_le hge.length_le)

end Waveform

end CommandStation
