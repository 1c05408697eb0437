import CommandStation.Sniffer.Spec

/-!
# What the sniffer takes from the line

A sniffer that has taken an edge of the signal is locked to it: the edges of a glitch behind it are
the wrong way round or too early, and the next edge of the signal is taken. When a frame begins, the
sniffer may still be locked to nothing at all, or to an edge that does not belong to the signal. Then
it takes one of the first four edges of the frame, and what is left of the preamble is long enough.

Until it has done so, a glitch may be taken in place of the signal, and glitches behind every edge
may keep it away from the signal for good.
-/

namespace CommandStation

open CommandStation.Lib

/-- The ticks of an edge and the clock when it is processed. -/
structure Capture where
  capticks : UInt32
  millis : UInt32
  deriving DecidableEq, Repr

def Capture.edge (c : Capture) (posedge : Bool) : Edge := ⟨c.capticks, posedge, c.millis⟩

/-- A pair of edges: the line changes its level and changes back. -/
structure Glitch where
  first : Capture
  second : Capture
  deriving DecidableEq, Repr

/-- An edge of the signal and the glitches behind it. -/
structure Pulse where
  capture : Capture
  glitches : List Glitch
  deriving DecidableEq, Repr

namespace Pulse

def edges (p : Pulse) (posedge : Bool) : List Edge :=
  p.capture.edge posedge ::
    p.glitches.flatMap fun g => [g.first.edge !posedge, g.second.edge posedge]

/-- The edges of a signal, which alternate. -/
def line : Bool → List Pulse → List Edge
  | _, [] => []
  | posedge, p :: ps => p.edges posedge ++ line (!posedge) ps

end Pulse

namespace Sniffer

/-- The ticks are those of the half-bit. -/
def InTime (s : Sniffer) (bit : Bool) (ticks : UInt32) : Prop :=
  if bit then s.dccTooShortLimit ≤ ticks ∧ ticks < s.dccOneLimit else s.dccOneLimit ≤ ticks

/-- Each glitch begins within the too-short limit after the edge. -/
def ShortGlitches (s : Sniffer) (p : Pulse) : Prop :=
  ∀ g ∈ p.glitches, g.first.capticks - p.capture.capticks < s.dccTooShortLimit

/-- The pulses end these half-bits, of which the first begins at `start`. -/
def TimedFrom (s : Sniffer) : UInt32 → List Bool → List Pulse → Prop
  | _, [], [] => True
  | start, bit :: bits, p :: ps =>
    s.InTime bit (p.capture.capticks - start) ∧ s.ShortGlitches p ∧
      s.TimedFrom p.capture.capticks bits ps
  | _, _, _ => False

/-- The pulses end these half-bits. The first one may have begun at any time, since the line may have
been quiet before. -/
def Timed (s : Sniffer) : List Bool → List Pulse → Prop
  | _ :: bits, p :: ps => s.ShortGlitches p ∧ s.TimedFrom p.capture.capticks bits ps
  | _, _ => False

/-- The edge ends a half-bit. -/
def Takes (s : Sniffer) (e : Edge) : Prop :=
  s.lastedge ≠ e.posedge ∧ ¬ e.capticks - s.lastticks < s.dccTooShortLimit

/-- There are glitches only behind edges that the sniffer has taken. -/
def GlitchesBehindTaken (s : Sniffer) (posedge : Bool) : List Pulse → Prop
  | [] => True
  | p :: ps => (p.glitches = [] ∨ s.Takes (p.capture.edge posedge)) ∧
    GlitchesBehindTaken (s.feed (p.edges posedge)) (!posedge) ps

/-! These can be evaluated. -/

instance (s : Sniffer) (bit : Bool) (ticks : UInt32) : Decidable (s.InTime bit ticks) :=
  inferInstanceAs (Decidable (if bit then s.dccTooShortLimit ≤ ticks ∧ ticks < s.dccOneLimit
    else s.dccOneLimit ≤ ticks))

instance (s : Sniffer) (p : Pulse) : Decidable (s.ShortGlitches p) :=
  inferInstanceAs (Decidable (∀ g ∈ p.glitches, _))

instance decidableTimedFrom (s : Sniffer) :
    ∀ start bits ps, Decidable (s.TimedFrom start bits ps)
  | _, [], [] => isTrue trivial
  | start, bit :: bits, p :: ps =>
    have := decidableTimedFrom s p.capture.capticks bits ps
    inferInstanceAs (Decidable (s.InTime bit (p.capture.capticks - start) ∧ s.ShortGlitches p ∧
      s.TimedFrom p.capture.capticks bits ps))
  | _, [], _ :: _ => isFalse id
  | _, _ :: _, [] => isFalse id

instance decidableTimed (s : Sniffer) : ∀ bits ps, Decidable (s.Timed bits ps)
  | _ :: bits, p :: ps =>
    inferInstanceAs (Decidable (s.ShortGlitches p ∧ s.TimedFrom p.capture.capticks bits ps))
  | [], _ => isFalse id
  | _ :: _, [] => isFalse id

instance (s : Sniffer) (e : Edge) : Decidable (s.Takes e) :=
  inferInstanceAs (Decidable (_ ∧ _))

instance decidableGlitchesBehindTaken :
    ∀ (s : Sniffer) posedge ps, Decidable (s.GlitchesBehindTaken posedge ps)
  | _, _, [] => isTrue trivial
  | s, posedge, p :: ps =>
    have := decidableGlitchesBehindTaken (s.feed (p.edges posedge)) (!posedge) ps
    inferInstanceAs (Decidable ((p.glitches = [] ∨ s.Takes (p.capture.edge posedge)) ∧
      (s.feed (p.edges posedge)).GlitchesBehindTaken (!posedge) ps))

/-! ## Locked to an edge -/

theorem feed_append (s : Sniffer) (l l' : List Edge) : s.feed (l ++ l') = (s.feed l).feed l' :=
  run_append s l l'

/-- `s` has the limits of `t`. -/
structure SameLimits (t s : Sniffer) : Prop where
  tooShort : s.dccTooShortLimit = t.dccTooShortLimit
  one : s.dccOneLimit = t.dccOneLimit

/-- The edge at these ticks was the last one taken. -/
structure Locked (t s : Sniffer) (posedge : Bool) (ticks : UInt32) : Prop extends
    SameLimits t s where
  lastedge : s.lastedge = posedge
  lastticks : s.lastticks = ticks

/-- But for the ticks since the last edge. -/
def Same (s s' : Sniffer) : Prop := ∃ ticks, s' = { s with diffticks := ticks }

theorem Same.trans {s s' s'' : Sniffer} (h : s.Same s') (h' : s'.Same s'') : s.Same s'' := by
  obtain ⟨ticks, rfl⟩ := h
  obtain ⟨ticks', rfl⟩ := h'
  exact ⟨ticks', rfl⟩

/-- An edge that is not taken leaves nothing behind. -/
theorem same_of_not_takes {s : Sniffer} {e : Edge} (h : ¬ s.Takes e) :
    s.Same (s.processInterrupt e) := by
  refine ⟨e.capticks - s.lastticks, ?_⟩
  rw [Takes, not_and_or, not_not, not_not] at h
  rw [processInterrupt]
  rcases h with h | h
  · exact if_neg (not_not_intro h)
  · by_cases hedge : s.lastedge ≠ e.posedge
    · simp only [if_pos hedge, if_pos h]
    · simp only [if_neg hedge]

/-- An edge that is taken ends a half-bit. -/
theorem processInterrupt_of_takes {s : Sniffer} {e : Edge} (h : s.Takes e) :
    s.processInterrupt e =
      { s with
        diffticks := e.capticks - s.lastticks
        lastticks := e.capticks
        lastedge := e.posedge
        receiver := s.receiver.halfbit (e.capticks - s.lastticks < s.dccOneLimit) e.millis } := by
  rw [processInterrupt]
  simp only [if_pos h.1, if_neg h.2]

/-- A locked sniffer takes no notice of glitches. -/
theorem Locked.same_of_glitches {t s : Sniffer} {posedge : Bool} {ticks : UInt32}
    (h : Locked t s posedge ticks) {gs : List Glitch}
    (hgs : ∀ g ∈ gs, g.first.capticks - ticks < t.dccTooShortLimit) :
    s.Same (s.feed (gs.flatMap fun g => [g.first.edge !posedge, g.second.edge posedge])) := by
  induction gs generalizing s with
  | nil => exact ⟨s.diffticks, rfl⟩
  | cons g gs ih =>
    have hfirst : ¬ s.Takes (g.first.edge !posedge) := by
      intro htakes
      rw [Takes, h.lastticks, h.tooShort] at htakes
      exact htakes.2 (hgs g List.mem_cons_self)
    obtain ⟨d, hd⟩ := same_of_not_takes hfirst
    have hsecond : ¬ (s.processInterrupt (g.first.edge !posedge)).Takes (g.second.edge posedge) := by
      rw [hd]
      exact fun htakes => htakes.1 h.lastedge
    obtain ⟨d', hd'⟩ := same_of_not_takes hsecond
    rw [hd] at hd'
    have hrest := ih (s := { s with diffticks := d' }) ⟨⟨h.tooShort, h.one⟩, h.lastedge, h.lastticks⟩
      (fun g' hg' => hgs g' (List.mem_cons_of_mem g hg'))
    obtain ⟨d'', hd''⟩ := hrest
    refine ⟨d'', ?_⟩
    rw [List.flatMap_cons, feed_append, ← hd'']
    change (((s.processInterrupt _).processInterrupt _).feed _) = _
    rw [hd, hd']

/-- The sniffer locks to an edge that it takes. -/
theorem locked_of_takes {t s : Sniffer} (hlimits : SameLimits t s) {p : Pulse} {posedge : Bool}
    (h : s.Takes (p.capture.edge posedge)) (hshort : t.ShortGlitches p) :
    Locked t (s.feed (p.edges posedge)) posedge p.capture.capticks ∧
      (s.feed (p.edges posedge)).receiver = s.receiver.halfbit
        (p.capture.capticks - s.lastticks < s.dccOneLimit) p.capture.millis := by
  have hstep := processInterrupt_of_takes h
  have hlocked : Locked t (s.processInterrupt (p.capture.edge posedge)) posedge
      p.capture.capticks := by
    rw [hstep]
    exact ⟨⟨hlimits.tooShort, hlimits.one⟩, rfl, rfl⟩
  obtain ⟨ticks, hticks⟩ := hlocked.same_of_glitches hshort
  change Locked t ((s.processInterrupt _).feed _) _ _ ∧ ((s.processInterrupt _).feed _).receiver = _
  rw [hticks]
  refine ⟨⟨⟨hlocked.tooShort, hlocked.one⟩, hlocked.lastedge, hlocked.lastticks⟩, ?_⟩
  change (s.processInterrupt _).receiver = _
  rw [hstep]
  rfl

/-- What the limits of a sniffer are like. -/
structure Calibrated (t : Sniffer) : Prop where
  le : t.dccTooShortLimit ≤ t.dccOneLimit
  small : 3 * t.dccOneLimit.toNat < 2 ^ 32

theorem Calibrated.not_short {t : Sniffer} (ht : t.Calibrated) {bit : Bool} {ticks : UInt32}
    (h : t.InTime bit ticks) : ¬ ticks < t.dccTooShortLimit := by
  cases bit with
  | true => exact UInt32.not_lt.mpr h.1
  | false => exact UInt32.not_lt.mpr (UInt32.le_trans ht.le h)

theorem decide_lt_of_inTime {t : Sniffer} {bit : Bool} {ticks : UInt32} (h : t.InTime bit ticks) :
    decide (ticks < t.dccOneLimit) = bit := by
  cases bit with
  | true => exact decide_eq_true h.2
  | false => exact decide_eq_false (UInt32.not_lt.mpr h)

/-- A locked sniffer reads the half-bits of the line. -/
theorem Locked.feed_line {t s : Sniffer} (ht : t.Calibrated) {posedge : Bool} {start : UInt32}
    (h : Locked t s posedge start) {bits : List Bool} {ps : List Pulse}
    (hps : t.TimedFrom start bits ps) :
    ∃ l : List (Bool × UInt32), l.map Prod.fst = bits ∧ ∀ m,
      (s.feed (Pulse.line (!posedge) (ps.take m))).receiver = s.receiver.halfbits (l.take m) := by
  induction ps generalizing s posedge start bits with
  | nil =>
    cases bits with
    | nil => exact ⟨[], rfl, fun m => by simp [Pulse.line, feed, Receiver.halfbits]⟩
    | cons bit bits => exact hps.elim
  | cons p ps ih =>
    cases bits with
    | nil => exact hps.elim
    | cons bit bits =>
      obtain ⟨htime, hshort, hrest⟩ := hps
      have htakes : s.Takes (p.capture.edge !posedge) := by
        rw [Takes, h.lastedge, h.lastticks, h.tooShort]
        exact ⟨by simp [Capture.edge], ht.not_short htime⟩
      obtain ⟨hlocked, hreceiver⟩ := locked_of_takes h.toSameLimits htakes hshort
      rw [h.lastticks, h.one, decide_lt_of_inTime htime] at hreceiver
      obtain ⟨l, hl, hm⟩ := ih hlocked hrest
      refine ⟨(bit, p.capture.millis) :: l, by rw [List.map_cons, hl], ?_⟩
      intro m
      cases m with
      | zero => rfl
      | succ m =>
        rw [List.take_succ_cons, List.take_succ_cons, Pulse.line, feed_append, hm m, hreceiver]
        rfl

/-! ## The first edges of a frame -/

/-- Of the half-bits that the pulses end, the first `k` are missed and the next one may be misread. -/
def Reads (s : Sniffer) (posedge : Bool) (bits : List Bool) (ps : List Pulse) (k : Nat) : Prop :=
  ∃ x, ∃ l : List (Bool × UInt32), l.map Prod.fst = x :: bits.drop (k + 1) ∧ ∀ m,
    (s.feed (Pulse.line posedge (ps.take m))).receiver = s.receiver.halfbits (l.take (m - k))

theorem reads_of_takes {t s : Sniffer} (ht : t.Calibrated) (hlimits : SameLimits t s) {p : Pulse}
    {posedge : Bool} (h : s.Takes (p.capture.edge posedge)) (hshort : t.ShortGlitches p)
    {bit : Bool} {bits : List Bool} {ps : List Pulse}
    (hps : t.TimedFrom p.capture.capticks bits ps) :
    s.Reads posedge (bit :: bits) (p :: ps) 0 := by
  obtain ⟨hlocked, hreceiver⟩ := locked_of_takes hlimits h hshort
  obtain ⟨l, hl, hm⟩ := hlocked.feed_line ht hps
  refine ⟨decide (p.capture.capticks - s.lastticks < s.dccOneLimit), (_, p.capture.millis) :: l,
    by rw [List.map_cons, hl]; rfl, ?_⟩
  intro m
  cases m with
  | zero => rfl
  | succ m =>
    rw [List.take_succ_cons, Pulse.line, feed_append, hm m, hreceiver]
    rfl

/-- An edge that is not taken, without glitches behind it. -/
theorem same_of_not_taken {s : Sniffer} {p : Pulse} {posedge : Bool}
    (h : ¬ s.Takes (p.capture.edge posedge))
    (hg : p.glitches = [] ∨ s.Takes (p.capture.edge posedge)) :
    s.Same (s.feed (p.edges posedge)) := by
  have hedges : p.edges posedge = [p.capture.edge posedge] := by
    rw [Pulse.edges, hg.resolve_right h]
    rfl
  rw [hedges]
  exact same_of_not_takes h

theorem Reads.skip {s : Sniffer} {p : Pulse} {posedge : Bool}
    (hsame : s.Same (s.feed (p.edges posedge))) {bit : Bool} {bits : List Bool} {ps : List Pulse}
    {k : Nat} (h : (s.feed (p.edges posedge)).Reads (!posedge) bits ps k) :
    s.Reads posedge (bit :: bits) (p :: ps) (k + 1) := by
  obtain ⟨x, l, hl, hm⟩ := h
  have hreceiver : (s.feed (p.edges posedge)).receiver = s.receiver := by
    obtain ⟨ticks, hticks⟩ := hsame
    rw [hticks]
  refine ⟨x, l, hl, ?_⟩
  intro m
  cases m with
  | zero =>
    rw [Nat.zero_sub]
    rfl
  | succ m => rw [List.take_succ_cons, Pulse.line, feed_append, hm m, hreceiver, Nat.succ_sub_succ]

theorem Same.limits {t s s' : Sniffer} (h : s.Same s') (hlimits : SameLimits t s) :
    SameLimits t s' := by
  obtain ⟨ticks, rfl⟩ := h
  exact ⟨hlimits.tooShort, hlimits.one⟩

theorem Same.takes_iff {s s' : Sniffer} (h : s.Same s') (e : Edge) : s'.Takes e ↔ s.Takes e := by
  obtain ⟨ticks, rfl⟩ := h
  rfl

/-- Two half-bits after an edge that came too early, the time is up. -/
theorem Calibrated.not_short_of_two {t : Sniffer} (ht : t.Calibrated) {last r₁ r₂ r₃ : UInt32}
    (h : r₁ - last < t.dccTooShortLimit) (h₂ : t.InTime true (r₂ - r₁))
    (h₃ : t.InTime true (r₃ - r₂)) : ¬ r₃ - last < t.dccTooShortLimit := by
  have hsum : r₃ - last = (r₁ - last) + (r₂ - r₁) + (r₃ - r₂) := by grind
  have hsmall := ht.small
  have hle := UInt32.le_iff_toNat_le.mp ht.le
  have hd := UInt32.lt_iff_toNat_lt.mp h
  have hd₂ := UInt32.le_iff_toNat_le.mp h₂.1
  have hd₂' := UInt32.lt_iff_toNat_lt.mp h₂.2
  have hd₃' := UInt32.lt_iff_toNat_lt.mp h₃.2
  rw [hsum, UInt32.lt_iff_toNat_lt, UInt32.toNat_add, UInt32.toNat_add]
  omega

/-- **One of the first four edges is taken.** -/
theorem exists_reads {t s : Sniffer} (ht : t.Calibrated) (hlimits : SameLimits t s)
    {posedge bit : Bool} {bits : List Bool} {ps : List Pulse}
    (hps : t.Timed (bit :: true :: true :: true :: bits) ps)
    (hg : s.GlitchesBehindTaken posedge ps) :
    ∃ k ≤ 3, s.Reads posedge (bit :: true :: true :: true :: bits) ps k := by
  obtain ⟨p₁, p₂, p₃, p₄, ps, rfl⟩ : ∃ p₁ p₂ p₃ p₄ ps', ps = p₁ :: p₂ :: p₃ :: p₄ :: ps' := by
    match ps, hps with
    | p₁ :: p₂ :: p₃ :: p₄ :: ps, _ => exact ⟨p₁, p₂, p₃, p₄, ps, rfl⟩
  obtain ⟨hshort₁, htime₂, hshort₂, htime₃, hshort₃, htime₄, hshort₄, hrest⟩ := hps
  obtain ⟨hg₁, hg₂, hg₃, -⟩ := hg
  have hrest₃ : t.TimedFrom p₃.capture.capticks (true :: bits) (p₄ :: ps) :=
    ⟨htime₄, hshort₄, hrest⟩
  have hrest₂ : t.TimedFrom p₂.capture.capticks (true :: true :: bits) (p₃ :: p₄ :: ps) :=
    ⟨htime₃, hshort₃, hrest₃⟩
  by_cases h₁ : s.Takes (p₁.capture.edge posedge)
  · exact ⟨0, by omega, reads_of_takes ht hlimits h₁ hshort₁
      ⟨htime₂, hshort₂, hrest₂⟩⟩
  have hsame₁ := same_of_not_taken h₁ hg₁
  by_cases h₂ : (s.feed (p₁.edges posedge)).Takes (p₂.capture.edge !posedge)
  · exact ⟨1, by omega,
      (reads_of_takes ht (hsame₁.limits hlimits) h₂ hshort₂ hrest₂).skip hsame₁⟩
  have hsame₂ := same_of_not_taken h₂ hg₂
  by_cases h₃ : ((s.feed (p₁.edges posedge)).feed (p₂.edges !posedge)).Takes
      (p₃.capture.edge !!posedge)
  · exact ⟨2, by omega, ((reads_of_takes ht (hsame₂.limits (hsame₁.limits hlimits)) h₃ hshort₃
      hrest₃).skip hsame₂).skip hsame₁⟩
  have hsame₃ := same_of_not_taken h₃ hg₃
  -- the fourth edge is the right way round, and late enough
  have h₄ : s.Takes (p₄.capture.edge !!!posedge) := by
    rw [hsame₁.takes_iff] at h₂
    rw [(hsame₁.trans hsame₂).takes_iff] at h₃
    simp only [Takes, Capture.edge, not_and, not_not, Bool.not_not, hlimits.tooShort] at h₁ h₂ h₃ ⊢
    by_cases hedge : s.lastedge = posedge
    · have hshort := h₂ (by rw [hedge]; simp)
      exact ⟨by rw [hedge]; simp, ht.not_short_of_two hshort htime₃ htime₄⟩
    · exact absurd (h₃ hedge) (ht.not_short_of_two (h₁ hedge) htime₂ htime₃)
  have hsame := (hsame₁.trans hsame₂).trans hsame₃
  rw [← hsame.takes_iff] at h₄
  exact ⟨3, by omega, (((reads_of_takes ht (hsame.limits hlimits) h₄ hshort₄ hrest).skip
    hsame₃).skip hsame₂).skip hsame₁⟩

/-! ## A frame -/

theorem processInterrupt_limits (s : Sniffer) (e : Edge) : SameLimits s (s.processInterrupt e) := by
  by_cases h : s.Takes e
  · rw [processInterrupt_of_takes h]
    exact ⟨rfl, rfl⟩
  · obtain ⟨ticks, hticks⟩ := same_of_not_takes h
    rw [hticks]
    exact ⟨rfl, rfl⟩

theorem step_limits (s : Sniffer) (e : Event) : SameLimits s (s.step e) := by
  cases e with
  | edge e => exact s.processInterrupt_limits e
  | fetch =>
    rw [step, fetchPacket]
    split <;> exact ⟨rfl, rfl⟩

/-- The limits of a new sniffer are in order and small. -/
theorem calibrated_new (apbFrequency diffticks lastticks : UInt32) (lastedge : Bool)
    (dccbytes : Vector UInt8 maxDccPacketLen) :
    (new apbFrequency diffticks lastticks lastedge dccbytes).Calibrated := by
  have hfrequency := apbFrequency.toNat_lt
  have hshort : (tooShortLimit apbFrequency).toNat = apbFrequency.toNat / 1000 * 50 / 1000 := by
    simp only [tooShortLimit, UInt32.toNat_div, UInt32.toNat_mul, UInt32.reduceToNat]
    omega
  have hone : (oneLimit apbFrequency).toNat = apbFrequency.toNat / 1000 * 80 / 1000 := by
    simp only [oneLimit, UInt32.toNat_div, UInt32.toNat_mul, UInt32.reduceToNat]
    omega
  constructor
  · change tooShortLimit apbFrequency ≤ oneLimit apbFrequency
    rw [UInt32.le_iff_toNat_le]
    omega
  · change 3 * (oneLimit apbFrequency).toNat < 2 ^ 32
    omega

theorem Reachable.calibrated {s : Sniffer} (h : s.Reachable) : s.Calibrated := by
  obtain ⟨apbFrequency, diffticks, lastticks, lastedge, dccbytes, events, rfl⟩ := h
  refine inv_run_of_step Calibrated ?_
    (calibrated_new apbFrequency diffticks lastticks lastedge dccbytes) events
  intro s e h
  obtain ⟨hshort, hone⟩ := s.step_limits e
  exact ⟨by rw [hshort, hone]; exact h.le, by rw [hone]; exact h.small⟩

/-- **The sniffer decodes a frame**, from whatever state it is in when the frame begins, and also with
glitches, as long as these come behind edges that it has taken. -/
theorem decodes_frame {s : Sniffer} (hs : s.Reachable) {n : Nat} (hn : 14 ≤ n)
    {bytes : List UInt8} (hlow : 2 ≤ bytes.length) (hhigh : bytes.length ≤ 6)
    {ps : List Pulse} (hps : s.Timed (frameHalfbits ⟨n, bytes⟩) ps) {posedge : Bool}
    (hg : s.GlitchesBehindTaken posedge ps) :
    Receiver.Decoded (s.feed (Pulse.line posedge (ps.take (2 * n)))).receiver
      (s.feed (Pulse.line posedge ps)).receiver bytes := by
  have hbits : frameHalfbits ⟨n, bytes⟩ = List.replicate (2 * n) true ++
      doubled (dataBits bytes ++ [true]) := by
    simp [frameHalfbits, Frame.bits, doubled_replicate]
  have hfour : List.replicate (2 * n) true =
      true :: true :: true :: true :: List.replicate (2 * n - 4) true := by
    rw [show 2 * n = 2 * n - 4 + 1 + 1 + 1 + 1 by omega]
    simp [List.replicate_succ]
  rw [hbits, hfour] at hps
  obtain ⟨k, hk, x, l, hl, hm⟩ := exists_reads hs.calibrated ⟨rfl, rfl⟩ hps hg
  have hdrop : x :: (true :: true :: true :: true :: (List.replicate (2 * n - 4) true).append
      (doubled (dataBits bytes ++ [true]))).drop (k + 1) =
      x :: List.replicate (2 * n - (k + 1)) true ++ doubled (dataBits bytes ++ [true]) := by
    change x :: ((true :: true :: true :: true :: List.replicate (2 * n - 4) true) ++
      doubled (dataBits bytes ++ [true])).drop (k + 1) = _
    rw [← hfour, List.drop_append_of_le_length (by simp; omega), List.drop_replicate]
    rfl
  -- what is read of the preamble, and the rest of the frame
  rw [hdrop] at hl
  obtain ⟨l₁, l₂, rfl, hl₁, hl₂⟩ := List.map_eq_append_iff.mp hl
  have hlength : l₁.length = 2 * n - k := by
    have := congrArg List.length hl₁
    simp only [List.length_map, List.length_cons, List.length_replicate] at this
    omega
  have hpreamble := hm (2 * n)
  rw [← hlength, List.take_left] at hpreamble
  have hall := hm (ps.length + (l₁ ++ l₂).length + k)
  rw [List.take_of_length_le (by omega), List.take_of_length_le (by omega),
    Receiver.halfbits_append, ← hpreamble] at hall
  rw [hall]
  have hends : Ends (s.feed (Pulse.line posedge (ps.take (2 * n)))).receiver.bitfield
      (List.replicate 22 true) := by
    have hread : Ends s.receiver.bitfield [] := fun i _ b hb => by simp at hb
    replace hread := hread.shifted (l₁.map Prod.fst)
    rw [← Receiver.bitfield_halfbits, ← hpreamble, hl₁, List.append_nil, List.reverse_cons,
      List.reverse_replicate, show 2 * n - (k + 1) = 22 + (2 * n - k - 23) by omega,
      List.replicate_add, List.append_assoc] at hread
    exact hread.mono (List.prefix_append _ _)
  apply Receiver.decoded_of_preamble hends _ (by omega) hl₂
  intro hnil
  rw [hnil] at hlow
  exact absurd hlow (by decide)

/-! ## Glitches behind every edge -/

/-- A signal with a glitch behind each edge; the distances are repeated. -/
def glitched : UInt32 → List UInt32 → List Bool → List Pulse
  | ticks, offset :: offsets, bit :: bits =>
    let ticks := ticks + if bit then 5000 else 8000
    ⟨⟨ticks, 0⟩, [⟨⟨ticks + offset, 0⟩, ⟨ticks + offset + 500, 0⟩⟩]⟩ ::
      glitched ticks (offsets ++ [offset]) bits
  | _, _, _ => []

/-- A sniffer that has taken a rising edge. -/
def risen : Sniffer :=
  run step (new 80000000 0 0 false (Vector.replicate 8 0)) [.edge ⟨10000, true, 0⟩]

/-- The same after a falling edge that came too early. -/
def fallen : Sniffer := risen.processInterrupt ⟨11000, false, 0⟩

theorem reachable_risen : risen.Reachable :=
  ⟨80000000, 0, 0, false, Vector.replicate 8 0, [.edge ⟨10000, true, 0⟩], rfl⟩

theorem reachable_fallen : fallen.Reachable :=
  ⟨80000000, 0, 0, false, Vector.replicate 8 0,
    [.edge ⟨10000, true, 0⟩, .edge ⟨11000, false, 0⟩], rfl⟩

/-- The idle packet, to a sniffer that takes the first edge of it. -/
theorem decodes_frame_idle :
    Receiver.Decoded
      (risen.feed (Pulse.line false ((glitched 10000 [100, 1600, 3100, 2100, 1100]
        (frameHalfbits ⟨14, [0xFF, 0x00, 0xFF]⟩)).take (2 * 14)))).receiver
      (risen.feed (Pulse.line false (glitched 10000 [100, 1600, 3100, 2100, 1100]
        (frameHalfbits ⟨14, [0xFF, 0x00, 0xFF]⟩)))).receiver [0xFF, 0x00, 0xFF] :=
  decodes_frame reachable_risen (by decide) (by decide) (by decide) (by decide +kernel)
    (by decide +kernel)

/-- The idle packet, to a sniffer that takes the glitch behind the first edge: it takes the glitches
behind all other edges too. -/
theorem not_decodes_frame :
    ¬ ∀ (s : Sniffer), s.Reachable → ∀ n, 14 ≤ n → ∀ bytes : List UInt8, 2 ≤ bytes.length →
      bytes.length ≤ 6 → ∀ ps, s.Timed (frameHalfbits ⟨n, bytes⟩) ps → ∀ posedge,
        (s.feed (Pulse.line posedge ps)).receiver.dcclen.toNat = bytes.length ∧
          (s.feed (Pulse.line posedge ps)).receiver.dccbytes.toList.take bytes.length = bytes := by
  intro h
  have hidle := h fallen reachable_fallen 14 (by decide) [0xFF, 0x00, 0xFF] (by decide) (by decide)
    (glitched 11000 [100, 1600, 3100, 2100, 1100] (frameHalfbits ⟨14, [0xFF, 0x00, 0xFF]⟩))
    (by decide +kernel) true
  have hlen : (fallen.feed (Pulse.line true (glitched 11000 [100, 1600, 3100, 2100, 1100]
      (frameHalfbits ⟨14, [0xFF, 0x00, 0xFF]⟩)))).receiver.dcclen.toNat = 0 := by
    decide +kernel
  rw [hlen] at hidle
  exact absurd hidle.1 (by decide)

end Sniffer

end CommandStation
