import CommandStation.SerialUsbLog.Spec

/-!
# Pages that follow the log

Bytes are written, the page asks and gets replies, some of them get lost, the page is cleared: whatever the
order is, the page has bytes that went over the line, in their order and none of them twice. It has all of
them up to its number unless a reply came late, beginning behind the page's number (`page_follows`). A reply
is late when more bytes than the buffer holds had been written, before it was made, since the number that was
asked for, or when the page was cleared while it was on its way. When nothing is written for a few ticks the
page is up to date (`caught_up`).
-/

namespace CommandStation

open CommandStation.Lib

namespace LogView

variable {len : UInt16} {es : List LogView.Event} {e : LogView.Event} {v : LogView} {r : Reader UInt8}

/-- What is written is ASCII text without a zero byte, and less than 2 GiB of it. -/
def Text (v : LogView) : Event → Prop
  | .write b => b ≠ 0 ∧ b < 128 ∧ v.log.serialPort.length + 1 < 2147483648
  | _ => True

/-- The first byte of the reply that is on its way comes behind the page's number. -/
def Late (v : LogView) : Prop :=
  match v.fetch with
  | .replied fromSeq written _ => v.page.seq < max fromSeq (written - v.log.bufferSize)
  | _ => False

/-- Since the page was last cleared a late reply came. -/
def FellBehind (len : UInt16) (es : List Event) : Prop :=
  ∃ before after, es = before ++ .arrive :: after ∧ .clear ∉ after ∧ (run step (init len) before).Late

theorem fellBehind_nil : ¬ FellBehind len [] := by
  rintro ⟨before, after, heq, -⟩
  exact List.append_ne_nil_of_right_ne_nil before (List.cons_ne_nil _ after) heq.symm

/-- The page falls behind with a reply that comes late, and begins anew when it is cleared. -/
theorem fellBehind_append : FellBehind len (es ++ [e]) ↔
    (e = .arrive ∧ (run step (init len) es).Late) ∨ (e ≠ .clear ∧ FellBehind len es) := by
  constructor
  · rintro ⟨before, after, heq, hclear, hlate⟩
    obtain rfl | ⟨after', e', rfl⟩ := List.eq_nil_or_concat after
    · obtain ⟨rfl, hlast⟩ := List.append_inj' heq rfl
      exact .inl ⟨List.singleton_inj.1 hlast, hlate⟩
    · rw [List.concat_eq_append, ← List.cons_append, ← List.append_assoc] at heq
      obtain ⟨hes, hlast⟩ := List.append_inj' heq rfl
      obtain rfl := List.singleton_inj.1 hlast
      rw [List.concat_eq_append, List.mem_append, List.mem_singleton, not_or] at hclear
      exact .inr ⟨Ne.symm hclear.2, before, after', hes, hclear.1, hlate⟩
  · rintro (⟨rfl, hlate⟩ | ⟨hne, before, after, rfl, hclear, hlate⟩)
    · exact ⟨es, [], rfl, List.not_mem_nil, hlate⟩
    · refine ⟨before, after ++ [e], by rw [List.append_assoc, List.cons_append], ?_, hlate⟩
      rw [List.mem_append, List.mem_singleton]
      rintro (hin | heq)
      · exact hclear hin
      · exact hne heq.symm

/-! ## The page is a reader -/

/-- The request that is under way asks for nothing before the page's number, and the reply to it has the
bytes from there on, as far as the buffer had them. -/
def Fetching (len : UInt16) (v : LogView) : Prop :=
  match v.fetch with
  | .idle => True
  | .asked fromSeq => v.page.seq ≤ fromSeq ∧ fromSeq ≤ v.log.serialPort.length
  | .replied fromSeq written reply =>
    v.page.seq ≤ fromSeq ∧ ∃ start n, ∃ next : UInt32,
      start = max fromSeq (written - len.toNat) ∧ start + n ≤ v.log.serialPort.length ∧
        next.toNat = start + n ∧
        reply = (next, SerialUsbLog.replyHeader next ++ (v.log.serialPort.drop start).take n)

/-- The page has read what the reader has. -/
structure Shows (len : UInt16) (v : LogView) (r : Reader UInt8) : Prop where
  good : v.log.Good len
  short : v.log.serialPort.length < 2147483648
  text : ∀ b ∈ v.log.serialPort, b ≠ 0
  page : v.page = ⟨r.seq, r.text⟩
  reads : Reader.Reads v.log.serialPort r
  fetching : v.Fetching len

theorem Shows.init (len : UInt16) : Shows len (init len) .new :=
  ⟨.new len, Nat.zero_lt_succ _, fun _ hb => absurd hb List.not_mem_nil, rfl, .new _, trivial⟩

/-- A byte of text that is written changes nothing of what the page has read. -/
theorem Shows.write (hlen : 0 < len) (h : Shows len v r) {b : UInt8} (htext : v.Text (.write b)) :
    Shows len (v.step (.write b)) r := by
  have hport : (v.step (.write b)).log.serialPort = v.log.serialPort ++ [b] :=
    v.log.serialPort_write b
  have hlonger : (v.log.serialPort ++ [b]).length = v.log.serialPort.length + 1 := List.length_append
  refine ⟨h.good.write hlen b, ?_, ?_, h.page, ?_, ?_⟩
  · rw [hport, hlonger]
    exact htext.2.2
  · intro c hc
    rw [hport] at hc
    obtain hc | hc := List.mem_append.1 hc
    · exact h.text c hc
    · rw [List.mem_singleton.1 hc]
      exact htext.1
  · rw [hport]
    exact h.reads.append [b]
  · have hfetching := h.fetching
    unfold Fetching at hfetching ⊢
    rw [hport, hlonger]
    show match v.fetch with
      | .idle => True
      | .asked fromSeq => _
      | .replied fromSeq written reply => _
    split at hfetching
    · trivial
    · exact ⟨hfetching.1, by omega⟩
    · -- the reply has the bytes that were there when it was made
      obtain ⟨hfrom, start, n, next, hstart, hend, hnext, hreply⟩ := hfetching
      refine ⟨hfrom, start, n, next, hstart, by omega, hnext, ?_⟩
      rw [hreply, List.drop_append_of_le_length (by omega),
        List.take_append_of_le_length (by rw [List.length_drop]; omega)]

theorem Shows.ask (h : Shows len v r) : Shows len v.ask r := by
  unfold LogView.ask
  split
  · have hle : v.page.seq ≤ v.log.serialPort.length := by
      rw [h.page]
      exact h.reads.le
    exact ⟨h.good, h.short, h.text, h.page, h.reads, le_rfl, hle⟩
  · exact h

theorem Shows.serve (h : Shows len v r) : Shows len v.serve r := by
  have hfetching := h.fetching
  unfold LogView.serve
  unfold Fetching at hfetching
  split
  · next fromSeq hasked =>
    rw [hasked] at hfetching
    obtain ⟨hfrom, hle⟩ := hfetching
    obtain ⟨next, hnext, hreply⟩ := h.good.logReply_eq h.short h.text hle
    refine ⟨h.good, h.short, h.text, h.page, h.reads, hfrom, _, _, next, rfl, ?_, hnext, hreply⟩
    show max fromSeq (v.log.serialPort.length - len.toNat) + _ ≤ v.log.serialPort.length
    omega
  · exact h

/-- A reply that arrives is read. It is late if and only if something is missed. -/
theorem Shows.arrive (h : Shows len v r) :
    ∃ r', Shows len v.arrive r' ∧ (r'.missed = 0 ↔ r.missed = 0 ∧ ¬ v.Late) := by
  have hfetching := h.fetching
  unfold Fetching at hfetching
  cases hfetch : v.fetch with
  | idle =>
    have hsame : v.arrive = v := by rw [LogView.arrive, hfetch]
    exact ⟨r, hsame.symm ▸ h, by simp [Late, hfetch]⟩
  | asked fromSeq =>
    have hsame : v.arrive = v := by rw [LogView.arrive, hfetch]
    exact ⟨r, hsame.symm ▸ h, by simp [Late, hfetch]⟩
  | replied fromSeq written reply =>
    rw [hfetch] at hfetching
    obtain ⟨hfrom, start, n, next, hstart, hend, hnext, rfl⟩ := hfetching
    have hlate : v.Late ↔ r.seq < start := by
      rw [Late, hfetch, h.page, h.good.size, hstart]
    rw [h.page] at hfrom
    have hbehind : r.seq ≤ start := by
      rw [hstart]
      exact le_max_of_le_left hfrom
    have harrive : v.arrive = { v with
        page := v.page.receive (next, SerialUsbLog.replyHeader next ++ (v.log.serialPort.drop start).take n)
        fetch := .idle } := by rw [LogView.arrive, hfetch]
    rw [harrive, hlate, Nat.not_lt]
    refine ⟨r.receive start n v.log.serialPort, ⟨h.good, h.short, h.text, ?_, ?_, trivial⟩,
      Reader.missed_receive _ _ _ _⟩
    · show v.page.receive _ = _
      rw [h.page]
      exact LogPage.receive_eq hbehind hnext
    · exact h.reads.receive hbehind hend

/-- What the reader has is the same after a reply got lost, and a page that is cleared is as new. -/
theorem Shows.lose (h : Shows len v r) : Shows len (v.step .lose) r :=
  ⟨h.good, h.short, h.text, h.page, h.reads, trivial⟩

theorem Shows.clear (h : Shows len v r) : Shows len (v.step .clear) .new := by
  refine ⟨h.good, h.short, h.text, rfl, .new _, ?_⟩
  have hfetching := h.fetching
  unfold Fetching at hfetching ⊢
  show match v.fetch with
    | .idle => True
    | .asked fromSeq => _
    | .replied fromSeq written reply => _
  split at hfetching
  · trivial
  · exact ⟨Nat.zero_le _, hfetching.2⟩
  · exact ⟨Nat.zero_le _, hfetching.2⟩

/-- After every run the page has what some reader has, which has missed something if and only if the
page fell behind. -/
theorem exists_shows (hlen : 0 < len) (h : Along step Text (init len) es) :
    ∃ r, Shows len (run step (init len) es) r ∧ (r.missed = 0 ↔ ¬ FellBehind len es) := by
  induction es using List.reverseRecOn with
  | nil => exact ⟨.new, .init len, iff_of_true rfl fellBehind_nil⟩
  | append_singleton es e ih =>
    rw [along_append] at h
    obtain ⟨r, hshows, hmissed⟩ := ih h.1
    rw [run_append, run_cons, run_nil, fellBehind_append]
    -- an event that the reader does not notice
    have hsame : e ≠ .arrive → e ≠ .clear → (r.missed = 0 ↔
        ¬ ((e = .arrive ∧ (run step (init len) es).Late) ∨ (e ≠ .clear ∧ FellBehind len es))) := by
      intro harrive hclear
      rw [hmissed]
      simp [harrive, hclear]
    cases e with
    | write b => exact ⟨r, hshows.write hlen h.2.1, hsame nofun nofun⟩
    | ask => exact ⟨r, hshows.ask, hsame nofun nofun⟩
    | serve => exact ⟨r, hshows.serve, hsame nofun nofun⟩
    | lose => exact ⟨r, hshows.lose, hsame nofun nofun⟩
    | arrive =>
      obtain ⟨r', hshows', hmissed'⟩ := hshows.arrive
      refine ⟨r', hshows', ?_⟩
      rw [hmissed', hmissed]
      simp [and_comm]
    | clear => exact ⟨.new, hshows.clear, iff_of_true rfl (by simp)⟩

/-! ## What the page has -/

/-- **The page follows the log.** Its text is part of what went over the line up to its number, in order,
and it is all of it if and only if no reply came late. -/
theorem page_follows (hlen : 0 < len) (h : Along step Text (init len) es) :
    let v := run step (init len) es
    v.page.buf.Sublist (v.log.serialPort.take v.page.seq) ∧
      (v.page.buf = v.log.serialPort.take v.page.seq ↔ ¬ FellBehind len es) := by
  obtain ⟨r, hshows, hmissed⟩ := exists_shows hlen h
  intro v
  have hpage : v.page = ⟨r.seq, r.text⟩ := hshows.page
  rw [hpage]
  exact ⟨hshows.reads.sublist, hshows.reads.text_eq_iff.trans hmissed⟩

/-- A tick whose reply arrives, with nothing written meanwhile. -/
def round : List Event := [.ask, .serve, .arrive]

/-- It is a poll. -/
theorem Shows.round (h : Shows len v r) (hidle : v.fetch = .idle) :
    Shows len (run step v round) (r.poll len.toNat 1000 v.log.serialPort) ∧
      (run step v round).fetch = .idle ∧ (run step v round).log = v.log := by
  have hseq : v.page.seq = r.seq := congrArg LogPage.seq h.page
  obtain ⟨next, hnext, hreply⟩ := h.good.logReply_eq h.short h.text h.reads.le
  have hend : max r.seq (v.log.serialPort.length - len.toNat) ≤ v.log.serialPort.length :=
    Nat.max_le.2 ⟨h.reads.le, Nat.sub_le _ _⟩
  have hrun : run step v LogView.round =
      { v with page := v.page.receive (v.log.logReply r.seq 2048), fetch := .idle } := by
    simp only [LogView.round, run_cons, run_nil, step, LogView.ask, hidle, LogView.serve, LogView.arrive, hseq]
  rw [hrun]
  refine ⟨⟨h.good, h.short, h.text, ?_, h.reads.poll _ _, trivial⟩, rfl, rfl⟩
  show v.page.receive _ = _
  rw [h.page, hreply]
  exact LogPage.receive_eq (Nat.le_max_left _ _) hnext

theorem Shows.rounds (h : Shows len v r) (hidle : v.fetch = .idle) (k : Nat) :
    Shows len (run step v (List.replicate k LogView.round).flatten)
      ((Reader.poll len.toNat 1000 v.log.serialPort)^[k] r) := by
  induction k generalizing v r with
  | zero => exact h
  | succ k ih =>
    obtain ⟨hshows, hidle', hlog⟩ := h.round hidle
    rw [List.replicate_succ, List.flatten_cons, run_append]
    have hrest := ih hshows hidle'
    rw [hlog] at hrest
    exact hrest

/-- **The page catches up.** A reply brings a thousand bytes, and it never takes more than the buffer
holds for the page's number to be that of the end. -/
theorem caught_up (hlen : 0 < len) (h : Along step Text (init len) es)
    (hv : run step (init len) es = v) (hidle : v.fetch = .idle) {k : Nat}
    (hk : min len.toNat (v.log.serialPort.length - v.page.seq) ≤ (k + 1) * 1000) :
    (run step v (List.replicate (k + 1) round).flatten).page.seq = v.log.serialPort.length := by
  obtain ⟨r, hshows, -⟩ := exists_shows hlen h
  rw [hv] at hshows
  have hle := hshows.reads.le
  rw [hshows.page] at hk
  change min len.toNat (v.log.serialPort.length - r.seq) ≤ (k + 1) * 1000 at hk
  rw [(hshows.rounds hidle (k + 1)).page]
  show ((Reader.poll len.toNat 1000 _)^[k + 1] r).seq = _
  rw [Reader.seq_polls hshows.reads, Reader.start]
  omega

/-- Two bytes are written, a reply gets lost, and the page is cleared while the next one is on its way. -/
theorem page_follows_lost :
    let es : List Event := [.write 60, .write 62, .ask, .lose, .ask, .serve, .clear, .arrive]
    let v := run step (init SerialUsbLog.logBuffer) es
    v.page.buf.Sublist (v.log.serialPort.take v.page.seq) ∧
      (v.page.buf = v.log.serialPort.take v.page.seq ↔ ¬ FellBehind SerialUsbLog.logBuffer es) :=
  page_follows (by decide)
    ⟨⟨by decide, by decide, by decide⟩, ⟨by decide, by decide, by decide⟩, trivial, trivial, trivial, trivial,
      trivial, trivial, trivial⟩

theorem caught_up_one :
    let v := run step (init SerialUsbLog.logBuffer) [.write 60]
    (run step v (List.replicate (0 + 1) round).flatten).page.seq = v.log.serialPort.length :=
  have h : Along step Text (init SerialUsbLog.logBuffer) [.write 60] :=
    ⟨⟨by decide, by decide, by decide⟩, trivial⟩
  caught_up (by decide) h rfl rfl (by decide)

end LogView

end CommandStation
